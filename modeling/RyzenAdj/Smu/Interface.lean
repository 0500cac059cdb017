import RyzenAdj.Interaction.Semantics
import RyzenAdj.Words

/-!
# The OS interface of the mailbox code (`nb_smu_ops.h`)

What `nb_smu_ops.c` calls: the register and raw-command functions of the OS
backends, and the libc functions for the lock, the clock and sleeping. Each is
one call of the signature `mailbox`; its meaning belongs to whoever runs the
program.
-/

namespace RyzenAdj
open Interaction

structure KmodObj where
  smnFd : Int
  pmTableFd : Int
  rawCmdFd : Int
  pmTableSize : Nat
  deriving DecidableEq, Repr

structure MemObj where
  pciAcc : Nat
  pciDev : Nat
  deriving DecidableEq, Repr

/-- `os_access_obj_t`. The C union carries no tag; the constructor records which
backend built the object. -/
inductive OsAccessObj where
  | kmod (o : KmodObj)
  | mem (o : MemObj)
  deriving DecidableEq, Repr

def OsAccessObj.isKmod : OsAccessObj → Bool
  | .kmod _ => true
  | .mem _ => false

structure Smu where
  osAccess : OsAccessObj
  msg : Word
  rep : Word
  argBase : Word
  deriving DecidableEq, Repr

/-- What `flock(fd, LOCK_EX | LOCK_NB)` comes back with. -/
inductive FlockResult where
  | acquired
  | error (e : Errno)
  deriving DecidableEq, Repr

inductive Mailbox.Op where
  | smuLockFd
  | openSmuLock
  | flockEx
  | flockUn
  | monotonicMs
  | usleep
  | shortSleep
  | malloc
  | cpuidGetFamily
  | smnRegRead (obj : OsAccessObj) (addr : Word)
  | smnRegWrite (obj : OsAccessObj) (addr data : Word)
  | smnIoTakeError
  | smuRawCmd (obj : OsAccessObj) (msg rep argBase id : Word) (args : Args)
  deriving DecidableEq

abbrev Mailbox.Ret : Mailbox.Op → Type
  | .smuLockFd => Bool
  | .openSmuLock => Bool
  | .flockEx => FlockResult
  | .flockUn => Unit
  | .monotonicMs => Nat
  | .usleep => Unit
  | .shortSleep => Unit
  | .malloc => Bool
  | .cpuidGetFamily => RyzenFamily
  | .smnRegRead _ _ => Word
  | .smnRegWrite _ _ _ => Unit
  | .smnIoTakeError => Bool
  | .smuRawCmd _ _ _ _ _ _ => Option (Word × Args)

abbrev mailbox : Signature := ⟨Mailbox.Op, Mailbox.Ret⟩

namespace Mailbox

def smuLockFd : Prog mailbox Bool := .perform (S := mailbox) .smuLockFd
/-- `smu_lock_fd = open(SMU_LOCK_PATH, ...)`; true when it gave a descriptor. -/
def openSmuLock : Prog mailbox Bool := .perform (S := mailbox) .openSmuLock
def flockEx : Prog mailbox FlockResult := .perform (S := mailbox) .flockEx
def flockUn : Prog mailbox Unit := .perform (S := mailbox) .flockUn
def monotonicMs : Prog mailbox Nat := .perform (S := mailbox) .monotonicMs
def usleep : Prog mailbox Unit := .perform (S := mailbox) .usleep
def shortSleep : Prog mailbox Unit := .perform (S := mailbox) .shortSleep
def malloc : Prog mailbox Bool := .perform (S := mailbox) .malloc
def cpuidGetFamily : Prog mailbox RyzenFamily := .perform (S := mailbox) .cpuidGetFamily
def smnRegRead (obj : OsAccessObj) (addr : Word) : Prog mailbox Word :=
  .perform (S := mailbox) (.smnRegRead obj addr)
def smnRegWrite (obj : OsAccessObj) (addr data : Word) : Prog mailbox Unit :=
  .perform (S := mailbox) (.smnRegWrite obj addr data)
def smnIoTakeError : Prog mailbox Bool := .perform (S := mailbox) .smnIoTakeError
/-- `smu_raw_cmd`: `none` is the return value -1, `some` the 0 with `*response` and `*args`. -/
def smuRawCmd (obj : OsAccessObj) (msg rep argBase id : Word) (args : Args) :
    Prog mailbox (Option (Word × Args)) :=
  .perform (S := mailbox) (.smuRawCmd obj msg rep argBase id args)

/-- The calls that touch the mailbox registers or the driver's mailbox. -/
def Op.access : Op → Bool
  | .smnRegRead _ _ | .smnRegWrite _ _ _ | .smuRawCmd _ _ _ _ _ _ => true
  | _ => false

/-- The access object a call is made on, for the calls that take one. -/
def Op.accessObj : Op → Option OsAccessObj
  | .smnRegRead obj _ | .smnRegWrite obj _ _ | .smuRawCmd obj _ _ _ _ _ => some obj
  | _ => none

end Mailbox
end RyzenAdj
