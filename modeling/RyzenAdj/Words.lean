import Mathlib.Data.List.Basic

/-!
# Machine words, families and codes

The fixed-width values that cross the mailbox and the OS boundary: 32-bit
register words, their little-endian bytes, the argument block
`smu_service_args_t`, the processor families of `ryzenadj.h` and the response
and error codes.
-/

namespace RyzenAdj

abbrev Byte := BitVec 8
abbrev Word := BitVec 32

/-- The four bytes of a word as stored in memory, least significant first. -/
def wordBytes (w : Word) : List Byte :=
  [w.extractLsb' 0 8, w.extractLsb' 8 8, w.extractLsb' 16 8, w.extractLsb' 24 8]

def joinBytes (a b c d : Byte) : Word := d ++ c ++ b ++ a

@[simp] theorem wordBytes_length (w : Word) : (wordBytes w).length = 4 := rfl

theorem joinBytes_wordBytes (w : Word) :
    joinBytes (w.extractLsb' 0 8) (w.extractLsb' 8 8) (w.extractLsb' 16 8)
      (w.extractLsb' 24 8) = w := by
  unfold joinBytes
  ext i hi
  simp only [BitVec.getElem_append, BitVec.getElem_extractLsb']
  repeat' split
  all_goals simp only [← BitVec.getLsbD_eq_getElem]; congr 1; omega

/-- The words a byte string holds, a trailing part of a word being dropped. -/
def bytesWords : List Byte → List Word
  | a :: b :: c :: d :: rest => joinBytes a b c d :: bytesWords rest
  | _ => []

theorem bytesWords_wordBytes (w : Word) (rest : List Byte) :
    bytesWords (wordBytes w ++ rest) = w :: bytesWords rest := by
  show joinBytes _ _ _ _ :: bytesWords rest = w :: bytesWords rest
  rw [joinBytes_wordBytes]

theorem bytesWords_flatMap (ws : List Word) : bytesWords (ws.flatMap wordBytes) = ws := by
  induction ws with
  | nil => rfl
  | cons w ws ih => rw [List.flatMap_cons, bytesWords_wordBytes, ih]

theorem flatMap_wordBytes_length (ws : List Word) :
    (ws.flatMap wordBytes).length = 4 * ws.length := by
  induction ws with
  | nil => rfl
  | cons w ws ih =>
    simp only [List.flatMap_cons, List.length_append, wordBytes_length, List.length_cons, ih]
    omega

/-- `smu_service_args_t`. -/
@[ext] structure Args where
  arg0 : Word
  arg1 : Word
  arg2 : Word
  arg3 : Word
  arg4 : Word
  arg5 : Word
  deriving DecidableEq, Repr

def Args.zero : Args := ⟨0, 0, 0, 0, 0, 0⟩

def Args.get (a : Args) : Fin 6 → Word
  | 0 => a.arg0
  | 1 => a.arg1
  | 2 => a.arg2
  | 3 => a.arg3
  | 4 => a.arg4
  | 5 => a.arg5

/-- `enum ryzen_family` without its `WAIT_FOR_LOAD` and `FAM_END` markers. -/
inductive RyzenFamily where
  | unknown
  | raven
  | picasso
  | renoir
  | cezanne
  | dali
  | lucienne
  | vangogh
  | rembrandt
  | mendocino
  | phoenix
  | hawkpoint
  | dragonrange
  | krackanpoint
  | strixpoint
  | strixhalo
  | firerange
  deriving DecidableEq, Repr

inductive SmuType where
  | mp1
  | psmu
  | count
  deriving DecidableEq, Repr

/-- Response codes of the mailbox (`nb_smu_ops.h`). Zero is both "not written
yet" and the timeout marker. -/
def repMsgTimeout : Word := 0x0
def repMsgOK : Word := 0x1
def repMsgFailed : Word := 0xFF
def repMsgUnknownCmd : Word := 0xFE
def repMsgCmdRejectedPrereq : Word := 0xFD
def repMsgCmdRejectedBusy : Word := 0xFC

/-- Error codes of the library (`ryzenadj.h`). -/
def adjErrFamUnsupported : Int := -1
def adjErrSmuTimeout : Int := -2
def adjErrSmuUnsupported : Int := -3
def adjErrSmuRejected : Int := -4
def adjErrMemoryAccess : Int := -5

def ryzenadjMaxTableSize : Nat := 0x2000

def smuRespTimeoutMs : Nat := 1000

def smuLockTimeoutMs : Nat := 2000

/-- `errno` values the code tells apart. -/
abbrev Errno := Nat

def eIntr : Errno := 4
def eIo : Errno := 5
def eAgain : Errno := 11
def eInval : Errno := 22
/-- `EWOULDBLOCK`, the same number as `EAGAIN` on Linux. -/
def eWouldBlock : Errno := 11

end RyzenAdj
