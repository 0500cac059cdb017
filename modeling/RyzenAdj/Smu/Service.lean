import RyzenAdj.Smu.Interface

/-!
# SMU service requests (`lib/nb_smu_ops.c`)

The mailbox transaction: the cross-process lock, the request proper
(`smu_service_req`), the probe (`smu_service_test`) and the choice of the
mailbox registers (`get_smu`).
-/

namespace RyzenAdj
open Interaction Mailbox

def smuTestMsg : Word := 0x1

def c2pmsgArgXAddr (base offt : Word) : Word := base + 4 * offt

/-- `smu_lock`. True is the return value 0: the caller may go on, holding the
lock or, when no lock file can be opened or locked at all, without one. -/
def smuLockTurn (deadline : Nat) (_ : Unit) : Prog mailbox (Unit ⊕ Bool) := do
  match ← flockEx with
  | .acquired => return .inr true
  | .error e =>
    if e ≠ eWouldBlock ∧ e ≠ eIntr then return .inr true
    let now ← monotonicMs
    if deadline ≤ now then return .inr false
    usleep
    return .inl ()

def smuLock : Prog mailbox Bool := do
  let fdOpen ← smuLockFd
  let opened ← if fdOpen then pure true else openSmuLock
  if !opened then return true
  let now ← monotonicMs
  Prog.iterate () (smuLockTurn (now + smuLockTimeoutMs))

def smuUnlock : Prog mailbox Unit := do
  let fdOpen ← smuLockFd
  if fdOpen then flockUn else return ()

/-- `smu_wait_for_response`: poll until the register is written or the time is
over; after 128 turns every further turn sleeps. -/
def smuWaitTurn (smu : Smu) (deadline : Nat) (spins : Word) : Prog mailbox (Word ⊕ Word) := do
  let response ← smnRegRead smu.osAccess smu.rep
  if response ≠ repMsgTimeout then return .inr response
  let now ← monotonicMs
  if deadline ≤ now then return .inr repMsgTimeout
  if 128 < spins + 1 then
    shortSleep
    return .inl (spins + 1)
  else
    return .inl (spins + 1)

def smuWaitForResponse (smu : Smu) : Prog mailbox Word := do
  let now ← monotonicMs
  Prog.iterate 0 (smuWaitTurn smu (now + smuRespTimeoutMs))

def smuWriteSetup (smu : Smu) (args : Args) : Prog mailbox Unit := do
  smnRegWrite smu.osAccess smu.rep 0x0
  smnRegWrite smu.osAccess (c2pmsgArgXAddr smu.argBase 0) args.arg0
  smnRegWrite smu.osAccess (c2pmsgArgXAddr smu.argBase 1) args.arg1
  smnRegWrite smu.osAccess (c2pmsgArgXAddr smu.argBase 2) args.arg2
  smnRegWrite smu.osAccess (c2pmsgArgXAddr smu.argBase 3) args.arg3
  smnRegWrite smu.osAccess (c2pmsgArgXAddr smu.argBase 4) args.arg4
  smnRegWrite smu.osAccess (c2pmsgArgXAddr smu.argBase 5) args.arg5

def smuReadBack (smu : Smu) : Prog mailbox Args := do
  let arg0 ← smnRegRead smu.osAccess (c2pmsgArgXAddr smu.argBase 0)
  let arg1 ← smnRegRead smu.osAccess (c2pmsgArgXAddr smu.argBase 1)
  let arg2 ← smnRegRead smu.osAccess (c2pmsgArgXAddr smu.argBase 2)
  let arg3 ← smnRegRead smu.osAccess (c2pmsgArgXAddr smu.argBase 3)
  let arg4 ← smnRegRead smu.osAccess (c2pmsgArgXAddr smu.argBase 4)
  let arg5 ← smnRegRead smu.osAccess (c2pmsgArgXAddr smu.argBase 5)
  return ⟨arg0, arg1, arg2, arg3, arg4, arg5⟩

/-- The register path of `smu_service_req`, from clearing the sticky error flag
to the last `smu_unlock`. The doorbell is not rung after a failed setup write. -/
def smuServiceReqRegisters (smu : Smu) (id : Word) (args : Args) : Prog mailbox (Word × Args) := do
  let _ ← smnIoTakeError
  smuWriteSetup smu args
  let setupFailed ← smnIoTakeError
  if setupFailed then
    smuUnlock
    return (repMsgFailed, args)
  smnRegWrite smu.osAccess smu.msg id
  let response ← smuWaitForResponse smu
  if response = repMsgTimeout then
    let _ ← smnIoTakeError
    smuUnlock
    return (repMsgTimeout, args)
  let args ← smuReadBack smu
  let readFailed ← smnIoTakeError
  let response := if readFailed ∧ response = repMsgOK then repMsgFailed else response
  smuUnlock
  return (response, args)

/-- `smu_service_req`: the response and what the caller's `*args` holds afterwards. -/
def smuServiceReq (smu : Smu) (id : Word) (args : Args) : Prog mailbox (Word × Args) := do
  let locked ← smuLock
  if !locked then return (repMsgCmdRejectedBusy, args)
  match ← smuRawCmd smu.osAccess smu.msg smu.rep smu.argBase id args with
  | some (response, args') =>
    smuUnlock
    return (response, args')
  | none => smuServiceReqRegisters smu id args

def smuServiceTestRegisters (smu : Smu) : Prog mailbox Bool := do
  smnRegWrite smu.osAccess smu.rep 0x0
  smnRegWrite smu.osAccess smu.argBase 0x47
  let echo ← smnRegRead smu.osAccess smu.argBase
  if echo ≠ 0x47 then
    smuUnlock
    return false
  smnRegWrite smu.osAccess smu.msg smuTestMsg
  let response ← smuWaitForResponse smu
  let _ ← smnIoTakeError
  smuUnlock
  if response = repMsgTimeout then return false
  return decide (response = repMsgOK)

def smuServiceTest (smu : Smu) : Prog mailbox Bool := do
  let locked ← smuLock
  if !locked then return false
  let targs : Args := { Args.zero with arg0 := 0x47 }
  match ← smuRawCmd smu.osAccess smu.msg smu.rep smu.argBase smuTestMsg targs with
  | some (response, _) =>
    smuUnlock
    return decide (response = repMsgOK)
  | none => smuServiceTestRegisters smu

/-- The register addresses `get_smu` fills in: message, response, first argument.
`none` is its error exit for an unknown `smu_type`. -/
def smuAddrs (smuType : SmuType) (family : RyzenFamily) : Option (Word × Word × Word) :=
  match smuType with
  | .mp1 =>
    match family with
    | .rembrandt | .vangogh | .mendocino | .phoenix | .hawkpoint =>
      some (0x3B10528, 0x3B10578, 0x3B10998)
    | .krackanpoint | .strixpoint | .strixhalo => some (0x3B10928, 0x3B10978, 0x3B10998)
    | .dragonrange | .firerange => some (0x3B10530, 0x3B1057C, 0x3B109C4)
    | _ => some (0x3B10528, 0x3B10564, 0x3B10998)
  | .psmu =>
    match family with
    | .dragonrange | .firerange => some (0x03B10524, 0x03B10570, 0x03B10A40)
    | _ => some (0x3B10A20, 0x3B10A80, 0x3B10A88)
  | .count => none

def smuOf (obj : OsAccessObj) (smuType : SmuType) (family : RyzenFamily) : Option Smu :=
  (smuAddrs smuType family).map fun (msg, rep, argBase) => ⟨obj, msg, rep, argBase⟩

def ravenMp1 : Smu := ⟨.mem ⟨0, 0⟩, 0x3B10528, 0x3B10564, 0x3B10998⟩

def getSmu (obj : OsAccessObj) (smuType : SmuType) : Prog mailbox (Option Smu) := do
  let allocated ← malloc
  if !allocated then return none
  let family ← cpuidGetFamily
  match smuOf obj smuType family with
  | none => return none
  | some smu =>
    let works ← smuServiceTest smu
    if works then return some smu else return none

def argAddr (argBase : Word) (i : Fin 6) : Word := c2pmsgArgXAddr argBase (BitVec.ofNat 32 i)

/-- No two registers of a mailbox coincide. -/
def AddrsSeparate (msg rep argBase : Word) : Prop :=
  msg ≠ rep ∧ (∀ i, msg ≠ argAddr argBase i) ∧ (∀ i, rep ≠ argAddr argBase i) ∧
    ∀ i j, argAddr argBase i = argAddr argBase j → i = j

instance (msg rep argBase : Word) : Decidable (AddrsSeparate msg rep argBase) :=
  inferInstanceAs (Decidable (_ ∧ _ ∧ _ ∧ _))

theorem smuAddrs_separate {smuType : SmuType} {family : RyzenFamily} {a : Word × Word × Word}
    (h : smuAddrs smuType family = some a) : AddrsSeparate a.1 a.2.1 a.2.2 := by
  cases smuType with
  | mp1 => cases family <;> cases h <;> decide +kernel
  | psmu => cases family <;> cases h <;> decide +kernel
  | count => cases h

theorem smuOf_separate {obj : OsAccessObj} {smuType : SmuType} {family : RyzenFamily} {smu : Smu}
    (h : smuOf obj smuType family = some smu) : AddrsSeparate smu.msg smu.rep smu.argBase := by
  simp only [smuOf, Option.map_eq_some_iff] at h
  obtain ⟨a, ha, rfl⟩ := h
  exact smuAddrs_separate ha

theorem smuOf_osAccess {obj : OsAccessObj} {smuType : SmuType} {family : RyzenFamily} {smu : Smu}
    (h : smuOf obj smuType family = some smu) : smu.osAccess = obj := by
  simp only [smuOf, Option.map_eq_some_iff] at h
  obtain ⟨_, _, rfl⟩ := h
  rfl

end RyzenAdj
