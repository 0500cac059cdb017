import RyzenAdj.Smu.Service

/-!
# The calls of a transaction

Which calls each part of a mailbox transaction makes, whatever the answers:
taking the lock, polling, reading back, giving the lock up.
-/

namespace RyzenAdj
open Interaction Mailbox

/-- Taking the lock: descriptor, `flock` and the clock. -/
def LockOp : Mailbox.Op → Prop
  | .smuLockFd | .openSmuLock | .flockEx | .monotonicMs | .usleep => True
  | _ => False

def UnlockOp : Mailbox.Op → Prop
  | .smuLockFd | .flockUn => True
  | _ => False

/-- Polling the response register. -/
def PollOp (smu : Smu) : Mailbox.Op → Prop
  | .smnRegRead obj addr => obj = smu.osAccess ∧ addr = smu.rep
  | .monotonicMs | .shortSleep => True
  | _ => False

def ReadBackOp (smu : Smu) : Mailbox.Op → Prop
  | .smnRegRead obj addr => obj = smu.osAccess ∧ ∃ i, addr = argAddr smu.argBase i
  | _ => False

theorem lockOp_smuLock : smuLock.Wp (Env.only LockOp) (fun _ _ => True) () := by
  have hloop : ∀ now : Nat, (Prog.iterate () (smuLockTurn (now + smuLockTimeoutMs))).Wp
      (Env.only LockOp) (fun _ _ => True) () := by
    intro now
    refine Prog.wp_loop _ (fun _ _ => True) trivial ?_
    intro _ _ _
    refine ⟨trivial, fun r _ _ => ?_⟩
    cases r with
    | acquired => trivial
    | error e =>
      apply Prog.wp_ite
      · exact fun _ => trivial
      · intro _
        refine ⟨trivial, fun now _ _ => ?_⟩
        apply Prog.wp_ite
        · exact fun _ => trivial
        · exact fun _ => ⟨trivial, fun _ _ _ => trivial⟩
  have hrest : ∀ opened : Bool, (if !opened then Prog.ret true else
      monotonicMs.bind fun now => Prog.iterate () (smuLockTurn (now + smuLockTimeoutMs))).Wp
      (Env.only LockOp) (fun _ _ => True) () := by
    intro opened
    apply Prog.wp_ite
    · exact fun _ => trivial
    · exact fun _ => ⟨trivial, fun now _ _ => hloop now⟩
  refine ⟨trivial, fun fdOpen _ _ => ?_⟩
  apply Prog.wp_ite
  · exact fun _ => hrest true
  · exact fun _ => ⟨trivial, fun opened _ _ => hrest opened⟩

theorem unlockOp_smuUnlock : smuUnlock.Wp (Env.only UnlockOp) (fun _ _ => True) () := by
  refine ⟨trivial, fun fdOpen _ _ => ?_⟩
  apply Prog.wp_ite
  · exact fun _ => ⟨trivial, fun _ _ _ => trivial⟩
  · exact fun _ => trivial

theorem unlockOp_unlockRet {α : Type} (a : α) :
    (smuUnlock.bind fun _ => .ret a).Wp (Env.only UnlockOp) (fun r _ => r = a) () :=
  Prog.wp_seq _ unlockOp_smuUnlock fun _ _ _ => rfl

theorem pollOp_smuWaitForResponse (smu : Smu) :
    (smuWaitForResponse smu).Wp (Env.only (PollOp smu)) (fun _ _ => True) () := by
  refine ⟨trivial, fun now _ _ => ?_⟩
  refine Prog.wp_loop _ (fun _ _ => True) trivial ?_
  intro spins _ _
  refine ⟨⟨rfl, rfl⟩, fun response _ _ => ?_⟩
  apply Prog.wp_ite
  · exact fun _ => trivial
  · intro _
    refine ⟨trivial, fun now _ _ => ?_⟩
    apply Prog.wp_ite
    · exact fun _ => trivial
    · intro _
      apply Prog.wp_ite
      · exact fun _ => ⟨trivial, fun _ _ _ => trivial⟩
      · exact fun _ => trivial

theorem readBackOp_smuReadBack (smu : Smu) :
    (smuReadBack smu).Wp (Env.only (ReadBackOp smu)) (fun _ _ => True) () :=
  ⟨⟨rfl, 0, rfl⟩, fun _ _ _ => ⟨⟨rfl, 1, rfl⟩, fun _ _ _ => ⟨⟨rfl, 2, rfl⟩, fun _ _ _ =>
    ⟨⟨rfl, 3, rfl⟩, fun _ _ _ => ⟨⟨rfl, 4, rfl⟩, fun _ _ _ =>
      ⟨⟨rfl, 5, rfl⟩, fun _ _ _ => trivial⟩⟩⟩⟩⟩⟩

/-- The calls of the register path: its registers, the sticky error, the clock and the lock. -/
def PathOp (smu : Smu) : Mailbox.Op → Prop
  | .smnRegRead obj _ | .smnRegWrite obj _ _ => obj = smu.osAccess
  | .smnIoTakeError | .smuLockFd | .flockUn | .monotonicMs | .shortSleep => True
  | _ => False

theorem pathOp_of_unlockOp (smu : Smu) {o : Mailbox.Op} (h : UnlockOp o) : PathOp smu o := by
  cases o <;> first | exact h.elim | exact h

theorem pathOp_of_pollOp {smu : Smu} {o : Mailbox.Op} (h : PollOp smu o) : PathOp smu o := by
  cases o <;> first | exact h.elim | exact h.1 | exact h

theorem pathOp_of_readBackOp {smu : Smu} {o : Mailbox.Op} (h : ReadBackOp smu o) :
    PathOp smu o := by
  cases o <;> first | exact h.elim | exact h.1

/-- A list of register writes. -/
def writeAll (obj : OsAccessObj) : List (Word × Word) → Prog mailbox Unit
  | [] => .ret ()
  | (addr, data) :: rest => (smnRegWrite obj addr data).bind fun _ => writeAll obj rest

/-- The setup writes of a request: the response register cleared, then the arguments. -/
def setupWrites (smu : Smu) (args : Args) : List (Word × Word) :=
  (smu.rep, 0x0) :: (List.finRange 6).map fun i => (argAddr smu.argBase i, args.get i)

theorem smuWriteSetup_eq (smu : Smu) (args : Args) :
    smuWriteSetup smu args = writeAll smu.osAccess (setupWrites smu args) := rfl

theorem pathOp_writeAll (smu : Smu) (ws : List (Word × Word)) :
    (writeAll smu.osAccess ws).Wp (Env.only (PathOp smu)) (fun _ _ => True) () := by
  induction ws with
  | nil => trivial
  | cons w ws ih => exact ⟨rfl, fun _ _ _ => ih⟩

theorem pathOp_unlockRet (smu : Smu) {α : Type} (a : α) :
    (smuUnlock.bind fun _ => .ret a).Wp (Env.only (PathOp smu)) (fun _ _ => True) () :=
  Prog.wp_mono _ (Prog.wp_only_mono (fun _ => pathOp_of_unlockOp smu) (unlockOp_unlockRet a))
    fun _ _ _ => trivial

theorem pathOp_smuServiceReqRegisters (smu : Smu) (id : Word) (args : Args) :
    (smuServiceReqRegisters smu id args).Wp (Env.only (PathOp smu)) (fun _ _ => True) () := by
  have hpoll := Prog.wp_only_mono (fun _ => pathOp_of_pollOp) (pollOp_smuWaitForResponse smu)
  have hread := Prog.wp_only_mono (fun _ => pathOp_of_readBackOp) (readBackOp_smuReadBack smu)
  have hsetup : (smuWriteSetup smu args).Wp (Env.only (PathOp smu)) (fun _ _ => True) () :=
    pathOp_writeAll smu (setupWrites smu args)
  refine ⟨trivial, fun _ _ _ => ?_⟩
  simp only [Prog.ret_bind, Prog.bind_eq, Prog.pure_eq]
  apply Prog.wp_seq _ hsetup
  intro _ _ _
  refine ⟨trivial, fun setupFailed _ _ => ?_⟩
  apply Prog.wp_ite
  · exact fun _ => pathOp_unlockRet smu _
  · intro _
    refine ⟨rfl, fun _ _ _ => ?_⟩
    simp only [Prog.ret_bind]
    apply Prog.wp_seq _ hpoll
    intro response _ _
    apply Prog.wp_ite
    · exact fun _ => ⟨trivial, fun _ _ _ => pathOp_unlockRet smu _⟩
    · intro _
      apply Prog.wp_seq _ hread
      intro args' _ _
      exact ⟨trivial, fun _ _ _ => pathOp_unlockRet smu _⟩

theorem setupWrites_ne_msg {smu : Smu} (args : Args)
    (h : AddrsSeparate smu.msg smu.rep smu.argBase) {w : Word × Word}
    (hw : w ∈ setupWrites smu args) : w.1 ≠ smu.msg := by
  obtain ⟨hrep, hargs, _, _⟩ := h
  rcases List.mem_cons.mp hw with rfl | hw
  · exact hrep.symm
  · obtain ⟨i, _, rfl⟩ := List.mem_map.mp hw
    exact (hargs i).symm

theorem setupWrites_pairwise {smu : Smu} (args : Args)
    (h : AddrsSeparate smu.msg smu.rep smu.argBase) :
    (setupWrites smu args).Pairwise fun a b => a.1 ≠ b.1 := by
  obtain ⟨_, _, hrep, hinj⟩ := h
  refine List.pairwise_cons.mpr ⟨?_, ?_⟩
  · intro w hw
    obtain ⟨i, _, rfl⟩ := List.mem_map.mp hw
    exact hrep i
  · refine List.pairwise_map.mpr ((List.nodup_finRange 6).imp ?_)
    intro i j hij heq
    exact hij (hinj i j heq)

end RyzenAdj
