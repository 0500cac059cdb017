import Mathlib.Logic.Function.Basic
import RyzenAdj.Smu.Calls

/-!
# The register path against an answering SMU

The registers of one mailbox without faults, and an SMU that answers a request
after some number of reads, or not at all. The outcome of the register path
for any such answer, whatever the registers held and however the clock runs.
-/

namespace RyzenAdj
open Interaction Mailbox

/-- What the SMU does with a request: a response code and six words in the argument
registers. Zero is no code, it is what the register holds before the answer. -/
structure SmuAnswer where
  code : Word
  result : Args
  code_ne_zero : code ≠ repMsgTimeout

def SmuAnswer.store (a : SmuAnswer) (smu : Smu) (regs : Word → Word) (addr : Word) : Word :=
  if addr = smu.rep then a.code
  else match (List.finRange 6).find? fun i => argAddr smu.argBase i = addr with
    | some i => a.result.get i
    | none => regs addr

theorem SmuAnswer.store_arg {smu : Smu} (hsep : AddrsSeparate smu.msg smu.rep smu.argBase)
    (a : SmuAnswer) (regs : Word → Word) (i : Fin 6) :
    a.store smu regs (argAddr smu.argBase i) = a.result.get i := by
  obtain ⟨_, _, hrep, hinj⟩ := hsep
  have hfind : ((List.finRange 6).find? fun j => argAddr smu.argBase j = argAddr smu.argBase i) =
      some i := by
    cases hf : (List.finRange 6).find? fun j => argAddr smu.argBase j = argAddr smu.argBase i with
    | none =>
      have hno := List.find?_eq_none.mp hf i (List.mem_finRange i)
      simp at hno
    | some j =>
      have hj := List.find?_some hf
      rw [hinj j i (of_decide_eq_true hj)]
  unfold SmuAnswer.store
  rw [if_neg (hrep i).symm, hfind]

/-- How the rest of the world moves during a request: the readings of the clock, and
the answer with the number of reads that come before it. -/
structure Schedule where
  clock : Nat → Nat
  answer : Option (SmuAnswer × Nat)

/-- The answer comes before the wait is over; without one the clock goes on. -/
def Schedule.InTime (sched : Schedule) : Prop :=
  match sched.answer with
  | some (_, n) => ∀ i < n, sched.clock (i + 1) < sched.clock 0 + smuRespTimeoutMs
  | none => ∃ n, sched.clock 0 + smuRespTimeoutMs ≤ sched.clock (n + 1)

structure Registers where
  regs : Word → Word
  rung : Bool
  reads : Nat
  readings : Nat

def Registers.seen (smu : Smu) (sched : Schedule) (b : Registers) : Word → Word :=
  match sched.answer with
  | some (a, n) => if b.rung ∧ n ≤ b.reads then a.store smu b.regs else b.regs
  | none => b.regs

/-- No access fails; there is no raw command, the request goes through the registers. -/
def Registers.answer (smu : Smu) (sched : Schedule) (b : Registers) :
    (o : Mailbox.Op) → Option (Mailbox.Ret o) × Registers
  | .smuLockFd => (some true, b)
  | .openSmuLock => (some true, b)
  | .flockEx => (some .acquired, b)
  | .flockUn => (some (), b)
  | .monotonicMs => (some (sched.clock b.readings), { b with readings := b.readings + 1 })
  | .usleep => (some (), b)
  | .shortSleep => (some (), b)
  | .malloc => (some true, b)
  | .cpuidGetFamily => (none, b)
  | .smnRegRead _ addr => (some (b.seen smu sched addr), { b with reads := b.reads + 1 })
  | .smnRegWrite _ addr data =>
    (some (), { b with regs := Function.update b.regs addr data
                       rung := b.rung || decide (addr = smu.msg) })
  | .smnIoTakeError => (some false, b)
  | .smuRawCmd _ _ _ _ _ _ => (some none, b)

abbrev registerEnv (smu : Smu) (sched : Schedule) : Env mailbox Registers :=
  .ofHandler (Registers.answer smu sched)

/-- What the caller of the register path is left with. -/
def registerOutcome (args : Args) : Option SmuAnswer → Word × Args
  | some a => (a.code, a.result)
  | none => (repMsgTimeout, args)

section
variable {smu : Smu} {sched : Schedule}

theorem unlockRet_steps {α : Type} (a : α) (b : Registers) :
    Prog.Steps (registerEnv smu sched) (smuUnlock.bind fun _ => .ret a, b) (.ret a, b) := by
  have hfd : (registerEnv smu sched).next b .smuLockFd true b := rfl
  have hun : (registerEnv smu sched).next b .flockUn () b := rfl
  refine .head (Prog.Step.call hfd) ?_
  exact .single (Prog.Step.call hun)

variable (sched) in
theorem writeAll_steps {ws : List (Word × Word)} (hmsg : ∀ w ∈ ws, w.1 ≠ smu.msg) (b : Registers) :
    ∃ regs, Prog.Steps (registerEnv smu sched) (writeAll smu.osAccess ws, b)
      (.ret (), { b with regs := regs }) ∧
      ∀ addr, (∀ w ∈ ws, w.1 ≠ addr) → regs addr = b.regs addr := by
  induction ws generalizing b with
  | nil => exact ⟨b.regs, .refl, fun _ _ => rfl⟩
  | cons w ws ih =>
    obtain ⟨addr, data⟩ := w
    have haddr : addr ≠ smu.msg := hmsg _ List.mem_cons_self
    have hwrite : (registerEnv smu sched).next b (.smnRegWrite smu.osAccess addr data) ()
        { b with regs := Function.update b.regs addr data } := by
      show (_, _) = (_, _)
      rw [decide_eq_false haddr, Bool.or_false]
    obtain ⟨regs, hsteps, hkeep⟩ := ih (fun w hw => hmsg w (List.mem_cons_of_mem _ hw))
      { b with regs := Function.update b.regs addr data }
    refine ⟨regs, .head (Prog.Step.call hwrite) hsteps, fun x hx => ?_⟩
    rw [hkeep x fun w hw => hx w (List.mem_cons_of_mem _ hw)]
    exact Function.update_of_ne (hx _ List.mem_cons_self).symm _ _

variable (sched) in
theorem smuWriteSetup_steps (hsep : AddrsSeparate smu.msg smu.rep smu.argBase) (args : Args)
    (b : Registers) :
    ∃ regs, Prog.Steps (registerEnv smu sched) (smuWriteSetup smu args, b)
      (.ret (), { b with regs := regs }) ∧ regs smu.rep = 0 := by
  have hmsg := fun w hw => setupWrites_ne_msg args hsep (w := w) hw
  obtain ⟨hfirst, _⟩ := List.pairwise_cons.mp (setupWrites_pairwise args hsep)
  have hclear : (registerEnv smu sched).next b (.smnRegWrite smu.osAccess smu.rep 0x0) ()
      { b with regs := Function.update b.regs smu.rep 0 } := by
    show (_, _) = (_, _)
    rw [decide_eq_false hsep.1.symm, Bool.or_false]
  obtain ⟨regs, hsteps, hkeep⟩ := writeAll_steps sched
    (fun w hw => hmsg w (List.mem_cons_of_mem _ hw))
    { b with regs := Function.update b.regs smu.rep 0 }
  refine ⟨regs, .head (Prog.Step.call hclear) hsteps, ?_⟩
  rw [hkeep smu.rep fun w hw => (hfirst w hw).symm]
  exact Function.update_self ..

theorem smuWaitTurn_again {deadline : Nat} {b : Registers} (spins : Word)
    (hseen : b.seen smu sched smu.rep = repMsgTimeout) (htime : sched.clock b.readings < deadline) :
    Prog.Steps (registerEnv smu sched) (smuWaitTurn smu deadline spins, b)
      (.ret (.inl (spins + 1)), { b with reads := b.reads + 1, readings := b.readings + 1 }) := by
  have hread : (registerEnv smu sched).next b (.smnRegRead smu.osAccess smu.rep) repMsgTimeout
      { b with reads := b.reads + 1 } := by
    show (_, _) = (_, _)
    rw [hseen]
  have hclock : (registerEnv smu sched).next { b with reads := b.reads + 1 } .monotonicMs
      (sched.clock b.readings) { b with reads := b.reads + 1, readings := b.readings + 1 } := rfl
  have hsleep : (registerEnv smu sched).next
      { b with reads := b.reads + 1, readings := b.readings + 1 } .shortSleep ()
      { b with reads := b.reads + 1, readings := b.readings + 1 } := rfl
  refine .head (Prog.Step.call hread) ?_
  simp only [Prog.ret_bind, ne_eq, not_true, if_false]
  refine .head (Prog.Step.call hclock) ?_
  simp only [Prog.ret_bind, if_neg (Nat.not_le.mpr htime)]
  by_cases hspin : 128 < spins + 1
  · rw [if_pos hspin]
    exact .single (Prog.Step.call hsleep)
  · rw [if_neg hspin]
    exact .refl

theorem smuWaitTurn_answered {deadline : Nat} {b : Registers} (spins : Word) {code : Word}
    (hseen : b.seen smu sched smu.rep = code) (hcode : code ≠ repMsgTimeout) :
    Prog.Steps (registerEnv smu sched) (smuWaitTurn smu deadline spins, b)
      (.ret (.inr code), { b with reads := b.reads + 1 }) := by
  have hread : (registerEnv smu sched).next b (.smnRegRead smu.osAccess smu.rep) code
      { b with reads := b.reads + 1 } := by
    show (_, _) = (_, _)
    rw [hseen]
  refine .head (Prog.Step.call hread) ?_
  simp only [Prog.ret_bind, if_pos hcode]
  exact .refl

theorem smuWaitTurn_over {deadline : Nat} {b : Registers} (spins : Word)
    (hseen : b.seen smu sched smu.rep = repMsgTimeout)
    (htime : deadline ≤ sched.clock b.readings) :
    Prog.Steps (registerEnv smu sched) (smuWaitTurn smu deadline spins, b)
      (.ret (.inr repMsgTimeout),
        { b with reads := b.reads + 1, readings := b.readings + 1 }) := by
  have hread : (registerEnv smu sched).next b (.smnRegRead smu.osAccess smu.rep) repMsgTimeout
      { b with reads := b.reads + 1 } := by
    show (_, _) = (_, _)
    rw [hseen]
  have hclock : (registerEnv smu sched).next { b with reads := b.reads + 1 } .monotonicMs
      (sched.clock b.readings) { b with reads := b.reads + 1, readings := b.readings + 1 } := rfl
  refine .head (Prog.Step.call hread) ?_
  simp only [Prog.ret_bind, ne_eq, not_true, if_false]
  refine .head (Prog.Step.call hclock) ?_
  simp only [Prog.ret_bind, if_pos htime]
  exact .refl

theorem smuWaitLoop_answered {a : SmuAnswer} {n : Nat} (hanswer : sched.answer = some (a, n))
    {deadline : Nat} (htime : ∀ i < n, sched.clock (i + 1) < deadline) (k : Nat) (spins : Word)
    {b : Registers} (hrung : b.rung = true) (hrep : b.regs smu.rep = repMsgTimeout)
    (hreads : b.reads + k = n) (hreadings : b.readings = b.reads + 1) :
    ∃ b', Prog.Steps (registerEnv smu sched)
        (Prog.iterate spins (smuWaitTurn smu deadline), b) (.ret a.code, b') ∧
      b'.rung = true ∧ n ≤ b'.reads := by
  induction k generalizing spins b with
  | zero =>
    have hseen : b.seen smu sched smu.rep = a.code := by
      simp only [Registers.seen, hanswer]
      rw [if_pos ⟨hrung, by omega⟩]
      exact if_pos rfl
    exact ⟨_, .leave (smuWaitTurn_answered spins hseen a.code_ne_zero) .refl, hrung, by
      show n ≤ b.reads + 1
      omega⟩
  | succ k ih =>
    have hseen : b.seen smu sched smu.rep = repMsgTimeout := by
      simp only [Registers.seen, hanswer]
      rw [if_neg fun h => absurd h.2 (by omega)]
      exact hrep
    have hclock : sched.clock b.readings < deadline := by
      rw [hreadings]
      exact htime b.reads (by omega)
    obtain ⟨b', hsteps, hend⟩ := ih (spins + 1)
      (b := { b with reads := b.reads + 1, readings := b.readings + 1 }) hrung hrep
      (by show b.reads + 1 + k = n; omega) (by show b.readings + 1 = _; rw [hreadings])
    exact ⟨b', .again (smuWaitTurn_again spins hseen hclock) hsteps, hend⟩

/-- The loop without an answer, the clock passing the deadline after `k` more polls at most. -/
theorem smuWaitLoop_over (hanswer : sched.answer = none) {deadline : Nat} (k : Nat) (spins : Word)
    {b : Registers} (hrep : b.regs smu.rep = repMsgTimeout)
    (htime : deadline ≤ sched.clock (b.readings + k)) :
    ∃ b', Prog.Steps (registerEnv smu sched)
        (Prog.iterate spins (smuWaitTurn smu deadline), b) (.ret repMsgTimeout, b') := by
  have hseen : b.seen smu sched smu.rep = repMsgTimeout := by
    simp only [Registers.seen, hanswer]
    exact hrep
  induction k generalizing spins b with
  | zero => exact ⟨_, .leave (smuWaitTurn_over spins hseen htime) .refl⟩
  | succ k ih =>
    by_cases hover : deadline ≤ sched.clock b.readings
    · exact ⟨_, .leave (smuWaitTurn_over spins hseen hover) .refl⟩
    · obtain ⟨b', hsteps⟩ := ih (spins + 1)
        (b := { b with reads := b.reads + 1, readings := b.readings + 1 }) hrep
        (by show deadline ≤ sched.clock (b.readings + 1 + k); rwa [Nat.add_right_comm])
        (by simp only [Registers.seen, hanswer]; exact hrep)
      exact ⟨b', .again (smuWaitTurn_again spins hseen (Nat.lt_of_not_le hover)) hsteps⟩

theorem smuReadBack_steps {a : SmuAnswer} {n : Nat} (hanswer : sched.answer = some (a, n))
    (hsep : AddrsSeparate smu.msg smu.rep smu.argBase) {b : Registers} (hrung : b.rung = true)
    (hreads : n ≤ b.reads) :
    ∃ b', Prog.Steps (registerEnv smu sched) (smuReadBack smu, b) (.ret a.result, b') := by
  have hread : ∀ (i : Fin 6) (k : Nat), (registerEnv smu sched).next { b with reads := b.reads + k }
      (.smnRegRead smu.osAccess (argAddr smu.argBase i)) (a.result.get i)
      { b with reads := b.reads + (k + 1) } := by
    intro i k
    have hseen : Registers.seen smu sched { b with reads := b.reads + k }
        (argAddr smu.argBase i) = a.result.get i := by
      simp only [Registers.seen, hanswer]
      rw [if_pos ⟨hrung, by omega⟩]
      exact a.store_arg hsep _ i
    show (_, _) = (_, _)
    rw [hseen]
    rfl
  refine ⟨{ b with reads := b.reads + 6 }, .head (Prog.Step.call (hread 0 0)) ?_⟩
  refine .head (Prog.Step.call (hread 1 1)) ?_
  refine .head (Prog.Step.call (hread 2 2)) ?_
  refine .head (Prog.Step.call (hread 3 3)) ?_
  refine .head (Prog.Step.call (hread 4 4)) ?_
  exact .single (Prog.Step.call (hread 5 5))

theorem smuServiceReqRegisters_steps (hsep : AddrsSeparate smu.msg smu.rep smu.argBase)
    (hsched : sched.InTime) (id : Word) (args : Args) (regs : Word → Word) :
    ∃ b, Prog.Steps (registerEnv smu sched)
      (smuServiceReqRegisters smu id args, ⟨regs, false, 0, 0⟩)
      (.ret (registerOutcome args (sched.answer.map Prod.fst)), b) := by
  have htake : ∀ b : Registers, (registerEnv smu sched).next b .smnIoTakeError false b :=
    fun _ => rfl
  obtain ⟨regs₁, hsetup, hrep⟩ := smuWriteSetup_steps sched hsep args ⟨regs, false, 0, 0⟩
  have hring : (registerEnv smu sched).next ⟨regs₁, false, 0, 0⟩
      (.smnRegWrite smu.osAccess smu.msg id) () ⟨Function.update regs₁ smu.msg id, true, 0, 0⟩ := by
    show (_, _) = (_, _)
    rw [decide_eq_true rfl]
    rfl
  have hrep' : Function.update regs₁ smu.msg id smu.rep = repMsgTimeout := by
    rw [Function.update_of_ne hsep.1.symm]
    exact hrep
  have hstart : (registerEnv smu sched).next ⟨Function.update regs₁ smu.msg id, true, 0, 0⟩
      .monotonicMs (sched.clock 0) ⟨Function.update regs₁ smu.msg id, true, 0, 1⟩ := rfl
  have hfront : ∀ {c : Prog mailbox (Word × Args) × Registers},
      Prog.Steps (registerEnv smu sched) ((smuWaitForResponse smu).bind fun response =>
        if response = repMsgTimeout then
          smnIoTakeError.bind fun _ => smuUnlock.bind fun _ => .ret (repMsgTimeout, args)
        else (smuReadBack smu).bind fun args => smnIoTakeError.bind fun readFailed =>
          smuUnlock.bind fun _ => .ret
            (if readFailed = true ∧ response = repMsgOK then repMsgFailed else response, args),
        ⟨Function.update regs₁ smu.msg id, true, 0, 0⟩) c →
      Prog.Steps (registerEnv smu sched)
        (smuServiceReqRegisters smu id args, ⟨regs, false, 0, 0⟩) c := by
    intro c hrest
    refine .head (Prog.Step.call (htake _)) ?_
    refine hsetup.seq ?_
    refine .head (Prog.Step.call (htake _)) ?_
    exact .head (Prog.Step.call hring) hrest
  unfold Schedule.InTime at hsched
  cases hanswer : sched.answer with
  | some answer =>
    obtain ⟨a, n⟩ := answer
    rw [hanswer] at hsched
    obtain ⟨b₁, hwait, hrung, hreads⟩ := smuWaitLoop_answered hanswer hsched n 0
      (b := ⟨Function.update regs₁ smu.msg id, true, 0, 1⟩) rfl hrep' (by simp) rfl
    obtain ⟨b₂, hback⟩ := smuReadBack_steps hanswer hsep hrung hreads
    refine ⟨b₂, hfront ?_⟩
    refine Prog.Steps.seq (.head (Prog.Step.call hstart) hwait) ?_
    rw [if_neg a.code_ne_zero]
    refine hback.seq ?_
    refine .head (Prog.Step.call (htake _)) ?_
    exact unlockRet_steps _ b₂
  | none =>
    rw [hanswer] at hsched
    obtain ⟨n, htime⟩ := hsched
    have hover : sched.clock 0 + smuRespTimeoutMs ≤ sched.clock (1 + n) := by
      rw [Nat.add_comm 1 n]
      exact htime
    obtain ⟨b₁, hwait⟩ := smuWaitLoop_over hanswer n 0
      (b := ⟨Function.update regs₁ smu.msg id, true, 0, 1⟩) hrep' hover
    refine ⟨b₁, hfront ?_⟩
    refine Prog.Steps.seq (.head (Prog.Step.call hstart) hwait) ?_
    rw [if_pos rfl]
    refine .head (Prog.Step.call (htake _)) ?_
    exact unlockRet_steps _ b₁

end
end RyzenAdj
