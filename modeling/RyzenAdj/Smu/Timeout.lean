import Mathlib.Data.Nat.Find
import Mathlib.Order.Monotone.Basic
import RyzenAdj.Interaction.Progress
import RyzenAdj.Smu.Service

/-!
# When the wait for a response is over

`smu_wait_for_response` with the instants at which its register reads and clock
reads happen. The loop looks at the register and then at the clock, so that an
answer that comes between the two looks is not seen once the deadline is over.
-/

namespace RyzenAdj
open Interaction Mailbox

/-- The instants, in nanoseconds, of the clock reads and register reads of the wait, one after
another. The process may lose the processor for any time between two of them. -/
structure Timeline where
  instant : Nat → Nat
  mono : Monotone instant
  unbounded : ∀ t, ∃ i, t ≤ instant i

/-- `monotonic_ms` at the `i`-th of them. -/
def Timeline.ms (line : Timeline) (i : Nat) : Nat := line.instant i / 1000000

/-- The response the SMU writes, and when. -/
structure Response where
  code : Word
  instant : Nat
  code_ne_zero : code ≠ repMsgTimeout

/-- The response register at an instant; the request cleared it. -/
def registerAt (reply : Option Response) (t : Nat) : Word :=
  match reply with
  | some r => if r.instant ≤ t then r.code else repMsgTimeout
  | none => repMsgTimeout

/-- No read fails. The state counts the reads of the register and the clock. -/
def Timeline.answer (smu : Smu) (line : Timeline) (reply : Option Response) (i : Nat) :
    (o : Mailbox.Op) → Option (Mailbox.Ret o) × Nat
  | .monotonicMs => (some (line.ms i), i + 1)
  | .smnRegRead _ addr =>
    (some (if addr = smu.rep then registerAt reply (line.instant i) else 0), i + 1)
  | .shortSleep => (some (), i)
  | _ => (none, i)

abbrev timedEnv (smu : Smu) (line : Timeline) (reply : Option Response) : Env mailbox Nat :=
  .ofHandler (Timeline.answer smu line reply)

/-- The deadline of the wait on the clock, and the first instant the clock shows it. -/
def Timeline.deadline (line : Timeline) : Nat := line.ms 0 + smuRespTimeoutMs
def Timeline.deadlineInstant (line : Timeline) : Nat := line.deadline * 1000000

/-- A result other than a timeout is the SMU's response; at a timeout none was written before
the deadline. -/
def Accurate (line : Timeline) (reply : Option Response) (resp : Word) : Prop :=
  (resp ≠ repMsgTimeout → ∃ r, reply = some r ∧ resp = r.code) ∧
    (resp = repMsgTimeout → ∀ r, reply = some r → line.deadlineInstant ≤ r.instant)

/-- The SMU writes its response before the deadline, but after the last look at the register
before the first look at the clock that finds the deadline over. -/
def Missed (line : Timeline) (reply : Option Response) : Prop :=
  ∃ r n, reply = some r ∧ line.deadline ≤ line.ms (2 * n + 2) ∧
    (∀ j < n, line.ms (2 * j + 2) < line.deadline) ∧
    line.instant (2 * n + 1) < r.instant ∧ r.instant < line.deadlineInstant

section Wait
variable {smu : Smu} {line : Timeline} {reply : Option Response}

theorem registerAt_stays {s t : Nat} (hst : s ≤ t) (h : registerAt reply s ≠ repMsgTimeout) :
    registerAt reply t = registerAt reply s := by
  cases reply with
  | none => rfl
  | some r =>
    simp only [registerAt] at h ⊢
    by_cases hs : r.instant ≤ s
    · rw [if_pos hs, if_pos (hs.trans hst)]
    · rw [if_neg hs] at h
      exact absurd rfl h

theorem waitTurn_answered (deadline i : Nat) (spins : Word)
    (hseen : registerAt reply (line.instant i) ≠ repMsgTimeout) :
    Prog.Steps (timedEnv smu line reply) (smuWaitTurn smu deadline spins, i)
      (.ret (.inr (registerAt reply (line.instant i))), i + 1) := by
  have hread : (timedEnv smu line reply).next i (.smnRegRead smu.osAccess smu.rep)
      (registerAt reply (line.instant i)) (i + 1) := by
    show (_, _) = (_, _)
    rw [if_pos rfl]
  refine .head (Prog.Step.call hread) ?_
  simp only [Prog.ret_bind, if_pos hseen]
  exact .refl

theorem waitTurn_empty (smu : Smu) (deadline i : Nat) (spins : Word)
    (hseen : registerAt reply (line.instant i) = repMsgTimeout) :
    Prog.Steps (timedEnv smu line reply) (smuWaitTurn smu deadline spins, i)
      (.ret (if deadline ≤ line.ms (i + 1) then .inr repMsgTimeout else .inl (spins + 1)),
        i + 2) := by
  have hread : (timedEnv smu line reply).next i (.smnRegRead smu.osAccess smu.rep)
      repMsgTimeout (i + 1) := by
    show (_, _) = (_, _)
    rw [if_pos rfl, hseen]
  have hclock : (timedEnv smu line reply).next (i + 1) .monotonicMs (line.ms (i + 1)) (i + 2) := rfl
  have hsleep : (timedEnv smu line reply).next (i + 2) .shortSleep () (i + 2) := rfl
  refine .head (Prog.Step.call hread) ?_
  simp only [Prog.ret_bind, ne_eq, not_true, if_false]
  refine .head (Prog.Step.call hclock) ?_
  simp only [Prog.ret_bind]
  by_cases hover : deadline ≤ line.ms (i + 1)
  · rw [if_pos hover, if_pos hover]
    exact .refl
  · rw [if_neg hover, if_neg hover]
    by_cases hspin : 128 < spins + 1
    · rw [if_pos hspin]
      exact .single (Prog.Step.call hsleep)
    · rw [if_neg hspin]
      exact .refl

/-- The wait ends at the look at the clock that finds the deadline over, if not before, with what
the look at the register before it sees. -/
theorem waitLoop_steps (deadline n : Nat) :
    ∀ (i : Nat) (spins : Word), (∀ j < n, line.ms (i + 2 * j + 1) < deadline) →
      deadline ≤ line.ms (i + 2 * n + 1) →
      ∃ i', Prog.Steps (timedEnv smu line reply) (Prog.iterate spins (smuWaitTurn smu deadline), i)
        (.ret (registerAt reply (line.instant (i + 2 * n))), i') := by
  induction n with
  | zero =>
    intro i spins _ hover
    by_cases hseen : registerAt reply (line.instant i) = repMsgTimeout
    · have hturn := waitTurn_empty smu deadline i spins hseen
      rw [if_pos hover] at hturn
      refine ⟨i + 2, .leave hturn ?_⟩
      show Prog.Steps _ (.ret repMsgTimeout, i + 2)
        (.ret (registerAt reply (line.instant i)), i + 2)
      rw [hseen]
      exact .refl
    · exact ⟨_, .leave (waitTurn_answered deadline i spins hseen) .refl⟩
  | succ n ih =>
    intro i spins hlow hover
    have hindex : i + 2 * (n + 1) = i + 2 + 2 * n := by omega
    by_cases hseen : registerAt reply (line.instant i) = repMsgTimeout
    · have hbefore : ¬deadline ≤ line.ms (i + 1) := not_le.mpr (hlow 0 (Nat.succ_pos n))
      have hturn := waitTurn_empty smu deadline i spins hseen
      rw [if_neg hbefore] at hturn
      have hlow' : ∀ j < n, line.ms (i + 2 + 2 * j + 1) < deadline := by
        intro j hj
        have hnext := hlow (j + 1) (Nat.succ_lt_succ hj)
        have hj' : i + 2 * (j + 1) + 1 = i + 2 + 2 * j + 1 := by omega
        rwa [hj'] at hnext
      rw [hindex] at hover ⊢
      obtain ⟨i', hrest⟩ := ih (i + 2) (spins + 1) hlow' hover
      exact ⟨i', .again hturn hrest⟩
    · have hlater := registerAt_stays (line.mono (Nat.le_add_right i (2 * (n + 1)))) hseen
      rw [hlater]
      exact ⟨_, .leave (waitTurn_answered deadline i spins hseen) .refl⟩

/-- The clock goes on, so that some look at it is the first to find the deadline over. -/
theorem deadline_over (line : Timeline) :
    ∃ n, line.deadline ≤ line.ms (2 * n + 2) ∧ ∀ j < n, line.ms (2 * j + 2) < line.deadline := by
  classical
  have hover : ∃ n, line.deadline ≤ line.ms (2 * n + 2) := by
    obtain ⟨i, hi⟩ := line.unbounded line.deadlineInstant
    have hmono := line.mono (show i ≤ 2 * i + 2 by omega)
    exact ⟨i, (Nat.le_div_iff_mul_le (by decide)).mpr (hi.trans hmono)⟩
  refine ⟨Nat.find hover, Nat.find_spec hover, fun j hj => ?_⟩
  exact not_le.mp (Nat.find_min hover hj)

/-- The wait ends with what the response register held at the last look, the one before the clock
was found to be past the deadline. -/
theorem smuWaitForResponse_steps {n : Nat} (hover : line.deadline ≤ line.ms (2 * n + 2))
    (hlow : ∀ j < n, line.ms (2 * j + 2) < line.deadline) :
    ∃ i, Prog.Steps (timedEnv smu line reply) (smuWaitForResponse smu, 0)
      (.ret (registerAt reply (line.instant (2 * n + 1))), i) := by
  have hstart : (timedEnv smu line reply).next 0 .monotonicMs (line.ms 0) 1 := rfl
  have hindex : ∀ j, 1 + 2 * j + 1 = 2 * j + 2 := by
    intro j
    omega
  obtain ⟨i, hloop⟩ : ∃ i, Prog.Steps (timedEnv smu line reply)
      (Prog.iterate 0 (smuWaitTurn smu line.deadline), 1)
      (.ret (registerAt reply (line.instant (1 + 2 * n))), i) := by
    refine waitLoop_steps line.deadline n 1 0 (fun j hj => ?_) ?_
    · rw [hindex]
      exact hlow j hj
    · rw [hindex]
      exact hover
  rw [Nat.add_comm 1] at hloop
  exact ⟨i, .head (Prog.Step.call hstart) hloop⟩

theorem accurate_registerAt {n : Nat} (hover : line.deadline ≤ line.ms (2 * n + 2))
    (hlow : ∀ j < n, line.ms (2 * j + 2) < line.deadline) :
    Accurate line reply (registerAt reply (line.instant (2 * n + 1))) ↔ ¬Missed line reply := by
  constructor
  · rintro ⟨-, htimeout⟩ ⟨r, m, rfl, hover', hlow', hlast, hearly⟩
    have hsame : m = n := by
      rcases Nat.lt_trichotomy m n with hlt | heq | hgt
      · exact absurd hover' (not_le.mpr (hlow m hlt))
      · exact heq
      · exact absurd hover (not_le.mpr (hlow' n hgt))
    subst hsame
    have hunseen : registerAt (some r) (line.instant (2 * m + 1)) = repMsgTimeout := by
      simp only [registerAt, if_neg (not_le.mpr hlast)]
    exact absurd hearly (not_lt.mpr (htimeout hunseen r rfl))
  · intro hmissed
    cases reply with
    | none => exact ⟨fun hne => absurd rfl hne, fun _ r hr => by cases hr⟩
    | some r =>
      by_cases hseen : r.instant ≤ line.instant (2 * n + 1)
      · have hheld : registerAt (some r) (line.instant (2 * n + 1)) = r.code := by
          simp only [registerAt, if_pos hseen]
        rw [hheld]
        exact ⟨fun _ => ⟨r, rfl, rfl⟩, fun h => absurd h r.code_ne_zero⟩
      · have hheld : registerAt (some r) (line.instant (2 * n + 1)) = repMsgTimeout := by
          simp only [registerAt, if_neg hseen]
        rw [hheld]
        refine ⟨fun hne => absurd rfl hne, fun _ r' hr => ?_⟩
        cases hr
        by_contra hearly
        exact hmissed ⟨r, n, rfl, hover, hlow, not_le.mp hseen, not_le.mp hearly⟩

end Wait

/-- Whenever the SMU answers and however the process is scheduled, the wait ends, and any result
but a timeout is the SMU's response; it is accurate exactly if the response is not missed. -/
theorem wait_accurate (smu : Smu) (line : Timeline) (reply : Option Response) :
    Prog.Ends (timedEnv smu line reply)
      (fun resp _ => resp ≠ repMsgTimeout → ∃ r, reply = some r ∧ resp = r.code)
      (smuWaitForResponse smu, 0) ∧
    (Prog.Ends (timedEnv smu line reply) (fun resp _ => Accurate line reply resp)
      (smuWaitForResponse smu, 0) ↔ ¬Missed line reply) := by
  obtain ⟨n, hover, hlow⟩ := deadline_over line
  obtain ⟨i, hsteps⟩ : ∃ i, Prog.Steps (timedEnv smu line reply) (smuWaitForResponse smu, 0)
      (.ret (registerAt reply (line.instant (2 * n + 1))), i) := smuWaitForResponse_steps hover hlow
  refine ⟨Prog.ends_of_steps hsteps fun hne => ?_, ?_⟩
  · cases reply with
    | none => exact absurd rfl hne
    | some r =>
      simp only [registerAt] at hne ⊢
      by_cases hseen : r.instant ≤ line.instant (2 * n + 1)
      · exact ⟨r, rfl, if_pos hseen⟩
      · exact absurd (if_neg hseen) hne
  · rw [← accurate_registerAt hover hlow]
    exact ⟨fun hends => hends.result hsteps, fun haccurate => Prog.ends_of_steps hsteps haccurate⟩

/-- The process is held up for two seconds between its first look at the register and the look
at the clock after it. -/
def descheduled : Timeline where
  instant i := if i ≤ 1 then 0 else i * 1000000000
  mono := by
    intro i j hij
    dsimp only
    split
    · exact Nat.zero_le _
    · rw [if_neg (by omega)]
      omega
  unbounded t := ⟨t + 2, by rw [if_neg (by omega)]; omega⟩

def earlyResponse : Response := ⟨repMsgOK, 1000000, by decide⟩

/-- The SMU answers OK after a millisecond of a wait of a second, which ends in a timeout. -/
theorem early_response_missed :
    earlyResponse.instant < descheduled.deadlineInstant ∧
      (∃ i, Prog.Steps (timedEnv ⟨.mem ⟨0, 0⟩, 0x3B10528, 0x3B10564, 0x3B10998⟩ descheduled
          (some earlyResponse))
        (smuWaitForResponse ⟨.mem ⟨0, 0⟩, 0x3B10528, 0x3B10564, 0x3B10998⟩, 0)
        (.ret repMsgTimeout, i)) ∧
      ¬Accurate descheduled (some earlyResponse) repMsgTimeout := by
  refine ⟨by decide, smuWaitForResponse_steps (n := 0) (by decide) (by decide), fun h => ?_⟩
  have hlate := h.2 rfl earlyResponse rfl
  revert hlate
  decide

end RyzenAdj
