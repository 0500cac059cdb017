import RyzenAdj.Interaction.Schedule
import RyzenAdj.Smu.Bracket

/-!
# Mutual exclusion on the mailbox

Any number of processes, each with a descriptor of its own for the lock file,
whose requests and probes interleave call by call. `flock` is exclusive; it
comes back with the lock, with `EWOULDBLOCK` or with `EINTR`.
-/

namespace RyzenAdj
open Interaction Mailbox

inductive MailboxCall where
  | serviceReq (smu : Smu) (id : Word) (args : Args)
  | getSmu (obj : OsAccessObj) (smuType : SmuType)

inductive MailboxAnswer where
  | response (resp : Word) (args : Args)
  | found (smu : Option Smu)

def MailboxCall.prog : MailboxCall → Prog mailbox MailboxAnswer
  | .serviceReq smu id args => (smuServiceReq smu id args).bind fun r => .ret (.response r.1 r.2)
  | .getSmu obj smuType => (RyzenAdj.getSmu obj smuType).bind fun smu => .ret (.found smu)

/-- What a call comes back with that could not have the lock. -/
def MailboxAnswer.Refused : MailboxAnswer → Prop
  | .response resp _ => resp = repMsgCmdRejectedBusy
  | .found smu => smu = none

/-- Where a call stands with the lock. -/
inductive Phase where
  | waiting
  | holding
  | released
  deriving DecidableEq, Repr

def Phase.rank : Phase → Nat
  | .waiting => 0
  | .holding => 1
  | .released => 2

/-- What a process knows of the lock: whether `smu_lock_fd` is open, and its phase. -/
structure LockView where
  fdOpen : Bool
  phase : Phase
  deriving DecidableEq, Repr

def lockMove (v : LockView) : (o : Mailbox.Op) → Mailbox.Ret o → LockView → Prop
  | .smuLockFd, r, v' => r = v.fdOpen ∧ v' = v
  | .openSmuLock, r, v' => r = true ∧ v' = { v with fdOpen := true }
  | .flockEx, .acquired, v' => v' = { v with phase := .holding }
  | .flockEx, .error e, v' => (e = eWouldBlock ∨ e = eIntr) ∧ v' = v
  | .flockUn, _, v' => v' = { v with phase := .released }
  | _, _, v' => v' = v

/-- The mailbox is touched only with the lock, and the lock is taken and given up once. -/
def lockEnv : Env mailbox LockView where
  guard v o :=
    (o.access = true → v.phase = .holding) ∧ (o = .flockEx → v.phase = .waiting) ∧
      (o = .flockUn → v.phase = .holding)
  next := lockMove

/-- `flock` on the lock file: `lock` is the process that has it. -/
def flockMove {ι : Type} [DecidableEq ι] (i : ι) (lock : Option ι) :
    (o : Mailbox.Op) → Mailbox.Ret o → Option ι → Prop
  | .flockEx, .acquired, lock' => (lock = none ∨ lock = some i) ∧ lock' = some i
  | .flockUn, _, lock' => lock' = if lock = some i then none else lock
  | _, _, lock' => lock' = lock

structure Machine (ι : Type) where
  lock : Option ι
  view : ι → LockView

def processes (ι : Type) [DecidableEq ι] :
    System mailbox ι (Machine ι) MailboxCall MailboxAnswer where
  prog _ c := c.prog
  enter i s := { s with view := Function.update s.view i { s.view i with phase := .waiting } }
  next i s o r s' :=
    lockMove (s.view i) o r (s'.view i) ∧ (∀ j, j ≠ i → s'.view j = s.view j) ∧
      flockMove i s.lock o r s'.lock

section Lock

def held : LockView := ⟨true, .holding⟩

def Waiting (v : LockView) : Prop := v.phase = .waiting

theorem lockMove_of_insideOp {o : Mailbox.Op} (ho : InsideOp o) {v v' : LockView}
    {r : Mailbox.Ret o} (h : lockMove v o r v') : v' = v := by
  cases o with
  | smuLockFd => cases ho
  | openSmuLock => cases ho
  | flockEx => cases ho
  | flockUn => cases ho
  | _ => exact h

def Over (v : LockView) : Prop := v.phase = .released

theorem smuUnlock_wp : smuUnlock.Wp lockEnv (fun _ v => Over v) held := by
  refine ⟨⟨fun h => (nomatch h), fun h => (nomatch h), fun h => (nomatch h)⟩, ?_⟩
  intro fdOpen v hnext
  obtain ⟨rfl, rfl⟩ := hnext
  refine ⟨⟨fun h => (nomatch h), fun h => (nomatch h), fun _ => rfl⟩, fun _ v' hnext => ?_⟩
  rw [show v' = { held with phase := .released } from hnext]
  exact rfl

theorem quiet_guard {o : Mailbox.Op} {v : LockView} (haccess : o.access = false)
    (hex : o ≠ .flockEx) (hun : o ≠ .flockUn) : lockEnv.guard v o := by
  refine ⟨fun h => ?_, fun h => absurd h hex, fun h => absurd h hun⟩
  rw [haccess] at h
  cases h

theorem smuLock_wp {v : LockView} (hv : Waiting v) :
    smuLock.Wp lockEnv (fun locked v' => if locked then v' = held else Waiting v') v := by
  have hrest : ∀ u : LockView, u = ⟨true, .waiting⟩ →
      (monotonicMs.bind fun now => Prog.iterate () (smuLockTurn (now + smuLockTimeoutMs))).Wp
        lockEnv (fun locked v' => if locked then v' = held else Waiting v') u := by
    intro u hu
    refine ⟨quiet_guard rfl (by simp) (by simp), fun now u₁ hnext => ?_⟩
    have hu₁ : u₁ = ⟨true, .waiting⟩ := hnext.trans hu
    refine Prog.wp_loop _ (fun _ w => w = ⟨true, .waiting⟩) hu₁ ?_
    intro _ w hw
    refine ⟨⟨fun h => (nomatch h), fun _ => by rw [hw], fun h => (nomatch h)⟩, ?_⟩
    intro r w₁ hnext
    cases r with
    | acquired =>
      rw [show w₁ = { w with phase := .holding } from hnext, hw]
      rfl
    | error e =>
      obtain ⟨he, rfl⟩ := hnext
      apply Prog.wp_ite
      · intro hother
        exact absurd he (not_or.mpr hother)
      · intro _
        refine ⟨quiet_guard rfl (by simp) (by simp), fun now w₂ hnext => ?_⟩
        have hw₂ : w₂ = ⟨true, .waiting⟩ := hnext.trans hw
        apply Prog.wp_ite
        · intro _
          rw [hw₂]
          rfl
        · intro _
          refine ⟨quiet_guard rfl (by simp) (by simp), fun _ w₃ hnext => ?_⟩
          exact hnext.trans hw₂
  refine ⟨quiet_guard rfl (by simp) (by simp), fun fdOpen u hnext => ?_⟩
  obtain ⟨rfl, rfl⟩ := hnext
  apply Prog.wp_ite
  · intro hopen
    refine hrest u ?_
    rw [← hv, ← hopen]
  · intro _
    refine ⟨quiet_guard rfl (by simp) (by simp), fun opened u₁ hnext => ?_⟩
    obtain ⟨rfl, rfl⟩ := hnext
    refine hrest _ ?_
    rw [← hv]

theorem lock_bracket (obj : OsAccessObj) :
    Bracket lockEnv obj Waiting (· = held) Over where
  inside o v hv ho := by
    rw [hv]
    refine ⟨⟨fun _ => rfl, fun heq => ?_, fun _ => rfl⟩, fun r v' hnext => ?_⟩
    · obtain ⟨hinside, -⟩ := ho
      rw [heq] at hinside
      cases hinside
    · exact lockMove_of_insideOp ho.1 hnext
  lock _ hv := smuLock_wp hv
  unlock v hv := by
    rw [hv]
    exact smuUnlock_wp

/-- The outcome of a call: the lock is not held, and a call that never had it was refused. -/
def Left (refused : Prop) (v : LockView) : Prop :=
  v.phase ≠ .holding ∧ (v.phase = .waiting → refused)

theorem left_of_overOr {refused : Prop} {v : LockView} (h : OverOr Waiting Over refused v) :
    Left refused v := by
  unfold Left
  rcases h with hover | ⟨hwaiting, hrefused⟩
  · rw [show v.phase = .released from hover]
    exact ⟨by decide, fun hw => by cases hw⟩
  · rw [show v.phase = .waiting from hwaiting]
    exact ⟨by decide, fun _ => hrefused⟩

theorem smuServiceReq_wp (smu : Smu) (id : Word) (args : Args) {v : LockView} (hv : Waiting v) :
    (smuServiceReq smu id args).Wp lockEnv
      (fun r v' => Left (r.1 = repMsgCmdRejectedBusy) v') v :=
  Prog.wp_mono _ (smuServiceReq_rule (lock_bracket smu.osAccess) rfl id args hv)
    fun _ _ => left_of_overOr

theorem getSmu_wp (obj : OsAccessObj) (smuType : SmuType) {v : LockView} (hv : Waiting v) :
    (getSmu obj smuType).Wp lockEnv (fun r v' => Left (r = none) v') v := by
  have hmalloc : ∀ u, Waiting u → lockEnv.guard u .malloc ∧
      ∀ (r : Bool) u', lockEnv.next u .malloc r u' → Waiting u' := by
    intro u hu
    refine ⟨quiet_guard rfl (by simp) (by simp), fun r u' hnext => ?_⟩
    rw [show u' = u from hnext]
    exact hu
  have hfamily : ∀ u, Waiting u → lockEnv.guard u .cpuidGetFamily ∧
      ∀ (r : RyzenFamily) u', lockEnv.next u .cpuidGetFamily r u' → True ∧ Waiting u' := by
    intro u hu
    refine ⟨quiet_guard rfl (by simp) (by simp), fun r u' hnext => ?_⟩
    rw [show u' = u from hnext]
    exact ⟨trivial, hu⟩
  exact Prog.wp_mono _ (getSmu_rule (lock_bracket obj) smuType hmalloc hfamily hv)
    fun _ _ h => left_of_overOr h.2

theorem mailboxCall_wp (c : MailboxCall) {v : LockView} (hv : v.phase = .waiting) :
    c.prog.Wp lockEnv (fun a v' => Left a.Refused v') v := by
  cases c with
  | serviceReq smu id args =>
    exact Prog.wp_seq _ (smuServiceReq_wp smu id args hv) fun _ _ h => h
  | getSmu obj smuType =>
    exact Prog.wp_seq _ (getSmu_wp obj smuType hv) fun _ _ h => h

end Lock

section Machine
variable {ι : Type} [DecidableEq ι]

abbrev MachineConfig (ι : Type) := Config mailbox ι (Machine ι) MailboxAnswer
abbrev MachineAct (ι : Type) := Act mailbox ι MailboxCall MailboxAnswer

/-- What a process sees of the machine, and where one may be between two calls. -/
def seen (i : ι) (s : Machine ι) : LockView := s.view i

def Idle (v : LockView) : Prop := v.phase ≠ .holding

def Safe (C : MachineConfig ι) : Prop :=
  System.Verified lockEnv seen (fun a v => Left a.Refused v) Idle C ∧
    ∀ i, (C.state.view i).phase = .holding ↔ C.state.lock = some i

theorem processes_separated :
    (processes ι).Separated lockEnv seen (fun a v => Left a.Refused v) Idle where
  own _ _ _ _ _ h := h.1
  other i _ _ _ _ _ hij h := h.2.1 i hij
  enter_other _ _ _ hij := Function.update_of_ne hij _ _
  enter i c s _ := by
    refine mailboxCall_wp c ?_
    show (Function.update s.view i _ i).phase = _
    rw [Function.update_self]
  finish _ _ h := h.1

omit [DecidableEq ι] in
theorem Safe.exclusive {C : MachineConfig ι} (h : Safe C) {i j : ι}
    (hi : (C.state.view i).phase = .holding) (hj : (C.state.view j).phase = .holding) : i = j := by
  have hlock := (h.2 i).mp hi
  rw [(h.2 j).mp hj] at hlock
  exact (Option.some.inj hlock).symm

theorem lock_next {i : ι} {o : Mailbox.Op} {r : Mailbox.Ret o} {s s' : Machine ι}
    (hguard : lockEnv.guard (s.view i) o) (hnext : (processes ι).next i s o r s')
    (hlock : ∀ j, (s.view j).phase = .holding ↔ s.lock = some j) (j : ι) :
    (s'.view j).phase = .holding ↔ s'.lock = some j := by
  obtain ⟨hview, hother, hflock⟩ := hnext
  have hsame : (s'.view i).phase = (s.view i).phase → s'.lock = s.lock →
      ((s'.view j).phase = .holding ↔ s'.lock = some j) := by
    intro hphase hl
    rw [hl, ← hlock j]
    by_cases hij : j = i
    · rw [hij, hphase]
    · rw [hother j hij]
  cases o with
  | flockEx =>
    cases r with
    | acquired =>
      obtain ⟨hfree, hl⟩ := hflock
      have hwaiting := hguard.2.1 rfl
      have hnone : s.lock = none := by
        rcases hfree with hnone | hown
        · exact hnone
        · rw [(hlock i).mpr hown] at hwaiting
          cases hwaiting
      rw [hl]
      by_cases hij : j = i
      · rw [hij, show s'.view i = { s.view i with phase := .holding } from hview]
        simp only
      · rw [hother j hij, hlock j, hnone]
        refine ⟨fun h => (nomatch h), fun h => absurd (Option.some.inj h).symm hij⟩
    | error e => exact hsame (by rw [hview.2]) hflock
  | flockUn =>
    have hown := (hlock i).mp (hguard.2.2 rfl)
    rw [show s'.lock = none by rw [show s'.lock = _ from hflock, if_pos hown]]
    by_cases hij : j = i
    · rw [hij, show s'.view i = { s.view i with phase := .released } from hview]
      refine ⟨fun h => (nomatch h), fun h => (nomatch h)⟩
    · rw [hother j hij, hlock j, hown]
      refine ⟨fun h => absurd (Option.some.inj h).symm hij, fun h => (nomatch h)⟩
  | smuLockFd => exact hsame (by rw [hview.2]) hflock
  | openSmuLock => exact hsame (by rw [hview.2]) hflock
  | _ => exact hsame (by rw [show s'.view i = s.view i from hview]) hflock

theorem safe_move {C D : MachineConfig ι} {a : MachineAct ι} (hmove : (processes ι).Move C a D)
    (h : Safe C) : Safe D := by
  refine ⟨System.verified_move _ processes_separated hmove h.1, ?_⟩
  cases hmove with
  | @start i c hidle =>
    have hi := h.1 i
    rw [hidle] at hi
    intro j
    show (Function.update C.state.view i _ j).phase = _ ↔ C.state.lock = some j
    rw [← h.2 j]
    by_cases hij : j = i
    · subst hij
      rw [Function.update_self]
      exact ⟨fun h => (nomatch h), fun h => absurd h hi⟩
    · rw [Function.update_of_ne hij]
  | @op i o k r s' hrun hnext => exact lock_next (h.1.guard hrun) hnext h.2
  | turn _ => exact h.2
  | finish _ => exact h.2

theorem safe_moves {C D : MachineConfig ι} {acts : List (MachineAct ι)}
    (hmoves : (processes ι).Moves C acts D) (h : Safe C) : Safe D :=
  System.moves_keep _ (fun _ _ _ => safe_move) hmoves h

def Fresh (C : MachineConfig ι) : Prop :=
  (∀ i, C.task i = none) ∧ C.state.lock = none ∧ ∀ i, (C.state.view i).phase ≠ .holding

omit [DecidableEq ι] in
theorem Fresh.safe {C : MachineConfig ι} (h : Fresh C) : Safe C := by
  obtain ⟨htask, hlock, hphase⟩ := h
  refine ⟨fun i => ?_, fun i => ?_⟩
  · rw [htask i]
    exact hphase i
  · rw [hlock]
    exact ⟨fun h => absurd h (hphase i), fun h => (nomatch h)⟩

theorem rank_next {o : Mailbox.Op} {r : Mailbox.Ret o} {v v' : LockView}
    (hguard : lockEnv.guard v o) (h : lockMove v o r v') : v.phase.rank ≤ v'.phase.rank := by
  have hsame : v'.phase = v.phase → v.phase.rank ≤ v'.phase.rank :=
    fun heq => Nat.le_of_eq (congrArg Phase.rank heq.symm)
  cases o with
  | flockEx =>
    cases r with
    | acquired =>
      rw [show v' = { v with phase := .holding } from h, hguard.2.1 rfl]
      exact Nat.zero_le _
    | error e => exact hsame (by rw [h.2])
  | flockUn =>
    rw [show v' = { v with phase := .released } from h, hguard.2.2 rfl]
    exact Nat.le_succ 1
  | smuLockFd => exact hsame (by rw [h.2])
  | openSmuLock => exact hsame (by rw [h.2])
  | _ => exact hsame (by rw [show v' = v from h])

/-- Only `flock` ends the waiting. -/
theorem waiting_next {o : Mailbox.Op} {r : Mailbox.Ret o} {v v' : LockView}
    (hguard : lockEnv.guard v o) (h : lockMove v o r v') (hv : v.phase = .waiting)
    (hr : (⟨o, r⟩ : Sigma Mailbox.Ret) ≠ ⟨.flockEx, .acquired⟩) : v'.phase = .waiting := by
  cases o with
  | flockEx =>
    cases r with
    | acquired => exact absurd rfl hr
    | error e => rw [h.2, hv]
  | flockUn =>
    rw [hguard.2.2 rfl] at hv
    cases hv
  | smuLockFd => rw [h.2, hv]
  | openSmuLock => rw [h.2, hv]
  | _ => rw [show v' = v from h, hv]

/-- An action during a call of process `i` that does not end it: one of its own calls, or
nothing it can see. -/
theorem during_move {C D : MachineConfig ι} {a : MachineAct ι} {i : ι}
    (hmove : (processes ι).Move C a D) (htask : C.task i ≠ none) (ha : ∀ ans, a ≠ .finish i ans) :
    D.task i ≠ none ∧ (D.state.view i = C.state.view i ∨
      ∃ o k r, a = .op i o r ∧ C.task i = some (.call o k) ∧
        lockMove (C.state.view i) o r (D.state.view i)) := by
  have hkeep : ∀ {j : ι} {task : Option (Prog mailbox MailboxAnswer)}, task ≠ none →
      Function.update C.task j task i ≠ none := by
    intro j task hsome
    by_cases hij : i = j
    · rw [hij, Function.update_self]
      exact hsome
    · rw [Function.update_of_ne hij]
      exact htask
  cases hmove with
  | @start j c hidle =>
    have hij : i ≠ j := fun heq => htask (heq ▸ hidle)
    exact ⟨hkeep (Option.some_ne_none _), .inl (Function.update_of_ne hij _ _)⟩
  | @op j o k r s' hrun hnext =>
    refine ⟨hkeep (Option.some_ne_none _), ?_⟩
    by_cases hij : i = j
    · subst hij
      exact .inr ⟨o, k, r, rfl, hrun, hnext.1⟩
    · exact .inl (hnext.2.1 i hij)
  | turn _ => exact ⟨hkeep (Option.some_ne_none _), .inl rfl⟩
  | @finish j ans hrun =>
    have hij : i ≠ j := by
      intro heq
      subst heq
      exact ha ans rfl
    refine ⟨?_, .inl rfl⟩
    show Function.update C.task j none i ≠ none
    rw [Function.update_of_ne hij]
    exact htask

/-- Within one call the phase only goes on. -/
theorem phase_moves {C D : MachineConfig ι} {acts : List (MachineAct ι)} {i : ι}
    (hmoves : (processes ι).Moves C acts D) (h : Safe C) (htask : C.task i ≠ none)
    (hacts : ∀ ans, .finish i ans ∉ acts) :
    D.task i ≠ none ∧ (C.state.view i).phase.rank ≤ (D.state.view i).phase.rank := by
  induction hmoves with
  | nil => exact ⟨htask, Nat.le_refl _⟩
  | @cons C D F a acts hmove _ ih =>
    obtain ⟨htask', hview⟩ := during_move hmove htask fun ans heq =>
      hacts ans (heq ▸ List.mem_cons_self)
    obtain ⟨hend, hle⟩ := ih (safe_move hmove h) htask' fun ans hmem =>
      hacts ans (List.mem_cons_of_mem _ hmem)
    refine ⟨hend, Nat.le_trans ?_ hle⟩
    rcases hview with hsame | ⟨o, k, r, _, hrun, hlock⟩
    · exact Nat.le_of_eq (congrArg (fun v => v.phase.rank) hsame.symm)
    · exact rank_next (h.1.guard hrun) hlock

/-- A call that holds the lock before and after has not let go of it in between. -/
theorem holding_between {C D F : MachineConfig ι} {as bs : List (MachineAct ι)} {i : ι}
    (hfirst : (processes ι).Moves C as D) (hsecond : (processes ι).Moves D bs F) (h : Safe C)
    (htask : C.task i ≠ none) (has : ∀ ans, .finish i ans ∉ as) (hbs : ∀ ans, .finish i ans ∉ bs)
    (hbefore : (C.state.view i).phase = .holding) (hafter : (F.state.view i).phase = .holding) :
    (D.state.view i).phase = .holding := by
  obtain ⟨htask', hlow⟩ := phase_moves hfirst h htask has
  obtain ⟨_, hhigh⟩ := phase_moves hsecond (safe_moves hfirst h) htask' hbs
  rw [hbefore] at hlow
  rw [hafter] at hhigh
  cases hphase : (D.state.view i).phase with
  | waiting =>
    rw [hphase] at hlow
    exact absurd hlow (by decide)
  | holding => rfl
  | released =>
    rw [hphase] at hhigh
    exact absurd hhigh (by decide)

theorem waiting_moves {C D : MachineConfig ι} {acts : List (MachineAct ι)} {i : ι}
    (hmoves : (processes ι).Moves C acts D) (h : Safe C) (htask : C.task i ≠ none)
    (hwaiting : (C.state.view i).phase = .waiting) (hacts : ∀ ans, .finish i ans ∉ acts)
    (hlock : .op i .flockEx .acquired ∉ acts) :
    (D.state.view i).phase = .waiting ∧ ∀ o r, .op i o r ∈ acts → o.access = false := by
  induction hmoves with
  | nil => exact ⟨hwaiting, fun o r hmem => absurd hmem List.not_mem_nil⟩
  | @cons C D F a acts hmove _ ih =>
    obtain ⟨htask', hview⟩ := during_move hmove htask fun ans heq =>
      hacts ans (heq ▸ List.mem_cons_self)
    have hwaiting' : (D.state.view i).phase = .waiting := by
      rcases hview with hsame | ⟨o, k, r, ha, hrun, hmove⟩
      · rw [hsame, hwaiting]
      · refine waiting_next (h.1.guard hrun) hmove hwaiting ?_
        intro heq
        cases heq
        exact hlock (ha ▸ List.mem_cons_self)
    obtain ⟨hend, hrest⟩ := ih (safe_move hmove h) htask' hwaiting'
      (fun ans hmem => hacts ans (List.mem_cons_of_mem _ hmem))
      (fun hmem => hlock (List.mem_cons_of_mem _ hmem))
    refine ⟨hend, fun o r hmem => ?_⟩
    rcases List.mem_cons.mp hmem with heq | hmem
    · rw [← heq] at hmove
      cases hmove with
      | @op _ _ k _ s' hrun hnext =>
        have hguard := (h.1.guard hrun).1
        cases haccess : o.access with
        | false => rfl
        | true =>
          rw [show (seen i C.state).phase = .waiting from hwaiting] at hguard
          exact absurd (hguard haccess) (by decide)
    · exact hrest o r hmem

/-- A call begins without the lock. -/
theorem start_waiting {C D : MachineConfig ι} {i : ι} {c : MailboxCall}
    (hmove : (processes ι).Move C (.start i c) D) :
    D.task i ≠ none ∧ (D.state.view i).phase = .waiting := by
  cases hmove with
  | start _ =>
    refine ⟨?_, ?_⟩
    · show Function.update C.task i _ i ≠ none
      rw [Function.update_self]
      exact Option.some_ne_none _
    · show (Function.update C.state.view i _ i).phase = _
      rw [Function.update_self]

/-- A call that ends without the lock is refused. -/
theorem finish_refused {C D : MachineConfig ι} {i : ι} {ans : MailboxAnswer}
    (hmove : (processes ι).Move C (.finish i ans) D) (h : Safe C)
    (hwaiting : (C.state.view i).phase = .waiting) : ans.Refused := by
  cases hmove with
  | finish hrun =>
    have hi := h.1 i
    rw [hrun] at hi
    exact hi.2 hwaiting

theorem access_move {C D : MachineConfig ι} {i : ι} {o : Mailbox.Op} {r : Mailbox.Ret o}
    (hmove : (processes ι).Move C (.op i o r) D) (h : Safe C) (ho : o.access = true) :
    (C.state.view i).phase = .holding ∧ C.task i ≠ none := by
  cases hmove with
  | @op _ _ k _ s' hrun hnext =>
    exact ⟨(h.1.guard hrun).1 ho, by rw [hrun]; exact Option.some_ne_none _⟩

end Machine

/-- In every interleaving of the calls of any processes: between two accesses of one call no
other process touches the mailbox; a call that never had the lock touches nothing and is
refused; and the lock is with a process only while a call of it is running. -/
theorem mailbox_exclusive {ι : Type} [DecidableEq ι] {C D : MachineConfig ι}
    {acts : List (MachineAct ι)} (hfresh : Fresh C) (hmoves : (processes ι).Moves C acts D) :
    (∀ before between₁ between₂ after i j o₁ r₁ o₂ r₂ o₃ r₃,
      acts = before ++ .op i o₁ r₁ ::
        (between₁ ++ .op j o₂ r₂ :: (between₂ ++ .op i o₃ r₃ :: after)) →
      o₁.access = true → o₂.access = true → o₃.access = true →
      (∀ ans, .finish i ans ∉ between₁ ∧ .finish i ans ∉ between₂) → j = i) ∧
    (∀ before during after i c ans,
      acts = before ++ .start i c :: (during ++ .finish i ans :: after) →
      (∀ ans', .finish i ans' ∉ during) → .op i .flockEx .acquired ∉ during →
      ans.Refused ∧ ∀ o r, .op i o r ∈ during → o.access = false) ∧
    ∀ i, D.state.lock = some i → D.task i ≠ none := by
  refine ⟨?_, ?_, ?_⟩
  · intro before between₁ between₂ after i j o₁ r₁ o₂ r₂ o₃ r₃ hacts ho₁ ho₂ ho₃ hnone
    subst hacts
    obtain ⟨C₁, C₂, h₁, hfirst, hmoves⟩ := System.moves_middle _ hmoves
    obtain ⟨C₃, C₄, h₃, hother, hmoves⟩ := System.moves_middle _ hmoves
    obtain ⟨C₅, C₆, h₅, hlast, _⟩ := System.moves_middle _ hmoves
    have hsafe₁ := safe_moves h₁ hfresh.safe
    have hsafe₃ := safe_moves (.cons hfirst h₃) hsafe₁
    have hsafe₅ := safe_moves (.cons hother h₅) hsafe₃
    obtain ⟨hhold₁, htask₁⟩ := access_move hfirst hsafe₁ ho₁
    obtain ⟨hhold₃, _⟩ := access_move hother hsafe₃ ho₂
    obtain ⟨hhold₅, _⟩ := access_move hlast hsafe₅ ho₃
    have hhold : (C₃.state.view i).phase = .holding := by
      refine holding_between (.cons hfirst h₃) (.cons hother h₅) hsafe₁ htask₁ ?_ ?_ hhold₁ hhold₅
      · exact fun ans => List.not_mem_cons_of_ne_of_not_mem (by simp) (hnone ans).1
      · exact fun ans => List.not_mem_cons_of_ne_of_not_mem (by simp) (hnone ans).2
    exact hsafe₃.exclusive hhold₃ hhold
  · intro before during after i c ans hacts hnone hlock
    subst hacts
    obtain ⟨C₁, C₂, h₁, hstart, hmoves⟩ := System.moves_middle _ hmoves
    obtain ⟨C₃, C₄, h₃, hfinish, _⟩ := System.moves_middle _ hmoves
    have hsafe₂ := safe_move hstart (safe_moves h₁ hfresh.safe)
    obtain ⟨htask, hphase⟩ := start_waiting hstart
    obtain ⟨hwaiting, hquiet⟩ := waiting_moves h₃ hsafe₂ htask hphase hnone hlock
    exact ⟨finish_refused hfinish (safe_moves h₃ hsafe₂) hwaiting, hquiet⟩
  · intro i hlock hidle
    have hsafe := safe_moves hmoves hfresh.safe
    have hi := hsafe.1 i
    rw [hidle] at hi
    exact hi ((hsafe.2 i).mpr hlock)

/-! ### Two processes in turn -/

def twoIdle : MachineConfig Bool := ⟨⟨none, fun _ => ⟨true, .released⟩⟩, fun _ => none⟩

/-- A process goes on to another phase, and the lock with it. -/
def Machine.phased (s : Machine Bool) (i : Bool) (lock : Option Bool) (phase : Phase) :
    Machine Bool :=
  ⟨lock, Function.update s.view i { s.view i with phase := phase }⟩

/-- Registers that all read `REP_MSG_OK`, and a clock that goes on by 700 ms at each look. -/
def answerInTurn (i : Bool) (s : Machine Bool × Nat) :
    (o : Mailbox.Op) → Option (Mailbox.Ret o × (Machine Bool × Nat))
  | .smuLockFd => some ((s.1.view i).fdOpen, s)
  | .flockEx =>
    if s.1.lock = some (!i) then some (.error eWouldBlock, s)
    else some (.acquired, (s.1.phased i (some i) .holding, s.2))
  | .flockUn =>
    some ((), (s.1.phased i (if s.1.lock = some i then none else s.1.lock) .released, s.2))
  | .monotonicMs => some (s.2, (s.1, s.2 + 700))
  | .usleep => some ((), s)
  | .shortSleep => some ((), s)
  | .smnRegRead _ _ => some (repMsgOK, s)
  | .smnRegWrite _ _ _ => some ((), s)
  | .smnIoTakeError => some (false, s)
  | .smuRawCmd _ _ _ _ _ _ => some (none, s)
  | _ => none

theorem phased_next {i : Bool} {s : Machine Bool} {o : Mailbox.Op} {r : Mailbox.Ret o}
    {lock : Option Bool} {phase : Phase}
    (hlock : lockMove (s.view i) o r { s.view i with phase := phase })
    (hflock : flockMove i s.lock o r lock) :
    (processes Bool).next i s o r (s.phased i lock phase) := by
  refine ⟨?_, fun j hj => Function.update_of_ne hj _ _, hflock⟩
  show lockMove _ _ _ (Function.update s.view i _ i)
  rw [Function.update_self]
  exact hlock

/-- A call that leaves the lock and what is known of it. -/
theorem same_next {i : Bool} {s : Machine Bool} {o : Mailbox.Op} {r : Mailbox.Ret o}
    (hlock : lockMove (s.view i) o r (s.view i)) (hflock : flockMove i s.lock o r s.lock) :
    (processes Bool).next i s o r s :=
  ⟨hlock, fun _ _ => rfl, hflock⟩

def inTurn : Bench (processes Bool) (Machine Bool × Nat) where
  seen := Prod.fst
  enter i s := ((processes Bool).enter i s.1, s.2)
  answer := answerInTurn
  seen_enter _ _ := rfl
  next i s o r s' h := by
    cases o with
    | flockEx =>
      simp only [answerInTurn] at h
      split at h
      next =>
        cases h
        exact same_next ⟨.inl rfl, rfl⟩ rfl
      next hfree =>
        cases h
        refine phased_next rfl ⟨?_, rfl⟩
        match hlock : s.1.lock with
        | none => exact .inl rfl
        | some j =>
          rw [hlock, Option.some.injEq] at hfree
          have hown : j = i := by
            by_contra hother
            exact hfree (Bool.eq_not.mpr hother)
          exact .inr (congrArg some hown)
    | flockUn =>
      cases h
      exact phased_next rfl rfl
    | smuLockFd =>
      cases h
      exact same_next ⟨rfl, rfl⟩ rfl
    | openSmuLock => cases h
    | malloc => cases h
    | cpuidGetFamily => cases h
    | _ =>
      cases h
      exact same_next rfl rfl

def accesses (i : Bool) : MachineAct Bool → Bool
  | .op j o _ => j = i ∧ o.access
  | _ => false

def takesLock (i : Bool) : MachineAct Bool → Bool
  | .op j .flockEx .acquired => j = i
  | _ => false

def finishes (i : Bool) : MachineAct Bool → Bool
  | .finish j _ => j = i
  | _ => false


def turnRequest : MailboxCall := .serviceReq ravenMp1 0x1A Args.zero

/-- The first process is at the mailbox; a call of the second waits for the lock until its time is
over, and is refused. When the first has gone on to its end, the second tries again. -/
theorem mailbox_exclusive_two : ∃ (first during last : List (MachineAct Bool)) (ans : MailboxAnswer)
    (C D E : MachineConfig Bool),
    (processes Bool).Moves twoIdle first C ∧ first.any (accesses false) = true ∧
    (processes Bool).Moves C (.start true turnRequest :: (during ++ [.finish true ans])) D ∧
    ans.Refused ∧ (∀ o r, .op true o r ∈ during → o.access = false) ∧
    (processes Bool).Moves D last E ∧ last.any (accesses false) = true ∧
    last.any (accesses true) = true ∧ E.state.lock = some true ∧ E.task true ≠ none := by
  have hplay : (inTurn.play [.start false turnRequest, .goOn false 9]
      ⟨(twoIdle.state, 0), fun _ => none⟩).any (fun x =>
        x.1.any (accesses false) && (x.2.task true).isNone &&
          (inTurn.play [.goOn true 13] (inTurn.started true turnRequest x.2)).any fun y =>
            !y.1.any (takesLock true) && !y.1.any (finishes true) &&
              ((y.2.task true).bind Prog.returned).any fun _ =>
                (inTurn.play [.goOn false 19, .start true turnRequest, .goOn true 9]
                  ⟨y.2.state, Function.update y.2.task true none⟩).any fun z =>
                  z.1.any (accesses false) && z.1.any (accesses true) &&
                    z.2.state.1.lock = some true) = true := by decide +kernel
  obtain ⟨first, C, hfirst, hplay⟩ := Bench.exists_moves hplay
  simp only [Bool.and_eq_true, Option.isNone_iff_eq_none] at hplay
  obtain ⟨⟨haccess, hidle⟩, hplay⟩ := hplay
  obtain ⟨during, B, hduring, hplay⟩ := Bench.exists_moves hplay
  simp only [Bool.and_eq_true, Bool.not_eq_true'] at hplay
  obtain ⟨⟨hlock, hfinish⟩, hplay⟩ := hplay
  obtain ⟨ans, hans, hplay⟩ := (Option.any_eq_true _ _).mp hplay
  obtain ⟨p, htask, hreturned⟩ := Option.bind_eq_some_iff.mp hans
  rw [show p = .ret ans from Prog.eq_ret_of_returned hreturned] at htask
  obtain ⟨last, E, hlast, hplay⟩ := Bench.exists_moves hplay
  simp only [Bool.and_eq_true, decide_eq_true_eq] at hplay
  obtain ⟨⟨haccess', haccess''⟩, hheld⟩ := hplay
  have hfresh : Fresh twoIdle := ⟨fun _ => rfl, rfl, fun _ h => by cases h⟩
  have hcall : (processes Bool).Moves (inTurn.view C)
      (.start true turnRequest :: (during ++ [.finish true ans])) _ :=
    .cons (Bench.start_move turnRequest hidle)
      ((System.moves_append _).mpr ⟨_, hduring, .cons (.finish htask) .nil⟩)
  have hall : (processes Bool).Moves twoIdle
      (first ++ .start true turnRequest :: (during ++ .finish true ans :: last))
      (inTurn.view E) := by
    have hrest := (System.moves_append _).mpr ⟨_, hcall, hlast⟩
    rw [List.cons_append, List.append_assoc] at hrest
    exact (System.moves_append _).mpr ⟨_, hfirst, hrest⟩
  obtain ⟨-, hrefused, hrunning⟩ := mailbox_exclusive hfresh hall
  obtain ⟨hans, hquiet⟩ := hrefused first during last true turnRequest ans rfl
    (fun ans' hmem => by simpa [finishes] using List.any_eq_false.mp hfinish _ hmem)
    (fun hmem => by simpa [takesLock] using List.any_eq_false.mp hlock _ hmem)
  exact ⟨first, during, last, ans, inTurn.view C, _, inTurn.view E, hfirst, haccess, hcall, hans,
    hquiet, hlast, haccess', haccess'', hheld, hrunning true hheld⟩

end RyzenAdj
