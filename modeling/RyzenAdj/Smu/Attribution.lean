import RyzenAdj.Smu.Calls

/-!
# Whose answer a response is

The register path against an SMU that answers every message rung on the
mailbox, each after any delay, also after the request that rang it has given
up. Messages are numbered in the order they are rung; the ghost fields of the
mailbox follow which message the word in the response register answers.
-/

namespace RyzenAdj
open Interaction Mailbox

structure Exchange where
  rep : Word
  clock : Nat
  /-- How many messages have been rung: the number of the next one. -/
  rung : Nat
  /-- Messages rung and not answered yet. -/
  pending : List Nat
  /-- Every answer the SMU has written: the message and its code. -/
  answers : List (Nat × Word)
  /-- The message the word in the response register answers. -/
  writer : Option Nat
  /-- The message answered by the last word read from the response register. -/
  seen : Option Nat
  /-- What was pending when the response register was last cleared. -/
  atClear : List Nat
  deriving DecidableEq, Repr

/-- The SMU answers one pending message. -/
def Exchange.respond (x : Exchange) (m : Nat) (code : Word) : Exchange :=
  { x with
    rep := code
    writer := some m
    pending := x.pending.erase m
    answers := (m, code) :: x.answers }

/-- Any number of answers, to any pending messages. -/
inductive Answering : Exchange → Exchange → Prop where
  | none {x : Exchange} : Answering x x
  | more {x y : Exchange} {m : Nat} {code : Word} : Answering x y → m ∈ y.pending →
      code ≠ repMsgTimeout → Answering x (y.respond m code)

def exchangeMove (smu : Smu) (x : Exchange) : (o : Mailbox.Op) → Mailbox.Ret o → Exchange → Prop
  | .flockEx, r, x' => r = .acquired ∧ x' = x
  | .smuRawCmd _ _ _ _ _ _, r, x' => r = none ∧ x' = x
  | .smnIoTakeError, r, x' => r = false ∧ x' = x
  | .monotonicMs, r, x' => x.clock ≤ r ∧ x' = { x with clock := r }
  | .smnRegRead _ addr, r, x' =>
    if addr = smu.rep then r = x.rep ∧ x' = { x with seen := x.writer } else x' = x
  | .smnRegWrite _ addr data, _, x' =>
    if addr = smu.rep then
      x' = { x with rep := data, writer := none, atClear := x.pending }
    else if addr = smu.msg then
      x' = { x with pending := x.rung :: x.pending, rung := x.rung + 1 }
    else x' = x
  | _, _, x' => x' = x

/-- The lock is free, there is no raw command and no access fails. The SMU may answer
before every call. -/
def exchangeEnv (smu : Smu) : Env mailbox Exchange where
  guard _ _ := True
  next x o r x' := ∃ y, Answering x y ∧ exchangeMove smu y o r x'

/-- The mailbox after any sequence of requests, and whether one of them has timed out. -/
inductive Session (smu : Smu) : Bool → Exchange → Prop where
  | start (rep : Word) (clock : Nat) : Session smu false ⟨rep, clock, 0, [], [], none, none, []⟩
  | answers {late : Bool} {x y : Exchange} : Session smu late x → Answering x y →
      Session smu late y
  | request {late : Bool} {x y : Exchange} {id : Word} {args : Args} {r : Word × Args} :
      Session smu late x →
      Prog.Steps (exchangeEnv smu) (smuServiceReq smu id args, x) (.ret r, y) →
      Session smu (late || decide (r.1 = repMsgTimeout)) y

/-- What is always true of the numbers of pending messages. -/
structure Numbered (x : Exchange) : Prop where
  below : ∀ m ∈ x.pending, m < x.rung
  nodup : x.pending.Nodup

/-- A message whose answer can reach the request: its own, or one pending at the clear. -/
def Heard (own : Nat) (x : Exchange) (m : Nat) : Prop := m = own ∨ m ∈ x.atClear

/-- The word `code` answers `m`, a message the request can hear, and `m` will not answer again. -/
structure Credit (own : Nat) (x : Exchange) (code : Word) (m : Nat) : Prop where
  answered : (m, code) ∈ x.answers
  heard : Heard own x m
  rung : m < x.rung
  spent : m ∉ x.pending

/-- Before the response register is cleared; `start` was pending when the request began. -/
structure Unheard (own : Nat) (start : List Nat) (x : Exchange) : Prop where
  numbered : Numbered x
  rung : x.rung = own
  pending : ∀ m ∈ x.pending, m ∈ start

/-- After the clear. -/
structure Listening (own : Nat) (start : List Nat) (x : Exchange) : Prop where
  numbered : Numbered x
  early : ∀ m ∈ x.atClear, m ∈ start
  pending : ∀ m ∈ x.pending, Heard own x m
  credited : x.rep ≠ repMsgTimeout → ∃ m, x.writer = some m ∧ Credit own x x.rep m

/-- After a response was read. -/
structure Answered (own : Nat) (start : List Nat) (response : Word) (x : Exchange) : Prop where
  numbered : Numbered x
  early : ∀ m ∈ x.atClear, m ∈ start
  pending : ∀ m ∈ x.pending, Heard own x m
  rung : x.rung = own + 1
  attributed : response ≠ repMsgTimeout → ∃ m, x.seen = some m ∧ Credit own x response m

section Answering
variable {own : Nat} {start : List Nat} {x y : Exchange}

theorem Answering.rung (h : Answering x y) : y.rung = x.rung := by
  induction h with
  | none => rfl
  | more _ _ _ ih => exact ih

theorem Answering.atClear (h : Answering x y) : y.atClear = x.atClear := by
  induction h with
  | none => rfl
  | more _ _ _ ih => exact ih

theorem Answering.seen (h : Answering x y) : y.seen = x.seen := by
  induction h with
  | none => rfl
  | more _ _ _ ih => exact ih

theorem Answering.pending (h : Answering x y) {m : Nat} (hm : m ∈ y.pending) : m ∈ x.pending := by
  induction h with
  | none => exact hm
  | more _ _ _ ih => exact ih (List.mem_of_mem_erase hm)

theorem Answering.answers (h : Answering x y) {a : Nat × Word} (ha : a ∈ x.answers) :
    a ∈ y.answers := by
  induction h with
  | none => exact ha
  | more _ _ _ ih => exact List.mem_cons_of_mem _ ih

theorem Numbered.answering (hx : Numbered x) (h : Answering x y) : Numbered y := by
  induction h with
  | none => exact hx
  | more _ _ _ ih =>
    exact ⟨fun m hm => ih.below m (List.mem_of_mem_erase hm), ih.nodup.erase _⟩

theorem Answering.heard (h : Answering x y) {m : Nat} (hm : Heard own x m) : Heard own y m := by
  unfold Heard
  rwa [h.atClear]

theorem Credit.answering {code : Word} {m : Nat} (hm : Credit own x code m) (h : Answering x y) :
    Credit own y code m := by
  refine ⟨h.answers hm.answered, h.heard hm.heard, ?_, fun hmem => hm.spent (h.pending hmem)⟩
  rw [h.rung]
  exact hm.rung

theorem Unheard.answering (hx : Unheard own start x) (h : Answering x y) : Unheard own start y :=
  ⟨hx.numbered.answering h, h.rung.trans hx.rung, fun m hm => hx.pending m (h.pending hm)⟩

theorem Listening.answering (hx : Listening own start x) (h : Answering x y) :
    Listening own start y := by
  induction h with
  | none => exact hx
  | @more y m code hy hm hcode ih =>
    have hrest : ∀ m' ∈ y.pending.erase m, m' ∈ y.pending := fun _ hm' =>
      List.mem_of_mem_erase hm'
    refine ⟨ih.numbered.answering (.more .none hm hcode), ih.early,
      fun m' hm' => ih.pending m' (hrest m' hm'), fun _ => ⟨m, rfl, ?_⟩⟩
    exact ⟨List.mem_cons_self, ih.pending m hm, ih.numbered.below m hm,
      fun hmem => (ih.numbered.nodup.mem_erase_iff.mp hmem).1 rfl⟩

theorem Answered.answering {response : Word} (hx : Answered own start response x)
    (h : Answering x y) :
    Answered own start response y := by
  refine ⟨hx.numbered.answering h, ?_, fun m hm => h.heard (hx.pending m (h.pending hm)),
    h.rung.trans hx.rung, ?_⟩
  · rw [h.atClear]
    exact hx.early
  · intro hresponse
    obtain ⟨m, hseen, hcredit⟩ := hx.attributed hresponse
    exact ⟨m, h.seen.trans hseen, hcredit.answering h⟩

end Answering

section Calm
variable {smu : Smu} {own : Nat} {start : List Nat} {x y : Exchange} {o : Mailbox.Op}
    {r : Mailbox.Ret o}

/-- The calls that neither clear nor read the response register nor ring. -/
def Calm (smu : Smu) : Mailbox.Op → Prop
  | .smnRegRead _ addr => addr ≠ smu.rep
  | .smnRegWrite _ addr _ => addr ≠ smu.rep ∧ addr ≠ smu.msg
  | _ => True

theorem calm_next (ho : Calm smu o) (hnext : (exchangeEnv smu).next x o r y) :
    ∃ x₁ c, Answering x x₁ ∧ y = { x₁ with clock := c } := by
  obtain ⟨x₁, hanswers, hmove⟩ := hnext
  have hclock : x₁ = { x₁ with clock := x₁.clock } := rfl
  cases o with
  | smnRegRead obj addr =>
    rw [exchangeMove, if_neg ho] at hmove
    exact ⟨x₁, x₁.clock, hanswers, hmove⟩
  | smnRegWrite obj addr data =>
    rw [exchangeMove, if_neg ho.1, if_neg ho.2] at hmove
    exact ⟨x₁, x₁.clock, hanswers, hmove⟩
  | monotonicMs => exact ⟨x₁, r, hanswers, hmove.2⟩
  | flockEx => exact ⟨x₁, x₁.clock, hanswers, hmove.2⟩
  | smuRawCmd _ _ _ _ _ _ => exact ⟨x₁, x₁.clock, hanswers, hmove.2⟩
  | smnIoTakeError => exact ⟨x₁, x₁.clock, hanswers, hmove.2⟩
  | _ => exact ⟨x₁, x₁.clock, hanswers, hmove⟩

theorem Unheard.calm (hx : Unheard own start x) (hnext : (exchangeEnv smu).next x o r y)
    (ho : Calm smu o) : Unheard own start y := by
  obtain ⟨x₁, c, hanswers, rfl⟩ := calm_next ho hnext
  have h := hx.answering hanswers
  exact ⟨⟨h.numbered.below, h.numbered.nodup⟩, h.rung, h.pending⟩

theorem Listening.calm (hx : Listening own start x) (hnext : (exchangeEnv smu).next x o r y)
    (ho : Calm smu o) : Listening own start y ∧ y.rung = x.rung := by
  obtain ⟨x₁, c, hanswers, rfl⟩ := calm_next ho hnext
  have h := hx.answering hanswers
  refine ⟨⟨⟨h.numbered.below, h.numbered.nodup⟩, h.early, h.pending, fun hrep => ?_⟩, hanswers.rung⟩
  obtain ⟨m, hwriter, hcredit⟩ := h.credited hrep
  exact ⟨m, hwriter, hcredit.answered, hcredit.heard, hcredit.rung, hcredit.spent⟩

theorem Answered.calm {response : Word} (hx : Answered own start response x)
    (hnext : (exchangeEnv smu).next x o r y) (ho : Calm smu o) : Answered own start response y := by
  obtain ⟨x₁, c, hanswers, rfl⟩ := calm_next ho hnext
  have h := hx.answering hanswers
  refine ⟨⟨h.numbered.below, h.numbered.nodup⟩, h.early, h.pending, h.rung, fun hresponse => ?_⟩
  obtain ⟨m, hseen, hcredit⟩ := h.attributed hresponse
  exact ⟨m, hseen, hcredit.answered, hcredit.heard, hcredit.rung, hcredit.spent⟩

end Calm

section Request
variable {smu : Smu} {own : Nat} {start : List Nat} {x : Exchange}

theorem unheard_smuLock (h : Unheard own start x) :
    smuLock.Wp (exchangeEnv smu) (fun locked y => locked = true ∧ Unheard own start y) x := by
  have hrest : ∀ (opened : Bool) (y : Exchange), Unheard own start y →
      (if !opened then Prog.ret true else
        monotonicMs.bind fun now => Prog.iterate () (smuLockTurn (now + smuLockTimeoutMs))).Wp
      (exchangeEnv smu) (fun locked y => locked = true ∧ Unheard own start y) y := by
    intro opened y hy
    apply Prog.wp_ite
    · exact fun _ => ⟨rfl, hy⟩
    · intro _
      refine ⟨trivial, fun now z hnext => ?_⟩
      refine Prog.wp_loop _ (fun _ z => Unheard own start z) (hy.calm hnext trivial) ?_
      intro _ z hz
      refine ⟨trivial, fun r z' hnext => ?_⟩
      have hz' := hz.calm hnext trivial
      obtain ⟨_, _, hacquired, _⟩ := hnext
      rw [hacquired]
      exact ⟨rfl, hz'⟩
  refine ⟨trivial, fun fdOpen y hnext => ?_⟩
  have hy := h.calm hnext trivial
  apply Prog.wp_ite
  · exact fun _ => hrest true y hy
  · intro _
    exact ⟨trivial, fun opened z hnext => hrest opened z (hy.calm hnext trivial)⟩

/-- The clear: whatever is pending now may still answer. -/
theorem Unheard.clear {y : Exchange} (h : Unheard own start x)
    (hnext : (exchangeEnv smu).next x (.smnRegWrite smu.osAccess smu.rep 0x0) () y) :
    Listening own start y ∧ y.rung = own := by
  obtain ⟨x₁, hanswers, hmove⟩ := hnext
  rw [exchangeMove, if_pos rfl] at hmove
  have h₁ := h.answering hanswers
  rw [hmove]
  exact ⟨⟨⟨h₁.numbered.below, h₁.numbered.nodup⟩, h₁.pending, fun m hm => .inr hm,
    fun hrep => absurd rfl hrep⟩, h₁.rung⟩

/-- The doorbell: the request's own message is pending. -/
theorem Listening.ring {y : Exchange} (hsep : smu.msg ≠ smu.rep) (h : Listening own start x)
    (hrung : x.rung = own) {id : Word}
    (hnext : (exchangeEnv smu).next x (.smnRegWrite smu.osAccess smu.msg id) () y) :
    Listening own start y ∧ y.rung = own + 1 := by
  obtain ⟨x₁, hanswers, hmove⟩ := hnext
  rw [exchangeMove, if_neg hsep, if_pos rfl] at hmove
  have h₁ := h.answering hanswers
  have hown : x₁.rung = own := hanswers.rung.trans hrung
  rw [hmove]
  have hfresh : x₁.rung ∉ x₁.pending := fun hmem => Nat.lt_irrefl _ (h₁.numbered.below _ hmem)
  refine ⟨⟨⟨?_, List.nodup_cons.mpr ⟨hfresh, h₁.numbered.nodup⟩⟩, h₁.early, ?_, ?_⟩,
    congrArg (· + 1) hown⟩
  · intro m hm
    rcases List.mem_cons.mp hm with rfl | hm
    · exact Nat.lt_succ_self _
    · exact Nat.lt_succ_of_lt (h₁.numbered.below m hm)
  · intro m hm
    rcases List.mem_cons.mp hm with rfl | hm
    · exact .inl hown
    · exact h₁.pending m hm
  · intro hrep
    obtain ⟨m, hwriter, hcredit⟩ := h₁.credited hrep
    refine ⟨m, hwriter, hcredit.answered, hcredit.heard, Nat.lt_succ_of_lt hcredit.rung, ?_⟩
    intro hm
    rcases List.mem_cons.mp hm with rfl | hm
    · exact Nat.lt_irrefl _ hcredit.rung
    · exact hcredit.spent hm

theorem Listening.read {y : Exchange} {response : Word} (h : Listening own start x)
    (hrung : x.rung = own + 1)
    (hnext : (exchangeEnv smu).next x (.smnRegRead smu.osAccess smu.rep) response y) :
    Listening own start y ∧ Answered own start response y := by
  obtain ⟨x₁, hanswers, hmove⟩ := hnext
  rw [exchangeMove, if_pos rfl] at hmove
  obtain ⟨rfl, rfl⟩ := hmove
  have h₁ := h.answering hanswers
  have hcredit : ∀ {seen : Option Nat}, x₁.rep ≠ repMsgTimeout →
      ∃ m, x₁.writer = some m ∧ Credit own { x₁ with seen := seen } x₁.rep m := by
    intro seen hrep
    obtain ⟨m, hwriter, hcredit⟩ := h₁.credited hrep
    exact ⟨m, hwriter, hcredit.answered, hcredit.heard, hcredit.rung, hcredit.spent⟩
  have hnumbered : Numbered { x₁ with seen := x₁.writer } :=
    ⟨h₁.numbered.below, h₁.numbered.nodup⟩
  exact ⟨⟨hnumbered, h₁.early, h₁.pending, hcredit⟩, hnumbered, h₁.early, h₁.pending,
    hanswers.rung.trans hrung, hcredit⟩

theorem listening_writeAll {ws : List (Word × Word)}
    (hcalm : ∀ w ∈ ws, w.1 ≠ smu.rep ∧ w.1 ≠ smu.msg) (h : Listening own start x)
    (hrung : x.rung = own) :
    (writeAll smu.osAccess ws).Wp (exchangeEnv smu)
      (fun _ y => Listening own start y ∧ y.rung = own) x := by
  induction ws generalizing x with
  | nil => exact ⟨h, hrung⟩
  | cons w ws ih =>
    refine ⟨trivial, fun _ y hnext => ?_⟩
    have hw : Calm smu (.smnRegWrite smu.osAccess w.1 w.2) := hcalm w List.mem_cons_self
    obtain ⟨hy, hyrung⟩ := h.calm hnext hw
    exact ih (fun w hw => hcalm w (List.mem_cons_of_mem _ hw)) hy (hyrung.trans hrung)

theorem listening_smuWriteSetup (hsep : AddrsSeparate smu.msg smu.rep smu.argBase) (args : Args)
    (h : Unheard own start x) :
    (smuWriteSetup smu args).Wp (exchangeEnv smu)
      (fun _ y => Listening own start y ∧ y.rung = own) x := by
  obtain ⟨hfirst, _⟩ := List.pairwise_cons.mp (setupWrites_pairwise args hsep)
  refine ⟨trivial, fun _ y hnext => ?_⟩
  obtain ⟨hy, hrung⟩ := h.clear hnext
  refine listening_writeAll (fun w hw => ⟨(hfirst w hw).symm, ?_⟩) hy hrung
  exact setupWrites_ne_msg args hsep (List.mem_cons_of_mem _ hw)

theorem listening_smuWaitForResponse (h : Listening own start x) (hrung : x.rung = own + 1) :
    (smuWaitForResponse smu).Wp (exchangeEnv smu)
      (fun response y => Answered own start response y) x := by
  refine ⟨trivial, fun now y hnext => ?_⟩
  obtain ⟨hy, hyrung⟩ := h.calm hnext trivial
  refine Prog.wp_loop _ (fun _ z => Listening own start z ∧ z.rung = own + 1)
    ⟨hy, hyrung.trans hrung⟩ ?_
  intro spins z hz
  refine ⟨trivial, fun response z₁ hnext => ?_⟩
  obtain ⟨hz₁, hanswered⟩ := hz.1.read hz.2 hnext
  apply Prog.wp_ite
  · exact fun _ => hanswered
  · intro htimeout
    have htimeout : response = repMsgTimeout := not_not.mp htimeout
    refine ⟨trivial, fun now z₂ hnext => ?_⟩
    have hanswered₂ := hanswered.calm hnext trivial
    obtain ⟨hz₂, hrung₂⟩ := hz₁.calm hnext trivial
    apply Prog.wp_ite
    · intro _
      rw [htimeout] at hanswered₂
      exact hanswered₂
    · intro _
      apply Prog.wp_ite
      · intro _
        refine ⟨trivial, fun _ z₃ hnext => ?_⟩
        obtain ⟨hz₃, hrung₃⟩ := hz₂.calm hnext trivial
        exact ⟨hz₃, hrung₃.trans (hrung₂.trans hanswered.rung)⟩
      · exact fun _ => ⟨hz₂, hrung₂.trans hanswered.rung⟩

/-- Calls after the wait leave the attribution alone. -/
theorem answered_calm {α : Type} {p : Prog mailbox α} {response : Word}
    (hp : p.Wp (Env.only (Calm smu)) (fun _ _ => True) ()) (h : Answered own start response x) :
    p.Wp (exchangeEnv smu) (fun _ y => Answered own start response y) x := by
  have hkeep : ∀ (o : Mailbox.Op) (y : Exchange), Calm smu o → Answered own start response y →
      (exchangeEnv smu).guard y o ∧
        ∀ r z, (exchangeEnv smu).next y o r z → Answered own start response z :=
    fun o y ho hy => ⟨trivial, fun r z hnext => hy.calm hnext ho⟩
  exact Prog.wp_mono _ (Prog.wp_of_only (I := Answered own start response) _ hkeep h hp)
    fun _ _ hend => hend.2

theorem answered_unlockRet {response : Word} (r : Word × Args) (h : Answered own start response x) :
    (smuUnlock.bind fun _ => .ret r).Wp (exchangeEnv smu)
      (fun r' y => r' = r ∧ Answered own start response y) x := by
  have hcalm : smuUnlock.Wp (Env.only (Calm smu)) (fun _ _ => True) () := by
    refine Prog.wp_only_mono ?_ unlockOp_smuUnlock
    intro o ho
    cases o with
    | smnRegRead _ _ => cases ho
    | smnRegWrite _ _ _ => cases ho
    | _ => trivial
  exact Prog.wp_seq _ (answered_calm hcalm h) fun _ _ hy => ⟨rfl, hy⟩

theorem answered_smuServiceReqRegisters (hsep : AddrsSeparate smu.msg smu.rep smu.argBase)
    (id : Word) (args : Args) (h : Unheard own start x) :
    (smuServiceReqRegisters smu id args).Wp (exchangeEnv smu)
      (fun r y => Answered own start r.1 y) x := by
  refine ⟨trivial, fun _ x₁ hnext => ?_⟩
  have h₁ := h.calm hnext trivial
  simp only [Prog.ret_bind, Prog.bind_eq, Prog.pure_eq]
  apply Prog.wp_seq _ (listening_smuWriteSetup hsep args h₁)
  intro _ x₂ h₂
  refine ⟨trivial, fun setupFailed x₃ hnext => ?_⟩
  obtain ⟨h₃, hrung₃⟩ := h₂.1.calm hnext trivial
  obtain ⟨_, _, hok, _⟩ := hnext
  rw [hok]
  refine ⟨trivial, fun _ x₄ hnext => ?_⟩
  obtain ⟨h₄, hrung₄⟩ := h₃.ring hsep.1 (hrung₃.trans h₂.2) hnext
  simp only [Prog.ret_bind]
  apply Prog.wp_seq _ (listening_smuWaitForResponse h₄ hrung₄)
  intro response x₅ h₅
  apply Prog.wp_ite
  · intro htimeout
    refine ⟨trivial, fun _ x₆ hnext => ?_⟩
    simp only [Prog.ret_bind]
    rw [htimeout] at h₅
    apply Prog.wp_mono _ (answered_unlockRet _ (h₅.calm hnext trivial))
    intro r y hy
    rw [hy.1]
    exact hy.2
  · intro _
    have hback : (smuReadBack smu).Wp (Env.only (Calm smu)) (fun _ _ => True) () := by
      refine Prog.wp_only_mono ?_ (readBackOp_smuReadBack smu)
      intro o ho
      cases o with
      | smnRegRead _ _ =>
        obtain ⟨_, i, rfl⟩ := ho
        exact (hsep.2.2.1 i).symm
      | _ => cases ho
    apply Prog.wp_seq _ (answered_calm hback h₅)
    intro args' x₆ h₆
    refine ⟨trivial, fun readFailed x₇ hnext => ?_⟩
    have h₇ := h₆.calm hnext trivial
    obtain ⟨_, _, hok, _⟩ := hnext
    rw [hok]
    simp only [Prog.ret_bind]
    apply Prog.wp_mono _ (answered_unlockRet _ h₇)
    intro r y hy
    rw [hy.1]
    exact hy.2

theorem answered_smuServiceReq (hsep : AddrsSeparate smu.msg smu.rep smu.argBase) (id : Word)
    (args : Args) (h : Unheard own start x) :
    (smuServiceReq smu id args).Wp (exchangeEnv smu) (fun r y => Answered own start r.1 y) x := by
  apply Prog.wp_seq _ (unheard_smuLock h)
  intro locked x₁ h₁
  rw [h₁.1]
  refine ⟨trivial, fun r x₂ hnext => ?_⟩
  have h₂ := h₁.2.calm hnext trivial
  obtain ⟨_, _, hnone, _⟩ := hnext
  rw [hnone]
  exact answered_smuServiceReqRegisters hsep id args h₂

end Request

section
variable {smu : Smu} (hsep : AddrsSeparate smu.msg smu.rep smu.argBase)
include hsep

theorem Session.numbered {late : Bool} {x : Exchange} (h : Session smu late x) : Numbered x := by
  induction h with
  | start rep clock => exact ⟨fun m hm => absurd hm List.not_mem_nil, List.nodup_nil⟩
  | answers _ hanswers ih => exact ih.answering hanswers
  | request _ hst ih =>
    exact (Prog.wp_result _ hst
      (answered_smuServiceReq hsep _ _ ⟨ih, rfl, fun _ hm => hm⟩)).numbered

theorem Session.answered {late : Bool} {x y : Exchange} (h : Session smu late x) {id : Word}
    {args : Args} {r : Word × Args}
    (hst : Prog.Steps (exchangeEnv smu) (smuServiceReq smu id args, x) (.ret r, y)) :
    Answered x.rung x.pending r.1 y :=
  Prog.wp_result (Q := fun r y => Answered x.rung x.pending r.1 y) _ hst
    (answered_smuServiceReq hsep id args ⟨h.numbered hsep, rfl, fun _ hm => hm⟩)

omit hsep in
/-- Where nothing was pending when the request began, the message heard is its own. -/
theorem Answered.own {own : Nat} {response : Word} {x : Exchange}
    (h : Answered own [] response x) (hresponse : response ≠ repMsgTimeout) :
    x.seen = some own ∧ x.pending = [] := by
  have hown : ∀ m, Heard own x m → m = own := by
    intro m hm
    exact hm.resolve_right fun hclear => absurd (h.early m hclear) List.not_mem_nil
  obtain ⟨m, hseen, hcredit⟩ := h.attributed hresponse
  have hm := hown m hcredit.heard
  refine ⟨by rw [hseen, hm], List.eq_nil_iff_forall_not_mem.mpr fun m' hm' => ?_⟩
  have hm' : m' ∈ x.pending ∧ m' = m := ⟨hm', (hown m' (h.pending m' hm')).trans hm.symm⟩
  exact hcredit.spent (hm'.2 ▸ hm'.1)

/-- As long as no request has timed out, no message is pending between requests. -/
theorem Session.prompt {late : Bool} {x : Exchange} (h : Session smu late x)
    (hprompt : late = false) : x.pending = [] := by
  induction h with
  | start rep clock => rfl
  | answers _ hanswers ih =>
    refine List.eq_nil_iff_forall_not_mem.mpr fun m hm => ?_
    have hm := hanswers.pending hm
    rw [ih hprompt] at hm
    cases hm
  | request hx hst ih =>
    obtain ⟨hlate, hresponse⟩ := Bool.or_eq_false_iff.mp hprompt
    have hanswered := hx.answered hsep hst
    rw [ih hlate] at hanswered
    exact (hanswered.own (of_decide_eq_false hresponse)).2

end

/-- A response that is not a timeout answers the request's own message, or an earlier one
that was unanswered when the request began and still when it cleared the register; and as
long as no request before it has timed out, its own. -/
theorem response_answers {obj : OsAccessObj} {smuType : SmuType} {family : RyzenFamily} {smu : Smu}
    (hsmu : smuOf obj smuType family = some smu) {late : Bool} {x y : Exchange}
    (h : Session smu late x) {id : Word} {args args' : Args} {response : Word}
    (hst : Prog.Steps (exchangeEnv smu) (smuServiceReq smu id args, x) (.ret (response, args'), y))
    (hresponse : response ≠ repMsgTimeout) :
    (∃ m, y.seen = some m ∧ (m, response) ∈ y.answers ∧
        (m = x.rung ∨ m < x.rung ∧ m ∈ x.pending ∧ m ∈ y.atClear)) ∧
      (late = false → y.seen = some x.rung) := by
  have hsep := smuOf_separate hsmu
  have hend := h.answered hsep hst
  obtain ⟨m, hseen, hcredit⟩ := hend.attributed hresponse
  refine ⟨⟨m, hseen, hcredit.answered, ?_⟩, fun hprompt => ?_⟩
  · refine hcredit.heard.imp_right fun hm => ?_
    have hpending := hend.early m hm
    exact ⟨(h.numbered hsep).below m hpending, hpending, hm⟩
  · rw [h.prompt hsep hprompt] at hend
    exact (hend.own hresponse).1

/-- An SMU that answers the oldest message only once a second one has been rung, and a
clock that moves by 600 ms a reading. -/
def Exchange.tardy (smu : Smu) (x : Exchange) :
    (o : Mailbox.Op) → Option (Mailbox.Ret o) × Exchange
  | .flockEx => (some .acquired, x)
  | .smuRawCmd _ _ _ _ _ _ => (some none, x)
  | .smnIoTakeError => (some false, x)
  | .monotonicMs => (some (x.clock + 600), { x with clock := x.clock + 600 })
  | .smnRegRead _ addr =>
    if addr = smu.rep then
      if x.rung = 2 ∧ 0 ∈ x.pending then
        (some repMsgOK, { x.respond 0 repMsgOK with seen := some 0 })
      else (some x.rep, { x with seen := x.writer })
    else (some 0, x)
  | .smnRegWrite _ addr data =>
    if addr = smu.rep then (some (), { x with rep := data, writer := none, atClear := x.pending })
    else if addr = smu.msg then
      (some (), { x with pending := x.rung :: x.pending, rung := x.rung + 1 })
    else (some (), x)
  | .smuLockFd | .openSmuLock | .malloc => (some true, x)
  | .flockUn | .usleep | .shortSleep => (some (), x)
  | .cpuidGetFamily => (none, x)

theorem tardy_next {smu : Smu} {x y : Exchange} {o : Mailbox.Op} {r : Mailbox.Ret o}
    (h : x.tardy smu o = (some r, y)) : (exchangeEnv smu).next x o r y := by
  cases o with
  | smnRegRead obj addr =>
    simp only [Exchange.tardy] at h
    by_cases hrep : addr = smu.rep
    · rw [if_pos hrep] at h
      by_cases hlate : x.rung = 2 ∧ 0 ∈ x.pending
      · rw [if_pos hlate] at h
        cases h
        refine ⟨x.respond 0 repMsgOK, .more .none hlate.2 (by decide), ?_⟩
        rw [exchangeMove, if_pos hrep]
        exact ⟨rfl, rfl⟩
      · rw [if_neg hlate] at h
        cases h
        refine ⟨x, .none, ?_⟩
        rw [exchangeMove, if_pos hrep]
        exact ⟨rfl, rfl⟩
    · rw [if_neg hrep] at h
      cases h
      refine ⟨x, .none, ?_⟩
      rw [exchangeMove, if_neg hrep]
  | smnRegWrite obj addr data =>
    simp only [Exchange.tardy] at h
    refine ⟨x, .none, ?_⟩
    by_cases hrep : addr = smu.rep
    · rw [if_pos hrep] at h
      cases h
      rw [exchangeMove, if_pos hrep]
    · rw [if_neg hrep] at h
      by_cases hmsg : addr = smu.msg
      · rw [if_pos hmsg] at h
        cases h
        rw [exchangeMove, if_neg hrep, if_pos hmsg]
      · rw [if_neg hmsg] at h
        cases h
        rw [exchangeMove, if_neg hrep, if_neg hmsg]
  | monotonicMs =>
    cases h
    exact ⟨x, .none, Nat.le_add_right _ _, rfl⟩
  | flockEx =>
    cases h
    exact ⟨x, .none, rfl, rfl⟩
  | smuRawCmd _ _ _ _ _ _ =>
    cases h
    exact ⟨x, .none, rfl, rfl⟩
  | smnIoTakeError =>
    cases h
    exact ⟨x, .none, rfl, rfl⟩
  | cpuidGetFamily => cases h
  | _ =>
    cases h
    exact ⟨x, .none, rfl⟩

def silentExchange : Exchange := ⟨0, 0, 0, [], [], none, none, []⟩

/-- Message 0 has timed out and is still pending. -/
def timedOutExchange : Exchange := ⟨0, 2400, 1, [0], [], none, none, []⟩

/-- Message 1 has been rung, message 0 has answered. -/
def misheardExchange : Exchange :=
  ⟨repMsgOK, 3600, 2, [1], [(0, repMsgOK)], some 0, some 0, [0]⟩

theorem tardy_first : Prog.Steps (exchangeEnv ravenMp1)
    (smuServiceReq ravenMp1 0x1 Args.zero, silentExchange)
    (.ret (repMsgTimeout, Args.zero), timedOutExchange) := by
  have hrun : Prog.run (Exchange.tardy ravenMp1) 60 (smuServiceReq ravenMp1 0x1 Args.zero)
      silentExchange = some ((repMsgTimeout, Args.zero), timedOutExchange) := by decide +kernel
  exact Prog.run_steps (fun _ _ _ _ => tardy_next) hrun

theorem tardy_second : Prog.Steps (exchangeEnv ravenMp1)
    (smuServiceReq ravenMp1 0x1 Args.zero, timedOutExchange)
    (.ret (repMsgOK, Args.zero), misheardExchange) := by
  have hrun : Prog.run (Exchange.tardy ravenMp1) 60 (smuServiceReq ravenMp1 0x1 Args.zero)
      timedOutExchange = some ((repMsgOK, Args.zero), misheardExchange) := by decide +kernel
  exact Prog.run_steps (fun _ _ _ _ => tardy_next) hrun

theorem response_answers_misheard :
    ∃ m, misheardExchange.seen = some m ∧ (m, repMsgOK) ∈ misheardExchange.answers ∧
      (m = timedOutExchange.rung ∨ m < timedOutExchange.rung ∧ m ∈ timedOutExchange.pending ∧
        m ∈ misheardExchange.atClear) := by
  have hsmu : smuOf (.mem ⟨0, 0⟩) .mp1 .raven = some ravenMp1 := rfl
  exact (response_answers hsmu (.request (.start 0 0) tardy_first) tardy_second (by decide)).1

/-- The second request is told OK by the late answer to the first, which had timed out. -/
theorem late_answer_misheard :
    ∃ x y, Session ravenMp1 true x ∧
      Prog.Steps (exchangeEnv ravenMp1) (smuServiceReq ravenMp1 0x1 Args.zero, silentExchange)
        (.ret (repMsgTimeout, Args.zero), x) ∧
      Prog.Steps (exchangeEnv ravenMp1) (smuServiceReq ravenMp1 0x1 Args.zero, x)
        (.ret (repMsgOK, Args.zero), y) ∧
      x.rung = 1 ∧ y.seen = some 0 :=
  ⟨timedOutExchange, misheardExchange, .request (.start 0 0) tardy_first, tardy_first,
    tardy_second, rfl, rfl⟩

end RyzenAdj
