import RyzenAdj.Linux.Dialogue

/-!
# What a probe proves

`get_smu` on the register path, any access of which may fail. The probe has
none of the checks of `smu_service_req`: a response register that could not be
cleared, or a poll that brings back another register, can pass for the answer.
What the registers hold at first may be left over from anything, but the SMU
writes only while the probe runs, and then one answer, to the message of this
probe: no answer to an earlier message comes late.
-/

namespace RyzenAdj
open Interaction Mailbox

def probeEnv (smu : Smu) (family : RyzenFamily) : Env mailbox Dialogue where
  guard _ _ := True
  next := dialogueMove smu family

def Access.IsPoll (smu : Smu) (x : Access) : Prop := x.addr = smu.rep ∧ x.data = none

/-- What a read of the response register brings back. -/
def Access.found (smu : Smu) (x : Access) : Word :=
  if x.failed then x.before.unread smu.osAccess else x.before.regs smu.rep

/-- The SMU has received the test message in this probe and answered it with OK. -/
structure Probed (smu : Smu) (d : Dialogue) : Prop where
  received : ∃ x ∈ d.accesses, x.addr = smu.msg ∧ x.data = some smuTestMsg ∧ x.failed = false
  answered : ∃ a, d.answer = some a ∧ a.code = repMsgOK

/-- The write that clears the response register failed. -/
def ClearFailed (smu : Smu) (d : Dialogue) : Prop :=
  ∃ x ∈ d.accesses, x.addr = smu.rep ∧ x.data.isSome ∧ x.failed = true

/-- A poll that passes for the answer of the SMU: the SMU is silent and the register still holds
the OK `left` from before, or the poll failed and the register selected before it held OK. -/
inductive Misheard (smu : Smu) (left : Word) (d : Dialogue) : Prop where
  | stale (hclear : ClearFailed smu d) (hleft : left = repMsgOK) (hsilent : d.answer = none)
      (hpoll : ∃ x ∈ d.accesses, x.IsPoll smu ∧ x.failed = false)
  | misread (hmem : smu.osAccess.isKmod = false)
      (hanswer : ∀ a, d.answer = some a → a.code ≠ repMsgOK)
      (hpoll : ∃ x ∈ d.accesses, x.IsPoll smu ∧ x.failed = true ∧
        x.before.regs x.before.index = repMsgOK)

/-- What the response register holds without an answer. -/
structure Undisturbed (smu : Smu) (left idle : Word) (d : Dialogue) : Prop where
  kept : ClearFailed smu d → idle = left
  cleared : ¬ClearFailed smu d → idle = 0

structure Armed (smu : Smu) (left idle : Word) (d : Dialogue) : Prop where
  isSmu : d.bus.isSmu = smu.osAccess.isKmod
  quiet : ∀ x ∈ d.accesses, x.addr ≠ smu.msg ∧ ¬x.IsPoll smu
  answer : d.answer = none
  rep : d.bus.regs smu.rep = idle
  holds : Undisturbed smu left idle d

structure Attending (smu : Smu) (left idle resp : Word) (d : Dialogue) : Prop where
  isSmu : d.bus.isSmu = smu.osAccess.isKmod
  mail : Mail smu idle d.bus d.answer
  holds : Undisturbed smu left idle d
  test : ∀ x ∈ d.accesses, x.addr = smu.msg → x.data = some smuTestMsg
  received : ∀ a, d.answer = some a → d.Received smu
  polls : ∀ x ∈ d.accesses, x.IsPoll smu → x.found smu = 0 ∨ x.found smu = resp
  unanswered : d.answer = none → ∀ x ∈ d.accesses, x.IsPoll smu → x.before.regs smu.rep = idle

/-- The poll that ended the wait. -/
structure Ended (smu : Smu) (left idle resp : Word) (d : Dialogue) : Prop
    extends Attending smu left idle resp d where
  last : resp ≠ repMsgTimeout → ∃ x ∈ d.accesses, x.IsPoll smu ∧ x.found smu = resp ∧
    x.before.regs smu.rep = d.answer.elim idle SmuAnswer.code

/-- The probe took the mailbox to work exactly for an answer of the SMU, or for what passed for
one. -/
structure Concluded (smu : Smu) (left : Word) (works : Bool) (d : Dialogue) : Prop where
  sound : works = true → Probed smu d ∨ Misheard smu left d
  misheard : Misheard smu left d → works = true

theorem Misheard.not_probed {smu : Smu} {left : Word} {d : Dialogue} (h : Misheard smu left d) :
    ¬Probed smu d := by
  intro hprobed
  obtain ⟨a, hanswer, hok⟩ := hprobed.answered
  cases h with
  | stale _ _ hsilent _ =>
    rw [hsilent] at hanswer
    cases hanswer
  | misread _ hno _ => exact hno a hanswer hok

section Probe
variable {smu : Smu} {family : RyzenFamily} {left idle : Word} {d d' : Dialogue}

theorem misheard_poll {resp : Word} (h : Attending smu left idle resp d)
    (hmisheard : Misheard smu left d) : resp = repMsgOK := by
  have hfound : ∃ x ∈ d.accesses, x.IsPoll smu ∧ x.found smu = repMsgOK := by
    cases hmisheard with
    | stale hclear hleft hsilent hpoll =>
      obtain ⟨x, hx, hpoll, hok⟩ := hpoll
      refine ⟨x, hx, hpoll, ?_⟩
      rw [Access.found, hok, if_neg (by decide), h.unanswered hsilent x hx hpoll,
        h.holds.kept hclear, hleft]
    | misread hmem _ hpoll =>
      obtain ⟨x, hx, hpoll, hfailed, hselected⟩ := hpoll
      refine ⟨x, hx, hpoll, ?_⟩
      rw [Access.found, hfailed, if_pos rfl]
      cases hobj : smu.osAccess with
      | kmod o =>
        rw [hobj] at hmem
        cases hmem
      | mem o => exact hselected
  obtain ⟨x, hx, hpoll, hok⟩ := hfound
  rcases h.polls x hx hpoll with hzero | hresp
  · rw [hok] at hzero
    exact absurd hzero (by decide)
  · exact hresp.symm.trans hok

theorem Ended.concluded {resp : Word} (h : Ended smu left idle resp d) :
    Concluded smu left (decide (resp = repMsgOK)) d := by
  refine ⟨fun hworks => ?_, fun hmisheard => decide_eq_true (misheard_poll h.toAttending hmisheard)⟩
  have hresp := of_decide_eq_true hworks
  obtain ⟨x, hx, hpoll, hfound, hheld⟩ := h.last (hresp ▸ by decide)
  rw [hresp] at hfound
  by_cases hanswered : ∃ a, d.answer = some a ∧ a.code = repMsgOK
  · obtain ⟨a, hanswer, hok⟩ := hanswered
    obtain ⟨y, hy, hmsg, hdata, hyok⟩ := h.received a hanswer
    exact .inl ⟨⟨y, hy, hmsg, h.test y hy hmsg, hyok⟩, a, hanswer, hok⟩
  · refine .inr ?_
    have hno : ∀ a, d.answer = some a → a.code ≠ repMsgOK :=
      fun a hanswer hok => hanswered ⟨a, hanswer, hok⟩
    cases hfailed : x.failed with
    | false =>
      rw [Access.found, hfailed, if_neg (by decide), hheld] at hfound
      cases hanswer : d.answer with
      | none =>
        rw [hanswer] at hfound
        have hidle : idle = repMsgOK := hfound
        have hclear : ClearFailed smu d := by
          by_contra hnot
          rw [h.holds.cleared hnot] at hidle
          exact absurd hidle (by decide)
        exact .stale hclear ((h.holds.kept hclear).symm.trans hidle) hanswer ⟨x, hx, hpoll, hfailed⟩
      | some a =>
        rw [hanswer] at hfound
        exact absurd hfound (hno a hanswer)
    | true =>
      rw [Access.found, hfailed, if_pos rfl] at hfound
      cases hobj : smu.osAccess with
      | kmod o =>
        rw [hobj] at hfound
        exact absurd hfound (by decide : (0 : Word) ≠ repMsgOK)
      | mem o =>
        rw [hobj] at hfound
        exact .misread (by rw [hobj]; rfl) hno ⟨x, hx, hpoll, hfailed, hfound⟩

theorem clearFailed_append {bus : SmnBus} {answer : Option SmuAnswer} {x : Access}
    (hx : x.addr = smu.rep → x.data = none) :
    ClearFailed smu ⟨bus, d.accesses ++ [x], answer⟩ ↔ ClearFailed smu d := by
  constructor
  · intro hfailed
    obtain ⟨y, hy, haddr, hdata, hyf⟩ := hfailed
    rcases List.mem_append.mp hy with hy | hy
    · exact ⟨y, hy, haddr, hdata, hyf⟩
    · rw [List.mem_singleton.mp hy] at haddr hdata
      rw [hx haddr] at hdata
      cases hdata
  · intro hfailed
    obtain ⟨y, hy, hyf⟩ := hfailed
    exact ⟨y, List.mem_append_left _ hy, hyf⟩

theorem Undisturbed.append {bus : SmnBus} {answer : Option SmuAnswer} {x : Access}
    (h : Undisturbed smu left idle d) (hx : x.addr = smu.rep → x.data = none) :
    Undisturbed smu left idle ⟨bus, d.accesses ++ [x], answer⟩ :=
  ⟨fun hfailed => h.kept ((clearFailed_append hx).mp hfailed),
    fun hnot => h.cleared fun hfailed => hnot ((clearFailed_append hx).mpr hfailed)⟩

theorem received_append {bus : SmnBus} {answer : Option SmuAnswer} {x : Access}
    (h : d.Received smu) : Dialogue.Received smu ⟨bus, d.accesses ++ [x], answer⟩ := by
  obtain ⟨y, hy, hreceived⟩ := h
  exact ⟨y, List.mem_append_left _ hy, hreceived⟩

theorem Attending.poll (hsep : AddrsSeparate smu.msg smu.rep smu.argBase)
    (haligned : RegAligned smu.rep) (h : Attending smu left idle 0 d) {r : Word}
    (hnext : dialogueMove smu family d (.smnRegRead smu.osAccess smu.rep) r d') :
    Ended smu left idle r d' := by
  obtain ⟨d₁, x, b, hturn, hread, rfl⟩ := read_reading h.isSmu haligned hnext
  have hpoll : x.IsPoll smu := ⟨hread.addr, hread.data⟩
  have hmail := h.mail.turn hsep hturn
  have hfound : x.found smu = r := by
    rw [Access.found, hread.before]
    cases hfailed : x.failed with
    | false => exact (hread.got hfailed).1.symm
    | true => exact (hread.failed hfailed).1.symm
  have hsilent : d₁.answer = none → d.answer = none := by
    intro hnone
    cases hanswer : d.answer with
    | none => rfl
    | some a =>
      rw [hturn.answer_stays hanswer] at hnone
      cases hnone
  refine ⟨⟨hread.isSmu.trans (hturn.isSmu.trans h.isSmu), hmail.of_regs hread.regs,
    h.holds.append fun _ => hread.data, ?_, ?_, ?_, ?_⟩, fun _ => ?_⟩
  · intro y hy hmsg
    rcases List.mem_append.mp hy with hy | hy
    · exact h.test y hy hmsg
    · rw [List.mem_singleton.mp hy] at hmsg
      exact absurd (hmsg.symm.trans hread.addr) hsep.1
  · intro a hanswer
    cases hturn with
    | silent => exact received_append (h.received a hanswer)
    | answers _ hreceived _ => exact received_append hreceived
  · intro y hy hyp
    rcases List.mem_append.mp hy with hy | hy
    · exact .inl ((h.polls y hy hyp).elim id id)
    · rw [List.mem_singleton.mp hy]
      exact .inr hfound
  · intro hnone y hy hyp
    rcases List.mem_append.mp hy with hy | hy
    · exact h.unanswered (hsilent hnone) y hy hyp
    · rw [List.mem_singleton.mp hy, hread.before, hmail.rep, show d₁.answer = none from hnone]
      rfl
  · refine ⟨x, List.mem_append_right _ List.mem_cons_self, hpoll, hfound, ?_⟩
    rw [hread.before]
    exact hmail.rep

theorem wp_smuWaitForResponse_probe (family : RyzenFamily)
    (hsep : AddrsSeparate smu.msg smu.rep smu.argBase) (haligned : RegAligned smu.rep)
    (h : Attending smu left idle 0 d) :
    (smuWaitForResponse smu).Wp (probeEnv smu family) (Ended smu left idle) d := by
  refine ⟨trivial, fun now d₁ hnext => ?_⟩
  rw [show d₁ = d from hnext]
  refine Prog.wp_loop _ (fun _ d => Attending smu left idle 0 d) h ?_
  intro spins d h
  refine ⟨trivial, fun response d₁ hread => ?_⟩
  have hmove : dialogueMove smu family d (.smnRegRead smu.osAccess smu.rep) response d₁ := hread
  have hended := h.poll hsep haligned hmove
  apply Prog.wp_ite
  · exact fun _ => hended
  · intro hnothing
    have hnothing : response = 0 := not_not.mp hnothing
    subst hnothing
    refine ⟨trivial, fun now d₂ hclock => ?_⟩
    rw [show d₂ = d₁ from hclock]
    apply Prog.wp_ite
    · exact fun _ => hended
    · intro _
      apply Prog.wp_ite
      · intro _
        refine ⟨trivial, fun _ d₃ hsleep => ?_⟩
        rw [show d₃ = d₁ from hsleep]
        exact hended.toAttending
      · exact fun _ => hended.toAttending

theorem Preparing.clear (h : Preparing smu left d) (hnone : d.accesses = [])
    (hsep : AddrsSeparate smu.msg smu.rep smu.argBase)
    (hnext : dialogueMove smu family d (.smnRegWrite smu.osAccess smu.rep 0x0) () d') :
    ∃ idle, Preparing smu idle d' ∧ Undisturbed smu left idle d' := by
  obtain ⟨x, b, hwrite, rfl, hprep⟩ := h.write hsep.1.symm hnext
  refine ⟨_, hprep, fun hfailed => if_neg fun hand => ?_, fun hnot => if_pos ⟨rfl, ?_⟩⟩
  · obtain ⟨y, hy, _, _, hyf⟩ := hfailed
    rw [hnone, List.nil_append] at hy
    rw [List.mem_singleton.mp hy, hand.2] at hyf
    cases hyf
  · by_contra hfailed
    refine hnot ⟨x, List.mem_append_right _ List.mem_cons_self, hwrite.addr, ?_, ?_⟩
    · rw [hwrite.data]
      rfl
    · exact Bool.not_eq_false _ ▸ hfailed

theorem Preparing.echo (h : Preparing smu idle d) (hidle : Undisturbed smu left idle d)
    (hsep : AddrsSeparate smu.msg smu.rep smu.argBase) {i : Fin 6}
    (haligned : RegAligned (argAddr smu.argBase i)) {r : Word}
    (hnext : dialogueMove smu family d (.smnRegRead smu.osAccess (argAddr smu.argBase i)) r d') :
    Armed smu left idle d' := by
  obtain ⟨d₁, x, b, hturn, hread, rfl⟩ := read_reading h.isSmu haligned hnext
  rw [hturn.eq_of_not_received h.not_received] at hread ⊢
  refine ⟨hread.isSmu.trans h.isSmu, ?_, h.answer, ?_, hidle.append fun _ => hread.data⟩
  · intro y hy
    rcases List.mem_append.mp hy with hy | hy
    · obtain ⟨hdata, hmsg⟩ := h.writes y hy
      refine ⟨hmsg, fun hpoll => ?_⟩
      rw [hpoll.2] at hdata
      cases hdata
    · rw [List.mem_singleton.mp hy, hread.addr]
      exact ⟨(hsep.2.1 i).symm, fun hpoll => hsep.2.2.1 i (hpoll.1.symm.trans hread.addr)⟩
  · show b.regs smu.rep = idle
    rw [hread.regs, h.rep]

theorem Armed.ring (h : Armed smu left idle d) (hsep : AddrsSeparate smu.msg smu.rep smu.argBase)
    (hnext : dialogueMove smu family d (.smnRegWrite smu.osAccess smu.msg smuTestMsg) () d') :
    Attending smu left idle 0 d' := by
  obtain ⟨d₁, x, b, hturn, hwrite, rfl⟩ := write_writing h.isSmu hnext
  have hnot : ¬d.Received smu := by
    intro hreceived
    obtain ⟨y, hy, hmsg, _⟩ := hreceived
    exact (h.quiet y hy).1 hmsg
  rw [hturn.eq_of_not_received hnot] at hwrite ⊢
  have hno : ∀ y ∈ d.accesses ++ [x], ¬y.IsPoll smu := by
    intro y hy hpoll
    rcases List.mem_append.mp hy with hy | hy
    · exact (h.quiet y hy).2 hpoll
    · rw [List.mem_singleton.mp hy] at hpoll
      exact hsep.1 (hwrite.addr.symm.trans hpoll.1)
  have hrep : x.addr = smu.rep → x.data = none :=
    fun haddr => absurd (hwrite.addr.symm.trans haddr) hsep.1
  refine ⟨hwrite.isSmu.trans h.isSmu, ⟨?_, ?_⟩, h.holds.append hrep, ?_, ?_, ?_, ?_⟩
  · show b.regs smu.rep = d.answer.elim idle SmuAnswer.code
    rw [h.answer]
    cases hfailed : x.failed with
    | false =>
      rw [(hwrite.stored hfailed).1, Function.update_of_ne hsep.1.symm]
      exact h.rep
    | true =>
      rw [(hwrite.failed hfailed).1]
      exact h.rep
  · exact fun a ha => absurd (h.answer.symm.trans ha) (Option.some_ne_none a).symm
  · intro y hy hmsg
    rcases List.mem_append.mp hy with hy | hy
    · exact absurd hmsg (h.quiet y hy).1
    · rw [List.mem_singleton.mp hy]
      exact hwrite.data
  · exact fun a ha => absurd (h.answer.symm.trans ha) (Option.some_ne_none a).symm
  · exact fun y hy hpoll => absurd hpoll (hno y hy)
  · exact fun _ y hy hpoll => absurd hpoll (hno y hy)

theorem Concluded.of_bus {works : Bool} (h : Concluded smu left works d) (bus : SmnBus) :
    Concluded smu left works { d with bus := bus } := by
  refine ⟨fun hworks => ?_, fun hmisheard => h.misheard ?_⟩
  · rcases h.sound hworks with ⟨hreceived, hanswered⟩ | hmisheard
    · exact .inl ⟨hreceived, hanswered⟩
    · cases hmisheard with
      | stale hclear hleft hsilent hpoll => exact .inr (.stale hclear hleft hsilent hpoll)
      | misread hmem hanswer hpoll => exact .inr (.misread hmem hanswer hpoll)
  · cases hmisheard with
    | stale hclear hleft hsilent hpoll => exact .stale hclear hleft hsilent hpoll
    | misread hmem hanswer hpoll => exact .misread hmem hanswer hpoll

/-- Without a poll nothing is misheard. -/
theorem concluded_of_no_poll (h : ∀ x ∈ d.accesses, ¬x.IsPoll smu) :
    Concluded smu left false d := by
  refine ⟨fun hworks => (nomatch hworks), fun hmisheard => ?_⟩
  cases hmisheard with
  | stale _ _ _ hpoll =>
    obtain ⟨x, hx, hpoll, _⟩ := hpoll
    exact absurd hpoll (h x hx)
  | misread _ _ hpoll =>
    obtain ⟨x, hx, hpoll, _⟩ := hpoll
    exact absurd hpoll (h x hx)

theorem wp_unlock_probe (family : RyzenFamily) (d : Dialogue) :
    smuUnlock.Wp (probeEnv smu family) (fun _ d' => d' = d) d := by
  have hop : ∀ o, UnlockOp o → (probeEnv smu family).guard d o ∧
      ∀ r d', (probeEnv smu family).next d o r d' → d' = d := by
    intro o ho
    cases o <;> first | exact ho.elim | exact ⟨trivial, fun _ _ hnext => hnext⟩
  exact Prog.wp_mono _ (Prog.wp_silent _ hop unlockOp_smuUnlock) fun _ _ hend => hend.2

theorem argAddr_zero (argBase : Word) : argAddr argBase 0 = argBase := by
  simp [argAddr, c2pmsgArgXAddr]

theorem wp_smuServiceTestRegisters (family : RyzenFamily)
    (hsep : AddrsSeparate smu.msg smu.rep smu.argBase)
    (haligned : AddrsAligned smu.msg smu.rep smu.argBase) (h : Preparing smu left d)
    (hnone : d.accesses = []) :
    (smuServiceTestRegisters smu).Wp (probeEnv smu family) (Concluded smu left) d := by
  have hmsg : smu.argBase ≠ smu.msg := argAddr_zero smu.argBase ▸ (hsep.2.1 0).symm
  have hrep : smu.argBase ≠ smu.rep := argAddr_zero smu.argBase ▸ (hsep.2.2.1 0).symm
  refine ⟨trivial, fun _ d₁ hclear => ?_⟩
  have hmove : dialogueMove smu family d (.smnRegWrite smu.osAccess smu.rep 0x0) () d₁ := hclear
  obtain ⟨idle, hprep, hidle⟩ := h.clear hnone hsep hmove
  refine ⟨trivial, fun _ d₂ hargument => ?_⟩
  have hmove : dialogueMove smu family d₁ (.smnRegWrite smu.osAccess smu.argBase 0x47) () d₂ :=
    hargument
  obtain ⟨x, b, hwrite, rfl, hprep₂⟩ := hprep.write hmsg hmove
  rw [if_neg fun hand => hrep hand.1] at hprep₂
  have hidle₂ : Undisturbed smu left idle ⟨b, d₁.accesses ++ [x], none⟩ :=
    hidle.append fun haddr => absurd (hwrite.addr.symm.trans haddr) hrep
  refine ⟨trivial, fun echo d₃ hecho => ?_⟩
  have hmove : dialogueMove smu family ⟨b, d₁.accesses ++ [x], none⟩
      (.smnRegRead smu.osAccess (argAddr smu.argBase 0)) echo d₃ := by
    rw [argAddr_zero]
    exact hecho
  have harmed := hprep₂.echo hidle₂ hsep (haligned.2.2 0) hmove
  apply Prog.wp_ite
  · intro _
    apply Prog.wp_seq _ (wp_unlock_probe family d₃)
    intro _ d₄ hsame
    subst hsame
    exact concluded_of_no_poll fun x hx => (harmed.quiet x hx).2
  · intro _
    refine ⟨trivial, fun _ d₄ hring => ?_⟩
    have hmove : dialogueMove smu family d₃ (.smnRegWrite smu.osAccess smu.msg smuTestMsg) () d₄ :=
      hring
    have hwait := wp_smuWaitForResponse_probe family hsep haligned.2.1 (harmed.ring hsep hmove)
    simp only [Prog.ret_bind, Prog.bind_eq, Prog.pure_eq]
    apply Prog.wp_seq _ hwait
    intro response d₅ hended
    refine ⟨trivial, fun _ d₆ htake => ?_⟩
    obtain ⟨_, rfl⟩ := htake
    simp only [Prog.ret_bind]
    apply Prog.wp_seq _ (wp_unlock_probe family _)
    intro _ d₇ hsame
    rw [hsame]
    have hend := hended.concluded.of_bus { d₅.bus with ioError := false }
    apply Prog.wp_ite
    · intro hzero
      rw [hzero] at hend
      exact hend
    · exact fun _ => hend

theorem wp_smuServiceTest (family : RyzenFamily)
    (hsep : AddrsSeparate smu.msg smu.rep smu.argBase)
    (haligned : AddrsAligned smu.msg smu.rep smu.argBase) (h : Preparing smu left d)
    (hnone : d.accesses = []) :
    (smuServiceTest smu).Wp (probeEnv smu family) (Concluded smu left) d := by
  have hop : ∀ o, LockOp o → (probeEnv smu family).guard d o ∧
      ∀ r d', (probeEnv smu family).next d o r d' → d' = d := by
    intro o ho
    cases o <;> first | exact ho.elim | exact ⟨trivial, fun _ _ hnext => hnext⟩
  have hlock := Prog.wp_silent _ hop lockOp_smuLock
  apply Prog.wp_seq _ hlock
  intro locked d₁ hend
  rw [hend.2]
  apply Prog.wp_ite
  · intro _
    refine concluded_of_no_poll fun x hx => ?_
    rw [hnone] at hx
    cases hx
  · intro _
    refine ⟨trivial, fun r d₂ hraw => ?_⟩
    obtain ⟨rfl, rfl⟩ := hraw
    exact wp_smuServiceTestRegisters family hsep haligned h hnone

end Probe

/-- `get_smu` returns a mailbox only for an SMU that received the test message of this very probe
and answered it with OK, exactly if no poll of the probe is misheard. -/
theorem probe_sound {obj : OsAccessObj} {smuType : SmuType} {family : RyzenFamily} {smu : Smu}
    (hsmu : ∀ s, smuOf obj smuType family = some s → s = smu) {bus : SmnBus}
    (hflag : bus.isSmu = obj.isKmod) {r : Option Smu} {d : Dialogue}
    (hrun : Prog.Steps (probeEnv smu family) (getSmu obj smuType, ⟨bus, [], none⟩) (.ret r, d)) :
    (r.isSome → Probed smu d) ↔ ¬Misheard smu (bus.regs smu.rep) d := by
  have hfresh : Concluded smu (bus.regs smu.rep) false ⟨bus, [], none⟩ :=
    concluded_of_no_poll fun x hx => absurd hx List.not_mem_nil
  have hget : (getSmu obj smuType).Wp (probeEnv smu family)
      (fun r => Concluded smu (bus.regs smu.rep) r.isSome) ⟨bus, [], none⟩ := by
    refine ⟨trivial, fun allocated d₁ hmalloc => ?_⟩
    rw [show d₁ = ⟨bus, [], none⟩ from hmalloc]
    apply Prog.wp_ite
    · exact fun _ => hfresh
    · intro _
      refine ⟨trivial, fun family' d₂ hcpuid => ?_⟩
      obtain ⟨rfl, rfl⟩ := hcpuid
      simp only [Prog.ret_bind]
      cases hfound : smuOf obj smuType family' with
      | none => exact hfresh
      | some s =>
        obtain rfl := hsmu s hfound
        have hprep : Preparing s (bus.regs s.rep) ⟨bus, [], none⟩ := by
          refine ⟨?_, fun x hx => absurd hx List.not_mem_nil, rfl, rfl⟩
          rw [smuOf_osAccess hfound]
          exact hflag
        have htest := wp_smuServiceTest family' (smuOf_separate hfound) (smuOf_aligned hfound)
          hprep rfl
        apply Prog.wp_seq _ htest
        intro works d₃ hend
        cases works with
        | false => exact hend
        | true => exact hend
  have hend := Prog.wp_result _ hrun hget
  constructor
  · intro hsound hmisheard
    exact hmisheard.not_probed (hsound (hend.misheard hmisheard))
  · intro hnot hsome
    exact (hend.sound hsome).resolve_right hnot

def firstPoll (fails : Bool) (answer : Option SmuAnswer) : Script :=
  ⟨fun k => fails && k == 4, fun k => if k = 4 then answer else none⟩

theorem firstPoll_run (fails : Bool) (answer : Option SmuAnswer)
    (hrun : (Prog.run (Dialogue.scripted ravenMp1 .raven (firstPoll fails answer)) 100
      (getSmu (.mem ⟨0, 0⟩) .mp1) ⟨idleBus, [], none⟩).any
        (fun c => decide (c.1 = some ravenMp1 ∧ c.2.answer = answer)) = true) :
    ∃ d, Prog.Steps (probeEnv ravenMp1 .raven) (getSmu (.mem ⟨0, 0⟩) .mp1, ⟨idleBus, [], none⟩)
      (.ret (some ravenMp1), d) ∧ d.answer = answer := by
  obtain ⟨⟨r, d⟩, hend, hchecks⟩ := (Option.any_eq_true _ _).mp hrun
  obtain ⟨hr, hanswer⟩ := of_decide_eq_true hchecks
  subst hr
  exact ⟨d, Prog.run_steps (fun _ _ _ _ => scripted_move) hend, hanswer⟩

theorem probe_sound_answered :
    ∃ d, Prog.Steps (probeEnv ravenMp1 .raven) (getSmu (.mem ⟨0, 0⟩) .mp1, ⟨idleBus, [], none⟩)
      (.ret (some ravenMp1), d) ∧ Probed ravenMp1 d := by
  obtain ⟨d, hrun, hanswer⟩ := firstPoll_run false (some okAnswer) (by decide +kernel)
  have hsmu : ∀ s, smuOf (.mem ⟨0, 0⟩) .mp1 .raven = some s → s = ravenMp1 := by
    intro s hs
    exact (Option.some.inj hs).symm
  have hheard : ¬Misheard ravenMp1 (idleBus.regs ravenMp1.rep) d := by
    intro hmisheard
    cases hmisheard with
    | stale _ _ hsilent _ =>
      rw [hanswer] at hsilent
      cases hsilent
    | misread _ hno _ => exact hno okAnswer hanswer rfl
  exact ⟨d, hrun, (probe_sound hsmu rfl hrun).mpr hheard rfl⟩

/-- The one poll cannot select the response register and reads the message register, where the
test message is 1 itself; the SMU is silent. -/
theorem message_taken_for_answer :
    ∃ d, Prog.Steps (probeEnv ravenMp1 .raven) (getSmu (.mem ⟨0, 0⟩) .mp1, ⟨idleBus, [], none⟩)
      (.ret (some ravenMp1), d) ∧ ¬Probed ravenMp1 d := by
  obtain ⟨d, hrun, hsilent⟩ := firstPoll_run true none (by decide +kernel)
  refine ⟨d, hrun, fun hprobed => ?_⟩
  obtain ⟨a, hanswer, _⟩ := hprobed.answered
  rw [hsilent] at hanswer
  cases hanswer

end RyzenAdj
