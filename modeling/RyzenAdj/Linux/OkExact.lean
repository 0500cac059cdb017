import RyzenAdj.Linux.Dialogue

/-!
# When OK is reported

A request on the register path any of whose reads may fail. One flag stands
for all failed reads since the doorbell, so that a poll that failed on the way
turns a command that was executed and read back into a failure. The SMU writes
one answer at most, to the message of this request: no answer to an earlier
message comes late.
-/

namespace RyzenAdj
open Interaction Mailbox

namespace Dialogue

/-- A read of this register that failed, or one that did not. -/
def HasRead (d : Dialogue) (addr : Word) (failed : Bool) : Prop :=
  ∃ x ∈ d.accesses, x.addr = addr ∧ x.data = none ∧ x.failed = failed

def WritesDone (d : Dialogue) : Prop := ∀ x ∈ d.accesses, x.data.isSome → x.failed = false

def PolledOK (smu : Smu) (d : Dialogue) : Prop :=
  ∃ x ∈ d.accesses, x.addr = smu.rep ∧ x.data = none ∧ x.failed = false ∧
    x.before.regs smu.rep = repMsgOK

/-- The SMU has answered OK, a poll has read that, and each of the six words was read. -/
structure Carried (smu : Smu) (a : SmuAnswer) (d : Dialogue) : Prop where
  answer : d.answer = some a
  ok : a.code = repMsgOK
  polled : d.PolledOK smu
  readBack : ∀ i, d.HasRead (argAddr smu.argBase i) false

instance (d : Dialogue) (addr : Word) (failed : Bool) : Decidable (d.HasRead addr failed) :=
  inferInstanceAs (Decidable (∃ x ∈ d.accesses, x.addr = addr ∧ x.data = none ∧ x.failed = failed))

instance (d : Dialogue) : Decidable d.WritesDone :=
  inferInstanceAs (Decidable (∀ x ∈ d.accesses, x.data.isSome → x.failed = false))

instance (smu : Smu) (d : Dialogue) : Decidable (d.PolledOK smu) :=
  inferInstanceAs (Decidable (∃ x ∈ d.accesses, x.addr = smu.rep ∧ x.data = none ∧
    x.failed = false ∧ x.before.regs smu.rep = repMsgOK))

theorem carried_iff {smu : Smu} {a : SmuAnswer} {d : Dialogue} :
    d.Carried smu a ↔ d.answer = some a ∧ a.code = repMsgOK ∧ d.PolledOK smu ∧
      ∀ i, d.HasRead (argAddr smu.argBase i) false :=
  ⟨fun h => ⟨h.answer, h.ok, h.polled, h.readBack⟩, fun h => ⟨h.1, h.2.1, h.2.2.1, h.2.2.2⟩⟩

instance (smu : Smu) (a : SmuAnswer) (d : Dialogue) : Decidable (d.Carried smu a) :=
  decidable_of_iff _ carried_iff.symm

end Dialogue

/-- A command that is carried out and read back needs no further register access. -/
def okEnv (smu : Smu) (family : RyzenFamily) : Env mailbox Dialogue where
  guard d o := o.access = true → ∀ a, ¬d.Carried smu a
  next := dialogueMove smu family

/-- A request that has got to here reports OK exactly for a command that was carried out and read
back, and then with the words of the SMU. -/
structure ReportsOK (smu : Smu) (family : RyzenFamily) (p : Prog mailbox (Word × Args))
    (d : Dialogue) : Prop where
  only : ∀ r, p = .ret r → r.1 = repMsgOK → ∃ a, d.Carried smu a ∧ r.2 = a.result
  always : ∀ a, d.Carried smu a →
    Prog.Ends (okEnv smu family) (fun r _ => r = (repMsgOK, a.result)) (p, d)

structure Talking (smu : Smu) (d : Dialogue) : Prop where
  isSmu : d.bus.isSmu = smu.osAccess.isKmod
  mail : d.WritesDone → Mail smu 0 d.bus d.answer
  flag : d.WritesDone → (d.bus.ioError = true ↔ ∃ x ∈ d.accesses, x.data = none ∧ x.failed = true)

/-- Nothing but the response register has been read. -/
def PollsOnly (smu : Smu) (d : Dialogue) : Prop :=
  ∀ x ∈ d.accesses, x.data = none → x.addr = smu.rep

/-- No poll has found anything. -/
structure Polling (smu : Smu) (d : Dialogue) : Prop extends Talking smu d where
  only : PollsOnly smu d
  empty : d.WritesDone → ∀ x ∈ d.accesses, x.data = none → x.failed = false →
    x.before.regs smu.rep = 0

/-- The response `resp` is the answer, or comes from a read that failed. -/
def Heeded (smu : Smu) (resp : Word) (d : Dialogue) (P : SmuAnswer → Prop) : Prop :=
  (∃ a, d.answer = some a ∧ resp = a.code ∧ (resp = repMsgOK → d.PolledOK smu) ∧ P a) ∨
    d.bus.ioError = true ∧ ¬d.PolledOK smu

structure Polled (smu : Smu) (resp : Word) (d : Dialogue) : Prop extends Talking smu d where
  only : PollsOnly smu d
  heeded : resp ≠ repMsgTimeout → d.WritesDone → Heeded smu resp d fun _ => True

/-- The one read of a register: it brought back `v`, or it failed. -/
def ReadOnce (d : Dialogue) (addr : Word) (v : Prop) : Prop :=
  (d.HasRead addr false ∧ ¬d.HasRead addr true ∧ v) ∨ (d.HasRead addr true ∧ ¬d.HasRead addr false)

structure ReadingBack (smu : Smu) (resp : Word) (ws : List Word) (d : Dialogue) : Prop
    extends Talking smu d where
  only : ∀ x ∈ d.accesses, x.data = none →
    x.addr = smu.rep ∨ ∃ i : Fin 6, i.val < ws.length ∧ x.addr = argAddr smu.argBase i
  heeded : d.WritesDone → Heeded smu resp d fun a => ∀ i : Fin 6, i.val < ws.length →
    ReadOnce d (argAddr smu.argBase i) (ws[i.val]? = some (a.result.get i))

structure Verdict (smu : Smu) (r : Word × Args) (d : Dialogue) : Prop where
  only : r.1 = repMsgOK → ∃ a, d.Carried smu a ∧ r.2 = a.result
  clean : ∀ a, d.Carried smu a → ¬d.HasRead smu.rep true → r = (repMsgOK, a.result)
  stained : ∀ a, d.Carried smu a → d.HasRead smu.rep true → r.1 = repMsgFailed

section Reads
variable {smu : Smu} {family : RyzenFamily} {d d' : Dialogue}

theorem hasRead_append {bus : SmnBus} {answer : Option SmuAnswer} {x : Access} {addr : Word}
    {failed : Bool} (hdata : x.data = none) :
    Dialogue.HasRead ⟨bus, d.accesses ++ [x], answer⟩ addr failed ↔
      d.HasRead addr failed ∨ (x.addr = addr ∧ x.failed = failed) := by
  simp only [Dialogue.HasRead, List.mem_append, List.mem_singleton]
  constructor
  · rintro ⟨y, hy | rfl, haddr, hnone, hfailed⟩
    · exact .inl ⟨y, hy, haddr, hnone, hfailed⟩
    · exact .inr ⟨haddr, hfailed⟩
  · rintro (⟨y, hy, hread⟩ | ⟨haddr, hfailed⟩)
    · exact ⟨y, .inl hy, hread⟩
    · exact ⟨x, .inr rfl, haddr, hdata, hfailed⟩

theorem writesDone_of_append {bus : SmnBus} {answer : Option SmuAnswer} {x : Access}
    (h : Dialogue.WritesDone ⟨bus, d.accesses ++ [x], answer⟩) : d.WritesDone :=
  fun y hy => h y (List.mem_append_left _ hy)

theorem Talking.read (hsep : AddrsSeparate smu.msg smu.rep smu.argBase) (h : Talking smu d)
    {addr r : Word} (haddr : RegAligned addr)
    (hnext : dialogueMove smu family d (.smnRegRead smu.osAccess addr) r d') :
    ∃ d₁ x b, d.SmuTurn smu d₁ ∧ Reading smu.osAccess addr r d₁ x b ∧
      d' = ⟨b, d.accesses ++ [x], d₁.answer⟩ ∧ Talking smu d' := by
  obtain ⟨d₁, x, b, hturn, hread, rfl⟩ := read_reading h.isSmu haddr hnext
  refine ⟨d₁, x, b, hturn, hread, rfl, ?_, fun hwrites => ?_, fun hwrites => ?_⟩
  · exact hread.isSmu.trans (hturn.isSmu.trans h.isSmu)
  · exact ((h.mail (writesDone_of_append hwrites)).turn hsep hturn).of_regs hread.regs
  · have hflag := h.flag (writesDone_of_append hwrites)
    simp only [List.mem_append, List.mem_singleton]
    cases hfailed : x.failed with
    | false =>
      rw [(hread.got hfailed).2, hturn.ioError, hflag]
      constructor
      · rintro ⟨y, hy, hread⟩
        exact ⟨y, .inl hy, hread⟩
      · rintro ⟨y, hy | rfl, hnone, hyes⟩
        · exact ⟨y, hy, hnone, hyes⟩
        · rw [hfailed] at hyes
          cases hyes
    | true =>
      refine ⟨fun _ => ⟨x, .inr rfl, hread.data, hfailed⟩, fun _ => (hread.failed hfailed).2⟩

/-- Where an argument register has not been read, the command is not read back. -/
theorem not_carried_of_unread {i : Fin 6} (h : ¬d.HasRead (argAddr smu.argBase i) false)
    (a : SmuAnswer) : ¬d.Carried smu a :=
  fun hcarried => h (hcarried.readBack i)

theorem PollsOnly.not_carried (hsep : AddrsSeparate smu.msg smu.rep smu.argBase)
    (h : PollsOnly smu d) (a : SmuAnswer) : ¬d.Carried smu a := by
  refine not_carried_of_unread (i := 0) (fun hread => ?_) a
  obtain ⟨x, hx, haddr, hdata, _⟩ := hread
  exact hsep.2.2.1 0 ((h x hx hdata).symm.trans haddr)

theorem PollsOnly.append {bus : SmnBus} {answer : Option SmuAnswer} {x : Access}
    (h : PollsOnly smu d) (hx : x.data = none → x.addr = smu.rep) :
    PollsOnly smu ⟨bus, d.accesses ++ [x], answer⟩ := by
  intro y hy hdata
  rcases List.mem_append.mp hy with hy | hy
  · exact h y hy hdata
  · rw [List.mem_singleton.mp hy] at hdata ⊢
    exact hx hdata

theorem Polling.poll (hsep : AddrsSeparate smu.msg smu.rep smu.argBase)
    (haligned : RegAligned smu.rep) (h : Polling smu d) {r : Word}
    (hnext : dialogueMove smu family d (.smnRegRead smu.osAccess smu.rep) r d') :
    (r = repMsgTimeout → Polling smu d') ∧ Polled smu r d' := by
  obtain ⟨d₁, x, b, hturn, hread, rfl, htalking⟩ := h.toTalking.read hsep haligned hnext
  have honly : PollsOnly smu ⟨b, d.accesses ++ [x], d₁.answer⟩ :=
    h.only.append fun _ => hread.addr
  refine ⟨fun hnothing => ⟨htalking, honly, fun hwrites y hy hdata hok => ?_⟩, htalking, honly, ?_⟩
  · rcases List.mem_append.mp hy with hy | hy
    · exact h.empty (writesDone_of_append hwrites) y hy hdata hok
    · rw [List.mem_singleton.mp hy] at hok ⊢
      rw [hread.before, ← (hread.got hok).1]
      exact hnothing
  · intro hresp hwrites
    have hmail := (h.mail (writesDone_of_append hwrites)).turn hsep hturn
    cases hfailed : x.failed with
    | false =>
      have hvalue := (hread.got hfailed).1
      cases hanswer : d₁.answer with
      | none =>
        rw [hvalue, hmail.rep, hanswer] at hresp
        exact absurd rfl hresp
      | some a =>
        have hcode : r = a.code := by
          rw [hvalue, hmail.rep, hanswer]
          rfl
        refine .inl ⟨a, rfl, hcode, fun hok => ?_, trivial⟩
        refine ⟨x, List.mem_append_right _ List.mem_cons_self, hread.addr, hread.data, hfailed, ?_⟩
        rw [hread.before, ← hvalue, hok]
    | true =>
      refine .inr ⟨(hread.failed hfailed).2, fun hpolled => ?_⟩
      obtain ⟨y, hy, _, hdata, hok, hfound⟩ := hpolled
      rcases List.mem_append.mp hy with hy | hy
      · rw [h.empty (writesDone_of_append hwrites) y hy hdata hok] at hfound
        exact absurd hfound (by decide)
      · rw [List.mem_singleton.mp hy, hfailed] at hok
        cases hok

theorem Polled.readingBack {resp : Word} (h : Polled smu resp d) (hresp : resp ≠ repMsgTimeout) :
    ReadingBack smu resp [] d := by
  refine ⟨h.toTalking, fun x hx hdata => .inl (h.only x hx hdata), fun hwrites => ?_⟩
  rcases h.heeded hresp hwrites with ⟨a, hanswer, hcode, hpolled, _⟩ | hfailed
  · exact .inl ⟨a, hanswer, hcode, hpolled, fun i hi => absurd hi (Nat.not_lt_zero _)⟩
  · exact .inr hfailed

theorem ReadingBack.unread (hsep : AddrsSeparate smu.msg smu.rep smu.argBase) {resp : Word}
    {ws : List Word} (h : ReadingBack smu resp ws d) {i : Fin 6} (hi : ws.length ≤ i.val)
    (failed : Bool) : ¬d.HasRead (argAddr smu.argBase i) failed := by
  intro hread
  obtain ⟨x, hx, haddr, hdata, _⟩ := hread
  rcases h.only x hx hdata with hrep | ⟨j, hj, hsame⟩
  · exact hsep.2.2.1 i (hrep.symm.trans haddr)
  · have hij := hsep.2.2.2 j i (hsame.symm.trans haddr)
    subst hij
    omega

theorem polledOK_append {bus : SmnBus} {answer : Option SmuAnswer} {x : Access}
    (hx : x.addr ≠ smu.rep) :
    Dialogue.PolledOK smu ⟨bus, d.accesses ++ [x], answer⟩ ↔ d.PolledOK smu := by
  simp only [Dialogue.PolledOK, List.mem_append, List.mem_singleton]
  constructor
  · rintro ⟨y, hy | rfl, haddr, hpolled⟩
    · exact ⟨y, hy, haddr, hpolled⟩
    · exact absurd haddr hx
  · rintro ⟨y, hy, hpolled⟩
    exact ⟨y, .inl hy, hpolled⟩

theorem ReadOnce.append {bus : SmnBus} {answer : Option SmuAnswer} {x : Access} {addr : Word}
    {v w : Prop} (h : ReadOnce d addr v) (hdata : x.data = none) (hx : x.addr ≠ addr)
    (hvw : v → w) : ReadOnce ⟨bus, d.accesses ++ [x], answer⟩ addr w := by
  have hsame : ∀ failed, Dialogue.HasRead ⟨bus, d.accesses ++ [x], answer⟩ addr failed ↔
      d.HasRead addr failed := by
    intro failed
    rw [hasRead_append hdata]
    exact or_iff_left fun hnew => hx hnew.1
  rw [ReadOnce, hsame, hsame]
  exact h.imp_left fun hread => ⟨hread.1, hread.2.1, hvw hread.2.2⟩

theorem readOnce_new {bus : SmnBus} {answer : Option SmuAnswer} {x : Access} {addr : Word}
    {v : Prop} (hdata : x.data = none) (hx : x.addr = addr)
    (hfresh : ∀ failed, ¬d.HasRead addr failed)
    (hv : x.failed = false → v) : ReadOnce ⟨bus, d.accesses ++ [x], answer⟩ addr v := by
  have hread : ∀ failed, Dialogue.HasRead ⟨bus, d.accesses ++ [x], answer⟩ addr failed ↔
      x.failed = failed := by
    intro failed
    rw [hasRead_append hdata, or_iff_right (hfresh failed)]
    exact and_iff_right hx
  rw [ReadOnce, hread, hread]
  cases hfailed : x.failed with
  | false => exact .inl ⟨rfl, by decide, hv hfailed⟩
  | true => exact .inr ⟨rfl, by decide⟩

theorem ReadingBack.next (hsep : AddrsSeparate smu.msg smu.rep smu.argBase) {resp : Word}
    {ws : List Word} (h : ReadingBack smu resp ws d) {i : Fin 6} (hi : i.val = ws.length)
    (haligned : RegAligned (argAddr smu.argBase i)) {r : Word}
    (hnext : dialogueMove smu family d (.smnRegRead smu.osAccess (argAddr smu.argBase i)) r d') :
    ReadingBack smu resp (ws ++ [r]) d' := by
  obtain ⟨d₁, x, b, hturn, hread, rfl, htalking⟩ := h.toTalking.read hsep haligned hnext
  have hrep : x.addr ≠ smu.rep := hread.addr ▸ (hsep.2.2.1 i).symm
  refine ⟨htalking, fun y hy hdata => ?_, fun hwrites => ?_⟩
  · rw [List.length_append]
    rcases List.mem_append.mp hy with hy | hy
    · refine (h.only y hy hdata).imp_right fun hread => ?_
      obtain ⟨j, hj, haddr⟩ := hread
      exact ⟨j, Nat.lt_add_right _ hj, haddr⟩
    · rw [List.mem_singleton.mp hy]
      exact .inr ⟨i, by rw [hi]; exact Nat.lt_succ_self _, hread.addr⟩
  · have hmail := (h.mail (writesDone_of_append hwrites)).turn hsep hturn
    rcases h.heeded (writesDone_of_append hwrites) with
      ⟨a, hanswer, hcode, hpolled, honce⟩ | hfailed
    · have hanswer₁ := hturn.answer_stays hanswer
      refine .inl ⟨a, hanswer₁, hcode, fun hok => (polledOK_append hrep).mpr (hpolled hok), ?_⟩
      intro j hj
      rw [List.length_append] at hj
      rcases Nat.lt_succ_iff_lt_or_eq.mp hj with hlt | heq
      · have hij : x.addr ≠ argAddr smu.argBase j := by
          intro haddr
          have hji := hsep.2.2.2 j i (haddr.symm.trans hread.addr)
          subst hji
          omega
        refine (honce j hlt).append hread.data hij fun hword => ?_
        rwa [List.getElem?_append_left hlt]
      · have hij : j = i := Fin.ext (heq.trans hi.symm)
        subst hij
        refine readOnce_new hread.data hread.addr (h.unread hsep (Nat.le_of_eq heq.symm)) ?_
        intro hok
        rw [hi, List.getElem?_concat_length, (hread.got hok).1, hmail.args a hanswer₁]
    · refine .inr ⟨?_, fun hpolled => hfailed.2 ((polledOK_append hrep).mp hpolled)⟩
      show b.ioError = true
      cases hx : x.failed with
      | false => rw [(hread.got hx).2, hturn.ioError, hfailed.1]
      | true => exact (hread.failed hx).2

theorem args_eq_of_get {args args' : Args} (h : ∀ i, args.get i = args'.get i) : args = args' :=
  Args.ext (h 0) (h 1) (h 2) (h 3) (h 4) (h 5)

/-- A read that failed was a poll, or the one read of an argument register. -/
theorem ReadingBack.failed_poll {resp : Word} {ws : List Word} (h : ReadingBack smu resp ws d)
    {x : Access} (hx : x ∈ d.accesses) (hdata : x.data = none) (hfailed : x.failed = true)
    (hback : ∀ i, ¬d.HasRead (argAddr smu.argBase i) true) : d.HasRead smu.rep true := by
  rcases h.only x hx hdata with hrep | ⟨i, _, haddr⟩
  · exact ⟨x, hx, hrep, hdata, hfailed⟩
  · exact absurd ⟨x, hx, haddr, hdata, hfailed⟩ (hback i)

theorem ReadingBack.verdict {resp : Word} {args : Args}
    (h : ReadingBack smu resp ((List.finRange 6).map args.get) d) (hwrites : d.WritesDone) :
    Verdict smu
      (if d.bus.ioError = true ∧ resp = repMsgOK then repMsgFailed else resp, args) d := by
  have hflag := h.flag hwrites
  have hok : (if d.bus.ioError = true ∧ resp = repMsgOK then repMsgFailed else resp) = repMsgOK →
      resp = repMsgOK ∧ ¬d.bus.ioError = true := by
    split
    · exact fun h => absurd h (by decide)
    · rename_i hnot
      exact fun hresp => ⟨hresp, fun herror => hnot ⟨herror, hresp⟩⟩
  rcases h.heeded hwrites with ⟨a, hanswer, hcode, hpolled, honce⟩ | ⟨herror, hunpolled⟩
  · have hread : ∀ i : Fin 6, ReadOnce d (argAddr smu.argBase i) (args.get i = a.result.get i) := by
      intro i
      have hi := honce i (by simp)
      simpa using hi
    have hsame : ∀ a', d.Carried smu a' → a' = a := fun a' hcarried =>
      Option.some.inj (hcarried.answer.symm.trans hanswer)
    have hwords : (∀ i, d.HasRead (argAddr smu.argBase i) false) → args = a.result := by
      refine fun hback => args_eq_of_get fun i => ?_
      rcases hread i with ⟨_, _, hword⟩ | ⟨_, hno⟩
      · exact hword
      · exact absurd (hback i) hno
    refine ⟨fun hr => ?_, fun a' hcarried hclean => ?_, fun a' hcarried hstained => ?_⟩
    · obtain ⟨hresp, hquiet⟩ := hok hr
      have hback : ∀ i, d.HasRead (argAddr smu.argBase i) false := by
        intro i
        rcases hread i with ⟨hyes, _⟩ | ⟨⟨x, hx, _, hdata, hfailed⟩, _⟩
        · exact hyes
        · exact absurd (hflag.mpr ⟨x, hx, hdata, hfailed⟩) hquiet
      exact ⟨a, ⟨hanswer, hcode.symm.trans hresp, hpolled hresp, hback⟩, hwords hback⟩
    · obtain rfl := hsame a' hcarried
      have hquiet : ¬d.bus.ioError = true := by
        intro herror
        obtain ⟨x, hx, hdata, hfailed⟩ := hflag.mp herror
        refine hclean (h.failed_poll hx hdata hfailed fun i hyes => ?_)
        rcases hread i with ⟨_, hno, _⟩ | ⟨_, hno⟩
        · exact hno hyes
        · exact hno (hcarried.readBack i)
      rw [if_neg fun hand => hquiet hand.1, hwords hcarried.readBack, hcode, hcarried.ok]
    · obtain rfl := hsame a' hcarried
      obtain ⟨x, hx, _, hdata, hfailed⟩ := hstained
      exact if_pos ⟨hflag.mpr ⟨x, hx, hdata, hfailed⟩, hcode.trans hcarried.ok⟩
  · refine ⟨fun hr => absurd herror (hok hr).2, ?_, ?_⟩
    · exact fun a hcarried => absurd hcarried.polled hunpolled
    · exact fun a hcarried => absurd hcarried.polled hunpolled

end Reads

/-- The condition from which on a request must end: its command is carried out and read back, in
the accesses of `e`. -/
def CarriedBy (smu : Smu) (e d : Dialogue) : Prop :=
  (∃ a, d.Carried smu a) ∧ d.accesses = e.accesses ∧ d.answer = e.answer

def VerdictIfWritten (smu : Smu) (r : Word × Args) (d : Dialogue) : Prop :=
  d.WritesDone → Verdict smu r d

section Request
variable {smu : Smu} {family : RyzenFamily} {e : Dialogue} {d : Dialogue}

theorem not_carriedBy (h : ∀ a, ¬d.Carried smu a) : ¬CarriedBy smu e d :=
  fun hcarried => hcarried.1.elim h

theorem wpEnds_unlockRet {r : Word × Args} (h : VerdictIfWritten smu r d) :
    (smuUnlock.bind fun _ => .ret r).WpEnds (okEnv smu family) (CarriedBy smu e)
      (VerdictIfWritten smu) d := by
  have hanswer : (okEnv smu family).next d .smuLockFd true d := rfl
  refine ⟨fun h => (nomatch h), fun _ => ⟨true, d, hanswer⟩, fun fdOpen d₁ hnext => ?_⟩
  have heq : d₁ = d := hnext
  subst heq
  cases fdOpen with
  | false => exact h
  | true =>
    refine ⟨fun h => (nomatch h), fun _ => ⟨(), d₁, rfl⟩, fun _ d₂ hnext => ?_⟩
    rw [show d₂ = d₁ from hnext]
    exact h

theorem verdict_of_not_carried {r : Word × Args} (h : ∀ a, ¬d.Carried smu a)
    (hr : r.1 ≠ repMsgOK) : Verdict smu r d :=
  ⟨fun hok => absurd hok hr, fun a hcarried => absurd hcarried (h a),
    fun a hcarried => absurd hcarried (h a)⟩

theorem Verdict.takeError {r : Word × Args} (h : Verdict smu r d) (b : Bool) :
    Verdict smu r { d with bus := { d.bus with ioError := b } } := by
  have hcarried : ∀ a, Dialogue.Carried smu a { d with bus := { d.bus with ioError := b } } →
      d.Carried smu a := fun a h => ⟨h.answer, h.ok, h.polled, h.readBack⟩
  refine ⟨fun hok => ?_, fun a h' => h.clean a (hcarried a h'), fun a h' =>
    h.stained a (hcarried a h')⟩
  obtain ⟨a, hc, hargs⟩ := h.only hok
  exact ⟨a, ⟨hc.answer, hc.ok, hc.polled, hc.readBack⟩, hargs⟩

variable (family e) in
theorem wpEnds_smuWaitForResponse (hsep : AddrsSeparate smu.msg smu.rep smu.argBase)
    (haligned : RegAligned smu.rep) (h : Polling smu d) :
    (smuWaitForResponse smu).WpEnds (okEnv smu family) (CarriedBy smu e) (Polled smu) d := by
  have hnever : ∀ {d : Dialogue}, PollsOnly smu d → ¬CarriedBy smu e d :=
    fun honly => not_carriedBy (honly.not_carried hsep)
  refine ⟨fun h => (nomatch h), fun hc => absurd hc (hnever h.only), fun now d₁ hnext => ?_⟩
  rw [show d₁ = d from hnext]
  refine ⟨fun _ d => Polling smu d, h, fun spins d h => ⟨hnever h.only, ?_⟩⟩
  refine ⟨fun _ => h.only.not_carried hsep, fun hc => absurd hc (hnever h.only), ?_⟩
  intro response d₁ hread
  have hmove : dialogueMove smu family d (.smnRegRead smu.osAccess smu.rep) response d₁ := hread
  obtain ⟨hempty, hpolled⟩ := h.poll hsep haligned hmove
  apply Prog.wpEnds_ite
  · exact fun _ => hpolled
  · intro hnothing
    have hnothing := not_not.mp hnothing
    rw [hnothing] at hpolled
    have hpolling := hempty hnothing
    have hno := hnever hpolling.only
    refine ⟨fun h => (nomatch h), fun hc => absurd hc hno, fun now d₂ hclock => ?_⟩
    rw [show d₂ = d₁ from hclock]
    apply Prog.wpEnds_ite
    · exact fun _ => hpolled
    · intro _
      apply Prog.wpEnds_ite
      · intro _
        refine ⟨fun h => (nomatch h), fun hc => absurd hc hno, fun _ d₃ hsleep => ?_⟩
        rw [show d₃ = d₁ from hsleep]
        exact hpolling
      · exact fun _ => hpolling

theorem wpEnds_readArg (hsep : AddrsSeparate smu.msg smu.rep smu.argBase) {resp : Word}
    {ws : List Word} {α : Type} {k : Word → Prog mailbox α} {Q : α → Dialogue → Prop} (i : Fin 6)
    (hi : i.val = ws.length) (haligned : RegAligned (argAddr smu.argBase i))
    (h : ReadingBack smu resp ws d)
    (hk : ∀ r d', ReadingBack smu resp (ws ++ [r]) d' →
      (k r).WpEnds (okEnv smu family) (CarriedBy smu e) Q d') :
    (Prog.call (S := mailbox) (.smnRegRead smu.osAccess (argAddr smu.argBase i)) k).WpEnds
      (okEnv smu family) (CarriedBy smu e) Q d := by
  have hno := not_carried_of_unread (h.unread hsep (Nat.le_of_eq hi.symm) false)
  refine ⟨fun _ => hno, fun hc => absurd hc (not_carriedBy hno), fun r d' hnext => ?_⟩
  have hmove : dialogueMove smu family d
      (.smnRegRead smu.osAccess (argAddr smu.argBase i)) r d' := hnext
  exact hk r d' (h.next hsep hi haligned hmove)

variable (family e) in
theorem wpEnds_smuReadBack (hsep : AddrsSeparate smu.msg smu.rep smu.argBase)
    (haligned : ∀ i, RegAligned (argAddr smu.argBase i)) {resp : Word}
    (h : ReadingBack smu resp [] d) :
    (smuReadBack smu).WpEnds (okEnv smu family) (CarriedBy smu e)
      (fun args => ReadingBack smu resp ((List.finRange 6).map args.get)) d := by
  refine wpEnds_readArg hsep 0 rfl (haligned 0) h fun _ _ h => ?_
  refine wpEnds_readArg hsep 1 rfl (haligned 1) h fun _ _ h => ?_
  refine wpEnds_readArg hsep 2 rfl (haligned 2) h fun _ _ h => ?_
  refine wpEnds_readArg hsep 3 rfl (haligned 3) h fun _ _ h => ?_
  refine wpEnds_readArg hsep 4 rfl (haligned 4) h fun _ _ h => ?_
  exact wpEnds_readArg hsep 5 rfl (haligned 5) h fun _ _ h => h

/-- Before the doorbell: the response register is cleared if no write has failed. -/
def Cleared (smu : Smu) (d : Dialogue) : Prop :=
  ∃ idle, Preparing smu idle d ∧ (d.WritesDone → idle = 0)

theorem Preparing.not_carried (hsep : AddrsSeparate smu.msg smu.rep smu.argBase) {idle : Word}
    (h : Preparing smu idle d) (a : SmuAnswer) : ¬d.Carried smu a := by
  refine PollsOnly.not_carried hsep (fun x hx hdata => ?_) a
  have hwrite := (h.writes x hx).1
  rw [hdata] at hwrite
  cases hwrite

theorem wpEnds_setupWrite (hsep : AddrsSeparate smu.msg smu.rep smu.argBase) {idle addr data : Word}
    {α : Type} {k : Unit → Prog mailbox α} {Q : α → Dialogue → Prop} (h : Preparing smu idle d)
    (hmsg : addr ≠ smu.msg)
    (hk : ∀ d' x, d'.accesses = d.accesses ++ [x] → x.data = some data →
      Preparing smu (if addr = smu.rep ∧ x.failed = false then data else idle) d' →
      (k ()).WpEnds (okEnv smu family) (CarriedBy smu e) Q d') :
    (Prog.call (S := mailbox) (.smnRegWrite smu.osAccess addr data) k).WpEnds
      (okEnv smu family) (CarriedBy smu e) Q d := by
  have hno := h.not_carried hsep
  refine ⟨fun _ => hno, fun hc => absurd hc (not_carriedBy hno), fun _ d' hnext => ?_⟩
  have hmove : dialogueMove smu family d (.smnRegWrite smu.osAccess addr data) () d' := hnext
  obtain ⟨x, b, hwrite, rfl, hnew⟩ := h.write hmsg hmove
  exact hk _ x rfl hwrite.data hnew

theorem wpEnds_writeAll_cleared (hsep : AddrsSeparate smu.msg smu.rep smu.argBase)
    {ws : List (Word × Word)} (hmsg : ∀ w ∈ ws, w.1 ≠ smu.msg) (hrep : ∀ w ∈ ws, w.1 ≠ smu.rep)
    (h : Cleared smu d) :
    (writeAll smu.osAccess ws).WpEnds (okEnv smu family) (CarriedBy smu e)
      (fun _ => Cleared smu) d := by
  induction ws generalizing d with
  | nil => exact h
  | cons w ws ih =>
    obtain ⟨idle, hprep, hidle⟩ := h
    refine wpEnds_setupWrite hsep hprep (hmsg w List.mem_cons_self) fun d' x haccesses _ hnew => ?_
    rw [if_neg fun hand => hrep w List.mem_cons_self hand.1] at hnew
    refine ih (fun w hw => hmsg w (List.mem_cons_of_mem _ hw))
      (fun w hw => hrep w (List.mem_cons_of_mem _ hw)) ⟨idle, hnew, fun hwrites => hidle ?_⟩
    intro y hy
    exact hwrites y (haccesses ▸ List.mem_append_left _ hy)

theorem wpEnds_smuWriteSetup (hsep : AddrsSeparate smu.msg smu.rep smu.argBase) {idle : Word}
    (args : Args) (h : Preparing smu idle d) :
    (smuWriteSetup smu args).WpEnds (okEnv smu family) (CarriedBy smu e)
      (fun _ => Cleared smu) d := by
  refine wpEnds_setupWrite hsep h hsep.1.symm fun d' x haccesses hdata hnew => ?_
  have hcleared : Cleared smu d' := by
    refine ⟨_, hnew, fun hwrites => if_pos ⟨rfl, hwrites x ?_ (by rw [hdata]; rfl)⟩⟩
    rw [haccesses]
    exact List.mem_append_right _ List.mem_cons_self
  have hargs : ∀ w ∈ (List.finRange 6).map fun i => (argAddr smu.argBase i, args.get i),
      w.1 ≠ smu.msg ∧ w.1 ≠ smu.rep := by
    intro w hw
    obtain ⟨i, _, rfl⟩ := List.mem_map.mp hw
    exact ⟨(hsep.2.1 i).symm, (hsep.2.2.1 i).symm⟩
  exact wpEnds_writeAll_cleared hsep (fun w hw => (hargs w hw).1) (fun w hw =>
    (hargs w hw).2) hcleared

theorem Cleared.ring (hsep : AddrsSeparate smu.msg smu.rep smu.argBase) (h : Cleared smu d)
    (hflag : d.bus.ioError = false) {id : Word} {d' : Dialogue}
    (hnext : dialogueMove smu family d (.smnRegWrite smu.osAccess smu.msg id) () d') :
    Polling smu d' := by
  obtain ⟨idle, hprep, hidle⟩ := h
  obtain ⟨d₁, x, b, hturn, hwrite, rfl⟩ := write_writing hprep.isSmu hnext
  rw [hturn.eq_of_not_received hprep.not_received] at hwrite ⊢
  have hnoRead : ∀ y ∈ d.accesses ++ [x], y.data ≠ none := by
    intro y hy hnone
    rcases List.mem_append.mp hy with hy | hy
    · have hsome := (hprep.writes y hy).1
      rw [hnone] at hsome
      cases hsome
    · rw [List.mem_singleton.mp hy, hwrite.data] at hnone
      cases hnone
  have hok : Dialogue.WritesDone ⟨b, d.accesses ++ [x], d.answer⟩ → x.failed = false :=
    fun hwrites =>
    hwrites x (List.mem_append_right _ List.mem_cons_self) (by rw [hwrite.data]; rfl)
  refine ⟨⟨hwrite.isSmu.trans hprep.isSmu, fun hwrites => ?_, fun hwrites => ?_⟩, ?_, ?_⟩
  · refine ⟨?_, fun a ha => absurd (hprep.answer.symm.trans ha) (Option.some_ne_none a).symm⟩
    show b.regs smu.rep = d.answer.elim 0 SmuAnswer.code
    rw [(hwrite.stored (hok hwrites)).1, Function.update_of_ne hsep.1.symm, hprep.rep, hprep.answer]
    exact hidle (writesDone_of_append hwrites)
  · show b.ioError = true ↔ _
    rw [(hwrite.stored (hok hwrites)).2, hflag]
    refine ⟨fun h => (nomatch h), fun h => ?_⟩
    obtain ⟨y, hy, hnone, _⟩ := h
    exact absurd hnone (hnoRead y hy)
  · exact fun y hy hnone => absurd hnone (hnoRead y hy)
  · exact fun _ y hy hnone => absurd hnone (hnoRead y hy)

theorem wpEnds_registers_ok (hsep : AddrsSeparate smu.msg smu.rep smu.argBase)
    (haligned : AddrsAligned smu.msg smu.rep smu.argBase) (id : Word) (args : Args) {idle : Word}
    (h : Preparing smu idle d) :
    (smuServiceReqRegisters smu id args).WpEnds (okEnv smu family) (CarriedBy smu e)
      (VerdictIfWritten smu) d := by
  have hno := h.not_carried hsep
  refine ⟨fun h => (nomatch h), fun hc => absurd hc (not_carriedBy hno), fun _ d₁ hnext => ?_⟩
  obtain ⟨_, rfl⟩ := hnext
  simp only [Prog.ret_bind, Prog.bind_eq, Prog.pure_eq]
  have hprep : Preparing smu idle { d with bus := { d.bus with ioError := false } } :=
    ⟨h.isSmu, h.writes, h.answer, h.rep⟩
  apply Prog.wpEnds_seq (wpEnds_smuWriteSetup hsep args hprep)
  intro _ d₂ hcleared
  obtain ⟨idle₂, hprep₂, hidle₂⟩ := hcleared
  have hno := hprep₂.not_carried hsep
  refine ⟨fun h => (nomatch h), fun hc => absurd hc (not_carriedBy hno), ?_⟩
  intro setupFailed d₃ hnext
  obtain ⟨_, rfl⟩ := hnext
  have hprep₃ : Preparing smu idle₂ { d₂ with bus := { d₂.bus with ioError := false } } :=
    ⟨hprep₂.isSmu, hprep₂.writes, hprep₂.answer, hprep₂.rep⟩
  have hno := hprep₃.not_carried hsep
  apply Prog.wpEnds_ite
  · exact fun _ => wpEnds_unlockRet fun _ =>
    verdict_of_not_carried hno (show repMsgFailed ≠ repMsgOK by decide)
  · intro _
    refine ⟨fun _ => hno, fun hc => absurd hc (not_carriedBy hno), fun _ d₄ hring => ?_⟩
    have hmove : dialogueMove smu family { d₂ with bus := { d₂.bus with ioError := false } }
        (.smnRegWrite smu.osAccess smu.msg id) () d₄ := hring
    have hpolling := Cleared.ring hsep ⟨idle₂, hprep₃, hidle₂⟩ rfl hmove
    simp only [Prog.ret_bind]
    have hwait := wpEnds_smuWaitForResponse family e hsep haligned.2.1 hpolling
    apply Prog.wpEnds_seq hwait
    intro response d₅ hpolled
    have hno := hpolled.only.not_carried hsep
    apply Prog.wpEnds_ite
    · intro _
      refine ⟨fun h => (nomatch h), fun hc => absurd hc (not_carriedBy hno), fun _ d₆ htake => ?_⟩
      obtain ⟨_, rfl⟩ := htake
      refine wpEnds_unlockRet fun _ => Verdict.takeError ?_ false
      exact verdict_of_not_carried hno (show repMsgTimeout ≠ repMsgOK by decide)
    · intro hresp
      have hback := wpEnds_smuReadBack family e hsep haligned.2.2 (hpolled.readingBack hresp)
      apply Prog.wpEnds_seq hback
      intro args' d₆ hread
      have hanswer : (okEnv smu family).next d₆ .smnIoTakeError d₆.bus.ioError
          { d₆ with bus := { d₆.bus with ioError := false } } := ⟨rfl, rfl⟩
      refine ⟨fun h => (nomatch h), fun _ => ⟨_, _, hanswer⟩, fun readFailed d₇ htake => ?_⟩
      obtain ⟨rfl, rfl⟩ := htake
      exact wpEnds_unlockRet fun hwrites => (hread.verdict hwrites).takeError false

/-- Nothing after that touches a register. -/
theorem carriedBy_stays {o : Mailbox.Op} {r : Mailbox.Ret o} {d' : Dialogue}
    (h : CarriedBy smu e d) (hguard : (okEnv smu family).guard d o)
    (hnext : (okEnv smu family).next d o r d') : CarriedBy smu e d' := by
  obtain ⟨⟨a, hcarried⟩, haccesses, hanswer⟩ := h
  cases o with
  | smnRegRead _ _ => exact absurd hcarried (hguard rfl a)
  | smnRegWrite _ _ _ => exact absurd hcarried (hguard rfl a)
  | smuRawCmd _ _ _ _ _ _ => exact absurd hcarried (hguard rfl a)
  | smnIoTakeError =>
    obtain ⟨_, rfl⟩ := hnext
    exact ⟨⟨a, hcarried.answer, hcarried.ok, hcarried.polled, hcarried.readBack⟩, haccesses,
      hanswer⟩
  | cpuidGetFamily =>
    obtain ⟨_, rfl⟩ := hnext
    exact ⟨⟨a, hcarried⟩, haccesses, hanswer⟩
  | _ =>
    rw [show d' = d from hnext]
    exact ⟨⟨a, hcarried⟩, haccesses, hanswer⟩

theorem wpEnds_smuServiceReq_ok (hsep : AddrsSeparate smu.msg smu.rep smu.argBase)
    (haligned : AddrsAligned smu.msg smu.rep smu.argBase) (id : Word) (args : Args) {idle : Word}
    (h : Preparing smu idle d) :
    (smuServiceReq smu id args).WpEnds (okEnv smu family) (CarriedBy smu e)
      (VerdictIfWritten smu) d := by
  have hlock : ∀ (o : Mailbox.Op) (d : Dialogue), LockOp o → Preparing smu idle d →
      (okEnv smu family).guard d o ∧
        ∀ r d', (okEnv smu family).next d o r d' → Preparing smu idle d' := by
    intro o d ho hd
    cases o <;> first | exact ho.elim | exact ⟨fun h => (nomatch h), fun _ _ hnext => hnext ▸ hd⟩
  have hlocked := Prog.wpEnds_of_only (fun d hd => not_carriedBy (e := e) (hd.not_carried hsep))
    hlock h lockOp_smuLock
  apply Prog.wpEnds_seq hlocked
  intro locked d₁ hend
  have hprep := hend.2
  have hno := hprep.not_carried hsep
  apply Prog.wpEnds_ite
  · exact fun _ _ => verdict_of_not_carried hno (show repMsgCmdRejectedBusy ≠ repMsgOK by decide)
  · intro _
    refine ⟨fun _ => hno, fun hc => absurd hc (not_carriedBy hno), fun r d₂ hnext => ?_⟩
    obtain ⟨rfl, rfl⟩ := hnext
    exact wpEnds_registers_ok hsep haligned id args hprep

end Request

/-- Wherever a request has got to, no write of it having failed: it reports OK exactly for a
command that was carried out and read back, unless that is so and an earlier poll failed. -/
theorem ok_exact {obj : OsAccessObj} {smuType : SmuType} {family : RyzenFamily} {smu : Smu}
    (hsmu : smuOf obj smuType family = some smu) {bus : SmnBus} (hflag : bus.isSmu = obj.isKmod)
    (id : Word) (args : Args) {p : Prog mailbox (Word × Args)} {d : Dialogue}
    (hrun : Prog.Steps (okEnv smu family) (smuServiceReq smu id args, ⟨bus, [], none⟩) (p, d))
    (hwrites : d.WritesDone) :
    ReportsOK smu family p d ↔ ¬((∃ a, d.Carried smu a) ∧ d.HasRead smu.rep true) := by
  rw [← smuOf_osAccess hsmu] at hflag
  have hstart : Preparing smu (bus.regs smu.rep) ⟨bus, [], none⟩ :=
    ⟨hflag, fun x hx => absurd hx List.not_mem_nil, rfl, rfl⟩
  have hreq := Prog.wpEnds_steps hrun (wpEnds_smuServiceReq_ok (e := d)
    (smuOf_separate hsmu) (smuOf_aligned hsmu) id args hstart)
  have hends : ∀ a, d.Carried smu a → Prog.Ends (okEnv smu family)
      (fun r d' => Verdict smu r d' ∧ d'.Carried smu a ∧ d'.accesses = d.accesses) (p, d) := by
    intro a hcarried
    have hend := Prog.ends_of_wpEnds (fun _ _ _ _ => carriedBy_stays) ⟨⟨a, hcarried⟩, rfl, rfl⟩ hreq
    refine hend.mono fun r d' hend => ?_
    obtain ⟨hverdict, ⟨a', hcarried'⟩, haccesses, hanswer⟩ := hend
    have hsame : a' = a :=
      Option.some.inj (hcarried'.answer.symm.trans (hanswer.trans hcarried.answer))
    subst hsame
    have hwrites' : d'.WritesDone := fun x hx => hwrites x (haccesses ▸ hx)
    exact ⟨hverdict hwrites', hcarried', haccesses⟩
  constructor
  · intro hreports hstained
    obtain ⟨⟨a, hcarried⟩, x, hx, hpoll⟩ := hstained
    obtain ⟨r, d', hst, hverdict, hcarried', haccesses⟩ := (hends a hcarried).exists_result
    have hfailed := hverdict.stained a hcarried' ⟨x, haccesses ▸ hx, hpoll⟩
    rw [(hreports.always a hcarried).result hst] at hfailed
    exact absurd hfailed (by decide : repMsgOK ≠ repMsgFailed)
  · intro hnot
    refine ⟨fun r hr => ?_, fun a hcarried => (hends a hcarried).mono fun r d' hend => ?_⟩
    · subst hr
      exact (hreq hwrites).only
    · obtain ⟨hverdict, hcarried', haccesses⟩ := hend
      refine hverdict.clean a hcarried' fun hstained => hnot ⟨⟨a, hcarried⟩, ?_⟩
      obtain ⟨x, hx, hpoll⟩ := hstained
      exact ⟨x, haccesses ▸ hx, hpoll⟩

/-- The SMU answers OK before the third poll; the second poll may fail. -/
def thirdPollOK (fails : Bool) : Script :=
  ⟨fun k => fails && k == 9, fun k => if k = 10 then some okAnswer else none⟩

theorem thirdPollOK_run (fails : Bool) :
    ∃ d, Prog.Steps (okEnv ravenMp1 .raven)
      (smuServiceReq ravenMp1 0x2 Args.zero, ⟨idleBus, [], none⟩)
        (.ret (if fails then repMsgFailed else repMsgOK, okAnswer.result), d) ∧
      d.WritesDone ∧ d.Carried ravenMp1 okAnswer ∧
      (d.HasRead ravenMp1.rep true ↔ fails = true) := by
  have hrun : (Prog.run (Dialogue.scripted ravenMp1 .raven (thirdPollOK fails)) 100
      (smuServiceReq ravenMp1 0x2 Args.zero) ⟨idleBus, [], none⟩).any (fun c =>
        decide (c.1 = (if fails then repMsgFailed else repMsgOK, okAnswer.result) ∧ c.2.WritesDone ∧
          c.2.Carried ravenMp1 okAnswer ∧
          (c.2.HasRead ravenMp1.rep true ↔ fails = true))) = true := by
    cases fails with
    | false => decide +kernel
    | true => decide +kernel
  obtain ⟨⟨r, d⟩, hend, hchecks⟩ := (Option.any_eq_true _ _).mp hrun
  obtain ⟨hr, hchecks⟩ := of_decide_eq_true hchecks
  subst hr
  exact ⟨d, Prog.run_steps (fun _ _ _ _ => scripted_move) hend, hchecks⟩

/-- No poll fails. -/
theorem ok_exact_third_poll :
    ∃ d, ReportsOK ravenMp1 .raven (.ret (repMsgOK, okAnswer.result)) d ∧
      d.Carried ravenMp1 okAnswer := by
  obtain ⟨d, hrun, hwrites, hcarried, hpolls⟩ := thirdPollOK_run false
  have hsmu : smuOf (.mem ⟨0, 0⟩) .mp1 .raven = some ravenMp1 := rfl
  have hclean : ¬d.HasRead ravenMp1.rep true := fun h => absurd (hpolls.mp h) (by decide)
  exact ⟨d, (ok_exact hsmu rfl 0x2 Args.zero hrun hwrites).mpr fun h => hclean h.2, hcarried⟩

/-- The second of three polls fails; the command is carried out and read back all the same. -/
theorem carried_command_fails :
    ∃ d, Prog.Steps (okEnv ravenMp1 .raven)
        (smuServiceReq ravenMp1 0x2 Args.zero, ⟨idleBus, [], none⟩)
        (.ret (repMsgFailed, okAnswer.result), d) ∧
      d.WritesDone ∧ d.Carried ravenMp1 okAnswer := by
  obtain ⟨d, hrun, hwrites, hcarried, _⟩ := thirdPollOK_run true
  exact ⟨d, hrun, hwrites, hcarried⟩

end RyzenAdj
