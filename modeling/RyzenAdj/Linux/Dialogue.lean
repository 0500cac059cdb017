import RyzenAdj.Interaction.Progress
import RyzenAdj.Linux.SmnBus
import RyzenAdj.Smu.RegisterPath

/-!
# A transaction and the SMU behind the bus

The register path over the bus, any register access of which may meet a
failure. The SMU receives a message when the message register is written, and
may then write one answer before any later access. It writes nothing else: an
answer that comes late, to a message of an earlier transaction, is left to the
model of attribution. All accesses are recorded, with the bus as they found it.
-/

namespace RyzenAdj
open Interaction Mailbox

/-- One `smn_reg_read` or `smn_reg_write`. -/
structure Access where
  addr : Word
  /-- The word written; none for a read. -/
  data : Option Word
  /-- The bus when the access began. -/
  before : SmnBus
  failed : Bool

structure Dialogue where
  bus : SmnBus
  accesses : List Access
  answer : Option SmuAnswer

namespace Dialogue

def Received (smu : Smu) (d : Dialogue) : Prop :=
  ∃ x ∈ d.accesses, x.addr = smu.msg ∧ x.data.isSome ∧ x.failed = false

inductive SmuTurn (smu : Smu) (d : Dialogue) : Dialogue → Prop where
  | silent : SmuTurn smu d d
  | answers (a : SmuAnswer) (hreceived : d.Received smu) (hnone : d.answer = none) :
      SmuTurn smu d
        { d with bus := { d.bus with regs := a.store smu d.bus.regs }, answer := some a }

/-- An access that leaves the bus like this. -/
def record (d : Dialogue) (addr : Word) (data : Option Word) (b : SmnBus) : Dialogue :=
  { d with
    bus := b
    accesses := d.accesses ++ [⟨addr, data, d.bus, decide (d.bus.faults < b.faults)⟩] }

end Dialogue

/-- A register access is a run of its Linux function. There is no raw command: the
transaction goes through the registers. -/
def dialogueMove (smu : Smu) (family : RyzenFamily) (d : Dialogue) :
    (o : Mailbox.Op) → Mailbox.Ret o → Dialogue → Prop
  | .smnRegRead obj addr, r, d' =>
    ∃ d₁ b, d.SmuTurn smu d₁ ∧
      Prog.Steps (busEnv obj) (smnRegReadLinux obj addr, d₁.bus) (.ret r, b) ∧
      d' = d₁.record addr none b
  | .smnRegWrite obj addr data, _, d' =>
    ∃ d₁ b, d.SmuTurn smu d₁ ∧
      Prog.Steps (busEnv obj) (smnRegWriteLinux obj addr data, d₁.bus) (.ret (), b) ∧
      d' = d₁.record addr (some data) b
  | .smnIoTakeError, r, d' =>
    r = d.bus.ioError ∧ d' = { d with bus := { d.bus with ioError := false } }
  | .smuRawCmd _ _ _ _ _ _, r, d' => r = none ∧ d' = d
  | .cpuidGetFamily, r, d' => r = family ∧ d' = d
  | _, _, d' => d' = d

/-- Every register of the mailbox can be read at its own address. -/
def AddrsAligned (msg rep argBase : Word) : Prop :=
  RegAligned msg ∧ RegAligned rep ∧ ∀ i, RegAligned (argAddr argBase i)

instance (addr : Word) : Decidable (RegAligned addr) := inferInstanceAs (Decidable (_ = _))

instance (msg rep argBase : Word) : Decidable (AddrsAligned msg rep argBase) :=
  inferInstanceAs (Decidable (_ ∧ _ ∧ _))

theorem smuAddrs_aligned {smuType : SmuType} {family : RyzenFamily} {a : Word × Word × Word}
    (h : smuAddrs smuType family = some a) : AddrsAligned a.1 a.2.1 a.2.2 := by
  cases smuType with
  | mp1 => cases family <;> cases h <;> decide +kernel
  | psmu => cases family <;> cases h <;> decide +kernel
  | count => cases h

theorem smuOf_aligned {obj : OsAccessObj} {smuType : SmuType} {family : RyzenFamily} {smu : Smu}
    (h : smuOf obj smuType family = some smu) : AddrsAligned smu.msg smu.rep smu.argBase := by
  simp only [smuOf, Option.map_eq_some_iff] at h
  obtain ⟨a, ha, rfl⟩ := h
  exact smuAddrs_aligned ha

section Specs
variable {smu : Smu} {family : RyzenFamily} {obj : OsAccessObj} {d d₁ d' : Dialogue}

/-- What a read does to a dialogue, the SMU having had its turn. -/
structure Reading (obj : OsAccessObj) (reg r : Word) (d₁ : Dialogue) (x : Access) (b : SmnBus) :
    Prop where
  addr : x.addr = reg
  data : x.data = none
  before : x.before = d₁.bus
  isSmu : b.isSmu = d₁.bus.isSmu
  regs : b.regs = d₁.bus.regs
  got : x.failed = false → r = d₁.bus.regs reg ∧ b.ioError = d₁.bus.ioError
  failed : x.failed = true → r = d₁.bus.unread obj ∧ b.ioError = true

structure Writing (reg word : Word) (d₁ : Dialogue) (x : Access) (b : SmnBus) : Prop where
  addr : x.addr = reg
  data : x.data = some word
  before : x.before = d₁.bus
  isSmu : b.isSmu = d₁.bus.isSmu
  stored : x.failed = false →
    b.regs = Function.update d₁.bus.regs reg word ∧ b.ioError = d₁.bus.ioError
  failed : x.failed = true → b.regs = d₁.bus.regs ∧ b.ioError = true

theorem Dialogue.SmuTurn.accesses (h : d.SmuTurn smu d₁) : d₁.accesses = d.accesses := by
  cases h with
  | silent => rfl
  | answers a _ _ => rfl

theorem Dialogue.SmuTurn.isSmu (h : d.SmuTurn smu d₁) : d₁.bus.isSmu = d.bus.isSmu := by
  cases h with
  | silent => rfl
  | answers a _ _ => rfl

theorem Dialogue.SmuTurn.ioError (h : d.SmuTurn smu d₁) : d₁.bus.ioError = d.bus.ioError := by
  cases h with
  | silent => rfl
  | answers a _ _ => rfl

/-- The SMU answers once. -/
theorem Dialogue.SmuTurn.answer_stays {a : SmuAnswer} (h : d.SmuTurn smu d₁)
    (ha : d.answer = some a) : d₁.answer = some a := by
  cases h with
  | silent => exact ha
  | answers _ _ hnone =>
    rw [ha] at hnone
    cases hnone

theorem read_reading {addr r : Word} (hflag : d.bus.isSmu = obj.isKmod) (haddr : RegAligned addr)
    (hnext : dialogueMove smu family d (.smnRegRead obj addr) r d') :
    ∃ d₁ x b, d.SmuTurn smu d₁ ∧ Reading obj addr r d₁ x b ∧
      d' = ⟨b, d.accesses ++ [x], d₁.answer⟩ := by
  obtain ⟨d₁, b, hturn, hrun, rfl⟩ := hnext
  have hspec := Prog.wp_result _ hrun (smnRegReadLinux_bus (hturn.isSmu.trans hflag) haddr)
  refine ⟨d₁, _, b, hturn, ?_, by rw [← hturn.accesses]; rfl⟩
  cases hspec with
  | got hquiet hvalue =>
    have hok : decide (d₁.bus.faults < b.faults) = false := by
      rw [hquiet.faults, decide_eq_false (Nat.lt_irrefl _)]
    refine ⟨rfl, rfl, rfl, hquiet.isSmu, hquiet.regs, fun _ => ⟨hvalue, hquiet.ioError⟩, ?_⟩
    intro hfailed
    exact absurd (hok.symm.trans hfailed) (by decide)
  | failed hfailed hvalue =>
    have hbad : decide (d₁.bus.faults < b.faults) = true := decide_eq_true hfailed.faults
    refine ⟨rfl, rfl, rfl, hfailed.isSmu, hfailed.regs, ?_, fun _ => ⟨hvalue, hfailed.ioError⟩⟩
    intro hok
    exact absurd (hbad.symm.trans hok) (by decide)

theorem write_writing {addr data : Word} (hflag : d.bus.isSmu = obj.isKmod)
    (hnext : dialogueMove smu family d (.smnRegWrite obj addr data) () d') :
    ∃ d₁ x b, d.SmuTurn smu d₁ ∧ Writing addr data d₁ x b ∧
      d' = ⟨b, d.accesses ++ [x], d₁.answer⟩ := by
  obtain ⟨d₁, b, hturn, hrun, rfl⟩ := hnext
  have hspec := Prog.wp_result _ hrun (smnRegWriteLinux_bus (hturn.isSmu.trans hflag) addr data)
  refine ⟨d₁, _, b, hturn, ?_, by rw [← hturn.accesses]; rfl⟩
  cases hspec with
  | stored hquiet =>
    have hok : decide (d₁.bus.faults < b.faults) = false := by
      rw [show b.faults = d₁.bus.faults from hquiet.faults, decide_eq_false (Nat.lt_irrefl _)]
    refine ⟨rfl, rfl, rfl, hquiet.isSmu, fun _ => ⟨hquiet.regs, hquiet.ioError⟩, ?_⟩
    intro hfailed
    exact absurd (hok.symm.trans hfailed) (by decide)
  | failed hfailed =>
    have hbad : decide (d₁.bus.faults < b.faults) = true := decide_eq_true hfailed.faults
    refine ⟨rfl, rfl, rfl, hfailed.isSmu, ?_, fun _ => ⟨hfailed.regs, hfailed.ioError⟩⟩
    intro hok
    exact absurd (hbad.symm.trans hok) (by decide)

theorem Dialogue.SmuTurn.eq_of_not_received (h : d.SmuTurn smu d₁) (hnot : ¬d.Received smu) :
    d₁ = d := by
  cases h with
  | silent => rfl
  | answers a hreceived _ => exact absurd hreceived hnot

end Specs

/-- What the mailbox holds: before the answer `idle` in the response register. -/
structure Mail (smu : Smu) (idle : Word) (b : SmnBus) (answer : Option SmuAnswer) : Prop where
  rep : b.regs smu.rep = answer.elim idle SmuAnswer.code
  args : ∀ a, answer = some a → ∀ i, b.regs (argAddr smu.argBase i) = a.result.get i

/-- A transaction before its doorbell. -/
structure Preparing (smu : Smu) (idle : Word) (d : Dialogue) : Prop where
  isSmu : d.bus.isSmu = smu.osAccess.isKmod
  writes : ∀ x ∈ d.accesses, x.data.isSome ∧ x.addr ≠ smu.msg
  answer : d.answer = none
  rep : d.bus.regs smu.rep = idle

section Phases
variable {smu : Smu} {family : RyzenFamily} {idle : Word} {d d₁ d' : Dialogue}

theorem Mail.turn (hsep : AddrsSeparate smu.msg smu.rep smu.argBase)
    (h : Mail smu idle d.bus d.answer) (hturn : d.SmuTurn smu d₁) :
    Mail smu idle d₁.bus d₁.answer := by
  cases hturn with
  | silent => exact h
  | answers a _ _ =>
    refine ⟨if_pos rfl, fun a' ha' i => ?_⟩
    cases ha'
    exact a.store_arg hsep _ i

theorem Mail.of_regs {b b' : SmnBus} {answer : Option SmuAnswer} (h : Mail smu idle b answer)
    (hregs : b'.regs = b.regs) : Mail smu idle b' answer :=
  ⟨hregs ▸ h.rep, fun a ha i => hregs ▸ h.args a ha i⟩

theorem Preparing.not_received (h : Preparing smu idle d) : ¬d.Received smu := by
  intro hreceived
  obtain ⟨x, hx, hmsg, _⟩ := hreceived
  exact (h.writes x hx).2 hmsg

theorem Preparing.write {addr data : Word} (h : Preparing smu idle d) (hmsg : addr ≠ smu.msg)
    (hnext : dialogueMove smu family d (.smnRegWrite smu.osAccess addr data) () d') :
    ∃ x b, Writing addr data d x b ∧ d' = ⟨b, d.accesses ++ [x], none⟩ ∧
      Preparing smu (if addr = smu.rep ∧ x.failed = false then data else idle) d' := by
  obtain ⟨d₁, x, b, hturn, hwrite, rfl⟩ := write_writing h.isSmu hnext
  rw [hturn.eq_of_not_received h.not_received] at hwrite ⊢
  refine ⟨x, b, hwrite, by rw [h.answer], hwrite.isSmu.trans h.isSmu, ?_, h.answer, ?_⟩
  · intro y hy
    rcases List.mem_append.mp hy with hy | hy
    · exact h.writes y hy
    · rw [List.mem_singleton.mp hy, hwrite.data, hwrite.addr]
      exact ⟨rfl, hmsg⟩
  · show b.regs smu.rep = _
    cases hfailed : x.failed with
    | false =>
      rw [(hwrite.stored hfailed).1]
      by_cases hrep : addr = smu.rep
      · rw [if_pos ⟨hrep, rfl⟩, hrep]
        exact Function.update_self ..
      · rw [if_neg fun hand => hrep hand.1, Function.update_of_ne (Ne.symm hrep)]
        exact h.rep
    | true =>
      rw [(hwrite.failed hfailed).1, if_neg fun hand => absurd hand.2 (by decide)]
      exact h.rep

end Phases

/-! ### Scripts -/

/-- A course of a transaction on `/dev/mem`: the accesses that cannot select their register, and
before which access the SMU answers. -/
structure Script where
  fails : Nat → Bool
  answers : Nat → Option SmuAnswer

namespace Dialogue

instance (smu : Smu) (d : Dialogue) : Decidable (d.Received smu) :=
  inferInstanceAs
    (Decidable (∃ x ∈ d.accesses, x.addr = smu.msg ∧ x.data.isSome ∧ x.failed = false))

def turn (smu : Smu) (script : Script) (d : Dialogue) : Dialogue :=
  match d.answer, script.answers d.accesses.length with
  | none, some a =>
    if d.Received smu then
      { d with bus := { d.bus with regs := a.store smu d.bus.regs }, answer := some a }
    else d
  | _, _ => d

def scripted (smu : Smu) (family : RyzenFamily) (script : Script) (d : Dialogue) :
    (o : Mailbox.Op) → Option (Mailbox.Ret o) × Dialogue
  | .smnRegRead (.mem _) addr =>
    let b := (d.turn smu script).bus
    if b.isSmu then
      (none, d)
    else if script.fails d.accesses.length then
      (some (b.regs b.index), (d.turn smu script).record addr none { b.fault with ioError := true })
    else
      (some (b.regs (addr &&& ~~~(3 : Word))),
        (d.turn smu script).record addr none { b with index := addr &&& ~~~(3 : Word) })
  | .smnRegWrite (.mem _) addr data =>
    let b := (d.turn smu script).bus
    if b.isSmu then
      (none, d)
    else if script.fails d.accesses.length then
      (some (), (d.turn smu script).record addr (some data) { b.fault with ioError := true })
    else
      (some (), (d.turn smu script).record addr (some data)
        { b with index := addr, regs := Function.update b.regs addr data })
  | .smnRegRead (.kmod _) _ | .smnRegWrite (.kmod _) _ _ => (none, d)
  | .smnIoTakeError => (some d.bus.ioError, { d with bus := { d.bus with ioError := false } })
  | .smuRawCmd _ _ _ _ _ _ => (some none, d)
  | .cpuidGetFamily => (some family, d)
  | .flockEx => (some .acquired, d)
  | .monotonicMs => (some 0, d)
  | .smuLockFd | .openSmuLock | .malloc => (some true, d)
  | .flockUn | .usleep | .shortSleep => (some (), d)

theorem turn_smuTurn (smu : Smu) (script : Script) (d : Dialogue) :
    d.SmuTurn smu (d.turn smu script) := by
  unfold turn
  split
  · rename_i a hanswer _
    split
    · rename_i hreceived
      exact .answers a hreceived hanswer
    · exact .silent
  · exact .silent

end Dialogue

section Mem
variable {o : MemObj} {b : SmnBus} {addr data : Word}

theorem memRead_run (hflag : b.isSmu = false) :
    Prog.Steps (busEnv (.mem o)) (smnRegReadLinux (.mem o) addr, b)
      (.ret (b.regs (addr &&& ~~~(3 : Word))), { b with index := addr &&& ~~~(3 : Word) }) := by
  have hasked : (busEnv (.mem o)).next b .isSmu false b := ⟨hflag.symm, rfl⟩
  have hselect : (busEnv (.mem o)).next b
      (.pciWriteLong o.pciDev nbPciRegAddrAddr (addr &&& ~~~(3 : Word))) true
      { b with index := addr &&& ~~~(3 : Word) } := rfl
  have hread : (busEnv (.mem o)).next { b with index := addr &&& ~~~(3 : Word) }
      (.pciReadLong o.pciDev nbPciRegDataAddr) (b.regs (addr &&& ~~~(3 : Word)))
      { b with index := addr &&& ~~~(3 : Word) } := ⟨fun _ => rfl, rfl⟩
  refine .head (Prog.Step.call hasked) ?_
  refine .head (Prog.Step.call hselect) ?_
  exact .single (Prog.Step.call hread)

theorem memRead_unselected (hflag : b.isSmu = false) :
    Prog.Steps (busEnv (.mem o)) (smnRegReadLinux (.mem o) addr, b)
      (.ret (b.regs b.index), { b.fault with ioError := true }) := by
  have hasked : (busEnv (.mem o)).next b .isSmu false b := ⟨hflag.symm, rfl⟩
  have hselect : (busEnv (.mem o)).next b
      (.pciWriteLong o.pciDev nbPciRegAddrAddr (addr &&& ~~~(3 : Word))) false b.fault := rfl
  have hset : (busEnv (.mem o)).next b.fault .smnIoSetError () { b.fault with ioError := true } :=
    rfl
  have hread : (busEnv (.mem o)).next { b.fault with ioError := true }
      (.pciReadLong o.pciDev nbPciRegDataAddr) (b.regs b.index)
      { b.fault with ioError := true } := ⟨fun _ => rfl, rfl⟩
  refine .head (Prog.Step.call hasked) ?_
  refine .head (Prog.Step.call hselect) ?_
  refine .head (Prog.Step.call hset) ?_
  exact .single (Prog.Step.call hread)

theorem memWrite_run (hflag : b.isSmu = false) :
    Prog.Steps (busEnv (.mem o)) (smnRegWriteLinux (.mem o) addr data, b)
      (.ret (), { b with index := addr, regs := Function.update b.regs addr data }) := by
  have hasked : (busEnv (.mem o)).next b .isSmu false b := ⟨hflag.symm, rfl⟩
  have hselect : (busEnv (.mem o)).next b (.pciWriteLong o.pciDev nbPciRegAddrAddr addr) true
      { b with index := addr } := rfl
  have hwrite : (busEnv (.mem o)).next { b with index := addr }
      (.pciWriteLong o.pciDev nbPciRegDataAddr data) true
      { b with index := addr, regs := Function.update b.regs addr data } := rfl
  refine .head (Prog.Step.call hasked) ?_
  refine .head (Prog.Step.call hselect) ?_
  exact .single (Prog.Step.call hwrite)

theorem memWrite_unselected (hflag : b.isSmu = false) :
    Prog.Steps (busEnv (.mem o)) (smnRegWriteLinux (.mem o) addr data, b)
      (.ret (), { b.fault with ioError := true }) := by
  have hasked : (busEnv (.mem o)).next b .isSmu false b := ⟨hflag.symm, rfl⟩
  have hselect : (busEnv (.mem o)).next b (.pciWriteLong o.pciDev nbPciRegAddrAddr addr) false
      b.fault := rfl
  have hset : (busEnv (.mem o)).next b.fault .smnIoSetError () { b.fault with ioError := true } :=
    rfl
  refine .head (Prog.Step.call hasked) ?_
  refine .head (Prog.Step.call hselect) ?_
  exact .single (Prog.Step.call hset)

theorem scripted_move {smu : Smu} {family : RyzenFamily} {script : Script} {d d' : Dialogue}
    {o : Mailbox.Op} {r : Mailbox.Ret o} (h : d.scripted smu family script o = (some r, d')) :
    dialogueMove smu family d o r d' := by
  cases o with
  | smnRegRead obj addr =>
    cases obj with
    | kmod o => cases h
    | mem o =>
      simp only [Dialogue.scripted] at h
      split at h
      · cases h
      · rename_i hflag
        have hflag := Bool.eq_false_iff.mpr hflag
        split at h
        · cases h
          exact ⟨_, _, d.turn_smuTurn smu script, memRead_unselected hflag, rfl⟩
        · cases h
          exact ⟨_, _, d.turn_smuTurn smu script, memRead_run hflag, rfl⟩
  | smnRegWrite obj addr data =>
    cases obj with
    | kmod o => cases h
    | mem o =>
      simp only [Dialogue.scripted] at h
      split at h
      · cases h
      · rename_i hflag
        have hflag := Bool.eq_false_iff.mpr hflag
        split at h
        · cases h
          exact ⟨_, _, d.turn_smuTurn smu script, memWrite_unselected hflag, rfl⟩
        · cases h
          exact ⟨_, _, d.turn_smuTurn smu script, memWrite_run hflag, rfl⟩
  | smnIoTakeError =>
    cases h
    exact ⟨rfl, rfl⟩
  | smuRawCmd _ _ _ _ _ _ =>
    cases h
    exact ⟨rfl, rfl⟩
  | cpuidGetFamily =>
    cases h
    exact ⟨rfl, rfl⟩
  | _ =>
    cases h
    rfl

end Mem

deriving instance DecidableEq for SmuAnswer

def idleBus : SmnBus := ⟨⟨false, false, fun _ => 0, 0, [], 0⟩, 0, 0⟩

theorem ok_ne_timeout : repMsgOK ≠ repMsgTimeout := by decide

def okAnswer : SmuAnswer := ⟨repMsgOK, ⟨1, 2, 3, 4, 5, 6⟩, ok_ne_timeout⟩

end RyzenAdj
