import RyzenAdj.Api.TableRun

/-!
# Sequences of table calls and the buffer invariant

The calls a program can make on the PM table of one handle, the states they
reach from a handle that `init_ryzenadj` has just returned, and what holds of
`table_size` and the buffer in all of them.
-/

namespace RyzenAdj
open Interaction Api

inductive TableCall where
  | initTable
  | refreshTable
  | getTableVer
  | getTableSize
  | getter (g : Getter) (core : Word)

inductive TableAnswer where
  | code (errorcode : Int)
  | ver (v : Word)
  | size (n : Nat)
  | value (v : Word)
  deriving DecidableEq

def TableCall.prog (depth : Nat) (ry : RyzenAccess) :
    TableCall → Prog api (TableAnswer × RyzenAccess)
  | .initTable => do
    let (errorcode, ry) ← RyzenAdj.initTable depth ry
    return (.code errorcode, ry)
  | .refreshTable => do
    let (errorcode, ry) ← RyzenAdj.refreshTable depth ry
    return (.code errorcode, ry)
  | .getTableVer => do
    let (v, ry) ← RyzenAdj.getTableVer depth ry
    return (.ver v, ry)
  | .getTableSize => do
    let (n, ry) ← RyzenAdj.getTableSize depth ry
    return (.size n, ry)
  | .getter g core =>
    match g.read ry core with
    | none => undefined
    | some v => pure (.value v, ry)

/-- The call in a process whose backend is that of the handle. -/
def TableCall.exec (depth : Nat) (ry : RyzenAccess) (c : TableCall) (w : World) :
    Option (TableAnswer × RyzenAccess) × World :=
  (c.prog depth ry).eval (World.answer ry.osAccess.isKmod) w

def freshHandle (obj : OsAccessObj) (mp1Smu psmu : Smu) (family : RyzenFamily) : RyzenAccess where
  osAccess := obj
  mp1Smu := mp1Smu
  psmu := psmu
  family := family
  biosIfVer := 0
  tableAddr := 0
  tableVer := 0
  tableSize := 0
  tableValues := none
  tableInitBusy := false

/-- The states of a handle, with the copies completed into its buffer, after any
sequence of calls that each meet `Cond`; every call has inputs of its own. -/
inductive Reached (depth : Nat) (Cond : RyzenAccess → World → TableCall → Prop) :
    RyzenAccess → List (List Byte) → Prop where
  | fresh (obj : OsAccessObj) (mp1Smu psmu : Smu) (family : RyzenFamily) :
      Reached depth Cond (freshHandle obj mp1Smu psmu family) []
  | call {ry ry' : RyzenAccess} {c : TableCall} {w w' : World} {a : TableAnswer} :
      Reached depth Cond ry w.copies → Cond ry w c →
      c.exec depth ry w = (some (a, ry'), w') → Reached depth Cond ry' w'.copies

def ReplacesBuffer (fam : TableFamily) (w : World) : Prop :=
  VersionAnswered w.smu.head ∧ AddrAnswered fam w.smu.tail.head ∧ w.mapped.head = true

/-- A re-initialisation that stops before it replaces the buffer has been given a
table version whose size the old buffer has room for. -/
def InitFits (ry : RyzenAccess) (w : World) : Prop :=
  ∀ buf fam, ry.tableValues = some buf → tableFamily ry.family = some fam →
    ¬ ReplacesBuffer fam w → tableSizeOf w.smu.head.2.arg0 ≤ buf.length

def BufferCond (ry : RyzenAccess) (w : World) : TableCall → Prop
  | .initTable => InitFits ry w
  | _ => True

/-- What holds of a handle between two calls. -/
structure BufferInv (ry : RyzenAccess) : Prop where
  idle : ry.tableInitBusy = false
  refreshable : ∀ buf, ry.tableValues = some buf →
    Refreshable ry.osAccess.isKmod ry.tableSize buf
  accepted : ∀ buf, ry.tableValues = some buf →
    4 ∣ ry.tableSize ∧ ry.tableSize ≤ ryzenadjMaxTableSize

theorem bufferInv_fresh (obj : OsAccessObj) (mp1Smu psmu : Smu) (family : RyzenFamily) :
    BufferInv (freshHandle obj mp1Smu psmu family) := by
  constructor
  · rfl
  · intro buf h
    cases h
  · intro buf h
    cases h

theorem BufferInv.withVersion {ry : RyzenAccess} (h : BufferInv ry) {ver : Word}
    (hfits : ∀ buf, ry.tableValues = some buf → tableSizeOf ver ≤ buf.length) :
    BufferInv (ry.withVersion ver) := by
  have hver := tableSizeOf_accepted ver
  constructor
  · exact h.idle
  · intro buf hbuf
    have hr := h.refreshable buf hbuf
    exact ⟨hfits buf hbuf, hr.first, hr.compared⟩
  · intro buf hbuf
    show 4 ∣ tableSizeOf ver ∧ tableSizeOf ver ≤ 0x2000
    omega

theorem BufferInv.withAddr {ry : RyzenAccess} (h : BufferInv ry) (addr : BitVec 64) :
    BufferInv (ry.withAddr addr) :=
  ⟨h.idle, h.refreshable, h.accepted⟩

theorem bufferInv_initHandle {ry : RyzenAccess} {fam : TableFamily} {smu : Stream' (Word × Args)}
    {values : Option (List Byte)} (hlen : ∀ buf, values = some buf → buf.length = initSize ry smu) :
    BufferInv (initHandle ry fam smu values false) := by
  have hsize := preferredSize_accepted ry.osAccess smu.head.2.arg0
  constructor
  · rfl
  · intro buf hbuf
    have hzeros := refreshable_zeros ry.osAccess smu.head.2.arg0 rfl
    refine hzeros.of_length ?_
    rw [List.length_replicate]
    exact hlen buf hbuf
  · intro buf _
    show 4 ∣ preferredSize ry.osAccess (tableSizeOf smu.head.2.arg0) ∧ _
    exact ⟨Nat.dvd_of_mod_eq_zero hsize.2.1, hsize.2.2⟩

theorem BufferInv.init {ry ry' : RyzenAccess} {w w' : World} {code : Int} (h : BufferInv ry)
    (hfits : InitFits ry w) (hend : InitEnd ry w (some (code, ry'), w')) :
    BufferInv ry' ∧ (code = 0 → ry'.tableValues.isSome) := by
  cases hend with
  | busy hbusy => exact ⟨h, fun hc => absurd hc (by decide)⟩
  | unsupported _ _ => exact ⟨h, fun hc => absurd hc (by decide)⟩
  | version fam _ _ hfam hver hcode =>
    have hnot : ¬ ReplacesBuffer fam w := fun hrep => hver hrep.1
    exact ⟨h.withVersion fun buf hbuf => hfits buf fam hbuf hfam hnot, fun hc => absurd hc hcode⟩
  | addr fam _ _ hfam _ haddr hcode =>
    have hnot : ¬ ReplacesBuffer fam w := fun hrep => haddr hrep.2.1
    exact ⟨(h.withVersion fun buf hbuf => hfits buf fam hbuf hfam hnot).withAddr _,
      fun hc => absurd hc hcode⟩
  | mapping fam _ hfam _ _ hmap =>
    have hnot : ¬ ReplacesBuffer fam w := by
      intro hrep
      rw [hrep.2.2] at hmap
      cases hmap
    exact ⟨(h.withVersion fun buf hbuf => hfits buf fam hbuf hfam hnot).withAddr _,
      fun hc => absurd hc (by decide)⟩
  | allocation fam _ _ _ _ _ _ =>
    exact ⟨bufferInv_initHandle fun buf hbuf => (nomatch hbuf), fun hc => absurd hc (by decide)⟩
  | filled fam _ ry₁ _ _ _ _ _ _ _ hfill =>
    obtain ⟨buf, hlen, heq⟩ := hfill.init
    rw [heq]
    refine ⟨bufferInv_initHandle ?_, fun _ => rfl⟩
    intro buf' hbuf'
    cases hbuf'
    exact hlen

theorem BufferInv.lazy {ry ry' : RyzenAccess} {w w' : World} {code : Int} (h : BufferInv ry)
    (hend : LazyEnd ry w (some (code, ry'), w')) :
    BufferInv ry' ∧ ry'.osAccess = ry.osAccess ∧ (code = 0 → ry'.tableValues.isSome) := by
  cases hend with
  | ready hsome heq =>
    cases heq
    exact ⟨h, rfl, fun _ => hsome⟩
  | init hnone hinit =>
    have hfits : InitFits ry w := fun buf fam hbuf => by rw [hnone] at hbuf; cases hbuf
    obtain ⟨hinv, hsome⟩ := h.init hfits hinit
    exact ⟨hinv, hinit.osAccess, hsome⟩

theorem BufferInv.refresh {ry ry' : RyzenAccess} {buf : List Byte} {w w' : World} {code : Int}
    (h : BufferInv ry) (hbuf : ry.tableValues = some buf)
    (hend : RefreshEnd ry.osAccess.isKmod ry buf w (some (code, ry'), w')) : BufferInv ry' := by
  have hr := h.refreshable buf hbuf
  obtain ⟨code', buf', w'', heq, hlen⟩ := hend.buffer hbuf hr.size_le
  cases heq
  constructor
  · exact h.idle
  · intro b hb
    cases hb
    exact hr.of_length hlen
  · intro b _
    exact h.accepted buf hbuf

inductive RefreshCallEnd (ry : RyzenAccess) (w : World) (r : Option (Int × RyzenAccess) × World) :
    Prop where
  | notReady (code : Int) (ry' : RyzenAccess) (w' : World) : code ≠ 0 →
      LazyEnd ry w (some (code, ry'), w') → r = (some (code, ry'), w') → RefreshCallEnd ry w r
  | refreshed (ry₁ : RyzenAccess) (buf : List Byte) (w₁ : World) :
      LazyEnd ry w (some (0, ry₁), w₁) → ry₁.tableValues = some buf →
      RefreshEnd ry₁.osAccess.isKmod ry₁ buf w₁ r → RefreshCallEnd ry w r

theorem refreshTable_end (depth : Nat) {ry : RyzenAccess} (h : BufferInv ry) (w : World) :
    RefreshCallEnd ry w
      ((refreshTable (depth + 2) ry).eval (World.answer ry.osAccess.isKmod) w) := by
  have hlazy := lazyInitTable_end depth ry w
  obtain ⟨code, ry₁, w₁, heq⟩ := hlazy.result
  rw [heq] at hlazy
  obtain ⟨hinv, hobj, hsome⟩ := h.lazy hlazy
  have hunfold : (refreshTable (depth + 2) ry).eval (World.answer ry.osAccess.isKmod) w =
      Prog.andThen (some (code, ry₁), w₁) fun r s =>
        (if r.1 ≠ 0 then Prog.ret r else refreshTableBody r.2).eval
          (World.answer ry.osAccess.isKmod) s := by
    rw [← heq, ← Prog.eval_bind]
    rfl
  rw [hunfold, Prog.andThen_some]
  by_cases hcode : code = 0
  · obtain ⟨buf, hbuf⟩ := Option.isSome_iff_exists.mp (hsome hcode)
    simp only [hcode, ne_eq, not_true_eq_false, if_false]
    rw [hcode] at hlazy
    rw [← hobj]
    exact .refreshed ry₁ buf w₁ hlazy hbuf
      (refreshTableBody_end ry₁ hbuf (hinv.refreshable buf hbuf) w₁)
  · simp only [hcode, ne_eq, not_false_eq_true, if_true]
    exact .notReady code ry₁ w₁ hcode hlazy rfl

theorem BufferInv.refreshCall {ry ry' : RyzenAccess} {w w' : World} {code : Int} (h : BufferInv ry)
    (hend : RefreshCallEnd ry w (some (code, ry'), w')) : BufferInv ry' := by
  cases hend with
  | notReady code' ry₁ w₁ _ hlazy heq =>
    cases heq
    exact (h.lazy hlazy).1
  | refreshed ry₁ buf w₁ hlazy hbuf hend => exact (h.lazy hlazy).1.refresh hbuf hend

/-- A getter on a handle whose buffer is as large as `table_size` reads inside it. -/
theorem readFloatValue_isSome {ry : RyzenAccess}
    (hle : ∀ buf, ry.tableValues = some buf → ry.tableSize ≤ buf.length) (off : Nat) :
    (readFloatValue ry off).isSome := by
  unfold readFloatValue
  cases hbuf : ry.tableValues with
  | none => rfl
  | some buf =>
    have hsize := hle buf hbuf
    simp only
    split
    next => rfl
    next hoff =>
      rw [cellAt_isSome_iff]
      omega

theorem BufferInv.read {ry : RyzenAccess} (h : BufferInv ry) (g : Getter) (core : Word) :
    ∃ v, g.read ry core = some v := by
  rw [← Option.isSome_iff_exists]
  unfold Getter.read
  cases g.offset ry.tableVer core with
  | none => rfl
  | some off => exact readFloatValue_isSome (fun buf hbuf => (h.refreshable buf hbuf).size_le) off

inductive CallEnd (ry : RyzenAccess) (w : World) :
    TableCall → TableAnswer → RyzenAccess → World → Prop where
  | initTable (code : Int) (ry' : RyzenAccess) (w' : World) :
      InitEnd ry w (some (code, ry'), w') → CallEnd ry w .initTable (.code code) ry' w'
  | refreshTable (code : Int) (ry' : RyzenAccess) (w' : World) :
      RefreshCallEnd ry w (some (code, ry'), w') → CallEnd ry w .refreshTable (.code code) ry' w'
  | getTableVer (code : Int) (ry' : RyzenAccess) (w' : World) :
      LazyEnd ry w (some (code, ry'), w') →
      CallEnd ry w .getTableVer (.ver (if code ≠ 0 then 0 else ry'.tableVer)) ry' w'
  | getTableSize (code : Int) (ry' : RyzenAccess) (w' : World) :
      LazyEnd ry w (some (code, ry'), w') →
      CallEnd ry w .getTableSize (.size (if code ≠ 0 then 0 else ry'.tableSize)) ry' w'
  | getter (g : Getter) (core v : Word) :
      g.read ry core = some v → CallEnd ry w (.getter g core) (.value v) ry w

theorem RefreshCallEnd.result {ry : RyzenAccess} {w : World}
    {r : Option (Int × RyzenAccess) × World} (h : RefreshCallEnd ry w r) :
    ∃ code ry' w', r = (some (code, ry'), w') := by
  cases h with
  | notReady code ry' w' _ _ heq => exact ⟨code, ry', w', heq⟩
  | refreshed _ _ _ _ _ hend => exact hend.result

theorem call_end (depth : Nat) {ry : RyzenAccess} (h : BufferInv ry) (c : TableCall) (w : World) :
    ∃ a ry' w', c.exec (depth + 2) ry w = (some (a, ry'), w') ∧ CallEnd ry w c a ry' w' := by
  unfold TableCall.exec
  cases c with
  | initTable =>
    have hend := initTable_end (depth + 1) ry w
    obtain ⟨code, ry', w', heq⟩ := hend.result
    rw [heq] at hend
    refine ⟨_, _, _, ?_, .initTable code ry' w' hend⟩
    simp only [TableCall.prog, Prog.bind_eq, Prog.eval_bind, heq]
    rfl
  | refreshTable =>
    have hend := refreshTable_end depth h w
    obtain ⟨code, ry', w', heq⟩ := hend.result
    rw [heq] at hend
    refine ⟨_, _, _, ?_, .refreshTable code ry' w' hend⟩
    simp only [TableCall.prog, Prog.bind_eq, Prog.eval_bind, heq]
    rfl
  | getTableVer =>
    have hend := lazyInitTable_end (depth + 1) ry w
    obtain ⟨code, ry', w', heq⟩ := hend.result
    rw [heq] at hend
    refine ⟨_, _, _, ?_, .getTableVer code ry' w' hend⟩
    simp only [TableCall.prog, RyzenAdj.getTableVer, Prog.bind_eq, Prog.eval_bind, heq,
      Prog.andThen_some]
    split
    · rfl
    · rfl
  | getTableSize =>
    have hend := lazyInitTable_end (depth + 1) ry w
    obtain ⟨code, ry', w', heq⟩ := hend.result
    rw [heq] at hend
    refine ⟨_, _, _, ?_, .getTableSize code ry' w' hend⟩
    simp only [TableCall.prog, RyzenAdj.getTableSize, Prog.bind_eq, Prog.eval_bind, heq,
      Prog.andThen_some]
    split
    · rfl
    · rfl
  | getter g core =>
    obtain ⟨v, hv⟩ := h.read g core
    refine ⟨_, _, _, ?_, .getter g core v hv⟩
    simp only [TableCall.prog, hv]
    rfl

theorem BufferInv.call {ry ry' : RyzenAccess} {c : TableCall} {a : TableAnswer} {w w' : World}
    (h : BufferInv ry) (hcond : BufferCond ry w c) (hend : CallEnd ry w c a ry' w') :
    BufferInv ry' := by
  cases hend with
  | initTable code _ _ hinit => exact (h.init hcond hinit).1
  | refreshTable code _ _ hrefresh => exact h.refreshCall hrefresh
  | getTableVer code _ _ hlazy => exact (h.lazy hlazy).1
  | getTableSize code _ _ hlazy => exact (h.lazy hlazy).1
  | getter g core v hv => exact h

theorem Reached.bufferInv {depth : Nat} {ry : RyzenAccess} {copies : List (List Byte)}
    (h : Reached (depth + 2) BufferCond ry copies) : BufferInv ry := by
  induction h with
  | fresh obj mp1Smu psmu family => exact bufferInv_fresh obj mp1Smu psmu family
  | @call ry ry' c w w' a _ hcond hexec ih =>
    obtain ⟨a₁, ry₁, w₁, hexec₁, hend⟩ := call_end depth ih c w
    rw [hexec] at hexec₁
    cases hexec₁
    exact ih.call hcond hend

theorem Reached.mono {depth : Nat} {P Q : RyzenAccess → World → TableCall → Prop}
    (hpq : ∀ ry w c, P ry w c → Q ry w c) {ry : RyzenAccess} {copies : List (List Byte)}
    (h : Reached depth P ry copies) : Reached depth Q ry copies := by
  induction h with
  | fresh obj mp1Smu psmu family => exact .fresh obj mp1Smu psmu family
  | call _ hcond hexec ih => exact .call ih (hpq _ _ _ hcond) hexec

/-- The condition is exact: a re-initialisation that does not meet it leaves the old
buffer with a size it has no room for. -/
theorem init_outgrows {ry ry' : RyzenAccess} {w w' : World} {code : Int} (h : BufferInv ry)
    (hnot : ¬ InitFits ry w) (hend : InitEnd ry w (some (code, ry'), w')) :
    ∃ buf, ry'.tableValues = some buf ∧ buf.length < ry'.tableSize := by
  have hstopped : ∃ buf fam, ry.tableValues = some buf ∧ tableFamily ry.family = some fam ∧
      ¬ ReplacesBuffer fam w ∧ buf.length < tableSizeOf w.smu.head.2.arg0 := by
    by_contra hno
    apply hnot
    intro buf fam hbuf hfam hrep
    by_contra hnle
    exact hno ⟨buf, fam, hbuf, hfam, hrep, Nat.lt_of_not_le hnle⟩
  obtain ⟨buf, fam, hbuf, hfam, hrep, hlt⟩ := hstopped
  cases hend with
  | busy hbusy =>
    rw [h.idle] at hbusy
    cases hbusy
  | unsupported _ hnone =>
    rw [hfam] at hnone
    cases hnone
  | version _ _ _ _ _ _ => exact ⟨buf, hbuf, hlt⟩
  | addr _ _ _ _ _ _ _ => exact ⟨buf, hbuf, hlt⟩
  | mapping _ _ _ _ _ _ => exact ⟨buf, hbuf, hlt⟩
  | allocation fam' _ hfam' hver haddr hmap _ =>
    cases hfam.symm.trans hfam'
    exact absurd ⟨hver, haddr, hmap⟩ hrep
  | filled fam' _ _ _ _ hfam' hver haddr hmap _ _ =>
    cases hfam.symm.trans hfam'
    exact absurd ⟨hver, haddr, hmap⟩ hrep

/-- `table_size` never exceeds the buffer, and no call leaves it, in any sequence of
calls whose re-initialisations meet the condition. -/
theorem table_stays_in_buffer {depth : Nat} (hdepth : 2 ≤ depth) {ry : RyzenAccess}
    {copies : List (List Byte)} (h : Reached depth BufferCond ry copies) :
    (∀ buf, ry.tableValues = some buf →
      ry.tableSize ≤ buf.length ∧ 4 ∣ ry.tableSize ∧ ry.tableSize ≤ ryzenadjMaxTableSize) ∧
    ∀ c w, (TableCall.exec depth ry c w).1.isSome := by
  obtain ⟨n, rfl⟩ := Nat.exists_eq_add_of_le' hdepth
  have hinv := h.bufferInv
  constructor
  · intro buf hbuf
    have hp := hinv.accepted buf hbuf
    exact ⟨(hinv.refreshable buf hbuf).size_le, hp.1, hp.2⟩
  · intro c w
    obtain ⟨a, ry', w', hexec, _⟩ := call_end n hinv c w
    rw [hexec]
    rfl

/-- Every request is answered OK with `ver` as the first word, everything else works. -/
def answeringWorld (ver : Word) : World where
  smu := Stream'.const (repMsgOK, { Args.zero with arg0 := ver })
  mapped := Stream'.const true
  allocated := Stream'.const true
  compared := Stream'.const 0
  copied := Stream'.const fun size => ⟨List.replicate size 1, none, by simp, by simp⟩
  copies := []

def ravenHandle : RyzenAccess :=
  freshHandle (.mem ⟨0, 0⟩) ⟨.mem ⟨0, 0⟩, 0x3B10528, 0x3B10564, 0x3B10998⟩
    ⟨.mem ⟨0, 0⟩, 0x3B10A20, 0x3B10A80, 0x3B10A88⟩ .raven

/-- `ravenHandle` after one `init_table` that found table version `0x1E0001`. -/
def ravenInitialised : RyzenAccess :=
  { ravenHandle with
    tableAddr := 0x1E0001
    tableVer := 0x1E0001
    tableSize := 0x568
    tableValues := some (List.replicate 0x568 1) }

theorem ravenInitialised_reached : ∃ copies, Reached 2 BufferCond ravenInitialised copies := by
  have hexec : (TableCall.exec 2 ravenHandle .initTable (answeringWorld 0x1E0001)).1 =
      some (.code 0, ravenInitialised) := by decide +kernel
  have hfits : BufferCond ravenHandle (answeringWorld 0x1E0001) .initTable :=
    fun buf fam hbuf => (nomatch hbuf)
  generalize hr : TableCall.exec 2 ravenHandle .initTable (answeringWorld 0x1E0001) = r at hexec
  obtain ⟨x, w'⟩ := r
  cases hexec
  exact ⟨_, .call (.fresh _ _ _ _) hfits hr⟩

theorem table_stays_in_buffer_raven :
    (∀ buf, ravenInitialised.tableValues = some buf →
      ravenInitialised.tableSize ≤ buf.length ∧ 4 ∣ ravenInitialised.tableSize ∧
        ravenInitialised.tableSize ≤ ryzenadjMaxTableSize) ∧
    ∀ c w, (TableCall.exec 2 ravenInitialised c w).1.isSome :=
  table_stays_in_buffer (by decide) ravenInitialised_reached.choose_spec

def silentWorld : World :=
  { answeringWorld 0 with smu := Stream'.const (repMsgTimeout, Args.zero) }

/-- The second `init_table` gets no answer to its version request: the version is
now 0, the size the fallback for unknown versions, the buffer still the old one. -/
theorem silent_reinit_outgrows_buffer :
    ∃ ry copies buf, Reached 2 (fun _ _ _ => True) ry copies ∧ ry.tableValues = some buf ∧
      ¬ ry.tableSize ≤ buf.length := by
  obtain ⟨copies, hreached⟩ := ravenInitialised_reached
  obtain ⟨a, ry, w, hexec, hend⟩ :=
    call_end 0 hreached.bufferInv .initTable { silentWorld with copies := copies }
  have hnot : ¬ InitFits ravenInitialised { silentWorld with copies := copies } := by
    intro hfits
    have hrep : ¬ ReplacesBuffer .ravenGroup { silentWorld with copies := copies } :=
      fun hrep => absurd hrep.1.1 (show ¬ repMsgTimeout = repMsgOK by decide)
    have hle := hfits (List.replicate 0x568 1) .ravenGroup rfl rfl hrep
    rw [List.length_replicate] at hle
    exact absurd hle (show ¬ tableSizeOf 0 ≤ 0x568 by decide)
  cases hend with
  | initTable code _ _ hinit =>
    obtain ⟨buf, hbuf, hlt⟩ := init_outgrows hreached.bufferInv hnot hinit
    exact ⟨ry, w.copies, buf, .call (hreached.mono fun _ _ _ _ => trivial) trivial hexec, hbuf,
      Nat.not_le_of_lt hlt⟩

/-- The four fields of the table agree. -/
def TableUnchanged (ry ry' : RyzenAccess) : Prop :=
  ry'.tableVer = ry.tableVer ∧ ry'.tableSize = ry.tableSize ∧ ry'.tableAddr = ry.tableAddr ∧
    ry'.tableValues = ry.tableValues

/-- The fields are those this call of `init_table` was answered, and the buffer is
gone or a new one of that size. -/
def TableReplaced (ry ry' : RyzenAccess) (fam : TableFamily) (w : World) : Prop :=
  ry'.tableVer = w.smu.head.2.arg0 ∧ ry'.tableSize = initSize ry w.smu ∧
    ry'.tableAddr = tableAddrOf fam w.smu.tail.head.2 ∧
    ∀ buf, ry'.tableValues = some buf → buf.length = ry'.tableSize

theorem not_busy_or_unsupported {ry : RyzenAccess} {fam : TableFamily}
    (hidle : ry.tableInitBusy = false) (hfam : tableFamily ry.family = some fam) :
    ¬ (ry.tableInitBusy = true ∨ tableFamily ry.family = none) := by
  rw [hidle, hfam]
  simp

/-- What a failing `init_table` leaves: everything, where it made no request; the old
buffer, where it stopped before replacing it; else the table of this call. -/
theorem failed_reinit_keeps_or_replaces {depth : Nat} (hdepth : 1 ≤ depth)
    {ry ry' : RyzenAccess} {w w' : World} {code : Int}
    (hcall : (initTable depth ry).eval (World.answer ry.osAccess.isKmod) w =
      (some (code, ry'), w')) (hcode : code ≠ 0) :
    (ry.tableInitBusy = true ∨ tableFamily ry.family = none → TableUnchanged ry ry') ∧
    ∀ fam, ry.tableInitBusy = false → tableFamily ry.family = some fam →
      (¬ ReplacesBuffer fam w → ry'.tableValues = ry.tableValues) ∧
      (ReplacesBuffer fam w → TableReplaced ry ry' fam w) := by
  obtain ⟨n, rfl⟩ := Nat.exists_eq_add_of_le' hdepth
  have hend := initTable_end n ry w
  rw [hcall] at hend
  cases hend with
  | busy hbusy =>
    refine ⟨fun _ => ⟨rfl, rfl, rfl, rfl⟩, fun fam hidle _ => ?_⟩
    rw [hidle] at hbusy
    cases hbusy
  | unsupported _ hnone =>
    refine ⟨fun _ => ⟨rfl, rfl, rfl, rfl⟩, fun fam _ hfam => ?_⟩
    rw [hfam] at hnone
    cases hnone
  | version fam _ hidle hfam hver _ =>
    refine ⟨fun hnone => absurd hnone (not_busy_or_unsupported hidle hfam), fun fam' _ hfam' => ?_⟩
    exact ⟨fun _ => rfl, fun hrep => absurd hrep.1 hver⟩
  | addr fam _ hidle hfam _ haddr _ =>
    refine ⟨fun hnone => absurd hnone (not_busy_or_unsupported hidle hfam), fun fam' _ hfam' => ?_⟩
    cases hfam.symm.trans hfam'
    exact ⟨fun _ => rfl, fun hrep => absurd hrep.2.1 haddr⟩
  | mapping fam hidle hfam _ _ hmap =>
    refine ⟨fun hnone => absurd hnone (not_busy_or_unsupported hidle hfam), fun fam' _ hfam' => ?_⟩
    refine ⟨fun _ => rfl, fun hrep => ?_⟩
    have hmapped := hrep.2.2
    rw [hmap] at hmapped
    cases hmapped
  | allocation fam hidle hfam hver haddr hmap _ =>
    refine ⟨fun hnone => absurd hnone (not_busy_or_unsupported hidle hfam), fun fam' _ hfam' => ?_⟩
    cases hfam.symm.trans hfam'
    refine ⟨fun hrep => absurd ⟨hver, haddr, hmap⟩ hrep, fun _ => ⟨rfl, rfl, rfl, ?_⟩⟩
    intro buf hbuf
    cases hbuf
  | filled fam _ ry₁ _ hidle hfam hver haddr hmap _ hfill =>
    refine ⟨fun hnone => absurd hnone (not_busy_or_unsupported hidle hfam), fun fam' _ hfam' => ?_⟩
    cases hfam.symm.trans hfam'
    obtain ⟨buf, hlen, heq⟩ := hfill.init
    rw [heq]
    refine ⟨fun hrep => absurd ⟨hver, haddr, hmap⟩ hrep, fun _ => ⟨rfl, rfl, rfl, ?_⟩⟩
    intro buf' hbuf'
    cases hbuf'
    exact hlen

/-- Version and address are answered, every further request is rejected. -/
def rejectingWorld (ver : Word) : World :=
  { answeringWorld ver with
    smu := .cons (repMsgOK, { Args.zero with arg0 := ver })
      (.cons (repMsgOK, { Args.zero with arg0 := ver })
        (Stream'.const (repMsgCmdRejectedBusy, Args.zero))) }

theorem failed_reinit_keeps_or_replaces_raven :
    ∃ ry' w', (initTable 1 ravenInitialised).eval (World.answer false) (rejectingWorld 0x1E0002) =
      (some (adjErrSmuRejected, ry'), w') ∧
      TableReplaced ravenInitialised ry' .ravenGroup (rejectingWorld 0x1E0002) := by
  have hend := initTable_end 0 ravenInitialised (rejectingWorld 0x1E0002)
  obtain ⟨code, ry', w', heq⟩ := hend.result
  have hcode : ((initTable 1 ravenInitialised).eval (World.answer false)
      (rejectingWorld 0x1E0002)).1.map Prod.fst = some adjErrSmuRejected := by decide +kernel
  have hrep : ReplacesBuffer .ravenGroup (rejectingWorld 0x1E0002) :=
    ⟨⟨rfl, show ¬ (0x1E0002 : Word) = 0 by decide⟩, ⟨rfl, by decide⟩, rfl⟩
  have hcode' : code = adjErrSmuRejected := by
    have hfst := congrArg (fun r => r.1.map Prod.fst) heq
    exact Option.some.inj (hfst.symm.trans hcode)
  have hne : code ≠ 0 := by
    rw [hcode']
    decide
  have hkeep := failed_reinit_keeps_or_replaces (Nat.le_refl 1) heq hne
  rw [hcode'] at heq
  exact ⟨ry', w', heq, (hkeep.2 .ravenGroup rfl rfl).2 hrep⟩

/-- A re-initialisation whose transfer is rejected loses the old table. -/
theorem rejected_reinit_loses_table :
    ∃ ry' w', (initTable 1 ravenInitialised).eval (World.answer false) (rejectingWorld 0x1E0001) =
      (some (adjErrSmuRejected, ry'), w') ∧ adjErrSmuRejected ≠ 0 ∧
      ¬ TableUnchanged ravenInitialised ry' := by
  have hend := initTable_end 0 ravenInitialised (rejectingWorld 0x1E0001)
  obtain ⟨code, ry', w', heq⟩ := hend.result
  have hresult : ((initTable 1 ravenInitialised).eval (World.answer false)
      (rejectingWorld 0x1E0001)).1.map (fun r => (r.1, r.2.tableValues)) =
        some (adjErrSmuRejected, some (List.replicate 0x568 0)) := by decide +kernel
  have hpair : (code, ry'.tableValues) = (adjErrSmuRejected, some (List.replicate 0x568 0)) := by
    have hmap := congrArg (fun r => r.1.map fun r => (r.1, r.2.tableValues)) heq
    exact Option.some.inj (hmap.symm.trans hresult)
  obtain ⟨hcode, hvalues⟩ := Prod.mk.inj hpair
  rw [hcode] at heq
  refine ⟨ry', w', heq, by decide, ?_⟩
  intro hsame
  have hzeros : some (List.replicate 0x568 0) = some (List.replicate 0x568 (1 : Byte)) :=
    hvalues.symm.trans hsame.2.2.2
  exact absurd hzeros (by decide +kernel)

end RyzenAdj
