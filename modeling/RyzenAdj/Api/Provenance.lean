import Mathlib.Data.Stream.Init
import RyzenAdj.Api.TableCalls

/-!
# Where the values of the getters come from

The cells of a buffer are followed back to the completed copies of the table.
There is no flag for a filled buffer, so what is shown depends on how the first
fill and every failing copy ended.
-/

namespace RyzenAdj
open Interaction Api

/-- Every cell of the buffer is that of a copy. -/
def FromCopies (copies : List (List Byte)) (buf : List Byte) : Prop :=
  ∀ i v, cellAt buf i = some v → ∃ t ∈ copies, cellAt t i = some v

theorem fromCopies_self (t : List Byte) (copies : List (List Byte)) : FromCopies (t :: copies) t :=
  fun _ _ hcell => ⟨t, List.mem_cons_self .., hcell⟩

theorem FromCopies.cons {copies : List (List Byte)} {buf : List Byte} (h : FromCopies copies buf)
    (t : List Byte) : FromCopies (t :: copies) buf := by
  intro i v hcell
  obtain ⟨t', hmem, hcell'⟩ := h i v hcell
  exact ⟨t', List.mem_cons_of_mem _ hmem, hcell'⟩

theorem cellAt_append_left {data rest : List Byte} {i : Nat} (h : 4 * i + 4 ≤ data.length) :
    cellAt (data ++ rest) i = cellAt data i := by
  obtain ⟨v, hv⟩ := exists_cellAt h
  rw [hv]
  unfold cellAt at hv ⊢
  rw [List.drop_append_of_le_length (by omega)]
  split at hv
  next a b c d tail hdrop =>
    rw [hdrop]
    exact hv
  next => cases hv

theorem cellAt_overwrite_right {buf data : List Byte} {i : Nat} (h : data.length ≤ 4 * i) :
    cellAt (overwrite buf data) i = cellAt buf i := by
  have hdrop : (overwrite buf data).drop (4 * i) = buf.drop (4 * i) := by
    unfold overwrite
    rw [List.drop_append, List.drop_eq_nil_of_le h, List.nil_append, List.drop_drop]
    congr 1
    omega
  unfold cellAt
  rw [hdrop]

theorem FromCopies.overwrite {copies : List (List Byte)} {buf data : List Byte}
    (h : FromCopies copies buf) (hcells : 4 ∣ data.length) :
    FromCopies (data :: copies) (overwrite buf data) := by
  intro i v hcell
  by_cases hle : data.length ≤ 4 * i
  · rw [cellAt_overwrite_right hle] at hcell
    exact h.cons data i v hcell
  · have hin : 4 * i + 4 ≤ data.length := by omega
    unfold RyzenAdj.overwrite at hcell
    rw [cellAt_append_left hin] at hcell
    exact ⟨data, List.mem_cons_self .., hcell⟩

/-- A copy that fails has not changed the buffer. -/
def Intact {size : Nat} (t : Transfer size) (buf : List Byte) : Prop :=
  t.error.isSome → overwrite buf t.data = buf

/-- An `init_table` that gets its buffer completes the first copy into it; of the next
`more` copies of the call, one that fails leaves what the copy before it stored. -/
def InitFills (more : Nat) (ry : RyzenAccess) (w : World) : Prop :=
  ∀ fam, tableFamily ry.family = some fam → ReplacesBuffer fam w → w.allocated.head = true →
    (ry.osAccess.isKmod = true ∨ TransferAnswered w.smu.tail.tail) ∧
    (w.copied.head (initSize ry w.smu)).error = none ∧
    ∀ k < more, Intact (w.copied.get (k + 1) (initSize ry w.smu))
      (w.copied.get k (initSize ry w.smu)).data

def FillCond (ry : RyzenAccess) (w : World) : TableCall → Prop
  | .initTable => InitFits ry w ∧ InitFills 1 ry w
  | .refreshTable =>
    match ry.tableValues with
    | none => InitFills 2 ry w
    | some buf => Intact (w.copied.head ry.tableSize) buf
  | .getTableVer | .getTableSize => ry.tableValues = none → InitFills 1 ry w
  | .getter _ _ => True

theorem FillCond.buffer {ry : RyzenAccess} {w : World} {c : TableCall} (h : FillCond ry w c) :
    BufferCond ry w c := by
  cases c with
  | initTable => exact h.1
  | _ => trivial

/-- The buffer of a handle holds nothing but copied cells. -/
def Provenance (ry : RyzenAccess) (copies : List (List Byte)) : Prop :=
  ∀ buf, ry.tableValues = some buf → FromCopies copies buf

theorem RefreshEnd.provenance {driver : Bool} {ry ry' : RyzenAccess} {buf : List Byte}
    {w w' : World} {code : Int} (h : RefreshEnd driver ry buf w (some (code, ry'), w'))
    (hbuf : ry.tableValues = some buf) (hcells : 4 ∣ ry.tableSize)
    (hintact : Intact (w.copied.head ry.tableSize) buf) (hfrom : FromCopies w.copies buf) :
    Provenance ry' w'.copies := by
  intro buf' hbuf'
  cases h with
  | rejected _ _ _ _ _ _ =>
    rw [hbuf] at hbuf'
    cases hbuf'
    exact hfrom
  | failed _ _ hfail =>
    cases hbuf'
    rw [hintact hfail]
    exact hfrom
  | done _ _ hfull =>
    cases hbuf'
    have hlen := (w.copied.head ry.tableSize).full hfull
    exact hfrom.overwrite (by rw [hlen]; exact hcells)

/-- The copies of an `init_table` that filled its buffer: `k + 1` were made. -/
structure FilledBy (size : Nat) (w : World) (buf : List Byte) (w' : World) (k : Nat) : Prop where
  small : k < 2
  consumed : w'.copied = w.copied.drop (k + 1)
  data : buf = (w.copied.get k size).data

/-- A refresh that gets its transfer and its copy overwrites the whole new buffer. -/
theorem RefreshEnd.filled {driver : Bool} {ry ry' : RyzenAccess} {buf : List Byte}
    {w w' : World} {code : Int} (h : RefreshEnd driver ry buf w (some (code, ry'), w'))
    (hsize : ry.tableSize = buf.length) (hfam : (tableFamily ry.family).isSome)
    (hfirst : driver = true ∨ TransferAnswered w.smu)
    (hcopy : (w.copied.head ry.tableSize).error = none) :
    ry' = { ry with tableValues := some (w.copied.head ry.tableSize).data } ∧
      w'.copied = w.copied.tail ∧ w'.copies = (w.copied.head ry.tableSize).data :: w.copies := by
  cases h with
  | rejected _ _ _ hdriver hnot _ =>
    cases hfirst with
    | inl htrue =>
      rw [hdriver] at htrue
      cases htrue
    | inr hanswered => exact absurd ⟨hfam, hanswered⟩ hnot
  | failed _ _ hfail =>
    rw [hcopy] at hfail
    cases hfail
  | done _ _ hfull =>
    have hlen := (w.copied.head ry.tableSize).full hfull
    rw [overwrite_full (by rw [hlen, hsize])]
    exact ⟨rfl, rfl, rfl⟩

theorem FillEnd.provenance {driver : Bool} {ry ry' : RyzenAccess} {buf : List Byte}
    {w w' : World} {code : Int} (h : FillEnd driver ry buf w (some (code, ry'), w'))
    (hsize : ry.tableSize = buf.length) (hcells : 4 ∣ ry.tableSize)
    (hfam : (tableFamily ry.family).isSome)
    (hfirst : driver = true ∨ TransferAnswered w.smu)
    (hcopy : (w.copied.head ry.tableSize).error = none)
    (hnext : Intact (w.copied.get 1 ry.tableSize) (w.copied.get 0 ry.tableSize).data) :
    Provenance ry' w'.copies ∧
      (code = 0 → ∃ buf' k, ry'.tableValues = some buf' ∧ FilledBy ry.tableSize w buf' w' k) := by
  cases h with
  | once h =>
    obtain ⟨hry, hcopied, hcopies⟩ := h.filled hsize hfam hfirst hcopy
    constructor
    · intro b hb
      rw [hry] at hb
      cases hb
      rw [hcopies]
      exact fromCopies_self _ _
    · intro _
      exact ⟨_, 0, by rw [hry], by decide, hcopied, rfl⟩
  | twice ry₁ buf₁ w₁ h₁ hbuf₁ h₂ =>
    obtain ⟨hry, hcopied, hcopies⟩ := h₁.filled hsize hfam hfirst hcopy
    subst hry
    cases hbuf₁
    have hhead : w₁.copied.head = w.copied.get 1 := by rw [hcopied]; rfl
    have hfrom : FromCopies w₁.copies (w.copied.head ry.tableSize).data := by
      rw [hcopies]
      exact fromCopies_self _ _
    have hintact : Intact (w₁.copied.head ry.tableSize) (w.copied.head ry.tableSize).data := by
      rw [hhead]
      exact hnext
    refine ⟨h₂.provenance rfl hcells hintact hfrom, ?_⟩
    intro hcode
    cases h₂ with
    | rejected _ _ _ _ _ hne => exact absurd hcode hne
    | failed _ _ _ => exact absurd hcode (by decide)
    | done smu compared hfull =>
      have hlen₁ := (w.copied.head ry.tableSize).full hcopy
      have hlen₂ := (w₁.copied.head ry.tableSize).full hfull
      have hwhole : overwrite (w.copied.head ry.tableSize).data (w₁.copied.head ry.tableSize).data =
          (w₁.copied.head ry.tableSize).data := overwrite_full (hlen₂.trans hlen₁.symm)
      refine ⟨_, 1, rfl, by decide, by rw [hcopied]; rfl, ?_⟩
      rw [hhead] at hwhole ⊢
      exact hwhole

theorem InitEnd.provenance {ry ry' : RyzenAccess} {w w' : World} {code : Int}
    (h : InitEnd ry w (some (code, ry'), w')) (more : Nat) (hfills : InitFills (more + 1) ry w)
    (hfrom : Provenance ry w.copies) :
    Provenance ry' w'.copies ∧
      (code = 0 → ∃ buf k, ry'.tableValues = some buf ∧ ry'.tableSize = initSize ry w.smu ∧
        FilledBy (initSize ry w.smu) w buf w' k) := by
  cases h with
  | busy _ => exact ⟨hfrom, fun hc => absurd hc (by decide)⟩
  | unsupported _ _ => exact ⟨hfrom, fun hc => absurd hc (by decide)⟩
  | version _ _ _ _ _ hcode => exact ⟨hfrom, fun hc => absurd hc hcode⟩
  | addr _ _ _ _ _ _ hcode => exact ⟨hfrom, fun hc => absurd hc hcode⟩
  | mapping _ _ _ _ _ _ => exact ⟨hfrom, fun hc => absurd hc (by decide)⟩
  | allocation _ _ _ _ _ _ _ =>
    refine ⟨?_, fun hc => absurd hc (by decide)⟩
    intro buf hbuf
    cases hbuf
  | filled fam _ ry₁ _ hidle hfam hver haddr hmap halloc hfill =>
    have hsize := preferredSize_accepted ry.osAccess w.smu.head.2.arg0
    have hsupported : (tableFamily ry.family).isSome := by rw [hfam]; rfl
    obtain ⟨hfirst, hcopy, hnext⟩ := hfills fam hfam ⟨hver, haddr, hmap⟩ halloc
    have hend := hfill.provenance List.length_replicate.symm
      (Nat.dvd_of_mod_eq_zero hsize.2.1) hsupported
      hfirst hcopy (hnext 0 (Nat.succ_pos _))
    obtain ⟨buf, _, heq⟩ := hfill.init
    refine ⟨hend.1, fun hcode => ?_⟩
    obtain ⟨buf', k, hbuf', hfilled⟩ := hend.2 hcode
    exact ⟨buf', k, hbuf', by rw [heq]; rfl, hfilled.small, hfilled.consumed, hfilled.data⟩

theorem InitEnd.family {ry ry' : RyzenAccess} {w w' : World} {code : Int}
    (hend : InitEnd ry w (some (code, ry'), w')) (hcode : code = 0) :
    ∃ fam, tableFamily ry.family = some fam ∧ ReplacesBuffer fam w ∧ w.allocated.head = true := by
  cases hend with
  | busy _ => exact absurd hcode (by decide)
  | unsupported _ _ => exact absurd hcode (by decide)
  | version _ _ _ _ _ hne => exact absurd hcode hne
  | addr _ _ _ _ _ _ hne => exact absurd hcode hne
  | mapping _ _ _ _ _ _ => exact absurd hcode (by decide)
  | allocation _ _ _ _ _ _ _ => exact absurd hcode (by decide)
  | filled fam _ _ _ _ hfam hver haddr hmap halloc _ =>
    exact ⟨fam, hfam, ⟨hver, haddr, hmap⟩, halloc⟩

theorem LazyEnd.provenance {ry ry' : RyzenAccess} {w w' : World} {code : Int}
    (h : LazyEnd ry w (some (code, ry'), w'))
    (hfills : ry.tableValues = none → InitFills 1 ry w) (hfrom : Provenance ry w.copies) :
    Provenance ry' w'.copies := by
  cases h with
  | ready _ heq =>
    cases heq
    exact hfrom
  | init hnone hinit => exact (hinit.provenance 0 (hfills hnone) hfrom).1

theorem InitFills.mono {n m : Nat} {ry : RyzenAccess} {w : World} (h : InitFills n ry w)
    (hle : m ≤ n) : InitFills m ry w := by
  intro fam hfam hrep halloc
  obtain ⟨hfirst, hcopy, hnext⟩ := h fam hfam hrep halloc
  exact ⟨hfirst, hcopy, fun k hk => hnext k (Nat.lt_of_lt_of_le hk hle)⟩

theorem RefreshCallEnd.provenance {ry ry' : RyzenAccess} {w w' : World} {code : Int}
    (h : RefreshCallEnd ry w (some (code, ry'), w')) (hinv : BufferInv ry)
    (hcond : FillCond ry w .refreshTable) (hfrom : Provenance ry w.copies) :
    Provenance ry' w'.copies := by
  cases h with
  | notReady code' ry₁ w₁ hne hlazy heq =>
    cases heq
    refine hlazy.provenance (fun hnone => ?_) hfrom
    simp only [FillCond, hnone] at hcond
    exact hcond.mono (by decide)
  | refreshed ry₁ buf w₁ hlazy hbuf hend =>
    have hinv₁ := (hinv.lazy hlazy).1
    have hcells := (hinv₁.accepted buf hbuf).1
    cases hlazy with
    | ready hsome heq =>
      cases heq
      simp only [FillCond, hbuf] at hcond
      exact hend.provenance hbuf hcells hcond (hfrom buf hbuf)
    | init hnone hinit =>
      simp only [FillCond, hnone] at hcond
      obtain ⟨hfrom₁, hfilled⟩ := hinit.provenance 1 hcond hfrom
      obtain ⟨buf', k, hbuf', hsize, hk⟩ := hfilled rfl
      cases hbuf'.symm.trans hbuf
      obtain ⟨fam, hfam, hrep, halloc⟩ := hinit.family rfl
      have hnext := (hcond fam hfam hrep halloc).2.2 k hk.small
      have hhead : w₁.copied.head = w.copied.get (k + 1) := by
        rw [hk.consumed, Stream'.head_drop]
      have hintact : Intact (w₁.copied.head ry₁.tableSize) buf := by
        rw [hhead, hsize, hk.data]
        exact hnext
      exact hend.provenance hbuf hcells hintact (hfrom₁ buf hbuf)

theorem CallEnd.provenance {ry ry' : RyzenAccess} {c : TableCall} {a : TableAnswer} {w w' : World}
    (h : CallEnd ry w c a ry' w') (hinv : BufferInv ry) (hcond : FillCond ry w c)
    (hfrom : Provenance ry w.copies) : Provenance ry' w'.copies := by
  cases h with
  | initTable code _ _ hinit => exact (hinit.provenance 0 hcond.2 hfrom).1
  | refreshTable code _ _ hrefresh => exact hrefresh.provenance hinv hcond hfrom
  | getTableVer code _ _ hlazy => exact hlazy.provenance hcond hfrom
  | getTableSize code _ _ hlazy => exact hlazy.provenance hcond hfrom
  | getter g core v hv => exact hfrom

theorem Reached.provenance {depth : Nat} {ry : RyzenAccess} {copies : List (List Byte)}
    (h : Reached (depth + 2) FillCond ry copies) : Provenance ry copies := by
  induction h with
  | fresh obj mp1Smu psmu family =>
    intro buf hbuf
    cases hbuf
  | @call ry ry' c w w' a hreached hcond hexec ih =>
    have hinv := (hreached.mono fun _ _ _ => FillCond.buffer).bufferInv
    obtain ⟨a₁, ry₁, w₁, hexec₁, hend⟩ := call_end depth hinv c w
    rw [hexec] at hexec₁
    cases hexec₁
    exact hend.provenance hinv hcond ih

/-- A value a getter returns, other than NAN, is its cell in a copy that was completed
into the present buffer. -/
theorem getter_value_copied {depth : Nat} (hdepth : 2 ≤ depth) {ry ry' : RyzenAccess}
    {copies : List (List Byte)} (h : Reached depth FillCond ry copies) {g : Getter}
    {core v : Word} {w w' : World}
    (hget : TableCall.exec depth ry (.getter g core) w = (some (.value v, ry'), w'))
    (hv : v ≠ nan) :
    ∃ t ∈ copies, ∃ off, g.offset ry.tableVer core = some off ∧ cellAt t (off / 4) = some v := by
  obtain ⟨n, rfl⟩ := Nat.exists_eq_add_of_le' hdepth
  have hfrom := h.provenance
  have hread : g.read ry core = some v := by
    unfold TableCall.exec at hget
    simp only [TableCall.prog] at hget
    cases hr : g.read ry core with
    | none =>
      rw [hr] at hget
      cases hget
    | some v' =>
      rw [hr] at hget
      cases hget
      rfl
  unfold Getter.read readFloatValue at hread
  cases hoff : g.offset ry.tableVer core with
  | none =>
    rw [hoff] at hread
    exact absurd (Option.some.inj hread).symm hv
  | some off =>
    rw [hoff] at hread
    cases hbuf : ry.tableValues with
    | none =>
      simp only [hbuf] at hread
      exact absurd (Option.some.inj hread).symm hv
    | some buf =>
      simp only [hbuf] at hread
      split at hread
      next => exact absurd (Option.some.inj hread).symm hv
      next =>
        obtain ⟨t, hmem, hcell⟩ := hfrom buf hbuf (off / 4) v hread
        exact ⟨t, hmem, off, rfl, hcell⟩

theorem ravenInitialised_filled : ∃ copies, Reached 2 FillCond ravenInitialised copies := by
  have hexec : (TableCall.exec 2 ravenHandle .initTable (answeringWorld 0x1E0001)).1 =
      some (.code 0, ravenInitialised) := by decide +kernel
  have hcond : FillCond ravenHandle (answeringWorld 0x1E0001) .initTable := by
    refine ⟨fun buf fam hbuf => (nomatch hbuf), fun fam _ _ _ => ⟨.inr (.inl rfl), rfl, ?_⟩⟩
    intro k _ herror
    cases herror
  generalize hr : TableCall.exec 2 ravenHandle .initTable (answeringWorld 0x1E0001) = r at hexec
  obtain ⟨x, w'⟩ := r
  cases hexec
  exact ⟨_, .call (.fresh _ _ _ _) hcond hr⟩

/-- A limit read from the handle after its first `init_table`. -/
theorem getter_value_copied_raven : ∃ copies, Reached 2 FillCond ravenInitialised copies ∧
    TableCall.exec 2 ravenInitialised (.getter getStapmLimit 0) (answeringWorld 0) =
      (some (.value 0x01010101, ravenInitialised), answeringWorld 0) ∧
    ∃ t ∈ copies, ∃ off, getStapmLimit.offset ravenInitialised.tableVer 0 = some off ∧
      cellAt t (off / 4) = some 0x01010101 := by
  obtain ⟨copies, hreached⟩ := ravenInitialised_filled
  have hget : TableCall.exec 2 ravenInitialised (.getter getStapmLimit 0) (answeringWorld 0) =
      (some (.value 0x01010101, ravenInitialised), answeringWorld 0) := rfl
  exact ⟨copies, hreached, hget, getter_value_copied (by decide) hreached hget (by decide)⟩

/-- The first transfer is rejected: the buffer stays as `calloc` left it, and the
getters report its zeros. -/
theorem rejected_fill_reports_zero :
    ∃ ry copies w w', Reached 2 (fun _ _ _ => True) ry copies ∧
      TableCall.exec 2 ry (.getter getStapmLimit 0) w = (some (.value 0, ry), w') ∧
      (0 : Word) ≠ nan ∧
      ¬ ∃ t ∈ copies, ∃ off, getStapmLimit.offset ry.tableVer 0 = some off ∧
        cellAt t (off / 4) = some 0 := by
  have hresult : (TableCall.exec 2 ravenHandle .initTable (rejectingWorld 0x1E0001)).1 =
      some (.code adjErrSmuRejected,
        { ravenInitialised with tableValues := some (List.replicate 0x568 0) }) := by
    decide +kernel
  have hcopies : (TableCall.exec 2 ravenHandle .initTable (rejectingWorld 0x1E0001)).2.copies =
      [] := by decide +kernel
  generalize hr : TableCall.exec 2 ravenHandle .initTable (rejectingWorld 0x1E0001) = r
    at hresult hcopies
  obtain ⟨x, w'⟩ := r
  cases hresult
  refine ⟨_, _, answeringWorld 0, _, .call (.fresh _ _ _ _) trivial hr, rfl, by decide, ?_⟩
  rintro ⟨t, hmem, _⟩
  rw [show w'.copies = [] from hcopies] at hmem
  cases hmem

end RyzenAdj
