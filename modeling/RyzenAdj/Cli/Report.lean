import RyzenAdj.Api.Copies
import RyzenAdj.Cli.ToolRun

/-!
# What a run of the tool shows

The lines that `main` prints about its handle and the copies of the table that
it makes, in one order. The rows of a table that it prints are the cells of the
buffer as the copies have left it: of the copy that `init_table` ended with, and
where there was a refresh after that, of the buffer as the refresh has left it,
which is torn where the copy failed; a quantity that the table does not have is
shown as NAN.
-/

namespace RyzenAdj
open Interaction Libc Tool

inductive Seen where
  | copy (c : Copy)
  | line (l : Line)
  deriving DecidableEq

def onScreen : (o : tool.Op) → tool.Ret o → List Seen
  | .inl o, r => (copied o r).map .copy
  | .inr (.print l), _ => [.line l]
  | .inr (.malloc _), _ => []

structure PmTable where
  ver : Word
  values : List Byte

def cellOf (values : List Byte) (i : Nat) : Word := (cellAt values i).getD 0

/-- The rows of `show_table_dump`, from `index` on. -/
def dumpRows (data values : List Byte) (index count : Nat) : List Line :=
  (List.range' index count).map fun i => .dumpRow (i * 4) (cellOf data i) (cellOf values i)

def adjustRows (data old values : List Byte) (index count : Nat) : List Line :=
  (List.range' index count).map fun i =>
    .adjustRow (i * 4) (cellOf data i) (cellOf old i) (cellOf values i)

namespace PmTable

def dump (t : PmTable) : List Line := dumpRows t.values t.values 0 (t.values.length / 4)

/-- The whole table, with the content that it has after the adjustments. -/
def dumpWith (t : PmTable) (adjusted : List Byte) : List Line :=
  adjustRows t.values t.values adjusted 0 (t.values.length / 4)

/-- What a getter reads of a table. -/
def value (t : PmTable) (g : Getter) : Word :=
  match g.offset t.ver 0 with
  | none => nan
  | some off => if t.values.length < off + 4 then nan else cellOf t.values (off / 4)

def infoRow (t : PmTable) (row : String × Getter × String) : Line :=
  .infoRow row.1 (t.value row.2.1) row.2.2

def info (t : PmTable) : List Line := infoRows.map t.infoRow

end PmTable

def refreshNotice (code : Int) : List Line := if code ≠ 0 then [.unableToRefresh code] else []

/-- What a call of `main` shows, on a processor of this family, where the tool has the table `t`
or none; and the table that it has afterwards. -/
inductive Reported (family : RyzenFamily) :
    Option PmTable → CliEvent → List Seen → Option PmTable → Prop where
  | noHandle {t : Option PmTable} :
      Reported family t (.initRyzenadj false) [.line .unableToInit] none
  | handle {t : Option PmTable} : Reported family t (.initRyzenadj true) [] none
  | showInfoHeader {t : Option PmTable} (ver : Word) : Reported family t .showInfoHeader
      [.line (.cpuFamily (familyName family)), .line (.biosIfVer ver), .line .version] t
  | noTable {t : Option PmTable} {code : Int} {copies : List Copy} : FillFailed code copies →
      Reported family t (.initTable code)
        (copies.map .copy ++ [.line (.unableToInitTable code)]) none
  | table {t : Option PmTable} {copies : List Copy} {values : List Byte} (ver : Word) :
      BufferFilled copies values →
      Reported family t (.initTable 0) (copies.map .copy) (some ⟨ver, values⟩)
  | adjusted {t : Option PmTable} (c : SetCall) :
      Reported family t (.set c 0) [.line (.adjusted c)] t
  | notAdjusted {t : Option PmTable} (c : SetCall) {adjerr : Int} : adjerr ≠ 0 →
      Reported family t (.set c adjerr) [.line (.notAdjusted c adjerr)] t
  | outOfMemory {t : PmTable} (anyAdjustApplied : Bool) :
      Reported family (some t) (.showTableDump anyAdjustApplied)
        [.line (.dumpVersion t.ver), .line .outOfMemory] (some t)
  | dump {t : PmTable} : Reported family (some t) (.showTableDump false)
      ((.dumpVersion t.ver :: .dumpHead :: t.dump).map .line) (some t)
  | dumpAdjusted {t : PmTable} {code : Int} {copies : List Copy} {values : List Byte} :
      BufferRefreshed t.values code copies values →
      Reported family (some t) (.showTableDump true)
        (.line (.dumpVersion t.ver) :: (copies.map .copy ++
          (refreshNotice code ++ .adjustHead :: t.dumpWith values).map .line))
        (some ⟨t.ver, values⟩)
  | info {t : PmTable} {copies : List Copy} {values : List Byte} :
      BufferRefreshed t.values 0 copies values →
      Reported family (some t) .showInfoTable
        (.line (.tableVersion t.ver) :: (copies.map .copy ++
          (.infoHead :: (PmTable.mk t.ver values).info).map .line)) (some ⟨t.ver, values⟩)
  | noInfo {t : PmTable} {code : Int} {copies : List Copy} {values : List Byte} : code ≠ 0 →
      BufferRefreshed t.values code copies values →
      Reported family (some t) .showInfoTable
        (.line (.tableVersion t.ver) :: (copies.map .copy ++ [.line (.unableToRefresh code)]))
        (some ⟨t.ver, values⟩)
  | cleanupRyzenadj {t : Option PmTable} : Reported family t .cleanupRyzenadj [] t

/-- What a sequence of calls shows, from the start of the tool on. -/
inductive Screen (family : RyzenFamily) : List CliEvent → List Seen → Option PmTable → Prop where
  | start : Screen family [] [] none
  | call {calls : List CliEvent} {w v : List Seen} {t t' : Option PmTable} {e : CliEvent} :
      Screen family calls w t → Reported family t e v t' →
      Screen family (calls ++ [e]) (w ++ v) t'

def toolAnswers (family : RyzenFamily) : (o : tool.Op) → tool.Ret o → Prop
  | .inl o, r => o.OfFamily family r
  | .inr _, _ => True

abbrev Displays (family : RyzenFamily) {α : Type} (p : Prog tool α) (L : α → Language Seen) :
    Prop :=
  Prog.Says (toolAnswers family) onScreen p L

section Rules
variable {family : RyzenFamily} {α β : Type} {L : α → Language Seen}

theorem displays_print {l : Line} {f : Unit → Prog tool α}
    (h : Displays family (f ()) fun a => {v | .line l :: v ∈ L a}) :
    Displays family ((print l).bind f) L := Prog.says_call fun _ _ => h

theorem displays_malloc {size : Nat} {f : Bool → Prog tool α}
    (h : ∀ allocated, Displays family (f allocated) L) :
    Displays family ((Tool.malloc size).bind f) L :=
  Prog.says_call fun (allocated : Bool) _ => h allocated

theorem displays_library {p : Prog api β} {R : β → Language Copy} {f : β → Prog tool α}
    (hp : Copies family p R)
    (hf : ∀ b v, v ∈ R b → Displays family (f b) fun a => {u | v.map .copy ++ u ∈ L a}) :
    Displays family (p.inl.bind f) L := by
  have hinl : Displays family p.inl fun b => {w | ∃ v ∈ R b, w = v.map .copy} :=
    Prog.says_inl (fun _ _ h => h) (fun _ _ => rfl) hp
  apply Prog.says_bind hinl
  intro b w hw
  obtain ⟨v, hv, rfl⟩ := hw
  exact hf b v hv

theorem displays_copyless {p : Prog api β} {R : β → Prop} {f : β → Prog tool α}
    (hp : p.Wp copyless (fun b _ => R b) ()) (hf : ∀ b, R b → Displays family (f b) L) :
    Displays family (p.inl.bind f) L := by
  apply displays_library (Prog.says_silent copied_nothing hp)
  intro b v hv
  rw [hv.2]
  exact hf b hv.1

theorem displays_undefined : Displays family (Tool.undefined : Prog tool α) L :=
  Prog.says_call fun r => Empty.elim r

end Rules

section Rows
variable {family : RyzenFamily}

theorem cellOf_some {values : List Byte} {i : Nat} {w : Word} (h : cellAt values i = some w) :
    cellOf values i = w := by rw [cellOf, h, Option.getD_some]

theorem printDumpRows_displays (data values : List Byte) (index count : Nat) :
    Displays family (printDumpRows data values index count) fun _ =>
      {v | v = (dumpRows data values index count).map .line} := by
  induction count generalizing index with
  | zero => exact Prog.says_ret rfl
  | succ count ih =>
    unfold printDumpRows
    cases hword : cellAt data index with
    | none => exact displays_undefined
    | some word =>
      cases hvalue : cellAt values index with
      | none => exact displays_undefined
      | some value =>
        apply displays_print
        apply Prog.says_mono (ih (index + 1))
        intro _ v hv
        have hrow : dumpRows data values index (count + 1) =
            .dumpRow (index * 4) word value :: dumpRows data values (index + 1) count := by
          simp only [dumpRows, List.range'_succ, List.map_cons, cellOf_some hword,
            cellOf_some hvalue]
        rw [show v = _ from hv, hrow]
        rfl

theorem printAdjustRows_displays (data old values : List Byte) (index count : Nat) :
    Displays family (printAdjustRows data old values index count) fun _ =>
      {v | v = (adjustRows data old values index count).map .line} := by
  induction count generalizing index with
  | zero => exact Prog.says_ret rfl
  | succ count ih =>
    unfold printAdjustRows
    cases hword : cellAt data index with
    | none => exact displays_undefined
    | some word =>
      cases hvalue : cellAt old index with
      | none => exact displays_undefined
      | some value =>
        cases hadjusted : cellAt values index with
        | none => exact displays_undefined
        | some adjusted =>
          apply displays_print
          apply Prog.says_mono (ih (index + 1))
          intro _ v hv
          have hrow : adjustRows data old values index (count + 1) =
              .adjustRow (index * 4) word value adjusted ::
                adjustRows data old values (index + 1) count := by
            simp only [adjustRows, List.range'_succ, List.map_cons, cellOf_some hword,
              cellOf_some hvalue, cellOf_some hadjusted]
          rw [show v = _ from hv, hrow]
          rfl

theorem HoldsTable.read {ry : RyzenAccess} {values : List Byte} (h : HoldsTable ry values)
    (g : Getter) : g.read ry 0 = some ((PmTable.mk ry.tableVer values).value g) := by
  unfold Getter.read PmTable.value
  cases g.offset ry.tableVer 0 with
  | none => rfl
  | some off =>
    simp only [readFloatValue, h.buffer, h.size]
    by_cases hshort : ry.tableSize < off + 4
    · simp only [hshort, if_true]
    · have hle : 4 * (off / 4) + 4 ≤ values.length := by
        rw [h.size]
        omega
      obtain ⟨w, hw⟩ := exists_cellAt hle
      simp only [hshort, if_false, hw, cellOf_some hw]

theorem printInfoRows_displays {ry : RyzenAccess} {values : List Byte} (h : HoldsTable ry values)
    (rows : List (String × Getter × String)) :
    Displays family (printInfoRows ry rows) fun _ =>
      {v | v = (rows.map (PmTable.mk ry.tableVer values).infoRow).map .line} := by
  induction rows with
  | nil => exact Prog.says_ret rfl
  | cons row rows ih =>
    simp only [printInfoRows, h.read row.2.1]
    apply displays_print
    apply Prog.says_mono ih
    intro _ v hv
    rw [show v = _ from hv]
    rfl

end Rows

section Calls
variable {family : RyzenFamily} {ry : RyzenAccess} {values : List Byte}

structure Shown (family : RyzenFamily) (g : Stage) (ry : Option RyzenAccess) (t : Option PmTable) :
    Prop where
  family : ∀ ry', ry = some ry' → ry'.family = family
  table : g = .monitored → ∃ ry' values, ry = some ry' ∧ HoldsTable ry' values ∧
    t = some ⟨ry'.tableVer, values⟩

/-- What a call of `main` shows from there on, with the event it is and what it leaves. -/
def CallShows (family : RyzenFamily) (g : Stage) (t : Option PmTable) (o : cli.Op)
    (x : cli.Ret o × Option RyzenAccess) : Language Seen :=
  {v | ∃ e t', called o x.1 = [e] ∧ Reported family t e v t' ∧ Shown family (g.after o x.1) x.2 t'}

theorem HoldsTable.refreshed {code : Int} {copies : List Copy} {values' : List Byte}
    (h : HoldsTable ry values) (hrefreshed : BufferRefreshed values code copies values') :
    HoldsTable { ry with tableValues := some values' } values' where
  buffer := rfl
  size := by
    rw [← h.size]
    cases hrefreshed with
    | untouched _ => rfl
    | torn hle => exact overwrite_length hle
    | done hlen => exact hlen
  nonempty := h.nonempty
  cells := h.cells

theorem getTableVer_of_table (depth : Nat) (h : HoldsTable ry values) :
    getTableVer depth ry = .ret (ry.tableVer, ry) := by
  simp only [getTableVer, lazyInitTable, h.buffer]
  rfl

theorem getTableSize_of_table (depth : Nat) (h : HoldsTable ry values) :
    getTableSize depth ry = .ret (ry.tableSize, ry) := by
  simp only [getTableSize, lazyInitTable, h.buffer]
  rfl

theorem Shown.of_table {g : Stage} (hfamily : ry.family = family) (h : HoldsTable ry values) :
    Shown family g (some ry) (some ⟨ry.tableVer, values⟩) where
  family := by
    intro ry' h
    rw [← Option.some.inj h]
    exact hfamily
  table _ := ⟨ry, values, rfl, h, rfl⟩

theorem showInfoTable_displays (depth : Nat) (hfamily : ry.family = family)
    (h : HoldsTable ry values) :
    Displays family (RyzenAdj.showInfoTable (depth + 1) ry) fun ry' => {v | ∃ t',
      Reported family (some ⟨ry.tableVer, values⟩) .showInfoTable v t' ∧
        ∀ g, Shown family g (some ry') t'} := by
  have hrefresh : Copies family (refreshTable (depth + 1) ry) _ :=
    copies_refreshTable depth h.buffer h.size
  unfold RyzenAdj.showInfoTable
  rw [getTableVer_of_table (depth + 1) h]
  apply displays_print
  apply displays_library hrefresh
  intro r copies hcopies
  obtain ⟨code, ry'⟩ := r
  obtain ⟨values', hrefreshed, rfl⟩ := hcopies
  have htable := h.refreshed hrefreshed
  have hshown : ∀ g, Shown family g (some { ry with tableValues := some values' })
      (some ⟨ry.tableVer, values'⟩) := fun g => .of_table hfamily htable
  apply Prog.says_ite
  · intro hcode
    apply displays_print
    exact Prog.says_ret ⟨_, .noInfo hcode hrefreshed, hshown⟩
  · intro hcode
    obtain rfl : code = 0 := not_not.mp hcode
    apply displays_print
    apply Prog.says_bind (printInfoRows_displays htable infoRows)
    intro _ v hv
    have hinfo : Reported family (some ⟨ry.tableVer, values⟩) .showInfoTable _ _ :=
      .info hrefreshed
    refine Prog.says_ret ⟨_, ?_, hshown⟩
    rw [show v = _ from hv, List.append_nil]
    exact hinfo

theorem dumpAdjusted_displays (depth : Nat) (hfamily : ry.family = family)
    (h : HoldsTable ry values) :
    Displays family (dumpAdjusted (depth + 1) ry ry.tableSize values) fun ry' => {v | ∃ t',
      Reported family (some ⟨ry.tableVer, values⟩) (.showTableDump true)
        (.line (.dumpVersion ry.tableVer) :: v) t' ∧ ∀ g, Shown family g (some ry') t'} := by
  have hrefresh : Copies family (refreshTable (depth + 1) ry) _ :=
    copies_refreshTable depth h.buffer h.size
  apply displays_malloc
  intro allocated
  apply Prog.says_ite
  · intro _
    apply displays_print
    exact Prog.says_ret ⟨_, .outOfMemory true, fun g => .of_table hfamily h⟩
  · intro _
    apply displays_library hrefresh
    intro r copies hcopies
    obtain ⟨code, ry'⟩ := r
    obtain ⟨values', hrefreshed, rfl⟩ := hcopies
    have hshown : ∀ g, Shown family g (some { ry with tableValues := some values' })
        (some ⟨ry.tableVer, values'⟩) := fun g => .of_table hfamily (h.refreshed hrefreshed)
    have hdump : Reported family (some ⟨ry.tableVer, values⟩) (.showTableDump true) _ _ :=
      .dumpAdjusted hrefreshed
    -- the rows, after what was said about the refresh
    have hrows : ∀ u, u = (refreshNotice code).map Seen.line →
        Displays family ((print .adjustHead).bind fun _ =>
          (printAdjustRows values values values' 0 (ry.tableSize / 4)).bind fun _ =>
            Prog.ret { ry with tableValues := some values' }) fun ry' => {v | ∃ t',
              Reported family (some ⟨ry.tableVer, values⟩) (.showTableDump true)
                (.line (.dumpVersion ry.tableVer) :: (copies.map .copy ++ (u ++ v))) t' ∧
                ∀ g, Shown family g (some ry') t'} := by
      intro u hu
      apply displays_print
      apply Prog.says_bind (printAdjustRows_displays values values values' 0 _)
      intro _ v hv
      refine Prog.says_ret ⟨_, ?_, hshown⟩
      rw [show v = _ from hv, hu, List.append_nil, ← h.size]
      rw [List.map_append] at hdump
      exact hdump
    apply Prog.says_ite
    · intro hcode
      apply displays_print
      apply hrows [.line (.unableToRefresh code)]
      rw [refreshNotice, if_pos hcode]
      rfl
    · intro hcode
      apply hrows []
      rw [refreshNotice, if_neg hcode]
      rfl

theorem showTableDump_displays (depth : Nat) (hfamily : ry.family = family)
    (h : HoldsTable ry values) (anyAdjustApplied : Bool) :
    Displays family (RyzenAdj.showTableDump (depth + 1) ry anyAdjustApplied) fun ry' => {v | ∃ t',
      Reported family (some ⟨ry.tableVer, values⟩) (.showTableDump anyAdjustApplied) v t' ∧
        ∀ g, Shown family g (some ry') t'} := by
  have hshown : ∀ g, Shown family g (some ry) (some ⟨ry.tableVer, values⟩) :=
    fun g => .of_table hfamily h
  have hvalues : getTableValues ry = some values := h.buffer
  have hcells := h.cells
  have hpos := h.nonempty
  have hlong : ¬ry.tableSize < 4 := by omega
  have hfits : ¬values.length < ry.tableSize := by rw [h.size]; exact Nat.lt_irrefl _
  have htake : values.take ry.tableSize = values := by rw [← h.size, List.take_length]
  unfold RyzenAdj.showTableDump
  rw [getTableVer_of_table (depth + 1) h]
  apply displays_print
  simp only [getTableSize_of_table (depth + 1) h, Prog.inl_ret, Prog.bind_eq, Prog.ret_bind,
    hvalues, hlong, if_false, hfits, htake]
  apply displays_malloc
  intro allocated
  apply Prog.says_ite
  · intro _
    apply displays_print
    exact Prog.says_ret ⟨_, .outOfMemory anyAdjustApplied, hshown⟩
  · intro _
    cases anyAdjustApplied with
    | true => exact dumpAdjusted_displays depth hfamily h
    | false =>
      have hdump : Reported family (some ⟨ry.tableVer, values⟩) (.showTableDump false) _ _ :=
        .dump
      apply displays_print
      apply Prog.says_bind (printDumpRows_displays values values 0 _)
      intro _ v hv
      refine Prog.says_ret ⟨_, ?_, hshown⟩
      rw [show v = _ from hv, List.append_nil, ← h.size]
      exact hdump

theorem initRyzenadj_displays (depth : Nat) (g : Stage) (t : Option PmTable) :
    Displays family (toolImpl depth none .initRyzenadj) (CallShows family g t .initRyzenadj) := by
  apply displays_library copies_initRyzenadj
  intro ry v hv
  obtain ⟨rfl, hfamily⟩ := hv
  cases ry with
  | none =>
    apply displays_print
    refine Prog.says_ret ⟨_, none, rfl, .noHandle, (fun _ h => by cases h), fun h => ?_⟩
    cases h
  | some ry =>
    refine Prog.says_ret ⟨_, none, rfl, .handle, hfamily, fun h => ?_⟩
    cases h

theorem showInfoHeader_displays (hfamily : ry.family = family) :
    Displays family (RyzenAdj.showInfoHeader ry) fun ry' => {v | ry'.family = family ∧ ∃ ver,
      v = [.line (.cpuFamily (familyName family)), .line (.biosIfVer ver), .line .version]} := by
  apply displays_print
  apply displays_copyless (getBiosIfVer_copyless ry)
  intro r hr
  apply displays_print
  apply displays_print
  refine Prog.says_ret ⟨hr.trans hfamily, r.1, ?_⟩
  rw [← hfamily]
  rfl

theorem initTable_displays (depth : Nat) (hfamily : ry.family = family) (t : Option PmTable) :
    Displays family (toolImpl (depth + 1) (some ry) .initTable)
      (CallShows family .opened t .initTable) := by
  apply displays_library (copies_initTable depth ry)
  intro r copies hcopies
  obtain ⟨code, ry'⟩ := r
  obtain ⟨hsame, hfilled, hfailed⟩ := hcopies
  have hfamily' : ∀ ry'', some ry' = some ry'' → ry''.family = family := by
    intro ry'' hry
    rw [← Option.some.inj hry]
    exact hsame.trans hfamily
  apply Prog.says_ite
  · intro hcode
    have hstage : Stage.opened.after .initTable code = .opened := if_neg hcode
    apply displays_print
    refine Prog.says_ret ⟨_, none, rfl, .noTable (hfailed hcode), hfamily', fun h => ?_⟩
    exact absurd (hstage.symm.trans h) (by decide)
  · intro hcode
    obtain rfl : code = 0 := not_not.mp hcode
    obtain ⟨values, hvalues, hholds⟩ := hfilled rfl
    have hreported : Reported family t (.initTable 0) _ _ := .table ry'.tableVer hvalues
    refine Prog.says_ret ⟨_, some ⟨ry'.tableVer, values⟩, rfl, ?_, hfamily', fun _ =>
      ⟨ry', values, rfl, hholds, rfl⟩⟩
    rw [List.append_nil]
    exact hreported

theorem toolImpl_shows (depth : Nat) {g : Stage} {ry : Option RyzenAccess} {t : Option PmTable}
    (h : Shown family g ry t) (o : cli.Op) (hallowed : g.Allows o) :
    Displays family (toolImpl (depth + 1) ry o) (CallShows family g t o) := by
  cases ry with
  | none =>
    cases o with
    | initRyzenadj => exact initRyzenadj_displays (depth + 1) g t
    | _ => exact displays_undefined
  | some ry =>
    have hfamily := h.family ry rfl
    -- the table, where `main` monitors
    have htable : g = .monitored → ∃ values, HoldsTable ry values ∧
      t = some ⟨ry.tableVer, values⟩ := by
      intro hg
      obtain ⟨ry', values, hry, hvalues, ht⟩ := h.table hg
      obtain rfl := Option.some.inj hry
      exact ⟨values, hvalues, ht⟩
    cases o with
    | initRyzenadj => exact initRyzenadj_displays (depth + 1) g t
    | showInfoHeader =>
      obtain rfl : g = .opened := hallowed
      apply Prog.says_bind (showInfoHeader_displays hfamily)
      intro ry' v hv
      obtain ⟨hfamily', ver, rfl⟩ := hv
      refine Prog.says_ret ⟨_, t, rfl, .showInfoHeader ver, ?_, fun h => by cases h⟩
      intro ry'' hry
      rw [← Option.some.inj hry]
      exact hfamily'
    | initTable =>
      obtain rfl : g = .opened := hallowed
      exact initTable_displays depth hfamily t
    | set c =>
      have hkeeps : ∀ adjerr : Int, Shown family (g.after (.set c) adjerr) (some ry) t :=
        fun _ => h
      apply displays_copyless (setter_copyless c.function.setter ry c.value)
      intro adjerr _
      apply Prog.says_ite
      · intro hzero
        obtain rfl := hzero
        apply displays_print
        exact Prog.says_ret ⟨_, t, rfl, .adjusted c, hkeeps _⟩
      · intro hne
        apply displays_print
        exact Prog.says_ret ⟨_, t, rfl, .notAdjusted c hne, hkeeps _⟩
    | showTableDump anyAdjustApplied =>
      obtain ⟨values, hvalues, rfl⟩ := htable hallowed
      apply Prog.says_bind (showTableDump_displays depth hfamily hvalues anyAdjustApplied)
      intro ry' v hv
      obtain ⟨t', hreported, hshown⟩ := hv
      refine Prog.says_ret ⟨_, t', rfl, ?_, hshown _⟩
      rw [List.append_nil]
      exact hreported
    | showInfoTable =>
      obtain ⟨values, hvalues, rfl⟩ := htable hallowed
      apply Prog.says_bind (showInfoTable_displays depth hfamily hvalues)
      intro ry' v hv
      obtain ⟨t', hreported, hshown⟩ := hv
      refine Prog.says_ret ⟨_, t', rfl, ?_, hshown _⟩
      rw [List.append_nil]
      exact hreported
    | cleanupRyzenadj =>
      apply Prog.says_call
      intro _ _
      refine Prog.says_ret ⟨_, t, rfl, .cleanupRyzenadj, (fun _ h => by cases h), fun h => ?_⟩
      cases h

structure Displayed (family : RyzenFamily) (x : Stage × List CliEvent) (ry : Option RyzenAccess)
    (y : Unit × List Seen) : Prop where
  screen : ∃ t, Screen family x.2 y.2 t ∧ Shown family x.1 ry t

theorem toolImpl_displays (family : RyzenFamily) (depth : Nat) :
    (toolImpl (depth + 1)).Meets traced ((Env.answering (toolAnswers family)).traced onScreen)
      (Displayed family) := by
  intro x ry y o h hguard
  obtain ⟨u, w⟩ := y
  obtain ⟨t, hscreen, hshown⟩ := h.screen
  apply Prog.wp_mono _ (toolImpl_shows depth hshown o hguard w)
  intro r y' hy'
  obtain ⟨v, ⟨e, t', hcalled, hreported, hshown'⟩, hw⟩ := hy'
  refine ⟨(x.1.after o r.1, x.2 ++ [e]), ⟨rfl, by rw [hcalled]⟩, ⟨t', ?_, hshown'⟩⟩
  rw [hw]
  exact .call hscreen hreported

end Calls

/-- Every run of the tool comes to an end, and what it shows are the lines and copies of the calls
that its words stand for: of a table what the copies have left in the buffer, and of a call its
outcome. -/
theorem tool_report (family : RyzenFamily) (depth : Nat) (long : LongWidth)
    (args : List CString) :
    Prog.Ends ((toolEnv family).traced onScreen) (fun status y =>
        ∃ calls t, MainCalls long args status calls ∧ Screen family calls y.2 t)
      (ryzenadj (depth + 1) long args, (.initial, [])) := by
  have hmain := Prog.wp_of_wpFin (main_calls long args)
  have hstart : Displayed family (.start, []) none ((), []) :=
    ⟨none, .start, (fun _ h => by cases h), fun h => by cases h⟩
  have hlink := Prog.wp_link (toolImpl_displays family depth) hstart hmain
  have hshows : (ryzenadj (depth + 1) long args).Wp
      ((Env.answering (toolAnswers family)).traced onScreen)
      (fun status y => ∃ calls t, MainCalls long args status calls ∧ Screen family calls y.2 t)
      ((), []) := by
    apply Prog.wp_seq _ hlink
    intro r y hy
    obtain ⟨x, ⟨-, hcalls⟩, hdisplayed⟩ := hy
    obtain ⟨t, hscreen, -⟩ := hdisplayed.screen
    exact ⟨x.2, t, hcalls, hscreen⟩
  have hends := Prog.wpFin_untraced (tool_run family depth long args)
  have hrefines : ((toolEnv family).traced onScreen).Refines
      ((toolEnv family).both ((Env.answering (toolAnswers family)).traced onScreen))
      fun x y => y = (x.1, x.2.2) := by
    intro x y o hxy hguard
    obtain rfl := hxy
    refine ⟨hguard.1, fun r y' hnext => ?_⟩
    refine ⟨(y'.1, ((), y'.2)), ⟨hnext.1, ?_, hnext.2⟩, rfl⟩
    cases o with
    | inr o => trivial
    | inl o =>
      cases o with
      | cpuidGetFamily => exact hnext.1.1
      | _ => trivial
  have hanswers : ∀ (x : Backend × List Seen) (o : tool.Op),
      ((toolEnv family).traced onScreen).guard x o →
        ∃ r y, ((toolEnv family).traced onScreen).next x o r y := by
    intro x o hguard
    obtain ⟨r, b, hnext⟩ := toolEnv_answers hguard
    exact ⟨r, (b, x.2 ++ onScreen o r), hnext, rfl⟩
  apply Prog.ends_of_wpFin hanswers
  apply Prog.wpFin_mono (Prog.wpFin_refine hrefines rfl (Prog.wpFin_both hends hshows))
  intro status y hy
  obtain ⟨x, hx, rfl⟩ := hy
  exact hx.2

end RyzenAdj
