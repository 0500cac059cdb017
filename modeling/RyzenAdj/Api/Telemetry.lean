import RyzenAdj.Api.Provenance

/-!
# Telemetry quantities

The per-core values, the L3, graphics and clock readings as quantities of one
table: which cell each getter takes, and which quantities share one. The
layouts say for how many cores a table has values; the getters let through any
core up to 15, but on Van Gogh.
-/

namespace RyzenAdj

inductive Gauge where
  | corePower
  | coreVolt
  | coreTemp
  | coreClk
  | l3Clk
  | l3Logic
  | l3Vddm
  | l3Temp
  | gfxClk
  | gfxVolt
  | gfxTemp
  | fclk
  | memClk
  deriving DecidableEq, Repr

namespace Gauge

def getter : Gauge → Getter
  | corePower => getCorePower
  | coreVolt => getCoreVolt
  | coreTemp => getCoreTemp
  | coreClk => getCoreClk
  | l3Clk => getL3Clk
  | l3Logic => getL3Logic
  | l3Vddm => getL3Vddm
  | l3Temp => getL3Temp
  | gfxClk => getGfxClk
  | gfxVolt => getGfxVolt
  | gfxTemp => getGfxTemp
  | fclk => getFclk
  | memClk => getMemClk

/-- The getters with a core number. -/
def perCore : Gauge → Bool
  | corePower | coreVolt | coreTemp | coreClk => true
  | _ => false

end Gauge

/-- A getter and its core number, 0 where it has none. -/
@[ext] structure Quantity where
  gauge : Gauge
  core : Word
  single : gauge.perCore = false → core = 0

/-- Where the values of each getter begin, in the order of the table, and for how many cores it
has values: as many as there are powers before the volts, and those any getter lets through where
the volts are not known. -/
structure TableMap where
  cores : Nat
  starts : List (Gauge × Nat)

def tableMaps : List (List Word × TableMap) :=
  [([0x370000, 0x370001, 0x370002, 0x370003, 0x370004],
      ⟨8, [(.corePower, 0x300), (.coreVolt, 0x320), (.coreTemp, 0x340), (.coreClk, 0x3A0),
        (.l3Logic, 0x540), (.l3Vddm, 0x548), (.l3Temp, 0x550), (.l3Clk, 0x568),
        (.gfxVolt, 0x5A8), (.gfxTemp, 0x5AC), (.gfxClk, 0x5B4), (.fclk, 0x5CC),
        (.memClk, 0x5D4)]⟩),
    ([0x370005],
      ⟨8, [(.corePower, 0x31C), (.coreVolt, 0x33C), (.coreTemp, 0x35C), (.coreClk, 0x3BC),
        (.l3Logic, 0x55C), (.l3Vddm, 0x564), (.l3Temp, 0x56C), (.l3Clk, 0x584),
        (.gfxVolt, 0x5C4), (.gfxTemp, 0x5C8), (.gfxClk, 0x5D0), (.fclk, 0x5E8),
        (.memClk, 0x5F0)]⟩),
    ([0x3F0000],
      ⟨4, [(.corePower, 0x238), (.coreVolt, 0x248), (.coreTemp, 0x258), (.coreClk, 0x288),
        (.l3Logic, 0x348), (.l3Vddm, 0x34C), (.l3Temp, 0x350), (.l3Clk, 0x35C),
        (.gfxVolt, 0x37C), (.gfxTemp, 0x380), (.gfxClk, 0x388), (.memClk, 0x3C4),
        (.fclk, 0x3C5)]⟩),
    ([0x400001],
      ⟨16, [(.corePower, 0x304), (.gfxVolt, 0x600), (.gfxTemp, 0x604), (.gfxClk, 0x60C)]⟩),
    ([0x400002], ⟨16, [(.gfxVolt, 0x618), (.gfxTemp, 0x61C), (.gfxClk, 0x624)]⟩),
    ([0x400003], ⟨16, [(.gfxVolt, 0x638), (.gfxTemp, 0x63C), (.gfxClk, 0x644)]⟩),
    ([0x400004, 0x400005],
      ⟨8, [(.corePower, 0x320), (.coreVolt, 0x340), (.coreTemp, 0x360), (.coreClk, 0x3C0),
        (.l3Logic, 0x600), (.l3Vddm, 0x604), (.l3Temp, 0x608), (.l3Clk, 0x614),
        (.gfxVolt, 0x63C), (.gfxTemp, 0x640), (.gfxClk, 0x648), (.fclk, 0x664),
        (.memClk, 0x66C)]⟩),
    ([0x5D0008, 0x5D0009, 0x5D000B],
      ⟨12, [(.gfxVolt, 0x4B8), (.gfxClk, 0x4C0), (.gfxTemp, 0x4C8), (.fclk, 0x4E0),
        (.memClk, 0x4EC), (.corePower, 0x9D8), (.coreVolt, 0xA08), (.coreTemp, 0xA38),
        (.coreClk, 0xA68)]⟩),
    ([0x64020C],
      ⟨16, [(.gfxVolt, 0x54C), (.gfxTemp, 0x550), (.gfxClk, 0x558), (.corePower, 0xB90),
        (.coreVolt, 0xBD0), (.coreTemp, 0xC10), (.coreClk, 0xC50)]⟩)]

def tableMap (ver : Word) : Option TableMap := switchOn ver tableMaps

def layoutCores (ver : Word) : Nat := (tableMap ver).elim 16 TableMap.cores

/-- The cell `_read_float_value` returns, none where it returns NAN. -/
def floatCell (ry : RyzenAccess) (off : Nat) : Option Nat :=
  if ry.tableValues.isNone ∨ ry.tableSize < off + 4 then none else some (off / 4)

/-- A cell of the buffer with another value. -/
def writeCell (buf : List Byte) (i : Nat) (w : Word) : List Byte :=
  if 4 * i + 4 ≤ buf.length then buf.take (4 * i) ++ wordBytes w ++ buf.drop (4 * i + 4) else buf

def RyzenAccess.withCell (ry : RyzenAccess) (i : Nat) (w : Word) : RyzenAccess :=
  { ry with tableValues := ry.tableValues.map (writeCell · i w) }

namespace Quantity

def read (ry : RyzenAccess) (q : Quantity) : Option Word := q.gauge.getter.read ry q.core

def cell (ry : RyzenAccess) (q : Quantity) : Option Nat :=
  (q.gauge.getter.offset ry.tableVer q.core).bind (floatCell ry)

/-- A core number the layout does not have is NAN. -/
def InLayout (ry : RyzenAccess) (q : Quantity) : Prop :=
  layoutCores ry.tableVer ≤ q.core.toNat → q.cell ry = none ∧ q.read ry = some nan

end Quantity

/-- Two quantities that both return a value of the table take different cells, and the value
behind one is nothing to the other; none of them is beyond the cores of the layout. -/
structure Unaliased (ry : RyzenAccess) (p q : Quantity) : Prop where
  cells : ∀ i j, p.cell ry = some i → q.cell ry = some j → i ≠ j
  left : ∀ i w, p.cell ry = some i → q.read (ry.withCell i w) = q.read ry
  right : ∀ j w, q.cell ry = some j → p.read (ry.withCell j w) = p.read ry
  inLayout : p.InLayout ry ∧ q.InLayout ry

/-- The core number is between the cores of the layout and the common limit, and the table goes
so far. -/
def Overreach (ry : RyzenAccess) (q : Quantity) : Prop :=
  ry.tableValues.isSome = true ∧ ry.tableVer ≠ 0x3F0000 ∧ q.core.toNat ≤ 15 ∧
    ∃ m base, tableMap ry.tableVer = some m ∧ m.starts.lookup q.gauge = some base ∧
      m.cores ≤ q.core.toNat ∧ base + q.core.toNat * 4 + 4 ≤ ry.tableSize

def Gauge.Clocks (g g' : Gauge) : Prop := g = fclk ∧ g' = memClk ∨ g = memClk ∧ g' = fclk

instance (g g' : Gauge) : Decidable (g.Clocks g') := inferInstanceAs (Decidable (_ ∨ _))

/-- The two clocks of Van Gogh, in a table that goes so far. -/
def ClockClash (ry : RyzenAccess) (p q : Quantity) : Prop :=
  ry.tableValues.isSome = true ∧ ry.tableVer = 0x3F0000 ∧ 0x3C5 + 4 ≤ ry.tableSize ∧
    p.gauge.Clocks q.gauge

/-! ### Reading and writing a cell -/

theorem cellAt_drop_congr {buf buf' : List Byte} {i : Nat}
    (h : buf'.drop (4 * i) = buf.drop (4 * i)) : cellAt buf' i = cellAt buf i := by
  unfold cellAt
  rw [h]

theorem cellAt_writeCell {buf : List Byte} {i j : Nat} (h : i ≠ j) (w : Word) :
    cellAt (writeCell buf i w) j = cellAt buf j := by
  unfold writeCell
  split
  · rename_i hroom
    rcases Nat.lt_or_gt_of_ne h with hlt | hgt
    · apply cellAt_drop_congr
      have hlen : (buf.take (4 * i) ++ wordBytes w).length = 4 * i + 4 := by
        rw [List.length_append, List.length_take, wordBytes_length]
        omega
      rw [List.drop_append, List.drop_eq_nil_of_le (by omega), List.nil_append, List.drop_drop,
        hlen]
      congr 1
      omega
    · have htake : 4 * j + 4 ≤ (buf.take (4 * i)).length := by
        rw [List.length_take]
        omega
      rw [List.append_assoc, cellAt_append_left htake, ← cellAt_append_left htake,
        List.take_append_drop]
  · rfl

section Cells
variable {ry : RyzenAccess}

theorem readFloatValue_eq (off : Nat) : readFloatValue ry off =
    (floatCell ry off).elim (some nan) fun i => ry.tableValues.bind (cellAt · i) := by
  unfold readFloatValue floatCell
  cases ry.tableValues with
  | none => rfl
  | some buf =>
    by_cases hsize : ry.tableSize < off + 4
    · simp [hsize]
    · simp [hsize]

namespace Quantity
variable {q : Quantity}

theorem read_eq : q.read ry =
    (q.cell ry).elim (some nan) fun i => ry.tableValues.bind (cellAt · i) := by
  unfold read Getter.read cell
  cases q.gauge.getter.offset ry.tableVer q.core with
  | none => rfl
  | some off => exact readFloatValue_eq off

theorem cell_withCell (i : Nat) (w : Word) : q.cell (ry.withCell i w) = q.cell ry := by
  have hfloat : floatCell (ry.withCell i w) = floatCell ry := by
    funext off
    simp [floatCell, RyzenAccess.withCell]
  unfold cell
  rw [hfloat]
  rfl

/-- What is in other cells is nothing to a quantity. -/
theorem read_withCell {i : Nat} (h : ∀ j, q.cell ry = some j → i ≠ j) (w : Word) :
    q.read (ry.withCell i w) = q.read ry := by
  rw [read_eq, read_eq, cell_withCell]
  cases hcell : q.cell ry with
  | none => rfl
  | some j =>
    simp only [Option.elim_some, RyzenAccess.withCell]
    cases ry.tableValues with
    | none => rfl
    | some buf => exact cellAt_writeCell (h j hcell) w

theorem cell_eq_some {i : Nat} : q.cell ry = some i ↔
    ∃ off, q.gauge.getter.offset ry.tableVer q.core = some off ∧
      ry.tableValues.isSome = true ∧ off + 4 ≤ ry.tableSize ∧ i = off / 4 := by
  unfold cell floatCell
  cases q.gauge.getter.offset ry.tableVer q.core with
  | none => simp
  | some off =>
    cases ry.tableValues with
    | none => simp
    | some buf =>
      by_cases hsize : ry.tableSize < off + 4
      · simp [hsize, Nat.not_le.mpr hsize]
      · simp [hsize, Nat.not_lt.mp hsize, eq_comm]

end Quantity
end Cells

/-! ### Offsets -/

theorem Getter.perCore_offset (cases : List (List Word × Nat)) (ver core : Word) :
    (Getter.perCore cases).offset ver core =
      if 15 < core ∨ (ver = 0x3F0000 ∧ 4 ≤ core) then none
      else ((Getter.perCore cases).offset ver 0).map (· + core.toNat * 4) := by
  have hzero : (Getter.perCore cases).offset ver 0 = switchOn ver cases := by
    simp [Getter.perCore]
  rw [hzero]
  show (if 15 < core then none else if ver = 0x3F0000 ∧ 4 ≤ core then none
    else (switchOn ver cases).map (· + core.toNat * 4)) = _
  by_cases hfar : 15 < core
  · rw [if_pos hfar, if_pos (.inl hfar)]
  · by_cases hvan : ver = 0x3F0000 ∧ 4 ≤ core
    · rw [if_neg hfar, if_pos hvan, if_pos (.inr hvan)]
    · rw [if_neg hfar, if_neg hvan, if_neg (not_or.mpr ⟨hfar, hvan⟩)]

namespace Gauge

/-- Where the values of a getter begin. -/
def start (g : Gauge) (ver : Word) : Option Nat := g.getter.offset ver 0

theorem perCore_offset {g : Gauge} (h : g.perCore = true) (ver core : Word) :
    g.getter.offset ver core =
      if 15 < core ∨ (ver = 0x3F0000 ∧ 4 ≤ core) then none
      else (g.start ver).map (· + core.toNat * 4) := by
  cases g with
  | corePower | coreVolt | coreTemp | coreClk => exact Getter.perCore_offset _ ver core
  | _ => cases h

def all : List Gauge :=
  [corePower, coreVolt, coreTemp, coreClk, l3Clk, l3Logic, l3Vddm, l3Temp, gfxClk, gfxVolt,
    gfxTemp, fclk, memClk]

theorem mem_all (g : Gauge) : g ∈ all := by
  cases g <;> decide

/-- The getters follow the maps, each in every table version. -/
theorem maps_checked : tableMaps.all (fun c => c.1.all fun ver =>
    all.all fun g => g.start ver = c.2.starts.lookup g) = true := by
  decide +kernel

/-- Every version a getter's switch lists has a map. -/
def Mapped (cases : List (List Word × Nat)) : Prop :=
  cases.all (fun c => c.1.all fun ver => (tableMap ver).isSome) = true

theorem switchOn_unmapped {cases : List (List Word × Nat)} (hcases : Mapped cases) {ver : Word}
    (h : tableMap ver = none) : switchOn ver cases = none := by
  apply switchOn_eq_none.mpr
  intro c hc hmem
  have hsome := List.all_eq_true.mp (List.all_eq_true.mp hcases c hc) ver hmem
  rw [h] at hsome
  cases hsome

theorem perCore_unmapped {cases : List (List Word × Nat)} (hcases : Mapped cases) {ver : Word}
    (h : tableMap ver = none) : (Getter.perCore cases).offset ver 0 = none := by
  simp [Getter.perCore, switchOn_unmapped hcases h]

theorem start_unmapped (g : Gauge) {ver : Word} (h : tableMap ver = none) :
    g.start ver = none := by
  cases g with
  | corePower | coreVolt | coreTemp | coreClk =>
    exact perCore_unmapped (by unfold Mapped; decide +kernel) h
  | _ => exact switchOn_unmapped (by unfold Mapped; decide +kernel) h

theorem start_eq (g : Gauge) (ver : Word) :
    g.start ver = (tableMap ver).bind (·.starts.lookup g) := by
  cases hmap : tableMap ver with
  | none => exact start_unmapped g hmap
  | some m =>
    obtain ⟨labels, hmem, hver⟩ := switchOn_label hmap
    have hall := maps_checked
    simp only [List.all_eq_true, decide_eq_true_eq] at hall
    exact hall _ hmem ver hver g (mem_all g)

theorem offset_eq_some {g : Gauge} {ver core : Word} (hsingle : g.perCore = false → core = 0)
    (off : Nat) : g.getter.offset ver core = some off ↔
      core.toNat ≤ 15 ∧ ¬(ver = 0x3F0000 ∧ 4 ≤ core.toNat) ∧
        ∃ base, g.start ver = some base ∧ off = base + core.toNat * 4 := by
  cases hcore : g.perCore with
  | false =>
    obtain rfl := hsingle hcore
    simp [start, eq_comm]
  | true =>
    have hfar : 15 < core ↔ ¬core.toNat ≤ 15 := by
      rw [BitVec.lt_def, Nat.not_le]
      rfl
    have hvan : 4 ≤ core ↔ 4 ≤ core.toNat := BitVec.le_def
    have hlimits : 15 < core ∨ (ver = 0x3F0000 ∧ 4 ≤ core) ↔
        ¬(core.toNat ≤ 15 ∧ ¬(ver = 0x3F0000 ∧ 4 ≤ core.toNat)) := by
      rw [hfar, hvan, not_and_or, not_not]
    rw [perCore_offset hcore]
    by_cases hnone : 15 < core ∨ (ver = 0x3F0000 ∧ 4 ≤ core)
    · rw [if_pos hnone]
      refine ⟨fun h => absurd h.symm (Option.some_ne_none off), fun h => ?_⟩
      exact absurd ⟨h.1, h.2.1⟩ (hlimits.mp hnone)
    · rw [if_neg hnone, Option.map_eq_some_iff]
      obtain ⟨hcommon, hgogh⟩ := not_not.mp (hlimits.not.mp hnone)
      constructor
      · rintro ⟨base, hbase, rfl⟩
        exact ⟨hcommon, hgogh, base, hbase, rfl⟩
      · rintro ⟨-, -, base, hbase, rfl⟩
        exact ⟨base, hbase, rfl⟩

/-- How many values a getter has, with so many cores. -/
def width (g : Gauge) (cores : Nat) : Nat := if g.perCore then cores else 1

/-- Two getters of a map, of which the one ends before the other begins. -/
def Apart (m : TableMap) (x y : Gauge × Nat) : Prop :=
  x.2 / 4 + x.1.width m.cores ≤ y.2 / 4 ∨ y.2 / 4 + y.1.width m.cores ≤ x.2 / 4

instance (m : TableMap) (x y : Gauge × Nat) : Decidable (Apart m x y) :=
  inferInstanceAs (Decidable (_ ∨ _))

theorem maps_apart : tableMaps.all (fun c => c.2.starts.all fun x => c.2.starts.all fun y =>
    x.1 = y.1 ∨ c.1 = [0x3F0000] ∧ x.1.Clocks y.1 ∨ Apart c.2 x y) = true := by
  decide +kernel

/-- The powers go up to the volts, and the volts up to the temperatures. -/
theorem maps_contiguous : tableMaps.all (fun c =>
    (c.2.starts.lookup .corePower).all fun power => (c.2.starts.lookup .coreVolt).all fun volt =>
      (c.2.starts.lookup .coreTemp).all fun temp =>
        volt = power + 4 * c.2.cores ∧ temp = volt + 4 * c.2.cores) = true := by
  decide +kernel

end Gauge

section Quantities
variable {ry : RyzenAccess} {p q : Quantity}

/-- A quantity of the map that the getter lets through, in a table that goes so far. -/
structure Quantity.At (ry : RyzenAccess) (q : Quantity) (m : TableMap) (base : Nat) : Prop where
  map : tableMap ry.tableVer = some m
  start : m.starts.lookup q.gauge = some base
  common : q.core.toNat ≤ 15
  vanGogh : ¬(ry.tableVer = 0x3F0000 ∧ 4 ≤ q.core.toNat)
  loaded : ry.tableValues.isSome = true
  room : base + q.core.toNat * 4 + 4 ≤ ry.tableSize

theorem Quantity.At.cell {m : TableMap} {base : Nat} (h : q.At ry m base) :
    q.cell ry = some (base / 4 + q.core.toNat) := by
  refine cell_eq_some.mpr ⟨base + q.core.toNat * 4, ?_, h.loaded, h.room, by omega⟩
  refine (Gauge.offset_eq_some q.single _).mpr ⟨h.common, h.vanGogh, base, ?_, rfl⟩
  rw [Gauge.start_eq, h.map]
  exact h.start

theorem Quantity.at_of_cell {i : Nat} (h : q.cell ry = some i) :
    ∃ m base, q.At ry m base ∧ i = base / 4 + q.core.toNat := by
  obtain ⟨off, hoff, hloaded, hroom, rfl⟩ := cell_eq_some.mp h
  obtain ⟨hcommon, hgogh, base, hstart, rfl⟩ := (Gauge.offset_eq_some q.single _).mp hoff
  rw [Gauge.start_eq] at hstart
  obtain ⟨m, hmap, hlookup⟩ := Option.bind_eq_some_iff.mp hstart
  exact ⟨m, base, ⟨hmap, hlookup, hcommon, hgogh, hloaded, hroom⟩, by omega⟩

theorem tableMap_checked {f : List Word × TableMap → Bool} (h : tableMaps.all f = true)
    {ver : Word} {m : TableMap} (hmap : tableMap ver = some m) :
    ∃ labels, ver ∈ labels ∧ f (labels, m) = true := by
  obtain ⟨labels, hmem, hver⟩ := switchOn_label hmap
  exact ⟨labels, hver, List.all_eq_true.mp h _ hmem⟩

/-- The cores of a layout, from where the getters read. -/
theorem layoutCores_spec {ver : Word} {power volt temp : Nat}
    (hpower : Gauge.corePower.start ver = some power) (hvolt : Gauge.coreVolt.start ver = some volt)
    (htemp : Gauge.coreTemp.start ver = some temp) :
    volt = power + 4 * layoutCores ver ∧ temp = volt + 4 * layoutCores ver := by
  rw [Gauge.start_eq] at hpower hvolt htemp
  obtain ⟨m, hmap, hpower⟩ := Option.bind_eq_some_iff.mp hpower
  rw [hmap, Option.bind_some] at hvolt htemp
  obtain ⟨labels, -, hcontiguous⟩ := tableMap_checked Gauge.maps_contiguous hmap
  simp only [hpower, hvolt, htemp, Option.all_some, decide_eq_true_eq] at hcontiguous
  rw [layoutCores, hmap]
  exact hcontiguous

theorem Quantity.At.core_lt {m : TableMap} {base : Nat} (h : q.At ry m base)
    (hreach : ¬Overreach ry q) : q.core.toNat < m.cores := by
  by_contra hbeyond
  have hbeyond := Nat.not_lt.mp hbeyond
  by_cases hgogh : ry.tableVer = 0x3F0000
  · have hmap := h.map
    rw [hgogh] at hmap
    have hcores : (tableMap 0x3F0000).map TableMap.cores = some 4 := by decide +kernel
    rw [hmap] at hcores
    have hfour : m.cores = 4 := Option.some.inj hcores
    exact h.vanGogh ⟨hgogh, hfour ▸ hbeyond⟩
  · exact hreach ⟨h.loaded, hgogh, h.common, m, base, h.map, h.start, hbeyond, h.room⟩

theorem Quantity.inLayout_of_reach (h : ¬Overreach ry q) : q.InLayout ry := by
  intro hbeyond
  have hcell : q.cell ry = none := by
    apply Option.eq_none_iff_forall_ne_some.mpr
    intro i hi
    obtain ⟨m, base, hat, -⟩ := Quantity.at_of_cell hi
    have hlt := hat.core_lt h
    rw [layoutCores, hat.map] at hbeyond
    exact absurd hlt (Nat.not_lt.mpr hbeyond)
  refine ⟨hcell, ?_⟩
  rw [Quantity.read_eq, hcell]
  rfl

theorem Overreach.not_inLayout (h : Overreach ry q) : ¬q.InLayout ry := by
  obtain ⟨hloaded, hgogh, hcommon, m, base, hmap, hstart, hbeyond, hroom⟩ := h
  have hat : q.At ry m base := ⟨hmap, hstart, hcommon, fun hv => hgogh hv.1, hloaded, hroom⟩
  intro hin
  have hcores : layoutCores ry.tableVer = m.cores := by
    rw [layoutCores, hmap]
    rfl
  have hnone := (hin (hcores ▸ hbeyond)).1
  rw [hat.cell] at hnone
  exact absurd hnone (Option.some_ne_none _)

theorem Quantity.At.core_lt_width {m : TableMap} {base : Nat} (h : q.At ry m base)
    (hreach : ¬Overreach ry q) : q.core.toNat < q.gauge.width m.cores := by
  unfold Gauge.width
  split
  · exact h.core_lt hreach
  · rename_i hcore
    rw [q.single (Bool.eq_false_iff.mpr hcore)]
    exact Nat.zero_lt_one

theorem Quantity.At.mem {m : TableMap} {base : Nat} (h : q.At ry m base) :
    (q.gauge, base) ∈ m.starts := by
  obtain ⟨before, after, hstarts, -⟩ := List.lookup_eq_some_iff.mp h.start
  rw [hstarts]
  exact List.mem_append_right _ (List.mem_cons_self ..)

theorem Quantity.At.fclk_room {m : TableMap} {base : Nat} (h : q.At ry m base)
    (hver : ry.tableVer = 0x3F0000) (hq : q.gauge = .fclk) : 0x3C5 + 4 ≤ ry.tableSize := by
  have hmap := h.map
  have hstart := h.start
  have hbase : (tableMap 0x3F0000).bind (·.starts.lookup .fclk) = some 0x3C5 := by decide +kernel
  rw [hver] at hmap
  rw [hq] at hstart
  rw [hmap, Option.bind_some, hstart] at hbase
  cases hbase
  have := h.room
  omega

/-- Cells of different quantities of the layout are different, but for the two clocks. -/
theorem cells_apart (hpq : p ≠ q) (hp : ¬Overreach ry p) (hq : ¬Overreach ry q)
    (hclash : ¬ClockClash ry p q) {i j : Nat} (hi : p.cell ry = some i) (hj : q.cell ry = some j) :
    i ≠ j := by
  obtain ⟨m, base, hat, rfl⟩ := Quantity.at_of_cell hi
  obtain ⟨m', base', hat', rfl⟩ := Quantity.at_of_cell hj
  obtain rfl : m = m' := Option.some.inj (hat.map.symm.trans hat'.map)
  have hlt := hat.core_lt_width hp
  have hlt' := hat'.core_lt_width hq
  obtain ⟨labels, hver, hall⟩ := tableMap_checked Gauge.maps_apart hat.map
  have hpair := List.all_eq_true.mp (List.all_eq_true.mp hall _ hat.mem) _ hat'.mem
  rcases of_decide_eq_true hpair with hgauge | ⟨rfl, hclocks⟩ | hapart
  · have hbase : base = base' := by
      have hstart := hat.start
      rw [show p.gauge = q.gauge from hgauge] at hstart
      exact Option.some.inj (hstart.symm.trans hat'.start)
    have hcore : p.core.toNat ≠ q.core.toNat := fun heq =>
      hpq (Quantity.ext hgauge (BitVec.eq_of_toNat_eq heq))
    omega
  · have hgogh : ry.tableVer = 0x3F0000 := List.mem_singleton.mp hver
    refine absurd ⟨hat.loaded, hgogh, ?_, hclocks⟩ hclash
    rcases hclocks with ⟨hfclk, -⟩ | ⟨-, hfclk⟩
    · exact hat.fclk_room hgogh hfclk
    · exact hat'.fclk_room hgogh hfclk
  · rcases hapart with hbefore | hafter
    · simp only at hbefore
      omega
    · simp only at hafter
      omega

/-- The two clocks share a cell. -/
theorem ClockClash.same_cell (h : ClockClash ry p q) :
    ∃ i, p.cell ry = some i ∧ q.cell ry = some i := by
  obtain ⟨hloaded, hver, hroom, hclocks⟩ := h
  have hfclk : ∀ x : Quantity, x.gauge = .fclk → x.cell ry = some 241 := by
    intro x hx
    refine Quantity.cell_eq_some.mpr ⟨0x3C5, ?_, hloaded, hroom, by decide⟩
    rw [x.single (by rw [hx]; rfl), hx, hver]
    decide +kernel
  have hmem : ∀ x : Quantity, x.gauge = .memClk → x.cell ry = some 241 := by
    intro x hx
    refine Quantity.cell_eq_some.mpr ⟨0x3C4, ?_, hloaded, by omega, by decide⟩
    rw [x.single (by rw [hx]; rfl), hx, hver]
    decide +kernel
  rcases hclocks with ⟨hp, hq⟩ | ⟨hp, hq⟩
  · exact ⟨241, hfclk p hp, hmem q hq⟩
  · exact ⟨241, hmem p hp, hfclk q hq⟩

end Quantities

/-- Two quantities are kept apart exactly if none of them is a core number beyond the layout
whose place is in the table, and they are not the two clocks of Van Gogh. -/
theorem telemetry_unaliased (ry : RyzenAccess) (p q : Quantity) (hpq : p ≠ q) :
    Unaliased ry p q ↔ ¬Overreach ry p ∧ ¬Overreach ry q ∧ ¬ClockClash ry p q := by
  constructor
  · intro h
    refine ⟨fun hp => hp.not_inLayout h.inLayout.1, fun hq => hq.not_inLayout h.inLayout.2, ?_⟩
    intro hclash
    obtain ⟨i, hi, hj⟩ := hclash.same_cell
    exact h.cells i i hi hj rfl
  · rintro ⟨hp, hq, hclash⟩
    have hcells : ∀ i j, p.cell ry = some i → q.cell ry = some j → i ≠ j :=
      fun _ _ hi hj => cells_apart hpq hp hq hclash hi hj
    constructor
    · exact hcells
    · exact fun i w hi => Quantity.read_withCell (fun j hj => hcells i j hi hj) w
    · exact fun j w hj => Quantity.read_withCell (fun i hi => (hcells i j hi hj).symm) w
    · exact ⟨Quantity.inLayout_of_reach hp, Quantity.inLayout_of_reach hq⟩

def blankTable (ver : Word) (size : Nat) : RyzenAccess :=
  { ravenHandle with
    tableVer := ver
    tableSize := size
    tableValues := some (List.replicate size 0) }

theorem telemetry_unaliased_renoir :
    Unaliased (blankTable 0x370003 0x8AC) ⟨.corePower, 7, fun h => absurd h (by decide)⟩
      ⟨.coreVolt, 0, fun _ => rfl⟩ := by
  have hreach : ∀ q : Quantity, q.core.toNat < 8 → ¬Overreach (blankTable 0x370003 0x8AC) q := by
    rintro q hq ⟨-, -, -, m, base, hmap, -, hbeyond, -⟩
    have hcores : (tableMap 0x370003).map TableMap.cores = some 8 := by decide +kernel
    have hmap : tableMap 0x370003 = some m := hmap
    rw [hmap] at hcores
    have hm : m.cores = 8 := Option.some.inj hcores
    omega
  refine (telemetry_unaliased _ _ _ fun h => ?_).mpr
    ⟨hreach _ (by decide), hreach _ (by decide), fun h => ?_⟩
  · exact absurd (congrArg Quantity.gauge h) (by decide)
  · exact absurd h.2.1 (by decide)

/-- What the memory clock of Van Gogh shows changes with the fabric clock, and the power of core
12 of Strix Point is the voltage of core 0. -/
theorem fabric_clock_is_memory_clock :
    (∃ (p q : Quantity) (i : Nat) (w : Word), p ≠ q ∧ p.cell (blankTable 0x3F0000 0x7AC) = some i ∧
      q.cell (blankTable 0x3F0000 0x7AC) = some i ∧
      q.read ((blankTable 0x3F0000 0x7AC).withCell i w) ≠ q.read (blankTable 0x3F0000 0x7AC)) ∧
    ∃ (p q : Quantity) (i : Nat), p ≠ q ∧ layoutCores 0x5D0008 ≤ p.core.toNat ∧
      p.cell (blankTable 0x5D0008 0xD54) = some i ∧
      q.cell (blankTable 0x5D0008 0xD54) = some i := by
  refine ⟨⟨⟨.fclk, 0, fun _ => rfl⟩, ⟨.memClk, 0, fun _ => rfl⟩, 241, 0x44E10000, ?_⟩,
    ⟨.corePower, 12, fun h => absurd h (by decide)⟩, ⟨.coreVolt, 0, fun _ => rfl⟩, 642, ?_⟩
  · refine ⟨fun h => ?_, by decide +kernel, by decide +kernel, by decide +kernel⟩
    exact absurd (congrArg Quantity.gauge h) (by decide)
  · refine ⟨fun h => ?_, by decide +kernel, by decide +kernel, by decide +kernel⟩
    exact absurd (congrArg Quantity.gauge h) (by decide)

end RyzenAdj
