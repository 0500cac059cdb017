import Mathlib.Algebra.Group.Nat.Even
import Mathlib.Order.Bounds.Basic
import RyzenAdj.Linux.Mem

/-!
# The mapped window

The three statics of `osdep_linux_mem.c` over any sequence of calls, beside what
the kernel has mapped for the process: what a copy or a comparison reads, and
the range `init_mem_obj_mem` maps for a table.
-/

namespace RyzenAdj

structure Mapping where
  base : Nat
  len : Nat
  deriving DecidableEq, Repr

/-- The range `init_mem_obj_mem` maps. -/
def phyMapping (pgsz : Nat) (physAddr : BitVec 64) (size : Nat) : Mapping :=
  ⟨(phyWindow pgsz physAddr size).1, (phyWindow pgsz physAddr size).2.2⟩

/-- The statics over a mapping. -/
def Mapping.window (r : Mapping) (offset : Nat) : PhyMap := ⟨some r.base, r.len, offset⟩

inductive MemOp where
  | init (physAddr : BitVec 64) (size : Nat) (outcome : MapOutcome)
  | copy (size : Nat)
  | compare (buffer : List Byte)
  | free

/-- The statics; the ranges that are mapped; and address and size of the last
`init_mem_obj_mem`, if it succeeded and no `free_os_access_obj_mem` came after it. -/
structure MemRun where
  window : PhyMap
  mappings : List Mapping
  request : Option (BitVec 64 × Nat)

namespace MemRun

def initial : MemRun := ⟨.initial, [], none⟩

def unmapped (s : MemRun) : List Mapping :=
  match s.window.phyMap with
  | none => s.mappings
  | some base => s.mappings.erase ⟨base, s.window.phyMapLen⟩

def step (pgsz : Nat) (s : MemRun) : MemOp → MemRun
  | .init physAddr size outcome =>
    let (ok, window) := initMemObjMem pgsz s.window outcome physAddr size
    ⟨window,
      if outcome = .mapped then phyMapping pgsz physAddr size :: s.unmapped else s.unmapped,
      if ok then some (physAddr, size) else none⟩
  | .copy _ => s
  | .compare _ => s
  | .free => ⟨freeOsAccessObjMem s.window, s.unmapped, none⟩

def run (pgsz : Nat) (ops : List MemOp) : MemRun := ops.foldl (step pgsz) initial

end MemRun

/-- Every copy and every comparison fails, whatever the memory holds. -/
structure ReadsNothing (m : PhyMap) : Prop where
  copy : ∀ n phys, copyPmTableMem m phys n = .failed n eIo
  compare : ∀ buffer phys, comparePmTableMem m phys buffer = -1

def Mapping.Holds (r : Mapping) (start n : Nat) : Prop :=
    r.base ≤ start ∧ start + n ≤ r.base + r.len

/-- Every copy and every comparison reads from `start` on and within the mapping, or fails,
whatever the memory holds. -/
structure ReadsWithin (m : PhyMap) (r : Mapping) (start : Nat) : Prop where
  copy : ∀ n, (∀ phys, copyPmTableMem m phys n = .failed n eIo) ∨
    r.Holds start n ∧ ∀ phys, copyPmTableMem m phys n = .copied phys start n
  compare : ∀ buffer : List Byte, (∀ phys, comparePmTableMem m phys buffer = -1) ∨
    r.Holds start buffer.length ∧
      ∀ phys, comparePmTableMem m phys buffer = memcmp buffer (physBytes phys start buffer.length)

/-- The range for a table: whole pages, and no more of them than it takes, the sum that is
rounded to them being below 2^64. -/
structure Mapping.Fits (r : Mapping) (pgsz start size : Nat) : Prop where
  aligned : pgsz ∣ r.base
  base_le : r.base ≤ start
  least : IsLeast {len | pgsz ∣ len ∧ start + size ≤ r.base + len} r.len
  no_wrap : r.len + pgsz ≤ 2 ^ 64

structure WindowSafe (pgsz : Nat) (s : MemRun) : Prop where
  closed : s.request = none → s.mappings = [] ∧ ReadsNothing s.window
  opened : ∀ physAddr size, s.request = some (physAddr, size) → ∃ r, s.mappings = [r] ∧
    ReadsWithin s.window r physAddr.toNat ∧
    (1 ≤ size → size ≤ ryzenadjMaxTableSize → r.Fits pgsz physAddr.toNat size ∧
      ∀ n ≤ size, ∀ phys, copyPmTableMem s.window phys n = .copied phys physAddr.toNat n)

/-! ### The range that is mapped -/

/-- A mask splits a word in two. -/
theorem toNat_and_not_add (x mask : BitVec 64) :
    (x &&& ~~~mask).toNat + (x &&& mask).toNat = x.toNat := by
  have hapart : (x &&& ~~~mask) &&& (x &&& mask) = 0#64 := by
    ext i hi
    simp
    tauto
  have hsum : (x &&& ~~~mask) + (x &&& mask) = x := by
    rw [BitVec.add_eq_or_of_and_eq_zero _ _ hapart]
    ext i hi
    simp [← Bool.and_or_distrib_left]
  rw [← BitVec.toNat_add_of_and_eq_zero hapart, hsum]

theorem toNat_and_low_bits (x : BitVec 64) {k : Nat} (hk : k ≤ 64) :
    (x &&& BitVec.ofNat 64 (2 ^ k - 1)).toNat = x.toNat % 2 ^ k := by
  have hle : 2 ^ k ≤ 2 ^ 64 := Nat.pow_le_pow_right (by decide) hk
  have hpos : 0 < 2 ^ k := Nat.two_pow_pos k
  rw [BitVec.toNat_and, BitVec.toNat_ofNat, Nat.mod_eq_of_lt (by omega),
    Nat.and_two_pow_sub_one_eq_mod]

theorem phyWindow_base (physAddr : BitVec 64) {k : Nat} (hk : k ≤ 64) (size : Nat) :
    (phyWindow (2 ^ k) physAddr size).1 + physAddr.toNat % 2 ^ k = physAddr.toNat := by
  rw [← toNat_and_low_bits physAddr hk]
  exact toNat_and_not_add physAddr _

theorem phyWindow_offset (physAddr : BitVec 64) {k : Nat} (hk : k ≤ 64) (size : Nat) :
    (phyWindow (2 ^ k) physAddr size).2.1 = physAddr.toNat % 2 ^ k := by
  have hbase : (physAddr &&& ~~~(BitVec.ofNat 64 (2 ^ k - 1))).toNat + physAddr.toNat % 2 ^ k =
      physAddr.toNat := phyWindow_base physAddr hk size
  have hle : physAddr &&& ~~~(BitVec.ofNat 64 (2 ^ k - 1)) ≤ physAddr :=
    BitVec.le_def.mpr (by omega)
  show (physAddr - _).toNat = _
  rw [BitVec.toNat_sub_of_le hle]
  omega

/-- Rounding up gives the least number of whole pages that is enough. -/
theorem roundUp_isLeast {pgsz : Nat} (hpos : 0 < pgsz) (n : Nat) :
    IsLeast {len | pgsz ∣ len ∧ n ≤ len} ((n + pgsz - 1) / pgsz * pgsz) := by
  have hdiv := Nat.div_add_mod (n + pgsz - 1) pgsz
  have hmod := Nat.mod_lt (n + pgsz - 1) hpos
  rw [Nat.mul_comm] at hdiv
  refine ⟨⟨Nat.dvd_mul_left _ _, by omega⟩, ?_⟩
  rintro len ⟨⟨pages, rfl⟩, hlen⟩
  rw [Nat.mul_comm pgsz pages]
  refine Nat.mul_le_mul_right pgsz (Nat.le_of_lt_succ ?_)
  rw [Nat.div_lt_iff_lt_mul hpos, Nat.succ_mul, Nat.mul_comm]
  omega

theorem pageSize_le {sz : BitVec 64} {k : Nat} (hpow : pageSize sz = 2 ^ k) : k ≤ 62 := by
  have hlt : pageSize sz < 2 ^ 63 := by
    rw [pageSize]
    split
    · rename_i hpos
      rw [BitVec.toInt_eq_toNat_cond] at hpos
      omega
    · decide
  rw [hpow] at hlt
  exact Nat.le_of_lt_succ ((Nat.pow_lt_pow_iff_right (by decide)).mp hlt)

/-- What `init_mem_obj_mem` maps for a table that is not too large. -/
theorem phyWindow_fits (physAddr : BitVec 64) {k size : Nat} (hk : k ≤ 62) (hsize : 1 ≤ size)
    (hmax : size ≤ ryzenadjMaxTableSize) :
    (phyMapping (2 ^ k) physAddr size).Fits (2 ^ k) physAddr.toNat size := by
  have hpos : 0 < 2 ^ k := Nat.two_pow_pos k
  have hbase := phyWindow_base physAddr (Nat.le_trans hk (by decide)) size
  have hoffset := phyWindow_offset physAddr (Nat.le_trans hk (by decide)) size
  have hlen : (phyMapping (2 ^ k) physAddr size).len =
      (physAddr.toNat % 2 ^ k + size + 2 ^ k - 1) / 2 ^ k * 2 ^ k := by
    rw [← hoffset]
    simp only [phyMapping, phyWindow, if_pos (And.intro (Nat.ne_of_gt hsize) hmax)]
  have hleast := roundUp_isLeast hpos (physAddr.toNat % 2 ^ k + size)
  have hstart : (phyMapping (2 ^ k) physAddr size).base + physAddr.toNat % 2 ^ k =
      physAddr.toNat := hbase
  refine ⟨⟨physAddr.toNat / 2 ^ k, ?_⟩, by omega, ?_, ?_⟩
  · have := Nat.div_add_mod physAddr.toNat (2 ^ k)
    omega
  · have hset : {len | 2 ^ k ∣ len ∧ physAddr.toNat + size ≤
        (phyMapping (2 ^ k) physAddr size).base + len} =
        {len | 2 ^ k ∣ len ∧ physAddr.toNat % 2 ^ k + size ≤ len} := by
      ext len
      simp only [Set.mem_ofPred_eq]
      omega
    rw [hset, hlen]
    exact hleast
  · have hpage : (2 : Nat) ^ k ≤ 2 ^ 62 := Nat.pow_le_pow_right (by decide) hk
    have hmod := Nat.mod_lt physAddr.toNat hpos
    have hround := Nat.div_mul_le_self (physAddr.toNat % 2 ^ k + size + 2 ^ k - 1) (2 ^ k)
    have hbound : ryzenadjMaxTableSize = 0x2000 := rfl
    simp only [hlen]
    omega

/-! ### What is read -/

theorem phyTableAvail_window (r : Mapping) {offset : Nat} (h : offset ≤ r.len) :
    phyTableAvail (r.window offset) = r.len - offset := if_neg (Nat.not_lt.mpr h)

section Window
variable {r : Mapping} {offset : Nat} (h : offset ≤ r.len)
include h

theorem copyPmTableMem_holds {n : Nat} (hn : r.Holds (r.base + offset) n) (phys : Nat → Byte) :
    copyPmTableMem (r.window offset) phys n = .copied phys (r.base + offset) n := by
  have hroom : ¬phyTableAvail (r.window offset) < n := by
    rw [phyTableAvail_window r h]
    have := hn.2
    omega
  exact if_neg hroom

theorem copyPmTableMem_fails {n : Nat} (hn : ¬r.Holds (r.base + offset) n) (phys : Nat → Byte) :
    copyPmTableMem (r.window offset) phys n = .failed n eIo := by
  have hroom : phyTableAvail (r.window offset) < n := by
    rw [phyTableAvail_window r h]
    by_contra hle
    exact hn ⟨Nat.le_add_right _ _, by omega⟩
  exact if_pos hroom

theorem readsWithin_window : ReadsWithin (r.window offset) r (r.base + offset) := by
  constructor
  · intro n
    by_cases hn : r.Holds (r.base + offset) n
    · exact .inr ⟨hn, copyPmTableMem_holds h hn⟩
    · exact .inl (copyPmTableMem_fails h hn)
  · intro buffer
    by_cases hroom : phyTableAvail (r.window offset) < buffer.length
    · exact .inl fun _ => if_pos hroom
    · refine .inr ⟨⟨Nat.le_add_right _ _, ?_⟩, fun _ => if_neg hroom⟩
      rw [phyTableAvail_window r h] at hroom
      omega

end Window

theorem readsNothing_unmapped : ReadsNothing ⟨none, 0, 0⟩ := ⟨fun _ _ => rfl, fun _ _ => rfl⟩

/-! ### Runs -/

theorem phyWindow_offset_le (pgsz : Nat) (hpos : 0 < pgsz) (physAddr : BitVec 64) (size : Nat) :
    (phyWindow pgsz physAddr size).2.1 ≤ (phyMapping pgsz physAddr size).len := by
  have hleast := roundUp_isLeast hpos ((phyWindow pgsz physAddr size).2.1 +
    if size ≠ 0 ∧ size ≤ ryzenadjMaxTableSize then size else ryzenadjMaxTableSize)
  exact Nat.le_trans (Nat.le_add_right _ _) hleast.1.2

/-- The statics and the mapping go together: nothing is mapped and no request is in force, or
one range is mapped, that of the request. -/
structure MemInv (pgsz : Nat) (s : MemRun) : Prop where
  closed : s.request = none → s.mappings = [] ∧ s.window = ⟨none, 0, 0⟩
  opened : ∀ physAddr size, s.request = some (physAddr, size) →
    s.mappings = [phyMapping pgsz physAddr size] ∧
    s.window = (phyMapping pgsz physAddr size).window (phyWindow pgsz physAddr size).2.1

theorem MemInv.unmapped_nil {pgsz : Nat} {s : MemRun} (h : MemInv pgsz s) : s.unmapped = [] := by
  cases hreq : s.request with
  | none =>
    obtain ⟨hmappings, hwindow⟩ := h.closed hreq
    rw [MemRun.unmapped, hwindow]
    exact hmappings
  | some request =>
    obtain ⟨hmappings, hwindow⟩ := h.opened _ _ hreq
    rw [MemRun.unmapped, hwindow, hmappings]
    exact List.erase_cons_head _ _

theorem MemInv.nothing (pgsz : Nat) : MemInv pgsz ⟨⟨none, 0, 0⟩, [], none⟩ :=
  ⟨fun _ => ⟨rfl, rfl⟩, fun _ _ hreq => absurd hreq.symm (Option.some_ne_none _)⟩

theorem MemInv.step {pgsz : Nat} {s : MemRun} (h : MemInv pgsz s) (op : MemOp) :
    MemInv pgsz (s.step pgsz op) := by
  cases op with
  | init physAddr size outcome =>
    cases outcome with
    | openFailed =>
      simpa [MemRun.step, initMemObjMem, unmapPhy, h.unmapped_nil] using .nothing pgsz
    | mmapFailed =>
      simpa [MemRun.step, initMemObjMem, unmapPhy, h.unmapped_nil] using .nothing pgsz
    | mapped =>
      refine ⟨fun hreq => absurd hreq (Option.some_ne_none _), fun physAddr' size' hreq => ?_⟩
      cases hreq
      refine ⟨?_, rfl⟩
      show _ :: s.unmapped = _
      rw [h.unmapped_nil]
  | copy n => exact h
  | compare buffer => exact h
  | free => simpa [MemRun.step, freeOsAccessObjMem, unmapPhy, h.unmapped_nil] using .nothing pgsz

theorem memInv_run (pgsz : Nat) (ops : List MemOp) : MemInv pgsz (MemRun.run pgsz ops) := by
  have hfold : ∀ s, MemInv pgsz s → MemInv pgsz (ops.foldl (MemRun.step pgsz) s) := by
    induction ops with
    | nil => exact fun _ h => h
    | cons op ops ih => exact fun s h => ih _ (h.step op)
  exact hfold _ (.nothing pgsz)

/-- Whatever the page size the process is given, in every state any calls lead to copies and
comparisons read the requested table within the mapping or nothing at all. -/
theorem window_safe (sz : BitVec 64) (hpow : ∃ k, pageSize sz = 2 ^ k) (ops : List MemOp) :
    WindowSafe (pageSize sz) (MemRun.run (pageSize sz) ops) := by
  obtain ⟨k, hk⟩ := hpow
  have hle := pageSize_le hk
  rw [hk]
  have hinv := memInv_run (2 ^ k) ops
  constructor
  · intro hreq
    obtain ⟨hmappings, hwindow⟩ := hinv.closed hreq
    exact ⟨hmappings, hwindow ▸ readsNothing_unmapped⟩
  · intro physAddr size hreq
    obtain ⟨hmappings, hwindow⟩ := hinv.opened _ _ hreq
    have hoffset := phyWindow_offset_le (2 ^ k) (Nat.two_pow_pos k) physAddr size
    have hstart : (phyMapping (2 ^ k) physAddr size).base +
        (phyWindow (2 ^ k) physAddr size).2.1 = physAddr.toNat := by
      rw [phyWindow_offset physAddr (Nat.le_trans hle (by decide))]
      exact phyWindow_base physAddr (Nat.le_trans hle (by decide)) size
    refine ⟨_, hmappings, ?_, fun hsize hmax => ?_⟩
    · rw [hwindow, ← hstart]
      exact readsWithin_window hoffset
    · have hfits := phyWindow_fits physAddr hle hsize hmax
      refine ⟨hfits, fun n hn phys => ?_⟩
      have hcover := hfits.least.1.2
      rw [hwindow, ← hstart]
      refine copyPmTableMem_holds hoffset ⟨Nat.le_add_right _ _, ?_⟩ phys
      omega

/-- A table over a page boundary, on pages of 4 KiB. -/
theorem window_safe_crossing :
    (∃ k, pageSize 4096 = 2 ^ k) ∧ WindowSafe (pageSize 4096) (MemRun.run (pageSize 4096)
      [.init 0x7FFF0 0x64C .mmapFailed, .copy 24, .init 0x7FFF0 0x64C .mapped, .copy 24]) := by
  have hpow : ∃ k, pageSize 4096 = 2 ^ k := ⟨12, by decide⟩
  exact ⟨hpow, window_safe 4096 hpow _⟩

end RyzenAdj
