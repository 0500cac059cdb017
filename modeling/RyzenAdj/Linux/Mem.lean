import RyzenAdj.Linux.System

/-!
# The `/dev/mem` backend (`lib/linux/osdep_linux_mem.c`)

SMN registers through the PCI index/data pair, and the PM table through one
process-wide mapping of physical memory.
-/

namespace RyzenAdj
open Interaction Sys

def nbPciRegAddrAddr : Nat := 0xB8
def nbPciRegDataAddr : Nat := 0xBC

def initOsAccessObjMem : Prog sys (Option MemObj) := do
  let allocated ← malloc
  if !allocated then return none
  match ← pciAlloc with
  | none => return none
  | some pciAcc =>
    match ← pciGetDev pciAcc with
    | none => return none
    | some pciDev => return some ⟨pciAcc, pciDev⟩

def smnRegReadMem (o : MemObj) (addr : Word) : Prog sys Word := do
  let selected ← pciWriteLong o.pciDev nbPciRegAddrAddr (addr &&& ~~~(3 : Word))
  if !selected then smnIoSetError
  pciReadLong o.pciDev nbPciRegDataAddr

def smnRegWriteMem (o : MemObj) (addr data : Word) : Prog sys Unit := do
  let selected ← pciWriteLong o.pciDev nbPciRegAddrAddr addr
  if !selected then
    smnIoSetError
    return ()
  let written ← pciWriteLong o.pciDev nbPciRegDataAddr data
  if written then return () else smnIoSetError

/-- `page_size`, over what `sysconf` returns. -/
def pageSize (sz : BitVec 64) : Nat := if 0 < sz.toInt then sz.toNat else 4096

/-- The statics `phy_map`, `phy_map_len` and `phy_map_offset`. The base is kept as
the physical address behind the first mapped byte; `none` is `MAP_FAILED`. -/
structure PhyMap where
  phyMap : Option Nat
  phyMapLen : Nat
  phyMapOffset : Nat
  deriving DecidableEq, Repr

def PhyMap.initial : PhyMap := ⟨none, 0, 0⟩

def unmapPhy (_ : PhyMap) : PhyMap := ⟨none, 0, 0⟩

/-- `phy_table_ptr`, as the physical address it points to. -/
def phyTablePtr (m : PhyMap) : Option Nat := m.phyMap.map (· + m.phyMapOffset)

def phyTableAvail (m : PhyMap) : Nat :=
  match m.phyMap with
  | none => 0
  | some _ => if m.phyMapLen < m.phyMapOffset then 0 else m.phyMapLen - m.phyMapOffset

/-- What opening and mapping `/dev/mem` comes to. -/
inductive MapOutcome where
  | openFailed
  | mmapFailed
  | mapped
  deriving DecidableEq, Repr

/-- The window `init_mem_obj_mem` asks for: page-aligned base, offset of the
table in it, length. -/
def phyWindow (pgsz : Nat) (physAddr : BitVec 64) (size : Nat) : Nat × Nat × Nat :=
  let aligned := physAddr &&& ~~~(BitVec.ofNat 64 (pgsz - 1))
  let offset := (physAddr - aligned).toNat
  let want := if size ≠ 0 ∧ size ≤ ryzenadjMaxTableSize then size else ryzenadjMaxTableSize
  (aligned.toNat, offset, ((offset + want + pgsz - 1) / pgsz) * pgsz)

/-- `init_mem_obj_mem`: true is the return value 0. -/
def initMemObjMem (pgsz : Nat) (m : PhyMap) (outcome : MapOutcome) (physAddr : BitVec 64)
    (size : Nat) : Bool × PhyMap :=
  let (aligned, offset, len) := phyWindow pgsz physAddr size
  let m := unmapPhy m
  match outcome with
  | .openFailed => (false, m)
  | .mmapFailed => (false, m)
  | .mapped => (true, ⟨some aligned, len, offset⟩)

/-- `free_os_access_obj_mem`; releasing the libpci objects has no effect that is kept here. -/
def freeOsAccessObjMem (m : PhyMap) : PhyMap := unmapPhy m

def physBytes (phys : Nat → Byte) (start n : Nat) : List Byte :=
  (List.range n).map fun i => phys (start + i)

@[simp] theorem physBytes_length (phys : Nat → Byte) (start n : Nat) :
    (physBytes phys start n).length = n := by
  simp [physBytes]

def copyPmTableMem (m : PhyMap) (phys : Nat → Byte) (size : Nat) : Transfer size :=
  match phyTablePtr m with
  | none => .failed size eIo
  | some src =>
    if phyTableAvail m < size then
      .failed size eIo
    else
      ⟨physBytes phys src size, none, by simp, fun _ => by simp⟩

/-- The `memcpy` of `n` bytes from the physical address. -/
def Transfer.copied (phys : Nat → Byte) (start n : Nat) : Transfer n :=
  ⟨physBytes phys start n, none, by simp, fun _ => by simp⟩

/-- A copy is all of the table or nothing of it. -/
theorem copyPmTableMem_cases (m : PhyMap) (phys : Nat → Byte) (size : Nat) :
    copyPmTableMem m phys size = .failed size eIo ∨
      ∃ src, phyTablePtr m = some src ∧ size ≤ phyTableAvail m ∧
        copyPmTableMem m phys size = .copied phys src size := by
  cases hptr : phyTablePtr m with
  | none => simp [copyPmTableMem, hptr]
  | some src =>
    by_cases hroom : phyTableAvail m < size
    · simp [copyPmTableMem, hptr, hroom]
    · simp [copyPmTableMem, hptr, hroom, Transfer.copied, Nat.not_lt.mp hroom]

def memcmp : List Byte → List Byte → Int
  | a :: as, b :: bs => if a = b then memcmp as bs else if a < b then -1 else 1
  | _, _ => 0

theorem memcmp_self (l : List Byte) : memcmp l l = 0 := by
  induction l with
  | nil => rfl
  | cons a l ih => rw [memcmp, if_pos rfl, ih]

def comparePmTableMem (m : PhyMap) (phys : Nat → Byte) (buffer : List Byte) : Int :=
  match phyTablePtr m with
  | none => -1
  | some src =>
    if phyTableAvail m < buffer.length then -1
    else memcmp buffer (physBytes phys src buffer.length)

end RyzenAdj
