import RyzenAdj.Api.Session
import RyzenAdj.Interaction.Schedule
import RyzenAdj.Linux.Mem

/-!
# Handles and the shared window (`lib/linux/osdep_linux_mem.c`)

Without the driver all handles of a process read the PM table through one
mapping. What a sequence of calls on other handles leaves of it, and what a
refresh of a handle sees through it.
-/

namespace RyzenAdj
open Interaction Api

/-- Two windows are the same for a handle: they start at the same address and have room
for its comparison and for its table, or lack it, alike. -/
structure SameView (ry : RyzenAccess) (m m' : PhyMap) : Prop where
  ptr : phyTablePtr m = phyTablePtr m'
  compare : phyTableAvail m < 6 * 4 ↔ phyTableAvail m' < 6 * 4
  copy : phyTableAvail m < ry.tableSize ↔ phyTableAvail m' < ry.tableSize

instance (ry : RyzenAccess) (m m' : PhyMap) : Decidable (SameView ry m m') :=
  decidable_of_iff (phyTablePtr m = phyTablePtr m' ∧
    (phyTableAvail m < 6 * 4 ↔ phyTableAvail m' < 6 * 4) ∧
    (phyTableAvail m < ry.tableSize ↔ phyTableAvail m' < ry.tableSize))
    ⟨fun h => ⟨h.1, h.2.1, h.2.2⟩, fun h => ⟨h.ptr, h.compare, h.copy⟩⟩

theorem SameView.refl (ry : RyzenAccess) (m : PhyMap) : SameView ry m m := ⟨rfl, .rfl, .rfl⟩

/-- What the outside contributes to a refresh without the driver: the mapping and what the
SMU answers. -/
structure MemWorld where
  window : PhyMap
  smu : Stream' (Word × Args)

def MemWorld.answer (phys : Nat → Byte) (w : MemWorld) :
    (o : Api.Op) → Option (Api.Ret o) × MemWorld
  | .smuServiceReq _ _ _ => (some w.smu.head, { w with smu := w.smu.tail })
  | .isUsingSmuDriver => (some false, w)
  | .copyPmTable _ size => (some (copyPmTableMem w.window phys size), w)
  | .comparePmTable buffer => (some (comparePmTableMem w.window phys buffer), w)
  | .sleep _ => (some (), w)
  | .initMemObj _ _ _ | .calloc _ | .getSmu _ _ | .cpuidGetFamily | .initOsAccessObj
  | .freeOsAccessObj _ | .malloc | .undefined => (none, w)

/-- No release of the shared mapping: no `cleanup_ryzenadj`, and no `init_ryzenadj` that
fails after it has made its access object. -/
def LibCall.Quiet : LibCall → Prop
  | .init i => i.family = .unknown ∨ i.allocated = false ∨ i.access = none ∨
    (i.mp1Found && i.psmuFound) = true
  | .cleanup _ => False
  | .on _ _ => True

section Between
variable {depth pgsz : Nat} {phys : Nat → Byte} {ry : RyzenAccess} {m m₁ : PhyMap}

end Between

end RyzenAdj
