import Mathlib.Data.Stream.Defs
import RyzenAdj.Api.Getters

/-!
# Runs of the table functions

The table functions of one handle against arbitrary outcomes: every answer of
the SMU, mapping, allocation, comparison and copy is an input. What each
function can do is said once, by an inductive over its exits.
-/

namespace RyzenAdj
open Interaction Api

/-- The inputs of a library call, in the order in which the call takes them.
`copies` is a ghost: the copies completed into the current buffer, newest first. -/
structure World where
  smu : Stream' (Word × Args)
  mapped : Stream' Bool
  allocated : Stream' Bool
  compared : Stream' Int
  copied : Stream' ((size : Nat) → Transfer size)
  copies : List (List Byte)

def World.answer (driver : Bool) (w : World) : (o : Api.Op) → Option (Api.Ret o) × World
  | .smuServiceReq _ _ _ => (some w.smu.head, { w with smu := w.smu.tail })
  | .isUsingSmuDriver => (some driver, w)
  | .initMemObj _ _ _ => (some w.mapped.head, { w with mapped := w.mapped.tail })
  | .copyPmTable _ size =>
    let t := w.copied.head size
    (some t, { w with
      copied := w.copied.tail
      copies := if t.error.isNone then t.data :: w.copies else w.copies })
  | .comparePmTable _ => (some w.compared.head, { w with compared := w.compared.tail })
  | .calloc _ => (some w.allocated.head, { w with allocated := w.allocated.tail, copies := [] })
  | .sleep _ => (some (), w)
  | .getSmu _ _ | .cpuidGetFamily | .initOsAccessObj | .freeOsAccessObj _ | .malloc
  | .undefined => (none, w)

section Answers
variable {α : Type} (driver : Bool)

@[simp] theorem smuServiceReq_eval (smu : Smu) (id : Word) (args : Args)
    (f : Word × Args → Prog api α) (w : World) :
    ((Api.smuServiceReq smu id args).bind f).eval (World.answer driver) w =
      (f w.smu.head).eval (World.answer driver) { w with smu := w.smu.tail } := rfl

@[simp] theorem isUsingSmuDriver_eval (f : Bool → Prog api α) (w : World) :
    (isUsingSmuDriver.bind f).eval (World.answer driver) w =
      (f driver).eval (World.answer driver) w := rfl

@[simp] theorem initMemObj_eval (obj : OsAccessObj) (physAddr : BitVec 64) (size : Nat)
    (f : Bool → Prog api α) (w : World) :
    ((initMemObj obj physAddr size).bind f).eval (World.answer driver) w =
      (f w.mapped.head).eval (World.answer driver) { w with mapped := w.mapped.tail } := rfl

@[simp] theorem copyPmTable_eval (obj : OsAccessObj) (size : Nat) (f : Transfer size → Prog api α)
    (w : World) :
    ((copyPmTable obj size).bind f).eval (World.answer driver) w =
      (f (w.copied.head size)).eval (World.answer driver)
        { w with
          copied := w.copied.tail
          copies := if (w.copied.head size).error.isNone then (w.copied.head size).data :: w.copies
            else w.copies } := rfl

@[simp] theorem comparePmTable_eval (buffer : List Byte) (f : Int → Prog api α) (w : World) :
    ((comparePmTable buffer).bind f).eval (World.answer driver) w =
      (f w.compared.head).eval (World.answer driver) { w with compared := w.compared.tail } := rfl

@[simp] theorem calloc_eval (nmemb : Nat) (f : Bool → Prog api α) (w : World) :
    ((Api.calloc nmemb).bind f).eval (World.answer driver) w =
      (f w.allocated.head).eval (World.answer driver)
        { w with allocated := w.allocated.tail, copies := [] } := rfl

@[simp] theorem sleep_eval (ms : Nat) (f : Unit → Prog api α) (w : World) :
    ((Api.sleep ms).bind f).eval (World.answer driver) w =
      (f ()).eval (World.answer driver) w := rfl

end Answers

theorem translatedSmuError_ne_zero (resp : Word) : translatedSmuError resp ≠ 0 := by
  unfold translatedSmuError
  split
  · decide
  · split <;> decide

def transferCode (resp : Word) : Int :=
  if resp ≠ repMsgOK then translatedSmuError resp else 0

theorem transferCode_eq_zero (resp : Word) : transferCode resp = 0 ↔ resp = repMsgOK := by
  have hne := translatedSmuError_ne_zero resp
  unfold transferCode
  by_cases h : resp = repMsgOK
  · simp only [h, ne_eq, not_true_eq_false, if_false]
  · simp only [h, ne_eq, not_false_eq_true, if_true, hne]

theorem transferCode_eval (driver : Bool) (resp : Word) (w : World) :
    (if resp ≠ repMsgOK then Prog.ret (S := api) (translatedSmuError resp) else Prog.ret 0).eval
      (World.answer driver) w = (some (transferCode resp), w) := by
  unfold transferCode
  by_cases h : resp = repMsgOK
  · simp only [h, ne_eq, not_true_eq_false, if_false, Prog.eval_ret]
  · simp only [h, ne_eq, not_false_eq_true, if_true, Prog.eval_ret]

/-- The answers with which `request_transfer_table` succeeds. -/
def TransferAnswered (smu : Stream' (Word × Args)) : Prop :=
  smu.head.1 = repMsgOK ∨
    (smu.head.1 = repMsgCmdRejectedPrereq ∧
      (smu.tail.head.1 = repMsgOK ∨
        (smu.tail.head.1 = repMsgCmdRejectedPrereq ∧ smu.tail.tail.head.1 = repMsgOK)))

theorem requestTransferTable_eval (driver : Bool) (ry : RyzenAccess) (w : World) :
    ∃ code smu, (requestTransferTable ry).eval (World.answer driver) w =
        (some code, { w with smu := smu }) ∧
      (code = 0 ↔ (tableFamily ry.family).isSome ∧ TransferAnswered w.smu) := by
  unfold requestTransferTable
  cases hf : tableFamily ry.family with
  | none => exact ⟨adjErrFamUnsupported, w.smu, rfl, by simp [adjErrFamUnsupported]⟩
  | some fam =>
    have hp : repMsgCmdRejectedPrereq ≠ repMsgOK := by decide
    simp only [Prog.bind_eq, Prog.pure_eq, smuServiceReq_eval, Option.isSome_some, true_and]
    by_cases h0 : w.smu.head.1 = repMsgCmdRejectedPrereq
    · by_cases h1 : w.smu.tail.head.1 = repMsgCmdRejectedPrereq
      · simp only [h0, h1, if_true, sleep_eval, smuServiceReq_eval, transferCode_eval]
        refine ⟨_, _, rfl, (transferCode_eq_zero _).trans ?_⟩
        simp only [TransferAnswered, h0, h1, hp, false_or, true_and]
      · simp only [h0, h1, if_true, if_false, sleep_eval, smuServiceReq_eval, transferCode_eval]
        refine ⟨_, _, rfl, (transferCode_eq_zero _).trans ?_⟩
        simp only [TransferAnswered, h0, h1, hp, false_or, true_and, false_and, or_false]
    · simp only [h0, if_false, transferCode_eval]
      refine ⟨_, _, rfl, (transferCode_eq_zero _).trans ?_⟩
      simp only [TransferAnswered, h0, false_and, or_false]

theorem needTransfer_eval (driver : Bool) {buf : List Byte} (hlen : 24 ≤ buf.length) (w : World) :
    ∃ need compared, (needTransfer buf).eval (World.answer driver) w =
      (some need, { w with compared := compared }) := by
  obtain ⟨first, hfirst⟩ := exists_cellAt (show 4 * 0 + 4 ≤ buf.length by omega)
  have hnot : ¬ buf.length < 6 * 4 := by omega
  unfold needTransfer
  simp only [hfirst, hnot, if_false, Prog.bind_eq, Prog.pure_eq]
  by_cases hz : isZeroFloat first = true
  · exact ⟨true, w.compared, by simp only [hz, if_true, Prog.eval_ret]⟩
  · refine ⟨decide (w.compared.head = 0), w.compared.tail, ?_⟩
    simp only [hz]
    rfl

/-- What `refresh_table` needs of the buffer: room for what it copies, the first
value, and, without the driver, the first six. -/
structure Refreshable (driver : Bool) (size : Nat) (buf : List Byte) : Prop where
  size_le : size ≤ buf.length
  first : 4 ≤ buf.length
  compared : driver = false → 24 ≤ buf.length

theorem Refreshable.of_length {driver : Bool} {size : Nat} {buf buf' : List Byte}
    (h : Refreshable driver size buf) (hlen : buf'.length = buf.length) :
    Refreshable driver size buf' := by
  constructor
  · rw [hlen]; exact h.size_le
  · rw [hlen]; exact h.first
  · rw [hlen]; exact h.compared

inductive RefreshEnd (driver : Bool) (ry : RyzenAccess) (buf : List Byte) (w : World) :
    Option (Int × RyzenAccess) × World → Prop where
  | rejected (code : Int) (smu : Stream' (Word × Args)) (compared : Stream' Int) :
      driver = false → ¬ ((tableFamily ry.family).isSome ∧ TransferAnswered w.smu) → code ≠ 0 →
      RefreshEnd driver ry buf w (some (code, ry), { w with smu := smu, compared := compared })
  | failed (smu : Stream' (Word × Args)) (compared : Stream' Int) :
      (w.copied.head ry.tableSize).error.isSome →
      RefreshEnd driver ry buf w
        (some (adjErrMemoryAccess,
          { ry with tableValues := some (overwrite buf (w.copied.head ry.tableSize).data) }),
        { w with smu := smu, compared := compared, copied := w.copied.tail })
  | done (smu : Stream' (Word × Args)) (compared : Stream' Int) :
      (w.copied.head ry.tableSize).error = none →
      RefreshEnd driver ry buf w
        (some (0,
          { ry with tableValues := some (overwrite buf (w.copied.head ry.tableSize).data) }),
        { w with
          smu := smu
          compared := compared
          copied := w.copied.tail
          copies := (w.copied.head ry.tableSize).data :: w.copies })

theorem copyTable_end {driver : Bool} {ry : RyzenAccess} {buf : List Byte} {w : World}
    (hle : ry.tableSize ≤ buf.length) (smu : Stream' (Word × Args)) (compared : Stream' Int) :
    RefreshEnd driver ry buf w
      ((copyTable ry buf).eval (World.answer driver)
        { w with smu := smu, compared := compared }) := by
  have hdata : (w.copied.head ry.tableSize).data.length ≤ buf.length :=
    Nat.le_trans (w.copied.head ry.tableSize).data_le hle
  have hstore : storeBytes buf (w.copied.head ry.tableSize).data =
      some (overwrite buf (w.copied.head ry.tableSize).data) := if_pos hdata
  unfold copyTable
  simp only [Prog.bind_eq, Prog.pure_eq, copyPmTable_eval, hstore]
  cases he : (w.copied.head ry.tableSize).error with
  | some e =>
    have hf : (w.copied.head ry.tableSize).error.isSome := by rw [he]; rfl
    exact .failed smu compared hf
  | none => exact .done smu compared he

theorem refreshTableBody_end {driver : Bool} (ry : RyzenAccess) {buf : List Byte}
    (hbuf : ry.tableValues = some buf) (hr : Refreshable driver ry.tableSize buf) (w : World) :
    RefreshEnd driver ry buf w ((refreshTableBody ry).eval (World.answer driver) w) := by
  unfold refreshTableBody
  simp only [hbuf, Prog.bind_eq, Prog.pure_eq, isUsingSmuDriver_eval]
  cases driver with
  | true => exact copyTable_end hr.size_le w.smu w.compared
  | false =>
    obtain ⟨need, compared, hneed⟩ := needTransfer_eval false (hr.compared rfl) w
    simp only [Bool.false_eq_true, if_false, Prog.eval_bind, hneed, Prog.andThen_some]
    cases need with
    | false => exact copyTable_end hr.size_le w.smu compared
    | true =>
      obtain ⟨code, smu, hcode, hzero⟩ :=
        requestTransferTable_eval false ry { w with compared := compared }
      simp only [if_true, Prog.eval_bind, hcode, Prog.andThen_some]
      by_cases h : code = 0
      · simp only [h, ne_eq, not_true_eq_false, if_false]
        exact copyTable_end hr.size_le smu compared
      · simp only [h, ne_eq, not_false_eq_true, if_true]
        exact .rejected code smu compared rfl (fun ht => h (hzero.mpr ht)) h

/-- A refresh changes nothing of the handle but the contents of its buffer. -/
theorem RefreshEnd.buffer {driver : Bool} {ry : RyzenAccess} {buf : List Byte} {w : World}
    {r : Option (Int × RyzenAccess) × World} (h : RefreshEnd driver ry buf w r)
    (hbuf : ry.tableValues = some buf) (hle : ry.tableSize ≤ buf.length) :
    ∃ code buf' w', r = (some (code, { ry with tableValues := some buf' }), w') ∧
      buf'.length = buf.length := by
  have hdata := Nat.le_trans (w.copied.head ry.tableSize).data_le hle
  cases h with
  | rejected code smu compared _ _ _ =>
    have hsame : ry = { ry with tableValues := some buf } := by rw [← hbuf]
    exact ⟨code, buf, _, by rw [← hsame], rfl⟩
  | failed smu compared _ => exact ⟨_, _, _, rfl, overwrite_length hdata⟩
  | done smu compared _ => exact ⟨_, _, _, rfl, overwrite_length hdata⟩

theorem refreshTable_of_buffer (depth : Nat) (ry : RyzenAccess) {buf : List Byte}
    (hbuf : ry.tableValues = some buf) : refreshTable (depth + 1) ry = refreshTableBody ry := by
  simp only [refreshTable, lazyInitTable, hbuf]
  rfl

inductive FillEnd (driver : Bool) (ry : RyzenAccess) (buf : List Byte) (w : World)
    (r : Option (Int × RyzenAccess) × World) : Prop where
  | once : RefreshEnd driver ry buf w r → FillEnd driver ry buf w r
  | twice (ry' : RyzenAccess) (buf' : List Byte) (w' : World) :
      RefreshEnd driver ry buf w (some (0, ry'), w') → ry'.tableValues = some buf' →
      RefreshEnd driver ry' buf' w' r → FillEnd driver ry buf w r

theorem fillTable_end (driver : Bool) (depth : Nat) (ry : RyzenAccess) {buf : List Byte}
    (hbuf : ry.tableValues = some buf) (hr : Refreshable driver ry.tableSize buf) (w : World) :
    FillEnd driver ry buf w
      ((fillTable (refreshTable (depth + 1)) ry).eval (World.answer driver) w) := by
  have h1 := refreshTableBody_end ry hbuf hr w
  obtain ⟨code, buf', w', hresult, hlen⟩ := h1.buffer hbuf hr.size_le
  unfold fillTable
  simp only [Prog.bind_eq, Prog.eval_bind, refreshTable_of_buffer depth ry hbuf]
  rw [hresult] at h1 ⊢
  simp only [Prog.andThen_some]
  by_cases hcode : code = 0
  · have hfirst : 4 ≤ buf'.length := by
      have := hr.first
      omega
    obtain ⟨first, hfirst⟩ := exists_cellAt (show 4 * 0 + 4 ≤ buf'.length from hfirst)
    simp only [hcode, ne_eq, not_true_eq_false, if_false, Option.bind_some, hfirst]
    rw [hcode] at h1
    by_cases hz : isZeroFloat first = true
    · have hr' : Refreshable driver ry.tableSize buf' := hr.of_length hlen
      simp only [hz, if_true, sleep_eval]
      rw [refreshTable_of_buffer depth { ry with tableValues := some buf' } rfl]
      exact .twice _ buf' w' h1 rfl
        (refreshTableBody_end { ry with tableValues := some buf' } rfl hr' w')
    · simp only [hz]
      exact .once h1
  · simp only [hcode, ne_eq, not_false_eq_true, if_true]
    exact .once h1

def VersionAnswered (a : Word × Args) : Prop := a.1 = repMsgOK ∧ a.2.arg0 ≠ 0

def AddrAnswered (fam : TableFamily) (a : Word × Args) : Prop :=
  a.1 = repMsgOK ∧ tableAddrOf fam a.2 ≠ 0

def RyzenAccess.withVersion (ry : RyzenAccess) (ver : Word) : RyzenAccess :=
  { ry with tableVer := ver, tableSize := tableSizeOf ver }

def RyzenAccess.withAddr (ry : RyzenAccess) (addr : BitVec 64) : RyzenAccess :=
  { ry with tableAddr := addr }

theorem requestTableVerAndSize_eval (driver : Bool) (ry : RyzenAccess) {fam : TableFamily}
    (hfam : tableFamily ry.family = some fam) (w : World) :
    ∃ code, (requestTableVerAndSize ry).eval (World.answer driver) w =
        (some (code, ry.withVersion w.smu.head.2.arg0), { w with smu := w.smu.tail }) ∧
      (code = 0 ↔ VersionAnswered w.smu.head) := by
  unfold requestTableVerAndSize VersionAnswered
  simp only [hfam, Prog.bind_eq, Prog.pure_eq, smuServiceReq_eval]
  by_cases hok : w.smu.head.1 = repMsgOK
  · by_cases hver : w.smu.head.2.arg0 = 0
    · refine ⟨adjErrSmuUnsupported, ?_, ?_⟩
      · simp only [hok, hver, ne_eq, not_true_eq_false, if_false, if_true]
        rfl
      · simp only [hver, ne_eq, not_true_eq_false, and_false, iff_false]
        decide
    · refine ⟨0, ?_, ?_⟩
      · simp only [hok, hver, ne_eq, not_true_eq_false, if_false]
        rfl
      · simp only [hok, hver, ne_eq, not_false_eq_true, and_self]
  · refine ⟨translatedSmuError w.smu.head.1, ?_, ?_⟩
    · simp only [hok, ne_eq, not_false_eq_true, if_true]
      rfl
    · simp only [hok, false_and, iff_false]
      exact translatedSmuError_ne_zero _

theorem requestTableAddr_eval (driver : Bool) (ry : RyzenAccess) {fam : TableFamily}
    (hfam : tableFamily ry.family = some fam) (w : World) :
    ∃ code, (requestTableAddr ry).eval (World.answer driver) w =
        (some (code, ry.withAddr (tableAddrOf fam w.smu.head.2)), { w with smu := w.smu.tail }) ∧
      (code = 0 ↔ AddrAnswered fam w.smu.head) := by
  unfold requestTableAddr AddrAnswered
  simp only [hfam, Prog.bind_eq, Prog.pure_eq, smuServiceReq_eval]
  by_cases hok : w.smu.head.1 = repMsgOK
  · by_cases haddr : tableAddrOf fam w.smu.head.2 = 0
    · refine ⟨adjErrSmuUnsupported, ?_, ?_⟩
      · simp only [hok, haddr, ne_eq, not_true_eq_false, if_false, if_true]
        rfl
      · simp only [haddr, ne_eq, not_true_eq_false, and_false, iff_false]
        decide
    · refine ⟨0, ?_, ?_⟩
      · simp only [hok, haddr, ne_eq, not_true_eq_false, if_false]
        rfl
      · simp only [hok, haddr, ne_eq, not_false_eq_true, and_self]
  · refine ⟨translatedSmuError w.smu.head.1, ?_, ?_⟩
    · simp only [hok, ne_eq, not_false_eq_true, if_true]
      rfl
    · simp only [hok, false_and, iff_false]
      exact translatedSmuError_ne_zero _

/-- The table size after the kmod-reported one has been considered. -/
def preferredSize (obj : OsAccessObj) (size : Nat) : Nat :=
  match obj with
  | .mem _ => size
  | .kmod o =>
    if o.pmTableSize ≠ size ∧ o.pmTableSize ≠ 0 ∧ o.pmTableSize % 4 = 0 ∧
        o.pmTableSize ≤ ryzenadjMaxTableSize then o.pmTableSize
    else size

theorem preferKmodSize_eval {α : Type} (ry : RyzenAccess) (f : RyzenAccess → Prog api α)
    (w : World) :
    ((preferKmodSize ry).bind f).eval (World.answer ry.osAccess.isKmod) w =
      (f { ry with tableSize := preferredSize ry.osAccess ry.tableSize }).eval
        (World.answer ry.osAccess.isKmod) w := by
  obtain ⟨osAccess, mp1Smu, psmu, family, biosIfVer, tableAddr, tableVer, tableSize, _, _⟩ := ry
  unfold preferKmodSize preferredSize
  simp only [Prog.bind_eq, Prog.pure_eq]
  cases osAccess with
  | mem o => rfl
  | kmod o =>
    simp only [OsAccessObj.isKmod, Prog.bind_assoc, isUsingSmuDriver_eval, Bool.not_true,
      Bool.false_eq_true, if_false]
    split
    · rfl
    · rfl

theorem preferredSize_accepted (obj : OsAccessObj) (ver : Word) :
    0 < preferredSize obj (tableSizeOf ver) ∧ preferredSize obj (tableSizeOf ver) % 4 = 0 ∧
      preferredSize obj (tableSizeOf ver) ≤ ryzenadjMaxTableSize := by
  have h := tableSizeOf_accepted ver
  have hsize : 0 < tableSizeOf ver ∧ tableSizeOf ver % 4 = 0 ∧
      tableSizeOf ver ≤ ryzenadjMaxTableSize := by
    unfold ryzenadjMaxTableSize
    omega
  unfold preferredSize
  cases obj with
  | mem o => exact hsize
  | kmod o =>
    simp only
    split
    next hk => exact ⟨Nat.pos_of_ne_zero hk.2.1, hk.2.2.1, hk.2.2.2⟩
    next => exact hsize

/-- The size `init_table` decides on, and the handle whose new buffer it fills. -/
def initSize (ry : RyzenAccess) (smu : Stream' (Word × Args)) : Nat :=
  preferredSize ry.osAccess (tableSizeOf smu.head.2.arg0)

def initHandle (ry : RyzenAccess) (fam : TableFamily) (smu : Stream' (Word × Args))
    (values : Option (List Byte)) (busy : Bool) : RyzenAccess :=
  { ry with
    tableVer := smu.head.2.arg0
    tableSize := initSize ry smu
    tableAddr := tableAddrOf fam smu.tail.head.2
    tableValues := values
    tableInitBusy := busy }

/-- The world when the new buffer is to be filled. -/
def initWorld (w : World) : World :=
  { w with
    smu := w.smu.tail.tail
    mapped := w.mapped.tail
    allocated := w.allocated.tail
    copies := [] }

inductive BufferEnd (ry : RyzenAccess) (w : World) : Option (Int × RyzenAccess) × World → Prop where
  | mapping : w.mapped.head = false →
      BufferEnd ry w (some (adjErrMemoryAccess, ry), { w with mapped := w.mapped.tail })
  | allocation : w.mapped.head = true → w.allocated.head = false →
      BufferEnd ry w
        (some (adjErrMemoryAccess,
          { ry with tableSize := preferredSize ry.osAccess ry.tableSize, tableValues := none }),
        { w with mapped := w.mapped.tail, allocated := w.allocated.tail, copies := [] })
  | filled (code : Int) (ry' : RyzenAccess) (w' : World) :
      w.mapped.head = true → w.allocated.head = true →
      FillEnd ry.osAccess.isKmod
        { ry with
          tableSize := preferredSize ry.osAccess ry.tableSize
          tableValues := some (List.replicate (preferredSize ry.osAccess ry.tableSize) 0) }
        (List.replicate (preferredSize ry.osAccess ry.tableSize) 0)
        { w with mapped := w.mapped.tail, allocated := w.allocated.tail, copies := [] }
        (some (code, ry'), w') →
      BufferEnd ry w (some (code, ry'), w')

theorem RefreshEnd.result {driver : Bool} {ry : RyzenAccess} {buf : List Byte} {w : World}
    {r : Option (Int × RyzenAccess) × World} (h : RefreshEnd driver ry buf w r) :
    ∃ code ry' w', r = (some (code, ry'), w') := by
  cases h with
  | rejected code smu compared _ _ _ => exact ⟨_, _, _, rfl⟩
  | failed smu compared _ => exact ⟨_, _, _, rfl⟩
  | done smu compared _ => exact ⟨_, _, _, rfl⟩

theorem FillEnd.result {driver : Bool} {ry : RyzenAccess} {buf : List Byte} {w : World}
    {r : Option (Int × RyzenAccess) × World} (h : FillEnd driver ry buf w r) :
    ∃ code ry' w', r = (some (code, ry'), w') := by
  cases h with
  | once h => exact h.result
  | twice _ _ _ _ _ h => exact h.result

/-- Filling changes nothing of the handle but the contents of the new buffer. -/
theorem FillEnd.buffer {driver : Bool} {ry : RyzenAccess} {buf : List Byte} {w : World}
    {r : Option (Int × RyzenAccess) × World} (h : FillEnd driver ry buf w r)
    (hbuf : ry.tableValues = some buf) (hle : ry.tableSize ≤ buf.length) :
    ∃ code buf' w', r = (some (code, { ry with tableValues := some buf' }), w') ∧
      buf'.length = buf.length := by
  cases h with
  | once h => exact h.buffer hbuf hle
  | twice ry₁ buf₁ w₁ h₁ hbuf₁ h₂ =>
    obtain ⟨code, buf₂, w₂, heq, hlen⟩ := h₁.buffer hbuf hle
    cases heq
    cases hbuf₁
    obtain ⟨code', buf₃, w₃, heq', hlen'⟩ := h₂.buffer rfl (by rw [hlen]; exact hle)
    exact ⟨code', buf₃, w₃, heq', hlen'.trans hlen⟩

theorem refreshable_zeros (obj : OsAccessObj) {size : Nat} (ver : Word)
    (hsize : size = tableSizeOf ver) :
    Refreshable obj.isKmod (preferredSize obj size)
      (List.replicate (preferredSize obj size) 0) := by
  have hpref := preferredSize_accepted obj ver
  have hver := tableSizeOf_accepted ver
  rw [← hsize] at hpref hver
  have hlen : (List.replicate (preferredSize obj size) (0 : Byte)).length =
      preferredSize obj size := List.length_replicate
  refine ⟨by omega, by omega, ?_⟩
  intro hdriver
  rw [hlen]
  cases obj with
  | kmod o => simp [OsAccessObj.isKmod] at hdriver
  | mem o =>
    show 24 ≤ size
    omega

theorem initTableBuffer_end (depth : Nat) (ry : RyzenAccess) (ver : Word)
    (hsize : ry.tableSize = tableSizeOf ver) (w : World) :
    BufferEnd ry w ((initTableBuffer (refreshTable (depth + 1)) ry).eval
      (World.answer ry.osAccess.isKmod) w) := by
  have hver := tableSizeOf_accepted ver
  have hpref := preferredSize_accepted ry.osAccess ver
  rw [← hsize] at hver hpref
  have haccepted : ¬ (ry.tableSize = 0 ∨ ry.tableSize % 4 ≠ 0 ∨
      ryzenadjMaxTableSize < ry.tableSize) := by
    unfold ryzenadjMaxTableSize
    omega
  have hcells : 4 * (preferredSize ry.osAccess ry.tableSize / 4) =
      preferredSize ry.osAccess ry.tableSize := by omega
  unfold initTableBuffer
  simp only [Prog.bind_eq, Prog.pure_eq, if_neg haccepted, initMemObj_eval]
  cases hmap : w.mapped.head with
  | false => exact .mapping hmap
  | true =>
    simp only [Bool.not_true, Bool.false_eq_true, if_false, preferKmodSize_eval, calloc_eval]
    cases halloc : w.allocated.head with
    | false => exact .allocation hmap halloc
    | true =>
      simp only [Bool.not_true, Bool.false_eq_true, if_false, hcells]
      have hfill := fillTable_end ry.osAccess.isKmod depth
        { ry with
          tableSize := preferredSize ry.osAccess ry.tableSize
          tableValues := some (List.replicate (preferredSize ry.osAccess ry.tableSize) 0) }
        rfl (refreshable_zeros ry.osAccess ver hsize)
        { w with mapped := w.mapped.tail, allocated := w.allocated.tail, copies := [] }
      obtain ⟨code, ry', w', hr⟩ := hfill.result
      rw [hr] at hfill ⊢
      exact .filled code ry' w' hmap halloc hfill

inductive InitEnd (ry : RyzenAccess) (w : World) : Option (Int × RyzenAccess) × World → Prop where
  | busy : ry.tableInitBusy = true → InitEnd ry w (some (adjErrMemoryAccess, ry), w)
  | unsupported : ry.tableInitBusy = false → tableFamily ry.family = none →
      InitEnd ry w (some (adjErrFamUnsupported, ry), w)
  | version (fam : TableFamily) (code : Int) : ry.tableInitBusy = false →
      tableFamily ry.family = some fam → ¬ VersionAnswered w.smu.head → code ≠ 0 →
      InitEnd ry w (some (code, ry.withVersion w.smu.head.2.arg0), { w with smu := w.smu.tail })
  | addr (fam : TableFamily) (code : Int) : ry.tableInitBusy = false →
      tableFamily ry.family = some fam → VersionAnswered w.smu.head →
      ¬ AddrAnswered fam w.smu.tail.head → code ≠ 0 →
      InitEnd ry w
        (some (code, (ry.withVersion w.smu.head.2.arg0).withAddr
          (tableAddrOf fam w.smu.tail.head.2)),
        { w with smu := w.smu.tail.tail })
  | mapping (fam : TableFamily) : ry.tableInitBusy = false →
      tableFamily ry.family = some fam → VersionAnswered w.smu.head →
      AddrAnswered fam w.smu.tail.head → w.mapped.head = false →
      InitEnd ry w
        (some (adjErrMemoryAccess, (ry.withVersion w.smu.head.2.arg0).withAddr
          (tableAddrOf fam w.smu.tail.head.2)),
        { w with smu := w.smu.tail.tail, mapped := w.mapped.tail })
  | allocation (fam : TableFamily) : ry.tableInitBusy = false →
      tableFamily ry.family = some fam → VersionAnswered w.smu.head →
      AddrAnswered fam w.smu.tail.head → w.mapped.head = true → w.allocated.head = false →
      InitEnd ry w
        (some (adjErrMemoryAccess, initHandle ry fam w.smu none false), initWorld w)
  | filled (fam : TableFamily) (code : Int) (ry' : RyzenAccess) (w' : World) :
      ry.tableInitBusy = false →
      tableFamily ry.family = some fam → VersionAnswered w.smu.head →
      AddrAnswered fam w.smu.tail.head → w.mapped.head = true → w.allocated.head = true →
      FillEnd ry.osAccess.isKmod
        (initHandle ry fam w.smu (some (List.replicate (initSize ry w.smu) 0)) true)
        (List.replicate (initSize ry w.smu) 0) (initWorld w) (some (code, ry'), w') →
      InitEnd ry w (some (code, { ry' with tableInitBusy := false }), w')

theorem BufferEnd.init {ry : RyzenAccess} {fam : TableFamily} {w : World}
    {r : Option (Int × RyzenAccess) × World} (hbusy : ry.tableInitBusy = false)
    (hfam : tableFamily ry.family = some fam) (hver : VersionAnswered w.smu.head)
    (haddr : AddrAnswered fam w.smu.tail.head)
    (h : BufferEnd ((({ ry with tableInitBusy := true } : RyzenAccess).withVersion
      w.smu.head.2.arg0).withAddr (tableAddrOf fam w.smu.tail.head.2))
      { w with smu := w.smu.tail.tail } r) :
    InitEnd ry w (Prog.andThen r fun a s =>
      (some (a.1, { a.2 with tableInitBusy := false }), s)) := by
  cases h with
  | mapping hmap =>
    have hend := InitEnd.mapping fam hbusy hfam hver haddr hmap
    unfold RyzenAccess.withVersion RyzenAccess.withAddr at hend ⊢
    rw [hbusy] at hend
    exact hend
  | allocation hmap halloc => exact .allocation fam hbusy hfam hver haddr hmap halloc
  | filled code ry' w' hmap halloc hfill =>
    exact .filled fam code ry' w' hbusy hfam hver haddr hmap halloc hfill

theorem initTable_end (depth : Nat) (ry : RyzenAccess) (w : World) :
    InitEnd ry w ((initTable (depth + 1) ry).eval (World.answer ry.osAccess.isKmod) w) := by
  unfold initTable initTableWith
  cases hbusy : ry.tableInitBusy with
  | true => exact .busy hbusy
  | false =>
    have hsame : { ry with tableInitBusy := false } = ry := by rw [← hbusy]
    have hsame1 : ∀ ver, { ({ ry with tableInitBusy := true } : RyzenAccess).withVersion ver with
        tableInitBusy := false } = ry.withVersion ver := by
      intro ver
      unfold RyzenAccess.withVersion
      rw [hbusy]
    have hsame2 : ∀ ver addr,
        { (({ ry with tableInitBusy := true } : RyzenAccess).withVersion ver).withAddr addr with
          tableInitBusy := false } = (ry.withVersion ver).withAddr addr := by
      intro ver addr
      unfold RyzenAccess.withVersion RyzenAccess.withAddr
      rw [hbusy]
    simp only [Bool.false_eq_true, if_false, Prog.bind_eq, Prog.pure_eq, Prog.eval_bind]
    unfold initTableLocked
    cases hfam : tableFamily ry.family with
    | none =>
      have hend := InitEnd.unsupported (w := w) hbusy hfam
      unfold requestTableVerAndSize
      simp only [hfam, Prog.pure_eq, Prog.bind_eq, Prog.ret_bind, adjErrFamUnsupported, ne_eq,
        show ¬ (-1 : Int) = 0 by decide, not_false_eq_true, if_true, Prog.eval_ret,
        Prog.andThen_some, hsame]
      exact hend
    | some fam =>
      obtain ⟨code1, heval1, hcode1⟩ := requestTableVerAndSize_eval
        ry.osAccess.isKmod { ry with tableInitBusy := true } hfam w
      simp only [Prog.bind_eq, Prog.pure_eq, Prog.eval_bind, heval1, Prog.andThen_some]
      by_cases hver : VersionAnswered w.smu.head
      · have h1 : code1 = 0 := hcode1.mpr hver
        obtain ⟨code2, heval2, hcode2⟩ := requestTableAddr_eval ry.osAccess.isKmod
          (({ ry with tableInitBusy := true } : RyzenAccess).withVersion w.smu.head.2.arg0)
          hfam { w with smu := w.smu.tail }
        simp only [h1, ne_eq, not_true_eq_false, if_false, Prog.eval_bind, heval2,
          Prog.andThen_some]
        by_cases haddr : AddrAnswered fam w.smu.tail.head
        · have h2 : code2 = 0 := hcode2.mpr haddr
          simp only [h2, not_true_eq_false, if_false]
          have hend := initTableBuffer_end depth
            ((({ ry with tableInitBusy := true } : RyzenAccess).withVersion
              w.smu.head.2.arg0).withAddr (tableAddrOf fam w.smu.tail.head.2))
            w.smu.head.2.arg0 rfl { w with smu := w.smu.tail.tail }
          exact hend.init hbusy hfam hver haddr
        · have h2 : code2 ≠ 0 := fun h => haddr (hcode2.mp h)
          simp only [h2, not_false_eq_true, if_true, Prog.eval_ret, Prog.andThen_some, hsame2]
          exact .addr fam code2 hbusy hfam hver haddr h2
      · have h1 : code1 ≠ 0 := fun h => hver (hcode1.mp h)
        simp only [h1, ne_eq, not_false_eq_true, if_true, Prog.eval_ret, Prog.andThen_some, hsame1]
        exact .version fam code1 hbusy hfam hver h1

theorem InitEnd.result {ry : RyzenAccess} {w : World} {r : Option (Int × RyzenAccess) × World}
    (h : InitEnd ry w r) : ∃ code ry' w', r = (some (code, ry'), w') := by
  cases h <;> exact ⟨_, _, _, rfl⟩

theorem FillEnd.init {ry ry' : RyzenAccess} {fam : TableFamily} {w w' : World} {code : Int}
    (h : FillEnd ry.osAccess.isKmod
      (initHandle ry fam w.smu (some (List.replicate (initSize ry w.smu) 0)) true)
      (List.replicate (initSize ry w.smu) 0) (initWorld w) (some (code, ry'), w')) :
    ∃ buf, buf.length = initSize ry w.smu ∧
      { ry' with tableInitBusy := false } = initHandle ry fam w.smu (some buf) false := by
  obtain ⟨code', buf, w'', heq, hlen⟩ := h.buffer rfl (Nat.le_of_eq List.length_replicate.symm)
  cases heq
  exact ⟨buf, hlen.trans List.length_replicate, rfl⟩

theorem InitEnd.osAccess {ry ry' : RyzenAccess} {w w' : World} {code : Int}
    (h : InitEnd ry w (some (code, ry'), w')) : ry'.osAccess = ry.osAccess := by
  cases h with
  | busy _ => rfl
  | unsupported _ _ => rfl
  | version _ _ _ _ _ _ => rfl
  | addr _ _ _ _ _ _ _ => rfl
  | mapping _ _ _ _ _ _ => rfl
  | allocation _ _ _ _ _ _ _ => rfl
  | filled fam _ ry₁ _ _ _ _ _ _ _ hfill =>
    obtain ⟨buf, _, heq⟩ := hfill.init
    rw [heq]
    rfl

inductive LazyEnd (ry : RyzenAccess) (w : World) (r : Option (Int × RyzenAccess) × World) :
    Prop where
  | ready : ry.tableValues.isSome → r = (some (0, ry), w) → LazyEnd ry w r
  | init : ry.tableValues = none → InitEnd ry w r → LazyEnd ry w r

theorem lazyInitTable_end (depth : Nat) (ry : RyzenAccess) (w : World) :
    LazyEnd ry w ((lazyInitTable (initTable (depth + 1)) ry).eval
      (World.answer ry.osAccess.isKmod) w) := by
  unfold lazyInitTable
  cases hv : ry.tableValues with
  | none => exact .init hv (initTable_end depth ry w)
  | some buf => exact .ready (by rw [hv]; rfl) rfl

theorem LazyEnd.result {ry : RyzenAccess} {w : World} {r : Option (Int × RyzenAccess) × World}
    (h : LazyEnd ry w r) : ∃ code ry' w', r = (some (code, ry'), w') := by
  cases h with
  | ready _ heq => exact ⟨0, ry, w, heq⟩
  | init _ hinit => exact hinit.result

end RyzenAdj
