import RyzenAdj.Api.Session
import RyzenAdj.Interaction.Trace

/-!
# What is copied into the buffer

The copies that `refresh_table` and `init_table` make of the table, and the
buffer they leave: after a call that returns 0 it is the last of them.
-/

namespace RyzenAdj
open Interaction Api

/-- A call of `copy_pm_table`: the bytes it stored, and its error. -/
structure Copy where
  data : List Byte
  error : Option Errno
  deriving DecidableEq

def copied : (o : Api.Op) → Api.Ret o → List Copy
  | .copyPmTable _ _, t => [⟨t.data, t.error⟩]
  | _, _ => []

/-- The processor is of one family. -/
def Api.Op.OfFamily (family : RyzenFamily) : (o : Api.Op) → Api.Ret o → Prop
  | .cpuidGetFamily, f => f = family
  | _, _ => True

/-- The copies that a program of the library makes, whatever it is answered. -/
abbrev Copies (family : RyzenFamily) {α : Type} (p : Prog api α) (L : α → Language Copy) : Prop :=
  Prog.Says (Api.Op.OfFamily family) copied p L

def CopiesNothing : Api.Op → Prop
  | .copyPmTable _ _ => False
  | _ => True

abbrev copyless : Env api Unit := Env.only CopiesNothing

theorem copied_nothing (o : Api.Op) (r : Api.Ret o) (h : CopiesNothing o) : copied o r = [] := by
  cases o with
  | copyPmTable _ _ => exact h.elim
  | _ => rfl

/-- A refresh of a buffer with this content: its code, the copies, and the content it leaves. -/
inductive BufferRefreshed (values : List Byte) : Int → List Copy → List Byte → Prop where
  | untouched {code : Int} : code ≠ 0 → BufferRefreshed values code [] values
  | torn {data : List Byte} {e : Errno} : data.length ≤ values.length →
      BufferRefreshed values adjErrMemoryAccess [⟨data, some e⟩] (overwrite values data)
  | done {data : List Byte} : data.length = values.length →
      BufferRefreshed values 0 [⟨data, none⟩] data

def FirstIsZero (values : List Byte) : Prop := ∃ w, cellAt values 0 = some w ∧ isZeroFloat w = true

/-- The copies that fill a new buffer: a second one if the first value is zero. -/
inductive BufferFilled : List Copy → List Byte → Prop where
  | once {values : List Byte} : ¬FirstIsZero values → BufferFilled [⟨values, none⟩] values
  | twice {first values : List Byte} : FirstIsZero first → values.length = first.length →
      BufferFilled [⟨first, none⟩, ⟨values, none⟩] values

/-- The copies of an `init_table` that fails with this code: it fails before the buffer is there or
in the refresh of it, or in the second refresh. -/
inductive FillFailed (code : Int) : List Copy → Prop where
  | first {values values' : List Byte} {copies : List Copy} : code ≠ 0 →
      BufferRefreshed values code copies values' → FillFailed code copies
  | second {first values' : List Byte} {copies : List Copy} : code ≠ 0 → FirstIsZero first →
      BufferRefreshed first code copies values' → FillFailed code (⟨first, none⟩ :: copies)

theorem FillFailed.nothing {code : Int} (h : code ≠ 0) : FillFailed code [] :=
  .first h (BufferRefreshed.untouched h : BufferRefreshed [] code [] [])

/-- A handle with a table of whole cells, and what is in it. -/
structure HoldsTable (ry : RyzenAccess) (values : List Byte) : Prop where
  buffer : ry.tableValues = some values
  size : values.length = ry.tableSize
  nonempty : 0 < ry.tableSize
  cells : ry.tableSize % 4 = 0

section Silent
variable {family : RyzenFamily} {ry : RyzenAccess}

theorem needTransfer_copyless (buf : List Byte) :
    (needTransfer buf).Wp copyless (fun _ _ => True) () := by
  unfold needTransfer
  cases cellAt buf 0 with
  | none => exact ⟨trivial, fun r => Empty.elim r⟩
  | some first =>
    apply Prog.wp_ite
    · exact fun _ => trivial
    · intro _
      apply Prog.wp_ite
      · exact fun _ => ⟨trivial, fun r => Empty.elim r⟩
      · exact fun _ => ⟨trivial, fun _ _ _ => trivial⟩

theorem requestTransferTable_copyless (ry : RyzenAccess) :
    (requestTransferTable ry).Wp copyless (fun _ _ => True) () := by
  unfold requestTransferTable
  cases tableFamily ry.family with
  | none => trivial
  | some fam =>
    -- the answer to the last attempt
    have hend : ∀ resp : Word, (if resp ≠ repMsgOK then Prog.ret (translatedSmuError resp)
        else Prog.ret 0 : Prog api Int).Wp copyless (fun _ _ => True) () :=
      fun resp => Prog.wp_ite _ (fun _ => trivial) fun _ => trivial
    refine ⟨trivial, fun r₁ _ _ => ?_⟩
    apply Prog.wp_ite
    · intro _
      refine ⟨trivial, fun _ _ _ => ⟨trivial, fun r₂ _ _ => ?_⟩⟩
      apply Prog.wp_ite
      · exact fun _ => ⟨trivial, fun _ _ _ => ⟨trivial, fun r₃ _ _ => hend r₃.1⟩⟩
      · exact fun _ => hend r₂.1
    · exact fun _ => hend r₁.1

/-- The requests for the version and for the address leave the family alone. -/
theorem requestTableVerAndSize_copyless (ry : RyzenAccess) :
    (requestTableVerAndSize ry).Wp copyless (fun r _ => r.2.family = ry.family) () := by
  unfold requestTableVerAndSize
  cases tableFamily ry.family with
  | none => exact rfl
  | some fam =>
    refine ⟨trivial, fun r _ _ => ?_⟩
    apply Prog.wp_ite
    · exact fun _ => rfl
    · exact fun _ => Prog.wp_ite _ (fun _ => rfl) fun _ => rfl

theorem requestTableAddr_copyless (ry : RyzenAccess) :
    (requestTableAddr ry).Wp copyless (fun r _ => r.2.family = ry.family) () := by
  unfold requestTableAddr
  cases tableFamily ry.family with
  | none => exact rfl
  | some fam =>
    refine ⟨trivial, fun r _ _ => ?_⟩
    apply Prog.wp_ite
    · exact fun _ => rfl
    · exact fun _ => Prog.wp_ite _ (fun _ => rfl) fun _ => rfl

/-- A size that the checks let through, before and after the driver's is preferred. -/
theorem preferKmodSize_copyless (hsize : 0 < ry.tableSize ∧ ry.tableSize % 4 = 0) :
    (preferKmodSize ry).Wp copyless (fun r _ => r.family = ry.family ∧
      0 < r.tableSize ∧ r.tableSize % 4 = 0) () := by
  refine ⟨trivial, fun driver _ _ => ?_⟩
  apply Prog.wp_ite
  · exact fun _ => ⟨rfl, hsize⟩
  · intro _
    cases hobj : ry.osAccess with
    | mem o => exact ⟨trivial, fun r => Empty.elim r⟩
    | kmod o =>
      apply Prog.wp_ite
      · exact fun h => ⟨rfl, Nat.pos_of_ne_zero h.2.1, h.2.2.1⟩
      · exact fun _ => ⟨rfl, hsize⟩

theorem getBiosIfVer_copyless (ry : RyzenAccess) :
    (getBiosIfVer ry).Wp copyless (fun r _ => r.2.family = ry.family) () := by
  apply Prog.wp_ite
  · exact fun _ => rfl
  · intro _
    refine ⟨trivial, fun r _ _ => ?_⟩
    exact Prog.wp_ite _ (fun _ => rfl) fun _ => rfl

theorem setter_copyless (s : Setter) (ry : RyzenAccess) (value : Word) :
    (s.run ry value).Wp copyless (fun _ _ => True) () := by
  have hadjust : ∀ smu opt arg, (doAdjust smu opt arg).Wp copyless (fun _ _ => True) () :=
    fun _ _ _ => ⟨trivial, fun _ _ _ => trivial⟩
  unfold Setter.run
  cases switchOn ry.family s.cases with
  | none => trivial
  | some send =>
    cases send with
    | mp1 opt => exact hadjust _ opt _
    | psmu opt => exact hadjust _ opt _
    | mp1ThenPsmu opt retry =>
      apply Prog.wp_seq _ (hadjust ry.mp1Smu opt _)
      exact fun _ _ _ => Prog.wp_ite _ (fun _ => hadjust _ retry _) fun _ => trivial

end Silent

section Table
variable {family : RyzenFamily} {ry : RyzenAccess} {values : List Byte}

theorem copies_copyTable (hsize : values.length = ry.tableSize) :
    Copies family (copyTable ry values) fun r => {v | ∃ values',
      BufferRefreshed values r.1 v values' ∧ r.2 = { ry with tableValues := some values' }} := by
  apply Prog.says_call
  intro t _
  have hle : t.data.length ≤ values.length := by
    rw [hsize]
    exact t.data_le
  have hstore : storeBytes values t.data = some (overwrite values t.data) := if_pos hle
  simp only [Prog.ret_bind, hstore]
  cases herror : t.error with
  | some e => exact Prog.says_ret ⟨_, by rw [copied, herror]; exact .torn hle, rfl⟩
  | none =>
    have hfull : t.data.length = values.length := (t.full herror).trans hsize.symm
    exact Prog.says_ret ⟨t.data, by rw [copied, herror]; exact .done hfull,
      by rw [overwrite_full hfull]⟩

theorem copies_refreshTable (depth : Nat) (hvalues : ry.tableValues = some values)
    (hsize : values.length = ry.tableSize) :
    Copies family (refreshTable (depth + 1) ry) fun r => {v | ∃ values',
      BufferRefreshed values r.1 v values' ∧ r.2 = { ry with tableValues := some values' }} := by
  have hcopy : Copies family (copyTable ry values) _ := copies_copyTable hsize
  have hsame : ry = { ry with tableValues := some values } := by rw [← hvalues]
  rw [refreshTable_of_buffer depth ry hvalues]
  unfold refreshTableBody
  simp only [hvalues]
  apply Prog.says_call
  intro driver _
  -- the copy, after a transfer with this code
  have hend : ∀ code : Int, Copies family
      (if code ≠ 0 then pure (code, ry) else copyTable ry values)
      fun r => {v | ∃ values', BufferRefreshed values r.1 v values' ∧
        r.2 = { ry with tableValues := some values' }} := by
    intro code
    apply Prog.says_ite
    · exact fun hcode => Prog.says_ret ⟨values, .untouched hcode, hsame⟩
    · exact fun _ => hcopy
  apply Prog.says_ite
  · exact fun _ => hend 0
  · intro _
    apply Prog.says_after copied_nothing (needTransfer_copyless values)
    intro transfer _
    apply Prog.says_ite
    · intro _
      apply Prog.says_after copied_nothing (requestTransferTable_copyless ry)
      exact fun code _ => hend code
    · exact fun _ => hend 0

theorem copies_fillTable (depth : Nat) (hvalues : ry.tableValues = some values)
    (hsize : values.length = ry.tableSize) :
    Copies family (fillTable (refreshTable (depth + 1)) ry) fun r => {v | r.2.family = ry.family ∧
      (r.1 = 0 → ∃ values', BufferFilled v values' ∧ values'.length = ry.tableSize ∧
        r.2 = { ry with tableValues := some values' }) ∧ (r.1 ≠ 0 → FillFailed r.1 v)} := by
  apply Prog.says_bind (copies_refreshTable depth hvalues hsize)
  intro r v hv
  obtain ⟨code, ry₁⟩ := r
  obtain ⟨values₁, hrefreshed, rfl⟩ := hv
  apply Prog.says_ite
  · intro hcode
    refine Prog.says_ret ⟨rfl, fun h => absurd h hcode, fun _ => ?_⟩
    rw [List.append_nil]
    exact .first hcode hrefreshed
  · intro hcode
    obtain rfl : code = 0 := not_not.mp hcode
    obtain ⟨hv, hlen⟩ : v = [⟨values₁, none⟩] ∧ values₁.length = values.length := by
      cases hrefreshed with
      | untouched h => exact absurd rfl h
      | done h => exact ⟨rfl, h⟩
    simp only [Option.bind_some]
    cases hfirst : cellAt values₁ 0 with
    | none => exact Prog.says_call fun r => Empty.elim r
    | some first =>
      apply Prog.says_ite
      · intro hzero
        have hagain : Copies family
            (refreshTable (depth + 1) { ry with tableValues := some values₁ }) _ :=
          copies_refreshTable depth rfl (hlen.trans hsize)
        apply Prog.says_call
        intro _ _
        apply Prog.says_mono hagain
        intro r u hu
        obtain ⟨values₂, hrefreshed₂, hr⟩ := hu
        have hempty : FirstIsZero values₁ := ⟨first, hfirst, hzero⟩
        rw [hv]
        refine ⟨by rw [hr], fun hcode₂ => ?_, fun hcode₂ => .second hcode₂ hempty hrefreshed₂⟩
        rw [hcode₂] at hrefreshed₂
        cases hrefreshed₂ with
        | untouched h => exact absurd rfl h
        | done h => exact ⟨values₂, .twice hempty h, by rw [h, hlen, hsize], hr⟩
      · intro hzero
        apply Prog.says_ret
        refine ⟨rfl, fun _ => ⟨values₁, ?_, hlen.trans hsize, rfl⟩, fun h => absurd rfl h⟩
        rw [hv]
        refine .once fun h => ?_
        obtain ⟨w, hw, hwzero⟩ := h
        rw [hfirst] at hw
        rw [Option.some.inj hw] at hzero
        exact hzero hwzero

/-- What `init_table` copies, and the table that it leaves if it returns 0. -/
def TableInitialised (ry : RyzenAccess) (r : Int × RyzenAccess) : Language Copy :=
  {v | r.2.family = ry.family ∧
    (r.1 = 0 → ∃ values, BufferFilled v values ∧ HoldsTable r.2 values) ∧
    (r.1 ≠ 0 → FillFailed r.1 v)}

theorem nothing_tableInitialised {ry ry' : RyzenAccess} {code : Int} (hcode : code ≠ 0)
    (hfamily : ry'.family = ry.family) : [] ∈ TableInitialised ry (code, ry') :=
  ⟨hfamily, fun h => absurd h hcode, fun _ => .nothing hcode⟩

theorem copies_initTableBuffer (depth : Nat) (ry : RyzenAccess) :
    Copies family (initTableBuffer (refreshTable (depth + 1)) ry) (TableInitialised ry) := by
  have hfails :
    ∀ ry', ry'.family = ry.family → [] ∈ TableInitialised ry (adjErrMemoryAccess, ry') :=
    fun ry' hfamily => nothing_tableInitialised (by decide) hfamily
  apply Prog.says_ite
  · exact fun _ => Prog.says_ret (hfails _ rfl)
  · intro haccepted
    have hsize : 0 < ry.tableSize ∧ ry.tableSize % 4 = 0 := by omega
    apply Prog.says_call
    intro mapped _
    apply Prog.says_ite
    · exact fun _ => Prog.says_ret (hfails _ rfl)
    · intro _
      apply Prog.says_after copied_nothing (preferKmodSize_copyless hsize)
      intro ry₁ hry₁
      obtain ⟨hfamily, hpos, hcells⟩ := hry₁
      apply Prog.says_call
      intro allocated _
      apply Prog.says_ite
      · exact fun _ => Prog.says_ret (hfails _ hfamily)
      · intro _
        let zeros : List Byte := List.replicate (4 * (ry₁.tableSize / 4)) 0
        have hzeros : zeros.length = ry₁.tableSize := by
          rw [List.length_replicate]
          omega
        have hfill : Copies family
            (fillTable (refreshTable (depth + 1)) { ry₁ with tableValues := some zeros }) _ :=
          copies_fillTable depth rfl hzeros
        apply Prog.says_mono hfill
        intro r v hv
        refine ⟨hv.1.trans hfamily, fun hcode => ?_, hv.2.2⟩
        obtain ⟨values, hfilled, hlen, hr⟩ := hv.2.1 hcode
        refine ⟨values, hfilled, ?_⟩
        rw [hr]
        exact ⟨rfl, hlen, hpos, hcells⟩

theorem copies_initTableLocked (depth : Nat) (ry : RyzenAccess) :
    Copies family (initTableLocked (refreshTable (depth + 1)) ry) (TableInitialised ry) := by
  apply Prog.says_after copied_nothing (requestTableVerAndSize_copyless ry)
  intro r₁ hfamily₁
  apply Prog.says_ite
  · exact fun hcode => Prog.says_ret (nothing_tableInitialised hcode hfamily₁)
  · intro _
    apply Prog.says_after copied_nothing (requestTableAddr_copyless r₁.2)
    intro r₂ hfamily₂
    apply Prog.says_ite
    · exact fun hcode => Prog.says_ret (nothing_tableInitialised hcode (hfamily₂.trans hfamily₁))
    · intro _
      apply Prog.says_mono (copies_initTableBuffer depth r₂.2)
      exact fun r v hv => ⟨hv.1.trans (hfamily₂.trans hfamily₁), hv.2⟩

theorem copies_initTable (depth : Nat) (ry : RyzenAccess) :
    Copies family (initTable (depth + 1) ry) (TableInitialised ry) := by
  apply Prog.says_ite
  · exact fun _ => Prog.says_ret (nothing_tableInitialised (by decide) rfl)
  · intro _
    apply Prog.says_bind (copies_initTableLocked depth { ry with tableInitBusy := true })
    intro r v hv
    rw [← List.append_nil v] at hv
    refine Prog.says_ret ⟨hv.1, fun hcode => ?_, hv.2.2⟩
    obtain ⟨values, hfilled, htable⟩ := hv.2.1 hcode
    exact ⟨values, hfilled, htable.buffer, htable.size, htable.nonempty, htable.cells⟩

theorem copies_initRyzenadj : Copies family initRyzenadj fun r =>
    {v | v = [] ∧ ∀ ry, r = some ry → ry.family = family} := by
  have hnone : ([] : List Copy) ∈ ({v | v = [] ∧ ∀ ry, (none : Option RyzenAccess) = some ry →
      ry.family = family} : Language Copy) := ⟨rfl, fun _ h => by cases h⟩
  apply Prog.says_call
  intro f hf
  obtain rfl : f = family := hf
  apply Prog.says_ite
  · exact fun _ => Prog.says_ret hnone
  · intro _
    apply Prog.says_call
    intro allocated _
    apply Prog.says_ite
    · exact fun _ => Prog.says_ret hnone
    · intro _
      apply Prog.says_call
      intro access _
      cases access with
      | none => exact Prog.says_ret hnone
      | some obj =>
        apply Prog.says_call
        intro mp1 _
        cases mp1 with
        | none => exact Prog.says_call fun _ _ => Prog.says_ret hnone
        | some mp1Smu =>
          apply Prog.says_call
          intro psmu _
          cases psmu with
          | none => exact Prog.says_call fun _ _ => Prog.says_ret hnone
          | some psmu =>
            refine Prog.says_ret ⟨rfl, fun ry h => ?_⟩
            rw [← Option.some.inj h]
            rfl

end Table
end RyzenAdj
