import RyzenAdj.Api.TableCalls
import RyzenAdj.Interaction.Finite

/-!
# Bounds on the table functions

`init_table` and `refresh_table` call each other through `_lazy_init_table`.
How many requests a call on an idle handle makes to the SMU, that it is over
after finitely many steps, and that the inner calls find a buffer, so that
`init_table` is entered once at most. All of it whatever the calls answer.
-/

namespace RyzenAdj
open Interaction Api

/-- Any answer, but to the question for the driver. -/
def Api.Op.Answers (driver : Bool) : (o : Api.Op) → Api.Ret o → Prop
  | .isUsingSmuDriver, r => r = driver
  | _, _ => True

/-- The requests to the SMU that a call stands for. -/
def Api.Op.requests : Api.Op → Nat
  | .smuServiceReq _ _ _ => 1
  | _ => 0

/-- Surroundings that give any answers; the state is the number of requests to the SMU. -/
def requestCount (driver : Bool) : Env api Nat where
  guard _ _ := True
  next n o r n' := o.Answers driver r ∧ n' = n + o.requests

/-- The same where so many requests are allowed, and, with `room`, no use of a pointer outside
what it points to. -/
def requestBound (driver : Bool) (bound : Nat) (room : Prop) : Env api Nat where
  guard n o := n + o.requests ≤ bound ∧ (room → o ≠ .undefined)
  next n o r n' := o.Answers driver r ∧ n' = n + o.requests

section Bounds
variable {driver : Bool} {bound : Nat} {room : Prop} {α : Type}

theorem request_bound {smu : Smu} {id : Word} {args : Args} {f : Word × Args → Prog api α}
    {Q : α → Nat → Prop} {n : Nat} (hn : n + 1 ≤ bound)
    (hf : ∀ r, (f r).WpFin (requestBound driver bound room) Q (n + 1)) :
    ((Api.smuServiceReq smu id args).bind f).WpFin (requestBound driver bound room) Q n := by
  refine ⟨⟨hn, fun _ h => Api.Op.noConfusion h⟩, fun r n' hnext => ?_⟩
  rw [hnext.2]
  exact hf r

theorem other_bound {o : Api.Op} (hserved : o ≠ .undefined) (hfree : o.requests = 0)
    {f : Api.Ret o → Prog api α} {Q : α → Nat → Prop} {n : Nat} (hn : n ≤ bound)
    (hf : ∀ r, o.Answers driver r → (f r).WpFin (requestBound driver bound room) Q n) :
    ((Prog.perform (S := api) o).bind f).WpFin (requestBound driver bound room) Q n := by
  refine ⟨⟨by rw [hfree]; exact hn, fun _ => hserved⟩, fun r n' hnext => ?_⟩
  rw [hnext.2, hfree]
  exact hf r hnext.1

theorem undefined_bound (hroom : ¬room) {Q : α → Nat → Prop} {n : Nat} (hn : n ≤ bound) :
    (undefined : Prog api α).WpFin (requestBound driver bound room) Q n :=
  ⟨⟨hn, fun h => absurd h hroom⟩, fun r => nomatch r⟩

theorem requestTransferTable_bound (ry : RyzenAccess) {n : Nat} (hn : n + 3 ≤ bound) :
    (requestTransferTable ry).WpFin (requestBound driver bound room)
      (fun _ n' => n' ≤ n + 3) n := by
  have hcode : ∀ {resp : Word} {m : Nat}, m ≤ n + 3 →
      (if resp ≠ repMsgOK then Prog.ret (S := api) (translatedSmuError resp) else Prog.ret 0).WpFin
        (requestBound driver bound room) (fun _ n' => n' ≤ n + 3) m :=
    fun hm => Prog.wpFin_ite (fun _ => hm) fun _ => hm
  unfold requestTransferTable
  cases tableFamily ry.family with
  | none => exact Nat.le_add_right n 3
  | some fam =>
    apply request_bound (by omega)
    intro first
    refine Prog.wpFin_ite (fun _ => ?_) fun _ => hcode (by omega)
    apply other_bound Api.Op.noConfusion rfl (by omega)
    intro _ _
    apply request_bound (by omega)
    intro second
    refine Prog.wpFin_ite (fun _ => ?_) fun _ => hcode (by omega)
    apply other_bound Api.Op.noConfusion rfl (by omega)
    intro _ _
    exact request_bound (by omega) fun third => hcode (by omega)

theorem needTransfer_bound {buf : List Byte} (hroom : room → 24 ≤ buf.length) {n : Nat}
    (hn : n ≤ bound) :
    (needTransfer buf).WpFin (requestBound driver bound room) (fun _ n' => n' = n) n := by
  unfold needTransfer
  cases hcell : cellAt buf 0 with
  | none =>
    have hshort := length_lt_of_cellAt hcell
    exact undefined_bound (fun h => by have := hroom h; omega) hn
  | some first =>
    refine Prog.wpFin_ite (fun _ => rfl) fun _ => ?_
    refine Prog.wpFin_ite (fun hshort => ?_) fun _ => ?_
    · exact undefined_bound (fun h => by have := hroom h; omega) hn
    · exact other_bound Api.Op.noConfusion rfl hn fun _ _ => rfl

/-- A handle that differs in its buffer at most, and not in the length of it. -/
def SameBut (ry : RyzenAccess) (buf : List Byte) (ry' : RyzenAccess) : Prop :=
  ∃ buf', ry' = { ry with tableValues := some buf' } ∧ buf'.length = buf.length

theorem copyTable_bound (ry : RyzenAccess) {buf : List Byte}
    (hroom : room → ry.tableSize ≤ buf.length) {n : Nat} (hn : n ≤ bound) :
    (copyTable ry buf).WpFin (requestBound driver bound room)
      (fun r n' => SameBut ry buf r.2 ∧ n' = n) n := by
  apply other_bound Api.Op.noConfusion rfl hn
  intro t _
  by_cases hstore : t.data.length ≤ buf.length
  · rw [show storeBytes buf t.data = some (overwrite buf t.data) from if_pos hstore]
    have hsame : SameBut ry buf { ry with tableValues := some (overwrite buf t.data) } :=
      ⟨_, rfl, overwrite_length hstore⟩
    exact Prog.wpFin_ite (fun _ => ⟨hsame, rfl⟩) fun _ => ⟨hsame, rfl⟩
  · rw [show storeBytes buf t.data = none from if_neg hstore]
    exact undefined_bound (fun h => hstore (Nat.le_trans t.data_le (hroom h))) hn

theorem refreshTableBody_bound (ry : RyzenAccess) {buf : List Byte}
    (hbuf : ry.tableValues = some buf) (hroom : room → Refreshable driver ry.tableSize buf)
    {n : Nat} (hn : n + 3 ≤ bound) :
    (refreshTableBody ry).WpFin (requestBound driver bound room)
      (fun r n' => SameBut ry buf r.2 ∧ n' ≤ n + 3) n := by
  have hcopy : ∀ {m : Nat}, m ≤ n + 3 → (copyTable ry buf).WpFin (requestBound driver bound room)
      (fun r n' => SameBut ry buf r.2 ∧ n' ≤ n + 3) m := fun hm =>
    Prog.wpFin_mono (copyTable_bound ry (fun h => (hroom h).size_le) (by omega)) fun _ _ h =>
      ⟨h.1, h.2 ▸ hm⟩
  have hself : SameBut ry buf ry := ⟨buf, by rw [← hbuf], rfl⟩
  unfold refreshTableBody
  rw [hbuf]
  apply other_bound Api.Op.noConfusion rfl (by omega)
  intro flag hflag
  obtain rfl : flag = driver := hflag
  have hend : ∀ (code : Int) (m : Nat), m ≤ n + 3 →
      (if code ≠ 0 then pure (code, ry) else copyTable ry buf).WpFin
        (requestBound flag bound room) (fun r n' => SameBut ry buf r.2 ∧ n' ≤ n + 3) m :=
    fun _ _ hm => Prog.wpFin_ite (fun _ => ⟨hself, hm⟩) fun _ => hcopy hm
  -- whether a transfer is needed or not, the copy comes after it
  have htransfer : ∀ transfer : Bool,
      (if transfer then (requestTransferTable ry).bind fun code =>
          if code ≠ 0 then pure (code, ry) else copyTable ry buf
        else if (0 : Int) ≠ 0 then pure (0, ry) else copyTable ry buf).WpFin
        (requestBound flag bound room) (fun r n' => SameBut ry buf r.2 ∧ n' ≤ n + 3) n := by
    intro transfer
    refine Prog.wpFin_ite (fun _ => ?_) fun _ => hend 0 n (Nat.le_add_right n 3)
    exact Prog.wpFin_seq (requestTransferTable_bound ry hn) hend
  refine Prog.wpFin_ite (fun _ => htransfer false) fun hoff => ?_
  have hneed : (needTransfer buf).WpFin (requestBound flag bound room) (fun _ n' => n' = n) n :=
    needTransfer_bound (fun h => (hroom h).compared (Bool.eq_false_iff.mpr hoff)) (by omega)
  apply Prog.wpFin_seq hneed
  intro transfer m hm
  rw [hm]
  exact htransfer transfer

theorem fillTable_bound (depth : Nat) (ry : RyzenAccess) {buf : List Byte}
    (hbuf : ry.tableValues = some buf) (hroom : room → Refreshable driver ry.tableSize buf)
    {n : Nat} (hn : n + 6 ≤ bound) :
    (fillTable (refreshTable (depth + 1)) ry).WpFin (requestBound driver bound room)
      (fun r n' => SameBut ry buf r.2 ∧ n' ≤ n + 6) n := by
  have hfirst := refreshTableBody_bound ry hbuf hroom (show n + 3 ≤ bound by omega)
  unfold fillTable
  rw [refreshTable_of_buffer depth ry hbuf]
  apply Prog.wpFin_seq hfirst
  intro r m hr
  obtain ⟨code, ry'⟩ := r
  obtain ⟨⟨buf', hry, hlen⟩, hm⟩ := hr
  obtain rfl : ry' = _ := hry
  have hsame : SameBut ry buf { ry with tableValues := some buf' } := ⟨buf', rfl, hlen⟩
  refine Prog.wpFin_ite (fun _ => ⟨hsame, by omega⟩) fun _ => ?_
  have hroom' : room → Refreshable driver ry.tableSize buf' := fun h => (hroom h).of_length hlen
  cases hcell : cellAt buf' 0 with
  | none =>
    simp only [Option.bind_some, hcell]
    have hshort := length_lt_of_cellAt hcell
    exact undefined_bound (fun h => by have := (hroom' h).first; omega) (by omega)
  | some first =>
    simp only [Option.bind_some, hcell]
    refine Prog.wpFin_ite (fun _ => ?_) fun _ => ⟨hsame, by omega⟩
    apply other_bound Api.Op.noConfusion rfl (by omega)
    intro _ _
    rw [refreshTable_of_buffer depth { ry with tableValues := some buf' } rfl]
    have hsecond := refreshTableBody_bound { ry with tableValues := some buf' } rfl hroom'
      (show m + 3 ≤ bound by omega)
    apply Prog.wpFin_mono hsecond
    intro r n' hr
    obtain ⟨⟨buf'', hry, hlen'⟩, hn'⟩ := hr
    exact ⟨⟨buf'', hry, hlen'.trans hlen⟩, by omega⟩

theorem requestTableVerAndSize_bound (ry : RyzenAccess) {n : Nat} (hn : n + 1 ≤ bound) :
    (requestTableVerAndSize ry).WpFin (requestBound driver bound room)
      (fun r n' => (r.2 = ry ∧ r.1 ≠ 0 ∨ ∃ ver, r.2 = ry.withVersion ver) ∧ n' ≤ n + 1) n := by
  unfold requestTableVerAndSize
  cases tableFamily ry.family with
  | none => exact ⟨.inl ⟨rfl, show adjErrFamUnsupported ≠ 0 by decide⟩, Nat.le_add_right n 1⟩
  | some fam =>
    apply request_bound hn
    intro r
    have hver : ∃ ver, ry.withVersion r.2.arg0 = ry.withVersion ver := ⟨_, rfl⟩
    refine Prog.wpFin_ite (fun _ => ⟨.inr hver, Nat.le_refl _⟩) fun _ => ?_
    exact Prog.wpFin_ite (fun _ => ⟨.inr hver, Nat.le_refl _⟩) fun _ => ⟨.inr hver, Nat.le_refl _⟩

theorem requestTableAddr_bound (ry : RyzenAccess) {n : Nat} (hn : n + 1 ≤ bound) :
    (requestTableAddr ry).WpFin (requestBound driver bound room)
      (fun r n' => (∃ addr, r.2 = ry.withAddr addr) ∧ n' ≤ n + 1) n := by
  unfold requestTableAddr
  cases tableFamily ry.family with
  | none => exact ⟨⟨ry.tableAddr, rfl⟩, Nat.le_add_right n 1⟩
  | some fam =>
    apply request_bound hn
    intro r
    have haddr : ∃ addr, ry.withAddr (tableAddrOf fam r.2) = ry.withAddr addr := ⟨_, rfl⟩
    refine Prog.wpFin_ite (fun _ => ⟨haddr, Nat.le_refl _⟩) fun _ => ?_
    exact Prog.wpFin_ite (fun _ => ⟨haddr, Nat.le_refl _⟩) fun _ => ⟨haddr, Nat.le_refl _⟩

/-- A size of which the buffer of `init_table` has room for what `refresh_table` reads. -/
structure Fillable (driver : Bool) (size : Nat) : Prop where
  pos : 0 < size
  cells : size % 4 = 0
  compared : driver = false → 24 ≤ size

theorem Fillable.refreshable {size : Nat} (h : Fillable driver size) :
    Refreshable driver size (List.replicate (4 * (size / 4)) 0) := by
  have hlen : (List.replicate (4 * (size / 4)) (0 : Byte)).length = size := by
    have := h.cells
    rw [List.length_replicate]
    omega
  have := h.pos
  have := h.cells
  constructor
  · omega
  · omega
  · exact fun hd => hlen.symm ▸ h.compared hd

/-- The handle with the size `init_table` has decided on. -/
def Resized (driver : Bool) (ry ry' : RyzenAccess) : Prop :=
  ∃ size, ry' = { ry with tableSize := size } ∧ Fillable driver size

theorem preferKmodSize_bound (ry : RyzenAccess) (hsize : Fillable driver ry.tableSize)
    (hroom : room → driver = ry.osAccess.isKmod) {n : Nat} (hn : n ≤ bound) :
    (preferKmodSize ry).WpFin (requestBound driver bound room)
      (fun ry' n' => Resized driver ry ry' ∧ n' = n) n := by
  apply other_bound Api.Op.noConfusion rfl hn
  intro flag hflag
  obtain rfl : flag = driver := hflag
  have hself : Resized flag ry ry := ⟨ry.tableSize, rfl, hsize⟩
  refine Prog.wpFin_ite (fun _ => ⟨hself, rfl⟩) fun hdriver => ?_
  have hdriver : flag = true := by simpa using hdriver
  cases hobj : ry.osAccess with
  | mem o =>
    refine undefined_bound (fun h => ?_) hn
    have hkmod := hroom h
    rw [hobj, hdriver] at hkmod
    cases hkmod
  | kmod o =>
    refine Prog.wpFin_ite (fun hsize => ?_) fun _ => ⟨hself, rfl⟩
    refine ⟨⟨o.pmTableSize, by rw [hobj], Nat.pos_of_ne_zero hsize.2.1, hsize.2.2.1, fun h => ?_⟩,
      rfl⟩
    rw [hdriver] at h
    cases h

def HasTable (driver : Bool) (r : Int × RyzenAccess) : Prop :=
  r.1 = 0 → ∃ buf, r.2.tableValues = some buf ∧ Refreshable driver r.2.tableSize buf

theorem initTableBuffer_bound (depth : Nat) (ry : RyzenAccess)
    (hsize : Fillable driver ry.tableSize) (hroom : room → driver = ry.osAccess.isKmod) {n : Nat}
    (hn : n + 6 ≤ bound) :
    (initTableBuffer (refreshTable (depth + 1)) ry).WpFin (requestBound driver bound room)
      (fun r n' => HasTable driver r ∧ n' ≤ n + 6) n := by
  have hfails : ∀ ry' : RyzenAccess, HasTable driver (adjErrMemoryAccess, ry') :=
    fun _ h => absurd h (show adjErrMemoryAccess ≠ 0 by decide)
  refine Prog.wpFin_ite (fun _ => ⟨hfails _, Nat.le_add_right n 6⟩) fun _ => ?_
  apply other_bound Api.Op.noConfusion rfl (by omega)
  intro mapped _
  refine Prog.wpFin_ite (fun _ => ⟨hfails _, Nat.le_add_right n 6⟩) fun _ => ?_
  have hkmod := preferKmodSize_bound ry hsize hroom (show n ≤ bound by omega)
  apply Prog.wpFin_seq hkmod
  intro ry' m hry
  obtain ⟨⟨size, rfl, hfill⟩, rfl⟩ := hry
  apply other_bound Api.Op.noConfusion rfl (by omega)
  intro allocated _
  refine Prog.wpFin_ite (fun _ => ⟨hfails _, Nat.le_add_right m 6⟩) fun _ => ?_
  apply Prog.wpFin_mono (fillTable_bound depth _ rfl (fun _ => hfill.refreshable) hn)
  intro r n' hr
  obtain ⟨⟨buf', hry, hlen⟩, hn'⟩ := hr
  refine ⟨fun _ => ?_, hn'⟩
  rw [hry]
  exact ⟨buf', rfl, hfill.refreshable.of_length hlen⟩

theorem initTableLocked_bound (depth : Nat) (ry : RyzenAccess)
    (hroom : room → driver = ry.osAccess.isKmod) {n : Nat} (hn : n + 8 ≤ bound) :
    (initTableLocked (refreshTable (depth + 1)) ry).WpFin (requestBound driver bound room)
      (fun r n' => HasTable driver r ∧ n' ≤ n + 8) n := by
  have hfails : ∀ (code : Int) (ry' : RyzenAccess), code ≠ 0 → HasTable driver (code, ry') :=
    fun _ _ hcode h => absurd h hcode
  apply Prog.wpFin_seq (requestTableVerAndSize_bound ry (show n + 1 ≤ bound by omega))
  intro r₁ n₁ hr₁
  obtain ⟨code, ry₁⟩ := r₁
  obtain ⟨hry₁, hn₁⟩ := hr₁
  refine Prog.wpFin_ite (fun hcode => ⟨hfails code _ hcode, by omega⟩) fun hcode => ?_
  obtain ⟨ver, rfl⟩ : ∃ ver, ry₁ = ry.withVersion ver := hry₁.resolve_left fun h => hcode h.2
  apply Prog.wpFin_seq (requestTableAddr_bound _ (show n₁ + 1 ≤ bound by omega))
  intro r₂ n₂ hr₂
  obtain ⟨code', ry₂⟩ := r₂
  obtain ⟨⟨addr, rfl⟩, hn₂⟩ := hr₂
  refine Prog.wpFin_ite (fun hcode => ⟨hfails code' _ hcode, by omega⟩) fun _ => ?_
  have haccepted := tableSizeOf_accepted ver
  have hsize : Fillable driver (tableSizeOf ver) := ⟨by omega, haccepted.2.1, fun _ => by omega⟩
  have hbuffer := initTableBuffer_bound depth ((ry.withVersion ver).withAddr addr) hsize hroom
    (show n₂ + 6 ≤ bound by omega)
  exact Prog.wpFin_mono hbuffer fun r n' h => ⟨h.1, by omega⟩

theorem initTable_bound (depth : Nat) (ry : RyzenAccess) (hidle : ry.tableInitBusy = false)
    (hroom : room → driver = ry.osAccess.isKmod) {n : Nat} (hn : n + 8 ≤ bound) :
    (initTable (depth + 1) ry).WpFin (requestBound driver bound room)
      (fun r n' => (HasTable driver r ∧ r.2.tableInitBusy = false) ∧ n' ≤ n + 8) n := by
  have hlocked := initTableLocked_bound depth { ry with tableInitBusy := true } hroom hn
  refine Prog.wpFin_ite (fun hbusy => absurd (hidle.symm.trans hbusy) Bool.false_ne_true) ?_
  exact fun _ => Prog.wpFin_seq hlocked fun r n' h => ⟨⟨h.1, rfl⟩, h.2⟩

/-- The requests of `_lazy_init_table`: none where there is a buffer. -/
def lazyRequests (ry : RyzenAccess) : Nat := if ry.tableValues.isSome then 0 else 8

theorem lazyInitTable_bound (depth : Nat) (ry : RyzenAccess) (hidle : ry.tableInitBusy = false)
    (hroom : room → driver = ry.osAccess.isKmod) {n : Nat} (hn : n + lazyRequests ry ≤ bound) :
    (lazyInitTable (initTable (depth + 1)) ry).WpFin (requestBound driver bound room)
      (fun r n' => (HasTable driver r ∨ r = (0, ry) ∧ ry.tableValues.isSome = true) ∧
        r.2.tableInitBusy = false ∧ n' ≤ n + lazyRequests ry) n := by
  unfold lazyInitTable
  unfold lazyRequests at hn ⊢
  cases hvalues : ry.tableValues with
  | none =>
    rw [hvalues] at hn
    apply Prog.wpFin_mono (initTable_bound depth ry hidle hroom hn)
    intro r n' h
    exact ⟨.inl h.1.1, h.1.2, h.2⟩
  | some buf => exact ⟨.inr ⟨rfl, rfl⟩, hidle, Nat.le_refl _⟩

theorem refreshTable_bound (depth : Nat) (ry : RyzenAccess) (hidle : ry.tableInitBusy = false)
    (hroom : room → driver = ry.osAccess.isKmod ∧
      ∀ buf, ry.tableValues = some buf → Refreshable driver ry.tableSize buf)
    {n : Nat} (hn : n + lazyRequests ry + 3 ≤ bound) :
    (refreshTable (depth + 2) ry).WpFin (requestBound driver bound room)
      (fun r _ => r.2.tableInitBusy = false) n := by
  have hlazy := lazyInitTable_bound depth ry hidle (fun h => (hroom h).1)
    (show n + lazyRequests ry ≤ bound by omega)
  apply Prog.wpFin_seq hlazy
  intro r n' hr
  obtain ⟨code, ry'⟩ := r
  obtain ⟨hhas, hbusy, hn'⟩ := hr
  refine Prog.wpFin_ite (fun _ => hbusy) fun hcode => ?_
  obtain ⟨buf, hvalues, hfresh⟩ : ∃ buf, ry'.tableValues = some buf ∧
      (room → Refreshable driver ry'.tableSize buf) := by
    rcases hhas with hhas | ⟨hsame, hsome⟩
    · obtain ⟨buf, hvalues, hfresh⟩ := hhas (not_not.mp hcode)
      exact ⟨buf, hvalues, fun _ => hfresh⟩
    · obtain ⟨-, rfl⟩ := Prod.mk.inj hsame
      obtain ⟨buf, hvalues⟩ := Option.isSome_iff_exists.mp hsome
      exact ⟨buf, hvalues, fun h => (hroom h).2 buf hvalues⟩
  apply Prog.wpFin_mono (refreshTableBody_bound ry' hvalues hfresh (by omega))
  intro r m hr
  obtain ⟨⟨buf', hry, -⟩, hm⟩ := hr
  rw [hry]
  exact hbusy

end Bounds

/-! ### A second entry -/

/-- `init_table`, going on with `onBusy` where it is entered while `table_init_busy` is set. -/
def initTableOr (onBusy : RyzenAccess → Prog api (Int × RyzenAccess))
    (refresh : RyzenAccess → Prog api (Int × RyzenAccess)) (ry : RyzenAccess) :
    Prog api (Int × RyzenAccess) :=
  if ry.tableInitBusy then onBusy ry else initTableWith refresh ry

/-- `refresh_table` over that `init_table`. -/
def refreshTableOr (onBusy : RyzenAccess → Prog api (Int × RyzenAccess)) :
    Nat → RyzenAccess → Prog api (Int × RyzenAccess)
  | 0, _ => undefined
  | depth + 1, ry => do
    let (errorcode, ry) ← lazyInitTable (initTableOr onBusy (refreshTableOr onBusy depth)) ry
    if errorcode ≠ 0 then return (errorcode, ry)
    refreshTableBody ry

def getTableVerOr (onBusy : RyzenAccess → Prog api (Int × RyzenAccess)) (depth : Nat)
    (ry : RyzenAccess) : Prog api (Word × RyzenAccess) := do
  let (errorcode, ry) ← lazyInitTable (initTableOr onBusy (refreshTableOr onBusy depth)) ry
  if errorcode ≠ 0 then return (0, ry)
  return (ry.tableVer, ry)

def getTableSizeOr (onBusy : RyzenAccess → Prog api (Int × RyzenAccess)) (depth : Nat)
    (ry : RyzenAccess) : Prog api (Nat × RyzenAccess) := do
  let (errorcode, ry) ← lazyInitTable (initTableOr onBusy (refreshTableOr onBusy depth)) ry
  if errorcode ≠ 0 then return (0, ry)
  return (ry.tableSize, ry)

/-- The code does as `refreshTableOr` does when a second entry is refused. -/
theorem refreshTable_eq_or (depth : Nat) :
    refreshTable depth = refreshTableOr (fun ry => pure (adjErrMemoryAccess, ry)) depth := by
  induction depth with
  | zero => rfl
  | succ depth ih =>
    have hinit : initTableWith (refreshTable depth) =
        initTableOr (fun ry => pure (adjErrMemoryAccess, ry)) (refreshTable depth) := by
      funext ry
      unfold initTableOr initTableWith
      cases ry.tableInitBusy <;> rfl
    funext ry
    rw [refreshTable, refreshTableOr, hinit, ih]

section SecondEntry
variable {refresh refresh' : RyzenAccess → Prog api (Int × RyzenAccess)}
  {onBusy : RyzenAccess → Prog api (Int × RyzenAccess)}

theorem fillTable_congr
    (h : ∀ ry buf, ry.tableValues = some buf → refresh ry = refresh' ry) (ry : RyzenAccess)
    {buf : List Byte} (hbuf : ry.tableValues = some buf) :
    fillTable refresh ry = fillTable refresh' ry := by
  unfold fillTable
  rw [h ry buf hbuf]
  refine congrArg (Prog.bind _) (funext fun r => ?_)
  obtain ⟨code, ry'⟩ := r
  cases hvalues : ry'.tableValues with
  | none => simp only [hvalues, Option.bind_none]
  | some buf' => simp only [hvalues, h ry' buf' hvalues]

theorem initTableLocked_congr
    (h : ∀ ry buf, ry.tableValues = some buf → refresh ry = refresh' ry) (ry : RyzenAccess) :
    initTableLocked refresh ry = initTableLocked refresh' ry := by
  have hbuffer : ∀ ry, initTableBuffer refresh ry = initTableBuffer refresh' ry := by
    intro ry
    refine ite_congr rfl (fun _ => rfl) fun _ => congrArg (Prog.bind _) (funext fun mapped => ?_)
    refine ite_congr rfl (fun _ => rfl) fun _ => congrArg (Prog.bind _) (funext fun ry' => ?_)
    refine congrArg (Prog.bind _) (funext fun allocated => ?_)
    exact ite_congr rfl (fun _ => rfl) fun _ => fillTable_congr h _ rfl
  unfold initTableLocked
  simp only [hbuffer]

theorem initTable_depth (depth : Nat) : initTable (depth + 1) = initTable 1 := by
  have hrefresh : ∀ ry buf, ry.tableValues = some buf →
      refreshTable (depth + 1) ry = refreshTable 1 ry := by
    intro ry buf hbuf
    rw [refreshTable_of_buffer depth ry hbuf, refreshTable_of_buffer 0 ry hbuf]
  funext ry
  simp only [initTable, initTableWith, initTableLocked_congr hrefresh]

theorem refreshTable_depth (depth : Nat) : refreshTable (depth + 2) = refreshTable 2 := by
  have hinit : initTableWith (refreshTable (depth + 1)) = initTableWith (refreshTable 1) :=
    initTable_depth depth
  funext ry
  rw [refreshTable, hinit]
  rfl

theorem refreshTableOr_of_buffer (depth : Nat) (ry : RyzenAccess) {buf : List Byte}
    (hbuf : ry.tableValues = some buf) :
    refreshTableOr onBusy (depth + 1) ry = refreshTable (depth + 1) ry := by
  rw [refreshTable_of_buffer depth ry hbuf]
  simp only [refreshTableOr, lazyInitTable, hbuf]
  rfl

theorem initTableOr_idle (depth : Nat) (ry : RyzenAccess) (hidle : ry.tableInitBusy = false) :
    initTableOr onBusy (refreshTableOr onBusy (depth + 1)) ry = initTable (depth + 1) ry := by
  have hlocked : ∀ ry, initTableLocked (refreshTableOr onBusy (depth + 1)) ry =
      initTableLocked (refreshTable (depth + 1)) ry :=
    initTableLocked_congr fun ry buf hbuf => refreshTableOr_of_buffer depth ry hbuf
  simp only [initTableOr, initTable, initTableWith, hidle, hlocked]
  rfl

theorem lazyInitTableOr_idle (depth : Nat) (ry : RyzenAccess) (hidle : ry.tableInitBusy = false) :
    lazyInitTable (initTableOr onBusy (refreshTableOr onBusy (depth + 1))) ry =
      lazyInitTable (initTable (depth + 1)) ry := by
  unfold lazyInitTable
  cases ry.tableValues with
  | none => exact initTableOr_idle depth ry hidle
  | some buf => rfl

theorem refreshTableOr_idle (depth : Nat) (ry : RyzenAccess) (hidle : ry.tableInitBusy = false) :
    refreshTableOr onBusy (depth + 2) ry = refreshTable (depth + 2) ry := by
  show (lazyInitTable (initTableOr onBusy (refreshTableOr onBusy (depth + 1))) ry).bind _ = _
  rw [lazyInitTableOr_idle depth ry hidle]
  rfl

end SecondEntry

/-! ### Calls -/

namespace TableCall

def progOr (onBusy : RyzenAccess → Prog api (Int × RyzenAccess)) (depth : Nat) (ry : RyzenAccess) :
    TableCall → Prog api (TableAnswer × RyzenAccess)
  | .initTable => do
    let (errorcode, ry) ← initTableOr onBusy (refreshTableOr onBusy depth) ry
    return (.code errorcode, ry)
  | .refreshTable => do
    let (errorcode, ry) ← refreshTableOr onBusy depth ry
    return (.code errorcode, ry)
  | .getTableVer => do
    let (v, ry) ← getTableVerOr onBusy depth ry
    return (.ver v, ry)
  | .getTableSize => do
    let (n, ry) ← getTableSizeOr onBusy depth ry
    return (.size n, ry)
  | .getter g core => (TableCall.getter g core).prog depth ry

def maxRequests (ry : RyzenAccess) : TableCall → Nat
  | .initTable => 8
  | .refreshTable => if ry.tableValues.isSome then 3 else 11
  | .getTableVer | .getTableSize => if ry.tableValues.isSome then 0 else 8
  | .getter _ _ => 0

/-- The flag of the driver is that of the access object, and the buffer has what a refresh or a
getter reads of it. -/
def InRoom (driver : Bool) (ry : RyzenAccess) : TableCall → Prop
  | .initTable | .getTableVer | .getTableSize => driver = ry.osAccess.isKmod
  | .refreshTable => driver = ry.osAccess.isKmod ∧
    ∀ buf, ry.tableValues = some buf → Refreshable driver ry.tableSize buf
  | .getter g core => (g.read ry core).isSome = true

end TableCall

/-- What holds of a call on an idle handle, whatever the calls it makes answer. -/
structure TableCallBounded (driver : Bool) (depth : Nat) (ry : RyzenAccess) (c : TableCall) :
    Prop where
  /-- There is no infinite run. -/
  finite : Acc (fun d e => Prog.Step (requestCount driver) e d) (c.prog depth ry, 0)
  /-- A run that does not go on has returned, or uses a pointer outside what it points to. -/
  stops : ∀ p n, Prog.Steps (requestCount driver) (c.prog depth ry, 0) (p, n) →
    (∀ d, ¬Prog.Step (requestCount driver) (p, n) d) →
    (∃ r, p = .ret r) ∨ ∃ k, p = .call .undefined k
  returns : c.InRoom driver ry →
    Prog.Ends (requestCount driver) (fun _ _ => True) (c.prog depth ry, 0)
  requests : ∀ p n, Prog.Steps (requestCount driver) (c.prog depth ry, 0) (p, n) →
    n ≤ c.maxRequests ry
  idle : ∀ r n, Prog.Steps (requestCount driver) (c.prog depth ry, 0) (.ret r, n) →
    r.2.tableInitBusy = false
  /-- It is the same whatever `init_table` does where it is entered a second time. -/
  once : ∀ onBusy, c.progOr onBusy depth ry = c.prog depth ry

theorem progOr_idle (onBusy : RyzenAccess → Prog api (Int × RyzenAccess)) (depth : Nat)
    (ry : RyzenAccess) (hidle : ry.tableInitBusy = false) (c : TableCall) :
    c.progOr onBusy (depth + 2) ry = c.prog (depth + 2) ry := by
  cases c with
  | initTable => rw [TableCall.progOr, TableCall.prog, initTableOr_idle (depth + 1) ry hidle]
  | refreshTable => rw [TableCall.progOr, TableCall.prog, refreshTableOr_idle depth ry hidle]
  | getTableVer =>
    rw [TableCall.progOr, TableCall.prog, getTableVerOr, getTableVer,
      lazyInitTableOr_idle (depth + 1) ry hidle]
  | getTableSize =>
    rw [TableCall.progOr, TableCall.prog, getTableSizeOr, getTableSize,
      lazyInitTableOr_idle (depth + 1) ry hidle]
  | getter g core => rfl

/-- Two levels are enough: a `refresh_table` in `init_table` does not go deeper. -/
theorem prog_depth (depth : Nat) (ry : RyzenAccess) (c : TableCall) :
    c.prog (depth + 2) ry = c.prog 2 ry := by
  have hinit : initTable (depth + 2) = initTable 2 :=
    (initTable_depth (depth + 1)).trans (initTable_depth 1).symm
  cases c with
  | initTable => rw [TableCall.prog, TableCall.prog, hinit]
  | refreshTable => rw [TableCall.prog, TableCall.prog, refreshTable_depth]
  | getTableVer => rw [TableCall.prog, TableCall.prog, getTableVer, getTableVer, hinit]
  | getTableSize => rw [TableCall.prog, TableCall.prog, getTableSize, getTableSize, hinit]
  | getter g core => rfl

theorem tableCall_bound (driver : Bool) (depth : Nat) (ry : RyzenAccess)
    (hidle : ry.tableInitBusy = false) (c : TableCall) :
    (c.prog (depth + 2) ry).WpFin (requestBound driver (c.maxRequests ry) (c.InRoom driver ry))
      (fun r _ => r.2.tableInitBusy = false) 0 := by
  cases c with
  | initTable =>
    have hinit := initTable_bound (depth + 1) ry hidle
      (fun h : TableCall.initTable.InRoom driver ry => h) (Nat.le_refl (0 + 8))
    exact Prog.wpFin_seq hinit fun r n h => h.1.2
  | refreshTable =>
    have hmax : 0 + lazyRequests ry + 3 ≤ TableCall.refreshTable.maxRequests ry := by
      unfold lazyRequests TableCall.maxRequests
      split <;> decide
    have hrefresh := refreshTable_bound depth ry hidle
      (fun h : TableCall.refreshTable.InRoom driver ry => h) hmax
    exact Prog.wpFin_seq hrefresh fun r n h => h
  | getTableVer =>
    have hlazy := lazyInitTable_bound (depth + 1) ry hidle
      (fun h : TableCall.getTableVer.InRoom driver ry => h) (Nat.le_of_eq (Nat.zero_add _))
    apply Prog.wpFin_bind
    apply Prog.wpFin_seq hlazy
    intro r n h
    exact Prog.wpFin_ite (fun _ => h.2.1) fun _ => h.2.1
  | getTableSize =>
    have hlazy := lazyInitTable_bound (depth + 1) ry hidle
      (fun h : TableCall.getTableSize.InRoom driver ry => h) (Nat.le_of_eq (Nat.zero_add _))
    apply Prog.wpFin_bind
    apply Prog.wpFin_seq hlazy
    intro r n h
    exact Prog.wpFin_ite (fun _ => h.2.1) fun _ => h.2.1
  | getter g core =>
    simp only [TableCall.prog]
    cases hread : g.read ry core with
    | none =>
      refine undefined_bound (fun h => ?_) (Nat.le_refl 0)
      have hsome : (g.read ry core).isSome = true := h
      rw [hread] at hsome
      cases hsome
    | some v => exact hidle

/-- Every call has an answer, the use of a pointer outside what it points to apart. -/
theorem exists_answer (driver : Bool) (o : Api.Op) (h : o ≠ .undefined) :
    ∃ r, o.Answers driver r := by
  cases o with
  | smuServiceReq smu id args => exact ⟨(0, Args.zero), trivial⟩
  | getSmu obj smuType => exact ⟨none, trivial⟩
  | cpuidGetFamily => exact ⟨.unknown, trivial⟩
  | initOsAccessObj => exact ⟨none, trivial⟩
  | freeOsAccessObj obj => exact ⟨(), trivial⟩
  | isUsingSmuDriver => exact ⟨driver, rfl⟩
  | initMemObj obj physAddr size => exact ⟨false, trivial⟩
  | copyPmTable obj size => exact ⟨.failed size eIo, trivial⟩
  | comparePmTable buffer => exact ⟨0, trivial⟩
  | malloc => exact ⟨false, trivial⟩
  | calloc nmemb => exact ⟨false, trivial⟩
  | sleep ms => exact ⟨(), trivial⟩
  | undefined => exact absurd rfl h

theorem table_call_bounded (driver : Bool) (depth : Nat) (ry : RyzenAccess)
    (hidle : ry.tableInitBusy = false) (c : TableCall) :
    TableCallBounded driver (depth + 2) ry c := by
  have hwp := tableCall_bound driver depth ry hidle c
  have hnext : ∀ n o r n', (requestCount driver).next n o r n' ↔
      (requestBound driver (c.maxRequests ry) (c.InRoom driver ry)).next n o r n' :=
    fun _ _ _ _ => Iff.rfl
  have hsteps : ∀ {d e : Prog api (TableAnswer × RyzenAccess) × Nat},
      Prog.Steps (requestCount driver) d e →
      Prog.Steps (requestBound driver (c.maxRequests ry) (c.InRoom driver ry)) d e :=
    fun hst => hst.of_next fun n o r n' => (hnext n o r n').mp
  constructor
  · refine Subrelation.accessible ?_ (Prog.acc_of_wpFin hwp)
    exact fun h => Prog.step_of_next (fun n o r n' => (hnext n o r n').mp) h
  · intro p n hst hstuck
    have hstuck' : ∀ e, ¬Prog.Step (requestBound driver (c.maxRequests ry) (c.InRoom driver ry))
        (p, n) e :=
      fun e he => hstuck e (Prog.step_of_next (fun n o r n' => (hnext n o r n').mpr) he)
    rcases Prog.stuck_of_wpFin hwp (hsteps hst) hstuck' with hret | ⟨o, k, hcall, hnone⟩
    · exact .inl hret
    · by_cases hundef : o = .undefined
      · subst hundef
        exact .inr ⟨k, hcall⟩
      · obtain ⟨r, hr⟩ := exists_answer driver o hundef
        exact absurd ⟨hr, rfl⟩ (hnone r _)
  · intro hroom
    have hanswer : ∀ n o, (requestBound driver (c.maxRequests ry) (c.InRoom driver ry)).guard n o →
        ∃ r n', (requestBound driver (c.maxRequests ry) (c.InRoom driver ry)).next n o r n' := by
      intro n o hguard
      obtain ⟨r, hr⟩ := exists_answer driver o (hguard.2 hroom)
      exact ⟨r, n + o.requests, hr, rfl⟩
    have hends := (Prog.ends_of_wpFin hanswer hwp).mono (R := fun _ _ => True)
      fun _ _ _ => trivial
    exact hends.of_next fun n o r n' => (hnext n o r n').symm
  · intro p n hst
    refine Prog.wp_always _ (P := fun n => n ≤ c.maxRequests ry) ?_ (Nat.zero_le _)
      (Prog.wp_of_wpFin hwp) (hsteps hst)
    intro n o r n' hguard hstep _
    rw [hstep.2]
    exact hguard.1
  · intro r n hst
    have hbusy := Prog.wp_steps _ (hsteps hst) (Prog.wp_of_wpFin hwp)
    exact hbusy
  · exact fun onBusy => progOr_idle onBusy depth ry hidle c

theorem table_call_bounded_raven :
    TableCallBounded false 2 ravenHandle .refreshTable ∧
      TableCall.refreshTable.maxRequests ravenHandle = 11 :=
  ⟨table_call_bounded false 0 ravenHandle rfl .refreshTable, rfl⟩

end RyzenAdj
