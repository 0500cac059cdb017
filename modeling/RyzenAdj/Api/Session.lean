import RyzenAdj.Api.Setters
import RyzenAdj.Api.TableCalls

/-!
# Library calls of a process (`lib/api.c`)

`init_ryzenadj`, `cleanup_ryzenadj` and the calls on a handle, and what a call
on a handle may ask of the layers below: requests, mappings and copies on the
objects of that handle, and nothing else.
-/

namespace RyzenAdj
open Interaction Api

/-- `cleanup_ryzenadj`; freeing the memory of the handle has no effect kept here. -/
def cleanupRyzenadj (obj : OsAccessObj) : Prog api Unit := freeOsAccessObj obj

def initRyzenadj : Prog api (Option RyzenAccess) := do
  let family ← cpuidGetFamily
  if family = .unknown then return none
  let allocated ← malloc
  if !allocated then return none
  match ← initOsAccessObj with
  | none => return none
  | some obj =>
    match ← Api.getSmu obj .mp1 with
    | none =>
      cleanupRyzenadj obj
      return none
    | some mp1Smu =>
      match ← Api.getSmu obj .psmu with
      | none =>
        cleanupRyzenadj obj
        return none
      | some psmu => return some (freshHandle obj mp1Smu psmu family)

inductive HandleCall where
  | table (c : TableCall)
  | set (s : Setter) (value : Word)
  | getBiosIfVer

def HandleCall.prog (depth : Nat) (ry : RyzenAccess) : HandleCall → Prog api RyzenAccess
  | .table c => do
    let (_, ry) ← c.prog depth ry
    return ry
  | .set s value => do
    let _ ← s.run ry value
    return ry
  | .getBiosIfVer => do
    let (_, ry) ← RyzenAdj.getBiosIfVer ry
    return ry

def OnHandle (obj : OsAccessObj) : Api.Op → Prop
  | .smuServiceReq smu _ _ => smu.osAccess = obj
  | .initMemObj o _ _ | .copyPmTable o _ => o = obj
  | .isUsingSmuDriver | .comparePmTable _ | .calloc _ | .sleep _ | .undefined => True
  | .getSmu _ _ | .freeOsAccessObj _ | .initOsAccessObj | .cpuidGetFamily | .malloc => False

abbrev onHandleEnv (obj : OsAccessObj) : Env api Unit := Env.only (OnHandle obj)

/-- All three objects of the handle belong to one backend object. -/
structure Owns (obj : OsAccessObj) (ry : RyzenAccess) : Prop where
  osAccess : ry.osAccess = obj
  mp1Smu : ry.mp1Smu.osAccess = obj
  psmu : ry.psmu.osAccess = obj

section OnHandle
variable {obj : OsAccessObj}

/-- A function on a handle keeps to its objects. -/
def Keeps (obj : OsAccessObj) {α : Type} (f : RyzenAccess → Prog api (α × RyzenAccess)) : Prop :=
  ∀ ry, Owns obj ry → (f ry).Wp (onHandleEnv obj) (fun r _ => Owns obj r.2) ()

theorem keeps_requestTableVerAndSize : Keeps obj requestTableVerAndSize := by
  intro ry h
  unfold requestTableVerAndSize
  cases tableFamily ry.family with
  | none => exact h
  | some fam =>
    refine ⟨h.psmu, fun a _ _ => ?_⟩
    have h' : Owns obj { ry with tableVer := a.2.arg0, tableSize := tableSizeOf a.2.arg0 } :=
      ⟨h.osAccess, h.mp1Smu, h.psmu⟩
    apply Prog.wp_ite
    · exact fun _ => h'
    · intro _
      apply Prog.wp_ite
      · exact fun _ => h'
      · exact fun _ => h'

theorem keeps_requestTableAddr : Keeps obj requestTableAddr := by
  intro ry h
  unfold requestTableAddr
  cases tableFamily ry.family with
  | none => exact h
  | some fam =>
    refine ⟨h.psmu, fun a _ _ => ?_⟩
    have h' : Owns obj { ry with tableAddr := tableAddrOf fam a.2 } :=
      ⟨h.osAccess, h.mp1Smu, h.psmu⟩
    apply Prog.wp_ite
    · exact fun _ => h'
    · intro _
      apply Prog.wp_ite
      · exact fun _ => h'
      · exact fun _ => h'

def RefreshOp (ry : RyzenAccess) : Api.Op → Prop
  | .smuServiceReq smu _ _ => smu = ry.psmu
  | .copyPmTable o size => o = ry.osAccess ∧ size = ry.tableSize
  | .comparePmTable buffer => buffer.length = 6 * 4
  | .isUsingSmuDriver | .sleep _ | .undefined => True
  | .initMemObj _ _ _ | .calloc _ | .getSmu _ _ | .freeOsAccessObj _ | .initOsAccessObj
  | .cpuidGetFamily | .malloc => False

theorem RefreshOp.onHandle {ry : RyzenAccess} (h : Owns obj ry) {o : Api.Op}
    (ho : RefreshOp ry o) : OnHandle obj o := by
  cases o with
  | smuServiceReq smu id args =>
    show smu.osAccess = obj
    rw [show smu = ry.psmu from ho]
    exact h.psmu
  | copyPmTable x size => exact ho.1.trans h.osAccess
  | comparePmTable _ => trivial
  | isUsingSmuDriver => trivial
  | sleep _ => trivial
  | undefined => trivial
  | _ => cases ho

section RefreshCalls
variable (ry : RyzenAccess)

theorem refreshOp_transferEnd (resp : Word) :
    (if resp ≠ repMsgOK then Prog.ret (S := api) (translatedSmuError resp) else Prog.ret 0).Wp
      (Env.only (RefreshOp ry)) (fun _ _ => True) () := by
  apply Prog.wp_ite
  · exact fun _ => trivial
  · exact fun _ => trivial

theorem refreshOp_requestTransferTable :
    (requestTransferTable ry).Wp (Env.only (RefreshOp ry)) (fun _ _ => True) () := by
  unfold requestTransferTable
  cases tableFamily ry.family with
  | none => trivial
  | some fam =>
    refine ⟨rfl, fun a _ _ => ?_⟩
    apply Prog.wp_ite
    · intro _
      refine ⟨trivial, fun _ _ _ => ⟨rfl, fun a₁ _ _ => ?_⟩⟩
      apply Prog.wp_ite
      · intro _
        exact ⟨trivial, fun _ _ _ => ⟨rfl, fun a₂ _ _ => refreshOp_transferEnd ry a₂.1⟩⟩
      · exact fun _ => refreshOp_transferEnd ry a₁.1
    · exact fun _ => refreshOp_transferEnd ry a.1

theorem refreshOp_needTransfer (buf : List Byte) :
    (needTransfer buf).Wp (Env.only (RefreshOp ry)) (fun _ _ => True) () := by
  unfold needTransfer
  cases cellAt buf 0 with
  | none => exact ⟨trivial, fun r => Empty.elim r⟩
  | some first =>
    apply Prog.wp_ite
    · exact fun _ => trivial
    · intro _
      apply Prog.wp_ite
      · exact fun _ => ⟨trivial, fun r => nomatch r⟩
      · intro hlen
        have htake : (buf.take (6 * 4)).length = 6 * 4 := by
          rw [List.length_take]
          omega
        exact ⟨htake, fun _ _ _ => trivial⟩

/-- Nothing of the handle changes but the contents of its buffer. -/
def OnlyValues (ry ry' : RyzenAccess) : Prop := ∃ values, ry' = { ry with tableValues := values }

theorem refreshOp_copyTable (buf : List Byte) :
    (copyTable ry buf).Wp (Env.only (RefreshOp ry)) (fun r _ => OnlyValues ry r.2) () := by
  refine ⟨⟨rfl, rfl⟩, fun t _ _ => ?_⟩
  simp only [Prog.ret_bind]
  cases storeBytes buf t.data with
  | none => exact ⟨trivial, fun r => Empty.elim r⟩
  | some buf' =>
    apply Prog.wp_ite
    · exact fun _ => ⟨_, rfl⟩
    · exact fun _ => ⟨_, rfl⟩

theorem refreshOp_refreshTableBody :
    (refreshTableBody ry).Wp (Env.only (RefreshOp ry)) (fun r _ => OnlyValues ry r.2) () := by
  unfold refreshTableBody
  cases ry.tableValues with
  | none => exact ⟨trivial, fun r => Empty.elim r⟩
  | some buf =>
    have hend : ∀ code : Int, (if code ≠ 0 then Prog.ret (code, ry) else copyTable ry buf).Wp
        (Env.only (RefreshOp ry)) (fun r _ => OnlyValues ry r.2) () := by
      intro code
      apply Prog.wp_ite
      · exact fun _ => ⟨ry.tableValues, rfl⟩
      · exact fun _ => refreshOp_copyTable ry buf
    have htransfer : ∀ transfer : Bool,
        (if transfer then (requestTransferTable ry).bind fun code =>
            if code ≠ 0 then Prog.ret (code, ry) else copyTable ry buf
          else (Prog.ret 0).bind fun code : Int =>
            if code ≠ 0 then Prog.ret (code, ry) else copyTable ry buf).Wp
        (Env.only (RefreshOp ry)) (fun r _ => OnlyValues ry r.2) () := by
      intro transfer
      apply Prog.wp_ite
      · intro _
        exact Prog.wp_seq _ (refreshOp_requestTransferTable ry) fun code _ _ => hend code
      · exact fun _ => hend 0
    refine ⟨trivial, fun driver _ _ => ?_⟩
    apply Prog.wp_ite
    · exact fun _ => htransfer false
    · intro _
      exact Prog.wp_seq _ (refreshOp_needTransfer ry buf) fun transfer _ _ => htransfer transfer

end RefreshCalls

theorem keeps_refreshTableBody : Keeps obj refreshTableBody := by
  intro ry h
  have hcalls := Prog.wp_only_mono (fun _ => RefreshOp.onHandle h)
    (refreshOp_refreshTableBody ry)
  apply Prog.wp_mono _ hcalls
  intro r _ hend
  obtain ⟨values, heq⟩ := hend
  rw [heq]
  exact ⟨h.osAccess, h.mp1Smu, h.psmu⟩

theorem onHandle_preferKmodSize {ry : RyzenAccess} (h : Owns obj ry) :
    (preferKmodSize ry).Wp (onHandleEnv obj) (fun ry' _ => Owns obj ry') () := by
  refine ⟨trivial, fun driver _ _ => ?_⟩
  apply Prog.wp_ite
  · exact fun _ => h
  · intro _
    cases hobj : ry.osAccess with
    | mem o => exact ⟨trivial, fun r => Empty.elim r⟩
    | kmod o =>
      apply Prog.wp_ite
      · exact fun _ => ⟨hobj.symm.trans h.osAccess, h.mp1Smu, h.psmu⟩
      · exact fun _ => h

section Refresh
variable {refresh : RyzenAccess → Prog api (Int × RyzenAccess)}

theorem keeps_fillTable (hrefresh : Keeps obj refresh) : Keeps obj (fillTable refresh) := by
  intro ry h
  apply Prog.wp_seq _ (hrefresh ry h)
  rintro ⟨code, ry₁⟩ _ h₁
  apply Prog.wp_ite
  · exact fun _ => h₁
  · intro _
    cases ry₁.tableValues.bind (cellAt · 0) with
    | none => exact ⟨trivial, fun r => Empty.elim r⟩
    | some first =>
      apply Prog.wp_ite
      · exact fun _ => ⟨trivial, fun _ _ _ => hrefresh ry₁ h₁⟩
      · exact fun _ => h₁

theorem keeps_initTableBuffer (hrefresh : Keeps obj refresh) :
    Keeps obj (initTableBuffer refresh) := by
  intro ry h
  unfold initTableBuffer
  apply Prog.wp_ite
  · exact fun _ => h
  · intro _
    refine ⟨h.osAccess, fun mapped _ _ => ?_⟩
    apply Prog.wp_ite
    · exact fun _ => h
    · intro _
      apply Prog.wp_seq _ (onHandle_preferKmodSize h)
      intro ry₁ _ h₁
      refine ⟨trivial, fun allocated _ _ => ?_⟩
      apply Prog.wp_ite
      · exact fun _ => ⟨h₁.osAccess, h₁.mp1Smu, h₁.psmu⟩
      · exact fun _ => keeps_fillTable hrefresh _ ⟨h₁.osAccess, h₁.mp1Smu, h₁.psmu⟩

theorem keeps_initTableLocked (hrefresh : Keeps obj refresh) :
    Keeps obj (initTableLocked refresh) := by
  intro ry h
  apply Prog.wp_seq _ (keeps_requestTableVerAndSize ry h)
  rintro ⟨code, ry₁⟩ _ h₁
  apply Prog.wp_ite
  · exact fun _ => h₁
  · intro _
    apply Prog.wp_seq _ (keeps_requestTableAddr ry₁ h₁)
    rintro ⟨code₂, ry₂⟩ _ h₂
    apply Prog.wp_ite
    · exact fun _ => h₂
    · exact fun _ => keeps_initTableBuffer hrefresh ry₂ h₂

theorem keeps_initTableWith (hrefresh : Keeps obj refresh) : Keeps obj (initTableWith refresh) := by
  intro ry h
  unfold initTableWith
  apply Prog.wp_ite
  · exact fun _ => h
  · intro _
    have hbusy : Owns obj { ry with tableInitBusy := true } := ⟨h.osAccess, h.mp1Smu, h.psmu⟩
    apply Prog.wp_seq _ (keeps_initTableLocked hrefresh _ hbusy)
    exact fun r _ h₁ => ⟨h₁.osAccess, h₁.mp1Smu, h₁.psmu⟩

end Refresh

theorem keeps_lazyInitTable {init : RyzenAccess → Prog api (Int × RyzenAccess)}
    (hinit : Keeps obj init) : Keeps obj (lazyInitTable init) := by
  intro ry h
  unfold lazyInitTable
  cases ry.tableValues with
  | none => exact hinit ry h
  | some buf => exact h

/-- The mutual recursion of `refresh_table` and `init_table`, by the depth of calls. -/
theorem keeps_refreshTable (depth : Nat) : Keeps obj (refreshTable depth) := by
  induction depth with
  | zero => exact fun ry h => ⟨trivial, fun r => nomatch r⟩
  | succ depth ih =>
    intro ry h
    apply Prog.wp_seq _ (keeps_lazyInitTable (keeps_initTableWith ih) ry h)
    rintro ⟨code, ry₁⟩ _ h₁
    apply Prog.wp_ite
    · exact fun _ => h₁
    · exact fun _ => keeps_refreshTableBody ry₁ h₁

theorem keeps_initTable (depth : Nat) : Keeps obj (initTable depth) :=
  keeps_initTableWith (keeps_refreshTable depth)

theorem keeps_tableCall (depth : Nat) (c : TableCall) : Keeps obj (c.prog depth) := by
  intro ry h
  cases c with
  | initTable =>
    exact Prog.wp_seq _ (keeps_initTable depth ry h) fun _ _ h₁ => h₁
  | refreshTable =>
    exact Prog.wp_seq _ (keeps_refreshTable depth ry h) fun _ _ h₁ => h₁
  | getTableVer =>
    refine (Prog.wp_bind _).mpr
      (Prog.wp_seq _ (keeps_lazyInitTable (keeps_initTable depth) ry h) ?_)
    rintro ⟨code, ry₁⟩ _ h₁
    apply Prog.wp_ite
    · exact fun _ => h₁
    · exact fun _ => h₁
  | getTableSize =>
    refine (Prog.wp_bind _).mpr
      (Prog.wp_seq _ (keeps_lazyInitTable (keeps_initTable depth) ry h) ?_)
    rintro ⟨code, ry₁⟩ _ h₁
    apply Prog.wp_ite
    · exact fun _ => h₁
    · exact fun _ => h₁
  | getter g core =>
    simp only [TableCall.prog]
    cases g.read ry core with
    | none => exact ⟨trivial, fun r => Empty.elim r⟩
    | some v => exact h

theorem onHandle_doAdjust {smu : Smu} (h : smu.osAccess = obj) (opt value : Word) :
    (doAdjust smu opt value).Wp (onHandleEnv obj) (fun _ _ => True) () :=
  ⟨h, fun _ _ _ => trivial⟩

theorem onHandle_setter {ry : RyzenAccess} (h : Owns obj ry) (s : Setter) (value : Word) :
    (s.run ry value).Wp (onHandleEnv obj) (fun _ _ => True) () := by
  unfold Setter.run
  cases switchOn ry.family s.cases with
  | none => trivial
  | some send =>
    cases send with
    | mp1 opt => exact onHandle_doAdjust h.mp1Smu opt _
    | psmu opt => exact onHandle_doAdjust h.psmu opt _
    | mp1ThenPsmu opt retry =>
      apply Prog.wp_seq _ (onHandle_doAdjust h.mp1Smu opt _)
      intro err _ _
      apply Prog.wp_ite
      · exact fun _ => onHandle_doAdjust h.psmu retry _
      · exact fun _ => trivial

theorem keeps_getBiosIfVer : Keeps obj getBiosIfVer := by
  intro ry h
  unfold getBiosIfVer
  apply Prog.wp_ite
  · exact fun _ => h
  · intro _
    refine ⟨h.mp1Smu, fun a _ _ => ?_⟩
    apply Prog.wp_ite
    · exact fun _ => h
    · exact fun _ => ⟨h.osAccess, h.mp1Smu, h.psmu⟩

theorem handleCall_onHandle (depth : Nat) {ry : RyzenAccess} (h : Owns obj ry) (c : HandleCall) :
    (c.prog depth ry).Wp (onHandleEnv obj) (fun ry' _ => Owns obj ry') () := by
  cases c with
  | table c =>
    exact Prog.wp_seq _ (keeps_tableCall depth c ry h) fun _ _ h₁ => h₁
  | set s value =>
    exact Prog.wp_seq _ (onHandle_setter h s value) fun _ _ _ => h
  | getBiosIfVer =>
    exact Prog.wp_seq _ (keeps_getBiosIfVer ry h) fun _ _ h₁ => h₁

end OnHandle

/-- What happens outside during an `init_ryzenadj`. -/
structure InitInputs where
  family : RyzenFamily
  allocated : Bool
  detected : Bool
  kmod : Option KmodObj
  mem : Option MemObj
  mp1Found : Bool
  psmuFound : Bool

def InitInputs.access (i : InitInputs) : Option OsAccessObj :=
  if i.detected then i.kmod.map .kmod else i.mem.map .mem

def InitInputs.found (i : InitInputs) : SmuType → Bool
  | .mp1 => i.mp1Found
  | .psmu => i.psmuFound
  | .count => false

inductive LibCall where
  | init (i : InitInputs)
  | cleanup (ry : RyzenAccess)
  | on (ry : RyzenAccess) (c : HandleCall)

def LibCall.prog (depth : Nat) : LibCall → Prog api (Option RyzenAccess)
  | .init _ => initRyzenadj
  | .cleanup ry => do
    cleanupRyzenadj ry.osAccess
    return none
  | .on ry c => do
    let ry ← c.prog depth ry
    return some ry

def LibCall.inputs : LibCall → Option InitInputs
  | .init i => some i
  | _ => none

def LibCall.handle : LibCall → Option RyzenAccess
  | .init _ => none
  | .cleanup ry => some ry
  | .on ry _ => some ry

/-- The answers the inputs of an `init_ryzenadj` prescribe. A mailbox object is one of
the access object it was asked for. -/
def InitAnswer (i : Option InitInputs) : (o : Api.Op) → Api.Ret o → Prop
  | .cpuidGetFamily, r => ∀ x, i = some x → r = x.family
  | .malloc, r => ∀ x, i = some x → r = x.allocated
  | .initOsAccessObj, r => ∀ x, i = some x → r = x.access
  | .getSmu obj smuType, r =>
    (∀ smu, r = some smu → smu.osAccess = obj) ∧
      ∀ x, i = some x → r.isSome = x.found smuType
  | _, _ => True

end RyzenAdj
