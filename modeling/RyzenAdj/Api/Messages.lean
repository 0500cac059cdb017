import RyzenAdj.Api.Session
import RyzenAdj.Api.SetterLaw
import RyzenAdj.Api.TableBound
import RyzenAdj.Interaction.Trace
import RyzenAdj.Smu.Service

/-!
# The messages of the library's calls

The words of messages, each with the response to it, that a call of the library
may send to the SMU, whatever is answered: as languages, one for each call. The
test messages of `get_smu` are among them.
-/

namespace RyzenAdj
open Interaction Api

/-- A message that was asked for with the response to it, or a test of `get_smu` that was not
answered OK. -/
inductive Outgoing where
  | message (m : Message)
  | failedTest (obj : OsAccessObj) (smuType : SmuType)

def testArgs : Args := { Args.zero with arg0 := 0x47 }

/-- What a call of `api.c` sends: `get_smu` has sent its test message to the mailbox it returns. -/
def sent : (o : Api.Op) → Api.Ret o → List Outgoing
  | .smuServiceReq smu id args, r => [.message ⟨smu, id, args, r.1⟩]
  | .getSmu _ _, some smu => [.message ⟨smu, smuTestMsg, testArgs, repMsgOK⟩]
  | .getSmu obj smuType, none => [.failedTest obj smuType]
  | _, _ => []

/-- What the program sends, in a process with or without the driver. -/
abbrev Sends (driver : Bool) {α : Type} (p : Prog api α) (L : α → Language Outgoing) : Prop :=
  Prog.Says (Api.Op.Answers driver) sent p L

def message (smu : Smu) (id : Word) (P : Args → Word → Prop) : Language Outgoing :=
  {v | ∃ args resp, P args resp ∧ v = [.message ⟨smu, id, args, resp⟩]}

/-- The attempts of `request_transfer_table`: the next is made when the one before was
answered with a missing prerequisite. -/
def attempts (psmu : Smu) (fam : TableFamily) (End : Word → Prop) : Language Outgoing :=
  let attempt := message psmu (transferTableMsg fam)
  attempt (fun args resp => args = tableArgs fam ∧ resp ≠ repMsgCmdRejectedPrereq ∧ End resp) +
    attempt (fun args resp => args = tableArgs fam ∧ resp = repMsgCmdRejectedPrereq) *
      (attempt (fun _ resp => resp ≠ repMsgCmdRejectedPrereq ∧ End resp) +
        attempt (fun _ resp => resp = repMsgCmdRejectedPrereq) * attempt fun _ resp => End resp)

/-- `request_transfer_table` where it returns `code`. -/
def transferWords (psmu : Smu) (family : RyzenFamily) (code : Int) : Language Outgoing :=
  match tableFamily family with
  | none => 1
  | some fam => attempts psmu fam fun resp => code = 0 → resp = repMsgOK

/-- `refresh_table` with a buffer there: no message with the driver; otherwise a transfer,
or none where memory already differs from the buffer. -/
def refreshWords (driver : Bool) (psmu : Smu) (family : RyzenFamily) (code : Int) :
    Language Outgoing :=
  if driver then 1 else 1 + transferWords psmu family code

/-- `refresh_table` where the first value of the buffer is zero: without the driver there is
always a transfer. -/
def emptyWords (driver : Bool) (psmu : Smu) (family : RyzenFamily) (code : Int) :
    Language Outgoing :=
  if driver then 1 else transferWords psmu family code

/-- The end of `init_table_locked`: one refresh of the new buffer, or two. -/
def fillWords (driver : Bool) (psmu : Smu) (family : RyzenFamily) (code : Int) :
    Language Outgoing :=
  emptyWords driver psmu family code +
    emptyWords driver psmu family 0 * emptyWords driver psmu family code

/-- No message, and an error. -/
def failedWords (code : Int) : Language Outgoing := {v | code ≠ 0 ∧ v = []}

def addressWords (driver : Bool) (psmu : Smu) (family : RyzenFamily) (fam : TableFamily)
    (code : Int) : Language Outgoing :=
  let address P := message psmu (getTableAddrMsg fam) fun args resp => args = tableArgs fam ∧ P resp
  address (fun _ => True) * failedWords code +
    address (· = repMsgOK) * (failedWords code + fillWords driver psmu family code)

/-- `init_table`: the version, the address, and the refreshes. -/
def initWords (driver : Bool) (psmu : Smu) (family : RyzenFamily) (code : Int) :
    Language Outgoing :=
  match tableFamily family with
  | none => failedWords code
  | some fam =>
    let version P := message psmu (getTableVerMsg fam) fun args resp => args = Args.zero ∧ P resp
    version (fun _ => True) * failedWords code +
      version (· = repMsgOK) * addressWords driver psmu family fam code

def biosWords (mp1 : Smu) : Language Outgoing := message mp1 0x3 fun args _ => args = Args.zero

def Send.words (mp1 psmu : Smu) (arg : Word) (code : Int) : Send → Language Outgoing
  | .mp1 opt => message mp1 opt fun args resp => args = .ofWord arg ∧ code = adjustCode resp
  | .psmu opt => message psmu opt fun args resp => args = .ofWord arg ∧ code = adjustCode resp
  | .mp1ThenPsmu opt retry =>
    message mp1 opt (fun args resp => args = .ofWord arg ∧ resp = repMsgOK ∧ code = 0) +
      message mp1 opt (fun args resp => args = .ofWord arg ∧ resp ≠ repMsgOK) *
        message psmu retry fun args resp => args = .ofWord arg ∧ code = adjustCode resp

def Setter.words (s : Setter) (mp1 psmu : Smu) (family : RyzenFamily) (value : Word) (code : Int) :
    Language Outgoing :=
  match switchOn family s.cases with
  | none => {v | code = adjErrFamUnsupported ∧ v = []}
  | some send => send.words mp1 psmu (s.scale.arg value) code

structure SameHandle (ry ry' : RyzenAccess) : Prop where
  osAccess : ry'.osAccess = ry.osAccess
  mp1Smu : ry'.mp1Smu = ry.mp1Smu
  psmu : ry'.psmu = ry.psmu
  family : ry'.family = ry.family

theorem SameHandle.refl (ry : RyzenAccess) : SameHandle ry ry := ⟨rfl, rfl, rfl, rfl⟩

theorem SameHandle.trans {ry ry' ry'' : RyzenAccess} (h : SameHandle ry ry')
    (h' : SameHandle ry' ry'') : SameHandle ry ry'' :=
  ⟨h'.osAccess.trans h.osAccess, h'.mp1Smu.trans h.mp1Smu, h'.psmu.trans h.psmu,
    h'.family.trans h.family⟩

section Words
variable {driver : Bool} {α : Type} {ry : RyzenAccess}

theorem says_request {smu : Smu} {id : Word} {args : Args} {f : Word × Args → Prog api α}
    {L : α → Language Outgoing}
    (h : ∀ r, Sends driver (f r) fun a => {v | .message ⟨smu, id, args, r.1⟩ :: v ∈ L a}) :
    Sends driver ((Api.smuServiceReq smu id args).bind f) L :=
  Prog.says_call fun r _ => h r

theorem says_other {o : Api.Op} (hsilent : ∀ r, sent o r = []) {f : Api.Ret o → Prog api α}
    {L : α → Language Outgoing} (h : ∀ r, o.Answers driver r → Sends driver (f r) L) :
    Sends driver ((Prog.perform (S := api) o).bind f) L := by
  refine Prog.says_call fun r hr => ?_
  rw [hsilent r]
  exact h r hr

theorem says_undefined {L : α → Language Outgoing} : Sends driver (undefined : Prog api α) L :=
  Prog.says_call fun r => Empty.elim r

theorem message_mem {smu : Smu} {id resp : Word} {args : Args} {P : Args → Word → Prop}
    (h : P args resp) : [Outgoing.message ⟨smu, id, args, resp⟩] ∈ message smu id P :=
  ⟨args, resp, h, rfl⟩

theorem message_cons {smu : Smu} {id resp : Word} {args : Args} {P : Args → Word → Prop}
    {L : Language Outgoing} {v : List Outgoing} (h : P args resp) (hv : v ∈ L) :
    Outgoing.message ⟨smu, id, args, resp⟩ :: v ∈ message smu id P * L :=
  Language.append_mem_mul (message_mem h) hv

theorem says_requestTransferTable (ry : RyzenAccess) :
    Sends driver (requestTransferTable ry) (transferWords ry.psmu ry.family) := by
  have hend : ∀ (resp : Word) (L : Int → Language Outgoing),
      (∀ code : Int, (code = 0 → resp = repMsgOK) → [] ∈ L code) →
      Sends driver
        (if resp ≠ repMsgOK then Prog.ret (translatedSmuError resp) else Prog.ret 0) L := by
    intro resp L hL
    apply Prog.says_ite
    · exact fun _ => Prog.says_ret (hL _ fun h => absurd h (translatedSmuError_ne_zero resp))
    · exact fun hok => Prog.says_ret (hL _ fun _ => not_not.mp hok)
  unfold requestTransferTable transferWords
  cases tableFamily ry.family with
  | none => exact Prog.says_ret rfl
  | some fam =>
    apply says_request
    intro first
    apply Prog.says_ite
    · intro hfirst
      apply says_other fun _ => rfl
      intro _ _
      apply says_request
      intro second
      apply Prog.says_ite
      · intro hsecond
        apply says_other fun _ => rfl
        intro _ _
        apply says_request
        intro third
        apply hend third.1
        intro code hcode
        exact .inr (message_cons ⟨rfl, hfirst⟩ (.inr (message_cons hsecond (message_mem hcode))))
      · intro hsecond
        apply hend second.1
        intro code hcode
        exact .inr (message_cons ⟨rfl, hfirst⟩ (.inl (message_mem ⟨hsecond, hcode⟩)))
    · intro hfirst
      apply hend first.1
      intro code hcode
      exact .inl (message_mem ⟨rfl, hfirst, hcode⟩)

theorem message_mono (smu : Smu) (id : Word) {P R : Args → Word → Prop}
    (h : ∀ args resp, P args resp → R args resp) : message smu id P ≤ message smu id R := by
  intro v hv
  obtain ⟨args, resp, hP, rfl⟩ := hv
  exact message_mem (h args resp hP)

theorem attempts_mono {psmu : Smu} {fam : TableFamily} {P R : Word → Prop}
    (h : ∀ resp, P resp → R resp) : attempts psmu fam P ≤ attempts psmu fam R := by
  have hfirst := message_mono psmu (transferTableMsg fam)
    (P := fun args resp => args = tableArgs fam ∧ resp ≠ repMsgCmdRejectedPrereq ∧ P resp)
    (R := fun args resp => args = tableArgs fam ∧ resp ≠ repMsgCmdRejectedPrereq ∧ R resp)
    fun _ resp hP => ⟨hP.1, hP.2.1, h resp hP.2.2⟩
  have hsecond := message_mono psmu (transferTableMsg fam)
    (P := fun _ resp => resp ≠ repMsgCmdRejectedPrereq ∧ P resp)
    (R := fun _ resp => resp ≠ repMsgCmdRejectedPrereq ∧ R resp)
    fun _ resp hP => ⟨hP.1, h resp hP.2⟩
  have hthird := message_mono psmu (transferTableMsg fam)
    (P := fun _ resp => P resp) (R := fun _ resp => R resp) fun _ resp hP => h resp hP
  exact add_le_add hfirst (mul_le_mul_right (add_le_add hsecond (mul_le_mul_right hthird _)) _)

/-- A transfer that was answered OK may still end in an error of what comes after it. -/
theorem transferWords_mono {psmu : Smu} {family : RyzenFamily} {code code' : Int}
    (h : code' = 0 → code = 0) :
    transferWords psmu family code ≤ transferWords psmu family code' := by
  unfold transferWords
  cases tableFamily family with
  | none => exact le_refl _
  | some fam => exact attempts_mono fun resp hresp hcode => hresp (h hcode)

theorem says_needTransfer (buf : List Byte) : Sends driver (needTransfer buf) fun _ => 1 := by
  unfold needTransfer
  cases cellAt buf 0 with
  | none => exact says_undefined
  | some first =>
    apply Prog.says_ite
    · exact fun _ => Prog.says_ret rfl
    · intro _
      apply Prog.says_ite
      · exact fun _ => says_undefined
      · exact fun _ => says_other (fun _ => rfl) fun _ _ => Prog.says_ret rfl

/-- What a refresh leaves of the handle, and the buffer it has. -/
def Refreshed (ry ry' : RyzenAccess) : Prop := SameHandle ry ry' ∧ ry'.tableValues.isSome

theorem says_copyTable (ry : RyzenAccess) (buf : List Byte) :
    Sends driver (copyTable ry buf) fun r => {v | Refreshed ry r.2 ∧ v = []} := by
  apply says_other fun _ => rfl
  intro t _
  cases storeBytes buf t.data with
  | none => exact says_undefined
  | some buf' =>
    have hsame : Refreshed ry { ry with tableValues := some buf' } := ⟨⟨rfl, rfl, rfl, rfl⟩, rfl⟩
    apply Prog.says_ite
    · exact fun _ => Prog.says_ret ⟨hsame, rfl⟩
    · exact fun _ => Prog.says_ret ⟨hsame, rfl⟩

theorem says_copyAfter (ry : RyzenAccess) (buf : List Byte) (hbuf : ry.tableValues.isSome)
    (code : Int) : Sends driver (if code ≠ 0 then pure (code, ry) else copyTable ry buf)
      fun r => {v | (Refreshed ry r.2 ∧ (r.1 = 0 → code = 0)) ∧ v = []} := by
  apply Prog.says_ite
  · exact fun hcode => Prog.says_ret ⟨⟨⟨.refl ry, hbuf⟩, fun h => absurd h hcode⟩, rfl⟩
  · intro hcode
    apply Prog.says_mono (says_copyTable ry buf)
    exact fun r v hv => ⟨⟨hv.1, fun _ => not_not.mp hcode⟩, hv.2⟩

theorem says_transferAndCopy (ry : RyzenAccess) (buf : List Byte) (hbuf : ry.tableValues.isSome) :
    Sends driver ((requestTransferTable ry).bind fun code =>
        if code ≠ 0 then pure (code, ry) else copyTable ry buf)
      fun r => {v | Refreshed ry r.2 ∧ v ∈ transferWords ry.psmu ry.family r.1} := by
  apply Prog.says_seq (says_requestTransferTable ry) fun code _ => says_copyAfter ry buf hbuf code
  intro code r v hv
  obtain ⟨w, hw, v', hv', rfl⟩ := Language.mem_mul.mp hv
  obtain ⟨⟨hsame, hcode⟩, rfl⟩ := hv'
  rw [List.append_nil]
  exact ⟨hsame, transferWords_mono hcode hw⟩

/-- A refresh and what it leaves of the handle, by its words. -/
def RefreshSays (ry : RyzenAccess) (words : Smu → RyzenFamily → Int → Language Outgoing)
    (r : Int × RyzenAccess) : Language Outgoing :=
  {v | Refreshed ry r.2 ∧ v ∈ words ry.psmu ry.family r.1}

theorem says_refreshTableBody (ry : RyzenAccess) :
    Sends driver (refreshTableBody ry) (RefreshSays ry (refreshWords driver)) := by
  unfold refreshTableBody
  cases hbuf : ry.tableValues with
  | none => exact says_undefined
  | some buf =>
    have hsome : ry.tableValues.isSome := by rw [hbuf]; rfl
    apply says_other fun _ => rfl
    intro flag hflag
    obtain rfl : flag = driver := hflag
    -- without a transfer
    have hnone : Sends flag (if (0 : Int) ≠ 0 then pure (0, ry) else copyTable ry buf)
        (RefreshSays ry (refreshWords flag)) := by
      apply Prog.says_mono (says_copyAfter ry buf hsome 0)
      intro r v hv
      obtain ⟨⟨hsame, -⟩, rfl⟩ := hv
      refine ⟨hsame, ?_⟩
      unfold refreshWords
      split
      · rfl
      · exact .inl rfl
    apply Prog.says_ite
    · exact fun _ => hnone
    · intro hoff
      have hwords :
          refreshWords flag = fun psmu family code => 1 + transferWords psmu family code := by
        rw [show flag = false from Bool.eq_false_iff.mpr hoff]
        rfl
      apply Prog.says_seq (says_needTransfer buf)
        (M := fun _ => RefreshSays ry (refreshWords flag))
      · intro transfer _
        apply Prog.says_ite
        · intro _
          apply Prog.says_mono (says_transferAndCopy ry buf hsome)
          intro r v hv
          rw [hwords]
          exact ⟨hv.1, .inr hv.2⟩
        · exact fun _ => hnone
      · intro transfer r
        rw [one_mul]

/-- The first value of the buffer is zero, as it is in a new one. -/
def IsEmptied (ry : RyzenAccess) : Prop :=
  ∃ buf, ry.tableValues = some buf ∧ ∀ first, cellAt buf 0 = some first → isZeroFloat first = true

theorem isEmptied_new (size : Nat) (h : ry.tableValues = some (List.replicate size 0)) :
    IsEmptied ry := by
  refine ⟨_, h, fun first hfirst => ?_⟩
  have hzero : ∀ x ∈ (List.replicate size (0 : Byte)).drop (4 * 0), x = 0 :=
    fun x hx => List.eq_of_mem_replicate (List.mem_of_mem_drop hx)
  unfold cellAt at hfirst
  split at hfirst
  next a b c d rest hdrop =>
    rw [hdrop] at hzero
    rw [← Option.some.inj hfirst, hzero a (by simp), hzero b (by simp), hzero c (by simp),
      hzero d (by simp)]
    decide
  next => cases hfirst

theorem says_refreshTableBody_emptied (h : IsEmptied ry) :
    Sends driver (refreshTableBody ry) (RefreshSays ry (emptyWords driver)) := by
  obtain ⟨buf, hbuf, hzero⟩ := h
  have hsome : ry.tableValues.isSome := by rw [hbuf]; rfl
  unfold refreshTableBody
  rw [hbuf]
  apply says_other fun _ => rfl
  intro flag hflag
  obtain rfl : flag = driver := hflag
  apply Prog.says_ite
  · intro hon
    have hwords : emptyWords flag = fun _ _ _ => 1 := by
      rw [show flag = true from hon]
      rfl
    apply Prog.says_mono (says_copyAfter ry buf hsome 0)
    intro r v hv
    obtain ⟨⟨hsame, -⟩, rfl⟩ := hv
    rw [hwords]
    exact ⟨hsame, rfl⟩
  · intro hoff
    have hwords : emptyWords flag = transferWords := by
      rw [show flag = false from Bool.eq_false_iff.mpr hoff]
      rfl
    rw [hwords]
    unfold needTransfer
    cases hfirst : cellAt buf 0 with
    | none => exact Prog.says_call fun r => Empty.elim r
    | some first =>
      simp only [hzero first hfirst, if_true]
      exact says_transferAndCopy ry buf hsome

theorem refreshTable_of_isSome (depth : Nat) {ry : RyzenAccess} (h : ry.tableValues.isSome) :
    refreshTable (depth + 1) ry = refreshTableBody ry := by
  obtain ⟨buf, hbuf⟩ := Option.isSome_iff_exists.mp h
  exact refreshTable_of_buffer depth ry hbuf

theorem says_fillTable (depth : Nat) (h : IsEmptied ry) :
    Sends driver (fillTable (refreshTable (depth + 1)) ry)
      fun r => {v | Refreshed ry r.2 ∧ v ∈ fillWords driver ry.psmu ry.family r.1} := by
  obtain ⟨values, hvalues, -⟩ := id h
  unfold fillTable
  rw [refreshTable_of_isSome depth (by rw [hvalues]; rfl)]
  apply Prog.says_seq (says_refreshTableBody_emptied h)
    (M := fun r r' => {v | Refreshed ry r'.2 ∧ (v = [] ∧ r' = r ∨
      r.1 = 0 ∧ v ∈ emptyWords driver ry.psmu ry.family r'.1)})
  · intro r hr
    obtain ⟨code, ry'⟩ := r
    obtain ⟨v, ⟨hsame, hsome⟩, hv⟩ := hr
    obtain ⟨buf, hbuf⟩ := Option.isSome_iff_exists.mp hsome
    apply Prog.says_ite
    · exact fun _ => Prog.says_ret ⟨⟨hsame, hsome⟩, .inl ⟨rfl, rfl⟩⟩
    · intro hcode
      have hzero : code = 0 := not_not.mp hcode
      cases hfirst : ry'.tableValues.bind (cellAt · 0) with
      | none => exact says_undefined
      | some first =>
        apply Prog.says_ite
        · intro hempty
          have hemptied : IsEmptied ry' := by
            rw [hbuf] at hfirst
            refine ⟨buf, hbuf, fun value hvalue => ?_⟩
            rw [← Option.some.inj (hfirst.symm.trans hvalue)]
            exact hempty
          apply says_other fun _ => rfl
          intro _ _
          rw [refreshTable_of_isSome depth hsome]
          apply Prog.says_mono (says_refreshTableBody_emptied hemptied)
          intro r' v' hv'
          refine ⟨⟨hsame.trans hv'.1.1, hv'.1.2⟩, .inr ⟨hzero, ?_⟩⟩
          rw [← hsame.psmu, ← hsame.family]
          exact hv'.2
        · exact fun _ => Prog.says_ret ⟨⟨hsame, hsome⟩, .inl ⟨rfl, by rw [hzero]⟩⟩
  · intro r r' v hv
    obtain ⟨w, hw, w', hw', rfl⟩ := Language.mem_mul.mp hv
    refine ⟨hw'.1, ?_⟩
    cases hw'.2 with
    | inl hsingle =>
      obtain ⟨rfl, rfl⟩ := hsingle
      rw [List.append_nil]
      exact .inl hw.2
    | inr hboth =>
      have hfirst := hw.2
      rw [hboth.1] at hfirst
      exact .inr (Language.append_mem_mul hfirst hboth.2)

theorem says_preferKmodSize (ry : RyzenAccess) :
    Sends driver (preferKmodSize ry) fun ry' => {v | SameHandle ry ry' ∧ v = []} := by
  apply says_other fun _ => rfl
  intro flag _
  apply Prog.says_ite
  · exact fun _ => Prog.says_ret ⟨.refl ry, rfl⟩
  · intro _
    cases hobj : ry.osAccess with
    | mem o => exact says_undefined
    | kmod o =>
      apply Prog.says_ite
      · exact fun _ => Prog.says_ret ⟨⟨hobj.symm, rfl, rfl, rfl⟩, rfl⟩
      · exact fun _ => Prog.says_ret ⟨.refl ry, rfl⟩

/-- What `init_table` sends once it has the address. -/
def BufferSays (driver : Bool) (ry : RyzenAccess) (r : Int × RyzenAccess) : Language Outgoing :=
  {v | SameHandle ry r.2 ∧ (r.1 = 0 → r.2.tableValues.isSome) ∧
    v ∈ failedWords r.1 + fillWords driver ry.psmu ry.family r.1}

theorem says_initTableBuffer (depth : Nat) (ry : RyzenAccess) :
    Sends driver (initTableBuffer (refreshTable (depth + 1)) ry) (BufferSays driver ry) := by
  have hfails : ∀ ry', SameHandle ry ry' →
      [] ∈ BufferSays driver ry (adjErrMemoryAccess, ry') := by
    intro ry' hsame
    have hne : adjErrMemoryAccess ≠ 0 := by decide
    exact ⟨hsame, fun h => absurd h hne, .inl ⟨hne, rfl⟩⟩
  apply Prog.says_ite
  · exact fun _ => Prog.says_ret (hfails _ (.refl ry))
  · intro _
    apply says_other fun _ => rfl
    intro mapped _
    apply Prog.says_ite
    · exact fun _ => Prog.says_ret (hfails _ (.refl ry))
    · intro _
      apply Prog.says_seq (says_preferKmodSize ry)
        (M := fun _ => BufferSays driver ry)
      · intro ry₁ hry₁
        obtain ⟨v, hsame, -⟩ := hry₁
        apply says_other fun _ => rfl
        intro allocated _
        have hsame₁ : ∀ values, SameHandle ry { ry₁ with tableValues := values } :=
          fun values => ⟨hsame.osAccess, hsame.mp1Smu, hsame.psmu, hsame.family⟩
        apply Prog.says_ite
        · exact fun _ => Prog.says_ret (hfails _ (hsame₁ none))
        · intro _
          apply Prog.says_mono (says_fillTable depth (isEmptied_new _ rfl))
          intro r v hv
          refine ⟨(hsame₁ _).trans hv.1.1, fun _ => hv.1.2, .inr ?_⟩
          rw [← hsame.psmu, ← hsame.family]
          exact hv.2
      · intro ry₁ r v hv
        obtain ⟨w, hw, w', hw', rfl⟩ := Language.mem_mul.mp hv
        rw [show w = [] from hw.2]
        exact hw'

theorem says_requestTableVerAndSize {fam : TableFamily} (hfam : tableFamily ry.family = some fam) :
    Sends driver (requestTableVerAndSize ry) fun r => {v | SameHandle ry r.2 ∧
      ∃ resp, v = [.message ⟨ry.psmu, getTableVerMsg fam, Args.zero, resp⟩] ∧
        (r.1 = 0 → resp = repMsgOK)} := by
  unfold requestTableVerAndSize
  rw [hfam]
  apply says_request
  intro r
  have hsame : SameHandle ry (ry.withVersion r.2.arg0) := ⟨rfl, rfl, rfl, rfl⟩
  apply Prog.says_ite
  · intro _
    refine Prog.says_ret ⟨hsame, r.1, rfl, fun h => ?_⟩
    exact absurd h (translatedSmuError_ne_zero r.1)
  · intro hok
    apply Prog.says_ite
    · exact fun _ => Prog.says_ret ⟨hsame, r.1, rfl, fun _ => not_not.mp hok⟩
    · exact fun _ => Prog.says_ret ⟨hsame, r.1, rfl, fun _ => not_not.mp hok⟩

theorem says_requestTableAddr {fam : TableFamily} (hfam : tableFamily ry.family = some fam) :
    Sends driver (requestTableAddr ry) fun r => {v | SameHandle ry r.2 ∧
      ∃ resp, v = [.message ⟨ry.psmu, getTableAddrMsg fam, tableArgs fam, resp⟩] ∧
        (r.1 = 0 → resp = repMsgOK)} := by
  unfold requestTableAddr
  rw [hfam]
  apply says_request
  intro r
  have hsame : SameHandle ry (ry.withAddr (tableAddrOf fam r.2)) := ⟨rfl, rfl, rfl, rfl⟩
  apply Prog.says_ite
  · intro _
    refine Prog.says_ret ⟨hsame, r.1, rfl, fun h => ?_⟩
    exact absurd h (translatedSmuError_ne_zero r.1)
  · intro hok
    apply Prog.says_ite
    · exact fun _ => Prog.says_ret ⟨hsame, r.1, rfl, fun _ => not_not.mp hok⟩
    · exact fun _ => Prog.says_ret ⟨hsame, r.1, rfl, fun _ => not_not.mp hok⟩

/-- The words of an `init_table`, and what it leaves of the handle. -/
def InitSays (driver : Bool) (ry : RyzenAccess) (r : Int × RyzenAccess) : Language Outgoing :=
  {v | SameHandle ry r.2 ∧ (r.1 = 0 → r.2.tableValues.isSome) ∧
    v ∈ initWords driver ry.psmu ry.family r.1}

theorem says_afterAddr (depth : Nat) {fam : TableFamily} (hfam : tableFamily ry.family = some fam) :
    Sends driver ((requestTableAddr ry).bind fun r =>
        if r.1 ≠ 0 then Prog.ret r else initTableBuffer (refreshTable (depth + 1)) r.2)
      fun r => {v | SameHandle ry r.2 ∧ (r.1 = 0 → r.2.tableValues.isSome) ∧
        v ∈ addressWords driver ry.psmu ry.family fam r.1} := by
  apply Prog.says_seq (says_requestTableAddr hfam) (M := fun r₁ r => {v | SameHandle ry r.2 ∧
    (r.1 = 0 → r.2.tableValues.isSome) ∧ (v ∈ failedWords r.1 ∨
      r₁.1 = 0 ∧ v ∈ failedWords r.1 + fillWords driver ry.psmu ry.family r.1)})
  · intro r₁ hr₁
    obtain ⟨v, hsame, -⟩ := hr₁
    apply Prog.says_ite
    · exact fun hcode => Prog.says_ret ⟨hsame, fun h => absurd h hcode, .inl ⟨hcode, rfl⟩⟩
    · intro hcode
      apply Prog.says_mono (says_initTableBuffer depth r₁.2)
      intro r w hw
      refine ⟨hsame.trans hw.1, hw.2.1, .inr ⟨not_not.mp hcode, ?_⟩⟩
      rw [← hsame.psmu, ← hsame.family]
      exact hw.2.2
  · intro r₁ r v hv
    obtain ⟨w, hw, w', hw', rfl⟩ := Language.mem_mul.mp hv
    obtain ⟨-, resp, rfl, hok⟩ := hw
    refine ⟨hw'.1, hw'.2.1, ?_⟩
    cases hw'.2.2 with
    | inl hfailed => exact .inl (message_cons ⟨rfl, trivial⟩ hfailed)
    | inr hfilled => exact .inr (message_cons ⟨rfl, hok hfilled.1⟩ hfilled.2)

theorem says_initTableLocked (depth : Nat) (ry : RyzenAccess) :
    Sends driver (initTableLocked (refreshTable (depth + 1)) ry) (InitSays driver ry) := by
  cases hfam : tableFamily ry.family with
  | none =>
    have hlocked : initTableLocked (refreshTable (depth + 1)) ry =
        .ret (adjErrFamUnsupported, ry) := by
      unfold initTableLocked requestTableVerAndSize
      rw [hfam]
      rfl
    have hne : adjErrFamUnsupported ≠ 0 := by decide
    rw [hlocked]
    refine Prog.says_ret ⟨.refl ry, fun h => absurd h hne, ?_⟩
    unfold initWords
    rw [hfam]
    exact ⟨hne, rfl⟩
  | some fam =>
    apply Prog.says_seq (says_requestTableVerAndSize hfam)
      (M := fun r₁ r => {v | SameHandle ry r.2 ∧
      (r.1 = 0 → r.2.tableValues.isSome) ∧ (v ∈ failedWords r.1 ∨
        r₁.1 = 0 ∧ v ∈ addressWords driver ry.psmu ry.family fam r.1)})
    · intro r₁ hr₁
      obtain ⟨v, hsame, -⟩ := hr₁
      apply Prog.says_ite
      · exact fun hcode => Prog.says_ret ⟨hsame, fun h => absurd h hcode, .inl ⟨hcode, rfl⟩⟩
      · intro hcode
        apply Prog.says_mono (says_afterAddr depth (by rw [hsame.family]; exact hfam))
        intro r w hw
        refine ⟨hsame.trans hw.1, hw.2.1, .inr ⟨not_not.mp hcode, ?_⟩⟩
        rw [← hsame.psmu, ← hsame.family]
        exact hw.2.2
    · intro r₁ r v hv
      obtain ⟨w, hw, w', hw', rfl⟩ := Language.mem_mul.mp hv
      obtain ⟨-, resp, rfl, hok⟩ := hw
      refine ⟨hw'.1, hw'.2.1, ?_⟩
      unfold initWords
      rw [hfam]
      cases hw'.2.2 with
      | inl hfailed => exact .inl (message_cons ⟨rfl, trivial⟩ hfailed)
      | inr hfilled => exact .inr (message_cons ⟨rfl, hok hfilled.1⟩ hfilled.2)

theorem says_initTable (depth : Nat) (hidle : ry.tableInitBusy = false) :
    Sends driver (initTable (depth + 1) ry) (InitSays driver ry) := by
  apply Prog.says_ite
  · exact fun hbusy => absurd (hidle.symm.trans hbusy) Bool.false_ne_true
  · intro _
    have hbusy : SameHandle ry { ry with tableInitBusy := true } := ⟨rfl, rfl, rfl, rfl⟩
    apply Prog.says_seq (says_initTableLocked depth _) (M := fun r₁ r =>
      {v | r = (r₁.1, { r₁.2 with tableInitBusy := false }) ∧ v = []})
    · exact fun r₁ _ => Prog.says_ret ⟨rfl, rfl⟩
    · intro r₁ r v hv
      obtain ⟨w, hw, w', ⟨rfl, rfl⟩, rfl⟩ := Language.mem_mul.mp hv
      rw [List.append_nil]
      obtain ⟨hsame, hsome, hw⟩ := hw
      refine ⟨(hbusy.trans hsame).trans ⟨rfl, rfl, rfl, rfl⟩, hsome, hw⟩

theorem says_getBiosIfVer (ry : RyzenAccess) :
    Sends driver (getBiosIfVer ry) fun r => {v | SameHandle ry r.2 ∧
      r.2.tableValues = ry.tableValues ∧ v ∈ 1 + biosWords ry.mp1Smu} := by
  apply Prog.says_ite
  · exact fun _ => Prog.says_ret ⟨.refl ry, rfl, .inl rfl⟩
  · intro _
    apply says_request
    intro r
    apply Prog.says_ite
    · exact fun _ => Prog.says_ret ⟨.refl ry, rfl, .inr (message_mem rfl)⟩
    · exact fun _ => Prog.says_ret ⟨⟨rfl, rfl, rfl, rfl⟩, rfl, .inr (message_mem rfl)⟩

theorem says_doAdjust (smu : Smu) (opt arg : Word) :
    Sends driver (doAdjust smu opt arg) fun code =>
      message smu opt fun args resp => args = .ofWord arg ∧ code = adjustCode resp := by
  apply says_request
  exact fun r => Prog.says_ret (message_mem ⟨rfl, rfl⟩)

theorem says_send (ry : RyzenAccess) (arg : Word) (send : Send) :
    Sends driver (send.run ry arg) fun code => send.words ry.mp1Smu ry.psmu arg code := by
  cases send with
  | mp1 opt => exact says_doAdjust ry.mp1Smu opt arg
  | psmu opt => exact says_doAdjust ry.psmu opt arg
  | mp1ThenPsmu opt retry =>
    apply Prog.says_seq (says_doAdjust ry.mp1Smu opt arg) (M := fun first code =>
      {v | first = 0 ∧ code = 0 ∧ v = [] ∨ first ≠ 0 ∧
        v ∈ message ry.psmu retry fun args resp => args = .ofWord arg ∧ code = adjustCode resp})
    · intro first _
      apply Prog.says_ite
      · intro hcode
        apply Prog.says_mono (says_doAdjust ry.psmu retry arg)
        exact fun code v hv => .inr ⟨hcode, hv⟩
      · exact fun hcode => Prog.says_ret (.inl ⟨not_not.mp hcode, not_not.mp hcode, rfl⟩)
    · intro first code v hv
      obtain ⟨w, hw, w', hw', rfl⟩ := Language.mem_mul.mp hv
      obtain ⟨args, resp, ⟨hargs, hfirst⟩, rfl⟩ := hw
      cases hw' with
      | inl hdone =>
        obtain ⟨hzero, hcode, rfl⟩ := hdone
        exact .inl (message_mem ⟨hargs, adjustCode_zero.mp (hfirst.symm.trans hzero), hcode⟩)
      | inr hretry =>
        refine .inr (message_cons ⟨hargs, fun hok => hretry.1 ?_⟩ hretry.2)
        rw [hfirst]
        exact adjustCode_zero.mpr hok

theorem says_setter (s : Setter) (ry : RyzenAccess) (value : Word) :
    Sends driver (s.run ry value) (s.words ry.mp1Smu ry.psmu ry.family value) := by
  unfold Setter.run Setter.words
  cases switchOn ry.family s.cases with
  | none => exact Prog.says_ret ⟨rfl, rfl⟩
  | some send => exact says_send ry _ send

end Words
end RyzenAdj
