import RyzenAdj.Api.Lifetime
import RyzenAdj.Api.Messages
import RyzenAdj.Cli.Monitoring
import RyzenAdj.Cli.Protocol

/-!
# Runs of the tool

The whole tool over the calls of the library and the console: the access object
it makes is used only between its creation and its release and with the flag
that fits it, nothing undefined is ever reached, every run ends, and the
messages to the SMU are those the command line asks for.
-/

namespace RyzenAdj
open Interaction Libc

def toolEnv (family : RyzenFamily) : Env tool Backend := (backendEnv family).beside console

def toolSent : (o : tool.Op) → tool.Ret o → List Outgoing
  | .inl o, r => sent o r
  | .inr _, _ => []

/-- The test of a mailbox that passed. -/
def testWords (smu : Smu) : Language Outgoing :=
  message smu smuTestMsg fun args resp => args = testArgs ∧ resp = repMsgOK

/-- The messages of a call of `main` with this handle, or one that has the same mailboxes. -/
def CliEvent.words (driver : Bool) (mp1 psmu : Smu) (family : RyzenFamily) :
    CliEvent → Language Outgoing
  | .showInfoHeader => 1 + biosWords mp1
  | .initTable tableErr => initWords driver psmu family tableErr
  | .set c adjerr => c.function.setter.words mp1 psmu family c.value adjerr
  | .showTableDump true => {v | v = [] ∨ ∃ code, v ∈ refreshWords driver psmu family code}
  | .showInfoTable => {v | ∃ code, v ∈ refreshWords driver psmu family code}
  | .initRyzenadj true => testWords mp1 * testWords psmu
  | .initRyzenadj false => 0
  | .showTableDump false | .cleanupRyzenadj => 1

def callWords (driver : Bool) (mp1 psmu : Smu) (family : RyzenFamily) (calls : List CliEvent) :
    Language Outgoing :=
  (calls.map (CliEvent.words driver mp1 psmu family)).prod

section Library
variable {family : RyzenFamily} {α : Type}

abbrev messagesEnv (family : RyzenFamily) : Env api (Backend × List Outgoing) :=
  (backendEnv family).traced sent

theorem backendMove_onHandle {obj : OsAccessObj} {b b' : Backend} {o : Api.Op} {r : Api.Ret o}
    (ho : OnHandle obj o) (h : backendMove family b o r b') : b' = b ∧ o.Answers b.isSmu r := by
  cases o with
  | smuServiceReq _ _ _ => exact ⟨h, trivial⟩
  | isUsingSmuDriver => exact ⟨h.2, h.1⟩
  | initMemObj _ _ _ => exact ⟨h, trivial⟩
  | copyPmTable _ _ => exact ⟨h, trivial⟩
  | comparePmTable _ => exact ⟨h, trivial⟩
  | calloc _ => exact ⟨h, trivial⟩
  | sleep _ => exact ⟨h, trivial⟩
  | undefined => exact ⟨h, trivial⟩
  | getSmu _ _ => cases ho
  | cpuidGetFamily => cases ho
  | initOsAccessObj => cases ho
  | freeOsAccessObj _ => cases ho
  | malloc => cases ho

/-- A program of the library on the live object: what is known of it with the flag that fits and
with room in the buffer, of the objects it keeps to, and of what it sends. -/
theorem onHandle_spec (family : RyzenFamily) {p : Prog api α} {Q : α → Nat → Prop}
    {R : α → Unit → Prop}
    {L : α → Language Outgoing} {bound : Nat} {obj : OsAccessObj} {b : Backend}
    (hlive : b.access = .live obj) (hflag : b.isSmu = obj.isKmod)
    (hbound : p.WpFin (requestBound obj.isKmod bound True) Q 0)
    (hon : p.Wp (onHandleEnv obj) R ()) (hlang : Sends obj.isKmod p L) (w : List Outgoing) :
    p.WpFin (messagesEnv family)
      (fun a x => x.1 = b ∧ (∃ n, Q a n) ∧ ∃ v ∈ L a, x.2 = w ++ v) (b, w) := by
  have hall := Prog.wpFin_both (Prog.wpFin_both hbound hon) (hlang w)
  have hrefines : (messagesEnv family).Refines
      (((requestBound obj.isKmod bound True).both (onHandleEnv obj)).both
        ((Env.answering (Api.Op.Answers obj.isKmod)).traced sent))
      fun x y => y = (b, x.2.2) := by
    intro x y o hxy hguard
    obtain ⟨⟨hroom, hobj⟩, -⟩ := hguard
    obtain rfl := hxy
    refine ⟨⟨opFits_onHandle hflag hobj, hroom.2 trivial, fun obj' hobj' => ?_, fun h => ?_⟩, ?_⟩
    · rw [hlive, onHandle_accessObj hobj hobj']
    · rw [h] at hobj
      cases hobj
    · intro r y' hnext
      obtain ⟨hmove, hsent⟩ := hnext
      obtain ⟨hsame, hanswers⟩ := backendMove_onHandle hobj hmove
      rw [hflag] at hanswers
      refine ⟨((x.1.1 + o.requests, ()), ((), y'.2)), ?_, Prod.ext hsame rfl⟩
      exact ⟨⟨⟨hanswers, rfl⟩, trivial⟩, hanswers, hsent⟩
  apply Prog.wpFin_mono (Prog.wpFin_refine hrefines rfl hall)
  intro a y hy
  obtain ⟨x, hx, rfl⟩ := hy
  exact ⟨rfl, ⟨_, hx.1.1⟩, hx.2⟩

/-- A handle on the live object, between two calls. -/
structure Holds (family : RyzenFamily) (ry : RyzenAccess) (b : Backend) : Prop where
  live : b.access = .live ry.osAccess
  flag : b.isSmu = ry.osAccess.isKmod
  mp1 : smuOf ry.osAccess .mp1 family = some ry.mp1Smu
  psmu : smuOf ry.osAccess .psmu family = some ry.psmu
  family : ry.family = family
  idle : ry.tableInitBusy = false

theorem Holds.owns {ry : RyzenAccess} {b : Backend} (h : Holds family ry b) :
    Owns ry.osAccess ry :=
  ⟨rfl, smuOf_osAccess h.mp1, smuOf_osAccess h.psmu⟩

theorem Holds.same {ry ry' : RyzenAccess} {b : Backend} (h : Holds family ry b)
    (hsame : SameHandle ry ry') (hidle : ry'.tableInitBusy = false) : Holds family ry' b where
  live := by rw [hsame.osAccess]; exact h.live
  flag := by rw [hsame.osAccess]; exact h.flag
  mp1 := by rw [hsame.osAccess, hsame.mp1Smu]; exact h.mp1
  psmu := by rw [hsame.osAccess, hsame.psmu]; exact h.psmu
  family := hsame.family.trans h.family
  idle := hidle

/-- The buffer of a handle that monitors. -/
def HasBuffer (ry : RyzenAccess) : Prop :=
  ∃ buf, ry.tableValues = some buf ∧ Refreshable ry.osAccess.isKmod ry.tableSize buf

section Specs
variable {ry : RyzenAccess} {b : Backend} (h : Holds family ry b) (w : List Outgoing)
include h

theorem initTable_spec (depth : Nat) : (initTable (depth + 1) ry).WpFin (messagesEnv family)
    (fun r x => x.1 = b ∧ Holds family r.2 b ∧ SameHandle ry r.2 ∧ (r.1 = 0 → HasBuffer r.2) ∧
      ∃ v ∈ initWords ry.osAccess.isKmod ry.psmu ry.family r.1, x.2 = w ++ v) (b, w) := by
  have hbound : (initTable (depth + 1) ry).WpFin (requestBound ry.osAccess.isKmod 8 True) _ 0 :=
    initTable_bound depth ry h.idle (fun _ => rfl) (Nat.le_refl 8)
  have hon := keeps_initTable (depth + 1) ry h.owns
  have hspec := onHandle_spec family h.live h.flag hbound hon
    (says_initTable depth h.idle) w
  apply Prog.wpFin_mono hspec
  intro r x hx
  obtain ⟨hb, ⟨n, ⟨htable, hidle⟩, -⟩, v, ⟨hsame, -, hv⟩, hw⟩ := hx
  refine ⟨hb, h.same hsame hidle, hsame, fun hcode => ?_, v, hv, hw⟩
  unfold HasBuffer
  rw [hsame.osAccess]
  exact htable hcode

theorem refreshTable_spec (depth : Nat) (hbuf : HasBuffer ry) :
    (refreshTable (depth + 1) ry).WpFin (messagesEnv family)
      (fun r x => x.1 = b ∧ Holds family r.2 b ∧ SameHandle ry r.2 ∧ HasBuffer r.2 ∧
        r.2.tableSize = ry.tableSize ∧ r.2.tableVer = ry.tableVer ∧
        ∃ v ∈ refreshWords ry.osAccess.isKmod ry.psmu ry.family r.1, x.2 = w ++ v) (b, w) := by
  obtain ⟨buf, hvalues, hfits⟩ := hbuf
  rw [refreshTable_of_buffer depth ry hvalues]
  have hbound : (refreshTableBody ry).WpFin (requestBound ry.osAccess.isKmod 3 True) _ 0 :=
    refreshTableBody_bound ry hvalues (fun _ => hfits) (Nat.le_refl 3)
  have hon := keeps_refreshTableBody ry h.owns
  have hspec := onHandle_spec family h.live h.flag hbound hon
    (says_refreshTableBody ry) w
  apply Prog.wpFin_mono hspec
  intro r x hx
  obtain ⟨hb, ⟨n, ⟨buf', hry, hlen⟩, -⟩, v, ⟨⟨hsame, -⟩, hv⟩, hw⟩ := hx
  have hidle : r.2.tableInitBusy = false := by rw [hry]; exact h.idle
  refine ⟨hb, h.same hsame hidle, hsame, ?_, by rw [hry], by rw [hry], v, hv, hw⟩
  rw [hry]
  exact ⟨buf', rfl, hfits.of_length hlen⟩

theorem getBiosIfVer_spec : (getBiosIfVer ry).WpFin (messagesEnv family)
    (fun r x => x.1 = b ∧ Holds family r.2 b ∧ SameHandle ry r.2 ∧
      ∃ v ∈ 1 + biosWords ry.mp1Smu, x.2 = w ++ v) (b, w) := by
  have hbound : (getBiosIfVer ry).WpFin (requestBound ry.osAccess.isKmod 1 True)
      (fun r _ => r.2.tableInitBusy = false) 0 := by
    apply Prog.wpFin_ite
    · exact fun _ => h.idle
    · intro _
      apply request_bound (Nat.le_refl 1)
      intro r
      exact Prog.wpFin_ite (fun _ => h.idle) fun _ => h.idle
  have hon := keeps_getBiosIfVer ry h.owns
  have hspec := onHandle_spec family h.live h.flag hbound hon (says_getBiosIfVer ry) w
  apply Prog.wpFin_mono hspec
  intro r x hx
  obtain ⟨hb, ⟨n, hidle⟩, v, ⟨hsame, -, hv⟩, hw⟩ := hx
  exact ⟨hb, h.same hsame hidle, hsame, v, hv, hw⟩

omit h in
theorem doAdjust_bound {driver : Bool} {bound : Nat} (smu : Smu) (opt value : Word) {n : Nat}
    (hn : n + 1 ≤ bound) : (doAdjust smu opt value).WpFin (requestBound driver bound True)
      (fun _ n' => n' = n + 1) n :=
  request_bound hn fun _ => rfl

theorem setter_spec (s : Setter) (value : Word) : (s.run ry value).WpFin (messagesEnv family)
    (fun code x => x.1 = b ∧
      ∃ v ∈ s.words ry.mp1Smu ry.psmu ry.family value code, x.2 = w ++ v) (b, w) := by
  have hsend : ∀ send : Send, (send.run ry (s.scale.arg value)).WpFin
      (requestBound ry.osAccess.isKmod 2 True) (fun _ _ => True) 0 := by
    intro send
    have hmono : ∀ {p : Prog api Int} {n : Nat},
        p.WpFin (requestBound ry.osAccess.isKmod 2 True) (fun _ n' => n' = n + 1) n →
        p.WpFin (requestBound ry.osAccess.isKmod 2 True) (fun _ _ => True) n :=
      fun hp => Prog.wpFin_mono hp fun _ _ _ => trivial
    cases send with
    | mp1 opt => exact hmono (doAdjust_bound _ opt _ (by omega))
    | psmu opt => exact hmono (doAdjust_bound _ opt _ (by omega))
    | mp1ThenPsmu opt retry =>
      apply Prog.wpFin_seq (doAdjust_bound ry.mp1Smu opt _ (by omega))
      intro err n hn
      refine Prog.wpFin_ite (fun _ => ?_) fun _ => trivial
      exact hmono (doAdjust_bound ry.psmu retry _ (by omega))
  have hbound : (s.run ry value).WpFin (requestBound ry.osAccess.isKmod 2 True)
      (fun _ _ => True) 0 := by
    unfold Setter.run
    cases switchOn ry.family s.cases with
    | none => trivial
    | some send => exact hsend send
  have hon := onHandle_setter h.owns s value
  have hspec := onHandle_spec family h.live h.flag hbound hon (says_setter s ry value) w
  apply Prog.wpFin_mono hspec
  intro code x hx
  exact ⟨hx.1, hx.2.2⟩

end Specs

theorem seen_spec {o : Api.Op} {f : Api.Ret o → Prog api α}
    {Q : α → Backend × List Outgoing → Prop} {b : Backend} {w : List Outgoing}
    (hcall : BackendCall b o)
    (hf : ∀ r b', backendMove family b o r b' →
      (f r).WpFin (messagesEnv family) Q (b', w ++ sent o r)) :
    ((Prog.perform (S := api) o).bind f).WpFin (messagesEnv family) Q (b, w) := by
  refine ⟨hcall, fun r x hx => ?_⟩
  rw [show x = (x.1, w ++ sent o r) from Prod.ext rfl hx.2]
  exact hf r x.1 hx.1

theorem quiet_spec {o : Api.Op} (hsilent : ∀ r, sent o r = []) {f : Api.Ret o → Prog api α}
    {Q : α → Backend × List Outgoing → Prop} {b : Backend} {w : List Outgoing}
    (hcall : BackendCall b o)
    (hf : ∀ r b', backendMove family b o r b' → (f r).WpFin (messagesEnv family) Q (b', w)) :
    ((Prog.perform (S := api) o).bind f).WpFin (messagesEnv family) Q (b, w) := by
  apply seen_spec hcall
  intro r b' hmove
  rw [hsilent r, List.append_nil]
  exact hf r b' hmove

/-- The messages of an `init_ryzenadj` that fails: before its tests, in the first, or in the
second. -/
inductive Unopened (family : RyzenFamily) : List Outgoing → Prop where
  | untested : Unopened family []
  | mp1Failed (obj : OsAccessObj) : Unopened family [.failedTest obj .mp1]
  | psmuFailed (obj : OsAccessObj) (mp1 : Smu) : smuOf obj .mp1 family = some mp1 →
      Unopened family [.message ⟨mp1, smuTestMsg, testArgs, repMsgOK⟩, .failedTest obj .psmu]

def Opened (family : RyzenFamily) (w : List Outgoing) (r : Option RyzenAccess)
    (x : Backend × List Outgoing) : Prop :=
  match r with
  | some ry => Holds family ry x.1 ∧ ry.tableValues = none ∧
      ∃ v ∈ testWords ry.mp1Smu * testWords ry.psmu, x.2 = w ++ v
  | none => (∀ obj, x.1.access ≠ .live obj) ∧ ∃ v, Unopened family v ∧ x.2 = w ++ v

theorem opened_none {b : Backend} {w : List Outgoing} (h : ∀ obj, b.access ≠ .live obj) :
    Opened family w none (b, w) :=
  ⟨h, [], .untested, (List.append_nil w).symm⟩

theorem cleanup_spec {obj : OsAccessObj} {b : Backend} (hlive : b.access = .live obj)
    (hflag : b.isSmu = obj.isKmod) {w : List Outgoing} {f : Unit → Prog api α}
    {Q : α → Backend × List Outgoing → Prop}
    (hf : (f ()).WpFin (messagesEnv family) Q (⟨false, .ended⟩, w)) :
    ((cleanupRyzenadj obj).bind f).WpFin (messagesEnv family) Q (b, w) := by
  apply quiet_spec fun _ => rfl
  · refine ⟨hflag, Api.Op.noConfusion, fun obj' hobj => ?_, Api.Op.noConfusion⟩
    rw [hlive, ← Option.some.inj hobj]
  · intro _ b' hmove
    rw [show b' = ⟨false, .ended⟩ from hmove]
    exact hf

theorem getSmu_call {obj : OsAccessObj} {b : Backend} (hlive : b.access = .live obj)
    (hflag : b.isSmu = obj.isKmod) (smuType : SmuType) : BackendCall b (.getSmu obj smuType) where
  fits := flagFits_of_onObject hflag (onObject_getSmu smuType)
  defined := Api.Op.noConfusion
  live obj' hobj := by rw [hlive, ← Option.some.inj hobj]
  once := Api.Op.noConfusion

theorem probeBoth_spec {obj : OsAccessObj} {b : Backend} (hlive : b.access = .live obj)
    (hflag : b.isSmu = obj.isKmod) (w : List Outgoing) :
    (probeBoth family (some obj)).WpFin (messagesEnv family) (Opened family w) (b, w) := by
  have hreleased : ∀ obj', (⟨false, .ended⟩ : Backend).access ≠ .live obj' := by
    intro obj' h
    cases h
  apply seen_spec (getSmu_call hlive hflag .mp1)
  intro mp1 b₁ hmp1
  obtain ⟨hmp1, rfl⟩ := hmp1
  cases mp1 with
  | none => exact cleanup_spec hlive hflag ⟨hreleased, _, .mp1Failed obj, rfl⟩
  | some mp1Smu =>
    apply seen_spec (getSmu_call hlive hflag .psmu)
    intro psmu b₂ hpsmu
    obtain ⟨hpsmu, rfl⟩ := hpsmu
    cases psmu with
    | none =>
      apply cleanup_spec hlive hflag
      refine ⟨hreleased, _, .psmuFailed obj mp1Smu (hmp1 mp1Smu rfl), ?_⟩
      exact (List.append_cons _ _ _).symm
    | some psmu =>
      refine ⟨⟨hlive, hflag, hmp1 mp1Smu rfl, hpsmu psmu rfl, rfl, rfl⟩, rfl, _, ?_,
        (List.append_cons _ _ _).symm⟩
      exact message_cons ⟨rfl, rfl⟩ (message_mem ⟨rfl, rfl⟩)

/-- An `init_ryzenadj`: no message but its tests, and what it made is released if it fails. -/
theorem initRyzenadj_spec (w : List Outgoing) :
    initRyzenadj.WpFin (messagesEnv family) (Opened family w) (.initial, w) := by
  have hnone : Opened family w none (.initial, w) := opened_none fun _ h => nomatch h
  have hoff : ∀ {o : Api.Op}, OpFits false o → o ≠ .undefined → o.accessObj = none →
      BackendCall .initial o := by
    intro o hfits hdefined hobj
    refine ⟨hfits, hdefined, ?_, fun _ => rfl⟩
    intro obj h
    rw [hobj] at h
    cases h
  unfold initRyzenadj
  apply quiet_spec (fun _ => rfl) (hoff (o := .cpuidGetFamily) trivial Api.Op.noConfusion rfl)
  intro fam b₁ hfam
  obtain ⟨rfl, rfl⟩ := hfam
  apply Prog.wpFin_ite
  · exact fun _ => hnone
  · intro _
    apply quiet_spec (fun _ => rfl) (hoff (o := .malloc) trivial Api.Op.noConfusion rfl)
    intro allocated b₂ hmalloc
    obtain rfl := hmalloc
    apply Prog.wpFin_ite
    · exact fun _ => hnone
    · intro _
      apply quiet_spec (fun _ => rfl) (hoff (o := .initOsAccessObj) trivial Api.Op.noConfusion rfl)
      intro access b₃ haccess
      obtain ⟨detected, hkind, rfl⟩ := haccess
      cases access with
      | none => exact opened_none fun _ h => nomatch h
      | some obj => exact probeBoth_spec rfl (hkind obj rfl).symm w

end Library
end RyzenAdj
