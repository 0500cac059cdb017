import RyzenAdj.Api.Session
import RyzenAdj.Linux.Dispatch
import RyzenAdj.Smu.Bracket

/-!
# The backend flag (`is_smu` of `lib/linux/osdep_linux.c`)

One flag for the whole process says how every access object is read. The
states of a process over any sequence of library calls, and when the flag fits
every object a dispatcher is called on.
-/

namespace RyzenAdj
open Interaction

section Mailbox
open Mailbox
variable {obj : OsAccessObj}

theorem onObject_bracket : Bracket (Env.only (OnObject obj)) obj (fun _ => True) (fun _ => True)
    fun _ => True where
  inside _ _ _ ho := ⟨ho.2, fun _ _ _ => trivial⟩
  lock _ _ := by
    apply Prog.wp_mono _ (Prog.wp_only_mono (fun _ => onObject_of_lockOp) lockOp_smuLock)
    intro locked _ _
    cases locked with
    | false => trivial
    | true => trivial
  unlock _ _ := Prog.wp_only_mono (fun _ => onObject_of_unlockOp) unlockOp_smuUnlock

theorem onObject_smuServiceReq {smu : Smu} (h : smu.osAccess = obj) (id : Word) (args : Args) :
    (smuServiceReq smu id args).Wp (Env.only (OnObject obj)) (fun _ _ => True) () :=
  Prog.wp_mono _ (smuServiceReq_rule onObject_bracket h id args trivial) fun _ _ _ => trivial

theorem onObject_getSmu (smuType : SmuType) :
    (getSmu obj smuType).Wp (Env.only (OnObject obj))
      (fun r _ => ∀ smu, r = some smu → smu.osAccess = obj) () := by
  have hrule : (getSmu obj smuType).Wp (Env.only (OnObject obj))
      (fun r t => (∀ smu, r = some smu → ∃ family, True ∧ smuOf obj smuType family = some smu) ∧
        OverOr (fun _ => True) (fun _ => True) (r = none) t) () :=
    getSmu_rule onObject_bracket smuType
      (fun _ _ => ⟨onObject_of_none rfl, fun _ _ _ => trivial⟩)
      (fun _ _ => ⟨onObject_of_none rfl, fun _ _ _ => ⟨trivial, trivial⟩⟩) trivial
  apply Prog.wp_mono _ hrule
  intro r _ hr smu hsmu
  obtain ⟨family, -, hfound⟩ := hr.1 smu hsmu
  exact smuOf_osAccess hfound

end Mailbox

/-- Every dispatcher call that the program comes to make finds the flag that fits its object. -/
def FlagFits (isSmu : Bool) {α : Type} (p : Prog mailbox α) : Prop :=
  ∀ o k obj, Prog.Steps (Env.only fun _ => True) (p, ()) (.call o k, ()) →
    o.accessObj = some obj → isSmu = obj.isKmod

theorem flagFits_of_onObject {isSmu : Bool} {obj : OsAccessObj} (hflag : isSmu = obj.isKmod)
    {α : Type} {p : Prog mailbox α} {Q : α → Unit → Prop}
    (hp : p.Wp (Env.only (OnObject obj)) Q ()) : FlagFits isSmu p := by
  intro o k x hst hx
  have hst' : Prog.Steps (Env.only (OnObject obj)) (p, ()) (.call o k, ()) :=
    hst.of_next (F := Env.only (OnObject obj)) fun _ _ _ _ _ => trivial
  have hguard := Prog.wp_guard _ hst' hp
  rw [hguard x hx]
  exact hflag

/-- The flag fits the object of a call of `api.c`; for the two that run a program of
`nb_smu_ops.c`, at every register access and raw command of it. -/
def OpFits (isSmu : Bool) : Api.Op → Prop
  | .smuServiceReq smu id args => FlagFits isSmu (smuServiceReq smu id args)
  | .getSmu obj smuType => FlagFits isSmu (getSmu obj smuType)
  | .freeOsAccessObj obj | .initMemObj obj _ _ | .copyPmTable obj _ => isSmu = obj.isKmod
  | _ => True

def flagMove (i : Option InitInputs) (isSmu : Bool) : (o : Api.Op) → Api.Ret o → Bool → Prop
  | .initOsAccessObj, _, isSmu' => ∀ x, i = some x → isSmu' = (isSmu || x.detected)
  | .freeOsAccessObj _, _, isSmu' => isSmu' = false
  | .isUsingSmuDriver, r, isSmu' => r = isSmu ∧ isSmu' = isSmu
  | _, _, isSmu' => isSmu' = isSmu

def flagEnv (i : Option InitInputs) : Env api Bool where
  guard := OpFits
  next isSmu o r isSmu' := InitAnswer i o r ∧ flagMove i isSmu o r isSmu'

/-- A process: the flag and the handles it has not cleaned up. -/
structure Process where
  isSmu : Bool
  live : List RyzenAccess

def Process.rest (p : Process) (c : LibCall) : List RyzenAccess :=
  match c.handle with
  | none => p.live
  | some ry => p.live.erase ry

def Process.after (p : Process) (c : LibCall) (r : Option RyzenAccess) (isSmu : Bool) : Process :=
  ⟨isSmu, r.toList ++ p.rest c⟩

/-- A call is made on a live handle. -/
def LibCall.Possible (p : Process) (c : LibCall) : Prop := ∀ ry, c.handle = some ry → ry ∈ p.live

/-- The states of a process after any sequence of calls that each meet `Cond`. -/
inductive Runs (depth : Nat) (Cond : Process → LibCall → Prop) : Process → Prop where
  | start : Runs depth Cond ⟨false, []⟩
  | step {p : Process} {c : LibCall} {r : Option RyzenAccess} {isSmu : Bool} :
      Runs depth Cond p → c.Possible p → Cond p c →
      Prog.Steps (flagEnv c.inputs) (c.prog depth, p.isSmu) (.ret r, isSmu) →
      Runs depth Cond (p.after c r isSmu)

/-- The driver is detected only while no `/dev/mem` handle is live; `/dev/mem` is fallen
back to only while the flag is down; and nothing is released, by a clean-up or by an
`init_ryzenadj` that fails after it made its object, while a driver handle is live. -/
def FlagCond (p : Process) : LibCall → Prop
  | .init i => i.family ≠ .unknown → i.allocated = true →
    (i.detected = true → ∀ ry ∈ p.live, ry.osAccess.isKmod = true) ∧
    (i.detected = false → i.mem.isSome → p.isSmu = false) ∧
    (i.access.isSome → (i.mp1Found && i.psmuFound) = false →
      ∀ ry ∈ p.live, ry.osAccess.isKmod = false)
  | .cleanup ry => ∀ ry' ∈ p.live.erase ry, ry'.osAccess.isKmod = false
  | .on _ _ => True

/-- The flag fits every live handle. -/
structure FlagInv (p : Process) : Prop where
  owns : ∀ ry ∈ p.live, Owns ry.osAccess ry
  fits : ∀ ry ∈ p.live, p.isSmu = ry.osAccess.isKmod

theorem opFits_onHandle {isSmu : Bool} {obj : OsAccessObj} (hflag : isSmu = obj.isKmod)
    {o : Api.Op} (h : OnHandle obj o) : OpFits isSmu o := by
  cases o with
  | smuServiceReq smu id args => exact flagFits_of_onObject hflag (onObject_smuServiceReq h id args)
  | initMemObj x _ _ =>
    show isSmu = x.isKmod
    rw [show x = obj from h]
    exact hflag
  | copyPmTable x _ =>
    show isSmu = x.isKmod
    rw [show x = obj from h]
    exact hflag
  | getSmu _ _ => cases h
  | freeOsAccessObj _ => cases h
  | _ => trivial

theorem handleCall_flag (depth : Nat) {isSmu : Bool} {ry : RyzenAccess}
    (howns : Owns ry.osAccess ry) (hflag : isSmu = ry.osAccess.isKmod) (c : HandleCall) :
    (c.prog depth ry).Wp (flagEnv none)
      (fun ry' isSmu' => Owns ry.osAccess ry' ∧ isSmu' = isSmu) isSmu := by
  refine Prog.wp_silent _ ?_ (handleCall_onHandle depth howns c)
  intro o ho
  refine ⟨opFits_onHandle hflag ho, fun r b' hnext => ?_⟩
  have hmove := hnext.2
  cases o with
  | smuServiceReq _ _ _ => exact hmove
  | isUsingSmuDriver => exact hmove.2
  | initMemObj _ _ _ => exact hmove
  | copyPmTable _ _ => exact hmove
  | comparePmTable _ => exact hmove
  | calloc _ => exact hmove
  | sleep _ => exact hmove
  | undefined => exact hmove
  | getSmu _ _ => cases ho
  | cpuidGetFamily => cases ho
  | initOsAccessObj => cases ho
  | freeOsAccessObj _ => cases ho
  | malloc => cases ho

theorem access_isKmod {i : InitInputs} {obj : OsAccessObj} (h : i.access = some obj) :
    obj.isKmod = i.detected ∧ (i.detected = false → i.mem.isSome) := by
  unfold InitInputs.access at h
  cases hd : i.detected with
  | true =>
    rw [hd, if_pos rfl, Option.map_eq_some_iff] at h
    obtain ⟨o, _, rfl⟩ := h
    exact ⟨rfl, fun hf => nomatch hf⟩
  | false =>
    rw [hd, if_neg Bool.false_ne_true, Option.map_eq_some_iff] at h
    obtain ⟨o, hmem, rfl⟩ := h
    exact ⟨rfl, fun _ => by rw [hmem]; rfl⟩

theorem cleanup_flag {isSmu : Bool} {obj : OsAccessObj} (hflag : isSmu = obj.isKmod)
    {i : Option InitInputs} {Q : Option RyzenAccess → Bool → Prop} (hq : Q none false) :
    ((cleanupRyzenadj obj).bind fun _ => Prog.ret none).Wp (flagEnv i) Q isSmu := by
  refine ⟨hflag, fun _ isSmu' hnext => ?_⟩
  rw [show isSmu' = false from hnext.2]
  exact hq

/-- Nothing was returned and the live handles still fit. -/
theorem FlagInv.none {p : Process} (h : FlagInv p) {c : LibCall} {isSmu : Bool}
    (hrest : ∀ ry ∈ p.rest c, ry ∈ p.live ∧ isSmu = ry.osAccess.isKmod) :
    FlagInv (p.after c none isSmu) := by
  constructor
  · intro ry hmem
    exact h.owns ry (hrest ry hmem).1
  · intro ry hmem
    exact (hrest ry hmem).2

theorem FlagInv.some {p : Process} (h : FlagInv p) {c : LibCall} {isSmu : Bool} {ry : RyzenAccess}
    (howns : Owns ry.osAccess ry) (hfits : isSmu = ry.osAccess.isKmod)
    (hrest : ∀ ry' ∈ p.rest c, ry' ∈ p.live ∧ isSmu = ry'.osAccess.isKmod) :
    FlagInv (p.after c (some ry) isSmu) := by
  constructor
  · intro ry' hmem
    cases hmem with
    | head => exact howns
    | tail _ hmem => exact h.owns ry' (hrest ry' hmem).1
  · intro ry' hmem
    cases hmem with
    | head => exact hfits
    | tail _ hmem => exact (hrest ry' hmem).2

/-- What `init_ryzenadj` does with the object it got. -/
def probeBoth (family : RyzenFamily) : Option OsAccessObj → Prog api (Option RyzenAccess)
  | none => .ret none
  | some obj => (Api.getSmu obj .mp1).bind fun r => match r with
    | none => (cleanupRyzenadj obj).bind fun _ => Prog.ret none
    | some mp1Smu => (Api.getSmu obj .psmu).bind fun r => match r with
      | none => (cleanupRyzenadj obj).bind fun _ => Prog.ret none
      | some psmu => Prog.ret (some (freshHandle obj mp1Smu psmu family))

theorem probes_flag {p : Process} (h : FlagInv p) {i : InitInputs} {obj : OsAccessObj}
    {isSmu : Bool} (hflag : isSmu = obj.isKmod)
    (hlive : ∀ ry ∈ p.live, isSmu = ry.osAccess.isKmod)
    (hfail : (i.mp1Found && i.psmuFound) = false → ∀ ry ∈ p.live, ry.osAccess.isKmod = false)
    (family : RyzenFamily) :
    (probeBoth family (some obj)).Wp
      (flagEnv (some i)) (fun r isSmu' => FlagInv (p.after (.init i) r isSmu')) isSmu := by
  have hreleased : (i.mp1Found && i.psmuFound) = false →
      FlagInv (p.after (.init i) none false) := by
    intro hnot
    exact h.none fun ry hmem => ⟨hmem, (hfail hnot ry hmem).symm⟩
  have hfits : ∀ smuType, OpFits isSmu (.getSmu obj smuType) :=
    fun smuType => flagFits_of_onObject hflag (onObject_getSmu smuType)
  refine ⟨hfits .mp1, fun r b hnext => ?_⟩
  obtain ⟨⟨hmp1, hfound⟩, rfl⟩ := hnext
  cases r with
  | none =>
    refine cleanup_flag hflag (hreleased ?_)
    rw [show i.mp1Found = false from (hfound i rfl).symm, Bool.false_and]
  | some mp1Smu =>
    refine ⟨hfits .psmu, fun r b' hnext => ?_⟩
    obtain ⟨⟨hpsmu, hfound'⟩, rfl⟩ := hnext
    cases r with
    | none =>
      refine cleanup_flag hflag (hreleased ?_)
      rw [show i.psmuFound = false from (hfound' i rfl).symm, Bool.and_false]
    | some psmu =>
      refine h.some ⟨rfl, hmp1 mp1Smu rfl, hpsmu psmu rfl⟩ hflag ?_
      exact fun ry hry => ⟨hry, hlive ry hry⟩

theorem initRyzenadj_flag {p : Process} (h : FlagInv p) {i : InitInputs}
    (hcond : FlagCond p (.init i)) :
    initRyzenadj.Wp (flagEnv (some i)) (fun r isSmu' => FlagInv (p.after (.init i) r isSmu'))
      p.isSmu := by
  have hsame : FlagInv (p.after (.init i) none p.isSmu) := h
  unfold initRyzenadj
  refine ⟨trivial, fun family b₁ hfamily => ?_⟩
  obtain ⟨hfam, rfl⟩ := hfamily
  apply Prog.wp_ite
  · exact fun _ => hsame
  · intro hknown
    refine ⟨trivial, fun allocated b₂ hmalloc => ?_⟩
    obtain ⟨halloc, rfl⟩ := hmalloc
    apply Prog.wp_ite
    · exact fun _ => hsame
    · intro hallocated
      rw [hfam i rfl] at hknown
      rw [halloc i rfl] at hallocated
      obtain ⟨hkmod, hmem, hfail⟩ := hcond hknown (by simpa using hallocated)
      refine ⟨trivial, fun access b₃ haccess => ?_⟩
      obtain rfl := haccess.1 i rfl
      obtain rfl := haccess.2 i rfl
      have hlive : ∀ ry ∈ p.live, (p.isSmu || i.detected) = ry.osAccess.isKmod := by
        intro ry hry
        cases hd : i.detected with
        | true => rw [hkmod hd ry hry, Bool.or_true]
        | false => rw [h.fits ry hry, Bool.or_false]
      cases hobj : i.access with
      | none => exact h.none fun ry hry => ⟨hry, hlive ry hry⟩
      | some obj =>
        obtain ⟨hkind, hsome⟩ := access_isKmod hobj
        have hflag : (p.isSmu || i.detected) = obj.isKmod := by
          rw [hkind]
          cases hd : i.detected with
          | true => rw [Bool.or_true]
          | false => rw [hmem hd (hsome hd), Bool.or_false]
        exact probes_flag h hflag hlive (hfail (by rw [hobj]; rfl)) family

theorem libCall_flag (depth : Nat) {p : Process} (h : FlagInv p) {c : LibCall}
    (hpossible : c.Possible p) (hcond : FlagCond p c) :
    (c.prog depth).Wp (flagEnv c.inputs) (fun r isSmu => FlagInv (p.after c r isSmu)) p.isSmu := by
  cases c with
  | init i => exact initRyzenadj_flag h hcond
  | cleanup ry =>
    have hmem := hpossible ry rfl
    refine cleanup_flag (h.fits ry hmem) (h.none fun ry' hry' => ?_)
    exact ⟨List.mem_of_mem_erase hry', (hcond ry' hry').symm⟩
  | on ry c =>
    have hmem := hpossible ry rfl
    have hcall := handleCall_flag depth (h.owns ry hmem) (h.fits ry hmem) c
    apply Prog.wp_seq _ hcall
    intro ry' isSmu' hend
    obtain ⟨howns, rfl⟩ := hend
    have hobj := howns.osAccess
    refine h.some (by rw [hobj]; exact howns) (by rw [hobj]; exact h.fits ry hmem) ?_
    intro ry'' hry''
    have hlive := List.mem_of_mem_erase hry''
    exact ⟨hlive, h.fits ry'' hlive⟩

theorem Runs.flagInv {depth : Nat} {p : Process} (h : Runs depth FlagCond p) : FlagInv p := by
  induction h with
  | start =>
    constructor
    · intro ry hmem
      cases hmem
    · intro ry hmem
      cases hmem
  | step _ hpossible hcond hst ih =>
    exact Prog.wp_result _ hst (libCall_flag depth ih hpossible hcond)

/-- Wherever a call that meets the condition has got to, the flag fits the object of
the dispatcher call it is about to make. -/
theorem flag_fits_dispatch {depth : Nat} {p : Process} (h : Runs depth FlagCond p) {c : LibCall}
    (hpossible : c.Possible p) (hcond : FlagCond p c) {o : Api.Op}
    {k : Api.Ret o → Prog api (Option RyzenAccess)} {isSmu : Bool}
    (hst : Prog.Steps (flagEnv c.inputs) (c.prog depth, p.isSmu) (.call o k, isSmu)) :
    OpFits isSmu o :=
  Prog.wp_guard _ hst (libCall_flag depth h.flagInv hpossible hcond)

def brokenDriver : InitInputs := ⟨.raven, true, true, none, none, false, false⟩

/-- No driver, `/dev/mem` works, the probes are answered. -/
def plainMem : InitInputs := ⟨.raven, true, false, none, some ⟨0, 0⟩, true, true⟩

theorem initRyzenadj_steps (i : InitInputs) (isSmu : Bool) (hknown : i.family ≠ .unknown)
    (hallocated : i.allocated = true) :
    Prog.Steps (flagEnv (some i)) (initRyzenadj, isSmu)
      (probeBoth i.family i.access, isSmu || i.detected) := by
  have hfamily : (flagEnv (some i)).next isSmu .cpuidGetFamily i.family isSmu :=
    ⟨fun x hx => by cases hx; rfl, rfl⟩
  have hmalloc : (flagEnv (some i)).next isSmu .malloc true isSmu :=
    ⟨fun x hx => by cases hx; exact hallocated.symm, rfl⟩
  have haccess : (flagEnv (some i)).next isSmu .initOsAccessObj i.access (isSmu || i.detected) :=
    ⟨fun x hx => by cases hx; rfl, fun x hx => by cases hx; rfl⟩
  refine .head (Prog.Step.call hfamily) ?_
  simp only [Prog.ret_bind, if_neg hknown]
  refine .head (Prog.Step.call hmalloc) ?_
  refine .head (Prog.Step.call haccess) ?_
  cases i.access with
  | none => exact .refl
  | some obj => exact .refl

theorem FlagFits.step {isSmu : Bool} {α : Type} {p q : Prog mailbox α} (h : FlagFits isSmu p)
    (hst : Prog.Step (Env.only fun _ => True) (p, ()) (q, ())) : FlagFits isSmu q :=
  fun o k obj hreach hobj => h o k obj (hreach.head hst) hobj

theorem FlagFits.answer {isSmu : Bool} {α : Type} {o : Mailbox.Op}
    {k : Mailbox.Ret o → Prog mailbox α} (h : FlagFits isSmu (.call (S := mailbox) o k))
    (r : Mailbox.Ret o) : FlagFits isSmu (k r) :=
  h.step (.call trivial)

/-- A probe takes the lock and then hands its command to `smu_raw_cmd`. -/
theorem isKmod_of_flagFits_getSmu {isSmu : Bool} {obj : OsAccessObj} (smuType : SmuType)
    (family : RyzenFamily) {smu : Smu} (hsmu : smuOf obj smuType family = some smu)
    (h : FlagFits isSmu (getSmu obj smuType)) : isSmu = obj.isKmod := by
  have hallocated := h.answer true
  have hfamily := hallocated.answer family
  simp only [Prog.ret_bind, hsmu] at hfamily
  have hclock := (hfamily.answer true).answer 0
  have hloop := hclock.step .loop
  have hlocked := hloop.answer .acquired
  have hobj := hlocked _ _ smu.osAccess .refl rfl
  rw [smuOf_osAccess hsmu] at hobj
  exact hobj

theorem init_possible (i : InitInputs) (p : Process) : LibCall.Possible p (.init i) := by
  intro ry hry
  cases hry

theorem initRyzenadj_made {i : InitInputs} {isSmu : Bool} (hknown : i.family ≠ .unknown)
    (hallocated : i.allocated = true) {obj : OsAccessObj} (hobj : i.access = some obj)
    (hmp1 : i.mp1Found = true) (hpsmu : i.psmuFound = true) {mp1Smu psmu : Smu}
    (hmp1Obj : mp1Smu.osAccess = obj) (hpsmuObj : psmu.osAccess = obj) :
    Prog.Steps (flagEnv (some i)) (initRyzenadj, isSmu)
      (.ret (some (freshHandle obj mp1Smu psmu i.family)), isSmu || i.detected) := by
  have hfound : ∀ (smuType : SmuType) {smu : Smu}, i.found smuType = true → smu.osAccess = obj →
      (flagEnv (some i)).next (isSmu || i.detected) (.getSmu obj smuType) (some smu)
        (isSmu || i.detected) := by
    intro smuType smu hfound hsmu
    refine ⟨⟨fun smu' h => ?_, fun x hx => ?_⟩, rfl⟩
    · rw [← Option.some.inj h]
      exact hsmu
    · rw [← Option.some.inj hx, hfound]
      rfl
  refine (initRyzenadj_steps i isSmu hknown hallocated).trans ?_
  rw [hobj]
  refine .head (Prog.Step.call (hfound .mp1 hmp1 hmp1Obj)) ?_
  exact .single (Prog.Step.call (hfound .psmu hpsmu hpsmuObj))

def plainDriver : InitInputs := ⟨.raven, true, true, some ⟨3, 4, 5, 0x568⟩, none, true, true⟩

def firstHandle : RyzenAccess := freshHandle (.mem ⟨0, 0⟩) ravenMp1 ravenMp1 .raven

def secondSmu : Smu := { ravenMp1 with osAccess := .kmod ⟨3, 4, 5, 0x568⟩ }

def secondHandle : RyzenAccess := freshHandle secondSmu.osAccess secondSmu secondSmu .raven

/-- After an `init_ryzenadj` without the driver, its clean-up, and one with the driver, a request on
the second handle. -/
theorem flag_fits_dispatch_second : Runs 2 FlagCond ⟨true, [secondHandle]⟩ ∧
    OpFits true (.smuServiceReq secondSmu 0x1A { Args.zero with arg0 := 15000 }) := by
  have hfirst : Runs 2 FlagCond ⟨false, [firstHandle]⟩ := by
    have hcond : FlagCond ⟨false, []⟩ (.init plainMem) := by
      refine fun _ _ => ⟨fun hdetected => ?_, fun _ _ => rfl, fun _ _ ry hry => ?_⟩
      · cases hdetected
      · cases hry
    exact .step (c := .init plainMem) (r := some firstHandle)
      .start (init_possible plainMem _) hcond
      (initRyzenadj_made (by decide) rfl rfl rfl rfl rfl rfl)
  have hfreed : (flagEnv none).next false (.freeOsAccessObj firstHandle.osAccess) () false :=
    ⟨trivial, rfl⟩
  have hreleased : Runs 2 FlagCond ⟨false, [firstHandle].erase firstHandle⟩ := by
    refine .step (c := .cleanup firstHandle) (r := none) hfirst ?_ ?_ (.single (.call hfreed))
    · intro ry hry
      rw [← Option.some.inj hry]
      exact List.mem_singleton_self _
    · intro ry hry
      rw [List.erase_cons_head] at hry
      cases hry
  rw [List.erase_cons_head] at hreleased
  have hsecond : Runs 2 FlagCond ⟨true, [secondHandle]⟩ := by
    have hcond : FlagCond ⟨false, []⟩ (.init plainDriver) := by
      refine fun _ _ => ⟨fun _ ry hry => ?_, fun hdetected => ?_, fun _ _ ry hry => ?_⟩
      · cases hry
      · cases hdetected
      · cases hry
    exact .step (c := .init plainDriver) (r := some secondHandle) hreleased
      (init_possible plainDriver _) hcond (initRyzenadj_made (by decide) rfl rfl rfl rfl rfl rfl)
  have hpossible : LibCall.Possible ⟨true, [secondHandle]⟩
      (.on secondHandle (.set setStapmLimit 15000)) := by
    intro ry hry
    rw [← Option.some.inj hry]
    exact List.mem_singleton_self _
  exact ⟨hsecond, flag_fits_dispatch hsecond hpossible trivial .refl⟩

/-- After an `init_ryzenadj` that failed on a broken driver the flag stays up; the next
one falls back to `/dev/mem` and its first probe reads the new object as the driver's. -/
theorem stale_flag_misreads_mem :
    ∃ p c o k isSmu, Runs 2 (fun _ _ => True) p ∧ LibCall.Possible p c ∧
      Prog.Steps (flagEnv c.inputs) (c.prog 2, p.isSmu) (.call o k, isSmu) ∧ ¬ OpFits isSmu o := by
  have hbroken : Runs 2 (fun _ _ => True) ⟨true, []⟩ :=
    .step (c := .init brokenDriver) .start (init_possible brokenDriver _) trivial
      (initRyzenadj_steps brokenDriver false (by decide) rfl)
  have hmem := initRyzenadj_steps plainMem true (by decide) rfl
  refine ⟨⟨true, []⟩, .init plainMem, .getSmu (.mem ⟨0, 0⟩) .mp1, _, true, hbroken,
    init_possible plainMem _, hmem, ?_⟩
  intro hfits
  have hkind := isKmod_of_flagFits_getSmu .mp1 .raven rfl hfits
  cases hkind

end RyzenAdj
