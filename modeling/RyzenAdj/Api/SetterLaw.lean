import Mathlib.Algebra.Group.Nat.Even
import RyzenAdj.Api.Setters
import RyzenAdj.Api.TableCalls

/-!
# What the setters send

Every setter of the library by its name, the messages a call of it sends and
the code it returns, for any answers of the SMU; and which values reach the SMU
as different words.
-/

namespace RyzenAdj
open Interaction Api

inductive SetFunction where
  | stapmLimit | fastLimit | slowLimit | slowTime | stapmTime | tctlTemp
  | vrmCurrent | vrmsocCurrent | vrmgfxCurrent | vrmcvipCurrent | vrmmaxCurrent | vrmgfxmaxCurrent
  | vrmsocmaxCurrent | psi0Current | psi3cpuCurrent | psi0socCurrent | psi3gfxCurrent
  | maxGfxclkFreq | minGfxclkFreq | maxSocclkFreq | minSocclkFreq | maxFclkFreq | minFclkFreq
  | maxVcn | minVcn | maxLclk | minLclk | prochotDeassertionRamp | apuSkinTempLimit
  | dgpuSkinTempLimit | apuSlowLimit | skinTempPowerLimit | gfxClk | powerSaving | maxPerformance
  | ocClk | perCoreOcClk | ocVolt | disableOc | enableOc | coall | coper | cogfx
  deriving DecidableEq

def SetFunction.setter : SetFunction → Setter
  | .stapmLimit => setStapmLimit
  | .fastLimit => setFastLimit
  | .slowLimit => setSlowLimit
  | .slowTime => setSlowTime
  | .stapmTime => setStapmTime
  | .tctlTemp => setTctlTemp
  | .vrmCurrent => setVrmCurrent
  | .vrmsocCurrent => setVrmsocCurrent
  | .vrmgfxCurrent => setVrmgfxCurrent
  | .vrmcvipCurrent => setVrmcvipCurrent
  | .vrmmaxCurrent => setVrmmaxCurrent
  | .vrmgfxmaxCurrent => setVrmgfxmaxCurrent
  | .vrmsocmaxCurrent => setVrmsocmaxCurrent
  | .psi0Current => setPsi0Current
  | .psi3cpuCurrent => setPsi3cpuCurrent
  | .psi0socCurrent => setPsi0socCurrent
  | .psi3gfxCurrent => setPsi3gfxCurrent
  | .maxGfxclkFreq => setMaxGfxclkFreq
  | .minGfxclkFreq => setMinGfxclkFreq
  | .maxSocclkFreq => setMaxSocclkFreq
  | .minSocclkFreq => setMinSocclkFreq
  | .maxFclkFreq => setMaxFclkFreq
  | .minFclkFreq => setMinFclkFreq
  | .maxVcn => setMaxVcn
  | .minVcn => setMinVcn
  | .maxLclk => setMaxLclk
  | .minLclk => setMinLclk
  | .prochotDeassertionRamp => setProchotDeassertionRamp
  | .apuSkinTempLimit => setApuSkinTempLimit
  | .dgpuSkinTempLimit => setDgpuSkinTempLimit
  | .apuSlowLimit => setApuSlowLimit
  | .skinTempPowerLimit => setSkinTempPowerLimit
  | .gfxClk => setGfxClk
  | .powerSaving => setPowerSaving
  | .maxPerformance => setMaxPerformance
  | .ocClk => setOcClk
  | .perCoreOcClk => setPerCoreOcClk
  | .ocVolt => setOcVolt
  | .disableOc => setDisableOc
  | .enableOc => setEnableOc
  | .coall => setCoall
  | .coper => setCoper
  | .cogfx => setCogfx

/-- The functions that may try the second mailbox. -/
def SetFunction.retries : SetFunction → Bool
  | .stapmLimit | .ocClk | .perCoreOcClk | .ocVolt | .disableOc => true
  | _ => false

def SetFunction.skinTemp : SetFunction → Bool
  | .apuSkinTempLimit | .dgpuSkinTempLimit => true
  | _ => false

def SetFunction.argless : SetFunction → Bool
  | .powerSaving | .maxPerformance | .disableOc | .enableOc => true
  | _ => false

def SetFunction.word (f : SetFunction) (value : Word) : Word :=
  if f.skinTemp then value * 256 else if f.argless then 0 else value

/-- A message that was sent, and the response to it. -/
structure Message where
  smu : Smu
  id : Word
  args : Args
  resp : Word

/-- The SMU answers the messages one after another; a setter calls nothing else. -/
def answering (answers : Nat → Word × Args) (log : List Message) :
    (o : Api.Op) → Option (Api.Ret o) × List Message
  | .smuServiceReq smu id args =>
    (some (answers log.length), log ++ [⟨smu, id, args, (answers log.length).1⟩])
  | _ => (none, log)

/-- A call of a setter: what it returns and the messages it sends. -/
def SetFunction.run (f : SetFunction) (ry : RyzenAccess) (value : Word)
    (answers : Nat → Word × Args) : Option Int × List Message :=
  (f.setter.run ry value).eval (S := api) (answering answers) []

section Arms
variable {ry : RyzenAccess} {value : Word} {answers : Nat → Word × Args} {log : List Message}

theorem adjustCode_ne_unsupported (resp : Word) : adjustCode resp ≠ adjErrFamUnsupported := by
  unfold adjustCode
  split
  · decide
  · split
    · decide
    · split <;> decide

theorem adjustCode_zero {resp : Word} : adjustCode resp = 0 ↔ resp = repMsgOK := by
  unfold adjustCode
  split
  · rename_i hok
    simp [hok]
  · rename_i hok
    have hcodes : adjErrSmuTimeout ≠ 0 ∧ adjErrSmuUnsupported ≠ 0 ∧ adjErrSmuRejected ≠ 0 := by
      decide
    simp only [hok, iff_false]
    split
    · exact hcodes.1
    · split
      · exact hcodes.2.1
      · exact hcodes.2.2

def Args.ofWord (word : Word) : Args := { Args.zero with arg0 := word }

theorem doAdjust_eval (smu : Smu) (opt word : Word) :
    (doAdjust smu opt word).eval (S := api) (answering answers) log =
      (some (adjustCode (answers log.length).1),
        log ++ [⟨smu, opt, .ofWord word, (answers log.length).1⟩]) := rfl

/-- The law of a setter, of the code a call returned and the messages it sent. -/
structure Disciplined (f : SetFunction) (ry : RyzenAccess) (value : Word) (code : Int)
    (log : List Message) : Prop where
  unsupported : code = adjErrFamUnsupported ↔ log = []
  messages : log.length ≤ 1 ∨ f.retries = true ∧ ∃ first second, log = [first, second] ∧
    first.smu = ry.mp1Smu ∧ first.resp ≠ repMsgOK ∧ second.smu = ry.psmu
  word : ∀ m ∈ log, m.args = .ofWord (f.word value)
  translated : ∀ m, log.getLast? = some m → code = adjustCode m.resp
  zero : code = 0 ↔ ∃ m, log.getLast? = some m ∧ m.resp = repMsgOK

def Send.retries : Send → Bool
  | .mp1ThenPsmu _ _ => true
  | _ => false

theorem disciplined_one {f : SetFunction} (ry : RyzenAccess) (m : Message)
    (hword : m.args = .ofWord (f.word value)) :
    Disciplined f ry value (adjustCode m.resp) [m] where
  unsupported := by simp [adjustCode_ne_unsupported]
  messages := .inl (Nat.le_refl 1)
  word := by simpa using hword
  translated := by simp
  zero := by simp [adjustCode_zero]

theorem disciplined_two {f : SetFunction} (ry : RyzenAccess) (first second : Message)
    (hf : f.retries = true)
    (hfirst : first.args = .ofWord (f.word value)) (hmp1 : first.smu = ry.mp1Smu)
    (hresp : first.resp ≠ repMsgOK) (hsecond : second.args = .ofWord (f.word value))
    (hpsmu : second.smu = ry.psmu) :
    Disciplined f ry value (adjustCode second.resp) [first, second] where
  unsupported := by simp [adjustCode_ne_unsupported]
  messages := .inr ⟨hf, first, second, rfl, hmp1, hresp, hpsmu⟩
  word := by simpa using ⟨hfirst, hsecond⟩
  translated := by simp
  zero := by simp [adjustCode_zero]

theorem send_disciplined {f : SetFunction} {send : Send} (ry : RyzenAccess) (value : Word)
    (answers : Nat → Word × Args)
    (hretry : send.retries = true → f.retries = true) :
    ∃ code log, (send.run ry (f.word value)).eval (S := api) (answering answers) [] =
      (some code, log) ∧ log ≠ [] ∧ Disciplined f ry value code log := by
  cases send with
  | mp1 opt =>
    have hlaw := disciplined_one ry ⟨ry.mp1Smu, opt, .ofWord (f.word value), (answers 0).1⟩
      rfl
    exact ⟨_, _, doAdjust_eval ry.mp1Smu opt _, List.cons_ne_nil _ _, hlaw⟩
  | psmu opt =>
    have hlaw := disciplined_one ry ⟨ry.psmu, opt, .ofWord (f.word value), (answers 0).1⟩
      rfl
    exact ⟨_, _, doAdjust_eval ry.psmu opt _, List.cons_ne_nil _ _, hlaw⟩
  | mp1ThenPsmu opt retry =>
    have hrun : ((Send.mp1ThenPsmu opt retry).run ry (f.word value)).eval (S := api)
        (answering answers) [] = Prog.andThen
          ((doAdjust ry.mp1Smu opt (f.word value)).eval (S := api) (answering answers) [])
          fun err log => (if err ≠ 0 then doAdjust ry.psmu retry (f.word value)
            else return err).eval (S := api) (answering answers) log :=
      Prog.eval_bind _ _ _ _
    rw [hrun, doAdjust_eval, Prog.andThen_some, List.length_nil]
    by_cases hok : adjustCode (answers 0).1 = 0
    · rw [if_neg (not_not.mpr hok)]
      have hlaw := disciplined_one ry
        ⟨ry.mp1Smu, opt, .ofWord (f.word value), (answers 0).1⟩ rfl
      exact ⟨_, _, rfl, List.cons_ne_nil _ _, hlaw⟩
    · rw [if_pos hok, doAdjust_eval]
      have hlaw := disciplined_two ry
        ⟨ry.mp1Smu, opt, .ofWord (f.word value), (answers 0).1⟩
        ⟨ry.psmu, retry, .ofWord (f.word value), (answers 1).1⟩ (hretry rfl) rfl rfl
        (fun h => hok (adjustCode_zero.mpr h)) rfl rfl
      exact ⟨_, _, rfl, List.cons_ne_nil _ _, hlaw⟩

theorem retries_of_arm (f : SetFunction) :
    ∀ arm ∈ f.setter.cases, arm.2.retries = true → f.retries = true := by
  cases f <;> decide

theorem word_of_setter (f : SetFunction) (value : Word) :
    f.setter.scale.arg value = f.word value := by
  cases f <;> rfl

def SetFunction.supports (f : SetFunction) (family : RyzenFamily) : Bool :=
  (switchOn family f.setter.cases).isSome

/-- A call sends a message exactly on the families its switch lists, and the law holds. -/
theorem run_disciplined (f : SetFunction) (ry : RyzenAccess) (value : Word)
    (answers : Nat → Word × Args) :
    ∃ code log, f.run ry value answers = (some code, log) ∧
      (log ≠ [] ↔ f.supports ry.family = true) ∧ Disciplined f ry value code log := by
  unfold SetFunction.run Setter.run SetFunction.supports
  rw [word_of_setter]
  cases hswitch : switchOn ry.family f.setter.cases with
  | none =>
    refine ⟨_, _, rfl, by simp, ?_⟩
    exact ⟨by simp, .inl (Nat.zero_le 1), by simp, by simp, by simp [adjErrFamUnsupported]⟩
  | some send =>
    obtain ⟨labels, harm⟩ := switchOn_mem hswitch
    obtain ⟨code, log, hrun, hne, hlaw⟩ :=
      send_disciplined ry value answers (retries_of_arm f (labels, send) harm)
    exact ⟨code, log, hrun, by simp [hne], hlaw⟩

end Arms

/-- Every setter, on every family, with every value and all answers of the SMU. -/
theorem setter_disciplined (f : SetFunction) (ry : RyzenAccess) (value : Word)
    (answers : Nat → Word × Args) :
    ∃ code log, f.run ry value answers = (some code, log) ∧ Disciplined f ry value code log := by
  obtain ⟨code, log, hrun, -, hlaw⟩ := run_disciplined f ry value answers
  exact ⟨code, log, hrun, hlaw⟩

/-! ### Values as words -/

/-- A call that returned an error and sent nothing. -/
def Refused (r : Option Int × List Message) : Prop :=
  r.2 = [] ∧ ∃ code, r.1 = some code ∧ code ≠ 0

/-- Two calls send different words, or one of them refuses its value. -/
def KeptApart (r r' : Option Int × List Message) : Prop :=
  (∀ m ∈ r.2, ∀ m' ∈ r'.2, m.args.arg0 ≠ m'.args.arg0) ∨ Refused r ∨ Refused r'

def Delivers (r : Option Int × List Message) (n : Nat) : Prop :=
  ∀ m ∈ r.2, m.args.arg0.toNat = n

section Words
variable {f : SetFunction} {ry : RyzenAccess} {v w : Word}

theorem times256_eq_iff : v * 256 = w * 256 ↔ v.toNat % 2 ^ 24 = w.toNat % 2 ^ 24 := by
  have h256 : (256 : Word).toNat = 256 := rfl
  rw [← BitVec.toNat_inj, BitVec.toNat_mul, BitVec.toNat_mul, h256]
  omega

theorem times256_exact : (v * 256).toNat = 256 * v.toNat ↔ v.toNat < 2 ^ 24 := by
  have h256 : (256 : Word).toNat = 256 := rfl
  rw [BitVec.toNat_mul, h256]
  omega

theorem run_sends (v : Word) (hfamily : f.supports ry.family = true)
    (answers : Nat → Word × Args) :
    (f.run ry v answers).2 ≠ [] ∧
      ∀ m ∈ (f.run ry v answers).2, m.args.arg0 = f.word v := by
  obtain ⟨code, log, hrun, hsupports, hlaw⟩ := run_disciplined f ry v answers
  rw [hrun]
  refine ⟨hsupports.mpr hfamily, fun m hm => ?_⟩
  rw [hlaw.word m hm]
  rfl

theorem keptApart_iff (hfamily : f.supports ry.family = true)
    (answers answers' : Nat → Word × Args) :
    KeptApart (f.run ry v answers) (f.run ry w answers') ↔ f.word v ≠ f.word w := by
  obtain ⟨hne, hword⟩ := run_sends v hfamily answers
  obtain ⟨hne', hword'⟩ := run_sends w hfamily answers'
  constructor
  · rintro (h | ⟨hnil, -⟩ | ⟨hnil, -⟩)
    · obtain ⟨m, hm⟩ := List.exists_mem_of_ne_nil _ hne
      obtain ⟨m', hm'⟩ := List.exists_mem_of_ne_nil _ hne'
      rw [← hword m hm, ← hword' m' hm']
      exact h m hm m' hm'
    · exact absurd hnil hne
    · exact absurd hnil hne'
  · intro h
    left
    intro m hm m' hm'
    rw [hword m hm, hword' m' hm']
    exact h

theorem delivers_iff (hfamily : f.supports ry.family = true) (answers : Nat → Word × Args)
    (n : Nat) : Delivers (f.run ry v answers) n ↔ (f.word v).toNat = n := by
  obtain ⟨hne, hword⟩ := run_sends v hfamily answers
  constructor
  · intro h
    obtain ⟨m, hm⟩ := List.exists_mem_of_ne_nil _ hne
    rw [← hword m hm]
    exact h m hm
  · intro h m hm
    rw [hword m hm]
    exact h

/-- Two values are conflated exactly by the skin-temperature setters, and there if they differ
by a multiple of 2^24. -/
theorem word_eq_iff (hargs : f.argless = false) :
    f.word v = f.word w ↔
      v = w ∨ f.skinTemp = true ∧ v.toNat % 2 ^ 24 = w.toNat % 2 ^ 24 := by
  unfold SetFunction.word
  cases hskin : f.skinTemp with
  | false => simp [hargs]
  | true =>
    simp only [if_true, true_and]
    rw [times256_eq_iff]
    constructor
    · exact .inr
    · rintro (rfl | h)
      · rfl
      · exact h

end Words

/-- Two values stay apart, and a skin temperature arrives 256 times itself, exactly if it is no
skin temperature or both values are below 2^24. -/
theorem values_kept (f : SetFunction) (hargs : f.argless = false) (ry : RyzenAccess)
    (hfamily : f.supports ry.family = true) (v w : Word) (hne : v ≠ w)
    (answers answers' : Nat → Word × Args) :
    (KeptApart (f.run ry v answers) (f.run ry w answers') ∧
      (f.skinTemp = true → Delivers (f.run ry v answers) (256 * v.toNat) ∧
        Delivers (f.run ry w answers') (256 * w.toNat))) ↔
      (f.skinTemp = true → v.toNat < 2 ^ 24 ∧ w.toNat < 2 ^ 24) := by
  rw [keptApart_iff hfamily, delivers_iff hfamily, delivers_iff hfamily, ne_eq,
    word_eq_iff hargs]
  have hword : ∀ value, f.skinTemp = true → f.word value = value * 256 := by
    intro value hskin
    rw [SetFunction.word, if_pos hskin]
  constructor
  · rintro ⟨-, hexact⟩ hskin
    have hexact := hexact hskin
    rwa [hword v hskin, hword w hskin, times256_exact, times256_exact] at hexact
  · intro hsmall
    refine ⟨?_, fun hskin => ?_⟩
    · rintro (h | ⟨hskin, hmod⟩)
      · exact hne h
      · obtain ⟨hv, hw⟩ := hsmall hskin
        rw [Nat.mod_eq_of_lt hv, Nat.mod_eq_of_lt hw] at hmod
        exact hne (BitVec.eq_of_toNat_eq hmod)
    · rw [hword v hskin, hword w hskin, times256_exact, times256_exact]
      exact hsmall hskin

def renoirHandle : RyzenAccess := { ravenHandle with family := .renoir }

theorem values_kept_renoir :
    KeptApart (SetFunction.apuSkinTempLimit.run renoirHandle 45 fun _ => (repMsgOK, .zero))
      (SetFunction.apuSkinTempLimit.run renoirHandle 90 fun _ => (repMsgFailed, .zero)) :=
  ((values_kept .apuSkinTempLimit rfl renoirHandle rfl 45 90 (by decide) _ _).mpr
    fun _ => by decide).1

/-- 2^24 degrees are sent as 0 degrees, and the call succeeds. -/
theorem skin_temp_wraps :
    SetFunction.apuSkinTempLimit.run renoirHandle 16777216 (fun _ => (repMsgOK, .zero)) =
        (some 0, [⟨renoirHandle.mp1Smu, 0x38, .zero, repMsgOK⟩]) ∧
      SetFunction.apuSkinTempLimit.run renoirHandle 0 (fun _ => (repMsgOK, .zero)) =
        (some 0, [⟨renoirHandle.mp1Smu, 0x38, .zero, repMsgOK⟩]) ∧
      ¬KeptApart
        (SetFunction.apuSkinTempLimit.run renoirHandle 16777216 fun _ => (repMsgOK, .zero))
        (SetFunction.apuSkinTempLimit.run renoirHandle 0 fun _ => (repMsgOK, .zero)) := by
  refine ⟨rfl, rfl, ?_⟩
  rw [keptApart_iff rfl, not_not]
  rfl

end RyzenAdj
