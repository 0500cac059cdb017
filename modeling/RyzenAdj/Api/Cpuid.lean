import Mathlib.Tactic.IntervalCases
import RyzenAdj.Api.Table
import RyzenAdj.Interaction.Trace

/-!
# The processor family (`lib/cpuid.c`)

The family read from the `cpuid` instruction and kept for the process. The load
is made at the first call only; what the later calls return does not depend on
what the instruction would give by then.
-/

namespace RyzenAdj
open Interaction

/-- `CPUInfo[0]` to `CPUInfo[3]`: `eax`, `ebx`, `ecx`, `edx`. -/
structure CpuInfo where
  eax : Word
  ebx : Word
  ecx : Word
  edx : Word
  deriving DecidableEq, Repr

inductive CpuidMessage where
  | notAmd
  | unsupportedModel (family model : Nat)
  | unsupportedFamily (family : Nat)
  | onlyRyzenMobile
  deriving DecidableEq, Repr

inductive Processor.Op where
  | getcpuid (infoType : Word)
  | printf (m : CpuidMessage)

abbrev processor : Signature where
  Op := Processor.Op
  Ret
    | .getcpuid _ => CpuInfo
    | .printf _ => Unit

namespace Processor

def getcpuid (infoType : Word) : Prog processor CpuInfo :=
  .perform (S := processor) (.getcpuid infoType)
def printf (m : CpuidMessage) : Prog processor Unit := .perform (S := processor) (.printf m)

end Processor
open Processor

def cpuidVendorAmd : List Byte :=
  [0x41, 0x75, 0x74, 0x68, 0x65, 0x6E, 0x74, 0x69, 0x63, 0x41, 0x4D, 0x44]

/-- The array `vendor` as a string: up to its first NUL. -/
def vendor (regs : CpuInfo) : List Byte :=
  (wordBytes regs.ebx ++ wordBytes regs.edx ++ wordBytes regs.ecx).takeWhile (· ≠ 0)

def cpuFamily (eax : Word) : Nat :=
  ((eax >>> 8 &&& (0xF : Word)) + (eax >>> 20 &&& (0xFF : Word))).toNat

def cpuModel (eax : Word) : Nat :=
  ((eax >>> 4 &&& (0xF : Word)) ||| (eax >>> 12 &&& (0xF0 : Word))).toNat

/-- The nested switch: the models of each family. -/
def cpuFamilies : List (List Nat × List (List Nat × RyzenFamily)) :=
  [([0x17], [([17], .raven), ([24], .picasso), ([32], .dali), ([96], .renoir), ([104], .lucienne),
      ([144, 145], .vangogh), ([160], .mendocino)]),
    ([0x19], [([80], .cezanne), ([64, 68], .rembrandt), ([97], .dragonrange),
      ([116, 120], .phoenix), ([117], .hawkpoint)]),
    ([0x1A], [([32, 36], .strixpoint), ([68], .firerange), ([96], .krackanpoint),
      ([112], .strixhalo)])]

def cpuidLoadFamily : Prog processor RyzenFamily := do
  let regs ← getcpuid 0
  if vendor regs ≠ cpuidVendorAmd then
    printf .notAmd
    return .unknown
  let regs ← getcpuid 1
  let family := cpuFamily regs.eax
  let model := cpuModel regs.eax
  match switchOn family cpuFamilies with
  | none =>
    printf (.unsupportedFamily family)
    printf .onlyRyzenMobile
    return .unknown
  | some models =>
    match switchOn model models with
    | some f => return f
    | none =>
      printf (.unsupportedModel family model)
      printf .onlyRyzenMobile
      return .unknown

/-- `cpuid_get_family` with the static `cpuid_family`, `none` being `WAIT_FOR_LOAD`. -/
def Cpuid.cpuidGetFamily (cpuidFamily : Option RyzenFamily) :
    Prog processor (RyzenFamily × Option RyzenFamily) :=
  match cpuidFamily with
  | some family => return (family, some family)
  | none => do
    let family ← cpuidLoadFamily
    return (family, some family)

def getFamilies : Nat → Option RyzenFamily → Prog processor (List RyzenFamily)
  | 0, _ => return []
  | n + 1, cpuidFamily => do
    let (family, cpuidFamily) ← Cpuid.cpuidGetFamily cpuidFamily
    let families ← getFamilies n cpuidFamily
    return family :: families

/-- What a program asks the processor, with the answers. -/
def asked : (o : Processor.Op) → processor.Ret o → List (Word × CpuInfo)
  | .getcpuid infoType, regs => [(infoType, regs)]
  | .printf _, _ => []

/-- The vendor string that the registers of leaf 0 hold. -/
structure IsAmd (regs : CpuInfo) : Prop where
  ebx : regs.ebx = 0x68747541
  edx : regs.edx = 0x69746E65
  ecx : regs.ecx = 0x444D4163

/-- Family and model in the signature of a processor: family and extended family are added up,
the extended model stands before the model. -/
structure Signed (eax : Word) (family model : Nat) : Prop where
  family : family = eax.toNat / 2 ^ 8 % 2 ^ 4 + eax.toNat / 2 ^ 20 % 2 ^ 8
  model : model = 2 ^ 4 * (eax.toNat / 2 ^ 16 % 2 ^ 4) + eax.toNat / 2 ^ 4 % 2 ^ 4

/-- The family of a signature; unknown where the tables have none. -/
def familyOf (family model : Nat) : RyzenFamily :=
  ((switchOn family cpuFamilies).bind (switchOn model)).getD .unknown

theorem familyOf_none {family model : Nat} (h : switchOn family cpuFamilies = none) :
    familyOf family model = .unknown := by simp [familyOf, h]

theorem familyOf_some {family model : Nat} {models : List (List Nat × RyzenFamily)}
    (h : switchOn family cpuFamilies = some models) :
    familyOf family model = (switchOn model models).getD .unknown := by simp [familyOf, h]

/-- What a load asks, and the family it finds. -/
inductive Loads : List (Word × CpuInfo) → RyzenFamily → Prop where
  | notAmd (regs : CpuInfo) : ¬IsAmd regs → Loads [(0, regs)] .unknown
  | amd (regs regs' : CpuInfo) (family model : Nat) : IsAmd regs → Signed regs'.eax family model →
      Loads [(0, regs), (1, regs')] (familyOf family model)

section Registers

theorem word_of_bytes {w v : Word} (h : wordBytes w = wordBytes v) : w = v := by
  have hwords := congrArg bytesWords h
  have hw := bytesWords_wordBytes w []
  have hv := bytesWords_wordBytes v []
  rw [List.append_nil] at hw hv
  rw [hw, hv] at hwords
  exact (List.cons.inj hwords).1

theorem cpuidVendorAmd_eq : cpuidVendorAmd =
    wordBytes 0x68747541 ++ wordBytes 0x69746E65 ++ wordBytes 0x444D4163 := by decide

theorem vendor_iff {regs : CpuInfo} : vendor regs = cpuidVendorAmd ↔ IsAmd regs := by
  constructor
  · intro h
    have hlen : (vendor regs).length = 12 := by rw [h]; rfl
    have hsize : (wordBytes regs.ebx ++ wordBytes regs.edx ++ wordBytes regs.ecx).length = 12 := by
      simp only [List.length_append, wordBytes_length]
    have hprefix : vendor regs <+: wordBytes regs.ebx ++ wordBytes regs.edx ++ wordBytes regs.ecx :=
      List.takeWhile_prefix _
    have hall := hprefix.eq_of_length (hlen.trans hsize.symm)
    rw [h, cpuidVendorAmd_eq] at hall
    obtain ⟨hleft, hecx⟩ :=
      List.append_inj hall (by simp only [List.length_append, wordBytes_length])
    obtain ⟨hebx, hedx⟩ := List.append_inj hleft (by simp only [wordBytes_length])
    exact ⟨(word_of_bytes hebx).symm, (word_of_bytes hedx).symm, (word_of_bytes hecx).symm⟩
  · intro h
    unfold vendor
    rw [h.ebx, h.edx, h.ecx]
    decide

theorem toNat_field (w : Word) (k i : Nat) (hi : i ≤ 32) :
    (w >>> k &&& BitVec.ofNat 32 (2 ^ i - 1)).toNat = w.toNat / 2 ^ k % 2 ^ i := by
  have hpow : 2 ^ i ≤ 2 ^ 32 := Nat.pow_le_pow_right (by decide) hi
  have hpos : 0 < 2 ^ i := Nat.two_pow_pos i
  rw [BitVec.toNat_and, BitVec.toNat_ofNat, Nat.mod_eq_of_lt (by omega),
    Nat.and_two_pow_sub_one_eq_mod, BitVec.toNat_ushiftRight, Nat.shiftRight_eq_div_pow]

theorem cpuFamily_eq (eax : Word) :
    cpuFamily eax = eax.toNat / 2 ^ 8 % 2 ^ 4 + eax.toNat / 2 ^ 20 % 2 ^ 8 := by
  have hbase : (eax >>> 8 &&& (0xF : Word)).toNat = eax.toNat / 2 ^ 8 % 2 ^ 4 :=
    toNat_field eax 8 4 (by decide)
  have hext : (eax >>> 20 &&& (0xFF : Word)).toNat = eax.toNat / 2 ^ 20 % 2 ^ 8 :=
    toNat_field eax 20 8 (by decide)
  unfold cpuFamily
  rw [BitVec.toNat_add, hbase, hext]
  omega

theorem cpuModel_eq (eax : Word) :
    cpuModel eax = 2 ^ 4 * (eax.toNat / 2 ^ 16 % 2 ^ 4) + eax.toNat / 2 ^ 4 % 2 ^ 4 := by
  have hlow : (eax >>> 4 &&& (0xF : Word)).toNat = eax.toNat / 2 ^ 4 % 2 ^ 4 :=
    toNat_field eax 4 4 (by decide)
  have hext : (eax >>> 16 &&& (0xF : Word)).toNat = eax.toNat / 2 ^ 16 % 2 ^ 4 :=
    toNat_field eax 16 4 (by decide)
  have hshift : eax >>> 12 &&& (0xF0 : Word) = (eax >>> 16 &&& (0xF : Word)) <<< 4 := by
    apply BitVec.eq_of_getLsbD_eq
    intro i hi
    interval_cases i <;> simp
  have hhigh : (eax >>> 12 &&& (0xF0 : Word)).toNat = 2 ^ 4 * (eax.toNat / 2 ^ 16 % 2 ^ 4) := by
    rw [hshift, BitVec.toNat_shiftLeft, hext, Nat.shiftLeft_eq]
    omega
  unfold cpuModel
  rw [BitVec.toNat_or, hlow, hhigh, Nat.or_comm,
    ← Nat.two_pow_add_eq_or_of_lt (Nat.mod_lt _ (by decide))]

end Registers

section Load

abbrev Asks {α : Type} (p : Prog processor α) (L : α → Language (Word × CpuInfo)) : Prop :=
  Prog.Says (fun _ _ => True) asked p L

theorem asks_printf {α : Type} {m : CpuidMessage} {f : Unit → Prog processor α}
    {L : α → Language (Word × CpuInfo)} (h : Asks (f ()) L) : Asks ((printf m).bind f) L :=
  Prog.says_call fun _ _ => h

theorem asks_getcpuid {α : Type} {infoType : Word} {f : CpuInfo → Prog processor α}
    {L : α → Language (Word × CpuInfo)}
    (h : ∀ regs, Asks (f regs) fun a => {v | (infoType, regs) :: v ∈ L a}) :
    Asks ((getcpuid infoType).bind f) L :=
  Prog.says_call fun regs _ => h regs

theorem loads_amd {regs regs' : CpuInfo} {f : RyzenFamily} (hamd : IsAmd regs)
    (hf : f = familyOf (cpuFamily regs'.eax) (cpuModel regs'.eax)) :
    Loads [(0, regs), (1, regs')] f := by
  rw [hf]
  exact .amd regs regs' _ _ hamd ⟨cpuFamily_eq regs'.eax, cpuModel_eq regs'.eax⟩

theorem asks_cpuidLoadFamily : Asks cpuidLoadFamily fun f => {v | Loads v f} := by
  apply asks_getcpuid
  intro regs
  apply Prog.says_ite
  · intro hvendor
    apply asks_printf
    exact Prog.says_ret (.notAmd regs fun hamd => hvendor (vendor_iff.mpr hamd))
  · intro hvendor
    have hamd := vendor_iff.mp (not_not.mp hvendor)
    apply asks_getcpuid
    intro regs'
    simp only
    cases hfamily : switchOn (cpuFamily regs'.eax) cpuFamilies with
    | none =>
      apply asks_printf
      apply asks_printf
      exact Prog.says_ret (loads_amd hamd (familyOf_none hfamily).symm)
    | some models =>
      simp only
      cases hmodel : switchOn (cpuModel regs'.eax) models with
      | some f => exact Prog.says_ret (loads_amd hamd (by rw [familyOf_some hfamily, hmodel]; rfl))
      | none =>
        apply asks_printf
        apply asks_printf
        exact Prog.says_ret (loads_amd hamd (by rw [familyOf_some hfamily, hmodel]; rfl))

/-- Once a family is kept nothing is asked any more. -/
theorem getFamilies_kept (n : Nat) (f : RyzenFamily) :
    getFamilies n (some f) = .ret (List.replicate n f) := by
  induction n with
  | zero => rfl
  | succ n ih =>
    simp only [getFamilies, Cpuid.cpuidGetFamily, Prog.pure_eq, Prog.bind_eq, Prog.ret_bind, ih]
    rfl

/-- The family is loaded at the first of any number of calls and by no other: the processor is
asked for its vendor, and for its signature if it is AMD's; every call returns the family of
that signature. -/
theorem family_loaded_once (n : Nat) : Prog.Says (fun _ _ => True) asked (getFamilies (n + 1) none)
    fun families => {v | ∃ f, Loads v f ∧ families = List.replicate (n + 1) f} := by
  have hload : getFamilies (n + 1) none =
      cpuidLoadFamily.bind fun f => .ret (List.replicate (n + 1) f) := by
    simp only [getFamilies, Cpuid.cpuidGetFamily, Prog.pure_eq, Prog.bind_eq, Prog.bind_assoc,
      Prog.ret_bind, getFamilies_kept]
    rfl
  rw [hload]
  apply Prog.says_seq asks_cpuidLoadFamily (M := fun f families =>
    {v | v = [] ∧ families = List.replicate (n + 1) f})
  · exact fun f _ => Prog.says_ret ⟨rfl, rfl⟩
  · intro f families v hv
    obtain ⟨u, hu, u', ⟨rfl, rfl⟩, rfl⟩ := hv
    exact ⟨f, by simpa using hu, rfl⟩

def loadedFamily (cpu : Word → CpuInfo) : RyzenFamily :=
  if vendor (cpu 0) ≠ cpuidVendorAmd then .unknown
  else familyOf (cpuFamily (cpu 1).eax) (cpuModel (cpu 1).eax)

def processorEnv (cpu : Word → CpuInfo) : Env processor Unit where
  guard _ _ := True
  next
    | _, .getcpuid infoType, regs, _ => regs = cpu infoType
    | _, .printf _, _, _ => True

theorem cpuidLoadFamily_loads (cpu : Word → CpuInfo) :
    cpuidLoadFamily.Wp (processorEnv cpu) (fun f _ => f = loadedFamily cpu) () := by
  refine ⟨trivial, fun regs _ hregs => ?_⟩
  rw [show regs = cpu 0 from hregs]
  apply Prog.wp_ite
  · intro hvendor
    exact ⟨trivial, fun _ _ _ => (if_pos hvendor).symm⟩
  · intro hvendor
    have hloaded : loadedFamily cpu = familyOf (cpuFamily (cpu 1).eax) (cpuModel (cpu 1).eax) :=
      if_neg hvendor
    refine ⟨trivial, fun regs' _ hregs' => ?_⟩
    rw [show regs' = cpu 1 from hregs', hloaded]
    simp only [Prog.ret_bind]
    cases hfamily : switchOn (cpuFamily (cpu 1).eax) cpuFamilies with
    | none => exact ⟨trivial, fun _ _ _ => ⟨trivial, fun _ _ _ => (familyOf_none hfamily).symm⟩⟩
    | some models =>
      rw [familyOf_some hfamily]
      simp only
      cases switchOn (cpuModel (cpu 1).eax) models with
      | some f => rfl
      | none => exact ⟨trivial, fun _ _ _ => ⟨trivial, fun _ _ _ => rfl⟩⟩

/-- The family that is kept, if any, is that of the processor; so is the one that is returned. -/
theorem cpuidGetFamily_loads {cpu : Word → CpuInfo} {cpuidFamily : Option RyzenFamily}
    (h : ∀ f, cpuidFamily = some f → f = loadedFamily cpu) :
    (Cpuid.cpuidGetFamily cpuidFamily).Wp (processorEnv cpu)
      (fun r _ => r.1 = loadedFamily cpu ∧ r.2 = some (loadedFamily cpu)) () := by
  cases hkept : cpuidFamily with
  | some f =>
    have hf := h f hkept
    exact ⟨hf, congrArg some hf⟩
  | none =>
    apply Prog.wp_seq _ (cpuidLoadFamily_loads cpu)
    intro f _ hf
    exact ⟨hf, congrArg some hf⟩

end Load
end RyzenAdj
