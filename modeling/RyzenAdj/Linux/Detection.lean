import RyzenAdj.Libc.Scanf

/-!
# The version of `ryzen_smu` (`is_ryzen_smu_driver_compatible`)

The text of `drv_version` as `fscanf` takes it apart, and the texts with which
the driver is used.
-/

namespace RyzenAdj
open Libc

/-- `fscanf(drv_ver, "%9d.%9d.%9d", ...)`: the three numbers, if all are there. -/
def scanVersion (text : CString) : Option (Int × Int × Int) := do
  let (major, text) ← scanInt 9 text
  let text ← scanChar '.' text
  let (minor, text) ← scanInt 9 text
  let text ← scanChar '.' text
  let (patch, _) ← scanInt 9 text
  return (major, minor, patch)

def versionCompatible (text : CString) : Bool :=
  match scanVersion text with
  | none => false
  | some (major, minor, patch) => !(decide (major ≠ 0) || decide (minor ≠ 1) || decide (patch < 7))

/-- Three numbers with dots between them at the beginning of the text. -/
inductive VersionText : CString → Int → Int → Int → Prop where
  | mk {f₁ f₂ f₃ rest : CString} {major minor patch : Int} :
      IntField 9 f₁ major ('.' :: (f₂ ++ '.' :: (f₃ ++ rest))) →
      IntField 9 f₂ minor ('.' :: (f₃ ++ rest)) → IntField 9 f₃ patch rest →
      VersionText (f₁ ++ '.' :: (f₂ ++ '.' :: (f₃ ++ rest))) major minor patch

theorem scanVersion_iff {text : CString} {major minor patch : Int} :
    scanVersion text = some (major, minor, patch) ↔ VersionText text major minor patch := by
  constructor
  · intro h
    simp only [scanVersion, Option.bind_eq_bind, Option.bind_eq_some_iff] at h
    obtain ⟨⟨v₁, text₁⟩, h₁, text₂, hdot₁, ⟨v₂, text₃⟩, h₂, text₄, hdot₂, ⟨v₃, rest⟩, h₃, heq⟩ := h
    obtain ⟨rfl, rfl, rfl⟩ : v₁ = major ∧ v₂ = minor ∧ v₃ = patch := by simpa using heq
    obtain rfl := scanChar_iff.mp hdot₁
    obtain rfl := scanChar_iff.mp hdot₂
    obtain ⟨f₁, rfl, hf₁⟩ := scanInt_iff.mp h₁
    obtain ⟨f₂, rfl, hf₂⟩ := scanInt_iff.mp h₂
    obtain ⟨f₃, rfl, hf₃⟩ := scanInt_iff.mp h₃
    exact .mk hf₁ hf₂ hf₃
  · intro h
    obtain ⟨hf₁, hf₂, hf₃⟩ := h
    simp only [scanVersion, scanInt_of_field hf₁, scanInt_of_field hf₂, scanInt_of_field hf₃,
      scanChar, if_true, Option.bind_eq_bind, Option.bind_some]
    rfl

/-- The driver is used with version 0.1 from patch level 7 on, and with no other text. -/
theorem versionCompatible_iff (text : CString) :
    versionCompatible text = true ↔ ∃ patch, 7 ≤ patch ∧ VersionText text 0 1 patch := by
  unfold versionCompatible
  constructor
  · intro h
    cases hscan : scanVersion text with
    | none =>
      rw [hscan] at h
      cases h
    | some v =>
      obtain ⟨major, minor, patch⟩ := v
      rw [hscan] at h
      obtain ⟨rfl, rfl, hpatch⟩ : major = 0 ∧ minor = 1 ∧ 7 ≤ patch := by simpa [and_assoc] using h
      exact ⟨patch, hpatch, scanVersion_iff.mp hscan⟩
  · intro h
    obtain ⟨patch, hpatch, htext⟩ := h
    rw [scanVersion_iff.mpr htext]
    simpa using hpatch

end RyzenAdj
