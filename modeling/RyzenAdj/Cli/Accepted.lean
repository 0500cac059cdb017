import Mathlib.Data.List.TakeWhile
import RyzenAdj.Cli.Reading

/-!
# What the parser accepts

The words and options of a command line that the parser accepts: a word begins
with a dash, a long option has its entry in the table, and an option that is
stored is a boolean one or has taken a value.
-/

namespace RyzenAdj
open Libc

section Tables
variable {β υ κ : Type} {options : List (ArgparseOption β υ κ)}

def OptionType.hasVariable : OptionType β υ κ → Bool
  | .group | .boolean none => false
  | _ => true

variable (options) in
/-- An option with a name has a variable or a callback, and no long name is empty. -/
structure Named : Prop where
  stored : ∀ o ∈ options, o.longName ≠ none ∨ o.shortName ≠ none → o.callback = none →
    o.type.hasVariable = true
  longName : ∀ o ∈ options, o.longName ≠ some []

theorem shortOption_mem {c : Char} {o : ArgparseOption β υ κ}
    (h : shortOption options c = some o) : o ∈ options ∧ o.shortName = some c := by
  refine ⟨List.mem_of_find?_eq_some h, ?_⟩
  simpa using List.find?_some h

theorem longOption_mem {key : CString} {o : ArgparseOption β υ κ} {unset : Bool}
    (h : longOption options key = some (o, unset)) :
    o ∈ options ∧ (o.longName = some key ∨ o.longName.map (noPrefix ++ ·) = some key) := by
  obtain ⟨o', ho', h⟩ := List.exists_of_findSome?_eq_some h
  split at h
  · rename_i hname
    cases h
    exact ⟨ho', .inl hname⟩
  · split at h
    · rename_i hno
      cases h
      exact ⟨ho', .inr hno.2⟩
    · cases h

theorem hasVariable_of_longOption (hnamed : Named options) {key : CString}
    {o : ArgparseOption β υ κ} {unset : Bool} (h : longOption options key = some (o, unset))
    (hcb : o.callback = none) : o.type.hasVariable = true := by
  obtain ⟨hmem, hname⟩ := longOption_mem h
  refine hnamed.stored o hmem (.inl fun hnone => ?_) hcb
  simp [hnone] at hname

end Tables

section Parser
variable {β υ κ : Type} [DecidableEq β] [DecidableEq υ] [DecidableEq κ]
variable {long : LongWidth} {options : List (ArgparseOption β υ κ)}

theorem storeValue_ok {o : ArgparseOption β υ κ} {unset isLong : Bool}
    {self self' : Argparse β υ κ} (ho : o.type.hasVariable = true)
    (h : storeValue long o unset isLong self = .ok self') :
    (∃ b, o.type = .boolean (some b)) ∨
      ∃ raw self₁ occ, takeRaw o isLong self = .ok (raw, self₁) ∧ Takes o.type raw occ ∧
        self'.argv = self₁.argv ∧ self'.optvalue = self₁.optvalue := by
  unfold storeValue at h
  cases htype : o.type with
  | group =>
    rw [htype] at ho
    cases ho
  | boolean value =>
    cases value with
    | none =>
      rw [htype] at ho
      cases ho
    | some b => exact .inl ⟨b, rfl⟩
  | u32 a =>
    rw [htype] at h
    obtain ⟨⟨raw, self₁⟩, hraw, h⟩ := except_bind_ok h
    cases hw : u32Value long raw with
    | error reason =>
      simp only [hw] at h
      cases h
    | ok w =>
      simp only [hw] at h
      cases h
      obtain ⟨n, hs, -⟩ := u32Value_ok long hw
      exact .inr ⟨raw, self₁, _, hraw, .u32 (numeral_of_subject hs), rfl, rfl⟩
  | co32 a =>
    rw [htype] at h
    obtain ⟨⟨raw, self₁⟩, hraw, h⟩ := except_bind_ok h
    cases hx : co32Value long raw with
    | error reason =>
      simp only [hx] at h
      cases h
    | ok x =>
      simp only [hx] at h
      cases h
      obtain ⟨negative, n, hs, -⟩ := co32Value_ok long hx
      exact .inr ⟨raw, self₁, _, hraw, .co32 (numeral_of_subject hs), rfl, rfl⟩

theorem longOption_of_parseArg {key tail : CString} {self : Argparse β υ κ}
    {r : Argparse β υ κ ⊕ Argparse β υ κ} (hun : Unambiguous options) (hword : key ++ tail ≠ [])
    (hkey : '=' ∉ key) (htail : tail = [] ∨ tail.head? = some '=')
    (h : parseArg long options ('-' :: '-' :: (key ++ tail)) self = .ok r) :
    ∃ o unset, longOption options key = some (o, unset) := by
  cases hlong : longOption options key with
  | some m => exact ⟨m.1, m.2, rfl⟩
  | none =>
    simp only [parseArg, ne_eq, not_true_eq_false, if_false, hword] at h
    obtain ⟨self₁, hopt, -⟩ := except_bind_ok h
    simp only [argparseLongOpt, findSome_matchLong hun hkey htail, hlong, Option.map_none] at hopt
    cases hopt

theorem split_word (word : CString) : ∃ key tail, word = key ++ tail ∧ '=' ∉ key ∧
    (tail = [] ∨ tail.head? = some '=') := by
  refine ⟨word.takeWhile (· ≠ '='), word.dropWhile (· ≠ '='), ?_, ?_, ?_⟩
  · exact List.takeWhile_append_dropWhile.symm
  · intro h
    simpa using List.mem_takeWhile_imp h
  · cases htail : word.dropWhile (· ≠ '=') with
    | nil => exact .inl rfl
    | cons c tail =>
      have hc := List.head?_dropWhile_not (· ≠ '=') word
      rw [htail] at hc
      exact .inr (by simpa using hc)

theorem parseArg_dash {arg : CString} {self : Argparse β υ κ}
    {r : Argparse β υ κ ⊕ Argparse β υ κ} (h : parseArg long options arg self = .ok r) :
    ∃ c letters, arg = '-' :: c :: letters := by
  unfold parseArg at h
  split at h
  · rename_i c letters
    exact ⟨c, letters, rfl⟩
  · cases h

omit [DecidableEq β] [DecidableEq υ] [DecidableEq κ] in
theorem key_ne_nil (hnamed : Named options) {key : CString} {o : ArgparseOption β υ κ}
    {unset : Bool} (h : longOption options key = some (o, unset)) : key ≠ [] := by
  rintro rfl
  obtain ⟨hmem, hname | hname⟩ := longOption_mem h
  · exact hnamed.longName o hmem hname
  · obtain ⟨name, -, hno⟩ := Option.map_eq_some_iff.mp hname
    exact List.append_ne_nil_of_left_ne_nil (by decide) _ hno

end Parser
end RyzenAdj
