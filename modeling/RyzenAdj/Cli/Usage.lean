import RyzenAdj.Cli.Main

/-!
# The help text (`argparse.c`, `argparse_usage`)

Two loops over the options: the first finds the width of the widest label, the
second prints the labels with the help beside them.
-/

namespace RyzenAdj
open Libc

structure UsageOption (β υ κ : Type) where
  option : ArgparseOption β υ κ
  help : CString

/-- The other texts of `struct argparse`; `none` is NULL. -/
structure UsageTexts where
  usages : List CString
  description : Option CString
  epilog : Option CString

section Usage
variable {β υ κ : Type}

/-- What stands for the value in a label. -/
def OptionType.valueText : OptionType β υ κ → CString
  | .group => []
  | .boolean _ => []
  | .u32 _ => "=<u32>".toList
  | .co32 _ => "=<int>".toList

def OptionType.isGroup : OptionType β υ κ → Bool
  | .group => true
  | _ => false

/-- `len` in the first loop, before it is rounded up. -/
def ArgparseOption.labelLen (o : ArgparseOption β υ κ) : Nat :=
  (if o.shortName.isSome then 2 else 0) +
    (if o.shortName.isSome && o.longName.isSome then 2 else 0) +
    (o.longName.elim 0 fun longName => longName.length + 2) + o.type.valueText.length

def roundUp4 (len : Nat) : Nat := (len + 3) - ((len + 3) &&& 3)

def UsageOption.width (u : UsageOption β υ κ) : Nat := roundUp4 u.option.labelLen

def usageOptsWidth (options : List (UsageOption β υ κ)) : Nat :=
  options.foldl (fun width u => if width < u.width then u.width else width) 0 + 4

def ArgparseOption.label (o : ArgparseOption β υ κ) : CString :=
  (o.shortName.elim [] fun shortName => ['-', shortName]) ++
    (if o.longName.isSome && o.shortName.isSome then ", ".toList else []) ++
    (o.longName.elim [] fun longName => "--".toList ++ longName) ++ o.type.valueText

def spaces (n : Nat) : CString := List.replicate n ' '

def usageLine (width : Nat) (u : UsageOption β υ κ) : CString :=
  if u.option.type.isGroup then ['\n'] ++ u.help ++ ['\n']
  else
    let start := spaces 4 ++ u.option.label
    let pos := start.length
    if pos ≤ width then start ++ spaces (width - pos + 2) ++ u.help ++ ['\n']
    else start ++ ['\n'] ++ spaces (width + 2) ++ u.help ++ ['\n']

def usageHead : List CString → CString
  | [] => "Usage:\n".toList
  | usage :: rest =>
    "Usage: ".toList ++ usage ++ ['\n'] ++
      (rest.takeWhile (· ≠ [])).flatMap fun usage => "   or: ".toList ++ usage ++ ['\n']

def argparseUsage (texts : UsageTexts) (options : List (UsageOption β υ κ)) : CString :=
  usageHead texts.usages ++ (texts.description.elim [] (· ++ ['\n'])) ++ ['\n'] ++
    options.flatMap (usageLine (usageOptsWidth options)) ++ texts.epilog.elim [] (· ++ ['\n'])

theorem roundUp4_spec (len : Nat) :
    4 ∣ roundUp4 len ∧ len ≤ roundUp4 len ∧ roundUp4 len < len + 4 := by
  have hmod : (len + 3) &&& 3 = (len + 3) % 4 := Nat.and_two_pow_sub_one_eq_mod (len + 3) 2
  unfold roundUp4
  rw [hmod]
  omega

theorem UsageOption.width_spec (u : UsageOption β υ κ) :
    4 ∣ u.width ∧ u.option.labelLen ≤ u.width ∧ u.width < u.option.labelLen + 4 :=
  roundUp4_spec u.option.labelLen

/-- The two loops agree on the length of a label. -/
theorem label_length (o : ArgparseOption β υ κ) : o.label.length = o.labelLen := by
  unfold ArgparseOption.label ArgparseOption.labelLen
  cases o.shortName <;> cases o.longName <;> simp <;> omega

/-- The widest so far, from any width on. -/
theorem widest_spec (options : List (UsageOption β υ κ)) (width : Nat) :
    let widest := options.foldl (fun width u => if width < u.width then u.width else width) width
    width ≤ widest ∧ (∀ u ∈ options, u.width ≤ widest) ∧
      (widest = width ∨ ∃ u ∈ options, widest = u.width) := by
  induction options generalizing width with
  | nil => exact ⟨Nat.le_refl _, List.forall_mem_nil _, .inl rfl⟩
  | cons u options ih =>
    simp only [List.foldl_cons, List.forall_mem_cons]
    split
    · rename_i hwider
      obtain ⟨hle, hall, hone⟩ := ih u.width
      refine ⟨by omega, ⟨hle, hall⟩, .inr ?_⟩
      rcases hone with hone | ⟨v, hv, hone⟩
      · exact ⟨u, List.mem_cons_self .., hone⟩
      · exact ⟨v, List.mem_cons_of_mem _ hv, hone⟩
    · rename_i hnot
      obtain ⟨hle, hall, hone⟩ := ih width
      refine ⟨hle, ⟨by omega, hall⟩, ?_⟩
      rcases hone with hone | ⟨v, hv, hone⟩
      · exact .inl hone
      · exact .inr ⟨v, List.mem_cons_of_mem _ hv, hone⟩

theorem usageOptsWidth_spec (options : List (UsageOption β υ κ)) :
    4 ∣ usageOptsWidth options ∧ (∀ u ∈ options, 4 + u.option.labelLen ≤ usageOptsWidth options) ∧
      (options ≠ [] → ∃ u ∈ options, usageOptsWidth options < 8 + u.option.labelLen) := by
  obtain ⟨-, hall, hone⟩ := widest_spec options 0
  unfold usageOptsWidth
  refine ⟨?_, fun u hu => ?_, fun hsome => ?_⟩
  · rcases hone with hone | ⟨u, -, hone⟩
    · omega
    · have hround := u.width_spec
      omega
  · have hle := hall u hu
    have hround := u.width_spec
    omega
  · rcases hone with hone | ⟨u, hu, hone⟩
    · obtain ⟨u, hu⟩ := List.exists_mem_of_ne_nil options hsome
      exact ⟨u, hu, by omega⟩
    · have hround := u.width_spec
      exact ⟨u, hu, by omega⟩

/-- The label and the help of an option are on one line, with the help in this column. -/
def HelpAt (column : Nat) (u : UsageOption β υ κ) (line : CString) : Prop :=
  ∃ n, 2 ≤ n ∧ (spaces 4 ++ u.option.label ++ spaces n).length = column ∧
    line = spaces 4 ++ u.option.label ++ spaces n ++ u.help ++ ['\n']

/-- A label that fits is followed by its help: the line is never broken. -/
theorem usageLine_aligned {width : Nat} {u : UsageOption β υ κ}
    (hfits : 4 + u.option.labelLen ≤ width) (hoption : u.option.type.isGroup = false) :
    HelpAt (width + 2) u (usageLine width u) := by
  have hpos : (spaces 4 ++ u.option.label).length = 4 + u.option.labelLen := by
    rw [List.length_append, label_length, spaces, List.length_replicate]
  refine ⟨width - (4 + u.option.labelLen) + 2, by omega, ?_, ?_⟩
  · rw [List.length_append, hpos, spaces, List.length_replicate]
    omega
  · unfold usageLine
    rw [hoption]
    simp only [Bool.false_eq_true, if_false, hpos, hfits, if_true]

/-- Whatever the options and the texts: the help of every option is on the line of its label, all in
one column, two to the right of a multiple of 4, with two spaces or more before it; and the column
is no further to the right than some label asks for. -/
theorem usage_aligned (texts : UsageTexts) (options : List (UsageOption β υ κ)) :
    ∃ head column lines tail,
      argparseUsage texts options = head ++ lines.flatten ++ tail ∧ column % 4 = 2 ∧
      List.Forall₂ (fun u line => if u.option.type.isGroup then line = ['\n'] ++ u.help ++ ['\n']
        else HelpAt column u line) options lines ∧
      (options ≠ [] → ∃ u ∈ options, column < (spaces 4 ++ u.option.label).length + 6) := by
  obtain ⟨hfour, hfits, htight⟩ := usageOptsWidth_spec options
  refine ⟨_, usageOptsWidth options + 2, options.map (usageLine (usageOptsWidth options)), _,
    rfl, by omega, ?_, fun hsome => ?_⟩
  · rw [List.forall₂_map_right_iff]
    apply List.forall₂_same.mpr
    intro u hu
    cases hgroup : u.option.type.isGroup with
    | true => simp only [if_true, usageLine, hgroup]
    | false =>
      simp only [Bool.false_eq_true, if_false]
      exact usageLine_aligned (hfits u hu) hgroup
  · obtain ⟨u, hu, hlt⟩ := htight hsome
    refine ⟨u, hu, ?_⟩
    rw [List.length_append, label_length, spaces, List.length_replicate]
    omega

end Usage
end RyzenAdj
