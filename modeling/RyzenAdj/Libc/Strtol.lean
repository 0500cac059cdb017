import Mathlib.Data.List.Forall2
import Mathlib.Data.List.TakeWhile
import Mathlib.Data.Nat.Digits.Defs

/-!
# Integer conversion (`strtoul` and `strtoll` with base 0)

The two conversions of the C library in the "C" locale, with the end pointer
and the range error they report, and the integer literals they are meant for:
an optional sign and a decimal, octal or hexadecimal constant after any white
space. A string that is such a literal as a whole is converted to the end.
-/

namespace Libc

/-- The bytes of a C string, without the NUL that ends it. -/
abbrev CString := List Char

/-- Space, and the five controls from tab to carriage return. -/
def isspace (c : Char) : Bool := c.toNat = 32 || (9 ≤ c.toNat && c.toNat ≤ 13)

def digitValue (c : Char) : Option Nat :=
  if '0' ≤ c ∧ c ≤ '9' then some (c.toNat - '0'.toNat)
  else if 'a' ≤ c ∧ c ≤ 'z' then some (c.toNat - 'a'.toNat + 10)
  else if 'A' ≤ c ∧ c ≤ 'Z' then some (c.toNat - 'A'.toNat + 10)
  else none

def digit (base : Nat) (c : Char) : Option Nat := (digitValue c).filter (· < base)

/-- The longest run of digits, and what follows it. -/
def digits (base : Nat) : CString → List Nat × CString
  | [] => ([], [])
  | c :: s =>
    match digit base c with
    | some d => (d :: (digits base s).1, (digits base s).2)
    | none => ([], c :: s)

def readDigits (base : Nat) (s : CString) : Nat × CString :=
  (Nat.ofDigits base (digits base s).1.reverse, (digits base s).2)

/-- `0x` counts as a prefix only in front of a hexadecimal digit; otherwise the
literal is the zero and ends before the `x`. -/
def hexPrefix : CString → Bool
  | x :: d :: _ => (x = 'x' || x = 'X') && (digit 16 d).isSome
  | _ => false

def magnitude : CString → Option (Nat × CString)
  | [] => none
  | c :: s =>
    if c = '0' then some (if hexPrefix s then readDigits 16 s.tail else readDigits 8 s)
    else if (digit 10 c).isSome then some (readDigits 10 (c :: s))
    else none

/-- The subject sequence: whether it has a minus sign, its magnitude, and what follows it. -/
def subject (s : CString) : Option (Bool × Nat × CString) :=
  match s.dropWhile isspace with
  | [] => none
  | c :: t =>
    if c = '-' ∨ c = '+' then (magnitude t).map fun (n, rest) => (c = '-', n, rest)
    else (magnitude (c :: t)).map fun (n, rest) => (false, n, rest)

/-- What a conversion returns, whether it sets `errno`, and its end pointer. -/
structure Conversion (α : Type) where
  value : α
  erange : Bool
  endptr : CString
  deriving DecidableEq

/-- `strtoul(s, &endptr, 0)` for an `unsigned long` of `bits` bits. -/
def strtoul (bits : Nat) (s : CString) : Conversion Nat :=
  match subject s with
  | none => ⟨0, false, s⟩
  | some (negative, n, rest) =>
    if 2 ^ bits ≤ n then ⟨2 ^ bits - 1, true, rest⟩
    else ⟨if negative then (2 ^ bits - n) % 2 ^ bits else n, false, rest⟩

def signed (negative : Bool) (n : Nat) : Int := if negative then -n else n

def strtoll (s : CString) : Conversion Int :=
  match subject s with
  | none => ⟨0, false, s⟩
  | some (negative, n, rest) =>
    if signed negative n < -2 ^ 63 then ⟨-2 ^ 63, true, rest⟩
    else if 2 ^ 63 ≤ signed negative n then ⟨2 ^ 63 - 1, true, rest⟩
    else ⟨signed negative n, false, rest⟩

/-! ### Literals -/

/-- `s` is the number `n` written in base `base`. -/
def Spells (base : Nat) (s : CString) (n : Nat) : Prop :=
  ∃ ds, List.Forall₂ (fun c d => digit base c = some d) s ds ∧ n = Nat.ofDigits base ds.reverse

/-- The integer constants, without a suffix. -/
inductive Literal : CString → Nat → Prop where
  | decimal {c : Char} {s : CString} {n : Nat} : c ≠ '0' → Spells 10 (c :: s) n → Literal (c :: s) n
  | octal {s : CString} {n : Nat} : Spells 8 s n → Literal ('0' :: s) n
  | hexadecimal {x : Char} {s : CString} {n : Nat} : x = 'x' ∨ x = 'X' → s ≠ [] → Spells 16 s n →
      Literal ('0' :: x :: s) n

/-- `s` is the integer `v`: white space, a sign or none, and a literal. -/
inductive Numeral : CString → Int → Prop where
  | unsigned {s : CString} {n : Nat} : Literal s n → Numeral s n
  | plus {s : CString} {n : Nat} : Literal s n → Numeral ('+' :: s) n
  | minus {s : CString} {n : Nat} : Literal s n → Numeral ('-' :: s) (-n)
  | space {c : Char} {s : CString} {v : Int} : isspace c → Numeral s v → Numeral (c :: s) v

/-- `s` is the natural number `n` without a sign, behind white space or none. -/
def UnsignedNumeral (s : CString) (n : Nat) : Prop :=
  ∃ spaces literal, s = spaces ++ literal ∧ (∀ c ∈ spaces, isspace c = true) ∧ Literal literal n

theorem digit_some {base : Nat} {c : Char} {d : Nat} (h : digit base c = some d) :
    digitValue c = some d ∧ d < base := by
  unfold digit at h
  rw [Option.filter_eq_some_iff] at h
  exact ⟨h.1, by simpa using h.2⟩

theorem digitValue_some {c : Char} {d : Nat} (h : digitValue c = some d) :
    48 ≤ c.toNat ∧ (c.toNat ≤ 57 ∨ 65 ≤ c.toNat) := by
  unfold digitValue at h
  simp only [Char.le_def, UInt32.le_iff_toNat_le] at h
  have h0 : '0'.val.toNat = 48 := rfl
  have h9 : '9'.val.toNat = 57 := rfl
  have ha : 'a'.val.toNat = 97 := rfl
  have hA : 'A'.val.toNat = 65 := rfl
  have hc : c.toNat = c.val.toNat := rfl
  rw [h0, h9, ha, hA] at h
  rw [hc]
  split at h
  · omega
  · split at h
    · omega
    · split at h
      · omega
      · cases h

theorem digits_of_forall₂ {base : Nat} {s : CString} {ds : List Nat}
    (h : List.Forall₂ (fun c d => digit base c = some d) s ds) : digits base s = (ds, []) := by
  induction h with
  | nil => rfl
  | cons hc _ ih => simp only [digits, hc, ih]

theorem readDigits_of_spells {base : Nat} {s : CString} {n : Nat} (h : Spells base s n) :
    readDigits base s = (n, []) := by
  obtain ⟨ds, hds, rfl⟩ := h
  simp only [readDigits, digits_of_forall₂ hds]

theorem head_of_spells {base : Nat} {c : Char} {s : CString} {n : Nat}
    (h : Spells base (c :: s) n) : ∃ d, digit base c = some d := by
  obtain ⟨ds, hds, -⟩ := h
  cases hds with
  | cons hc _ => exact ⟨_, hc⟩

theorem hexPrefix_of_octal {s : CString} {n : Nat} (h : Spells 8 s n) : hexPrefix s = false := by
  match s, h with
  | [], _ => rfl
  | [_], _ => rfl
  | x :: d :: s, h =>
    obtain ⟨v, hv⟩ := head_of_spells h
    have hx : ∀ y, y = 'x' ∨ y = 'X' → digit 8 y = none := by
      rintro y (rfl | rfl) <;> decide
    have hne : ¬(x = 'x' ∨ x = 'X') := fun hxx => by simp [hx x hxx] at hv
    simp only [not_or] at hne
    simp [hexPrefix, hne.1, hne.2]

theorem magnitude_of_literal {s : CString} {n : Nat} (h : Literal s n) :
    magnitude s = some (n, []) := by
  cases h with
  | decimal hc hs =>
    obtain ⟨d, hd⟩ := head_of_spells hs
    simp only [magnitude, if_neg hc, hd, Option.isSome_some, if_true, readDigits_of_spells hs]
  | octal hs =>
    simp only [magnitude, if_true, hexPrefix_of_octal hs, Bool.false_eq_true, if_false,
      readDigits_of_spells hs]
  | @hexadecimal x s n hx hs hn =>
    match s, hs, hn with
    | c :: s, _, hn =>
      obtain ⟨d, hd⟩ := head_of_spells hn
      have hp : hexPrefix (x :: c :: s) = true := by
        rcases hx with rfl | rfl <;> simp [hexPrefix, hd]
      simp only [magnitude, if_true, hp, List.tail_cons, readDigits_of_spells hn]

theorem Literal.head {s : CString} {n : Nat} (h : Literal s n) :
    ∃ c t d, s = c :: t ∧ digit 10 c = some d := by
  cases h with
  | @decimal c t n hc hs =>
    obtain ⟨d, hd⟩ := head_of_spells hs
    exact ⟨c, t, d, rfl, hd⟩
  | octal hs => exact ⟨'0', _, 0, rfl, by decide⟩
  | hexadecimal hx hs hn => exact ⟨'0', _, 0, rfl, by decide⟩

theorem digit_plain {base : Nat} {c : Char} {d : Nat} (h : digit base c = some d) :
    isspace c = false ∧ c ≠ '-' ∧ c ≠ '+' := by
  have hd := digitValue_some (digit_some h).1
  refine ⟨?_, ?_, ?_⟩
  · simp only [isspace, Bool.or_eq_false_iff, Bool.and_eq_false_iff, decide_eq_false_iff_not]
    omega
  · rintro rfl
    revert hd
    decide
  · rintro rfl
    revert hd
    decide

theorem Numeral.scan {s : CString} {v : Int} (h : Numeral s v) :
    ∃ n t, Literal t n ∧
      ((s.dropWhile isspace = t ∧ v = n) ∨ (s.dropWhile isspace = '+' :: t ∧ v = n) ∨
        (s.dropWhile isspace = '-' :: t ∧ v = -n)) := by
  induction h with
  | @unsigned s n hl =>
    obtain ⟨c, t, d, rfl, hd⟩ := hl.head
    refine ⟨n, c :: t, hl, .inl ⟨?_, rfl⟩⟩
    rw [List.dropWhile_cons, (digit_plain hd).1]
    rfl
  | @plus s n hl => exact ⟨n, s, hl, .inr (.inl ⟨by rw [List.dropWhile_cons]; rfl, rfl⟩)⟩
  | @minus s n hl => exact ⟨n, s, hl, .inr (.inr ⟨by rw [List.dropWhile_cons]; rfl, rfl⟩)⟩
  | @space c s v hc _ ih =>
    obtain ⟨n, t, hl, h⟩ := ih
    rw [List.dropWhile_cons, if_pos hc]
    exact ⟨n, t, hl, h⟩

theorem subject_of_numeral {s : CString} {v : Int} (h : Numeral s v) :
    ∃ negative n, subject s = some (negative, n, []) ∧ v = signed negative n := by
  obtain ⟨n, t, hl, ⟨hs, rfl⟩ | ⟨hs, rfl⟩ | ⟨hs, rfl⟩⟩ := h.scan
  · obtain ⟨c, t, d, rfl, hd⟩ := hl.head
    have hm := magnitude_of_literal hl
    have hc : ¬(c = '-' ∨ c = '+') := by simpa using (digit_plain hd).2
    refine ⟨false, n, ?_, rfl⟩
    simp only [subject, hs, if_neg hc, hm, Option.map_some]
  · refine ⟨false, n, ?_, rfl⟩
    simp [subject, hs, magnitude_of_literal hl]
  · refine ⟨true, n, ?_, rfl⟩
    simp [subject, hs, magnitude_of_literal hl]

theorem subject_sign {s rest : CString} {negative : Bool} {n : Nat}
    (h : subject s = some (negative, n, rest)) :
    (s.dropWhile isspace).head? = some '-' ↔ negative = true := by
  unfold subject at h
  split at h
  · cases h
  · rename_i c t hs
    rw [hs]
    split at h
    · obtain ⟨r, hm, heq⟩ := Option.map_eq_some_iff.mp h
      cases heq
      simp
    · rename_i hc
      obtain ⟨r, hm, heq⟩ := Option.map_eq_some_iff.mp h
      cases heq
      simp only [not_or] at hc
      simp [hc.1]

/-- A number is no option: it begins with neither a dash nor a dash and a letter. -/
theorem Numeral.first {s : CString} {v : Int} (h : Numeral s v) :
    ∃ c t, s = c :: t ∧ (c = '-' → ∃ d u x, t = d :: u ∧ digit 10 d = some x) := by
  cases h with
  | unsigned hl =>
    obtain ⟨c, t, d, rfl, hd⟩ := hl.head
    exact ⟨c, t, rfl, fun hc => absurd hc (digit_plain hd).2.1⟩
  | plus hl => exact ⟨'+', _, rfl, fun hc => absurd hc (by decide)⟩
  | minus hl =>
    obtain ⟨c, t, d, rfl, hd⟩ := hl.head
    exact ⟨'-', _, rfl, fun _ => ⟨c, t, d, rfl, hd⟩⟩
  | space hc _ =>
    refine ⟨_, _, rfl, ?_⟩
    rintro rfl
    exact absurd hc (by decide)

/-- Without a range error an unsigned literal is converted to its value. -/
theorem strtoul_value {bits n : Nat} {s rest : CString} (hs : subject s = some (false, n, rest))
    (hr : (strtoul bits s).erange = false) : (strtoul bits s).value = n := by
  unfold strtoul at hr ⊢
  rw [hs] at hr ⊢
  by_cases h : 2 ^ bits ≤ n
  · simp [if_pos h] at hr
  · simp [if_neg h]

theorem strtoll_value {negative : Bool} {n : Nat} {s rest : CString}
    (hs : subject s = some (negative, n, rest)) (hr : (strtoll s).erange = false) :
    (strtoll s).value = signed negative n := by
  simp only [strtoll, hs] at hr ⊢
  split at hr
  · cases hr
  · rename_i hlow
    split at hr
    · cases hr
    · rename_i hhigh
      rw [if_neg hlow, if_neg hhigh]

/-! ### What is converted to the end is a literal -/

theorem forall₂_of_digits {base : Nat} {s : CString} {ds : List Nat}
    (h : digits base s = (ds, [])) : List.Forall₂ (fun c d => digit base c = some d) s ds := by
  induction s generalizing ds with
  | nil =>
    cases h
    exact .nil
  | cons c s ih =>
    unfold digits at h
    split at h
    · rename_i d hd
      obtain ⟨rfl, hrest⟩ := Prod.mk.inj h
      exact .cons hd (ih (Prod.ext rfl hrest))
    · cases h

theorem spells_of_readDigits {base n : Nat} {s : CString} (h : readDigits base s = (n, [])) :
    Spells base s n := by
  obtain ⟨rfl, hrest⟩ := Prod.mk.inj h
  exact ⟨(digits base s).1, forall₂_of_digits (Prod.ext rfl hrest), rfl⟩

theorem literal_of_magnitude {s : CString} {n : Nat} (h : magnitude s = some (n, [])) :
    Literal s n := by
  cases s with
  | nil => cases h
  | cons c s =>
    simp only [magnitude] at h
    split at h
    · rename_i hc
      subst hc
      rw [Option.some.injEq] at h
      split at h
      · rename_i hhex
        match s, hhex with
        | x :: d :: t, hhex =>
          have hx : x = 'x' ∨ x = 'X' := by
            simp only [hexPrefix, Bool.and_eq_true, Bool.or_eq_true, decide_eq_true_eq] at hhex
            exact hhex.1
          exact .hexadecimal hx (List.cons_ne_nil _ _) (spells_of_readDigits h)
      · exact .octal (spells_of_readDigits h)
    · rename_i hc
      split at h
      · exact .decimal hc (spells_of_readDigits (Option.some.inj h))
      · cases h

theorem numeral_of_dropWhile {s : CString} {v : Int} (h : Numeral (s.dropWhile isspace) v) :
    Numeral s v := by
  induction s with
  | nil => exact h
  | cons c s ih =>
    rw [List.dropWhile_cons] at h
    split at h
    · rename_i hc
      exact .space hc (ih h)
    · exact h

theorem numeral_of_subject {s : CString} {negative : Bool} {n : Nat}
    (h : subject s = some (negative, n, [])) : Numeral s (signed negative n) := by
  apply numeral_of_dropWhile
  unfold subject at h
  split at h
  · cases h
  · rename_i c t hs
    rw [hs]
    split at h
    · rename_i hc
      obtain ⟨⟨m, rest⟩, hm, heq⟩ := Option.map_eq_some_iff.mp h
      cases heq
      rcases hc with rfl | rfl
      · exact .minus (literal_of_magnitude hm)
      · exact .plus (literal_of_magnitude hm)
    · obtain ⟨⟨m, rest⟩, hm, heq⟩ := Option.map_eq_some_iff.mp h
      cases heq
      exact .unsigned (literal_of_magnitude hm)

theorem subject_of_strtoul {bits : Nat} {s : CString} (hend : (strtoul bits s).endptr = [])
    (hne : (strtoul bits s).endptr ≠ s) : ∃ negative n, subject s = some (negative, n, []) := by
  cases hs : subject s with
  | none => simp [strtoul, hs] at hne
  | some r =>
    obtain ⟨negative, n, rest⟩ := r
    simp only [strtoul, hs] at hend
    split at hend
    · cases hend
      exact ⟨negative, n, rfl⟩
    · cases hend
      exact ⟨negative, n, rfl⟩

/-- Where `strtoul` has taken the whole of a text without a minus, its value is the number. -/
theorem unsigned_of_strtoul {bits : Nat} {s : CString}
    (hplain : (s.dropWhile isspace).head? ≠ some '-')
    (hend : ¬((strtoul bits s).endptr = s ∨ (strtoul bits s).endptr ≠ []))
    (hrange : ¬(strtoul bits s).erange = true) :
    ∃ n, subject s = some (false, n, []) ∧ (strtoul bits s).value = n := by
  obtain ⟨hmoved, hwhole⟩ := not_or.mp hend
  obtain ⟨negative, n, hs⟩ := subject_of_strtoul (not_not.mp hwhole) hmoved
  have hpos : negative = false := by
    cases negative with
    | false => rfl
    | true => exact absurd ((subject_sign hs).mpr rfl) hplain
  subst hpos
  exact ⟨n, hs, strtoul_value hs (Bool.eq_false_iff.mpr hrange)⟩

theorem subject_of_strtoll {s : CString} (hend : (strtoll s).endptr = [])
    (hne : (strtoll s).endptr ≠ s) : ∃ negative n, subject s = some (negative, n, []) := by
  cases hs : subject s with
  | none => simp [strtoll, hs] at hne
  | some r =>
    obtain ⟨negative, n, rest⟩ := r
    simp only [strtoll, hs] at hend
    split at hend
    · cases hend
      exact ⟨negative, n, rfl⟩
    · split at hend
      · cases hend
        exact ⟨negative, n, rfl⟩
      · cases hend
        exact ⟨negative, n, rfl⟩

theorem dropWhile_of_unsigned {spaces literal : CString} {n : Nat}
    (hspaces : ∀ c ∈ spaces, isspace c = true) (h : Literal literal n) :
    (spaces ++ literal).dropWhile isspace = literal := by
  obtain ⟨c, t, d, rfl, hd⟩ := h.head
  rw [List.dropWhile_append_of_pos hspaces, List.dropWhile_cons, (digit_plain hd).1]
  rfl

theorem unsignedNumeral_iff {s : CString} {n : Nat} :
    UnsignedNumeral s n ↔ subject s = some (false, n, []) ∧
      (s.dropWhile isspace).head? ≠ some '-' ∧ (s.dropWhile isspace).head? ≠ some '+' := by
  constructor
  · rintro ⟨spaces, literal, rfl, hspaces, hl⟩
    have hdrop := dropWhile_of_unsigned hspaces hl
    have hm := magnitude_of_literal hl
    obtain ⟨c, t, d, rfl, hd⟩ := hl.head
    have hplain := (digit_plain hd).2
    have hc : ¬(c = '-' ∨ c = '+') := by simpa using hplain
    refine ⟨?_, ?_⟩
    · simp only [subject, hdrop, if_neg hc, hm, Option.map_some]
    · rw [hdrop]
      simpa using hplain
  · rintro ⟨hs, hminus, hplus⟩
    refine ⟨s.takeWhile isspace, s.dropWhile isspace, List.takeWhile_append_dropWhile.symm, ?_, ?_⟩
    · intro c hc
      exact List.mem_takeWhile_imp hc
    · unfold subject at hs
      split at hs
      · cases hs
      · rename_i c t hdrop
        rw [hdrop] at hminus hplus ⊢
        have hc : ¬(c = '-' ∨ c = '+') := by simpa using And.intro hminus hplus
        rw [if_neg hc] at hs
        obtain ⟨⟨m, rest⟩, hm, heq⟩ := Option.map_eq_some_iff.mp hs
        cases heq
        exact literal_of_magnitude hm

theorem strtoul_in_range {bits n : Nat} {s : CString} (hs : subject s = some (false, n, []))
    (hn : n < 2 ^ bits) : strtoul bits s = ⟨n, false, []⟩ := by
  simp only [strtoul, hs, if_neg (Nat.not_le.mpr hn), Bool.false_eq_true, if_false]

theorem strtoll_in_range {negative : Bool} {n : Nat} {s : CString}
    (hs : subject s = some (negative, n, [])) (hlow : -2 ^ 63 ≤ signed negative n)
    (hhigh : signed negative n < 2 ^ 63) : strtoll s = ⟨signed negative n, false, []⟩ := by
  simp only [strtoll, hs, if_neg (Int.not_lt.mpr hlow), if_neg (Int.not_le.mpr hhigh)]

end Libc
