import RyzenAdj.Libc.Strtol

/-!
# Formatted input (`fscanf` with `%<width>d`)

The conversion of a decimal integer of bounded width and the match of a
character, and the fields that they take off the input: as much as belongs to
the number, at most the width, the rest being left where it is.
-/

namespace Libc

/-- At most `width` digits and at least one: their value, and what follows them. -/
def scanDigits (width : Nat) (s : CString) : Option (Nat × CString) :=
  let (ds, rest) := digits 10 (s.take width)
  if ds = [] then none else some (Nat.ofDigits 10 ds.reverse, rest ++ s.drop width)

/-- `%<width>d`: white space is skipped, a sign is part of the width. -/
def scanInt (width : Nat) (s : CString) : Option (Int × CString) :=
  match s.dropWhile isspace with
  | [] => none
  | c :: t =>
    if c = '-' ∨ c = '+' then
      (scanDigits (width - 1) t).map fun (n, rest) => (signed (c = '-') n, rest)
    else (scanDigits width (c :: t)).map fun (n, rest) => (n, rest)

def scanChar (c : Char) : CString → Option CString
  | [] => none
  | x :: s => if x = c then some s else none

/-- What follows a run of digits does not go on with one. -/
def NoDigit (rest : CString) : Prop := ∀ c t, rest = c :: t → digit 10 c = none

/-- `s` are digits of the number `n`, all that there are before `rest` or as many as may be. -/
structure DigitField (width : Nat) (s : CString) (n : Nat) (rest : CString) : Prop where
  nonempty : s ≠ []
  le_width : s.length ≤ width
  spells : Spells 10 s n
  longest : s.length = width ∨ NoDigit rest

/-- `s` is the integer `v` as a conversion takes it off `s ++ rest`. -/
inductive IntField (width : Nat) : CString → Int → CString → Prop where
  | unsigned {s rest : CString} {n : Nat} : DigitField width s n rest → IntField width s n rest
  | signed {c : Char} {s rest : CString} {n : Nat} : c = '-' ∨ c = '+' →
      DigitField (width - 1) s n rest → IntField width (c :: s) (signed (c = '-') n) rest
  | space {c : Char} {s rest : CString} {v : Int} : isspace c = true → IntField width s v rest →
      IntField width (c :: s) v rest

theorem digits_eq (base : Nat) (s : CString) : ∃ f, s = f ++ (digits base s).2 ∧
    List.Forall₂ (fun c d => digit base c = some d) f (digits base s).1 ∧
    ∀ c t, (digits base s).2 = c :: t → digit base c = none := by
  induction s with
  | nil => exact ⟨[], rfl, .nil, by simp [digits]⟩
  | cons c s ih =>
    obtain ⟨f, hs, hf, hend⟩ := ih
    cases hc : digit base c with
    | none =>
      have hdigits : digits base (c :: s) = ([], c :: s) := by simp only [digits, hc]
      rw [hdigits]
      refine ⟨[], rfl, .nil, ?_⟩
      intro x t hx
      rw [← (List.cons.inj hx).1]
      exact hc
    | some d =>
      have hdigits : digits base (c :: s) = (d :: (digits base s).1, (digits base s).2) := by
        simp only [digits, hc]
      rw [hdigits]
      exact ⟨c :: f, by rw [List.cons_append, ← hs], .cons hc hf, hend⟩

theorem digits_append {base : Nat} {f rest : CString} {ds : List Nat}
    (hf : List.Forall₂ (fun c d => digit base c = some d) f ds)
    (hend : ∀ c t, rest = c :: t → digit base c = none) : digits base (f ++ rest) = (ds, rest) := by
  induction hf with
  | nil =>
    cases rest with
    | nil => rfl
    | cons c t => simp only [List.nil_append, digits, hend c t rfl]
  | cons hc _ ih => simp only [List.cons_append, digits, hc, ih]

theorem scanDigits_field {width n : Nat} {s rest : CString}
    (h : scanDigits width s = some (n, rest)) :
    ∃ f, s = f ++ rest ∧ DigitField width f n rest := by
  obtain ⟨f, htake, hf, hend⟩ := digits_eq 10 (s.take width)
  unfold scanDigits at h
  simp only at h
  split at h
  · cases h
  · rename_i hds
    obtain ⟨hn, hrest⟩ := Prod.mk.inj (Option.some.inj h)
    have hs : s = f ++ rest := by
      rw [← hrest, ← List.append_assoc, ← htake, List.take_append_drop]
    have hlen := congrArg List.length htake
    rw [List.length_take, List.length_append] at hlen
    refine ⟨f, hs, ?_, by omega, ⟨_, hf, hn.symm⟩, ?_⟩
    · intro hnil
      rw [hnil, List.forall₂_nil_left_iff] at hf
      exact hds hf
    · cases hleft : (digits 10 (s.take width)).2 with
      | cons c t =>
        right
        intro x u hx
        rw [← hrest, hleft, List.cons_append] at hx
        rw [← (List.cons.inj hx).1]
        exact hend c t hleft
      | nil =>
        rw [hleft, List.length_nil] at hlen
        rw [hleft, List.nil_append] at hrest
        by_cases hshort : s.length < width
        · right
          intro x u hx
          rw [hx, List.drop_of_length_le (by omega)] at hrest
          cases hrest
        · left
          omega

theorem scanDigits_of_field {width n : Nat} {f rest : CString} (h : DigitField width f n rest) :
    scanDigits width (f ++ rest) = some (n, rest) := by
  obtain ⟨hne, hle, ⟨ds, hf, hn⟩, hlong⟩ := h
  have hds : ds ≠ [] := by
    intro hnil
    rw [hnil] at hf
    cases hf
    exact hne rfl
  have htake : (f ++ rest).take width = f ++ rest.take (width - f.length) := by
    rw [List.take_append, List.take_of_length_le hle]
  have hdrop : (f ++ rest).drop width = rest.drop (width - f.length) := by
    rw [List.drop_append, List.drop_of_length_le hle, List.nil_append]
  have hend : ∀ c t, rest.take (width - f.length) = c :: t → digit 10 c = none := by
    intro c t hc
    rcases hlong with hfull | hnone
    · rw [hfull, Nat.sub_self] at hc
      cases hc
    · cases rest with
      | nil => simp at hc
      | cons x u =>
        have hx := congrArg List.head? hc
        rw [List.head?_take] at hx
        split at hx
        · cases hx
        · rw [← Option.some.inj hx]
          exact hnone x u rfl
  simp only [scanDigits, htake, digits_append hf hend, hds, if_false, hdrop, List.take_append_drop,
    hn]

theorem DigitField.head {width n : Nat} {s rest : CString} (h : DigitField width s n rest) :
    ∃ c t d, s = c :: t ∧ digit 10 c = some d := by
  cases s with
  | nil => exact absurd rfl h.nonempty
  | cons c t =>
    obtain ⟨d, hd⟩ := head_of_spells h.spells
    exact ⟨c, t, d, rfl, hd⟩

theorem scanInt_of_field {width : Nat} {f rest : CString} {v : Int} (h : IntField width f v rest) :
    scanInt width (f ++ rest) = some (v, rest) := by
  induction h with
  | @unsigned s rest n hs =>
    obtain ⟨c, t, d, rfl, hd⟩ := hs.head
    obtain ⟨hspace, hminus, hplus⟩ := digit_plain hd
    have hsign : ¬(c = '-' ∨ c = '+') := not_or.mpr ⟨hminus, hplus⟩
    have hscan := scanDigits_of_field hs
    rw [List.cons_append] at hscan
    simp [scanInt, hspace, hsign, hscan]
  | @signed c s rest n hc hs =>
    have hspace : isspace c = false := by rcases hc with rfl | rfl <;> decide
    simp [scanInt, hspace, hc, scanDigits_of_field hs]
  | @space c s rest v hc _ ih =>
    simpa [scanInt, hc] using ih

theorem scanInt_field {width : Nat} {s rest : CString} {v : Int}
    (h : scanInt width s = some (v, rest)) : ∃ f, s = f ++ rest ∧ IntField width f v rest := by
  induction s with
  | nil => cases h
  | cons c s ih =>
    cases hspace : isspace c with
    | true =>
      have hs : scanInt width s = some (v, rest) := by simpa [scanInt, hspace] using h
      obtain ⟨f, hf, hfield⟩ := ih hs
      exact ⟨c :: f, by rw [hf, List.cons_append], .space hspace hfield⟩
    | false =>
      by_cases hc : c = '-' ∨ c = '+'
      · simp only [scanInt, List.dropWhile_cons, hspace, Bool.false_eq_true, if_false, hc,
          if_true] at h
        obtain ⟨r, hr, heq⟩ := Option.map_eq_some_iff.mp h
        obtain ⟨f, hf, hfield⟩ := scanDigits_field hr
        obtain ⟨rfl, rfl⟩ := Prod.mk.inj heq
        exact ⟨c :: f, by rw [hf, List.cons_append], .signed hc hfield⟩
      · simp only [scanInt, List.dropWhile_cons, hspace, Bool.false_eq_true, if_false, hc] at h
        obtain ⟨r, hr, heq⟩ := Option.map_eq_some_iff.mp h
        obtain ⟨f, hf, hfield⟩ := scanDigits_field hr
        obtain ⟨rfl, rfl⟩ := Prod.mk.inj heq
        exact ⟨f, hf, .unsigned hfield⟩

theorem scanInt_iff {width : Nat} {s rest : CString} {v : Int} :
    scanInt width s = some (v, rest) ↔ ∃ f, s = f ++ rest ∧ IntField width f v rest := by
  constructor
  · exact scanInt_field
  · intro h
    obtain ⟨f, rfl, hf⟩ := h
    exact scanInt_of_field hf

theorem scanChar_iff {c : Char} {s rest : CString} :
    scanChar c s = some rest ↔ s = c :: rest := by
  cases s with
  | nil => simp [scanChar]
  | cons x s => simp [scanChar]

end Libc
