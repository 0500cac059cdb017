import RyzenAdj.Cli.Accepted
import RyzenAdj.Cli.Main

/-!
# The values of options

Exactly which texts the `ARGPARSE_OPT_U32` and `ARGPARSE_OPT_CO32` cases of
`argparse_getvalue` accept, what they store, and which word `main` makes of a
Curve Optimiser offset.
-/

namespace RyzenAdj
open Libc

section Texts
variable {long : LongWidth} {raw : CString}

theorem two_pow_le_bits (long : LongWidth) : 2 ^ 32 ≤ 2 ^ long.bits := by
  cases long with
  | ilp32 => exact le_rfl
  | lp64 => exact Nat.pow_le_pow_right (by decide) (by decide)

theorem ne_nil_of_subject {negative : Bool} {n : Nat} {rest : CString}
    (h : subject raw = some (negative, n, rest)) : raw ≠ [] := by
  rintro rfl
  cases h

/-- A text is accepted for a 32-bit word exactly if it is an unsigned numeral in the range. -/
theorem u32Value_iff {w : Word} : u32Value long raw = .ok w ↔ UnsignedNumeral raw w.toNat := by
  constructor
  · intro h
    obtain ⟨n, hs, hn⟩ := u32Value_ok long h
    rw [unsignedNumeral_iff, hn]
    refine ⟨hs, ?_⟩
    simp only [u32Value] at h
    rw [if_neg (ne_nil_of_subject hs)] at h
    split at h
    · cases h
    · rename_i hplain
      simpa using hplain
  · intro h
    obtain ⟨hs, hminus, hplus⟩ := unsignedNumeral_iff.mp h
    have hlt := w.isLt
    have hne := ne_nil_of_subject hs
    have hplain : ¬((raw.dropWhile isspace).head? = some '-' ∨
        (raw.dropWhile isspace).head? = some '+') := by simpa using And.intro hminus hplus
    have hle : ¬2 ^ 32 - 1 < w.toNat := by omega
    have hconv := strtoul_in_range hs (hlt.trans_le (two_pow_le_bits long))
    have hend : ¬(([] : CString) = raw ∨ ([] : CString) ≠ []) := by simpa using hne
    simp only [u32Value, if_neg hne, if_neg hplain, hconv, if_neg hend, if_neg hle,
      Bool.false_eq_true, if_false, BitVec.ofNat_toNat, BitVec.setWidth_eq]

theorem u32Value_error (h : ∀ n, UnsignedNumeral raw n → 2 ^ 32 - 1 < n) :
    ∃ reason, u32Value long raw = .error reason := by
  cases hw : u32Value long raw with
  | error reason => exact ⟨reason, rfl⟩
  | ok w =>
    have hlt := w.isLt
    have := h _ (u32Value_iff.mp hw)
    omega

/-- A text is accepted for an offset exactly if it is a numeral between -2^32 and 2^32, both
excluded, and the offset is its value. -/
theorem co32Value_iff {v : Int} :
    co32Value long raw = .ok v ↔ Numeral raw v ∧ -2 ^ 32 < v ∧ v < 2 ^ 32 := by
  constructor
  · intro h
    obtain ⟨negative, n, hs, rfl, hrange⟩ := co32Value_ok long h
    exact ⟨numeral_of_subject hs, hrange⟩
  · rintro ⟨hn, hlow, hhigh⟩
    obtain ⟨negative, n, hs, rfl⟩ := subject_of_numeral hn
    have hne := ne_nil_of_subject hs
    have hend : ¬(([] : CString) = raw ∨ ([] : CString) ≠ []) := by simpa using hne
    cases negative with
    | true =>
      have hminus := (subject_sign hs).mpr rfl
      have hlimit : ¬signed true n ≤ -co32Limit := not_le.mpr hlow
      have hconv : strtoll raw = ⟨signed true n, false, []⟩ := by
        apply strtoll_in_range hs
        · omega
        · omega
      simp only [co32Value, if_neg hne, if_pos hminus, hconv, if_neg hend, if_neg hlimit,
        Bool.false_eq_true, if_false]
    | false =>
      have hplain : ¬(raw.dropWhile isspace).head? = some '-' := by
        rw [subject_sign hs]
        exact Bool.false_ne_true
      have hlt : n < 2 ^ 32 := by
        simp only [signed, Bool.false_eq_true, if_false] at hhigh
        omega
      have hle : ¬2 ^ 32 - 1 < n := by omega
      have hconv := strtoul_in_range hs (hlt.trans_le (two_pow_le_bits long))
      simp only [co32Value, if_neg hne, if_neg hplain, hconv, if_neg hend, if_neg hle,
        Bool.false_eq_true, if_false, signed]

end Texts

section Getvalue
variable {β υ κ : Type} [DecidableEq β] [DecidableEq υ] [DecidableEq κ] {long : LongWidth}
variable {o : ArgparseOption β υ κ} {unset isLong : Bool} {raw : CString}
variable {self self₁ : Argparse β υ κ}

theorem storeValue_u32 {a : υ} (htype : o.type = .u32 a)
    (hraw : takeRaw o isLong self = .ok (raw, self₁)) :
    storeValue long o unset isLong self =
      ((u32Value long raw).mapError (Stop.error o isLong)).map fun value =>
        { self₁ with vars := self₁.vars.setU32 a value } := by
  simp only [storeValue, htype, hraw, bind, Except.bind]
  cases u32Value long raw with
  | error reason => rfl
  | ok value => rfl

theorem storeValue_co32 {a : κ} (htype : o.type = .co32 a)
    (hraw : takeRaw o isLong self = .ok (raw, self₁)) :
    storeValue long o unset isLong self =
      ((co32Value long raw).mapError (Stop.error o isLong)).map fun value =>
        { self₁ with vars := self₁.vars.setCo32 a value } := by
  simp only [storeValue, htype, hraw, bind, Except.bind]
  cases co32Value long raw with
  | error reason => rfl
  | ok value => rfl

theorem argparseGetvalue_plain (hcallback : o.callback = none) :
    argparseGetvalue long o unset isLong self = storeValue long o unset isLong self := by
  unfold argparseGetvalue
  rw [hcallback]
  cases storeValue long o unset isLong self with
  | error stop => rfl
  | ok self' => rfl

/-- Whatever the width of `unsigned long`, a U32 option takes exactly the unsigned numerals up
to 2^32 - 1 and stores their value; any other text ends the program. -/
theorem u32_grammar (o : ArgparseOption β υ κ) (a : υ) (htype : o.type = .u32 a)
    (unset isLong : Bool) (raw : CString) (self self₁ : Argparse β υ κ)
    (hraw : takeRaw o isLong self = .ok (raw, self₁)) (long : LongWidth) :
    (∀ self', storeValue long o unset isLong self = .ok self' ↔
      ∃ n, UnsignedNumeral raw n ∧ n ≤ 2 ^ 32 - 1 ∧
        self' = { self₁ with vars := self₁.vars.setU32 a (BitVec.ofNat 32 n) }) ∧
    ((¬∃ n, UnsignedNumeral raw n ∧ n ≤ 2 ^ 32 - 1) →
      ∃ reason, storeValue long o unset isLong self = .error (.error o isLong reason)) ∧
    (o.callback = none →
      argparseGetvalue long o unset isLong self = storeValue long o unset isLong self) := by
  rw [storeValue_u32 htype hraw]
  refine ⟨fun self' => ⟨fun h => ?_, ?_⟩, fun h => ?_, fun hcallback => ?_⟩
  · cases hw : u32Value long raw with
    | error reason =>
      rw [hw] at h
      cases h
    | ok w =>
      rw [hw] at h
      cases h
      have hlt := w.isLt
      refine ⟨w.toNat, u32Value_iff.mp hw, by omega, ?_⟩
      rw [BitVec.ofNat_toNat, BitVec.setWidth_eq]
  · rintro ⟨n, hn, hle, rfl⟩
    have hnat : (BitVec.ofNat 32 n).toNat = n := by
      rw [BitVec.toNat_ofNat]
      omega
    have hw : u32Value long raw = .ok (BitVec.ofNat 32 n) := by
      rw [u32Value_iff, hnat]
      exact hn
    rw [hw]
    rfl
  · have habove : ∀ n, UnsignedNumeral raw n → 2 ^ 32 - 1 < n := by
      intro n hn
      by_contra hle
      exact h ⟨n, hn, not_lt.mp hle⟩
    obtain ⟨reason, hreason⟩ : ∃ reason, u32Value long raw = .error reason :=
      u32Value_error habove
    exact ⟨reason, by rw [hreason]; rfl⟩
  · rw [argparseGetvalue_plain hcallback, storeValue_u32 htype hraw]

theorem u32_grammar_octal :
    storeValue .ilp32 (optU32 (some 'a') "stapm-limit" .stapmLimit) false true
        ⟨["--stapm-limit".toList, " 010".toList], none, unsetVars⟩ =
      .ok ⟨[" 010".toList], none, unsetVars.setU32 .stapmLimit 8⟩ ∧
    ∃ reason, storeValue .lp64 (optU32 (some 'a') "stapm-limit" .stapmLimit) false true
        ⟨["--stapm-limit".toList, "+1".toList], none, unsetVars⟩ =
      .error (.error (optU32 (some 'a') "stapm-limit" .stapmLimit) true reason) := by
  constructor
  · refine ((u32_grammar _ .stapmLimit rfl false true " 010".toList _ ⟨_, none, unsetVars⟩ rfl
      .ilp32).1 _).mpr ⟨8, ⟨[' '], "010".toList, rfl, List.forall_mem_singleton.mpr rfl, ?_⟩,
        by decide, rfl⟩
    exact .octal ⟨[1, 0], by repeat constructor, by decide⟩
  · refine (u32_grammar _ .stapmLimit rfl false true "+1".toList _ ⟨_, none, unsetVars⟩ rfl
      .lp64).2.1 ?_
    rintro ⟨n, hn, -⟩
    exact (unsignedNumeral_iff.mp hn).2.2 (by decide)

end Getvalue

/-! ### The word of a Curve Optimiser offset -/

/-- The word is the integer, read as an unsigned or as a two's-complement number. -/
def Denotes (word : Word) (v : Int) : Prop := (word.toNat : Int) = v ∨ word.toInt = v

/-- An integer is kept by its low 32 bits exactly if one of the two readings has it. -/
theorem denotes_ofInt {v : Int} :
    Denotes (BitVec.ofInt 32 v) v ↔ -2 ^ 31 ≤ v ∧ v < 2 ^ 32 := by
  unfold Denotes
  rw [BitVec.toNat_ofInt, BitVec.toInt_ofInt, Int.bmod_def]
  constructor
  · rintro (h | h)
    · omega
    · split at h <;> omega
  · rintro ⟨hlow, hhigh⟩
    rcases Int.lt_or_le v 0 with hneg | hpos
    · right
      split <;> omega
    · left
      omega

/-- The offset stored is the value of the text, none that means "not given", and the line of
`main` for it sends a word that denotes it. -/
def OffsetKept (a : Curve) (raw : CString) (vars : CliVars) : Prop :=
  ∃ v word, Numeral raw v ∧ vars.co32 a = v ∧ v ≠ coUnset ∧
    (Setting.doAdjustCo a).call vars = some (.curve a word) ∧ Denotes word v

theorem offsetKept_setCo32 {a : Curve} {raw : CString} {vars : CliVars} {v : Int}
    (hn : Numeral raw v) (hlow : -2 ^ 32 < v) (hhigh : v < 2 ^ 32) :
    OffsetKept a raw (vars.setCo32 a v) ↔ -2 ^ 31 ≤ v := by
  have hstored : (vars.setCo32 a v).co32 a = v := by simp [Vars.setCo32]
  have hset : v ≠ coUnset := by
    simp only [coUnset]
    omega
  have hcall : (Setting.doAdjustCo a).call (vars.setCo32 a v) =
      some (.curve a (BitVec.ofInt 32 v)) := by
    simp only [Setting.call, hstored, if_pos hset]
  constructor
  · rintro ⟨v', word, -, rfl, -, hword, hdenotes⟩
    rw [hstored] at hdenotes
    rw [hcall] at hword
    cases hword
    exact (denotes_ofInt.mp hdenotes).1
  · intro hle
    exact ⟨v, BitVec.ofInt 32 v, hn, hstored, hset, hcall, denotes_ofInt.mpr ⟨hle, hhigh⟩⟩

/-- An accepted offset reaches the SMU as itself unless its text is a numeral between -2^32 and
-2^31, both excluded. -/
theorem offset_kept (o : CliOption) (a : Curve) (htype : o.type = .co32 a) (unset isLong : Bool)
    (raw : CString) (self self₁ : Argparse Flag Limit Curve)
    (hraw : takeRaw o isLong self = .ok (raw, self₁)) (long : LongWidth) :
    (∀ self', storeValue long o unset isLong self = .ok self' → OffsetKept a raw self'.vars) ↔
      ¬∃ v, Numeral raw v ∧ -2 ^ 32 < v ∧ v < -2 ^ 31 := by
  rw [storeValue_co32 htype hraw]
  constructor
  · rintro h ⟨v, hn, hlow, hhigh⟩
    have hv : co32Value long raw = .ok v := co32Value_iff.mpr ⟨hn, hlow, by omega⟩
    have hkept := h _ (by rw [hv]; rfl)
    have := (offsetKept_setCo32 hn hlow (by omega)).mp hkept
    omega
  · intro h self' hok
    cases hv : co32Value long raw with
    | error reason =>
      rw [hv] at hok
      cases hok
    | ok v =>
      rw [hv] at hok
      cases hok
      obtain ⟨hn, hlow, hhigh⟩ := co32Value_iff.mp hv
      refine (offsetKept_setCo32 hn hlow hhigh).mpr ?_
      by_contra hlt
      exact h ⟨v, hn, hlow, not_le.mp hlt⟩

theorem offset_kept_undervolt :
    OffsetKept .coall "-20".toList (unsetVars.setCo32 .coall (-20)) := by
  refine (offset_kept (optCo32 none "set-coall" .coall) .coall rfl false true "-20".toList
    ⟨["--set-coall=-20".toList], some "-20".toList, unsetVars⟩
    ⟨["--set-coall=-20".toList], none, unsetVars⟩ rfl .lp64).mpr ?_ _ rfl
  rintro ⟨v, hn, -, hhigh⟩
  obtain ⟨negative, n, hs, rfl⟩ := subject_of_numeral hn
  have hvalue : subject "-20".toList = some (true, 20, []) := by decide
  rw [hvalue] at hs
  cases hs
  exact absurd hhigh (by decide)

/-- An offset below every signed word is accepted and sent as 1. -/
theorem offset_loses_sign :
    argparseParse .lp64 options ["--set-coall=-4294967295".toList] unsetVars =
      .ok ⟨[], none, unsetVars.setCo32 .coall (-4294967295)⟩ ∧
    (Setting.doAdjustCo .coall).call (unsetVars.setCo32 .coall (-4294967295)) =
      some (.curve .coall 1) ∧
    ¬OffsetKept .coall "-4294967295".toList (unsetVars.setCo32 .coall (-4294967295)) := by
  have hvalue : Numeral "-4294967295".toList (-4294967295) :=
    .minus (.decimal (by decide)
      ⟨[4, 2, 9, 4, 9, 6, 7, 2, 9, 5], by repeat constructor, by decide⟩)
  refine ⟨rfl, by decide, fun h => ?_⟩
  have hlow := (offsetKept_setCo32 hvalue (by decide) (by decide)).mp h
  exact absurd hlow (by decide)

end RyzenAdj
