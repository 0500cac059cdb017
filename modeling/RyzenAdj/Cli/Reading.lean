import RyzenAdj.Cli.Argparse

/-!
# What a command line says

`Reads` is the grammar of a command line, independent of the parser: each word
is one long option or a group of short ones, a boolean option has no use for a
text attached to it, and the value of any other option is the text attached to
it or, if there is none, the next word. Where a command line can be read and
the parser accepts it, the parser has stored what it says
(`argparseParse_reads`).
-/

namespace RyzenAdj
open Libc

section Grammar
variable {β υ κ : Type}

/-- One option of a command line: a boolean one or its `no-` form, or one with its value. -/
inductive Occurrence (β υ κ : Type) where
  | flag (b : β) (on : Bool)
  | u32 (a : υ) (value : Int)
  | co32 (a : κ) (value : Int)

/-- The text is a value for an option of this type. -/
inductive Takes : OptionType β υ κ → CString → Occurrence β υ κ → Prop where
  | u32 {a : υ} {text : CString} {v : Int} : Numeral text v → Takes (.u32 a) text (.u32 a v)
  | co32 {a : κ} {text : CString} {v : Int} : Numeral text v → Takes (.co32 a) text (.co32 a v)

variable (options : List (ArgparseOption β υ κ))

def shortOption (c : Char) : Option (ArgparseOption β υ κ) :=
  options.find? fun o => o.shortName = some c

/-- The option of that long name, or the one whose `no-` form it is. -/
def longOption (key : CString) : Option (ArgparseOption β υ κ × Bool) :=
  options.findSome? fun o =>
    if o.longName = some key then some (o, false)
    else if o.negatable = true ∧ o.longName.map (noPrefix ++ ·) = some key then some (o, true)
    else none

/-- The letters after a single dash and the words after it: the options in them, and the
words left. -/
inductive ReadsShort :
    CString → List CString → List (Occurrence β υ κ) → List CString → Prop where
  | last {c : Char} {o : ArgparseOption β υ κ} {b : β} {rest : List CString} :
      shortOption options c = some o → o.type = .boolean (some b) →
      ReadsShort [c] rest [.flag b true] rest
  | more {c : Char} {o : ArgparseOption β υ κ} {b : β} {letters : CString}
      {rest rest' : List CString} {occs : List (Occurrence β υ κ)} :
      shortOption options c = some o → o.type = .boolean (some b) → letters ≠ [] →
      ReadsShort letters rest occs rest' →
      ReadsShort (c :: letters) rest (.flag b true :: occs) rest'
  | attached {c : Char} {o : ArgparseOption β υ κ} {text : CString} {occ : Occurrence β υ κ}
      {rest : List CString} :
      shortOption options c = some o → text ≠ [] → Takes o.type text occ →
      ReadsShort (c :: text) rest [occ] rest
  | next {c : Char} {o : ArgparseOption β υ κ} {text : CString} {occ : Occurrence β υ κ}
      {rest : List CString} :
      shortOption options c = some o → Takes o.type text occ →
      ReadsShort [c] (text :: rest) [occ] rest

/-- The words say these options, in this order. -/
inductive Reads : List CString → List (Occurrence β υ κ) → Prop where
  | done : Reads [] []
  | finish {rest : List CString} : Reads (['-', '-'] :: rest) []
  | short {c : Char} {letters : CString} {rest rest' : List CString}
      {occs occs' : List (Occurrence β υ κ)} :
      c ≠ '-' → ReadsShort options (c :: letters) rest occs rest' → Reads rest' occs' →
      Reads (('-' :: c :: letters) :: rest) (occs ++ occs')
  | flag {key tail : CString} {o : ArgparseOption β υ κ} {unset : Bool} {b : β}
      {rest : List CString} {occs : List (Occurrence β υ κ)} :
      key ≠ [] → '=' ∉ key → tail = [] ∨ tail.head? = some '=' →
      longOption options key = some (o, unset) → o.type = .boolean (some b) → Reads rest occs →
      Reads (('-' :: '-' :: (key ++ tail)) :: rest) (.flag b (!unset) :: occs)
  | attached {key text : CString} {o : ArgparseOption β υ κ} {unset : Bool}
      {occ : Occurrence β υ κ} {rest : List CString} {occs : List (Occurrence β υ κ)} :
      key ≠ [] → '=' ∉ key → longOption options key = some (o, unset) → Takes o.type text occ →
      Reads rest occs → Reads (('-' :: '-' :: (key ++ '=' :: text)) :: rest) (occ :: occs)
  | next {key text : CString} {o : ArgparseOption β υ κ} {unset : Bool}
      {occ : Occurrence β υ κ} {rest : List CString} {occs : List (Occurrence β υ κ)} :
      key ≠ [] → '=' ∉ key → longOption options key = some (o, unset) → Takes o.type text occ →
      Reads rest occs → Reads (('-' :: '-' :: key) :: text :: rest) (occ :: occs)

/-- What the grammar needs of an option table: a name ends where the `=` begins, no option
is named like the start of its own `no-` form, and a negative number is no short option. -/
structure Unambiguous : Prop where
  longName : ∀ o ∈ options, ∀ name ∈ o.longName, '=' ∉ name ∧ ¬name <+: noPrefix ++ name
  shortName : ∀ o ∈ options, ∀ c ∈ o.shortName, digit 10 c = none

end Grammar

section Names
variable {β υ κ : Type} {options : List (ArgparseOption β υ κ)}

theorem prefix_key {pre key tail : CString} (hpre : '=' ∉ pre)
    (htail : tail = [] ∨ tail.head? = some '=') : pre <+: key ++ tail ↔ pre <+: key := by
  constructor
  · intro h
    rcases List.prefix_or_prefix_of_prefix h (List.prefix_append key tail) with h' | ⟨u, rfl⟩
    · exact h'
    · have hu : u <+: tail := (List.prefix_append_right_inj key).mp h
      cases u with
      | nil => simp
      | cons c u =>
        obtain ⟨t, rfl⟩ := hu
        rcases htail with h | h
        · cases h
        · cases h
          exact absurd (by simp) hpre
  · intro h
    exact h.trans (List.prefix_append key tail)

theorem prefixSkip_key {pre key tail : CString} (hpre : '=' ∉ pre)
    (htail : tail = [] ∨ tail.head? = some '=') :
    prefixSkip (key ++ tail) pre = (prefixSkip key pre).map (· ++ tail) := by
  unfold prefixSkip
  simp only [List.isPrefixOf_iff_prefix, prefix_key hpre htail]
  by_cases h : pre <+: key
  · have hlen := h.length_le
    simp only [if_pos h, Option.map_some, List.drop_append_of_le_length hlen]
  · simp only [if_neg h, Option.map_none]

theorem prefixSkip_append (pre rest : CString) : prefixSkip (pre ++ rest) pre = some rest := by
  simp [prefixSkip]

theorem prefixSkip_some {str pre rest : CString} (h : prefixSkip str pre = some rest) :
    str = pre ++ rest := by
  unfold prefixSkip at h
  split at h
  · rename_i hp
    obtain ⟨t, rfl⟩ := List.isPrefixOf_iff_prefix.mp hp
    simpa using h
  · cases h

/-- A name is followed by the end of the word or a `=` only where all of the key is the name. -/
theorem rest_ends {rest key tail : CString} (hkey : '=' ∉ key) (hrest : rest <:+ key)
    (htail : tail = [] ∨ tail.head? = some '=') :
    (rest ++ tail = [] ∨ (rest ++ tail).head? = some '=') ↔ rest = [] := by
  cases rest with
  | nil => simpa using htail
  | cons c rest =>
    have hc : c ≠ '=' := by
      rintro rfl
      exact hkey (hrest.subset (by simp))
    simp [hc]

theorem skip_name {name key tail : CString} (unset : Bool) (hname : '=' ∉ name)
    (hkey : '=' ∉ key) (htail : tail = [] ∨ tail.head? = some '=') :
    ((prefixSkip (key ++ tail) name).bind fun rest =>
      if rest = [] ∨ rest.head? = some '=' then some (unset, rest) else none) =
      if name = key then some (unset, tail) else none := by
  rw [prefixSkip_key hname htail]
  cases hskip : prefixSkip key name with
  | none =>
    have hne : name ≠ key := by
      rintro rfl
      have h := prefixSkip_append name []
      rw [List.append_nil, hskip] at h
      cases h
    simp [if_neg hne]
  | some rest =>
    have hsplit := prefixSkip_some hskip
    have hends := rest_ends hkey ⟨name, hsplit.symm⟩ htail
    simp only [Option.map_some, Option.bind_some, hends]
    by_cases hrest : rest = []
    · subst hrest
      simp [hsplit]
    · have hne : name ≠ key := by
        rintro rfl
        exact hrest (by simpa using hsplit)
      rw [if_neg hrest, if_neg hne]

theorem matchLong_key {o : ArgparseOption β υ κ} {key tail : CString}
    (hname : ∀ name ∈ o.longName, '=' ∉ name ∧ ¬name <+: noPrefix ++ name) (hkey : '=' ∉ key)
    (htail : tail = [] ∨ tail.head? = some '=') :
    o.matchLong (key ++ tail) =
      if o.longName = some key then some (false, tail)
      else if o.negatable = true ∧ o.longName.map (noPrefix ++ ·) = some key then some (true, tail)
      else none := by
  cases hlong : o.longName with
  | none => simp [ArgparseOption.matchLong, hlong]
  | some name =>
    obtain ⟨hplain, hproper⟩ := hname name hlong
    have hskip := skip_name false hplain hkey htail
    have hno : '=' ∉ noPrefix := by decide
    simp only [ArgparseOption.matchLong, hlong, Option.bind_eq_bind, Option.bind_some,
      Option.some.injEq, Option.map_some]
    cases hfirst : prefixSkip (key ++ tail) name with
    | some rest =>
      rw [hfirst] at hskip
      have hnoname : noPrefix ++ name ≠ key := by
        rintro rfl
        have hpre := prefixSkip_some hfirst
        exact hproper ((prefix_key hplain htail).mp ⟨rest, hpre.symm⟩)
      by_cases hk : name = key
      · subst hk
        simp only [Option.bind_some, if_true] at hskip ⊢
        split at hskip
        · rename_i hends
          cases hskip
          rw [if_pos hends]
        · cases hskip
      · simp only [Option.bind_some, if_neg hk] at hskip ⊢
        split at hskip
        · cases hskip
        · rename_i hends
          simp [if_neg hends, hnoname]
    | none =>
      have hk : name ≠ key := by
        rintro rfl
        rw [prefixSkip_append] at hfirst
        cases hfirst
      rw [if_neg hk]
      cases hneg : o.negatable with
      | false => simp
      | true =>
        by_cases hpre : noPrefix <+: key
        · obtain ⟨stem, rfl⟩ := hpre
          have hstem : '=' ∉ stem := fun h => hkey (List.mem_append_right _ h)
          have hdrop : (noPrefix ++ stem ++ tail).drop 3 = stem ++ tail := rfl
          have hpre' : noPrefix.isPrefixOf (noPrefix ++ stem ++ tail) = true := by
            rw [List.isPrefixOf_iff_prefix, List.append_assoc]
            exact List.prefix_append _ _
          simp only [hpre', hdrop, Bool.and_self, if_true, true_and, List.append_cancel_left_eq]
          rw [Option.bind_map]
          exact skip_name true hplain hstem htail
        · have hpre' : noPrefix.isPrefixOf (key ++ tail) = false := by
            rw [Bool.eq_false_iff, ne_eq, List.isPrefixOf_iff_prefix, prefix_key hno htail]
            exact hpre
          have hne : noPrefix ++ name ≠ key := by
            rintro rfl
            exact hpre (List.prefix_append _ _)
          simp [hpre', hne]

theorem findSome_matchLong {key tail : CString} (hun : Unambiguous options) (hkey : '=' ∉ key)
    (htail : tail = [] ∨ tail.head? = some '=') :
    (options.findSome? fun o => (o.matchLong (key ++ tail)).map fun m => (o, m)) =
      (longOption options key).map fun m => (m.1, m.2, tail) := by
  have hmatch := fun o ho => matchLong_key (hun.longName o ho) hkey htail
  clear hun
  unfold longOption
  induction options with
  | nil => rfl
  | cons o options ih =>
    have ih := ih fun x hx => hmatch x (List.mem_cons_of_mem o hx)
    simp only [List.findSome?_cons, hmatch o List.mem_cons_self]
    by_cases hname : o.longName = some key
    · simp only [if_pos hname, Option.map_some]
    · by_cases hno : o.negatable = true ∧ o.longName.map (noPrefix ++ ·) = some key
      · simp only [if_neg hname, if_pos hno, Option.map_some]
      · simp only [if_neg hname, if_neg hno, Option.map_none]
        exact ih

theorem ReadsShort.suffix {letters : CString} {rest rest' : List CString}
    {occs : List (Occurrence β υ κ)} (h : ReadsShort options letters rest occs rest') :
    rest' <:+ rest := by
  induction h with
  | last => exact List.suffix_rfl
  | more _ _ _ _ ih => exact ih
  | attached => exact List.suffix_rfl
  | next => exact List.suffix_cons _ _

theorem Takes.numeral {type : OptionType β υ κ} {text : CString} {occ : Occurrence β υ κ}
    (h : Takes type text occ) : ∃ v, Numeral text v := by
  cases h with
  | u32 hn => exact ⟨_, hn⟩
  | co32 hn => exact ⟨_, hn⟩

end Names

section Parser
variable {β υ κ : Type} [DecidableEq β] [DecidableEq υ] [DecidableEq κ]
variable {long : LongWidth} {options : List (ArgparseOption β υ κ)}

/-- What a value must be for the variable it is stored into. -/
def Occurrence.Fits : Occurrence β υ κ → Prop
  | .flag _ _ => True
  | .u32 _ v => 0 ≤ v ∧ v < 2 ^ 32
  | .co32 _ v => -2 ^ 32 < v

def Vars.store (vars : Vars β υ κ) : Occurrence β υ κ → Vars β υ κ
  | .flag b on => vars.count b !on
  | .u32 a v => vars.setU32 a (BitVec.ofInt 32 v)
  | .co32 a v => vars.setCo32 a v

theorem storeValue_flag {o : ArgparseOption β υ κ} {b : β} {unset isLong : Bool}
    {self self' : Argparse β υ κ} (ho : o.type = .boolean (some b))
    (h : storeValue long o unset isLong self = .ok self') :
    self' = { self with vars := self.vars.count b unset } := by
  simp only [storeValue, ho, Except.ok.injEq] at h
  exact h.symm

theorem storeValue_takes {o : ArgparseOption β υ κ} {unset isLong : Bool} {raw : CString}
    {occ : Occurrence β υ κ} {self self₁ self' : Argparse β υ κ}
    (htakes : Takes o.type raw occ) (hraw : takeRaw o isLong self = .ok (raw, self₁))
    (h : storeValue long o unset isLong self = .ok self') :
    self' = { self₁ with vars := self₁.vars.store occ } ∧ occ.Fits := by
  unfold storeValue at h
  generalize o.type = type at htakes h
  cases htakes with
  | @u32 a text v hn =>
    simp only [hraw, bind, Except.bind] at h
    cases hw : u32Value long raw with
    | error reason =>
      rw [hw] at h
      cases h
    | ok w =>
      have hvalue := u32Value_of_numeral long hn hw
      have hw' : BitVec.ofInt 32 v = w := by
        rw [← hvalue]
        simp
      have hlt := w.isLt
      rw [hw] at h
      cases h
      refine ⟨?_, ?_, ?_⟩
      · simp only [Vars.store, hw']
      · omega
      · omega
  | @co32 a text v hn =>
    simp only [hraw, bind, Except.bind] at h
    cases hx : co32Value long raw with
    | error reason =>
      rw [hx] at h
      cases h
    | ok x =>
      obtain ⟨rfl, hlow⟩ := co32Value_of_numeral long hn hx
      rw [hx] at h
      cases h
      exact ⟨rfl, hlow⟩

theorem storeValue_stale {o : ArgparseOption β υ κ} {unset isLong : Bool} {text stale : CString}
    {occ : Occurrence β υ κ} {argv : List CString} {vars : Vars β υ κ} {self' : Argparse β υ κ}
    (htakes : Takes o.type text occ)
    (h : storeValue long o unset isLong ⟨argv, some stale, vars⟩ = .ok self') :
    self'.argv = argv := by
  unfold storeValue at h
  generalize o.type = type at htakes h
  cases htakes with
  | @u32 a text v hn =>
    simp only [takeRaw, bind, Except.bind] at h
    split at h
    · cases h
    · cases h
      rfl
  | @co32 a text v hn =>
    simp only [takeRaw, bind, Except.bind] at h
    split at h
    · cases h
    · cases h
      rfl

theorem shortOpts_none {n : Nat} {argv : List CString} {vars : Vars β υ κ} :
    shortOpts long options n ⟨argv, none, vars⟩ = .ok ⟨argv, none, vars⟩ := by
  cases n <;> rfl

theorem shortOpts_letter {n : Nat} {c : Char} {letters : CString} {argv : List CString}
    {vars : Vars β υ κ} {o : ArgparseOption β υ κ} {self' : Argparse β υ κ}
    (hc : shortOption options c = some o)
    (h : shortOpts long options (n + 1) ⟨argv, some (c :: letters), vars⟩ = .ok self') :
    ∃ self₁, storeValue long o false false
        ⟨argv, if letters = [] then none else some letters, vars⟩ = .ok self₁ ∧
      o.callback = none ∧ shortOpts long options n self₁ = .ok self' := by
  unfold shortOption at hc
  obtain ⟨self₁, hfirst, hrest⟩ := except_bind_ok h
  simp only [argparseShortOpt, hc] at hfirst
  obtain ⟨hstore, hcb⟩ := argparseGetvalue_ok hfirst
  exact ⟨self₁, hstore, hcb, hrest⟩

/-- A group of short options that can be read leaves the parser where the reading ends. -/
theorem shortOpts_reads {letters : CString} {rest rest' : List CString}
    {occs : List (Occurrence β υ κ)} (h : ReadsShort options letters rest occs rest') :
    ∀ {n : Nat} {arg : CString} {vars : Vars β υ κ} {self' : Argparse β υ κ}, letters.length ≤ n →
      shortOpts long options n ⟨arg :: rest, some letters, vars⟩ = .ok self' →
      (∃ arg', self' = ⟨arg' :: rest', none, occs.foldl Vars.store vars⟩) ∧
        ∀ occ ∈ occs, occ.Fits := by
  induction h with
  | @last c o b rest hc ho =>
    intro n arg vars self' hn h
    obtain ⟨n, rfl⟩ := Nat.exists_eq_succ_of_ne_zero (Nat.ne_zero_of_lt hn)
    obtain ⟨self₁, hstore, -, hrest⟩ := shortOpts_letter hc h
    cases storeValue_flag ho hstore
    rw [if_pos rfl, shortOpts_none] at hrest
    cases hrest
    exact ⟨⟨arg, rfl⟩, by simp [Occurrence.Fits]⟩
  | @more c o b letters rest rest' occs hc ho hne _ ih =>
    intro n arg vars self' hn h
    obtain ⟨n, rfl⟩ := Nat.exists_eq_succ_of_ne_zero (Nat.ne_zero_of_lt hn)
    obtain ⟨self₁, hstore, -, hrest⟩ := shortOpts_letter hc h
    cases storeValue_flag ho hstore
    rw [if_neg hne] at hrest
    obtain ⟨hself, hfits⟩ := ih (Nat.le_of_succ_le_succ hn) hrest
    refine ⟨hself, ?_⟩
    rw [List.forall_mem_cons]
    exact ⟨trivial, hfits⟩
  | @attached c o text occ rest hc hne ht =>
    intro n arg vars self' hn h
    obtain ⟨n, rfl⟩ := Nat.exists_eq_succ_of_ne_zero (Nat.ne_zero_of_lt hn)
    obtain ⟨self₁, hstore, -, hrest⟩ := shortOpts_letter hc h
    rw [if_neg hne] at hstore
    obtain ⟨rfl, hfits⟩ := storeValue_takes ht rfl hstore
    rw [shortOpts_none] at hrest
    cases hrest
    exact ⟨⟨arg, rfl⟩, by simpa using hfits⟩
  | @next c o text occ rest hc ht =>
    intro n arg vars self' hn h
    obtain ⟨n, rfl⟩ := Nat.exists_eq_succ_of_ne_zero (Nat.ne_zero_of_lt hn)
    obtain ⟨self₁, hstore, -, hrest⟩ := shortOpts_letter hc h
    rw [if_pos rfl] at hstore
    obtain ⟨rfl, hfits⟩ := storeValue_takes ht rfl hstore
    rw [shortOpts_none] at hrest
    cases hrest
    exact ⟨⟨text, rfl⟩, by simpa using hfits⟩

theorem parseArg_numeral {raw : CString} (hun : Unambiguous options)
    (hn : ∃ v, Numeral raw v) (self : Argparse β υ κ) :
    ∃ stop, parseArg long options raw self = .error stop := by
  obtain ⟨v, hn⟩ := hn
  obtain ⟨c, t, rfl, hdash⟩ := hn.first
  unfold parseArg
  split
  · rename_i d rest heq
    cases heq
    obtain ⟨d', u, x, hd, hdigit⟩ := hdash rfl
    cases hd
    have hnone : options.find? (fun o => o.shortName = some d) = none := by
      rw [List.find?_eq_none]
      intro o ho hshort
      have h := hun.shortName o ho d (by simpa using hshort)
      rw [hdigit] at h
      cases h
    rw [if_pos (digit_plain hdigit).2.1]
    simp only [shortOpts, argparseShortOpt, hnone]
    exact ⟨_, rfl⟩
  · exact ⟨_, rfl⟩

theorem parseLoop_cons {n : Nat} {arg : CString} {rest : List CString} {p : Option CString}
    {vars : Vars β υ κ} {self' : Argparse β υ κ}
    (h : parseLoop long options (n + 1) ⟨arg :: rest, p, vars⟩ = .ok self') :
    ∃ r, parseArg long options arg ⟨arg :: rest, p, vars⟩ = .ok r ∧
      ((∃ s, r = .inl s ∧ parseLoop long options n s = .ok self') ∨ r = .inr self') := by
  obtain ⟨r, hr, hcont⟩ := except_bind_ok h
  refine ⟨r, hr, ?_⟩
  cases r with
  | inl s => exact .inl ⟨s, rfl, hcont⟩
  | inr s =>
    cases hcont
    exact .inr rfl

theorem parseArg_short {c : Char} {letters : CString} {self : Argparse β υ κ}
    {r : Argparse β υ κ ⊕ Argparse β υ κ} (hc : c ≠ '-')
    (h : parseArg long options ('-' :: c :: letters) self = .ok r) :
    ∃ self₁, shortOpts long options (letters.length + 1)
        { self with optvalue := some (c :: letters) } = .ok self₁ ∧
      r = .inl { self₁ with argv := self₁.argv.tail } := by
  simp only [parseArg, ne_eq, hc, not_false_eq_true, if_true] at h
  obtain ⟨self₁, hopts, hr⟩ := except_bind_ok h
  cases hr
  exact ⟨self₁, hopts, rfl⟩

/-- A long option: the parser comes to `storeValue` with the option the table has for the key. -/
theorem parseArg_long {key tail : CString} {o : ArgparseOption β υ κ} {unset : Bool}
    {self : Argparse β υ κ} {r : Argparse β υ κ ⊕ Argparse β υ κ} (hun : Unambiguous options)
    (hne : key ≠ []) (hkey : '=' ∉ key) (htail : tail = [] ∨ tail.head? = some '=')
    (ho : longOption options key = some (o, unset))
    (h : parseArg long options ('-' :: '-' :: (key ++ tail)) self = .ok r) :
    ∃ self₁, storeValue long o unset true
        { self with optvalue := if tail = [] then self.optvalue else some tail.tail } = .ok self₁ ∧
      o.callback = none ∧ r = .inl { self₁ with argv := self₁.argv.tail } := by
  have hword : key ++ tail ≠ [] := by simp [hne]
  simp only [parseArg, ne_eq, not_true_eq_false, if_false, hword] at h
  obtain ⟨self₁, hopt, hr⟩ := except_bind_ok h
  cases hr
  simp only [argparseLongOpt, findSome_matchLong hun hkey htail, ho, Option.map_some] at hopt
  obtain ⟨hstore, hcb⟩ := argparseGetvalue_ok hopt
  exact ⟨self₁, hstore, hcb, rfl⟩

/-- Where the loop goes on and comes to its end, the next word is no number. -/
theorem head_not_numeral (hun : Unambiguous options) {n : Nat} {raw : CString}
    {self self' : Argparse β υ κ} (hn : self.argv.length ≤ n)
    (h : parseLoop long options n self = .ok self') (hraw : self.argv.head? = some raw) :
    ¬∃ v, Numeral raw v := by
  intro hnumeral
  obtain ⟨argv, p, vars⟩ := self
  cases argv with
  | nil => cases hraw
  | cons arg rest =>
    cases hraw
    obtain ⟨n, rfl⟩ := Nat.exists_eq_succ_of_ne_zero (Nat.ne_zero_of_lt hn)
    obtain ⟨r, hr, -⟩ := parseLoop_cons h
    obtain ⟨stop, hstop⟩ := parseArg_numeral hun hnumeral ⟨raw :: rest, p, vars⟩
    rw [hr] at hstop
    cases hstop

/-- Where the words can be read and the parser accepts them, it has stored what they say,
whatever text was left over from the word before. -/
theorem parseLoop_reads {args : List CString} {occs : List (Occurrence β υ κ)}
    (hun : Unambiguous options) (h : Reads options args occs) :
    ∀ {n : Nat} {p : Option CString} {vars : Vars β υ κ} {self' : Argparse β υ κ},
      args.length ≤ n → parseLoop long options n ⟨args, p, vars⟩ = .ok self' →
      self'.vars = occs.foldl Vars.store vars ∧ ∀ occ ∈ occs, occ.Fits := by
  induction h with
  | done =>
    intro n p vars self' hn h
    have hself : self' = ⟨[], p, vars⟩ := by
      cases n <;> cases h <;> rfl
    rw [hself]
    exact ⟨rfl, by simp⟩
  | @finish rest =>
    intro n p vars self' hn h
    obtain ⟨n, rfl⟩ := Nat.exists_eq_succ_of_ne_zero (Nat.ne_zero_of_lt hn)
    cases h
    exact ⟨rfl, by simp⟩
  | @short c letters rest rest' occs occs' hc hshort hrest ih =>
    intro n p vars self' hn h
    obtain ⟨n, rfl⟩ := Nat.exists_eq_succ_of_ne_zero (Nat.ne_zero_of_lt hn)
    obtain ⟨r, hr, hnext⟩ := parseLoop_cons h
    obtain ⟨self₁, hopts, rfl⟩ := parseArg_short hc hr
    obtain ⟨⟨arg', rfl⟩, hfits⟩ := shortOpts_reads hshort le_rfl hopts
    obtain ⟨s, hs, hloop⟩ | hs := hnext
    · cases hs
      have hle := hshort.suffix.length_le
      simp only [List.length_cons] at hn
      obtain ⟨hvars, hfits'⟩ := ih (by omega) hloop
      rw [List.foldl_append]
      refine ⟨hvars, ?_⟩
      rw [List.forall_mem_append]
      exact ⟨hfits, hfits'⟩
    · cases hs
  | @flag key tail o unset b rest occs hne hkey htail ho hb _ ih =>
    intro n p vars self' hn h
    obtain ⟨n, rfl⟩ := Nat.exists_eq_succ_of_ne_zero (Nat.ne_zero_of_lt hn)
    obtain ⟨r, hr, hnext⟩ := parseLoop_cons h
    obtain ⟨self₁, hstore, -, rfl⟩ := parseArg_long hun hne hkey htail ho hr
    cases storeValue_flag hb hstore
    obtain ⟨s, hs, hloop⟩ | hs := hnext
    · cases hs
      obtain ⟨hvars, hfits⟩ := ih (Nat.le_of_succ_le_succ hn) hloop
      rw [List.foldl_cons, List.forall_mem_cons]
      refine ⟨?_, trivial, hfits⟩
      rw [hvars, Vars.store, Bool.not_not]
    · cases hs
  | @attached key text o unset occ rest occs hne hkey ho ht _ ih =>
    intro n p vars self' hn h
    obtain ⟨n, rfl⟩ := Nat.exists_eq_succ_of_ne_zero (Nat.ne_zero_of_lt hn)
    obtain ⟨r, hr, hnext⟩ := parseLoop_cons h
    obtain ⟨self₁, hstore, -, rfl⟩ := parseArg_long hun hne hkey (.inr rfl) ho hr
    rw [if_neg (List.cons_ne_nil _ _)] at hstore
    obtain ⟨rfl, hfit⟩ := storeValue_takes ht rfl hstore
    obtain ⟨s, hs, hloop⟩ | hs := hnext
    · cases hs
      obtain ⟨hvars, hfits⟩ := ih (Nat.le_of_succ_le_succ hn) hloop
      rw [List.foldl_cons, List.forall_mem_cons]
      exact ⟨hvars, hfit, hfits⟩
    · cases hs
  | @next key text o unset occ rest occs hne hkey ho ht hrest ih =>
    intro n p vars self' hn h
    obtain ⟨n, rfl⟩ := Nat.exists_eq_succ_of_ne_zero (Nat.ne_zero_of_lt hn)
    obtain ⟨r, hr, hnext⟩ := parseLoop_cons h
    rw [← List.append_nil key] at hr
    obtain ⟨self₁, hstore, -, rfl⟩ := parseArg_long hun hne hkey (.inl rfl) ho hr
    rw [if_pos rfl] at hstore
    obtain ⟨s, hs, hloop⟩ | hs := hnext
    · cases hs
      cases p with
      | none =>
        obtain ⟨rfl, hfit⟩ := storeValue_takes ht rfl hstore
        have hn' : rest.length ≤ n := by
          simp only [List.length_cons] at hn
          omega
        obtain ⟨hvars, hfits⟩ := ih hn' hloop
        rw [List.foldl_cons, List.forall_mem_cons]
        exact ⟨hvars, hfit, hfits⟩
      | some stale =>
        -- the left-over text is the value, and the word meant as the value is no option
        have hargv : self₁.argv.tail = text :: rest :=
          congrArg List.tail (storeValue_stale ht hstore)
        have hn' : self₁.argv.tail.length ≤ n := by
          rw [hargv]
          exact Nat.le_of_succ_le_succ hn
        exact absurd ht.numeral (head_not_numeral hun hn' hloop (by rw [hargv]; rfl))
    · cases hs

theorem argparseParse_reads {args : List CString} {occs : List (Occurrence β υ κ)}
    {vars : Vars β υ κ} {self : Argparse β υ κ} (hun : Unambiguous options)
    (h : Reads options args occs) (hself : argparseParse long options args vars = .ok self) :
    self.vars = occs.foldl Vars.store vars ∧ ∀ occ ∈ occs, occ.Fits := by
  unfold argparseParse at hself
  split at hself
  · cases hself
  · exact parseLoop_reads hun h le_rfl hself

end Parser
end RyzenAdj
