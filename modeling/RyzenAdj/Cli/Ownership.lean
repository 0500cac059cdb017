import RyzenAdj.Cli.Contract

/-!
# Whose value is it

Every call of `argparse_getvalue` in a run of the parser, with the text that is
attached to the option it is for, and the text the call reads. The text in
`optvalue` stays there past a boolean option, so that a later long option may
read it; `keepsTexts` is a scan of the words alone that tells when.
-/

namespace RyzenAdj
open Libc

section Calls
variable {β υ κ : Type}

def OptionType.takesValue : OptionType β υ κ → Bool
  | .u32 _ | .co32 _ => true
  | .group | .boolean _ => false

/-- A call of `argparse_getvalue`, and the text attached to the option in its word. -/
structure ValueCall (β υ κ : Type) where
  opt : ArgparseOption β υ κ
  unset : Bool
  isLong : Bool
  attached : Option CString
  self : Argparse β υ κ

namespace ValueCall
variable (call : ValueCall β υ κ)

def text : Option CString :=
  (takeRaw call.opt call.isLong call.self).toOption.map Prod.fst

/-- The text that belongs to the option: the one attached to it or, if there is none, the word
directly after it. -/
def ownText : Option CString := call.attached.or call.self.argv[1]?

def Own : Prop :=
  call.opt.type.takesValue = true → ∃ raw, call.text = some raw ∧ call.ownText = some raw

theorem own_of_optvalue {raw : CString} {self₁ : Argparse β υ κ}
    (hopt : call.self.optvalue = call.attached)
    (hraw : takeRaw call.opt call.isLong call.self = .ok (raw, self₁)) : call.Own := by
  intro _
  refine ⟨raw, by rw [text, hraw]; rfl, ?_⟩
  rw [ownText, ← hopt]
  obtain ⟨-, ⟨hsome, -⟩ | ⟨hnone, arg, rest, hargv, -⟩⟩ := takeRaw_ok hraw
  · rw [hsome, Option.some_or]
  · rw [hnone, hargv]
    rfl

theorem own_of_boolean {value : Option β} (htype : call.opt.type = .boolean value) :
    call.Own := by
  intro htakes
  rw [htype] at htakes
  cases htakes

end ValueCall

variable (options : List (ArgparseOption β υ κ))

def shortCall (self : Argparse β υ κ) : Option (ValueCall β υ κ) :=
  match self.optvalue with
  | some (c :: rest) =>
    (shortOption options c).map fun o =>
      { opt := o, unset := false, isLong := false,
        attached := if rest = [] then none else some rest,
        self := { self with optvalue := if rest = [] then none else some rest } }
  | _ => none

def longCall (word : CString) (self : Argparse β υ κ) : Option (ValueCall β υ κ) :=
  (options.findSome? fun o => (o.matchLong word).map fun m => (o, m)).map fun (o, unset, rest) =>
    { opt := o, unset, isLong := true,
      attached := if rest = [] then none else some rest.tail,
      self := { self with optvalue := if rest = [] then self.optvalue else some rest.tail } }

variable [DecidableEq β] [DecidableEq υ] [DecidableEq κ] (long : LongWidth)

def ValueCall.run (call : ValueCall β υ κ) : Except (Stop β υ κ) (Argparse β υ κ) :=
  argparseGetvalue long call.opt call.unset call.isLong call.self

def shortCalls : Nat → Argparse β υ κ → List (ValueCall β υ κ)
  | 0, _ => []
  | n + 1, self =>
    match shortCall options self with
    | none => []
    | some call =>
      call :: match call.run long with
        | .ok self => shortCalls n self
        | .error _ => []

def argCalls (arg : CString) (self : Argparse β υ κ) : List (ValueCall β υ κ) :=
  match arg with
  | '-' :: c :: rest =>
    if c ≠ '-' then
      shortCalls options long (rest.length + 1) { self with optvalue := some (c :: rest) }
    else if rest = [] then []
    else (longCall options rest self).toList
  | _ => []

def loopCalls : Nat → Argparse β υ κ → List (ValueCall β υ κ)
  | 0, _ => []
  | n + 1, self =>
    match self.argv with
    | [] => []
    | arg :: _ =>
      argCalls options long arg self ++ match parseArg long options arg self with
        | .ok (.inl self) => loopCalls n self
        | _ => []

def valueCalls (args : List CString) (vars : Vars β υ κ) : List (ValueCall β υ κ) :=
  loopCalls options long args.length ⟨args, none, vars⟩

theorem argparseShortOpt_run (self : Argparse β υ κ) :
    argparseShortOpt long options self = (shortCall options self).elim
      (.error (.unknown (self.argv.headD []))) (·.run long) := by
  obtain ⟨argv, optvalue, vars⟩ := self
  rcases optvalue with _ | _ | ⟨c, rest⟩
  · rfl
  · rfl
  · simp only [argparseShortOpt, shortCall, shortOption]
    cases options.find? fun o => o.shortName = some c with
    | none => rfl
    | some o => rfl

theorem argparseLongOpt_run (word : CString) (self : Argparse β υ κ) :
    argparseLongOpt long options word self = (longCall options word self).elim
      (.error (.unknown (self.argv.headD []))) (·.run long) := by
  simp only [argparseLongOpt, longCall]
  cases options.findSome? fun o => (o.matchLong word).map fun m => (o, m) with
  | none => rfl
  | some m => rfl

end Calls

/-! ### The scan of the words -/

section Scan
variable {β υ κ : Type} (options : List (ArgparseOption β υ κ))

/-- What the next word is read as: an option, with a text left over from an earlier one or not,
or the value of the option before it. -/
inductive Expected where
  | option (leftOver : Bool)
  | value

def wantsNext : CString → Bool
  | [] => false
  | c :: letters =>
    match shortOption options c with
    | some o => if o.type.takesValue then letters.isEmpty else wantsNext letters
    | none => false

/-- No text is left over where a long option without a text of its own wants a value. A text
is left over by a boolean long option, and is gone after a group of short options or an option
that takes a value. -/
def keepsTexts : Expected → List CString → Bool
  | _, [] => true
  | .value, _ :: rest => keepsTexts (.option false) rest
  | .option leftOver, arg :: rest =>
    match arg with
    | '-' :: '-' :: word =>
      match longOption options (word.takeWhile (· ≠ '=')) with
      | some (o, _) =>
        if o.type.takesValue then
          if '=' ∈ word then keepsTexts (.option false) rest
          else !leftOver && keepsTexts .value rest
        else keepsTexts (.option (leftOver || '=' ∈ word)) rest
      | none => true
    | '-' :: letters =>
      if wantsNext options letters then keepsTexts .value rest
      else keepsTexts (.option false) rest
    | _ => true

end Scan

/-! ### The scan is exact -/

section Exact
variable {β υ κ : Type} [DecidableEq β] [DecidableEq υ] [DecidableEq κ]
variable {long : LongWidth} {options : List (ArgparseOption β υ κ)}

theorem shortCalls_none {n : Nat} {argv : List CString} {vars : Vars β υ κ} :
    shortCalls options long n ⟨argv, none, vars⟩ = [] := by
  cases n <;> rfl

omit [DecidableEq β] [DecidableEq υ] [DecidableEq κ] in
theorem Takes.takesValue {type : OptionType β υ κ} {text : CString} {occ : Occurrence β υ κ}
    (h : Takes type text occ) : type.takesValue = true := by
  cases h <;> rfl

/-- The options of a group all have their own values, and the group takes the next word or
not as the scan says. -/
theorem shortCalls_own (hnamed : Named options) {letters : CString} :
    ∀ {n : Nat} {arg : CString} {rest : List CString} {vars : Vars β υ κ}
      {self' : Argparse β υ κ}, letters ≠ [] → letters.length ≤ n →
      shortOpts long options n ⟨arg :: rest, some letters, vars⟩ = .ok self' →
      (∀ call ∈ shortCalls options long n ⟨arg :: rest, some letters, vars⟩, call.Own) ∧
        self'.optvalue = none ∧ ∃ arg' rest', self'.argv = arg' :: rest' ∧
          if wantsNext options letters then rest = arg' :: rest' else rest = rest' := by
  induction letters with
  | nil => exact fun h => absurd rfl h
  | cons c letters ih =>
    intro n arg rest vars self' _ hn h
    obtain ⟨n, rfl⟩ := Nat.exists_eq_succ_of_ne_zero (Nat.ne_zero_of_lt hn)
    obtain ⟨self₁, hfirst, hrest⟩ := except_bind_ok h
    rw [argparseShortOpt_run] at hfirst
    cases hfound : shortOption options c with
    | none =>
      simp only [shortCall, hfound, Option.map_none, Option.elim_none] at hfirst
      cases hfirst
    | some o =>
      obtain ⟨hmem, hname⟩ := shortOption_mem hfound
      simp only [shortCall, hfound, Option.map_some, Option.elim_some] at hfirst
      obtain ⟨hstore, hcb⟩ := argparseGetvalue_ok hfirst
      have hvar := hnamed.stored o hmem (.inr (by simp [hname])) hcb
      simp only [shortCalls, shortCall, hfound, Option.map_some, hfirst, wantsNext]
      rw [List.forall_mem_cons]
      rcases storeValue_ok hvar hstore with ⟨b, hb⟩ | ⟨raw, self₂, occ, hraw, htakes, hargv, hopt⟩
      · cases storeValue_flag hb hstore
        have hboolean : o.type.takesValue = false := by rw [hb]; rfl
        simp only [hboolean, Bool.false_eq_true, if_false]
        have hown : ∀ attached self, (ValueCall.mk o false false attached self).Own :=
          fun _ _ => ValueCall.own_of_boolean _ hb
        by_cases hletters : letters = []
        · subst hletters
          rw [if_pos rfl, shortOpts_none] at hrest
          cases hrest
          rw [if_pos rfl, shortCalls_none]
          exact ⟨⟨hown _ _, by simp⟩, rfl, arg, rest, rfl, rfl⟩
        · rw [if_neg hletters] at hrest
          obtain ⟨hcalls, hnone, hargv⟩ := ih hletters (Nat.le_of_succ_le_succ hn) hrest
          simp only [if_neg hletters]
          exact ⟨⟨hown _ _, hcalls⟩, hnone, hargv⟩
      · have hvalue := htakes.takesValue
        obtain ⟨hnone, htaken⟩ := takeRaw_ok hraw
        obtain ⟨argv₁, opt₁, vars₁⟩ := self₁
        obtain rfl : opt₁ = none := hopt.trans hnone
        rw [shortOpts_none] at hrest
        cases hrest
        simp only [shortCalls_none, hvalue, if_true, List.isEmpty_iff]
        refine ⟨⟨ValueCall.own_of_optvalue _ rfl hraw, by simp⟩, trivial, ?_⟩
        by_cases hletters : letters = []
        · subst hletters
          rcases htaken with ⟨hsome, -⟩ | ⟨-, arg₀, rest', hargs, hargs'⟩
          · cases hsome
          · cases hargs
            exact ⟨raw, rest', hargv.trans hargs', rfl⟩
        · rw [if_neg hletters] at htaken
          simp only [if_neg hletters]
          rcases htaken with ⟨hsome, hargs⟩ | ⟨hsome, -⟩
          · exact ⟨arg, rest, hargv.trans hargs, rfl⟩
          · cases hsome

omit [DecidableEq β] [DecidableEq υ] [DecidableEq κ] in
theorem keepsTexts_long {key tail : CString} {o : ArgparseOption β υ κ} {unset leftOver : Bool}
    {rest : List CString} (hkey : '=' ∉ key) (htail : tail = [] ∨ tail.head? = some '=')
    (ho : longOption options key = some (o, unset)) :
    keepsTexts options (.option leftOver) (('-' :: '-' :: (key ++ tail)) :: rest) =
      if o.type.takesValue then
        if tail = [] then !leftOver && keepsTexts options .value rest
        else keepsTexts options (.option false) rest
      else keepsTexts options (.option (leftOver || tail ≠ [])) rest := by
  have htake : (key ++ tail).takeWhile (· ≠ '=') = key := by
    rw [List.takeWhile_append_of_pos (fun c hc => by simpa using ne_of_mem_of_not_mem hc hkey)]
    rcases htail with rfl | htail
    · simp
    · cases tail with
      | nil => cases htail
      | cons e tail =>
        obtain rfl : e = '=' := by simpa using htail
        simp
  have hmem : '=' ∈ key ++ tail ↔ tail ≠ [] := by
    rcases htail with rfl | htail
    · simpa using hkey
    · cases tail with
      | nil => cases htail
      | cons e tail =>
        obtain rfl : e = '=' := by simpa using htail
        simp
  simp only [keepsTexts, htake, ho, hmem]
  cases o.type.takesValue with
  | false => rfl
  | true =>
    by_cases hnil : tail = []
    · simp [hnil]
    · simp [hnil]

omit [DecidableEq β] [DecidableEq υ] [DecidableEq κ] in
theorem keepsTexts_short {c : Char} {letters : CString} {leftOver : Bool} {rest : List CString}
    (hc : c ≠ '-') : keepsTexts options (.option leftOver) (('-' :: c :: letters) :: rest) =
      if wantsNext options (c :: letters) then keepsTexts options .value rest
      else keepsTexts options (.option false) rest := by
  rw [keepsTexts]
  intro word hword
  cases hword
  exact hc rfl

theorem argCalls_short {c : Char} {letters : CString} {self : Argparse β υ κ} (hc : c ≠ '-') :
    argCalls options long ('-' :: c :: letters) self =
      shortCalls options long (letters.length + 1)
        { self with optvalue := some (c :: letters) } := by
  simp [argCalls, hc]

theorem argCalls_long {key tail : CString} {o : ArgparseOption β υ κ} {unset : Bool}
    {self : Argparse β υ κ} (hun : Unambiguous options) (hne : key ≠ []) (hkey : '=' ∉ key)
    (htail : tail = [] ∨ tail.head? = some '=')
    (ho : longOption options key = some (o, unset)) :
    argCalls options long ('-' :: '-' :: (key ++ tail)) self =
      [⟨o, unset, true, if tail = [] then none else some tail.tail,
        { self with optvalue := if tail = [] then self.optvalue else some tail.tail }⟩] := by
  have hword : key ++ tail ≠ [] := by simp [hne]
  simp only [argCalls, ne_eq, not_true_eq_false, if_false, if_neg hword, longCall,
    findSome_matchLong hun hkey htail, ho, Option.map_some, Option.toList_some]

/-- After a group of short options all is as the scan says, if it is so of the words left. -/
theorem short_turn (hnamed : Named options) {n : Nat} {c : Char} {letters : CString}
    {rest : List CString} {p : Option CString} {vars : Vars β υ κ} {self₁ : Argparse β υ κ}
    (hc : c ≠ '-') (h : parseArg long options ('-' :: c :: letters)
      ⟨('-' :: c :: letters) :: rest, p, vars⟩ = .ok (.inl self₁))
    (ih : self₁.argv.length ≤ rest.length →
      ((∀ call ∈ loopCalls options long n self₁, call.Own) ↔
        keepsTexts options (.option self₁.optvalue.isSome) self₁.argv = true)) :
    (∀ call ∈ argCalls options long ('-' :: c :: letters)
      ⟨('-' :: c :: letters) :: rest, p, vars⟩ ++ loopCalls options long n self₁, call.Own) ↔
      keepsTexts options (.option p.isSome) (('-' :: c :: letters) :: rest) = true := by
  obtain ⟨⟨argv₂, opt₂, vars₂⟩, hopts, hself⟩ := parseArg_short hc h
  obtain ⟨hcalls, hnone, arg', rest', hargv, hrest⟩ :=
    shortCalls_own hnamed (List.cons_ne_nil c letters) le_rfl hopts
  subst hargv hnone
  cases hself
  have hlen : rest'.length ≤ rest.length := by
    split at hrest
    · rw [hrest]
      exact Nat.le_succ _
    · rw [hrest]
  have hscan : keepsTexts options (.option p.isSome) (('-' :: c :: letters) :: rest) =
      keepsTexts options (.option false) rest' := by
    rw [keepsTexts_short hc]
    split at hrest
    · rename_i hwants
      rw [if_pos hwants, hrest, keepsTexts]
    · rename_i hwants
      rw [if_neg hwants, hrest]
  rw [List.forall_mem_append, argCalls_short hc, hscan]
  exact (and_iff_right hcalls).trans (ih hlen)

theorem long_turn (hun : Unambiguous options) (hnamed : Named options) {n : Nat} {word : CString}
    {rest : List CString} {p : Option CString} {vars : Vars β υ κ} {self₁ : Argparse β υ κ}
    (hword : word ≠ []) (h : parseArg long options ('-' :: '-' :: word)
      ⟨('-' :: '-' :: word) :: rest, p, vars⟩ = .ok (.inl self₁))
    (hnumber : ∀ raw, self₁.argv.head? = some raw → ¬∃ v, Numeral raw v)
    (ih : self₁.argv.length ≤ rest.length →
      ((∀ call ∈ loopCalls options long n self₁, call.Own) ↔
        keepsTexts options (.option self₁.optvalue.isSome) self₁.argv = true)) :
    (∀ call ∈ argCalls options long ('-' :: '-' :: word)
      ⟨('-' :: '-' :: word) :: rest, p, vars⟩ ++ loopCalls options long n self₁, call.Own) ↔
      keepsTexts options (.option p.isSome) (('-' :: '-' :: word) :: rest) = true := by
  obtain ⟨key, tail, rfl, hkey, htail⟩ := split_word word
  obtain ⟨o, unset, ho⟩ := longOption_of_parseArg hun hword hkey htail h
  have hne := key_ne_nil hnamed ho
  obtain ⟨self₂, hstore, hcb, hself⟩ := parseArg_long hun hne hkey htail ho h
  cases hself
  have hvar := hasVariable_of_longOption hnamed ho hcb
  rw [List.forall_mem_append, argCalls_long hun hne hkey htail ho, List.forall_mem_singleton,
    keepsTexts_long hkey htail ho]
  rcases storeValue_ok hvar hstore with ⟨b, hb⟩ | ⟨raw, self₃, occ, hraw, htakes, hargv, hopt⟩
  · cases storeValue_flag hb hstore
    have hboolean : o.type.takesValue = false := by rw [hb]; rfl
    rw [and_iff_right (ValueCall.own_of_boolean _ hb), ih le_rfl]
    by_cases hnil : tail = []
    · simp [hboolean, hnil]
    · simp [hboolean, hnil]
  · obtain ⟨hnone, htaken⟩ := takeRaw_ok hraw
    have hvalue := htakes.takesValue
    obtain ⟨argv₂, opt₂, vars₂⟩ := self₂
    obtain rfl : opt₂ = none := hopt.trans hnone
    cases tail with
    | cons e text =>
      rcases htaken with ⟨hsome, hargs⟩ | ⟨hsome, -⟩
      · obtain rfl : argv₂ = _ := hargv.trans hargs
        rw [if_pos hvalue, if_neg (List.cons_ne_nil e text),
          and_iff_right (ValueCall.own_of_optvalue _ rfl hraw)]
        exact ih le_rfl
      · cases hsome
    | nil =>
      rcases htaken with ⟨hsome, hargs⟩ | ⟨hsome, arg₀, rest', hargs, hargs'⟩
      · -- a text left over: the option does not read the next word, which is none of its numbers
        obtain rfl : argv₂ = _ := hargv.trans hargs
        obtain rfl : p = some raw := hsome
        simp only [hvalue, if_true, Option.isSome_some, Bool.not_true, Bool.false_and,
          Bool.false_eq_true, iff_false, not_and]
        intro hown
        obtain ⟨text, htext, hnext⟩ := hown hvalue
        cases htext
        have hhead : rest.head? = some raw := by rwa [List.head?_eq_getElem?]
        exact absurd htakes.numeral (hnumber raw hhead)
      · cases hargs
        obtain rfl : p = none := hsome
        obtain rfl : argv₂ = raw :: rest' := hargv.trans hargs'
        rw [and_iff_right (ValueCall.own_of_optvalue _ rfl hraw), ih (Nat.le_succ _)]
        simp [hvalue, keepsTexts]

omit [DecidableEq β] [DecidableEq υ] [DecidableEq κ] in
theorem longOption_nil (hnamed : Named options) : longOption options [] = none := by
  cases ho : longOption options [] with
  | none => rfl
  | some m => exact absurd rfl (key_ne_nil hnamed ho)

/-- Where the parser accepts, the scan of the words left tells whether every option that is
still to come reads its own text. -/
theorem loopCalls_own (hun : Unambiguous options) (hnamed : Named options) :
    ∀ {n : Nat} {self self' : Argparse β υ κ}, self.argv.length ≤ n →
      parseLoop long options n self = .ok self' →
      ((∀ call ∈ loopCalls options long n self, call.Own) ↔
        keepsTexts options (.option self.optvalue.isSome) self.argv = true) := by
  intro n
  induction n with
  | zero =>
    intro self self' hn _
    have hnil := List.eq_nil_of_length_eq_zero (Nat.le_zero.mp hn)
    simp [loopCalls, keepsTexts, hnil]
  | succ n ih =>
    rintro ⟨args, p, vars⟩ self' hn h
    cases args with
    | nil => simp [loopCalls, keepsTexts]
    | cons arg rest =>
      have hle : rest.length ≤ n := Nat.le_of_succ_le_succ hn
      obtain ⟨r, hr, hnext⟩ := parseLoop_cons h
      obtain ⟨c, letters, rfl⟩ := parseArg_dash hr
      simp only [loopCalls, hr]
      by_cases hc : c = '-'
      · subst hc
        by_cases hend : letters = []
        · subst hend
          cases hr
          simp [argCalls, keepsTexts, longOption_nil hnamed]
        · obtain ⟨key, tail, hsplit, hkey, htail⟩ := split_word letters
          obtain ⟨o, unset, ho⟩ :=
            longOption_of_parseArg hun (hsplit ▸ hend) hkey htail (hsplit ▸ hr)
          obtain ⟨self₁, -, -, rfl⟩ :=
            parseArg_long hun (key_ne_nil hnamed ho) hkey htail ho (hsplit ▸ hr)
          obtain ⟨s, hs, hnext⟩ | hs := hnext
          · cases hs
            have hlt := parseArg_lt (List.cons_ne_nil _ _) hr
            have hargv : self₁.argv.tail.length ≤ n := by
              simp only [List.length_cons] at hlt
              omega
            exact long_turn hun hnamed hend hr
              (fun raw hraw => head_not_numeral hun hargv hnext hraw) fun _ => ih hargv hnext
          · cases hs
      · obtain ⟨self₁, -, rfl⟩ := parseArg_short hc hr
        obtain ⟨s, hs, hnext⟩ | hs := hnext
        · cases hs
          exact short_turn hnamed hc hr fun hargv => ih (hargv.trans hle) hnext
        · cases hs

end Exact

/-- The options of an accepted command line all read their own texts exactly if no text is left
over from a boolean option where a later one wants a value. -/
theorem values_own (long : LongWidth) (args : List CString)
    (h : ∃ self, argparseParse long options args unsetVars = .ok self) :
    (∀ call ∈ valueCalls options long args unsetVars, call.Own) ↔
      keepsTexts options (.option false) args = true := by
  obtain ⟨self, h⟩ := h
  unfold argparseParse at h
  split at h
  · cases h
  · exact loopCalls_own options_unambiguous options_named le_rfl h

theorem values_own_mixed : keepsTexts options (.option false) mixedArgs = true ∧
    ∀ call ∈ valueCalls options .lp64 mixedArgs unsetVars, call.Own := by
  have hkeeps : keepsTexts options (.option false) mixedArgs = true := by decide
  exact ⟨hkeeps, (values_own .lp64 mixedArgs ⟨_, rfl⟩).mpr hkeeps⟩

/-- The text after `--info` is accepted as the value of `--stapm-limit`, which has none. -/
theorem info_text_becomes_limit :
    argparseParse .lp64 options ["--info=5".toList, "--stapm-limit".toList] unsetVars =
      .ok ⟨[], none, (unsetVars.count .info false).setU32 .stapmLimit 5⟩ ∧
    ¬∀ call ∈ valueCalls options .lp64 ["--info=5".toList, "--stapm-limit".toList] unsetVars,
      call.Own := by
  refine ⟨rfl, fun h => ?_⟩
  have hlast : ∃ self, (⟨optU32 (some 'a') "stapm-limit" .stapmLimit, false, true, none, self⟩ :
      ValueCall Flag Limit Curve) ∈ valueCalls options .lp64
        ["--info=5".toList, "--stapm-limit".toList] unsetVars ∧ self.argv[1]? = none :=
    ⟨_, .tail _ (.head _), rfl⟩
  obtain ⟨self, hcall, hnext⟩ := hlast
  obtain ⟨raw, -, hown⟩ := h _ hcall rfl
  rw [ValueCall.ownText, Option.none_or, hnext] at hown
  cases hown

end RyzenAdj
