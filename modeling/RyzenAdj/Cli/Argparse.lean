import Mathlib.Logic.Function.Basic
import RyzenAdj.Libc.Strtol
import RyzenAdj.Words

/-!
# The option parser (`argparse.c`)

`argparse_parse` and what it calls, for the option types RyzenAdj uses. The
type of an option and the variable it points to are one value, so that an
option never points to a variable of another type; the variables themselves
(`β` the counters, `υ` the 32-bit words, `κ` the Curve Optimiser offsets) are a
parameter. `exit` ends the program and is the error of `Except`.
-/

namespace RyzenAdj
open Libc

inductive LongWidth where
  | ilp32
  | lp64

def LongWidth.bits : LongWidth → Nat
  | .ilp32 => 32
  | .lp64 => 64

/-- `type` and `value` of an option. Only `OPT_HELP` has no variable. -/
inductive OptionType (β υ κ : Type) where
  | group
  | boolean (value : Option β)
  | u32 (value : υ)
  | co32 (value : κ)

inductive Callback where
  | argparseHelpCb

/-- `struct argparse_option` without the help texts. A short name `'\0'` and a long
name `NULL` are `none`: no word of the command line holds a NUL. -/
structure ArgparseOption (β υ κ : Type) where
  type : OptionType β υ κ
  shortName : Option Char := none
  longName : Option CString := none
  callback : Option Callback := none
  /-- `OPT_NONEG`. -/
  noneg : Bool := false

structure Vars (β υ κ : Type) where
  flag : β → Int
  u32 : υ → Word
  co32 : κ → Int

/-- The ways `argparse_parse` ends the program. -/
inductive Stop (β υ κ : Type) where
  | usage
  | help
  | error (opt : ArgparseOption β υ κ) (long : Bool) (reason : String)
  | unknown (arg : CString)

def Stop.status {β υ κ : Type} : Stop β υ κ → Int
  | .help => 0
  | _ => 1

/-- The fields of `struct argparse` that parsing changes: `argv` with the `argc` words
left in it, and `optvalue`, `none` being `NULL`. -/
structure Argparse (β υ κ : Type) where
  argv : List CString
  optvalue : Option CString
  vars : Vars β υ κ

section Values
variable (long : LongWidth)

def requiresValue : String := "requires a value"

def erangeText : String := "Numerical result out of range"

/-- The `ARGPARSE_OPT_U32` case of `argparse_getvalue` once it has its text: the value it
stores, or the reason of its error. -/
def u32Value (raw : CString) : Except String Word :=
  if raw = [] then .error requiresValue
  else
    let scan := raw.dropWhile isspace
    if scan.head? = some '-' ∨ scan.head? = some '+' then .error "expects a non-negative value"
    else
      let uval := strtoul long.bits raw
      if uval.erange then .error erangeText
      else if uval.endptr = raw ∨ uval.endptr ≠ [] then
        .error "expects an unsigned 32-bit integer value"
      else if 2 ^ 32 - 1 < uval.value then
        .error "value is out of range for a 32-bit unsigned integer"
      else .ok (BitVec.ofNat 32 uval.value)

def co32Limit : Int := 2 ^ 32

/-- The `ARGPARSE_OPT_CO32` case. -/
def co32Value (raw : CString) : Except String Int :=
  if raw = [] then .error requiresValue
  else
    let scan := raw.dropWhile isspace
    if scan.head? = some '-' then
      let sval := strtoll raw
      if sval.erange then .error erangeText
      else if sval.endptr = raw ∨ sval.endptr ≠ [] then .error "expects an integer value"
      else if sval.value ≤ -co32Limit then .error "value does not fit in 32 bits"
      else .ok sval.value
    else
      let uval := strtoul long.bits raw
      if uval.erange then .error erangeText
      else if uval.endptr = raw ∨ uval.endptr ≠ [] then .error "expects an integer value"
      else if 2 ^ 32 - 1 < uval.value then
        .error "value is out of range for a 32-bit unsigned integer"
      else .ok (uval.value : Int)

theorem u32Value_ok {raw : CString} {w : Word} (h : u32Value long raw = .ok w) :
    ∃ n, subject raw = some (false, n, []) ∧ w.toNat = n := by
  simp only [u32Value] at h
  split at h
  · cases h
  · split at h
    · cases h
    · rename_i hplain
      split at h
      · cases h
      · rename_i hrange
        split at h
        · cases h
        · rename_i hend
          obtain ⟨n, hs, hvalue⟩ :=
            unsigned_of_strtoul (fun hminus => hplain (.inl hminus)) hend hrange
          split at h
          · cases h
          · rename_i hle
            cases h
            rw [hvalue] at hle ⊢
            refine ⟨n, hs, ?_⟩
            rw [BitVec.toNat_ofNat]
            omega

theorem co32Value_ok {raw : CString} {x : Int} (h : co32Value long raw = .ok x) :
    ∃ negative n, subject raw = some (negative, n, []) ∧ x = signed negative n ∧
      -2 ^ 32 < x ∧ x < 2 ^ 32 := by
  simp only [co32Value] at h
  split at h
  · cases h
  · split at h
    · rename_i hminus
      split at h
      · cases h
      · rename_i hrange
        split at h
        · cases h
        · rename_i hend
          simp only [ne_eq, not_or, not_not] at hend
          obtain ⟨negative, n, hs⟩ := subject_of_strtoll hend.2 hend.1
          have hneg := (subject_sign hs).mp hminus
          subst hneg
          have hvalue := strtoll_value hs (Bool.eq_false_iff.mpr hrange)
          split at h
          · cases h
          · rename_i hlow
            cases h
            rw [hvalue] at hlow ⊢
            simp only [co32Limit, not_le] at hlow
            refine ⟨true, n, hs, rfl, hlow, ?_⟩
            simp only [signed, if_true]
            omega
    · rename_i hplain
      split at h
      · cases h
      · rename_i hrange
        split at h
        · cases h
        · rename_i hend
          obtain ⟨n, hs, hvalue⟩ := unsigned_of_strtoul hplain hend hrange
          split at h
          · cases h
          · rename_i hle
            cases h
            rw [hvalue] at hle ⊢
            refine ⟨false, n, hs, rfl, ?_, ?_⟩
            · omega
            · omega

theorem u32Value_of_numeral {raw : CString} {v : Int} {w : Word} (hn : Numeral raw v)
    (hw : u32Value long raw = .ok w) : (w.toNat : Int) = v := by
  obtain ⟨negative, n, hs, rfl⟩ := subject_of_numeral hn
  obtain ⟨m, hm, rfl⟩ := u32Value_ok long hw
  rw [hs] at hm
  cases hm
  rfl

theorem co32Value_of_numeral {raw : CString} {v x : Int} (hn : Numeral raw v)
    (hx : co32Value long raw = .ok x) : x = v ∧ -2 ^ 32 < v := by
  obtain ⟨negative, n, hs, rfl⟩ := subject_of_numeral hn
  obtain ⟨negative', m, hm, rfl, hlow, -⟩ := co32Value_ok long hx
  rw [hs] at hm
  cases hm
  exact ⟨rfl, hlow⟩

end Values

section Parser
variable {β υ κ : Type} [DecidableEq β] [DecidableEq υ] [DecidableEq κ]
variable (long : LongWidth) (options : List (ArgparseOption β υ κ))

namespace Vars
variable (vars : Vars β υ κ)

/-- The `ARGPARSE_OPT_BOOLEAN` case: one more, or one less with `OPT_UNSET`, and never
below zero. -/
def count (b : β) (unset : Bool) : Vars β υ κ :=
  { vars with flag := Function.update vars.flag b (max 0 (vars.flag b + if unset then -1 else 1)) }

def setU32 (a : υ) (value : Word) : Vars β υ κ :=
  { vars with u32 := Function.update vars.u32 a value }

def setCo32 (a : κ) (value : Int) : Vars β υ κ :=
  { vars with co32 := Function.update vars.co32 a value }

end Vars

/-- The text of a value: what is attached to the option, or the next word. -/
def takeRaw (opt : ArgparseOption β υ κ) (isLong : Bool) (self : Argparse β υ κ) :
    Except (Stop β υ κ) (CString × Argparse β υ κ) :=
  match self.optvalue with
  | some raw => .ok (raw, { self with optvalue := none })
  | none =>
    match self.argv with
    | _ :: raw :: rest => .ok (raw, { self with argv := raw :: rest })
    | _ => .error (.error opt isLong requiresValue)

/-- The switch over the type of the option. -/
def storeValue (opt : ArgparseOption β υ κ) (unset isLong : Bool) (self : Argparse β υ κ) :
    Except (Stop β υ κ) (Argparse β υ κ) :=
  match opt.type with
  | .group | .boolean none => .ok self
  | .boolean (some b) => .ok { self with vars := self.vars.count b unset }
  | .u32 a => do
    let (raw, self) ← takeRaw opt isLong self
    match u32Value long raw with
    | .error reason => .error (.error opt isLong reason)
    | .ok value => .ok { self with vars := self.vars.setU32 a value }
  | .co32 a => do
    let (raw, self) ← takeRaw opt isLong self
    match co32Value long raw with
    | .error reason => .error (.error opt isLong reason)
    | .ok value => .ok { self with vars := self.vars.setCo32 a value }

def argparseGetvalue (opt : ArgparseOption β υ κ) (unset isLong : Bool) (self : Argparse β υ κ) :
    Except (Stop β υ κ) (Argparse β υ κ) := do
  let self ← storeValue long opt unset isLong self
  match opt.callback with
  | some .argparseHelpCb => .error .help
  | none => .ok self

/-- The letter `*optvalue`. The result -2 goes on to `unknown` in both callers. -/
def argparseShortOpt (self : Argparse β υ κ) : Except (Stop β υ κ) (Argparse β υ κ) :=
  match self.optvalue with
  | some (c :: rest) =>
    match options.find? fun o => o.shortName = some c with
    | some o =>
      argparseGetvalue long o false false
        { self with optvalue := if rest = [] then none else some rest }
    | none => .error (.unknown (self.argv.headD []))
  | _ => .error (.unknown (self.argv.headD []))

def prefixSkip (str pre : CString) : Option CString :=
  if pre.isPrefixOf str then some (str.drop pre.length) else none

def noPrefix : CString := "no-".toList

def ArgparseOption.negatable (o : ArgparseOption β υ κ) : Bool :=
  match o.type with
  | .boolean _ => !o.noneg
  | _ => false

/-- One turn of the loop of `argparse_long_opt` on the word after `--`: where the option
goes by that name, whether it is negated and what follows the name. -/
def ArgparseOption.matchLong (o : ArgparseOption β υ κ) (word : CString) :
    Option (Bool × CString) := do
  let name ← o.longName
  let (unset, rest) ← match prefixSkip word name with
    | some rest => some (false, rest)
    | none =>
      if o.negatable && noPrefix.isPrefixOf word then
        (prefixSkip (word.drop 3) name).map fun rest => (true, rest)
      else none
  if rest = [] ∨ rest.head? = some '=' then some (unset, rest) else none

def argparseLongOpt (word : CString) (self : Argparse β υ κ) :
    Except (Stop β υ κ) (Argparse β υ κ) :=
  match options.findSome? fun o => (o.matchLong word).map fun m => (o, m) with
  | some (o, unset, rest) =>
    argparseGetvalue long o unset true
      { self with optvalue := if rest = [] then self.optvalue else some rest.tail }
  | none => .error (.unknown (self.argv.headD []))

/-- `argparse_short_opt` while a letter is left. A turn leaves fewer letters, so that
their number bounds the turns. -/
def shortOpts : Nat → Argparse β υ κ → Except (Stop β υ κ) (Argparse β υ κ)
  | 0, self => .ok self
  | n + 1, self =>
    match self.optvalue with
    | none => .ok self
    | some _ => argparseShortOpt long options self >>= shortOpts n

/-- One word of the command line: the parser after it, or the end of the options. -/
def parseArg (arg : CString) (self : Argparse β υ κ) :
    Except (Stop β υ κ) (Argparse β υ κ ⊕ Argparse β υ κ) :=
  match arg with
  | '-' :: c :: rest =>
    if c ≠ '-' then do
      let self ← shortOpts long options (rest.length + 1) { self with optvalue := some (c :: rest) }
      return .inl { self with argv := self.argv.tail }
    else if rest = [] then return .inr { self with argv := self.argv.tail }
    else do
      let self ← argparseLongOpt long options rest self
      return .inl { self with argv := self.argv.tail }
  -- a single `-` and a word that is no option, with ARGPARSE_NON_OPTION_IS_INVALID
  | _ => .error (.unknown arg)

/-- Every turn takes a word away, so that their number bounds the turns. -/
def parseLoop : Nat → Argparse β υ κ → Except (Stop β υ κ) (Argparse β υ κ)
  | 0, self => .ok self
  | n + 1, self =>
    match self.argv with
    | [] => .ok self
    | arg :: _ => do
      match ← parseArg long options arg self with
      | .inl self => parseLoop n self
      | .inr self => return self

def argparseParse (args : List CString) (vars : Vars β υ κ) :
    Except (Stop β υ κ) (Argparse β υ κ) :=
  if args = [] then .error .usage
  else parseLoop long options args.length ⟨args, none, vars⟩

end Parser

/-! ### The loops come to their end -/

theorem except_bind_ok {ε α γ : Type} {x : Except ε α} {f : α → Except ε γ} {c : γ}
    (h : x >>= f = .ok c) : ∃ a, x = .ok a ∧ f a = .ok c := by
  cases x with
  | error e => cases h
  | ok a => exact ⟨a, rfl, h⟩

section Bounds
variable {β υ κ : Type}

theorem takeRaw_ok {o : ArgparseOption β υ κ} {isLong : Bool} {raw : CString}
    {self self₁ : Argparse β υ κ} (h : takeRaw o isLong self = .ok (raw, self₁)) :
    self₁.optvalue = none ∧ ((self.optvalue = some raw ∧ self₁.argv = self.argv) ∨
      (self.optvalue = none ∧ ∃ arg rest, self.argv = arg :: raw :: rest ∧
        self₁.argv = raw :: rest)) := by
  unfold takeRaw at h
  split at h
  · rename_i raw' hopt
    cases h
    exact ⟨rfl, .inl ⟨hopt, rfl⟩⟩
  · rename_i hopt
    split at h
    · rename_i arg raw' rest hargv
      cases h
      exact ⟨hopt, .inr ⟨hopt, arg, rest, hargv, rfl⟩⟩
    · cases h

variable [DecidableEq β] [DecidableEq υ] [DecidableEq κ]
variable {long : LongWidth} {options : List (ArgparseOption β υ κ)}

theorem argparseGetvalue_ok {o : ArgparseOption β υ κ} {unset isLong : Bool}
    {self self' : Argparse β υ κ} (h : argparseGetvalue long o unset isLong self = .ok self') :
    storeValue long o unset isLong self = .ok self' ∧ o.callback = none := by
  unfold argparseGetvalue at h
  cases hs : storeValue long o unset isLong self with
  | error stop =>
    rw [hs] at h
    cases h
  | ok self₁ =>
    rw [hs] at h
    cases hcb : o.callback with
    | some cb =>
      simp only [hcb, bind, Except.bind] at h
      cases h
    | none =>
      simp only [hcb, bind, Except.bind] at h
      exact ⟨h, rfl⟩

/-- Storing a value takes words and letters away, if anything. -/
theorem storeValue_le {o : ArgparseOption β υ κ} {unset isLong : Bool}
    {self self' : Argparse β υ κ} (h : storeValue long o unset isLong self = .ok self') :
    self'.argv.length ≤ self.argv.length ∧
      (self'.optvalue = self.optvalue ∨ self'.optvalue = none) := by
  have htaken : ∀ {raw : CString} {self₁ : Argparse β υ κ},
      takeRaw o isLong self = .ok (raw, self₁) →
      self₁.argv.length ≤ self.argv.length ∧ self₁.optvalue = none := by
    intro raw self₁ hraw
    obtain ⟨hnone, ⟨-, hargv⟩ | ⟨-, arg, rest, hargv, hargv'⟩⟩ := takeRaw_ok hraw
    · exact ⟨by rw [hargv], hnone⟩
    · refine ⟨?_, hnone⟩
      rw [hargv, hargv']
      exact Nat.le_succ _
  unfold storeValue at h
  split at h
  · cases h
    exact ⟨le_rfl, .inl rfl⟩
  · cases h
    exact ⟨le_rfl, .inl rfl⟩
  · cases h
    exact ⟨le_rfl, .inl rfl⟩
  · obtain ⟨⟨raw, self₁⟩, hraw, hrest⟩ := except_bind_ok h
    obtain ⟨hle, hnone⟩ := htaken hraw
    simp only at hrest
    split at hrest
    · cases hrest
    · cases hrest
      exact ⟨hle, .inr hnone⟩
  · obtain ⟨⟨raw, self₁⟩, hraw, hrest⟩ := except_bind_ok h
    obtain ⟨hle, hnone⟩ := htaken hraw
    simp only at hrest
    split at hrest
    · cases hrest
    · cases hrest
      exact ⟨hle, .inr hnone⟩

def lettersLeft (self : Argparse β υ κ) : Nat := (self.optvalue.getD []).length

theorem argparseShortOpt_lt {self self' : Argparse β υ κ}
    (h : argparseShortOpt long options self = .ok self') :
    self'.argv.length ≤ self.argv.length ∧ lettersLeft self' < lettersLeft self ∧
      self'.optvalue ≠ some [] := by
  unfold argparseShortOpt at h
  split at h
  · rename_i c rest hopt
    split at h
    · obtain ⟨hle, hleft⟩ := storeValue_le (argparseGetvalue_ok h).1
      have hself : lettersLeft self = rest.length + 1 := by simp [lettersLeft, hopt]
      refine ⟨hle, ?_, ?_⟩
      · rw [hself, lettersLeft]
        rcases hleft with hleft | hleft
        · rw [hleft]
          by_cases hrest : rest = [] <;> simp [hrest]
        · simp [hleft]
      · rcases hleft with hleft | hleft
        · rw [hleft]
          by_cases hrest : rest = [] <;> simp [hrest]
        · simp [hleft]
    · cases h
  · cases h

/-- As many turns as there are letters are enough. -/
theorem shortOpts_enough {n : Nat} {self : Argparse β υ κ} (hopt : self.optvalue ≠ some [])
    (hn : lettersLeft self ≤ n) :
    shortOpts long options (n + 1) self = shortOpts long options n self := by
  induction n generalizing self with
  | zero =>
    have hnone : self.optvalue = none := by
      cases hself : self.optvalue with
      | none => rfl
      | some letters =>
        simp only [lettersLeft, hself, Option.getD_some, Nat.le_zero, List.length_eq_zero_iff] at hn
        exact absurd (hself.trans (congrArg some hn)) hopt
    simp only [shortOpts, hnone]
  | succ n ih =>
    rw [shortOpts]
    cases hself : self.optvalue with
    | none => simp only [shortOpts, hself]
    | some letters =>
      rw [shortOpts, hself]
      simp only
      cases hfirst : argparseShortOpt long options self with
      | error stop => rfl
      | ok self₁ =>
        obtain ⟨-, hlt, hopt₁⟩ := argparseShortOpt_lt hfirst
        exact ih hopt₁ (by omega)

theorem shortOpts_le {n : Nat} {self self' : Argparse β υ κ}
    (h : shortOpts long options n self = .ok self') : self'.argv.length ≤ self.argv.length := by
  induction n generalizing self with
  | zero =>
    cases h
    exact le_rfl
  | succ n ih =>
    unfold shortOpts at h
    split at h
    · cases h
      exact le_rfl
    · obtain ⟨self₁, hfirst, hrest⟩ := except_bind_ok h
      exact (ih hrest).trans (argparseShortOpt_lt hfirst).1

theorem parseArg_lt {arg : CString} {self self' : Argparse β υ κ} (hne : self.argv ≠ [])
    (h : parseArg long options arg self = .ok (.inl self')) :
    self'.argv.length < self.argv.length := by
  have hpos := List.length_pos_iff.mpr hne
  have htail : ∀ {self₁ : Argparse β υ κ}, self₁.argv.length ≤ self.argv.length →
      self₁.argv.tail.length < self.argv.length := by
    intro self₁ hle
    rw [List.length_tail]
    omega
  unfold parseArg at h
  split at h
  · split at h
    · obtain ⟨self₁, hopts, hself⟩ := except_bind_ok h
      cases hself
      have hle := shortOpts_le hopts
      exact htail hle
    · split at h
      · cases h
      · obtain ⟨self₁, hlong, hself⟩ := except_bind_ok h
        cases hself
        unfold argparseLongOpt at hlong
        split at hlong
        · have hle := (storeValue_le (argparseGetvalue_ok hlong).1).1
          exact htail hle
        · cases hlong
  · cases h

/-- As many turns as there are words are enough. -/
theorem parseLoop_enough {n : Nat} {self : Argparse β υ κ} (hn : self.argv.length ≤ n) :
    parseLoop long options (n + 1) self = parseLoop long options n self := by
  induction n generalizing self with
  | zero =>
    have hnil := List.eq_nil_of_length_eq_zero (Nat.le_zero.mp hn)
    simp only [parseLoop, hnil]
  | succ n ih =>
    cases hargv : self.argv with
    | nil => simp only [parseLoop, hargv]
    | cons arg rest =>
      have hne : self.argv ≠ [] := by
        rw [hargv]
        exact List.cons_ne_nil arg rest
      rw [parseLoop, parseLoop, hargv]
      simp only
      cases hfirst : parseArg long options arg self with
      | error stop => rfl
      | ok r =>
        cases r with
        | inr self₁ => rfl
        | inl self₁ =>
          have hlt := parseArg_lt hne hfirst
          exact ih (by omega)

end Bounds
end RyzenAdj
