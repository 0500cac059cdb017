import RyzenAdj.Cli.Accepted
import RyzenAdj.Cli.Protocol

/-!
# From the command line to the setters

What the tool promises for the options of a command line, and when it keeps
the promise: the one value that means "not given" may not be asked for. The
calls that a run makes are those of the protocol.
-/

namespace RyzenAdj
open Interaction Libc

section Last
variable {β υ κ : Type} [DecidableEq β] [DecidableEq υ] [DecidableEq κ]

def Occurrence.u32Of (a : υ) : Occurrence β υ κ → Option Int
  | .u32 a' v => if a' = a then some v else none
  | _ => none

def Occurrence.co32Of (a : κ) : Occurrence β υ κ → Option Int
  | .co32 a' v => if a' = a then some v else none
  | _ => none

def lastU32 (occs : List (Occurrence β υ κ)) (a : υ) : Option Int :=
  (occs.filterMap (Occurrence.u32Of a)).getLast?

def lastCo32 (occs : List (Occurrence β υ κ)) (a : κ) : Option Int :=
  (occs.filterMap (Occurrence.co32Of a)).getLast?

def Occurrence.countOn (b : β) (n : Int) : Occurrence β υ κ → Int
  | .flag b' on => if b' = b then max 0 (n + if on then 1 else -1) else n
  | _ => n

/-- One more for each occurrence, one less for each `no-` form, never below zero. -/
def finalCount (occs : List (Occurrence β υ κ)) (b : β) : Int :=
  occs.foldl (Occurrence.countOn b) 0

theorem foldl_store_flag (occs : List (Occurrence β υ κ)) (vars : Vars β υ κ) (b : β) :
    (occs.foldl Vars.store vars).flag b = occs.foldl (Occurrence.countOn b) (vars.flag b) := by
  induction occs generalizing vars with
  | nil => rfl
  | cons occ occs ih =>
    rw [List.foldl_cons, List.foldl_cons, ih]
    congr 1
    cases occ with
    | flag b' on =>
      by_cases hb : b' = b
      · subst hb
        cases on <;> simp [Vars.store, Vars.count, Occurrence.countOn]
      · simp [Vars.store, Vars.count, Occurrence.countOn, hb, Function.update_of_ne (Ne.symm hb)]
    | u32 a v => rfl
    | co32 a v => rfl

theorem foldl_store_u32 (occs : List (Occurrence β υ κ)) (vars : Vars β υ κ) (a : υ) :
    (occs.foldl Vars.store vars).u32 a =
      ((lastU32 occs a).map (BitVec.ofInt 32)).getD (vars.u32 a) := by
  unfold lastU32
  induction occs generalizing vars with
  | nil => rfl
  | cons occ occs ih =>
    rw [List.foldl_cons, ih]
    cases occ with
    | flag b on => rfl
    | u32 a' v =>
      by_cases ha : a' = a
      · subst ha
        simp only [Vars.store, Vars.setU32, Function.update_self, List.filterMap_cons,
          Occurrence.u32Of, if_true, List.getLast?_cons, Option.map_some, Option.getD_some]
        cases (occs.filterMap (Occurrence.u32Of a')).getLast? <;> rfl
      · simp [Vars.store, Vars.setU32, Occurrence.u32Of, ha, Function.update_of_ne (Ne.symm ha)]
    | co32 a v => rfl

theorem foldl_store_co32 (occs : List (Occurrence β υ κ)) (vars : Vars β υ κ) (a : κ) :
    (occs.foldl Vars.store vars).co32 a = (lastCo32 occs a).getD (vars.co32 a) := by
  unfold lastCo32
  induction occs generalizing vars with
  | nil => rfl
  | cons occ occs ih =>
    rw [List.foldl_cons, ih]
    cases occ with
    | flag b on => rfl
    | u32 a v => rfl
    | co32 a' v =>
      by_cases ha : a' = a
      · subst ha
        simp only [Vars.store, Vars.setCo32, Function.update_self, List.filterMap_cons,
          Occurrence.co32Of, if_true, List.getLast?_cons, Option.getD_some]
      · simp [Vars.store, Vars.setCo32, Occurrence.co32Of, ha, Function.update_of_ne (Ne.symm ha)]

omit [DecidableEq β] [DecidableEq κ] in
theorem fits_of_lastU32 {occs : List (Occurrence β υ κ)} {a : υ} {v : Int}
    (hfits : ∀ occ ∈ occs, occ.Fits) (h : lastU32 occs a = some v) : 0 ≤ v ∧ v < 2 ^ 32 := by
  obtain ⟨occ, hocc, hv⟩ := List.mem_filterMap.mp (List.mem_of_getLast? h)
  cases occ with
  | flag b on => cases hv
  | u32 a' v' =>
    simp only [Occurrence.u32Of, Option.ite_none_right_eq_some, Option.some.injEq] at hv
    obtain ⟨-, rfl⟩ := hv
    exact hfits _ hocc
  | co32 a v => cases hv

omit [DecidableEq β] [DecidableEq υ] in
theorem fits_of_lastCo32 {occs : List (Occurrence β υ κ)} {a : κ} {v : Int}
    (hfits : ∀ occ ∈ occs, occ.Fits) (h : lastCo32 occs a = some v) : -2 ^ 32 < v := by
  obtain ⟨occ, hocc, hv⟩ := List.mem_filterMap.mp (List.mem_of_getLast? h)
  cases occ with
  | flag b on => cases hv
  | u32 a v => cases hv
  | co32 a' v' =>
    simp only [Occurrence.co32Of, Option.ite_none_right_eq_some, Option.some.injEq] at hv
    obtain ⟨-, rfl⟩ := hv
    exact hfits _ hocc

end Last

def CliEvent.adjustment : CliEvent → Option (SetCall × Int)
  | .set c adjerr => some (c, adjerr)
  | _ => none

/-- The setters among the calls of a run. -/
def adjusted (calls : List CliEvent) : Journal := calls.filterMap CliEvent.adjustment

theorem adjusted_append (calls calls' : List CliEvent) :
    adjusted (calls ++ calls') = adjusted calls ++ adjusted calls' := List.filterMap_append

theorem adjusted_calls (log : Journal) : adjusted log.calls = log := by
  induction log with
  | nil => rfl
  | cons e log ih =>
    have hhead : adjusted (Journal.calls (e :: log)) = e :: adjusted (Journal.calls log) := rfl
    rw [hhead, ih]

theorem adjusted_opening (info dumpTable : Bool) (tableErr : Int) :
    adjusted (openingCalls info dumpTable tableErr) = [] := by
  cases info <;> cases dumpTable <;> rfl

theorem adjusted_closing (info dumpTable : Bool) (tableErr : Int) (log : Journal) :
    adjusted (closingCalls info dumpTable tableErr log) = [] := by
  unfold closingCalls
  split
  · cases info <;> cases dumpTable <;> rfl
  · rfl

/-- What the library answers `main`, which has its handle: the code of `init_table`, and those
of the setters, call by call. -/
structure Answers where
  initTable : Int
  setter : Nat → Int

section Run
variable (w : Answers)

def Answers.answer (calls : List CliEvent) : (o : cli.Op) → cli.Ret o
  | .initRyzenadj => true
  | .initTable => w.initTable
  | .set _ => w.setter (adjusted calls).length
  | .showInfoHeader | .showTableDump _ | .showInfoTable | .cleanupRyzenadj => ()

/-- The calls that were made, with what came of them. -/
def Answers.handler (calls : List CliEvent) (o : cli.Op) : Option (cli.Ret o) × List CliEvent :=
  (some (w.answer calls o), calls ++ called o (w.answer calls o))

/-- Answered so, `main` comes to an end with the calls that the command line stands for, and it
has its handle. -/
theorem main_eval (long : LongWidth) (args : List CString) :
    ∃ status calls, (main long args).eval w.handler [] = (some status, calls) ∧
      MainCalls long args status calls ∧ .initRyzenadj false ∉ calls := by
  have hrefines : (Env.answered w.handler).Refines traced
      fun x calls => x.2 = calls ∧ .initRyzenadj false ∉ calls := by
    intro x calls o hx hguard
    obtain ⟨rfl, hopened⟩ := hx
    refine ⟨rfl, fun r calls' hnext => ?_⟩
    obtain ⟨hr, rfl⟩ := Prod.mk.inj hnext
    obtain rfl := Option.some.inj hr
    refine ⟨(x.1.after o (w.answer x.2 o), _), ⟨rfl, rfl⟩, rfl, fun h => ?_⟩
    rcases List.mem_append.mp h with h | h
    · exact hopened h
    · cases o <;> simp [called, Answers.answer] at h
  have hrun := Prog.wpFin_refine hrefines (s := (.start, [])) (t := [])
    ⟨rfl, List.not_mem_nil⟩ (main_calls long args)
  obtain ⟨status, calls, heval, x, ⟨-, hcalls⟩, rfl, hopened⟩ := Prog.eval_of_wpFin hrun
  exact ⟨status, x.2, heval, hcalls, hopened⟩

end Run

/-! ### The calls of one setter -/

theorem filterMap_eq_single {α γ : Type} {l : List α} {f : α → Option γ} {x : α} (hl : l.Nodup)
    (hx : x ∈ l) (hf : ∀ y, y ≠ x → f y = none) : l.filterMap f = (f x).toList := by
  induction l with
  | nil => cases hx
  | cons y l ih =>
    obtain ⟨hy, hl⟩ := List.nodup_cons.mp hl
    by_cases hxy : y = x
    · subst hxy
      have hrest : l.filterMap f = [] := by
        rw [List.filterMap_eq_nil_iff]
        intro z hz
        exact hf z (fun h => hy (h ▸ hz))
      cases hfy : f y with
      | none => rw [List.filterMap_cons_none hfy, hrest, Option.toList_none]
      | some c => rw [List.filterMap_cons_some hfy, hrest, Option.toList_some]
    · rw [List.filterMap_cons_none (hf y hxy)]
      exact ih hl ((List.mem_cons.mp hx).resolve_left (Ne.symm hxy))

theorem settings_nodup : settings.Nodup := by decide

theorem mem_settings (s : Setting) : s ∈ settings := by
  cases s with
  | doAdjust a => cases a <;> decide
  | doEnable a => cases a <;> decide
  | doAdjustCo a => cases a <;> decide

def SetCall.setting : SetCall → Setting
  | .limit a _ => .doAdjust a
  | .action a => .doEnable a
  | .curve a _ => .doAdjustCo a

theorem setting_of_call {vars : CliVars} {s : Setting} {c : SetCall} (h : s.call vars = some c) :
    c.setting = s := by
  cases s with
  | doAdjust a =>
    obtain ⟨-, hc⟩ := Option.ite_none_right_eq_some.mp h
    cases hc
    rfl
  | doEnable a =>
    obtain ⟨-, hc⟩ := Option.ite_none_right_eq_some.mp h
    cases hc
    rfl
  | doAdjustCo a =>
    obtain ⟨-, hc⟩ := Option.ite_none_right_eq_some.mp h
    cases hc
    rfl

def callsOf (log : Journal) (s : Setting) : List SetCall :=
  (log.map Prod.fst).filter fun c => c.setting = s

theorem callsOf_run {vars : CliVars} {log : Journal} (s : Setting)
    (h : log.map Prod.fst = settings.filterMap (Setting.call vars)) :
    callsOf log s = (s.call vars).toList := by
  have hline : (settings.filterMap (Setting.call vars)).filter (fun c => c.setting = s) =
      settings.filterMap fun s' => (s'.call vars).filter fun c => c.setting = s := by
    rw [List.filter_filterMap]
  rw [callsOf, h, hline, filterMap_eq_single settings_nodup (mem_settings s)]
  · cases hc : s.call vars with
    | none => rfl
    | some c => simp [setting_of_call hc]
  · intro s' hs
    cases hc : s'.call vars with
    | none => rfl
    | some c => simp [setting_of_call hc, hs]

theorem mem_of_callsOf {log : Journal} {s : Setting} (h : callsOf log s ≠ []) :
    ∃ e ∈ log, e.1.setting = s := by
  obtain ⟨c, hc⟩ := List.exists_mem_of_ne_nil _ h
  obtain ⟨hmem, hs⟩ := List.mem_filter.mp hc
  obtain ⟨e, he, rfl⟩ := List.mem_map.mp hmem
  exact ⟨e, he, by simpa using hs⟩

/-! ### The contract -/

def Asked (occs : List (Occurrence Flag Limit Curve)) : Setting → Prop
  | .doAdjust a => lastU32 occs a ≠ none
  | .doEnable a => 0 < finalCount occs (.action a)
  | .doAdjustCo a => lastCo32 occs a ≠ none

/-- `init_table` has failed, which the tool reports. -/
def TableFailed (calls : List CliEvent) : Prop := ∃ code, code ≠ 0 ∧ .initTable code ∈ calls

/-- What the tool owes the options of a command line: each numeric option its one call with the
value given last, a Curve Optimiser offset as its low 32 bits, each boolean one its one call while
it counts, no other call, and success exactly when no call failed. No option is silently ignored
with exit status 0: each setter that was asked for has been called, and what was to be shown has
been, or the table could not be had. -/
structure Served (occs : List (Occurrence Flag Limit Curve)) (status : Int)
    (calls : List CliEvent) : Prop where
  limit : ∀ a v, lastU32 occs a = some v → ∃ value : Word, (value.toNat : Int) = v ∧
    callsOf (adjusted calls) (.doAdjust a) = [.limit a value]
  curve : ∀ a v, lastCo32 occs a = some v →
    callsOf (adjusted calls) (.doAdjustCo a) = [.curve a (BitVec.ofInt 32 v)]
  action : ∀ a, 0 < finalCount occs (.action a) →
    callsOf (adjusted calls) (.doEnable a) = [.action a]
  unasked : ∀ s, ¬Asked occs s → callsOf (adjusted calls) s = []
  success : status = 0 ↔ ∀ e ∈ adjusted calls, e.2 = 0
  heard : status = 0 → ∀ s, Asked occs s → ∃ e ∈ adjusted calls, e.1.setting = s ∧ e.2 = 0
  info : status = 0 → 0 < finalCount occs .info →
    .showInfoHeader ∈ calls ∧ (.showInfoTable ∈ calls ∨ TableFailed calls)
  dumpTable : status = 0 → 0 < finalCount occs .dumpTable →
    (∃ any, .showTableDump any ∈ calls) ∨ TableFailed calls

/-- The parser accepts the words and the values pass the two checks. -/
def passes (long : LongWidth) (args : List CString) : Bool :=
  match argparseParse long options args unsetVars with
  | .error _ => false
  | .ok self => exclusive self.vars

theorem options_unambiguous : Unambiguous options where
  longName := by decide
  shortName := by
    have h : ∀ o ∈ options, o.shortName.bind (digit 10) = none := by decide
    intro o ho c hc
    rw [← h o ho, Option.mem_def.mp hc, Option.bind_some]

theorem options_named : Named options where
  stored := by decide
  longName := by decide

theorem finalCount_nonneg {β υ κ : Type} [DecidableEq β] (occs : List (Occurrence β υ κ)) (b : β) :
    0 ≤ finalCount occs b := by
  have hstep : ∀ n : Int, 0 ≤ n → 0 ≤ occs.foldl (Occurrence.countOn b) n := by
    induction occs with
    | nil => exact fun n hn => hn
    | cons occ occs ih =>
      intro n hn
      rw [List.foldl_cons]
      apply ih
      cases occ with
      | flag b' on =>
        simp only [Occurrence.countOn]
        split <;> omega
      | u32 a v => exact hn
      | co32 a v => exact hn
  exact hstep 0 le_rfl

section Calls
variable {occs : List (Occurrence Flag Limit Curve)}

/-- The sentinel is the word of the one value that cannot be given. -/
theorem ofInt_eq_argUnset {v : Int} (hlow : 0 ≤ v) (hhigh : v < 2 ^ 32) :
    BitVec.ofInt 32 v = argUnset ↔ v = 2 ^ 32 - 1 := by
  constructor
  · intro h
    have h := congrArg BitVec.toNat h
    have hword : argUnset.toNat = 2 ^ 32 - 1 := rfl
    rw [BitVec.toNat_ofInt, hword] at h
    omega
  · rintro rfl
    rfl

theorem call_limit (a : Limit) : Setting.call (occs.foldl Vars.store unsetVars) (.doAdjust a) =
    ((lastU32 occs a).filter fun v => BitVec.ofInt 32 v ≠ argUnset).map fun v =>
      .limit a (BitVec.ofInt 32 v) := by
  rw [Setting.call, foldl_store_u32]
  cases lastU32 occs a with
  | none => rfl
  | some v =>
    by_cases h : BitVec.ofInt 32 v = argUnset
    · simp [h]
    · simp [h]

theorem flag_ne_zero (b : Flag) :
    (occs.foldl Vars.store unsetVars).flag b ≠ 0 ↔ 0 < finalCount occs b := by
  have hcount : (occs.foldl Vars.store unsetVars).flag b = finalCount occs b :=
    foldl_store_flag occs unsetVars b
  have hnonneg := finalCount_nonneg occs b
  rw [hcount]
  omega

theorem call_action (a : Action) : Setting.call (occs.foldl Vars.store unsetVars) (.doEnable a) =
    if 0 < finalCount occs (.action a) then some (.action a) else none := by
  simp only [Setting.call, flag_ne_zero]

theorem call_curve (hfits : ∀ occ ∈ occs, occ.Fits) (a : Curve) :
    Setting.call (occs.foldl Vars.store unsetVars) (.doAdjustCo a) =
      (lastCo32 occs a).map fun v => .curve a (BitVec.ofInt 32 v) := by
  rw [Setting.call, foldl_store_co32]
  cases hlast : lastCo32 occs a with
  | none => rfl
  | some v =>
    have hlow := fits_of_lastCo32 hfits hlast
    have hne : v ≠ coUnset := by
      unfold coUnset
      omega
    simp [hne]

variable {log : Journal} (hlog : log.map Prod.fst =
  settings.filterMap (Setting.call (occs.foldl Vars.store unsetVars)))
include hlog

theorem callsOf_limit_unset {a : Limit} (hlast : lastU32 occs a = some (2 ^ 32 - 1)) :
    callsOf log (.doAdjust a) = [] := by
  rw [callsOf_run _ hlog, call_limit, hlast]
  have hword : (some (2 ^ 32 - 1 : Int)).filter (fun v => BitVec.ofInt 32 v ≠ argUnset) = none := by
    decide
  rw [hword]
  rfl

theorem callsOf_action {a : Action} (ha : 0 < finalCount occs (.action a)) :
    callsOf log (.doEnable a) = [.action a] := by
  rw [callsOf_run _ hlog, call_action, if_pos ha]
  rfl

variable (hfits : ∀ occ ∈ occs, occ.Fits)
include hfits

theorem callsOf_limit {a : Limit} {v : Int} (hlast : lastU32 occs a = some v)
    (hv : v ≠ 2 ^ 32 - 1) :
    ∃ value : Word, (value.toNat : Int) = v ∧ callsOf log (.doAdjust a) = [.limit a value] := by
  obtain ⟨hlow, hhigh⟩ := fits_of_lastU32 hfits hlast
  have hne : BitVec.ofInt 32 v ≠ argUnset := fun h => hv ((ofInt_eq_argUnset hlow hhigh).mp h)
  refine ⟨BitVec.ofInt 32 v, ?_, ?_⟩
  · rw [BitVec.toNat_ofInt]
    omega
  · rw [callsOf_run _ hlog, call_limit, hlast]
    simp [hne]

theorem callsOf_curve {a : Curve} {v : Int} (hlast : lastCo32 occs a = some v) :
    callsOf log (.doAdjustCo a) = [.curve a (BitVec.ofInt 32 v)] := by
  rw [callsOf_run _ hlog, call_curve hfits, hlast]
  rfl

theorem callsOf_unasked {s : Setting} (hs : ¬Asked occs s) : callsOf log s = [] := by
  rw [callsOf_run s hlog]
  cases s with
  | doAdjust a =>
    simp only [Asked, ne_eq, not_not] at hs
    rw [call_limit, hs]
    rfl
  | doEnable a =>
    have ha : ¬0 < finalCount occs (.action a) := hs
    rw [call_action, if_neg ha]
    rfl
  | doAdjustCo a =>
    simp only [Asked, ne_eq, not_not] at hs
    rw [call_curve hfits, hs]
    rfl

theorem callsOf_asked (hunset : ∀ a, lastU32 occs a ≠ some (2 ^ 32 - 1)) {s : Setting}
    (hs : Asked occs s) : callsOf log s ≠ [] := by
  cases s with
  | doAdjust a =>
    obtain ⟨v, hv⟩ := Option.ne_none_iff_exists'.mp hs
    obtain ⟨value, -, hcalls⟩ := callsOf_limit hlog hfits hv fun h => hunset a (h ▸ hv)
    simp [hcalls]
  | doEnable a => simp [callsOf_action hlog hs]
  | doAdjustCo a =>
    obtain ⟨v, hv⟩ := Option.ne_none_iff_exists'.mp hs
    simp [callsOf_curve hlog hfits hv]

end Calls

section Shown
variable {info dumpTable : Bool} {tableErr : Int} {log : Journal}

theorem adjusted_handleCalls : adjusted (handleCalls info dumpTable tableErr log) = log := by
  have hcleanup : adjusted [.cleanupRyzenadj] = [] := rfl
  have hopened : adjusted (handleCalls info dumpTable tableErr log) =
      adjusted (openingCalls info dumpTable tableErr ++ log.calls ++
        closingCalls info dumpTable tableErr log ++ [.cleanupRyzenadj]) := rfl
  rw [hopened]
  simp only [adjusted_append, adjusted_opening, adjusted_calls, adjusted_closing, hcleanup,
    List.nil_append, List.append_nil]

theorem mem_opening {e : CliEvent} (h : e ∈ openingCalls info dumpTable tableErr) :
    e ∈ handleCalls info dumpTable tableErr log := by
  simp [handleCalls, h]

theorem mem_closing {e : CliEvent} (h : e ∈ closingCalls info dumpTable tableErr log) :
    e ∈ handleCalls info dumpTable tableErr log := by
  simp [handleCalls, h]

/-- Of a run without a failed setter: the information was shown, or there was no table. -/
theorem info_shown (hlog : log.Succeeded) :
    .showInfoHeader ∈ handleCalls true dumpTable tableErr log ∧
      (.showInfoTable ∈ handleCalls true dumpTable tableErr log ∨
        TableFailed (handleCalls true dumpTable tableErr log)) := by
  refine ⟨mem_opening (by simp [openingCalls]), ?_⟩
  by_cases herr : tableErr = 0
  · exact .inl (mem_closing (by simp [closingCalls, hlog, herr]))
  · exact .inr ⟨tableErr, herr, mem_opening (by simp [openingCalls])⟩

theorem dumpTable_shown (hlog : log.Succeeded) :
    (∃ any, .showTableDump any ∈ handleCalls info true tableErr log) ∨
      TableFailed (handleCalls info true tableErr log) := by
  by_cases herr : tableErr = 0
  · exact .inl ⟨!log.isEmpty, mem_closing (by simp [closingCalls, hlog, herr])⟩
  · exact .inr ⟨tableErr, herr, mem_opening (by simp [openingCalls])⟩

end Shown

/-- A run with a handle serves its options where none of the limits is the word for "not given". -/
theorem served_iff {occs : List (Occurrence Flag Limit Curve)} (hfits : ∀ occ ∈ occs, occ.Fits)
    {status : Int} {calls : List CliEvent}
    (hcalls : ToolCalls (occs.foldl Vars.store unsetVars) status calls)
    (hopened : .initRyzenadj false ∉ calls) :
    Served occs status calls ↔ ∀ a, lastU32 occs a ≠ some (2 ^ 32 - 1) := by
  cases hcalls with
  | noHandle => exact absurd (List.mem_singleton.mpr rfl) hopened
  | handle info dumpTable tableErr log hinfo hdump hlog =>
    have hadjusted : adjusted (handleCalls info dumpTable tableErr log) = log :=
      adjusted_handleCalls
    have hstatus : (if log.Succeeded then 0 else -1 : Int) = 0 ↔ log.Succeeded := by
      split
      next h => simp [h]
      next h => simp [h]
    constructor
    · intro h a hlast
      obtain ⟨value, -, hcalls⟩ := h.limit a _ hlast
      rw [hadjusted, callsOf_limit_unset hlog hlast] at hcalls
      cases hcalls
    · intro h
      refine ⟨?_, ?_, ?_, ?_, ?_, ?_, ?_, ?_⟩
      · intro a v hlast
        rw [hadjusted]
        exact callsOf_limit hlog hfits hlast fun hv => h a (hv ▸ hlast)
      · intro a v hlast
        rw [hadjusted]
        exact callsOf_curve hlog hfits hlast
      · intro a ha
        rw [hadjusted]
        exact callsOf_action hlog ha
      · intro s hs
        rw [hadjusted]
        exact callsOf_unasked hlog hfits hs
      · rw [hadjusted]
        exact hstatus
      · intro h0 s hs
        rw [hadjusted]
        obtain ⟨e, he, hes⟩ := mem_of_callsOf (callsOf_asked hlog hfits h hs)
        exact ⟨e, he, hes, hstatus.mp h0 e he⟩
      · intro h0 hcount
        obtain rfl : info = true := hinfo.trans (decide_eq_true ((flag_ne_zero .info).mpr hcount))
        exact info_shown (hstatus.mp h0)
      · intro h0 hcount
        obtain rfl : dumpTable = true :=
          hdump.trans (decide_eq_true ((flag_ne_zero .dumpTable).mpr hcount))
        exact dumpTable_shown (hstatus.mp h0)

/-- Every command line that passes comes to an end, and whatever it reads as, the one value
that means "not given" decides whether it is served. -/
theorem main_of_passes {long : LongWidth} (w : Answers) {args : List CString}
    (h : passes long args = true) :
    ∃ status calls, (main long args).eval w.handler [] = (some status, calls) ∧
      ∀ occs, Reads options args occs →
        (Served occs status calls ↔ ∀ a, lastU32 occs a ≠ some (2 ^ 32 - 1)) := by
  obtain ⟨status, calls, heval, hcalls, hopened⟩ := main_eval w long args
  refine ⟨status, calls, heval, fun occs hreads => ?_⟩
  unfold passes at h
  unfold MainCalls at hcalls
  cases hparse : argparseParse long options args unsetVars with
  | error stop =>
    rw [hparse] at h
    cases h
  | ok self =>
    rw [hparse] at h hcalls
    obtain ⟨hvars, hfits⟩ := argparseParse_reads options_unambiguous hreads hparse
    have hpasses : exclusive self.vars = true := h
    have htool : ToolCalls self.vars status calls := by simpa only [hpasses, if_true] using hcalls
    rw [hvars] at htool
    exact served_iff hfits htool hopened

/-- A command line is served exactly if it can be read, each value being the option's own, and
no limit is given the largest word last. -/
theorem command_line_served (long : LongWidth) (w : Answers) (args : List CString)
    (h : passes long args = true) :
    (∃ occs status calls, Reads options args occs ∧
      (main long args).eval w.handler [] = (some status, calls) ∧ Served occs status calls) ↔
    ∃ occs, Reads options args occs ∧ ∀ a, lastU32 occs a ≠ some (2 ^ 32 - 1) := by
  obtain ⟨status, calls, hmain, hiff⟩ := main_of_passes w h
  constructor
  · rintro ⟨occs, status', calls', hreads, heval, hserved⟩
    rw [hmain] at heval
    cases heval
    exact ⟨occs, hreads, (hiff occs hreads).mp hserved⟩
  · rintro ⟨occs, hreads, hlast⟩
    exact ⟨occs, status, calls, hreads, hmain, (hiff occs hreads).mpr hlast⟩

def mixedArgs : List CString :=
  ["--stapm-limit=45000".toList, "-ib".toList, "0x10".toList, "--set-coall".toList, "-20".toList,
    "--enable-oc".toList]

theorem mixedArgs_reads : Reads options mixedArgs
    [.u32 .stapmLimit 45000, .flag .info true, .u32 .fastLimit 16, .co32 .coall (-20),
      .flag (.action .enableOc) true] := by
  have h45000 : Numeral "45000".toList 45000 :=
    .unsigned (.decimal (by decide) ⟨[4, 5, 0, 0, 0], by repeat constructor, by decide⟩)
  have h16 : Numeral "0x10".toList 16 :=
    .unsigned (.hexadecimal (.inl rfl) (by decide) ⟨[1, 0], by repeat constructor, by decide⟩)
  have h20 : Numeral "-20".toList (-20) :=
    .minus (.decimal (by decide) ⟨[2, 0], by repeat constructor, by decide⟩)
  have hstapm : longOption options "stapm-limit".toList =
      some (optU32 (some 'a') "stapm-limit" .stapmLimit, false) := by rfl
  have hinfo : shortOption options 'i' = some (optBoolean (some 'i') "info" .info) := by rfl
  have hfast : shortOption options 'b' = some (optU32 (some 'b') "fast-limit" .fastLimit) := by rfl
  have hcoall : longOption options "set-coall".toList =
      some (optCo32 none "set-coall" .coall, false) := by rfl
  have hoc : longOption options "enable-oc".toList =
      some (optBoolean none "enable-oc" (.action .enableOc), false) := by rfl
  refine .attached (by decide) (by decide) hstapm (.u32 h45000) ?_
  refine .short (by decide) (.more hinfo rfl (by decide) (.next hfast (.u32 h16))) ?_
  refine .next (by decide) (by decide) hcoall (.co32 h20) ?_
  exact .flag (by decide) (by decide) (.inl rfl) hoc rfl .done

theorem command_line_served_mixed :
    ∃ occs status calls, Reads options mixedArgs occs ∧
      (main .lp64 mixedArgs).eval (Answers.handler ⟨0, fun _ => 0⟩) [] = (some status, calls) ∧
      Served occs status calls := by
  refine (command_line_served .lp64 ⟨0, fun _ => 0⟩ mixedArgs (by decide +kernel)).mpr
    ⟨_, mixedArgs_reads, fun a => ?_⟩
  cases a <;> decide

/-- The largest word is accepted, no setter is called, and the exit status is 0. -/
theorem largest_limit_ignored :
    passes .lp64 ["--stapm-limit=4294967295".toList] = true ∧
      Reads options ["--stapm-limit=4294967295".toList] [.u32 .stapmLimit 4294967295] ∧
      (main .lp64 ["--stapm-limit=4294967295".toList]).eval
        (Answers.handler ⟨0, fun _ => 0⟩) [] =
          (some 0, [.initRyzenadj true, .cleanupRyzenadj]) ∧
      ¬Served [.u32 .stapmLimit 4294967295] 0 [.initRyzenadj true, .cleanupRyzenadj] := by
  refine ⟨by decide +kernel, ?_, by decide +kernel, ?_⟩
  · have hvalue : Numeral "4294967295".toList 4294967295 :=
      .unsigned (.decimal (by decide)
        ⟨[4, 2, 9, 4, 9, 6, 7, 2, 9, 5], by repeat constructor, by decide⟩)
    have hstapm : longOption options "stapm-limit".toList =
        some (optU32 (some 'a') "stapm-limit" .stapmLimit, false) := by rfl
    exact .attached (by decide) (by decide) hstapm (.u32 hvalue) .done
  · intro h
    obtain ⟨value, -, hcalls⟩ := h.limit .stapmLimit 4294967295 (by decide)
    cases hcalls

end RyzenAdj
