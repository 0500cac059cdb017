import RyzenAdj.Cli.Main
import RyzenAdj.Interaction.Trace

/-!
# The calls of the tool (`main.c`)

In which order `main` calls the library and its own printing functions, for any
command line and any answers: the handle is opened once and released once, the
table is shown only where it was initialised.
-/

namespace RyzenAdj
open Interaction Libc

/-- A call of `main` with what came of it. -/
inductive CliEvent where
  | initRyzenadj (ry : Bool)
  | showInfoHeader
  | initTable (tableErr : Int)
  | set (c : SetCall) (adjerr : Int)
  | showTableDump (anyAdjustApplied : Bool)
  | showInfoTable
  | cleanupRyzenadj
  deriving DecidableEq

def called : (o : cli.Op) → cli.Ret o → List CliEvent
  | .initRyzenadj, ry => [.initRyzenadj ry]
  | .showInfoHeader, _ => [.showInfoHeader]
  | .initTable, tableErr => [.initTable tableErr]
  | .set c, adjerr => [.set c adjerr]
  | .showTableDump anyAdjustApplied, _ => [.showTableDump anyAdjustApplied]
  | .showInfoTable, _ => [.showInfoTable]
  | .cleanupRyzenadj, _ => [.cleanupRyzenadj]

/-- How far `main` is with its handle. -/
inductive Stage where
  | start
  | opened
  | monitored
  | ended
  deriving DecidableEq

def Stage.HasHandle : Stage → Prop
  | .opened | .monitored => True
  | _ => False

def Stage.Allows (g : Stage) : cli.Op → Prop
  | .initRyzenadj => g = .start
  | .showInfoHeader | .initTable => g = .opened
  | .showTableDump _ | .showInfoTable => g = .monitored
  | .set _ | .cleanupRyzenadj => g.HasHandle

def Stage.after (g : Stage) : (o : cli.Op) → cli.Ret o → Stage
  | .initRyzenadj, (ry : Bool) => if ry then .opened else .ended
  | .initTable, (tableErr : Int) => if tableErr = 0 then .monitored else g
  | .cleanupRyzenadj, _ => .ended
  | _, _ => g

def cliProtocol : Env cli Stage where
  guard g o := g.Allows o
  next g o r g' := g' = g.after o r

/-- The calls up to the adjustments. -/
def openingCalls (info dumpTable : Bool) (tableErr : Int) : List CliEvent :=
  (if info then [.showInfoHeader] else []) ++
    if info || dumpTable then [.initTable tableErr] else []

/-- The setters that were called, each with the code it returned. -/
abbrev Journal := List (SetCall × Int)

def Journal.calls (log : Journal) : List CliEvent := log.map fun e => .set e.1 e.2

def Journal.Succeeded (log : Journal) : Prop := ∀ e ∈ log, e.2 = 0

instance (log : Journal) : Decidable log.Succeeded :=
  inferInstanceAs (Decidable (∀ e ∈ log, e.2 = 0))

def closingCalls (info dumpTable : Bool) (tableErr : Int) (log : Journal) : List CliEvent :=
  if log.Succeeded ∧ tableErr = 0 then
    (if dumpTable then [.showTableDump !log.isEmpty] else []) ++
      if info then [.showInfoTable] else []
  else []

def handleCalls (info dumpTable : Bool) (tableErr : Int) (log : Journal) : List CliEvent :=
  .initRyzenadj true :: (openingCalls info dumpTable tableErr ++ log.calls ++
    closingCalls info dumpTable tableErr log ++ [.cleanupRyzenadj])

/-- The calls of a run of the tool that has its variables, and its exit status. -/
inductive ToolCalls (vars : CliVars) : Int → List CliEvent → Prop where
  | noHandle : ToolCalls vars (-1) [.initRyzenadj false]
  | handle (info dumpTable : Bool) (tableErr : Int) (log : Journal) :
      info = decide (vars.flag .info ≠ 0) → dumpTable = decide (vars.flag .dumpTable ≠ 0) →
      log.map Prod.fst = settings.filterMap (Setting.call vars) →
      ToolCalls vars (if log.Succeeded then 0 else -1) (handleCalls info dumpTable tableErr log)

/-- The calls of the tool on a command line. -/
def MainCalls (long : LongWidth) (args : List CString) (status : Int) (v : List CliEvent) : Prop :=
  match argparseParse long options args unsetVars with
  | .error stop => status = stop.status ∧ v = []
  | .ok self => if exclusive self.vars then ToolCalls self.vars status v else status = -1 ∧ v = []

section Calls

abbrev traced : Env cli (Stage × List CliEvent) := cliProtocol.traced called

theorem wp_cli {o : cli.Op} {α : Type} {f : cli.Ret o → Prog cli α}
    {Q : α → Stage × List CliEvent → Prop} {g : Stage} {w : List CliEvent} (hallowed : g.Allows o)
    (h : ∀ r, (f r).WpFin traced Q (g.after o r, w ++ called o r)) :
    ((Prog.perform (S := cli) o).bind f).WpFin traced Q (g, w) := by
  refine ⟨hallowed, fun r x hx => ?_⟩
  rw [show x = (g.after o r, w ++ called o r) from Prod.ext hx.1 hx.2]
  exact h r

/-- The outcome `o` after further calls of setters. -/
def Outcome.Counts (o o' : Outcome) (log : Journal) : Prop :=
  o'.err = (if log.Succeeded then o.err else -1) ∧
    (log.Succeeded → o'.anyAdjustApplied = (o.anyAdjustApplied || !log.isEmpty))

theorem succeeded_cons {c : SetCall} {adjerr : Int} {log : Journal} :
    Journal.Succeeded ((c, adjerr) :: log) ↔ adjerr = 0 ∧ log.Succeeded := by
  simp only [Journal.Succeeded, List.forall_mem_cons]

theorem Outcome.Counts.cons {o o' : Outcome} {c : SetCall} {adjerr : Int} {log : Journal}
    (h : (o.after adjerr).Counts o' log) : o.Counts o' ((c, adjerr) :: log) := by
  obtain ⟨herr, hany⟩ := h
  by_cases hzero : adjerr = 0
  · rw [Outcome.after, if_pos hzero] at herr hany
    refine ⟨?_, fun hlog => ?_⟩
    · simpa only [succeeded_cons, hzero, true_and] using herr
    · simpa using hany (succeeded_cons.mp hlog).2
  · rw [Outcome.after, if_neg hzero, ite_self] at herr
    have hfailed : ¬Journal.Succeeded ((c, adjerr) :: log) := fun h => hzero (succeeded_cons.mp h).1
    exact ⟨by rw [if_neg hfailed, herr], fun h => absurd h hfailed⟩

theorem applySettings_calls (vars : CliVars) (ss : List Setting) (o : Outcome) {g : Stage}
    (hg : g.HasHandle) (w : List CliEvent) :
    (applySettings vars ss o).WpFin traced (fun o' x => x.1 = g ∧ ∃ log : Journal,
      log.map Prod.fst = ss.filterMap (Setting.call vars) ∧ x.2 = w ++ log.calls ∧
        o.Counts o' log) (g, w) := by
  induction ss generalizing o w with
  | nil =>
    refine ⟨rfl, [], rfl, by simp [Journal.calls], ?_⟩
    simp [Outcome.Counts, Journal.Succeeded]
  | cons s ss ih =>
    simp only [applySettings]
    cases hcall : s.call vars with
    | none =>
      rw [List.filterMap_cons_none hcall]
      exact ih o w
    | some c =>
      apply wp_cli (o := .set c) hg
      intro (adjerr : Int)
      have hrest := ih (o.after adjerr) (w ++ [CliEvent.set c adjerr])
      apply Prog.wpFin_mono hrest
      intro o' x hx
      obtain ⟨hstage, log, hlog, hw, hcounts⟩ := hx
      refine ⟨hstage, (c, adjerr) :: log, ?_, ?_, hcounts.cons⟩
      · rw [List.filterMap_cons_some hcall, List.map_cons, hlog]
      · rw [hw, List.append_assoc]
        rfl

/-- `main` may show what remains of `info` and `dump_table`. -/
def Shows (r : Bool × Bool) (g : Stage) : Prop :=
  g.HasHandle ∧ (r.1 = true ∨ r.2 = true → g = .monitored)

theorem initMonitoring_calls (info dumpTable : Bool) (w : List CliEvent) :
    (initMonitoring info dumpTable).WpFin traced (fun r x => Shows r x.1 ∧ ∃ tableErr : Int,
      r = (if tableErr = 0 then (info, dumpTable) else (false, false)) ∧
        x.2 = w ++ openingCalls info dumpTable tableErr) (.opened, w) := by
  have hopened : Stage.opened.HasHandle := trivial
  -- the call of `init_table`, after the words `u`
  have htable : ∀ u : List CliEvent,
      ((Cli.initTable).bind fun tableErr : Int => if tableErr ≠ 0 then Prog.ret (false, false)
        else Prog.ret (info, dumpTable)).WpFin traced (fun r x => Shows r x.1 ∧ ∃ tableErr : Int,
          r = (if tableErr = 0 then (info, dumpTable) else (false, false)) ∧
            x.2 = u ++ [.initTable tableErr]) (.opened, u) := by
    intro u
    apply wp_cli (o := .initTable) (g := .opened) rfl
    intro (tableErr : Int)
    by_cases herr : tableErr = 0
    · have hstage : Stage.opened.after .initTable tableErr = .monitored := if_pos herr
      rw [if_neg (not_not.mpr herr), hstage]
      exact ⟨⟨trivial, fun _ => rfl⟩, tableErr, (if_pos herr).symm, rfl⟩
    · have hstage : Stage.opened.after .initTable tableErr = .opened := if_neg herr
      rw [if_pos herr, hstage]
      exact ⟨⟨hopened, fun h => by simp at h⟩, tableErr, (if_neg herr).symm, rfl⟩
  have hheader : ∀ {f : Prog cli (Bool × Bool)} {Q : Bool × Bool → Stage × List CliEvent → Prop},
      f.WpFin traced Q (.opened, w ++ [.showInfoHeader]) →
      ((Cli.showInfoHeader).bind fun _ => f).WpFin traced Q (.opened, w) :=
    fun hf => wp_cli (o := .showInfoHeader) (g := .opened) rfl fun _ => hf
  cases info with
  | false =>
    cases dumpTable with
    | false => exact ⟨⟨hopened, fun h => by simp at h⟩, 0, rfl, (List.append_nil w).symm⟩
    | true => exact htable w
  | true =>
    have hrest := htable (w ++ [CliEvent.showInfoHeader])
    apply hheader
    rw [Bool.true_or, if_pos rfl]
    apply Prog.wpFin_mono hrest
    intro r x hx
    obtain ⟨hshows, tableErr, hr, hw⟩ := hx
    exact ⟨hshows, tableErr, hr, by rw [hw, List.append_assoc]; rfl⟩

theorem showMonitoring_calls (info dumpTable : Bool) (o : Outcome) {g : Stage}
    (hshows : Shows (info, dumpTable) g) (w : List CliEvent) :
    (showMonitoring info dumpTable o).WpFin traced (fun _ x => x.1 = g ∧
      x.2 = w ++ ((if dumpTable then [.showTableDump o.anyAdjustApplied] else []) ++
        if info then [.showInfoTable] else [])) (g, w) := by
  have hinfo : ∀ u : List CliEvent, (if info then Cli.showInfoTable else Prog.ret ()).WpFin traced
      (fun _ x => x.1 = g ∧ x.2 = u ++ if info then [.showInfoTable] else []) (g, u) := by
    intro u
    cases info with
    | false => exact ⟨rfl, (List.append_nil u).symm⟩
    | true => exact wp_cli (o := .showInfoTable) (hshows.2 (.inl rfl)) fun _ => ⟨rfl, rfl⟩
  cases dumpTable with
  | false => exact hinfo w
  | true =>
    apply wp_cli (o := .showTableDump o.anyAdjustApplied) (g := g) (hshows.2 (.inr rfl))
    intro _
    apply Prog.wpFin_mono (hinfo _)
    intro _ x hx
    exact ⟨hx.1, by rw [hx.2, List.append_assoc]; rfl⟩

theorem closing_calls {info dumpTable : Bool} {tableErr : Int} {r : Bool × Bool} {o : Outcome}
    {log : Journal} (hr : r = if tableErr = 0 then (info, dumpTable) else (false, false))
    (hcounts : Outcome.Counts ⟨0, false⟩ o log) {g : Stage} (hshows : Shows r g)
    (w : List CliEvent) :
    (if o.err = 0 then showMonitoring r.1 r.2 o else Prog.ret ()).WpFin traced (fun _ x => x.1 = g ∧
      x.2 = w ++ closingCalls info dumpTable tableErr log) (g, w) := by
  have herr : o.err = 0 ↔ log.Succeeded := by
    rw [hcounts.1]
    split
    next h => simp [h]
    next h => simp [h]
  apply Prog.wpFin_ite
  · intro hzero
    have hlog := herr.mp hzero
    apply Prog.wpFin_mono (showMonitoring_calls r.1 r.2 o hshows w)
    intro _ x hx
    refine ⟨hx.1, hx.2.trans (congrArg (w ++ ·) ?_)⟩
    rw [hr, hcounts.2 hlog, Bool.false_or]
    by_cases htable : tableErr = 0
    · simp [closingCalls, hlog, htable]
    · simp [closingCalls, htable]
  · intro hne
    refine ⟨rfl, ?_⟩
    rw [closingCalls, if_neg fun h => hne (herr.mpr h.1), List.append_nil]

theorem runTool_calls (vars : CliVars) :
    (runTool vars).WpFin traced (fun status x => x.1 = .ended ∧ ToolCalls vars status x.2)
      (.start, []) := by
  apply wp_cli (o := .initRyzenadj) (g := .start) rfl
  intro (ry : Bool)
  cases ry with
  | false => exact ⟨rfl, .noHandle⟩
  | true =>
    apply Prog.wpFin_seq (initMonitoring_calls _ _ _)
    intro r x hr
    obtain ⟨g, w⟩ := x
    obtain ⟨hshows, tableErr, hr, hw⟩ := hr
    have hopening : w = .initRyzenadj true :: openingCalls (vars.flag .info ≠ 0)
      (vars.flag .dumpTable ≠ 0) tableErr := hw
    apply Prog.wpFin_seq (applySettings_calls vars settings ⟨0, false⟩ hshows.1 w)
    intro o y ho
    obtain ⟨g', w'⟩ := y
    obtain ⟨rfl, log, hlog, hw', hcounts⟩ := ho
    have hclose := closing_calls hr hcounts hshows w'
    -- the clean-up, after whatever was shown
    have hclean : ∀ u : List CliEvent,
        ToolCalls vars o.err (u ++ [.cleanupRyzenadj]) →
        ((Cli.cleanupRyzenadj).bind fun _ => Prog.ret o.err).WpFin traced
          (fun status x => x.1 = .ended ∧ ToolCalls vars status x.2) (g', u) := by
      intro u hu
      exact wp_cli (o := .cleanupRyzenadj) (g := g') hshows.1 fun _ => ⟨rfl, hu⟩
    have hcalls : ToolCalls vars o.err ((w' ++ closingCalls (vars.flag .info ≠ 0)
        (vars.flag .dumpTable ≠ 0) tableErr log) ++ [.cleanupRyzenadj]) := by
      rw [hcounts.1, show w' = w ++ log.calls from hw', hopening]
      simpa [handleCalls] using ToolCalls.handle _ _ tableErr log rfl rfl hlog
    have hseq := Prog.wpFin_seq hclose fun _ x hx => by
      have h := hclean _ hcalls
      rw [show x = (g', w' ++ _) from Prod.ext hx.1 hx.2]
      exact h
    by_cases hzero : o.err = 0
    · simp only [hzero] at hseq ⊢
      exact hseq
    · simp only [hzero, if_false] at hseq ⊢
      exact hseq

/-- A run of `main` keeps to the protocol, leaves no handle behind and makes the calls that the
command line stands for. -/
theorem main_calls (long : LongWidth) (args : List CString) :
    (main long args).WpFin traced (fun status x => ¬x.1.HasHandle ∧ MainCalls long args status x.2)
      (.start, []) := by
  unfold main MainCalls
  cases argparseParse long options args unsetVars with
  | error stop => exact ⟨fun h => h, rfl, rfl⟩
  | ok self =>
    by_cases hexclusive : exclusive self.vars = true
    · simp only [hexclusive, if_true]
      apply Prog.wpFin_mono (runTool_calls self.vars)
      intro status x hx
      exact ⟨by rw [hx.1]; exact fun h => h, hx.2⟩
    · simp only [hexclusive]
      exact ⟨fun h => h, rfl, rfl⟩

end Calls
end RyzenAdj
