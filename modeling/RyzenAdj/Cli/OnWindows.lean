import RyzenAdj.Cli.ToolRun
import RyzenAdj.Windows.Carried
import RyzenAdj.Windows.Workbench

/-!
# The tool as a Windows process

The same tool and library over the backend for Windows. The DLL is taken to have
`IsInpOutDriverOpen`, which is called without a look at the pointer.
-/

namespace RyzenAdj
open Interaction Libc Windows

def ryzenadjOnWindows (depth : Nat) (long : LongWidth) (args : List CString) :
    Prog (windows.sum console) (Int × WinStatics) :=
  (ryzenadj depth long args).link (Windows.apiImpl.beside console) .initial

theorem winStanding_initial (exports : String → Bool) (family : RyzenFamily) (clock : Clock) :
    WinStanding exports family .initial .initial (.initial clock) where
  flag := rfl
  family _ h := by cases h
  possession := .notYet rfl rfl rfl rfl rfl fun _ => rfl

theorem released_of_standing {exports : String → Bool} {family : RyzenFamily} {b : Backend}
    {p : WinStatics} {s : WinState} (h : WinStanding exports family b p s)
    (hover : ∀ obj, b.access ≠ .live obj) : s.Released := by
  have hpossession := h.possession
  cases hb : b.access with
  | live obj => exact absurd hb (hover obj)
  | notYet =>
    rw [hb] at hpossession
    cases hpossession with
    | notYet _ _ hmade hobjs hmapped hloads =>
      refine ⟨hobjs, ?_, fun _ => ⟨hmade, hmapped, hloads⟩⟩
      rw [hmapped]
      exact Set.empty_subset _
  | ended =>
    rw [hb] at hpossession
    cases hpossession with
    | ended _ hreleased => exact hreleased

theorem windows_answers (exports : String → Bool) (cpu : Word → CpuInfo) (s : WinState)
    (o : Windows.Op) (h : s.Allows o) : ∃ r s', WinState.Move exports cpu s o r s' := by
  cases o with
  | getDllStatus => exact ⟨olsDllNoError, s, rfl⟩
  | readPciConfigDword pciAddress reg => exact ⟨(0 : Word), s, rfl⟩
  | loadLibrary name => exact ⟨none, s, rfl⟩
  | getProcAddress dll name => exact ⟨exports name, s, rfl, rfl⟩
  | isInpOutDriverOpen dll => exact ⟨false, s, rfl⟩
  | mapPhysToLin dll physAddr size => exact ⟨(none, none), _, rfl⟩
  | memory linAddr n => exact ⟨⟨List.replicate n 0, List.length_replicate⟩, s, rfl⟩
  | mallocObj => exact ⟨none, s, rfl⟩
  | malloc => exact ⟨false, s, rfl⟩
  | calloc nmemb => exact ⟨false, s, rfl⟩
  | getTickCount64 =>
    exact ⟨s.clock.now + 1, _, ⟨s.clock.now + 1, 0⟩, ⟨rfl, .inl (Nat.lt_succ_self _)⟩, rfl⟩
  | processor o =>
    cases o with
    | getcpuid infoType => exact ⟨cpu infoType, s, rfl, rfl⟩
    | printf m => exact ⟨(), s, rfl⟩
  | undefined => exact h.elim
  | _ => exact ⟨(), _, rfl⟩

theorem windows_run {exports : String → Bool} (hexport : exports "IsInpOutDriverOpen" = true)
    (cpu : Word → CpuInfo) (depth : Nat) (long : LongWidth) (args : List CString) (clock : Clock) :
    (ryzenadjOnWindows (depth + 1) long args).WpTotal ((winEnv exports cpu).beside console)
      (fun _ s => s.Released) (.initial clock) := by
  have htool := Prog.wpFin_untraced (tool_run (loadedFamily cpu) depth long args)
  have hlink := Prog.wpTotal_link (apiImpl_windows hexport).beside
    (winStanding_initial exports (loadedFamily cpu) clock) (Prog.wpTotal_of_wpFin htool)
  apply Prog.wpTotal_mono hlink
  intro x s hx
  obtain ⟨b, ⟨w, hend⟩, hstanding⟩ := hx
  exact released_of_standing hstanding hend.access

/-- Whatever its words and whatever it is answered, the tool comes to its end on Windows as long as
the clock goes on. On the way it uses WinRing0 only between its initialisation and its release,
the DLL only while that is loaded, no byte beyond a mapped window and no object that is not its
own; in the end the object is freed, WinRing0 released, and nothing mapped but what a later
`MapPhysToLin` had put out of sight. -/
theorem process_on_windows {exports : String → Bool}
    (hexport : exports "IsInpOutDriverOpen" = true) (cpu : Word → CpuInfo) (depth : Nat)
    (long : LongWidth) (args : List CString) (clock : Clock) :
    (∀ o k s, Prog.Steps ((winEnv exports cpu).beside console)
      (ryzenadjOnWindows (depth + 1) long args, .initial clock) (.call (.inl o) k, s) →
      s.Allows o) ∧
    Prog.Ends ((winEnv exports cpu).beside console) (fun _ s => s.Released)
      (ryzenadjOnWindows (depth + 1) long args, .initial clock) := by
  have hrun := windows_run hexport cpu depth long args clock
  constructor
  · intro o k s hsteps
    exact Prog.wp_guard _ hsteps (Prog.wp_of_wpTotal hrun)
  · refine Prog.ends_of_wpTotal (fun s o hguard => ?_) hrun
    cases o with
    | inl o => exact windows_answers exports cpu s o hguard
    | inr o =>
      cases o with
      | print l => exact ⟨(), s, rfl⟩
      | malloc size => exact ⟨false, s, rfl⟩

def infoOnWindows : Prog (windows.sum console) (Int × WinStatics) :=
  ryzenadjOnWindows 2 .ilp32 ["--info".toList]

def answerInfo : WinBench → (o : (windows.sum console).Op) →
    Option ((windows.sum console).Ret o × WinBench) :=
  WinBench.answerBeside ravenCpu quietConsole

/-- The tool is about to read the memory of the table. -/
def readsTable {α : Type} : Prog (windows.sum console) α → Bool
  | .call (.inl (.memory _ _)) _ => true
  | _ => false

theorem exists_memory {α : Type} {p : Prog (windows.sum console) α} (h : readsTable p = true) :
    ∃ linAddr n k, p = .call (.inl (.memory linAddr n)) k := by
  unfold readsTable at h
  split at h
  next linAddr n k => exact ⟨linAddr, n, k, rfl⟩
  next => cases h

/-- `--info` maps the table, reads it from the mapped range, and leaves nothing mapped. -/
theorem process_on_windows_info : ∃ linAddr n k s x s',
    Prog.Steps ((winEnv (fun _ => true) ravenCpu).beside console)
      (infoOnWindows, .initial ⟨0, 0⟩) (.call (.inl (.memory linAddr n)) k, s) ∧
    (∃ v ∈ s.mapped, v.linAddr = linAddr ∧ n ≤ v.len) ∧
    Prog.Steps ((winEnv (fun _ => true) ravenCpu).beside console)
      (.call (.inl (.memory linAddr n)) k, s) (.ret x, s') ∧
    x.1 = 0 ∧ s'.Released ∧ s'.made = true ∧ s'.ols = false ∧ s'.mapped = ∅ := by
  have hplay : (infoOnWindows.advance answerInfo 313 .initial).any (fun x =>
      readsTable x.1 && (x.1.advance answerInfo 3000 x.2).any fun y =>
        y.1.returned.any fun a => a.1 = 0 && y.2.made && y.2.mapped.isEmpty) = true := by
    decide +kernel
  have hnext : ∀ s o r s', answerInfo s o = some (r, s') →
      ((winEnv (fun _ => true) ravenCpu).beside console).next s.seen o r s'.seen :=
    fun _ _ _ _ => WinBench.answerBeside_next
  obtain ⟨q, s, hsteps, hplay⟩ := Prog.exists_steps hnext hplay
  simp only [Bool.and_eq_true] at hplay
  obtain ⟨hreads, hplay⟩ := hplay
  obtain ⟨linAddr, n, k, rfl⟩ := exists_memory hreads
  let mapsNothing (x : Int × WinStatics) (t : WinBench) : Bool :=
    x.1 = 0 && t.made && t.mapped.isEmpty
  obtain ⟨x, t, hrest, hplay⟩ := Prog.exists_result (P := mapsNothing) hnext hplay
  simp only [mapsNothing, Bool.and_eq_true, decide_eq_true_eq, List.isEmpty_iff] at hplay
  obtain ⟨⟨hzero, hmade⟩, hmapped⟩ := hplay
  rw [WinBench.seen_initial] at hsteps
  obtain ⟨hallowed, hends⟩ := @process_on_windows (fun _ => true) rfl ravenCpu 1 .ilp32
    ["--info".toList] ⟨0, 0⟩
  have hreleased : t.seen.Released := hends.result (hsteps.trans hrest)
  have hols : t.seen.ols = false := by
    cases hopen : t.seen.ols with
    | false => rfl
    | true =>
      have hnone := (hreleased.ols hopen).1
      rw [show t.seen.made = true from hmade] at hnone
      cases hnone
  refine ⟨linAddr, n, k, s.seen, x, t.seen, hsteps, hallowed _ _ _ hsteps, hrest, hzero, hreleased,
    hmade, hols, ?_⟩
  simp [WinBench.seen, hmapped]

end RyzenAdj
