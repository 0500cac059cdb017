import RyzenAdj.Cli.ToolRun
import RyzenAdj.Linux.Carried
import RyzenAdj.Linux.Pace

/-!
# The tool as a Linux process

The whole program down to its system calls: what `main` does, through the
library, the mailbox code and the backend that was found. Whatever the kernel,
the SMU and the processor answer, it uses what it has opened and nothing else.
-/

namespace RyzenAdj
open Interaction Libc

abbrev process : Signature := linux.sum console

def ryzenadjOnLinux (depth : Nat) (long : LongWidth) (args : List CString) :
    Prog process (Int × Statics) :=
  (ryzenadj depth long args).link (Host.apiImpl.beside console) .initial

def processEnv (cpu : Word → CpuInfo) : Env process Kernel := (kernelEnv cpu).beside console

/-- Nothing but the lock file is left open, and the lock is not held. -/
structure Clean (k : Kernel) : Prop where
  files : ∀ fd path, (fd, path) ∈ k.files → path = smuLockPath
  streams : k.streams = ∅
  pciAccs : k.pciAccs = ∅
  pciDevs : k.pciDevs = ∅
  mappings : k.mappings = ∅
  lock : k.lock ≠ .held

theorem clean_of_standing {family : RyzenFamily} {b : Backend} {p : Statics} {k : Kernel}
    (h : Standing family b p k) (hover : ∀ obj, b.access ≠ .live obj) : Clean k := by
  have hfiles : b.access.files = ∅ ∧ b.access.pciAccs = ∅ ∧ b.access.pciDevs = ∅ := by
    cases hb : b.access with
    | live obj => exact absurd hb (hover obj)
    | notYet => exact ⟨rfl, rfl, rfl⟩
    | ended => exact ⟨rfl, rfl, rfl⟩
  obtain ⟨hfiles, haccs, hdevs⟩ := hfiles
  refine ⟨?_, h.owned.streams, h.owned.pciAccs.trans haccs, h.owned.pciDevs.trans hdevs,
    h.owned.closed_window fun o => hover _, ?_⟩
  · intro fd path hmem
    rw [h.owned.files, hfiles, Set.union_empty] at hmem
    exact congrArg Prod.snd hmem.2
  · rcases h.lock with hfree | hnone
    · rw [hfree]
      decide
    · rw [hnone.1]
      decide

theorem standing_initial (family : RyzenFamily) : Standing family .initial .initial .initial where
  owned :=
    { flag := rfl
      files := by
        show ∅ = openAt (-1) smuLockPath ∪ ∅
        rw [openAt_failed, Set.union_empty]
      unique := fun x hx => hx.elim
      smn := fun o h => by cases h
      streams := rfl
      pciAccs := rfl
      pciDevs := rfl
      mappings := (mapped_none rfl).symm
      unmapped := fun _ => rfl
      family := fun f h => by cases h }
  fits := ⟨(fun obj h => by cases h), fun _ => rfl⟩
  lock := .inl rfl

theorem process_run (cpu : Word → CpuInfo) (depth : Nat) (long : LongWidth) (args : List CString) :
    (ryzenadjOnLinux (depth + 1) long args).Wp (processEnv cpu) (fun _ k => Clean k) .initial := by
  have htool := Prog.wpFin_untraced (tool_run (loadedFamily cpu) depth long args)
  have hlink := Prog.wp_link (apiImpl_meets cpu).beside (standing_initial (loadedFamily cpu))
    (Prog.wp_of_wpFin htool)
  apply Prog.wp_mono _ hlink
  intro x k hx
  obtain ⟨b, ⟨w, hend⟩, hstanding⟩ := hx
  exact clean_of_standing hstanding hend.access

/-- Whatever its words, and whatever it is answered: the tool makes no system call on what it has
not opened or has closed again, no member of a union is used that was not stored, the mailbox is
touched only with the lock (or where there is none to be had), and in the end nothing is open but
the lock file, which is not locked. -/
theorem process_clean (cpu : Word → CpuInfo) (depth : Nat) (long : LongWidth)
    (args : List CString) :
    (∀ o k s, Prog.Steps (processEnv cpu) (ryzenadjOnLinux (depth + 1) long args, .initial)
      (.call (.inl o) k, s) → s.Allows o) ∧
    ∀ r s, Prog.Steps (processEnv cpu) (ryzenadjOnLinux (depth + 1) long args, .initial)
      (.ret r, s) → Clean s := by
  have hrun := process_run cpu depth long args
  constructor
  · intro o k s hsteps
    exact Prog.wp_guard _ hsteps hrun
  · intro r s hsteps
    exact Prog.wp_result _ hsteps hrun

abbrev pacedEnv (cpu : Word → CpuInfo) : Env linux (Kernel × Pace) := (kernelEnv cpu).both paceEnv

theorem paced_answers (cpu : Word → CpuInfo) (x : Kernel × Pace) (o : linux.Op)
    (h : x.1.Allows o) : ∃ r x', (pacedEnv cpu).next x o r x' := by
  obtain ⟨k, s⟩ := x
  cases o with
  | inl o =>
    cases o with
    | isSmu => exact ⟨k.isSmu, (k, s), ⟨rfl, rfl⟩, rfl, False.elim⟩
    | setIsSmu b => exact ⟨(), ({ k with isSmu := b }, s), rfl, rfl, False.elim⟩
    | smnIoSetError => exact ⟨(), (k, s), rfl, rfl, False.elim⟩
    | smnIoTakeError => exact ⟨false, (k, s), rfl, rfl, False.elim⟩
    | malloc => exact ⟨false, (k, s), rfl, rfl, False.elim⟩
    | openFile path => exact ⟨(-1 : Int), (k, s), .inl ⟨rfl, rfl⟩, rfl, False.elim⟩
    | closeFd fd => exact ⟨(), (k.closed fd, s), rfl, rfl, False.elim⟩
    | lseek fd => exact ⟨none, (k, s), rfl, rfl, False.elim⟩
    | write fd bytes =>
      exact ⟨.error eIo, (k, s), rfl, rfl, fun hidle : eIo = eIntr => absurd hidle (by decide)⟩
    | read fd len =>
      exact ⟨.error eIo, (k, s), rfl, rfl, fun hidle : eIo = eIntr => absurd hidle (by decide)⟩
    | pciAlloc => exact ⟨none, (k, s), rfl, rfl, False.elim⟩
    | pciGetDev acc => exact ⟨none, (k, s), rfl, rfl, False.elim⟩
    | pciWriteLong dev reg val => exact ⟨false, (k, s), rfl, rfl, False.elim⟩
    | pciReadLong dev reg => exact ⟨(0 : Word), (k, s), rfl, rfl, False.elim⟩
    | undefined => exact h.elim
  | inr o =>
    cases o with
    | monotonicMs =>
      exact ⟨s.clock.now + 1, (k, ⟨⟨s.clock.now + 1, 0⟩, s.idle⟩), rfl, rfl,
        .inl (Nat.lt_succ_self _)⟩
    | openSmuLock =>
      exact ⟨(-1 : Int), ({ k with lock := .unlocked }, s), ⟨k, .inl ⟨rfl, rfl⟩, rfl⟩, rfl⟩
    | flockEx fd => exact ⟨.acquired, (k.flocked .acquired, s), rfl, rfl⟩
    | fopen path => exact ⟨none, (k, s), rfl, rfl⟩
    | text stream => exact ⟨[], (k, s), rfl, rfl⟩
    | sysconf => exact ⟨(0 : BitVec 64), (k, s), rfl, rfl⟩
    | mmap fd len offset => exact ⟨false, (k, s), rfl, rfl⟩
    | memory start n => exact ⟨⟨List.replicate n 0, List.length_replicate⟩, (k, s), rfl, rfl⟩
    | processor o =>
      cases o with
      | getcpuid infoType => exact ⟨cpu infoType, (k, s), ⟨rfl, rfl⟩, rfl⟩
      | printf m => exact ⟨(), (k, s), rfl, rfl⟩
    | lstat path => exact ⟨false, (k, s), rfl, rfl⟩
    | malloc => exact ⟨false, (k, s), rfl, rfl⟩
    | calloc nmemb => exact ⟨false, (k, s), rfl, rfl⟩
    | _ => exact ⟨(), (_, s), rfl, rfl⟩

theorem apiImpl_meets_paced (cpu : Word → CpuInfo) :
    Host.apiImpl.MeetsTotal (backendEnv (loadedFamily cpu)) (pacedEnv cpu)
      (fun b p x => Standing (loadedFamily cpu) b p x.1) := by
  intro b p x o hstanding hguard
  have hboth := Prog.wpTotal_both (apiImpl_meets cpu b p x.1 o hstanding hguard)
    (apiImpl_ends p o x.2)
  exact Prog.wpTotal_mono hboth fun _ _ h => h.1

/-- As long as the clock goes on and transfers do not come to nothing for ever, the tool comes to
its end, whatever its words and whatever else it is answered: with an SMU that never answers, a
lock that is never given up, a driver that fails. Nothing but the lock file is open then. -/
theorem process_ends (cpu : Word → CpuInfo) (depth : Nat) (long : LongWidth)
    (args : List CString) (s : Pace) :
    Prog.Ends ((pacedEnv cpu).beside console) (fun _ x => Clean x.1)
      (ryzenadjOnLinux (depth + 1) long args, (.initial, s)) := by
  have htool := Prog.wpFin_untraced (tool_run (loadedFamily cpu) depth long args)
  have hlink := Prog.wpTotal_link (apiImpl_meets_paced cpu).beside
    (t := (.initial, s)) (standing_initial (loadedFamily cpu)) (Prog.wpTotal_of_wpFin htool)
  have hclean : (ryzenadjOnLinux (depth + 1) long args).WpTotal ((pacedEnv cpu).beside console)
      (fun _ x => Clean x.1) (.initial, s) := by
    apply Prog.wpTotal_mono hlink
    intro y x hx
    obtain ⟨b, ⟨w, hend⟩, hstanding⟩ := hx
    exact clean_of_standing hstanding hend.access
  refine Prog.ends_of_wpTotal (fun x o hguard => ?_) hclean
  cases o with
  | inl o => exact paced_answers cpu x o hguard.1
  | inr o =>
    cases o with
    | print l => exact ⟨(), x, rfl⟩
    | malloc size => exact ⟨false, x, rfl⟩

end RyzenAdj
