import RyzenAdj.Linux.Workbench
import RyzenAdj.Windows.Process

/-!
# A Windows computer to run on

WinRing0, a DLL with all its functions and memory that can be mapped, before the
same SMU. Every call that the backend makes is answered.
-/

namespace RyzenAdj
open Interaction Windows

structure WinBench where
  ols : Bool
  /-- The references to the one DLL there is. -/
  loads : Nat
  mapped : List View
  replaced : List View
  made : Bool
  objs : List Nat
  now : Nat
  registers : RegisterFile

def WinBench.initial : WinBench := ⟨false, 0, [], [], false, [], 0, ⟨0, []⟩⟩

namespace WinBench

def seen (s : WinBench) : WinState where
  ols := s.ols
  loads dll := if dll = 0 then s.loads else 0
  mapped := {v | v ∈ s.mapped}
  replaced := {v | v ∈ s.replaced}
  made := s.made
  objs := {obj | obj ∈ s.objs}
  clock := ⟨s.now, 0⟩

theorem seen_initial : initial.seen = .initial ⟨0, 0⟩ := by
  simp [seen, initial, WinState.initial]

def answer (cpu : Word → CpuInfo) (s : WinBench) :
    (o : Windows.Op) → Option (Windows.Ret o × WinBench)
  | .initializeOls => some ((), { s with ols := true })
  | .getDllStatus => some (olsDllNoError, s)
  | .deinitializeOls => some ((), { s with ols := false })
  | .writePciConfigDword _ reg val =>
    some ((), { s with registers :=
      if reg = nbPciRegAddrAddr then s.registers.select val else s.registers.store val })
  | .readPciConfigDword _ _ => some (s.registers.load, s)
  | .loadLibrary _ => some (some 0, { s with loads := s.loads + 1 })
  | .getProcAddress _ _ => some (true, s)
  | .freeLibrary 0 => some ((), { s with loads := s.loads - 1 })
  | .isInpOutDriverOpen _ => some (true, s)
  | .mapPhysToLin _ _ len =>
    if s.mapped.isEmpty then
      some ((some 0x10000, some 1), { s with
        mapped := ⟨some 1, 0x10000, len⟩ :: s.mapped
        replaced := s.replaced ++ s.mapped })
    else none
  | .unmapPhysicalMemory _ _ linAddr =>
    some ((), { s with mapped := s.mapped.filter (·.linAddr ≠ linAddr) })
  | .memory _ n => some (⟨List.replicate n 1, List.length_replicate⟩, s)
  | .mallocObj =>
    if 1 ∈ s.objs then none else some (some 1, { s with made := true, objs := 1 :: s.objs })
  | .deref _ => some ((), s)
  | .free obj => some ((), { s with objs := s.objs.filter (· ≠ obj) })
  | .malloc => some (true, s)
  | .calloc _ => some (true, s)
  | .getTickCount64 => some (s.now + 1, { s with now := s.now + 1 })
  | .sleep _ => some ((), s)
  | .processor (.getcpuid infoType) => some (cpu infoType, s)
  | .processor (.printf _) => some ((), s)
  | _ => none

theorem update_loads (m n : Nat) :
    Function.update (fun dll => if dll = 0 then m else 0) 0 n = fun dll =>
      if dll = 0 then n else 0 := by
  funext dll
  by_cases hdll : dll = 0
  · simp [hdll]
  · simp [hdll]

theorem answer_next {cpu : Word → CpuInfo} {s s' : WinBench} {o : Windows.Op} {r : Windows.Ret o}
    (h : s.answer cpu o = some (r, s')) :
    (winEnv (fun _ => true) cpu).next s.seen o r s'.seen := by
  cases o with
  | loadLibrary name =>
    cases h
    simp [winEnv, WinState.Move, seen, update_loads]
  | getProcAddress dll name =>
    cases h
    exact ⟨rfl, rfl⟩
  | freeLibrary dll =>
    cases dll with
    | succ _ => cases h
    | zero =>
      cases h
      simp [winEnv, WinState.Move, seen, update_loads]
  | mapPhysToLin dll physAddr len =>
    simp only [answer] at h
    split at h
    next hnone =>
      cases h
      have hempty : s.mapped = [] := List.isEmpty_iff.mp hnone
      simp [winEnv, WinState.Move, seen, hempty]
    next => cases h
  | unmapPhysicalMemory dll handle linAddr =>
    cases h
    simp [winEnv, WinState.Move, seen]
  | mallocObj =>
    simp only [answer] at h
    split at h
    next => cases h
    next hfree =>
      cases h
      refine ⟨hfree, ?_⟩
      simp only [seen, List.mem_cons]
      rfl
  | free obj =>
    cases h
    simp only [winEnv, WinState.Move, seen, List.mem_filter, decide_eq_true_eq]
    rfl
  | getTickCount64 =>
    cases h
    exact ⟨_, ⟨rfl, .inl (Nat.lt_succ_self _)⟩, rfl⟩
  | processor o =>
    cases o with
    | getcpuid infoType =>
      cases h
      exact ⟨rfl, rfl⟩
    | printf m =>
      cases h
      rfl
  | undefined => cases h
  | _ =>
    cases h
    rfl

section Programs
variable {cpu : Word → CpuInfo} {P : Signature} {own : (o : P.Op) → P.Ret o}

def answerBeside (cpu : Word → CpuInfo) (own : (o : P.Op) → P.Ret o) (s : WinBench) :
    (o : (windows.sum P).Op) → Option ((windows.sum P).Ret o × WinBench)
  | .inl o => s.answer cpu o
  | .inr o => some (own o, s)

theorem answerBeside_next {s s' : WinBench} {o : (windows.sum P).Op} {r : (windows.sum P).Ret o}
    (h : s.answerBeside cpu own o = some (r, s')) :
    ((winEnv (fun _ => true) cpu).beside P).next s.seen o r s'.seen := by
  cases o with
  | inl o => exact answer_next h
  | inr o =>
    cases h
    rfl

end Programs

end WinBench
end RyzenAdj
