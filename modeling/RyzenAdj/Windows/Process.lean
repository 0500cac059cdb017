import RyzenAdj.Linux.Pace
import RyzenAdj.Linux.Turn
import RyzenAdj.Windows.Backend

/-!
# The library as a Windows process

What WinRing0, `inpoutx64.DLL` and the heap keep for the process, what a call
needs of it, and what there is between two calls of `api.c`. Mappings that a
later `MapPhysToLin` has put out of sight stay where they are.
-/

namespace RyzenAdj
open Interaction Windows

structure View where
  handle : Option Nat
  linAddr : Nat
  len : Nat

structure WinState where
  /-- WinRing0 is initialised. -/
  ols : Bool
  /-- The references to a DLL. -/
  loads : Nat → Nat
  mapped : Set View
  /-- What was mapped when `MapPhysToLin` was called for another range. -/
  replaced : Set View
  /-- An access object was made. -/
  made : Bool
  /-- Those that are not freed yet. -/
  objs : Set Nat
  clock : Clock

def WinState.initial (clock : Clock) : WinState := ⟨false, fun _ => 0, ∅, ∅, false, ∅, clock⟩

namespace WinState

def Allows (s : WinState) : Windows.Op → Prop
  | .deinitializeOls => s.ols = true
  | .writePciConfigDword _ _ _ => s.ols = true
  | .readPciConfigDword _ _ => s.ols = true
  | .getProcAddress dll _ => 0 < s.loads dll
  | .freeLibrary dll => 0 < s.loads dll
  | .isInpOutDriverOpen dll => 0 < s.loads dll
  | .mapPhysToLin dll _ _ => 0 < s.loads dll
  | .unmapPhysicalMemory dll handle linAddr =>
    0 < s.loads dll ∧ ∃ len, ⟨handle, linAddr, len⟩ ∈ s.mapped
  | .memory linAddr n => ∃ v ∈ s.mapped, v.linAddr = linAddr ∧ n ≤ v.len
  | .deref obj => obj ∈ s.objs
  | .free obj => obj ∈ s.objs
  | .undefined => False
  | _ => True

/-- How a call changes what there is; `exports` are the functions that the DLL has. -/
def Move (exports : String → Bool) (cpu : Word → CpuInfo) (s : WinState) :
    (o : Windows.Op) → Windows.Ret o → WinState → Prop
  | .initializeOls, _, s' => s' = { s with ols := true }
  | .deinitializeOls, _, s' => s' = { s with ols := false }
  | .loadLibrary _, none, s' => s' = s
  | .loadLibrary _, some dll, s' =>
    s' = { s with loads := Function.update s.loads dll (s.loads dll + 1) }
  | .getProcAddress _ name, found, s' => found = exports name ∧ s' = s
  | .freeLibrary dll, _, s' =>
    s' = { s with loads := Function.update s.loads dll (s.loads dll - 1) }
  | .mapPhysToLin _ _ _, (none, _), s' => s' = { s with replaced := s.replaced ∪ s.mapped }
  | .mapPhysToLin _ _ len, (some linAddr, handle), s' =>
    (∀ v ∈ s.mapped, v.linAddr ≠ linAddr) ∧
      s' = { s with
        mapped := insert ⟨handle, linAddr, len⟩ s.mapped
        replaced := s.replaced ∪ s.mapped }
  | .unmapPhysicalMemory _ _ linAddr, _, s' =>
    s' = { s with mapped := {v ∈ s.mapped | v.linAddr ≠ linAddr} }
  | .mallocObj, none, s' => s' = s
  | .mallocObj, some obj, s' =>
    obj ∉ s.objs ∧ s' = { s with made := true, objs := insert obj s.objs }
  | .free obj, _, s' => s' = { s with objs := s.objs \ {obj} }
  | .getTickCount64, now, s' => ∃ clock, s.clock.Tick now clock ∧ s' = { s with clock := clock }
  | .processor (.getcpuid infoType), regs, s' => regs = cpu infoType ∧ s' = s
  | _, _, s' => s' = s

end WinState

def winEnv (exports : String → Bool) (cpu : Word → CpuInfo) : Env windows WinState where
  guard := WinState.Allows
  next := WinState.Move exports cpu

/-- What the statics stand for while there is an object. -/
structure Window (exports : String → Bool) (p : WinStatics) (obj : Nat) (s : WinState) : Prop where
  object : ∀ dll, (p.objs obj).inpoutDll = some dll → 0 < s.loads dll
  loaded : ∀ dll, p.gfpUnmapPhysicalMemory = some dll → 0 < s.loads dll
  unmap : ∀ linAddr, p.pdwLinAddr = some linAddr →
    exports "UnmapPhysicalMemory" = true ∧ p.gfpUnmapPhysicalMemory.isSome
  shown : ∀ linAddr, p.pdwLinAddr = some linAddr →
    ⟨p.physicalMemoryHandle, linAddr, p.phyMapLen⟩ ∈ s.mapped
  hidden : ∀ v ∈ s.mapped, v ∈ s.replaced ∨ p.pdwLinAddr = some v.linAddr

/-- Nothing but what was mapped before another range was. -/
structure WinState.Released (s : WinState) : Prop where
  objs : s.objs = ∅
  mapped : s.mapped ⊆ s.replaced
  /-- WinRing0 is left initialised only where no object was made; nothing else was taken then. -/
  ols : s.ols = true → s.made = false ∧ s.mapped = ∅ ∧ ∀ dll, s.loads dll = 0

/-- What the process has, by what has become of its object. -/
inductive Possession (exports : String → Bool) (p : WinStatics) (s : WinState) :
    Lifetime → Prop where
  | notYet (hnone : p.pdwLinAddr = none) (hunmap : p.gfpUnmapPhysicalMemory = none)
      (hmade : s.made = false) (hobjs : s.objs = ∅) (hmapped : s.mapped = ∅)
      (hloads : ∀ dll, s.loads dll = 0) :
      Possession exports p s .notYet
  | live (obj : Nat) (hols : s.ols = true) (hobjs : s.objs = {obj})
      (hwindow : Window exports p obj s) : Possession exports p s (.live (objPtr obj))
  | ended (hnone : p.pdwLinAddr = none) (hreleased : s.Released) : Possession exports p s .ended

structure WinStanding (exports : String → Bool) (family : RyzenFamily) (b : Backend)
    (p : WinStatics) (s : WinState) : Prop where
  flag : b.isSmu = false
  family : ∀ f, p.cpuidFamily = some f → f = family
  possession : Possession exports p s b.access

section Functions
variable {exports : String → Bool} {cpu : Word → CpuInfo} {p : WinStatics} {s : WinState}
    {obj : Nat}

theorem winProcessorImpl_meets (s : WinState) :
    Windows.processorImpl.MeetsTotal ((processorEnv cpu).both (Env.only fun _ => True))
      (winEnv exports cpu) (fun _ _ s' => s' = s) := by
  intro _ _ t o ht _
  subst ht
  cases o with
  | getcpuid infoType =>
    exact ⟨trivial, fun regs s' hnext => ⟨((), ()), ⟨hnext.1, trivial⟩, hnext.2⟩⟩
  | printf m => exact ⟨trivial, fun _ s' hnext => ⟨((), ()), ⟨trivial, trivial⟩, hnext⟩⟩

theorem cpuidGetFamily_windows (h : ∀ f, p.cpuidFamily = some f → f = loadedFamily cpu) :
    (Windows.cpuidGetFamily p).WpTotal (winEnv exports cpu) (fun r s' => r.1 = loadedFamily cpu ∧
      r.2 = { p with cpuidFamily := some (loadedFamily cpu) } ∧ s' = s) s := by
  have hload := Prog.wpTotal_both (cpuidGetFamily_loads h) (cpuidGetFamily_ends p.cpuidFamily ())
  apply Prog.wpTotal_seq (Prog.wpTotal_link (winProcessorImpl_meets s) (r := ()) rfl hload)
  intro r s' hr
  obtain ⟨⟨f, cache⟩, _⟩ := r
  obtain ⟨_, ⟨⟨hf, hcache⟩, -⟩, hs'⟩ := hr
  have hcache' : cache = some (loadedFamily cpu) := hcache
  rw [hcache']
  exact ⟨hf, rfl, hs'⟩

theorem initOsAccessObj_windows (h : Possession exports p s .notYet) :
    (Windows.initOsAccessObj p).WpTotal (winEnv exports cpu)
      (fun r s' => r.2.cpuidFamily = p.cpuidFamily ∧ (∀ obj, r.1 = some obj → obj.isKmod = false) ∧
        Possession exports r.2 s' (r.1.elim .ended .live)) s := by
  cases h with
  | notYet hnone hunmap hmade hobjs hmapped hloads =>
    have hfailed : Possession exports p { s with ols := true } .ended :=
      .ended hnone ⟨hobjs, by rw [hmapped]; exact Set.empty_subset _,
        fun _ => ⟨hmade, hmapped, hloads⟩⟩
    refine ⟨trivial, fun _ s₁ hnext => ?_⟩
    rw [show s₁ = { s with ols := true } from hnext]
    refine ⟨trivial, fun dllStatus s₂ hnext => ?_⟩
    rw [show s₂ = { s with ols := true } from hnext]
    apply Prog.wpTotal_ite
    · intro _
      refine ⟨trivial, fun made s₃ hnext => ?_⟩
      cases made with
      | none =>
        rw [show s₃ = { s with ols := true } from hnext]
        exact ⟨rfl, (fun _ h => by cases h), hfailed⟩
      | some obj =>
        obtain ⟨-, rfl⟩ := hnext
        refine ⟨.inl rfl, fun _ s₄ hnext => ?_⟩
        rw [show s₄ = _ from hnext]
        refine ⟨rfl, fun obj' hobj' => ?_, .live obj rfl ?_ ?_⟩
        · cases hobj'
          rfl
        · rw [hobjs]
          exact insert_empty_eq obj
        · constructor
          · intro dll hdll
            simp [Function.update_self] at hdll
          · intro dll hdll
            rw [show p.gfpUnmapPhysicalMemory = some dll from hdll] at hunmap
            cases hunmap
          · intro linAddr hlin
            rw [show p.pdwLinAddr = some linAddr from hlin] at hnone
            cases hnone
          · intro linAddr hlin
            rw [show p.pdwLinAddr = some linAddr from hlin] at hnone
            cases hnone
          · intro v hv
            rw [show s.mapped = ∅ from hmapped] at hv
            exact hv.elim
    · exact fun _ => ⟨rfl, (fun _ h => by cases h), hfailed⟩

theorem unmapWindow_windows (h : Window exports p obj s) :
    (Windows.unmapWindow p).WpTotal (winEnv exports cpu)
      (fun p' s' => p'.pdwLinAddr = none ∧ p'.objs = p.objs ∧ p'.cpuidFamily = p.cpuidFamily ∧
        s'.mapped ⊆ s'.replaced ∧ s'.objs = s.objs ∧ s'.ols = s.ols ∧ s'.loads = s.loads) s := by
  unfold Windows.unmapWindow
  cases hlin : p.pdwLinAddr with
  | none =>
    refine ⟨hlin, rfl, rfl, fun v hv => ?_, rfl, rfl, rfl⟩
    rcases h.hidden v hv with hreplaced | hshown
    · exact hreplaced
    · rw [hlin] at hshown
      cases hshown
  | some linAddr =>
    obtain ⟨-, hunmap⟩ := h.unmap linAddr hlin
    obtain ⟨dll, hdll⟩ := Option.isSome_iff_exists.mp hunmap
    rw [hdll]
    refine ⟨⟨h.loaded dll hdll, p.phyMapLen, h.shown linAddr hlin⟩, fun _ s' hnext => ?_⟩
    rw [show s' = _ from hnext]
    refine ⟨rfl, rfl, rfl, fun v hv => ?_, rfl, rfl, rfl⟩
    rcases h.hidden v hv.1 with hreplaced | hshown
    · exact hreplaced
    · rw [hlin] at hshown
      exact absurd (Option.some.inj hshown).symm hv.2

theorem freeOsAccessObj_windows (hols : s.ols = true) (hobjs : s.objs = {obj})
    (h : Window exports p obj s) :
    (Windows.freeOsAccessObj p obj).WpTotal (winEnv exports cpu)
      (fun p' s' => p'.cpuidFamily = p.cpuidFamily ∧ Possession exports p' s' .ended) s := by
  refine ⟨hols, fun _ s₁ hnext => ?_⟩
  rw [show s₁ = { s with ols := false } from hnext]
  have hwindow : Window exports p obj { s with ols := false } :=
    ⟨h.object, h.loaded, h.unmap, h.shown, h.hidden⟩
  apply Prog.wpTotal_seq (unmapWindow_windows hwindow)
  intro p' s₂ h₂
  obtain ⟨hnone, hobj, hfamily, hmapped, hobjs₂, hols₂, hloads⟩ := h₂
  -- the object itself is freed in the end
  have hfree : ∀ s₃ : WinState, s₃.objs = s₂.objs → s₃.ols = false → s₃.mapped ⊆ s₃.replaced →
      ((Windows.call (.free obj)).bind fun _ => Prog.ret p').WpTotal (winEnv exports cpu)
        (fun p' s' => p'.cpuidFamily = p.cpuidFamily ∧ Possession exports p' s' .ended) s₃ := by
    intro s₃ hobjs₃ hols₃ hmapped₃
    have hmem : s₃.objs = {obj} := hobjs₃.trans (hobjs₂.trans hobjs)
    have hown : obj ∈ s₃.objs := by
      rw [hmem]
      rfl
    refine ⟨hown, fun _ s₄ hnext => ?_⟩
    rw [show s₄ = { s₃ with objs := s₃.objs \ {obj} } from hnext]
    refine ⟨hfamily, .ended hnone ⟨?_, hmapped₃, fun hopen => ?_⟩⟩
    · rw [hmem]
      exact Set.sdiff_self
    · rw [show s₃.ols = true from hopen] at hols₃
      cases hols₃
  have hown₂ : obj ∈ s₂.objs := by
    rw [show s₂.objs = s.objs from hobjs₂, hobjs]
    rfl
  simp only [hobj]
  refine ⟨hown₂, fun _ s₂' hnext => ?_⟩
  rw [show s₂' = s₂ from hnext]
  simp only [Prog.ret_bind]
  cases hdll : (p.objs obj).inpoutDll with
  | none => exact hfree s₂ rfl hols₂ hmapped
  | some dll =>
    refine ⟨?_, fun _ s₃ hnext => ?_⟩
    · show 0 < s₂.loads dll
      rw [hloads]
      exact h.object dll hdll
    · rw [show s₃ = _ from hnext]
      exact hfree _ rfl hols₂ hmapped

def pointer (exports : String → Bool) (dll : Nat) (name : String) : Option Nat :=
  if exports name then some dll else none

theorem pointer_some {dll d : Nat} {name : String} (h : pointer exports dll name = some d) :
    exports name = true ∧ d = dll := by
  unfold pointer at h
  split at h
  · exact ⟨by assumption, (Option.some.inj h).symm⟩
  · cases h

theorem procAddress_windows {dll : Nat} (h : 0 < s.loads dll) (name : String) :
    (Windows.procAddress dll name).WpTotal (winEnv exports cpu)
      (fun f s' => f = pointer exports dll name ∧ s' = s) s := by
  refine ⟨h, fun found s' hnext => ?_⟩
  obtain ⟨rfl, rfl⟩ := hnext
  exact ⟨rfl, rfl⟩

/-- What a call on the live object leaves: the window, and the rest as it was. -/
structure Kept (exports : String → Bool) (p p' : WinStatics) (obj : Nat) (s' : WinState) :
    Prop where
  family : p'.cpuidFamily = p.cpuidFamily
  ols : s'.ols = true
  objs : s'.objs = {obj}
  window : Window exports p' obj s'

theorem mapWindow_windows {dll : Nat} (hdll : 0 < s.loads dll)
    (hunmap : exports "UnmapPhysicalMemory" = true ∧ p.gfpUnmapPhysicalMemory.isSome)
    (h : Kept exports p p obj s) (physAddr : BitVec 64) (size : Nat) :
    (Windows.mapWindow p obj dll dll physAddr size).WpTotal (winEnv exports cpu)
      (fun r s' => Kept exports p r.2 obj s') s := by
  refine ⟨hdll, fun r s' hnext => ?_⟩
  obtain ⟨linAddr, handle⟩ := r
  cases linAddr with
  | none =>
    rw [show s' = { s with replaced := s.replaced ∪ s.mapped } from hnext]
    exact ⟨rfl, h.ols, h.objs, h.window.object, h.window.loaded, (fun _ h => by cases h),
      (fun _ h => by cases h), fun v hv => .inl (.inr hv)⟩
  | some linAddr =>
    obtain ⟨-, rfl⟩ := hnext
    have hown : obj ∈ s.objs := by
      rw [h.objs]
      rfl
    refine ⟨hown, fun _ s₂ hnext => ?_⟩
    rw [show s₂ = _ from hnext]
    refine ⟨rfl, h.ols, h.objs, ?_, h.window.loaded, fun _ _ => hunmap, ?_, ?_⟩
    · intro dll' hdll'
      have hsame : some dll = some dll' := by
        simpa only [Function.update_self] using hdll'
      rw [← Option.some.inj hsame]
      exact hdll
    · intro lin hlin
      cases hlin
      exact .inl rfl
    · intro v hv
      rcases hv with rfl | hv
      · exact .inr rfl
      · exact .inl (.inr hv)

theorem mapTable_windows {dll : Nat} (hdll : 0 < s.loads dll)
    (hopen : p.gfpIsInpOutDriverOpen = some dll)
    (hmap : ∀ map, p.gfpMapPhysToLin = some map → map = dll)
    (hunmap : p.gfpUnmapPhysicalMemory.isSome → exports "UnmapPhysicalMemory" = true)
    (h : Kept exports p p obj s) (physAddr : BitVec 64) (size : Nat) :
    (Windows.mapTable p obj dll physAddr size).WpTotal (winEnv exports cpu)
      (fun r s' => Kept exports p r.2 obj s') s := by
  unfold Windows.mapTable
  simp only [hopen]
  refine ⟨hdll, fun driverOpen s₁ hnext => ?_⟩
  rw [show s₁ = s from hnext]
  refine Prog.wpTotal_ite (fun _ => h) fun _ => ?_
  refine Prog.wpTotal_ite (fun _ => h) fun hsome => ?_
  have hunmapPtr : p.gfpUnmapPhysicalMemory.isSome :=
    Option.isSome_iff_ne_none.mpr (by simpa using hsome)
  cases hmapPtr : p.gfpMapPhysToLin with
  | none => exact h
  | some map =>
    rw [hmap map hmapPtr]
    exact mapWindow_windows hdll ⟨hunmap hunmapPtr, hunmapPtr⟩ h physAddr size

def WinStatics.fetched (p : WinStatics) (exports : String → Bool) (dll : Nat) : WinStatics :=
  { p with
    gfpIsInpOutDriverOpen := pointer exports dll "IsInpOutDriverOpen"
    gfpGetPhysLong := pointer exports dll "GetPhysLong"
    gfpMapPhysToLin := pointer exports dll "MapPhysToLin"
    gfpUnmapPhysicalMemory := pointer exports dll "UnmapPhysicalMemory" }

def WinState.loadedMore (s : WinState) (dll : Nat) : WinState :=
  { s with loads := Function.update s.loads dll (s.loads dll + 1) }

theorem loadedMore_self (s : WinState) (dll : Nat) : 0 < (s.loadedMore dll).loads dll := by
  simp [WinState.loadedMore]

theorem loadedMore_keeps {d : Nat} (dll : Nat) (h : 0 < s.loads d) :
    0 < (s.loadedMore dll).loads d := by
  by_cases heq : d = dll
  · rw [heq]
    exact loadedMore_self s dll
  · simpa [WinState.loadedMore, heq] using h

theorem Kept.fetched (h : Kept exports p p obj s) (dll : Nat) :
    Kept exports (p.fetched exports dll) (p.fetched exports dll) obj (s.loadedMore dll) := by
  refine ⟨rfl, h.ols, h.objs, ?_, ?_, ?_, h.window.shown, h.window.hidden⟩
  · intro d hd
    exact loadedMore_keeps dll (h.window.object d hd)
  · intro d hd
    obtain ⟨-, rfl⟩ := pointer_some hd
    exact loadedMore_self s d
  · intro linAddr hlin
    obtain ⟨hunmap, -⟩ := h.window.unmap linAddr hlin
    refine ⟨hunmap, ?_⟩
    simp [WinStatics.fetched, pointer, hunmap]

theorem initMemObj_windows (hexport : exports "IsInpOutDriverOpen" = true)
    (h : Kept exports p p obj s) (physAddr : BitVec 64) (size : Nat) :
    (Windows.initMemObj p obj physAddr size).WpTotal (winEnv exports cpu)
      (fun r s' => Kept exports p r.2 obj s') s := by
  refine ⟨trivial, fun loaded s₁ hnext => ?_⟩
  cases loaded with
  | none =>
    rw [show s₁ = s from hnext]
    exact h
  | some dll =>
    rw [show s₁ = s.loadedMore dll from hnext]
    have hdll := loadedMore_self s dll
    apply Prog.wpTotal_seq (procAddress_windows hdll _)
    intro isOpen _ hopen
    obtain ⟨rfl, rfl⟩ := hopen
    apply Prog.wpTotal_seq (procAddress_windows hdll _)
    intro getPhysLong _ hget
    obtain ⟨rfl, rfl⟩ := hget
    apply Prog.wpTotal_seq (procAddress_windows hdll _)
    intro map _ hmap
    obtain ⟨rfl, rfl⟩ := hmap
    apply Prog.wpTotal_seq (procAddress_windows hdll _)
    intro unmap _ hunmap
    obtain ⟨rfl, rfl⟩ := hunmap
    have hunmap : (p.fetched exports dll).gfpUnmapPhysicalMemory.isSome →
        exports "UnmapPhysicalMemory" = true := by
      intro hsome
      obtain ⟨d, hd⟩ := Option.isSome_iff_exists.mp hsome
      exact (pointer_some hd).1
    apply Prog.wpTotal_mono (mapTable_windows hdll (if_pos hexport)
      (fun map hmap => (pointer_some hmap).2) hunmap (h.fetched dll) physAddr size)
    intro r s' hr
    exact ⟨hr.family, hr.ols, hr.objs, hr.window⟩

end Functions
end RyzenAdj
