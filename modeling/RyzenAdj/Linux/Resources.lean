import RyzenAdj.Api.Lifetime
import RyzenAdj.Linux.Kernel

/-!
# The resources of the library on Linux

What a process has open between the calls of `api.c`: the files or the libpci
objects of its access object, the one mapping of its window, and the lock file.
Every call keeps to what is there, and leaves it as the next call expects it.
-/

namespace RyzenAdj
open Interaction

def KmodObj.files (o : KmodObj) : Set (Int × String) :=
  openAt o.smnFd smnPath ∪ openAt o.pmTableFd pmTablePath ∪ openAt o.rawCmdFd smuRawCmdPath

namespace Lifetime

def files : Lifetime → Set (Int × String)
  | .live (.kmod o) => o.files
  | _ => ∅

def pciAccs : Lifetime → Set Nat
  | .live (.mem o) => {o.pciAcc}
  | _ => ∅

def pciDevs : Lifetime → Set (Nat × Nat)
  | .live (.mem o) => {(o.pciAcc, o.pciDev)}
  | _ => ∅

end Lifetime

/-- The range that the statics of the window stand for. -/
def PhyMap.mapped (m : PhyMap) : Set Mapping := {r | m.phyMap = some r.base ∧ r.len = m.phyMapLen}

def Statics.lockFile (p : Statics) : Set (Int × String) := openAt p.smuLockFd smuLockPath

/-- What the process has, but for the lock. -/
structure Owned (family : RyzenFamily) (b : Backend) (p : Statics) (k : Kernel) : Prop where
  flag : k.isSmu = b.isSmu
  files : k.files = p.lockFile ∪ b.access.files
  unique : Unique k.files
  smn : ∀ o, b.access = .live (.kmod o) → 0 ≤ o.smnFd
  streams : k.streams = ∅
  pciAccs : k.pciAccs = b.access.pciAccs
  pciDevs : k.pciDevs = b.access.pciDevs
  mappings : k.mappings = p.window.mapped
  unmapped : (∀ o, b.access ≠ .live (.mem o)) → p.window.phyMap = none
  family : ∀ f, p.cpuidFamily = some f → f = family

section Opening
variable {cpu : Word → CpuInfo} {k : Kernel}

theorem getPmTableSize_keeps : getPmTableSize.Wp (sysEnv cpu) (fun _ k' => k' = k) k := by
  refine ⟨trivial, fun fd k₁ hopen => ?_⟩
  apply Prog.wp_ite
  · intro hfail
    rcases hopen with ⟨-, hk₁⟩ | ⟨hfd, -, -⟩
    · exact hk₁
    · rw [hfail] at hfd
      exact absurd hfd (by decide)
  · intro hne
    rcases hopen with ⟨hfail, -⟩ | ⟨-, hfresh, rfl⟩
    · exact absurd hfail hne
    · have husable : Kernel.Usable
          { k with files := insert (fd, "/sys/kernel/ryzen_smu_drv/pm_table_size") k.files } fd :=
        ⟨_, .inl rfl, fun h => by rcases h with h | h <;> exact absurd h (by decide)⟩
      apply keeps_seq (readFull_keeps husable 4)
      intro t
      refine ⟨⟨_, .inl rfl⟩, fun _ k₂ hclose => ?_⟩
      have hk₂ : k₂ = k := hclose.trans (closed_insert hfresh)
      apply Prog.wp_ite
      · exact fun _ => hk₂
      · intro _
        apply Prog.wp_ite
        · exact fun _ => hk₂
        · exact fun _ => hk₂

/-- The files of a new object; none where there is no object. -/
def ObjectOpened (k : Kernel) (r : Option KmodObj) (k' : Kernel) : Prop :=
  match r with
  | none => k' = k
  | some o => 0 ≤ o.smnFd ∧ k' = { k with files := k.files ∪ o.files } ∧ Unique k'.files

theorem initOsAccessObjKmod_opens (hunique : Unique k.files) :
    initOsAccessObjKmod.Wp (sysEnv cpu) (ObjectOpened k) k := by
  apply keeps_call (o := .malloc) trivial fun _ _ h => h
  intro allocated
  apply Prog.wp_ite
  · exact fun _ => rfl
  · intro _
    apply keeps_seq getPmTableSize_keeps
    intro reported
    refine ⟨trivial, fun smnFd k₁ hsmn => ?_⟩
    obtain ⟨hfd, rfl, hunique₁⟩ := opened_files hsmn hunique
    apply Prog.wp_ite
    · intro hfail
      rw [hfail, openAt_failed, Set.union_empty]
      rfl
    · intro hne
      have hsmnFd : 0 ≤ smnFd := hfd.resolve_left hne
      refine ⟨trivial, fun rawCmdFd k₂ hraw => ?_⟩
      obtain ⟨-, rfl, hunique₂⟩ := opened_files hraw hunique₁
      -- the object without a PM table
      have hplain : ∀ size, ObjectOpened k (some ⟨smnFd, -1, rawCmdFd, size⟩)
          { k with files := k.files ∪ openAt smnFd smnPath ∪ openAt rawCmdFd smuRawCmdPath } := by
        intro size
        refine ⟨hsmnFd, ?_, hunique₂⟩
        simp only [KmodObj.files, openAt_failed, Set.union_empty,
          Set.union_assoc]
      apply Prog.wp_ite
      · exact fun _ => hplain _
      · intro _
        refine ⟨trivial, fun pmTableFd k₃ hpm => ?_⟩
        obtain ⟨-, rfl, hunique₃⟩ := opened_files hpm hunique₂
        apply Prog.wp_ite
        · intro hfail
          rw [hfail, openAt_failed, Set.union_empty]
          exact hplain _
        · intro _
          refine ⟨hsmnFd, ?_, hunique₃⟩
          have hset : k.files ∪ openAt smnFd smnPath ∪ openAt rawCmdFd smuRawCmdPath ∪
              openAt pmTableFd pmTablePath =
              k.files ∪ KmodObj.files ⟨smnFd, pmTableFd, rawCmdFd, reported.getD 0⟩ := by
            ext x
            simp only [KmodObj.files, Set.mem_union]
            tauto
          exact congrArg (fun F => { k with files := F }) hset

end Opening

section Calls
variable {cpu : Word → CpuInfo} {k : Kernel} {α β : Type} {Q : β → Kernel → Prop}

theorem system_seq {p : Prog sys α} {f : α → Prog linux β} {R : α → Kernel → Prop}
    (hp : p.Wp (sysEnv cpu) R k) (hf : ∀ a k', R a k' → (f a).Wp (kernelEnv cpu) Q k') :
    (p.inl.bind f).Wp (kernelEnv cpu) Q k := by
  have hinl : (p.inl (T := host)).Wp (kernelEnv cpu) R k := Prog.wp_inl.mpr hp
  exact Prog.wp_seq _ hinl hf

theorem linux_keeps {o : linux.Op} {f : linux.Ret o → Prog linux β} (hallowed : k.Allows o)
    (hkeep : ∀ r k', k.Move cpu o r k' → k' = k) (hf : ∀ r, (f r).Wp (kernelEnv cpu) Q k) :
    ((Prog.perform (S := linux) o).bind f).Wp (kernelEnv cpu) Q k := by
  refine ⟨hallowed, fun r k' hnext => ?_⟩
  rw [hkeep r k' hnext]
  exact hf r

theorem linux_moves {o : linux.Op} {f : linux.Ret o → Prog linux β} {k' : Kernel}
    (hallowed : k.Allows o) (hmove : ∀ r k₁, k.Move cpu o r k₁ → k₁ = k')
    (hf : ∀ r, (f r).Wp (kernelEnv cpu) Q k') :
    ((Prog.perform (S := linux) o).bind f).Wp (kernelEnv cpu) Q k := by
  refine ⟨hallowed, fun r k₁ hnext => ?_⟩
  rw [hmove r k₁ hnext]
  exact hf r

theorem isRyzenSmuDriverCompatible_keeps :
    Host.isRyzenSmuDriverCompatible.Wp (kernelEnv cpu) (fun _ k' => k' = k) k := by
  refine ⟨trivial, fun drvVer k₁ hopen => ?_⟩
  cases drvVer with
  | none => exact hopen
  | some stream =>
    obtain ⟨hfresh, rfl⟩ := hopen
    apply linux_keeps (o := .inr (.text stream)) (Set.mem_insert _ _) fun _ _ h => h
    intro text
    refine ⟨.inl rfl, fun _ k₂ hclose => ?_⟩
    have hset : insert stream k.streams \ {stream} = k.streams :=
      Set.insert_sdiff_self_of_notMem hfresh
    exact hclose.trans (congrArg (fun T => { k with streams := T }) hset)

/-- The libpci objects of a new object; none where there is no object. -/
def ObjectTaken (k : Kernel) (r : Option MemObj) (k' : Kernel) : Prop :=
  match r with
  | none => k' = k
  | some o => k' = { k with pciAccs := {o.pciAcc}, pciDevs := {(o.pciAcc, o.pciDev)} }

theorem initOsAccessObjMem_takes (haccs : k.pciAccs = ∅) (hdevs : k.pciDevs = ∅) :
    Host.initOsAccessObjMem.Wp (kernelEnv cpu) (ObjectTaken k) k := by
  apply linux_keeps (o := .inl .malloc) trivial fun _ _ h => h
  intro allocated
  apply Prog.wp_ite
  · exact fun _ => rfl
  · intro _
    refine ⟨trivial, fun acc k₁ halloc => ?_⟩
    cases acc with
    | none => exact halloc
    | some acc =>
      obtain ⟨hfresh, hnodev, rfl⟩ := halloc
      refine ⟨.inl rfl, fun dev k₂ hget => ?_⟩
      cases dev with
      | none =>
        have hk₂ : k₂ = { k with pciAccs := insert acc k.pciAccs } := hget
        rw [hk₂]
        have hset : insert acc k.pciAccs \ {acc} = k.pciAccs :=
          Set.insert_sdiff_self_of_notMem hfresh
        refine ⟨⟨.inl rfl, hnodev⟩, fun _ k₃ hcleanup => ?_⟩
        exact hcleanup.trans (congrArg (fun T => { k with pciAccs := T }) hset)
      | some dev =>
        obtain ⟨-, rfl⟩ := hget
        show _ = _
        rw [haccs, hdevs]
        simp only [insert_empty_eq]

end Calls

section Dispatch
variable {cpu : Word → CpuInfo} {family : RyzenFamily} {b : Backend} {p : Statics} {k : Kernel}

theorem Owned.closed_window (h : Owned family b p k) (hmem : ∀ o, b.access ≠ .live (.mem o)) :
    k.mappings = ∅ := by
  have hnone := h.unmapped hmem
  rw [h.mappings]
  ext r
  simp [PhyMap.mapped, hnone]

/-- What `init_os_access_obj` comes to. -/
def Made (family : RyzenFamily) (b : Backend) (p : Statics) (k : Kernel) (r : Option OsAccessObj)
    (k' : Kernel) : Prop :=
  ∃ detected, (∀ obj, r = some obj → obj.isKmod = detected) ∧ k'.lock = k.lock ∧
    Owned family ⟨b.isSmu || detected, r.elim .ended .live⟩ p k'

/-- A process that has no access object yet. -/
structure NoObject (family : RyzenFamily) (b : Backend) (p : Statics) (k : Kernel) : Prop where
  owned : Owned family b p k
  first : b.access = .notYet

namespace NoObject
variable (h : NoObject family b p k)
include h

theorem files : k.files = p.lockFile := by
  rw [h.owned.files, h.first]
  exact Set.union_empty _

theorem pciAccs : k.pciAccs = ∅ := by
  rw [h.owned.pciAccs, h.first]
  rfl

theorem pciDevs : k.pciDevs = ∅ := by
  rw [h.owned.pciDevs, h.first]
  rfl

theorem unmapped : p.window.phyMap = none :=
  h.owned.unmapped fun o ho => by rw [h.first] at ho; cases ho

/-- No object came of it. -/
theorem ended (detected : Bool) : Owned family ⟨b.isSmu || detected, .ended⟩ p
    { k with isSmu := b.isSmu || detected } := by
  refine ⟨rfl, ?_, h.owned.unique, (fun o ho => by cases ho), h.owned.streams, h.pciAccs, h.pciDevs,
    h.owned.mappings, fun _ => h.unmapped, h.owned.family⟩
  exact h.files.trans (Set.union_empty _).symm

theorem made_kmod {r : Option KmodObj} {k' : Kernel}
    (hopened : ObjectOpened { k with isSmu := true } r k') :
    Made family b p k (r.map OsAccessObj.kmod) k' := by
  have hflag : (b.isSmu || true) = true := Bool.or_true _
  refine ⟨true, ?_, ?_, ?_⟩
  · intro obj hobj
    obtain ⟨o, -, rfl⟩ := Option.map_eq_some_iff.mp hobj
    rfl
  · cases r with
    | none => rw [show k' = _ from hopened]
    | some o => rw [hopened.2.1]
  · cases r with
    | none =>
      have hk' : k' = { k with isSmu := b.isSmu || true } := by rw [hflag]; exact hopened
      rw [hk']
      exact h.ended true
    | some o =>
      obtain ⟨hsmn, hk', hunique⟩ := hopened
      rw [hk'] at hunique ⊢
      refine ⟨hflag.symm, congrArg (· ∪ o.files) h.files, hunique, ?_, h.owned.streams, h.pciAccs,
        h.pciDevs, h.owned.mappings, fun _ => h.unmapped, h.owned.family⟩
      intro o' ho'
      cases ho'
      exact hsmn

theorem made_mem {r : Option MemObj} {k' : Kernel} (htaken : ObjectTaken k r k') :
    Made family b p k (r.map OsAccessObj.mem) k' := by
  have hflag : (b.isSmu || false) = k.isSmu := by rw [Bool.or_false, h.owned.flag]
  refine ⟨false, ?_, ?_, ?_⟩
  · intro obj hobj
    obtain ⟨o, -, rfl⟩ := Option.map_eq_some_iff.mp hobj
    rfl
  · cases r with
    | none => rw [show k' = _ from htaken]
    | some o => rw [show k' = _ from htaken]
  · cases r with
    | none =>
      have hk' : k' = { k with isSmu := b.isSmu || false } := by rw [hflag]; exact htaken
      rw [hk']
      exact h.ended false
    | some o =>
      rw [show k' = _ from htaken]
      refine ⟨hflag.symm, ?_, h.owned.unique, (fun o ho => by cases ho), h.owned.streams, rfl, rfl,
        h.owned.mappings, fun _ => h.unmapped, h.owned.family⟩
      exact h.files.trans (Set.union_empty _).symm

theorem initOsAccessObj_made : Host.initOsAccessObj.Wp (kernelEnv cpu) (Made family b p k) k := by
  have hrest : ∀ detected : Bool, Prog.Wp (kernelEnv cpu) (if detected then
        (Host.system (.setIsSmu true)).bind fun _ => initOsAccessObjKmod.inl.bind fun o =>
          Prog.ret (o.map OsAccessObj.kmod)
      else Host.initOsAccessObjMem.bind fun o => Prog.ret (o.map OsAccessObj.mem))
      (Made family b p k) k := by
    intro detected
    apply Prog.wp_ite
    · intro _
      apply linux_moves (o := .inl (.setIsSmu true)) trivial fun _ _ hmove => hmove
      intro _
      have hunique : Unique ({ k with isSmu := true } : Kernel).files := h.owned.unique
      exact system_seq (initOsAccessObjKmod_opens hunique) fun _ _ hopened => h.made_kmod hopened
    · intro _
      exact Prog.wp_seq _ (initOsAccessObjMem_takes h.pciAccs h.pciDevs)
        fun _ _ htaken => h.made_mem htaken
  apply linux_keeps (o := .inr (.lstat _)) trivial fun _ _ hmove => hmove
  intro (there : Bool)
  apply Prog.wp_ite
  · intro _
    apply Prog.wp_seq _ isRyzenSmuDriverCompatible_keeps
    intro detected k₁ hk₁
    rw [hk₁]
    exact hrest detected
  · intro _
    exact hrest false

end NoObject

section Window
variable {window : PhyMap}

theorem mapped_none (h : window.phyMap = none) : window.mapped = ∅ := by
  ext r
  simp [PhyMap.mapped, h]

theorem mapped_some {base : Nat} (h : window.phyMap = some base) :
    window.mapped = {⟨base, window.phyMapLen⟩} := by
  ext r
  obtain ⟨rbase, rlen⟩ := r
  simp [PhyMap.mapped, h, eq_comm]

theorem unmapPhy_unmaps (h : k.mappings = window.mapped) :
    (Host.unmapPhy window).Wp (kernelEnv cpu) (fun _ k' => k' = { k with mappings := ∅ }) k := by
  unfold Host.unmapPhy
  cases hmap : window.phyMap with
  | none =>
    rw [mapped_none hmap] at h
    show k = _
    rw [← h]
  | some base =>
    rw [mapped_some hmap] at h
    refine ⟨?_, fun _ k' hnext => ?_⟩
    · show _ ∈ k.mappings
      rw [h]
      rfl
    · have hset : k.mappings \ {⟨base, window.phyMapLen⟩} = ∅ := by rw [h, sdiff_self]; rfl
      exact hnext.trans (congrArg (fun M => { k with mappings := M }) hset)

theorem memory_allowed (h : k.mappings = window.mapped) {src n : Nat}
    (hsrc : phyTablePtr window = some src) (hroom : ¬phyTableAvail window < n) :
    k.Allows (.inr (.memory src n)) := by
  obtain ⟨base, hmap, rfl⟩ := Option.map_eq_some_iff.mp hsrc
  have havail : phyTableAvail window = if window.phyMapLen < window.phyMapOffset then 0
      else window.phyMapLen - window.phyMapOffset := by simp only [phyTableAvail, hmap]
  show n = 0 ∨ _
  by_cases hn : n = 0
  · exact .inl hn
  · right
    refine ⟨⟨base, window.phyMapLen⟩, ?_, ?_⟩
    · rw [h, mapped_some hmap]
      rfl
    · rw [havail] at hroom
      constructor
      · show base ≤ base + _
        omega
      · show base + _ + n ≤ base + window.phyMapLen
        split at hroom
        · omega
        · omega

theorem initMemObjMem_maps (h : k.mappings = window.mapped) (physAddr : BitVec 64) (size : Nat) :
    (Host.initMemObjMem window physAddr size).Wp (kernelEnv cpu)
      (fun r k' => k' = { k with mappings := r.2.mapped }) k := by
  apply linux_keeps (o := .inr .sysconf) trivial fun _ _ hmove => hmove
  intro (sz : BitVec 64)
  apply Prog.wp_seq _ (unmapPhy_unmaps h)
  intro _ k₁ hk₁
  subst hk₁
  have hnone : (PhyMap.mapped ⟨none, 0, 0⟩) = ∅ := mapped_none rfl
  refine ⟨trivial, fun (fd : Int) k₂ hopen => ?_⟩
  apply Prog.wp_ite
  · intro hneg
    rcases hopen with ⟨-, hk₂⟩ | ⟨hfd, -, -⟩
    · rw [hk₂, ← hnone]
      exact rfl
    · exact absurd hneg (Int.not_lt.mpr hfd)
  · intro hnonneg
    rcases hopen with ⟨hfail, -⟩ | ⟨-, hfresh, hk₂⟩
    · rw [hfail] at hnonneg
      exact absurd (by decide) hnonneg
    · rw [hk₂]
      refine ⟨.inl rfl, fun (mapped : Bool) k₃ hmap => ?_⟩
      cases mapped with
      | false =>
        rw [show k₃ = _ from hmap]
        refine ⟨⟨_, .inl rfl⟩, fun _ k₄ hclose => ?_⟩
        have hk₄ : k₄ = { k with mappings := ∅ } := hclose.trans (closed_insert hfresh)
        rw [hk₄, ← hnone]
        exact rfl
      | true =>
        rw [show k₃ = _ from hmap]
        refine ⟨⟨_, .inl rfl⟩, fun _ k₄ hclose => ?_⟩
        let r : Mapping := phyMapping (pageSize sz) physAddr size
        have hfresh' : ∀ path, (fd, path) ∉ ({ k with mappings := insert r ∅ } : Kernel).files :=
          hfresh
        have hk₄ : k₄ = { k with mappings := insert r ∅ } := hclose.trans (closed_insert hfresh')
        rw [hk₄, insert_empty_eq]
        have hwindow : PhyMap.mapped
            ⟨some r.base, r.len, (phyWindow (pageSize sz) physAddr size).2.1⟩ = {r} :=
          mapped_some rfl
        rw [← hwindow]
        exact rfl

end Window

section Release

theorem closeOpen_closes {F : Set (Int × String)} {fd : Int} {path : String}
    (hfiles : k.files = F ∪ openAt fd path) (hunique : Unique k.files)
    (hother : ∀ x ∈ F, x.2 ≠ path) :
    (Host.closeOpen fd).Wp (kernelEnv cpu) (fun _ k' => k' = { k with files := F }) k := by
  apply Prog.wp_ite
  · intro hfd
    refine ⟨⟨path, ?_⟩, fun _ k' hmove => ?_⟩
    · rw [hfiles]
      exact .inr ⟨hfd, rfl⟩
    · exact hmove.trans (closed_openAt hfiles hunique hfd hother)
  · intro hfd
    rw [openAt_neg (Int.not_le.mp hfd), Set.union_empty] at hfiles
    rw [← hfiles]
    exact rfl

theorem freeOsAccessObjKmod_closes {o : KmodObj} (hfiles : k.files = p.lockFile ∪ o.files)
    (hunique : Unique k.files) : (Host.freeOsAccessObjKmod o).Wp (kernelEnv cpu)
      (fun _ k' => k' = { k with files := p.lockFile }) k := by
  have hpath : ∀ {x : Int × String} {fd : Int} {path : String}, x ∈ openAt fd path → x.2 = path :=
    fun hx => by rw [hx.2]
  have hsmn : k.files = p.lockFile ∪ openAt o.rawCmdFd smuRawCmdPath ∪
      openAt o.pmTableFd pmTablePath ∪ openAt o.smnFd smnPath := by
    rw [hfiles]
    ext x
    simp only [KmodObj.files, Set.mem_union]
    tauto
  have hclose : (Host.closeOpen o.smnFd).Wp (kernelEnv cpu) (fun _ k' => k' =
      { k with
        files := p.lockFile ∪ openAt o.rawCmdFd smuRawCmdPath ∪ openAt o.pmTableFd pmTablePath })
      k := by
    apply closeOpen_closes hsmn hunique
    intro x hx
    rcases hx with (hx | hx) | hx <;> rw [hpath hx] <;> decide
  apply Prog.wp_seq _ hclose
  intro _ k₁ hk₁
  have hunique₁ : Unique k₁.files := by
    rw [hk₁]
    exact hunique.mono fun x hx => by rw [hsmn]; exact .inl hx
  have hclose : (Host.closeOpen o.pmTableFd).Wp (kernelEnv cpu) (fun _ k' => k' =
      { k₁ with files := p.lockFile ∪ openAt o.rawCmdFd smuRawCmdPath }) k₁ := by
    apply closeOpen_closes (by rw [hk₁]) hunique₁
    intro x hx
    rcases hx with hx | hx <;> rw [hpath hx] <;> decide
  apply Prog.wp_seq _ hclose
  intro _ k₂ hk₂
  have hunique₂ : Unique k₂.files := by
    rw [hk₂]
    exact hunique₁.mono fun x hx => by rw [hk₁]; exact .inl hx
  have hclose : (Host.closeOpen o.rawCmdFd).Wp (kernelEnv cpu)
      (fun _ k' => k' = { k₂ with files := p.lockFile }) k₂ := by
    apply closeOpen_closes (by rw [hk₂]) hunique₂
    intro x hx
    rw [hpath hx]
    decide
  apply Prog.wp_mono _ hclose
  intro _ k₃ hk₃
  rw [hk₃, hk₂, hk₁]

theorem freeOsAccessObjMem_releases {window : PhyMap} {o : MemObj}
    (hmap : k.mappings = window.mapped) (haccs : k.pciAccs = {o.pciAcc})
    (hdevs : k.pciDevs = {(o.pciAcc, o.pciDev)}) :
    (Host.freeOsAccessObjMem window o).Wp (kernelEnv cpu)
      (fun _ k' => k' = { k with mappings := ∅, pciAccs := ∅, pciDevs := ∅ }) k := by
  apply Prog.wp_seq _ (unmapPhy_unmaps hmap)
  intro _ k₁ hk₁
  subst hk₁
  have hdev : {x ∈ k.pciDevs | x.2 ≠ o.pciDev} = ∅ := by
    ext x
    rw [hdevs]
    simp
    rintro rfl
    rfl
  have hacc : k.pciAccs \ {o.pciAcc} = ∅ := by rw [haccs, sdiff_self]; rfl
  refine ⟨⟨o.pciAcc, ?_⟩, fun _ k₂ hk₂ => ?_⟩
  · show _ ∈ k.pciDevs
    rw [hdevs]
    rfl
  · have hk₂' : k₂ = { k with mappings := ∅, pciDevs := ∅ } :=
      hk₂.trans (congrArg (fun D => { k with mappings := ∅, pciDevs := D }) hdev)
    rw [hk₂']
    refine ⟨⟨?_, fun dev hdev => hdev⟩, fun _ k₃ hk₃ => ?_⟩
    · show _ ∈ k.pciAccs
      rw [haccs]
      rfl
    · exact hk₃.trans
        (congrArg (fun A => { k with mappings := ∅, pciDevs := ∅, pciAccs := A }) hacc)

end Release

section Object
variable {obj : OsAccessObj} (h : Owned family b p k) (hlive : b.access = .live obj)
  (hflag : b.isSmu = obj.isKmod)
include h hlive hflag

theorem initMemObj_owned (physAddr : BitVec 64) (size : Nat) :
    (Host.initMemObj p.window physAddr size).Wp (kernelEnv cpu) (fun r k' => k'.lock = k.lock ∧
      Owned family b { p with window := r.2 } k') k := by
  refine ⟨trivial, fun (isSmu : Bool) k₁ hnext => ?_⟩
  obtain ⟨rfl, rfl⟩ := hnext
  apply Prog.wp_ite
  · exact fun _ => ⟨rfl, h⟩
  · intro hmem
    apply Prog.wp_mono _ (initMemObjMem_maps h.mappings physAddr size)
    intro r k' hk'
    subst hk'
    refine ⟨rfl, h.flag, h.files, h.unique, h.smn, h.streams, h.pciAccs, h.pciDevs, rfl, ?_,
      h.family⟩
    intro hno
    cases obj with
    | mem o => exact absurd hlive (hno o)
    | kmod o => exact absurd (h.flag.trans hflag) hmem

theorem copyPmTable_keeps (size : Nat) :
    (Host.copyPmTable p.window obj size).Wp (kernelEnv cpu) (fun _ k' => k' = k) k := by
  refine ⟨trivial, fun (isSmu : Bool) k₁ hnext => ?_⟩
  obtain ⟨hisSmu, rfl⟩ := hnext
  rw [h.flag, hflag] at hisSmu
  rw [hisSmu]
  cases obj with
  | kmod o =>
    have hfile : 0 ≤ o.pmTableFd → k₁.Usable o.pmTableFd := by
      intro hfd
      refine ⟨pmTablePath, ?_, fun hpath =>
        by rcases hpath with h | h <;> exact absurd h (by decide)⟩
      rw [h.files, hlive]
      exact .inr (.inl (.inr ⟨hfd, rfl⟩))
    exact Prog.wp_inl.mpr (copyPmTableKmod_keeps hfile size)
  | mem o =>
    show (Host.copyPmTableMem p.window size).Wp (kernelEnv cpu) _ _
    unfold Host.copyPmTableMem
    cases hsrc : phyTablePtr p.window with
    | none => rfl
    | some src =>
      apply Prog.wp_ite
      · exact fun _ => rfl
      · intro hroom
        exact linux_keeps (o := .inr (.memory src size)) (memory_allowed h.mappings hsrc hroom)
          (fun _ _ hmove => hmove) fun _ => rfl

omit hlive hflag in
theorem comparePmTable_keeps (buffer : List Byte) :
    (Host.comparePmTable p.window buffer).Wp (kernelEnv cpu) (fun _ k' => k' = k) k := by
  apply linux_keeps (o := .inl .isSmu) trivial fun _ _ hmove => hmove.2
  intro (isSmu : Bool)
  apply Prog.wp_ite
  · exact fun _ => rfl
  · intro _
    unfold Host.comparePmTableMem
    cases hsrc : phyTablePtr p.window with
    | none => rfl
    | some src =>
      apply Prog.wp_ite
      · exact fun _ => rfl
      · intro hroom
        exact linux_keeps (o := .inr (.memory src _)) (memory_allowed h.mappings hsrc hroom)
          (fun _ _ hmove => hmove) fun _ => rfl

theorem freeOsAccessObj_owned : (Host.freeOsAccessObj p.window obj).Wp (kernelEnv cpu)
    (fun window k' => k'.lock = k.lock ∧
      Owned family ⟨false, .ended⟩ { p with window := window } k') k := by
  have hfiles := h.files
  have haccs := h.pciAccs
  have hdevs := h.pciDevs
  rw [hlive] at hfiles haccs hdevs
  refine ⟨trivial, fun (isSmu : Bool) k₁ hnext => ?_⟩
  obtain ⟨hisSmu, rfl⟩ := hnext
  rw [h.flag, hflag] at hisSmu
  rw [hisSmu]
  cases obj with
  | kmod o =>
    have hnone : p.window.phyMap = none := h.unmapped fun o' ho' => by rw [hlive] at ho'; cases ho'
    apply Prog.wp_seq _ (freeOsAccessObjKmod_closes hfiles h.unique)
    intro _ k₂ hk₂
    rw [hk₂]
    apply linux_moves (o := .inl (.setIsSmu false)) trivial fun _ _ hmove => hmove
    intro _
    refine ⟨rfl, rfl, (Set.union_empty _).symm, ?_, (fun o ho => by cases ho), h.streams, haccs,
      hdevs, h.mappings, fun _ => hnone, h.family⟩
    exact h.unique.mono fun x hx => by rw [hfiles]; exact .inl hx
  | mem o =>
    apply Prog.wp_seq _ (freeOsAccessObjMem_releases h.mappings haccs hdevs)
    intro _ k₂ hk₂
    rw [hk₂]
    apply linux_moves (o := .inl (.setIsSmu false)) trivial fun _ _ hmove => hmove
    intro _
    exact ⟨rfl, rfl, hfiles, h.unique, (fun o ho => by cases ho), h.streams, rfl, rfl,
      (mapped_none rfl).symm, fun _ => rfl, h.family⟩

end Object
end Dispatch
end RyzenAdj
