import Mathlib.Data.Set.Insert
import RyzenAdj.Linux.Host
import RyzenAdj.Linux.MappedWindow
import RyzenAdj.Smu.Bracket

/-!
# What the kernel keeps for a process

The descriptors, streams, libpci objects and mappings that a process has, and
its share in the lock file: what a call needs of them and how they change. A
descriptor that `open` returns is in use for nothing else.
-/

namespace RyzenAdj
open Interaction

/-- The lock as this process has it; `unlocked` where there is no lock to be had. -/
inductive LockUse where
  | free
  | held
  | unlocked
  deriving DecidableEq

structure Kernel where
  isSmu : Bool
  files : Set (Int × String)
  streams : Set Nat
  pciAccs : Set Nat
  pciDevs : Set (Nat × Nat)
  mappings : Set Mapping
  lock : LockUse

def Kernel.initial : Kernel := ⟨false, ∅, ∅, ∅, ∅, ∅, .free⟩

def smuLockPath : String := "/run/lock/ryzenadj.lock"
def smnPath : String := "/sys/kernel/ryzen_smu_drv/smn"
def smuRawCmdPath : String := "/sys/kernel/ryzen_smu_drv/smu_raw_cmd"
def pmTablePath : String := "/sys/kernel/ryzen_smu_drv/pm_table"

namespace Kernel

/-- An open descriptor; one of a mailbox file is for the process that may use the mailbox. -/
def Usable (k : Kernel) (fd : Int) : Prop :=
  ∃ path, (fd, path) ∈ k.files ∧ (path = smnPath ∨ path = smuRawCmdPath → k.lock ≠ .free)

def HasDev (k : Kernel) (dev : Nat) : Prop := ∃ acc, (acc, dev) ∈ k.pciDevs

def Allows (k : Kernel) : linux.Op → Prop
  | .inl (.closeFd fd) => ∃ path, (fd, path) ∈ k.files
  | .inl (.lseek fd) => k.Usable fd
  | .inl (.write fd _) => k.Usable fd
  | .inl (.read fd _) => k.Usable fd
  | .inl (.pciGetDev acc) => acc ∈ k.pciAccs
  | .inl (.pciWriteLong dev _ _) => k.HasDev dev ∧ k.lock ≠ .free
  | .inl (.pciReadLong dev _) => k.HasDev dev ∧ k.lock ≠ .free
  | .inl .undefined => False
  | .inr (.flockEx fd) => (fd, smuLockPath) ∈ k.files ∧ k.lock = .free
  | .inr (.flockUn fd) => (fd, smuLockPath) ∈ k.files
  | .inr (.text stream) => stream ∈ k.streams
  | .inr (.fclose stream) => stream ∈ k.streams
  | .inr (.pciFreeDev dev) => k.HasDev dev
  | .inr (.pciCleanup acc) => acc ∈ k.pciAccs ∧ ∀ dev, (acc, dev) ∉ k.pciDevs
  | .inr (.mmap fd _ _) => (fd, "/dev/mem") ∈ k.files
  | .inr (.munmap base len) => ⟨base, len⟩ ∈ k.mappings
  | .inr (.memory start n) => n = 0 ∨ ∃ r ∈ k.mappings, r.Holds start n
  | _ => True

def Opened (k : Kernel) (path : String) (fd : Int) (k' : Kernel) : Prop :=
  (fd = -1 ∧ k' = k) ∨
    (0 ≤ fd ∧ (∀ p, (fd, p) ∉ k.files) ∧ k' = { k with files := insert (fd, path) k.files })

def closed (k : Kernel) (fd : Int) : Kernel := { k with files := {x ∈ k.files | x.1 ≠ fd} }

/-- The lock after a `flock` that comes back with this. -/
def flocked (k : Kernel) : FlockResult → Kernel
  | .acquired => { k with lock := .held }
  | .error e => if e = eWouldBlock ∨ e = eIntr then k else { k with lock := .unlocked }

/-- How a call changes what there is, on a processor that answers `cpu`. -/
def Move (cpu : Word → CpuInfo) (k : Kernel) : (o : linux.Op) → linux.Ret o → Kernel → Prop
  | .inl .isSmu, r, k' => r = k.isSmu ∧ k' = k
  | .inl (.setIsSmu b), _, k' => k' = { k with isSmu := b }
  | .inl (.openFile path), fd, k' => k.Opened path fd k'
  | .inl (.closeFd fd), _, k' => k' = k.closed fd
  | .inl .pciAlloc, none, k' => k' = k
  | .inl .pciAlloc, some acc, k' =>
    acc ∉ k.pciAccs ∧ (∀ dev, (acc, dev) ∉ k.pciDevs) ∧
      k' = { k with pciAccs := insert acc k.pciAccs }
  | .inl (.pciGetDev _), none, k' => k' = k
  | .inl (.pciGetDev acc), some dev, k' =>
    ¬k.HasDev dev ∧ k' = { k with pciDevs := insert (acc, dev) k.pciDevs }
  | .inr .openSmuLock, (fd : Int), k' =>
    ∃ k₁, k.Opened smuLockPath fd k₁ ∧
      k' = { k₁ with lock := if fd = -1 then .unlocked else .free }
  | .inr (.flockEx _), r, k' => k' = k.flocked r
  | .inr (.flockUn _), _, k' => k' = { k with lock := .free }
  | .inr (.fopen _), none, k' => k' = k
  | .inr (.fopen _), some stream, k' =>
    stream ∉ k.streams ∧ k' = { k with streams := insert stream k.streams }
  | .inr (.fclose stream), _, k' => k' = { k with streams := k.streams \ {stream} }
  | .inr (.pciFreeDev dev), _, k' => k' = { k with pciDevs := {x ∈ k.pciDevs | x.2 ≠ dev} }
  | .inr (.pciCleanup acc), _, k' => k' = { k with pciAccs := k.pciAccs \ {acc} }
  | .inr (.mmap _ len offset), (mapped : Bool), k' =>
    k' = if mapped then { k with mappings := insert ⟨offset, len⟩ k.mappings } else k
  | .inr (.munmap base len), _, k' => k' = { k with mappings := k.mappings \ {⟨base, len⟩} }
  | .inr (.processor (.getcpuid infoType)), regs, k' => regs = cpu infoType ∧ k' = k
  | _, _, k' => k' = k

end Kernel

def kernelEnv (cpu : Word → CpuInfo) : Env linux Kernel where
  guard := Kernel.Allows
  next := Kernel.Move cpu

section Files
variable {k k' : Kernel} {fd : Int} {path : String}

/-- A descriptor stands for one open file. -/
def Unique (files : Set (Int × String)) : Prop := ∀ x ∈ files, ∀ y ∈ files, x.1 = y.1 → x = y

theorem Unique.mono {files files' : Set (Int × String)} (h : Unique files) (hle : files' ⊆ files) :
    Unique files' := fun x hx y hy => h x (hle hx) y (hle hy)

/-- A descriptor of a file; none if it is negative. -/
def openAt (fd : Int) (path : String) : Set (Int × String) := {x | 0 ≤ fd ∧ x = (fd, path)}

theorem mem_openAt {x : Int × String} : x ∈ openAt fd path ↔ 0 ≤ fd ∧ x = (fd, path) := Iff.rfl

theorem openAt_neg (h : fd < 0) : openAt fd path = ∅ := by
  ext x
  simp only [mem_openAt, Set.mem_empty_iff_false, iff_false, not_and]
  omega

theorem openAt_failed : openAt (-1) path = ∅ := openAt_neg (by decide)

theorem opened_files (h : k.Opened path fd k') (hunique : Unique k.files) :
    (fd = -1 ∨ 0 ≤ fd) ∧ k' = { k with files := k.files ∪ openAt fd path } ∧
      Unique (k.files ∪ openAt fd path) := by
  rcases h with ⟨rfl, rfl⟩ | ⟨hfd, hfresh, rfl⟩
  · rw [openAt_failed, Set.union_empty]
    exact ⟨.inl rfl, rfl, hunique⟩
  · have hset : openAt fd path = {(fd, path)} := by
      ext x
      simp [mem_openAt, hfd]
    rw [hset, Set.union_singleton]
    refine ⟨.inr hfd, rfl, ?_⟩
    intro x hx y hy hxy
    rcases hx with rfl | hx
    · rcases hy with rfl | hy
      · rfl
      · exact absurd (show (fd, y.2) ∈ k.files by rw [show fd = y.1 from hxy]; exact hy) (hfresh _)
    · rcases hy with rfl | hy
      · exact absurd (show (fd, x.2) ∈ k.files by rw [show fd = x.1 from hxy.symm]; exact hx)
          (hfresh _)
      · exact hunique x hx y hy hxy

theorem closed_openAt {F : Set (Int × String)} (hfiles : k.files = F ∪ openAt fd path)
    (hunique : Unique k.files) (hfd : 0 ≤ fd) (hother : ∀ x ∈ F, x.2 ≠ path) :
    k.closed fd = { k with files := F } := by
  have hset : {x ∈ k.files | x.1 ≠ fd} = F := by
    ext x
    constructor
    · intro hx
      obtain ⟨hx, hne⟩ := hx
      rw [hfiles] at hx
      rcases hx with hx | hx
      · exact hx
      · rw [mem_openAt.mp hx |>.2] at hne
        exact absurd rfl hne
    · intro hx
      have hmem : x ∈ k.files := by rw [hfiles]; exact .inl hx
      refine ⟨hmem, fun heq => ?_⟩
      have hown : (fd, path) ∈ k.files := by rw [hfiles]; exact .inr ⟨hfd, rfl⟩
      have hsame := hunique x hmem _ hown heq
      exact hother x hx (by rw [hsame])
  rw [Kernel.closed, hset]

/-- A descriptor that was opened and closed again. -/
theorem closed_insert (hfresh : ∀ p, (fd, p) ∉ k.files) :
    Kernel.closed { k with files := insert (fd, path) k.files } fd = k := by
  have hset : {x ∈ insert (fd, path) k.files | x.1 ≠ fd} = k.files := by
    ext x
    constructor
    · intro hx
      obtain ⟨hx, hne⟩ := hx
      rcases hx with rfl | hx
      · exact absurd rfl hne
      · exact hx
    · intro hx
      refine ⟨.inr hx, fun heq => hfresh x.2 ?_⟩
      rw [← heq]
      exact hx
  rw [Kernel.closed, hset]

end Files

section Transfers
variable {cpu : Word → CpuInfo} {k : Kernel} {fd : Int}

abbrev sysEnv (cpu : Word → CpuInfo) : Env sys Kernel := (kernelEnv cpu).first

theorem readFull_keeps (h : k.Usable fd) (len : Nat) :
    (readFull fd len).Wp (sysEnv cpu) (fun _ k' => k' = k) k := by
  apply readFull_rule (Q := fun _ _ k' => k' = k) (fun _ k' => k' = k) rfl
  · intro _ t _ ht
    rw [ht]
    exact h
  · exact fun _ _ _ _ ht hnext => hnext.trans ht
  · exact fun _ _ _ _ _ ht _ hnext => hnext.trans ht
  · exact fun _ _ _ _ _ _ ht _ hnext => hnext.trans ht
  · exact fun _ _ _ _ _ _ ht _ hnext => hnext.trans ht
  · exact fun _ _ _ ht => ht

theorem writeFull_keeps (h : k.Usable fd) (bytes : List Byte) :
    (writeFull fd bytes).Wp (sysEnv cpu) (fun _ k' => k' = k) k := by
  apply writeFull_rule (Q := fun _ k' => k' = k) (fun _ k' => k' = k) rfl
  · intro _ t _ ht
    rw [ht]
    exact h
  · exact fun _ _ _ _ ht hnext => hnext.trans ht
  · exact fun _ _ _ _ _ ht _ hnext => hnext.trans ht
  · exact fun _ _ _ _ _ _ ht hnext => hnext.trans ht
  · exact fun _ _ _ ht => ht

theorem keeps_call {α : Type} {o : Sys.Op} {f : Sys.Ret o → Prog sys α} {Q : α → Kernel → Prop}
    (hallowed : k.Allows (.inl o)) (hkeep : ∀ r k', k.Move cpu (.inl o) r k' → k' = k)
    (hf : ∀ r, (f r).Wp (sysEnv cpu) Q k) :
    ((Prog.perform (S := sys) o).bind f).Wp (sysEnv cpu) Q k := by
  refine ⟨hallowed, fun r k' hnext => ?_⟩
  rw [hkeep r k' hnext]
  exact hf r

theorem keeps_seq {α β : Type} {p : Prog sys α} {f : α → Prog sys β} {Q : β → Kernel → Prop}
    (hp : p.Wp (sysEnv cpu) (fun _ k' => k' = k) k) (hf : ∀ a, (f a).Wp (sysEnv cpu) Q k) :
    (p.bind f).Wp (sysEnv cpu) Q k := by
  apply Prog.wp_seq _ hp
  intro a k' hk'
  rw [hk']
  exact hf a

theorem setError_keeps {α : Type} (a : α) :
    (Sys.smnIoSetError.bind fun _ => Prog.ret a).Wp (sysEnv cpu) (fun _ k' => k' = k) k :=
  keeps_call (o := .smnIoSetError) trivial (fun _ _ h => h) fun _ => rfl

theorem smnRegReadKmod_keeps {o : KmodObj} (h : k.Usable o.smnFd) (addr : Word) :
    (smnRegReadKmod o addr).Wp (sysEnv cpu) (fun _ k' => k' = k) k := by
  apply keeps_call (o := .lseek o.smnFd) h fun _ _ h => h
  intro seekError
  apply Prog.wp_ite
  · exact fun _ => setError_keeps _
  · intro _
    apply keeps_seq (writeFull_keeps h _)
    intro writeError
    apply Prog.wp_ite
    · exact fun _ => setError_keeps _
    · intro _
      apply keeps_call (o := .lseek o.smnFd) h fun _ _ h => h
      intro seekError
      apply Prog.wp_ite
      · exact fun _ => setError_keeps _
      · intro _
        apply keeps_seq (readFull_keeps h _)
        intro t
        apply Prog.wp_ite
        · exact fun _ => setError_keeps _
        · exact fun _ => rfl

theorem smnRegWriteKmod_keeps {o : KmodObj} (h : k.Usable o.smnFd) (addr data : Word) :
    (smnRegWriteKmod o addr data).Wp (sysEnv cpu) (fun _ k' => k' = k) k := by
  apply keeps_call (o := .lseek o.smnFd) h fun _ _ h => h
  intro seekError
  apply Prog.wp_ite
  · exact fun _ => setError_keeps _
  · intro _
    apply keeps_seq (writeFull_keeps h _)
    intro writeError
    apply Prog.wp_ite
    · exact fun _ => setError_keeps ()
    · exact fun _ => rfl

theorem smuRawCmdKmod_keeps {o : KmodObj} (h : 0 ≤ o.rawCmdFd → k.Usable o.rawCmdFd)
    (msg rep argBase id : Word) (args : Args) :
    (smuRawCmdKmod o msg rep argBase id args).Wp (sysEnv cpu) (fun _ k' => k' = k) k := by
  apply Prog.wp_ite
  · exact fun _ => rfl
  · intro hfd
    have husable := h (by omega)
    have hwrite : (seekWriteFull o.rawCmdFd (rawRequest msg rep argBase id args)).Wp (sysEnv cpu)
        (fun _ k' => k' = k) k := by
      apply keeps_call (o := .lseek o.rawCmdFd) husable fun _ _ h => h
      intro seekError
      cases seekError with
      | some e => rfl
      | none => exact writeFull_keeps husable _
    have hread : (seekReadFull o.rawCmdFd 28).Wp (sysEnv cpu) (fun _ k' => k' = k) k := by
      apply keeps_call (o := .lseek o.rawCmdFd) husable fun _ _ h => h
      intro seekError
      cases seekError with
      | some e => rfl
      | none => exact readFull_keeps husable _
    apply keeps_seq hwrite
    intro r
    cases r with
    | some e => rfl
    | none =>
      apply keeps_seq hread
      intro t
      cases t.error with
      | some e => rfl
      | none => rfl

theorem copyPmTableKmod_keeps {o : KmodObj} (h : 0 ≤ o.pmTableFd → k.Usable o.pmTableFd)
    (size : Nat) : (copyPmTableKmod o size).Wp (sysEnv cpu) (fun _ k' => k' = k) k := by
  apply Prog.wp_ite
  · exact fun _ => rfl
  · intro hopen
    have husable := h (by omega)
    apply Prog.wp_ite
    · exact fun _ => rfl
    · intro _
      apply keeps_call (o := .lseek o.pmTableFd) husable fun _ _ h => h
      intro seekError
      cases seekError with
      | some e => rfl
      | none => exact readFull_keeps husable _

theorem smnRegReadMem_keeps {o : MemObj} (h : k.HasDev o.pciDev) (hlock : k.lock ≠ .free)
    (addr : Word) : (smnRegReadMem o addr).Wp (sysEnv cpu) (fun _ k' => k' = k) k := by
  have hread : (Sys.pciReadLong o.pciDev nbPciRegDataAddr).Wp (sysEnv cpu)
      (fun _ k' => k' = k) k :=
    keeps_call (f := Prog.ret) (o := .pciReadLong o.pciDev nbPciRegDataAddr) ⟨h, hlock⟩
      (fun _ _ h => h) fun _ => rfl
  apply keeps_call (o := .pciWriteLong _ _ _) ⟨h, hlock⟩ fun _ _ h => h
  intro selected
  apply Prog.wp_ite
  · intro _
    exact keeps_call (o := .smnIoSetError) trivial (fun _ _ h => h) fun _ => hread
  · exact fun _ => hread

theorem smnRegWriteMem_keeps {o : MemObj} (h : k.HasDev o.pciDev) (hlock : k.lock ≠ .free)
    (addr data : Word) :
    (smnRegWriteMem o addr data).Wp (sysEnv cpu) (fun _ k' => k' = k) k := by
  apply keeps_call (o := .pciWriteLong _ _ _) ⟨h, hlock⟩ fun _ _ h => h
  intro selected
  apply Prog.wp_ite
  · exact fun _ => setError_keeps _
  · intro _
    apply keeps_call (o := .pciWriteLong _ _ _) ⟨h, hlock⟩ fun _ _ h => h
    intro written
    apply Prog.wp_ite
    · exact fun _ => rfl
    · exact fun _ => setError_keeps ()

end Transfers
end RyzenAdj
