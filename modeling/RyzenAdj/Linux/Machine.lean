import RyzenAdj.Interaction.Concurrent
import RyzenAdj.Linux.Aim
import RyzenAdj.Linux.Kernel

/-!
# Processes side by side

Any number of processes on one machine, interleaved system call by system call.
Each has descriptors of its own; the lock file, the mailbox files of the driver
and the PCI index register are the same for all.
-/

namespace RyzenAdj
open Interaction

/-- A descriptor of one of the mailbox files. -/
def Kernel.MailboxFile (k : Kernel) (fd : Int) : Prop :=
  ∃ path, (fd, path) ∈ k.files ∧ MailboxPath path

/-- The calls that reach the mailbox. -/
def Kernel.Touches (k : Kernel) : linux.Op → Prop
  | .inl (.lseek fd) => k.MailboxFile fd
  | .inl (.write fd _) => k.MailboxFile fd
  | .inl (.read fd _) => k.MailboxFile fd
  | .inl (.pciWriteLong _ _ _) => True
  | .inl (.pciReadLong _ _) => True
  | _ => False

/-- The calls that go on with what was selected before. -/
def MovesData : linux.Op → Prop
  | .inl (.write _ _) => True
  | .inl (.read _ _) => True
  | .inl (.pciWriteLong _ reg _) => reg ≠ nbPciRegAddrAddr
  | .inl (.pciReadLong _ _) => True
  | _ => False

def Aim.AtMailbox (k : Kernel) : Aim → Prop
  | .file fd => k.MailboxFile fd
  | .pci => True

/-- What there is for each process, what it has selected, and the process that touched the
mailbox last. -/
structure Computer (ι : Type) where
  kernel : ι → Kernel
  aim : ι → Option Aim
  last : Option ι

/-- There is a lock file to be had, and `flock` locks it for one process at a time. -/
def Computer.Grants {ι : Type} (s : Computer ι) (i : ι) : (o : linux.Op) → linux.Ret o → Prop
  | .inr .openSmuLock, (fd : Int) => fd ≠ -1
  | .inr (.flockEx _), .acquired => ∀ j, j ≠ i → (s.kernel j).lock ≠ .held
  | .inr (.flockEx _), .error e => e = eWouldBlock ∨ e = eIntr
  | _, _ => True

structure Computer.Move {ι : Type} (cpu : Word → CpuInfo) (s : Computer ι) (i : ι) (o : linux.Op)
    (r : linux.Ret o) (s' : Computer ι) : Prop where
  kernel : (s.kernel i).Move cpu o r (s'.kernel i)
  aim : aimMove (s.aim i) o r (s'.aim i)
  grants : s.Grants i o r
  others : ∀ j, j ≠ i → s'.kernel j = s.kernel j ∧ s'.aim j = s.aim j
  touched : (s.kernel i).Touches o → s'.last = some i
  untouched : ¬(s.kernel i).Touches o → s'.last = s.last

def Computer.entered {ι : Type} [DecidableEq ι] (s : Computer ι) (i : ι) : Computer ι :=
  { s with kernel := Function.update s.kernel i .initial, aim := Function.update s.aim i none }

/-- A machine whose processes run these programs, with calls of their own beside the system's. -/
def machine (cpu : Word → CpuInfo) (ι : Type) [DecidableEq ι] {P : Signature} {π α : Type}
    (prog : π → Prog (linux.sum P) α) : System (linux.sum P) ι (Computer ι) π α where
  prog _ c := prog c
  enter i s := s.entered i
  next i s
    | .inl o, r, s' => s.Move cpu i o r s'
    | .inr _, _, s' => s' = s

section Moves
variable {cpu : Word → CpuInfo} {k k' : Kernel} {o : linux.Op} {r : linux.Ret o}

/-- A file that is new under a descriptor nobody had. -/
structure Kernel.Adds (k k' : Kernel) (path : String) : Prop where
  intro ::
  fresh : ∃ fd, (∀ p, (fd, p) ∉ k.files) ∧ k'.files = insert (fd, path) k.files

theorem opened_cases {path : String} {fd : Int} (h : k.Opened path fd k') :
    (fd = -1 ∧ k' = k) ∨ (fd ≠ -1 ∧ k.Adds k' path ∧ k'.lock = k.lock) := by
  rcases h with ⟨hfd, hk⟩ | ⟨hfd, hfresh, rfl⟩
  · exact .inl ⟨hfd, hk⟩
  · exact .inr ⟨by omega, ⟨fd, hfresh, rfl⟩, rfl⟩

theorem flocked_files (k : Kernel) (res : FlockResult) : (k.flocked res).files = k.files := by
  cases res with
  | acquired => rfl
  | error e =>
    simp only [Kernel.flocked]
    split
    · rfl
    · rfl

/-- What a call can do to the files and the lock. -/
theorem move_cases (h : k.Move cpu o r k') :
    (k'.files ⊆ k.files ∧ (k'.lock = k.lock ∨ k'.lock = .free)) ∨
    (∃ path, o = .inl (.openFile path) ∧ k.Adds k' path ∧ k'.lock = k.lock) ∨
    (∃ fd : Int, (⟨o, r⟩ : Sigma linux.Ret) = ⟨.inr .openSmuLock, fd⟩ ∧
      ((fd = -1 ∧ k'.files = k.files ∧ k'.lock = .unlocked) ∨
        (k.Adds k' smuLockPath ∧ k'.lock = .free))) ∨
    ∃ (fd : Int) (res : FlockResult),
      (⟨o, r⟩ : Sigma linux.Ret) = ⟨.inr (.flockEx fd), res⟩ ∧ k' = k.flocked res := by
  have hsame : k' = k → k'.files ⊆ k.files ∧ (k'.lock = k.lock ∨ k'.lock = .free) := by
    intro heq
    rw [heq]
    exact ⟨Set.Subset.refl _, .inl rfl⟩
  cases o with
  | inl o =>
    cases o with
    | openFile path =>
      rcases opened_cases h with ⟨-, hk⟩ | ⟨-, hadds, hlock⟩
      · exact .inl (hsame hk)
      · exact .inr (.inl ⟨path, rfl, hadds, hlock⟩)
    | closeFd fd =>
      rw [show k' = k.closed fd from h]
      exact .inl ⟨Set.sep_subset _ _, .inl rfl⟩
    | setIsSmu b =>
      rw [show k' = { k with isSmu := b } from h]
      exact .inl ⟨Set.Subset.refl _, .inl rfl⟩
    | isSmu => exact .inl (hsame h.2)
    | pciAlloc =>
      cases r with
      | none => exact .inl (hsame h)
      | some acc =>
        rw [h.2.2]
        exact .inl ⟨Set.Subset.refl _, .inl rfl⟩
    | pciGetDev acc =>
      cases r with
      | none => exact .inl (hsame h)
      | some dev =>
        rw [h.2]
        exact .inl ⟨Set.Subset.refl _, .inl rfl⟩
    | _ => exact .inl (hsame h)
  | inr o =>
    cases o with
    | openSmuLock =>
      obtain ⟨k₁, hopened, rfl⟩ := h
      rcases opened_cases hopened with ⟨hfd, rfl⟩ | ⟨hfd, hadds, -⟩
      · exact .inr (.inr (.inl ⟨r, rfl, .inl ⟨hfd, rfl, if_pos hfd⟩⟩))
      · exact .inr (.inr (.inl ⟨r, rfl, .inr ⟨⟨hadds.fresh⟩, if_neg hfd⟩⟩))
    | flockEx fd => exact .inr (.inr (.inr ⟨fd, r, rfl, h⟩))
    | flockUn fd =>
      rw [show k' = { k with lock := .free } from h]
      exact .inl ⟨Set.Subset.refl _, .inr rfl⟩
    | fopen path =>
      cases r with
      | none => exact .inl (hsame h)
      | some stream =>
        rw [h.2]
        exact .inl ⟨Set.Subset.refl _, .inl rfl⟩
    | mmap fd len offset =>
      rw [show k' = _ from h]
      split
      · exact .inl ⟨Set.Subset.refl _, .inl rfl⟩
      · exact .inl ⟨Set.Subset.refl _, .inl rfl⟩
    | fclose stream =>
      rw [show k' = { k with streams := k.streams \ {stream} } from h]
      exact .inl ⟨Set.Subset.refl _, .inl rfl⟩
    | pciFreeDev dev =>
      rw [show k' = { k with pciDevs := {x ∈ k.pciDevs | x.2 ≠ dev} } from h]
      exact .inl ⟨Set.Subset.refl _, .inl rfl⟩
    | pciCleanup acc =>
      rw [show k' = { k with pciAccs := k.pciAccs \ {acc} } from h]
      exact .inl ⟨Set.Subset.refl _, .inl rfl⟩
    | munmap base len =>
      rw [show k' = { k with mappings := k.mappings \ {⟨base, len⟩} } from h]
      exact .inl ⟨Set.Subset.refl _, .inl rfl⟩
    | processor o =>
      cases o with
      | getcpuid infoType => exact .inl (hsame h.2)
      | printf m => exact .inl (hsame h)
    | _ => exact .inl (hsame h)

theorem unique_move (h : k.Move cpu o r k') (hunique : Unique k.files) : Unique k'.files := by
  have hadds : ∀ {path}, k.Adds k' path → Unique k'.files := by
    intro path hadds
    obtain ⟨fd, hfresh, hfiles⟩ := hadds
    have hother : ∀ y ∈ k.files, fd ≠ y.1 := fun y hy heq => hfresh y.2 (heq ▸ hy)
    rw [hfiles]
    intro x hx y hy hxy
    rcases hx with rfl | hx
    · rcases hy with rfl | hy
      · rfl
      · exact absurd hxy (hother y hy)
    · rcases hy with rfl | hy
      · exact absurd hxy.symm (hother x hx)
      · exact hunique x hx y hy hxy
  rcases move_cases h with ⟨hsub, -⟩ | ⟨path, -, hnew, -⟩ | ⟨fd, -, hopen⟩ | ⟨fd, res, -, rfl⟩
  · exact hunique.mono hsub
  · exact hadds hnew
  · rcases hopen with ⟨-, hfiles, -⟩ | ⟨hnew, -⟩
    · rw [hfiles]
      exact hunique
    · exact hadds hnew
  · rw [flocked_files]
    exact hunique

theorem mailboxFile_move {fd : Int} (h : k.Move cpu o r k') (ho : ∀ path, o ≠ .inl (.openFile path))
    (hfile : k'.MailboxFile fd) : k.MailboxFile fd := by
  obtain ⟨p, hmem, hmail⟩ := hfile
  rcases move_cases h with ⟨hsub, -⟩ | ⟨path, hopen, -⟩ | ⟨fd', -, hopen⟩ | ⟨fd', res, -, rfl⟩
  · exact ⟨p, hsub hmem, hmail⟩
  · exact absurd hopen (ho path)
  · rcases hopen with ⟨-, hfiles, -⟩ | ⟨⟨lockFd, -, hfiles⟩, -⟩
    · exact ⟨p, hfiles ▸ hmem, hmail⟩
    · rw [hfiles] at hmem
      rcases hmem with heq | hmem
      · rw [show p = smuLockPath from congrArg Prod.snd heq] at hmail
        exact absurd hmail (by decide)
      · exact ⟨p, hmem, hmail⟩
  · rw [flocked_files] at hmem
    exact ⟨p, hmem, hmail⟩

/-- Who has the lock had it, or has just been given it. -/
theorem held_move (h : k.Move cpu o r k') (hheld : k'.lock = .held) :
    k.lock = .held ∨ ∃ fd, (⟨o, r⟩ : Sigma linux.Ret) = ⟨.inr (.flockEx fd), .acquired⟩ := by
  rcases move_cases h with ⟨-, hlock⟩ | ⟨path, -, -, hlock⟩ | ⟨fd, -, hopen⟩ | ⟨fd, res, heq, rfl⟩
  · rcases hlock with hlock | hlock
    · exact .inl (hlock ▸ hheld)
    · rw [hheld] at hlock
      cases hlock
  · exact .inl (hlock ▸ hheld)
  · rcases hopen with ⟨-, -, hlock⟩ | ⟨-, hlock⟩
    · rw [hheld] at hlock
      cases hlock
    · rw [hheld] at hlock
      cases hlock
  · cases res with
    | acquired => exact .inr ⟨fd, heq⟩
    | error e =>
      simp only [Kernel.flocked] at hheld
      split at hheld
      · exact .inl hheld
      · cases hheld

/-- An access to the mailbox is one with the lock, where there is a lock to be had. -/
theorem touches_held (hallowed : k.Allows o) (htouch : k.Touches o) (hunique : Unique k.files)
    (hlock : k.lock ≠ .unlocked) : k.lock = .held := by
  have hbusy : k.lock ≠ .free → k.lock = .held := by
    intro hfree
    cases huse : k.lock with
    | free => exact absurd huse hfree
    | held => rfl
    | unlocked => exact absurd huse hlock
  have hfile : ∀ {fd}, k.Usable fd → k.MailboxFile fd → k.lock = .held := by
    intro fd husable hfile
    obtain ⟨path, hmem, hfree⟩ := husable
    obtain ⟨path', hmem', hmail⟩ := hfile
    have heq : path = path' := congrArg Prod.snd (hunique _ hmem _ hmem' rfl)
    exact hbusy (hfree (heq ▸ hmail))
  cases o with
  | inl o =>
    cases o with
    | lseek fd => exact hfile hallowed htouch
    | write fd bytes => exact hfile hallowed htouch
    | read fd len => exact hfile hallowed htouch
    | pciWriteLong dev reg val => exact hbusy hallowed.2
    | pciReadLong dev reg => exact hbusy hallowed.2
    | _ => exact htouch.elim
  | inr o => exact htouch.elim

theorem openFile_aim {path : String} {fd : Int} {a a' : Option Aim} {x : Aim}
    (haim : aimMove a (.inl (.openFile path)) fd a') (ha' : a' = some x) :
    (fd ≠ -1 ∧ ¬MailboxPath path) ∧ .file fd = x := by
  by_cases hnew : fd ≠ -1 ∧ ¬MailboxPath path
  · rw [show a' = some (.file fd) from Eq.trans haim (if_pos hnew)] at ha'
    exact ⟨hnew, Option.some.inj ha'⟩
  · rw [show a' = none from Eq.trans haim (if_neg hnew)] at ha'
    cases ha'

/-- What is selected at the mailbox after a call that did not touch it was so before. -/
theorem aim_move {a a' : Option Aim} {x : Aim} (h : k.Move cpu o r k') (haim : aimMove a o r a')
    (htouch : ¬k.Touches o) (ha' : a' = some x) (hx : x.AtMailbox k') :
    a = some x ∧ x.AtMailbox k := by
  have hkept : a' = a → (∀ path, o ≠ .inl (.openFile path)) → a = some x ∧ x.AtMailbox k := by
    intro heq ho
    refine ⟨heq ▸ ha', ?_⟩
    cases x with
    | file fd => exact mailboxFile_move h ho hx
    | pci => trivial
  cases o with
  | inl o =>
    cases o with
    | openFile path =>
      -- a file that has just been opened is none of the mailbox
      obtain ⟨hnew, hfile⟩ := openFile_aim haim ha'
      rw [← hfile] at hx
      obtain ⟨p, hmem, hmail⟩ := hx
      rcases h with ⟨hfailed, -⟩ | ⟨-, hfresh, rfl⟩
      · exact absurd hfailed hnew.1
      · rcases hmem with heq | hmem
        · rw [show p = path from congrArg Prod.snd heq] at hmail
          exact absurd hmail hnew.2
        · exact absurd hmem (hfresh p)
    | lseek fd =>
      rw [show a' = some (.file fd) from haim] at ha'
      cases ha'
      rw [show k' = k from h] at hx
      exact absurd hx htouch
    | pciWriteLong dev reg val => exact absurd trivial htouch
    | pciReadLong dev reg => exact absurd trivial htouch
    | _ => exact hkept haim (by simp)
  | inr o =>
    cases o with
    | flockEx fd =>
      rw [show a' = none from haim] at ha'
      cases ha'
    | _ => exact hkept haim (by simp)

/-- Data that goes through the mailbox goes through what was selected there. -/
theorem aimed_atMailbox {a : Option Aim} (h : Aimed a o) (hdata : MovesData o)
    (htouch : k.Touches o) : ∃ x, a = some x ∧ x.AtMailbox k := by
  cases o with
  | inl o =>
    cases o with
    | write fd bytes => exact ⟨.file fd, h, htouch⟩
    | read fd len => exact ⟨.file fd, h, htouch⟩
    | pciWriteLong dev reg val => exact ⟨.pci, h hdata, trivial⟩
    | pciReadLong dev reg => exact ⟨.pci, h, trivial⟩
    | _ => exact hdata.elim
  | inr o => exact hdata.elim

end Moves

/-- A process without the lock may end, and one may begin. -/
def Unlocked (k : Kernel) : Prop := k.lock ≠ .held

/-- What is asked of a program: alone it makes its system calls in order and gives the lock back,
and it selects before it transfers. -/
structure Orderly (cpu : Word → CpuInfo) {P : Signature} {α : Type}
    (p : Prog (linux.sum P) α) : Prop where
  safe : p.Wp ((kernelEnv cpu).beside P) (fun _ k => Unlocked k) .initial
  aims : p.Passes (aimEnv.beside P)

section Programs
variable {ι : Type} [DecidableEq ι] {cpu : Word → CpuInfo} {P : Signature} {π α : Type}
  {prog : π → Prog (linux.sum P) α}

theorem kernels_separated (h : ∀ c, Orderly cpu (prog c)) :
    (machine cpu ι prog).Separated ((kernelEnv cpu).beside P) (fun i s => s.kernel i)
      (fun _ k => Unlocked k) Unlocked where
  own i s o r s' h := by
    cases o with
    | inl o => exact h.kernel
    | inr o => exact congrArg (fun s => s.kernel i) h
  other i j s o r s' hij h := by
    cases o with
    | inl o => exact (h.others i hij).1
    | inr o => exact congrArg (fun s => s.kernel i) h
  enter_other i j s hij := Function.update_of_ne hij _ _
  enter i c s _ := by
    show Prog.Wp _ _ _ (Function.update s.kernel i .initial i)
    rw [Function.update_self]
    exact (h c).safe
  finish _ _ h := h

theorem aims_separated (h : ∀ c, Orderly cpu (prog c)) :
    (machine cpu ι prog).Separated (aimEnv.beside P) (fun i s => s.aim i) (fun _ _ => True)
      (fun _ => True) where
  own i s o r s' h := by
    cases o with
    | inl o => exact h.aim
    | inr o => exact congrArg (fun s => s.aim i) h
  other i j s o r s' hij h := by
    cases o with
    | inl o => exact (h.others i hij).2
    | inr o => exact congrArg (fun s => s.aim i) h
  enter_other i j s hij := Function.update_of_ne hij _ _
  enter i c s _ := (h c).aims _
  finish _ _ _ := trivial

/-- What holds of the machine at any time. -/
structure Computer.Sound (s : Computer ι) : Prop where
  exclusive : ∀ i j, (s.kernel i).lock = .held → (s.kernel j).lock = .held → i = j
  granted : ∀ i, (s.kernel i).lock ≠ .unlocked
  unique : ∀ i, Unique (s.kernel i).files
  /-- The mailbox is as the process with the lock has left it. -/
  last : ∀ i a, (s.kernel i).lock = .held → s.aim i = some a → a.AtMailbox (s.kernel i) →
    s.last = some i

section Call
variable {s s' : Computer ι} {i : ι} {o : linux.Op} {r : linux.Ret o}

omit [DecidableEq ι] in
theorem granted_move (hmove : s.Move cpu i o r s') (h : (s.kernel i).lock ≠ .unlocked) :
    (s'.kernel i).lock ≠ .unlocked := by
  intro hlock
  rcases move_cases hmove.kernel with ⟨-, hkept⟩ | ⟨path, -, -, hkept⟩ | ⟨fd, heq, hopen⟩ |
    ⟨fd, res, heq, hk⟩
  · rcases hkept with hkept | hkept
    · exact h (hkept ▸ hlock)
    · rw [hlock] at hkept
      cases hkept
  · exact h (hkept ▸ hlock)
  · rcases hopen with ⟨hfd, -, -⟩ | ⟨-, hfree⟩
    · cases heq
      exact hmove.grants hfd
    · rw [hlock] at hfree
      cases hfree
  · cases heq
    rw [hk] at hlock
    cases res with
    | acquired => cases hlock
    | error e =>
      have hwaits : e = eWouldBlock ∨ e = eIntr := hmove.grants
      rw [Kernel.flocked, if_pos hwaits] at hlock
      exact h hlock

omit [DecidableEq ι] in
theorem Computer.Sound.alone (h : s.Sound) (hmove : s.Move cpu i o r s')
    (hheld : (s'.kernel i).lock = .held) {j : ι} (hj : j ≠ i) : (s.kernel j).lock ≠ .held := by
  intro hjheld
  rcases held_move hmove.kernel hheld with hbefore | ⟨fd, heq⟩
  · exact hj (h.exclusive j i hjheld hbefore)
  · cases heq
    exact hmove.grants j hj hjheld

theorem Computer.Sound.move (h : s.Sound) (hmove : s.Move cpu i o r s')
    (hallowed : (s.kernel i).Allows o) : s'.Sound := by
  have hother : ∀ j, j ≠ i → s'.kernel j = s.kernel j := fun j hj => (hmove.others j hj).1
  have htouch : (s.kernel i).Touches o → (s.kernel i).lock = .held := fun ht =>
    touches_held hallowed ht (h.unique i) (h.granted i)
  constructor
  · intro j l hj hl
    by_cases hji : j = i
    · subst hji
      by_cases hlj : l = j
      · exact hlj.symm
      · exact absurd (hother l hlj ▸ hl) (h.alone hmove hj hlj)
    · by_cases hli : l = i
      · subst hli
        exact absurd (hother j hji ▸ hj) (h.alone hmove hl hji)
      · exact h.exclusive j l (hother j hji ▸ hj) (hother l hli ▸ hl)
  · intro j
    by_cases hji : j = i
    · subst hji
      exact granted_move hmove (h.granted j)
    · exact hother j hji ▸ h.granted j
  · intro j
    by_cases hji : j = i
    · subst hji
      exact unique_move hmove.kernel (h.unique j)
    · exact hother j hji ▸ h.unique j
  · intro j a hj haim ha
    by_cases hji : j = i
    · subst hji
      by_cases ht : (s.kernel j).Touches o
      · exact hmove.touched ht
      · obtain ⟨hbefore, hat⟩ := aim_move hmove.kernel hmove.aim ht haim ha
        rw [hmove.untouched ht]
        rcases held_move hmove.kernel hj with hheld | ⟨fd, heq⟩
        · exact h.last j a hheld hbefore hat
        · -- who has just been given the lock has selected nothing
          cases heq
          rw [show s'.aim j = none from hmove.aim] at haim
          cases haim
    · rw [hother j hji] at hj ha
      rw [(hmove.others j hji).2] at haim
      have hlast := h.last j a hj haim ha
      rw [hmove.untouched fun ht => hji (h.exclusive j i hj (htouch ht))]
      exact hlast

end Call

theorem Computer.Sound.entered {s : Computer ι} (h : s.Sound) (i : ι) : (s.entered i).Sound := by
  have hself : (s.entered i).kernel i = .initial := Function.update_self _ _ _
  have hother : ∀ j, j ≠ i → (s.entered i).kernel j = s.kernel j := fun j hj =>
    Function.update_of_ne hj _ _
  have hheld : ∀ j, ((s.entered i).kernel j).lock = .held →
      j ≠ i ∧ (s.kernel j).lock = .held := by
    intro j hj
    by_cases hji : j = i
    · subst hji
      rw [hself] at hj
      cases hj
    · exact ⟨hji, hother j hji ▸ hj⟩
  constructor
  · exact fun j l hj hl => h.exclusive j l (hheld j hj).2 (hheld l hl).2
  · intro j
    by_cases hji : j = i
    · subst hji
      rw [hself]
      exact fun hnone => nomatch hnone
    · exact hother j hji ▸ h.granted j
  · intro j
    by_cases hji : j = i
    · subst hji
      rw [hself]
      exact fun x hx => hx.elim
    · exact hother j hji ▸ h.unique j
  · intro j a hj haim ha
    obtain ⟨hji, hbefore⟩ := hheld j hj
    rw [hother j hji] at ha
    have haim' : s.aim j = some a := (Function.update_of_ne hji none s.aim) ▸ haim
    exact h.last j a hbefore haim' ha

/-- The processes are verified, and the machine is sound. -/
structure InOrder (cpu : Word → CpuInfo) (C : Config (linux.sum P) ι (Computer ι) α) : Prop where
  kernels : System.Verified ((kernelEnv cpu).beside P) (fun i s => s.kernel i)
    (fun _ k => Unlocked k) Unlocked C
  aims : System.Verified (aimEnv.beside P) (fun i s => s.aim i) (fun _ _ => True)
    (fun _ => True) C
  sound : C.state.Sound

theorem inOrder_move (hprog : ∀ c, Orderly cpu (prog c))
    {C D : Config (linux.sum P) ι (Computer ι) α} {a : Act (linux.sum P) ι π α}
    (hmove : (machine cpu ι prog).Move C a D) (h : InOrder cpu C) : InOrder cpu D := by
  refine ⟨System.verified_move _ (kernels_separated hprog) hmove h.kernels,
    System.verified_move _ (aims_separated hprog) hmove h.aims, ?_⟩
  cases hmove with
  | @start i c hidle => exact h.sound.entered i
  | @op i o k r s' hrun hnext =>
    cases o with
    | inl o => exact h.sound.move hnext (h.kernels.guard hrun)
    | inr o =>
      rw [show s' = C.state from hnext]
      exact h.sound
  | turn _ => exact h.sound
  | finish _ => exact h.sound

def Unstarted (C : Config (linux.sum P) ι (Computer ι) α) : Prop :=
  (∀ i, C.task i = none) ∧ ∀ i, C.state.kernel i = .initial

omit [DecidableEq ι] in
theorem Unstarted.inOrder {C : Config (linux.sum P) ι (Computer ι) α} (h : Unstarted C) :
    InOrder cpu C := by
  obtain ⟨htask, hkernel⟩ := h
  have hfree : ∀ i, (C.state.kernel i).lock = .free := fun i => by rw [hkernel i]; rfl
  refine ⟨fun i => ?_, fun i => ?_, ?_⟩
  · rw [htask i]
    show (C.state.kernel i).lock ≠ .held
    rw [hfree i]
    decide
  · rw [htask i]
    trivial
  · constructor
    · intro i j hi
      rw [hfree i] at hi
      cases hi
    · intro i
      rw [hfree i]
      decide
    · intro i
      rw [hkernel i]
      exact fun x hx => hx.elim
    · intro i a hi
      rw [hfree i] at hi
      cases hi

/-- What there is at any time of a run: one process at a time has the lock and touches the mailbox,
which is as that process has left it. -/
structure Exclusive (C : Config (linux.sum P) ι (Computer ι) α) : Prop where
  lock : ∀ i j, (C.state.kernel i).lock = .held → (C.state.kernel j).lock = .held → i = j
  mailbox : ∀ i o k, C.task i = some (.call (.inl o) k) → (C.state.kernel i).Touches o →
    (C.state.kernel i).lock = .held ∧ (MovesData o → C.state.last = some i)
  ended : ∀ i, C.task i = none → (C.state.kernel i).lock ≠ .held

/-- However the system calls of orderly programs interleave. -/
theorem processes_exclusive (hprog : ∀ c, Orderly cpu (prog c))
    {C D : Config (linux.sum P) ι (Computer ι) α} {acts : List (Act (linux.sum P) ι π α)}
    (hstart : Unstarted C) (hmoves : (machine cpu ι prog).Moves C acts D) : Exclusive D := by
  have hend : InOrder cpu D :=
    System.moves_keep _ (fun _ _ _ => inOrder_move hprog) hmoves hstart.inOrder
  refine ⟨hend.sound.exclusive, ?_, ?_⟩
  · intro i o k hrun htouch
    have hheld := touches_held (hend.kernels.guard hrun) htouch (hend.sound.unique i)
      (hend.sound.granted i)
    refine ⟨hheld, fun hdata => ?_⟩
    obtain ⟨a, haim, hat⟩ := aimed_atMailbox (hend.aims.guard hrun) hdata htouch
    exact hend.sound.last i a hheld haim hat
  · intro i hidle
    have hi := hend.kernels i
    rw [hidle] at hi
    exact hi

end Programs
end RyzenAdj
