import RyzenAdj.Interaction.Schedule
import RyzenAdj.Linux.Machine

/-!
# A computer to run on

Two processes on a computer without the driver. Every system call that the
`/dev/mem` backend makes up to the end of a request is answered, the lock file
by who has it, the registers by an SMU that carries out what it is sent.
-/

namespace RyzenAdj
open Interaction

/-- What a process has, of the one lock file, libpci object and device there are. -/
structure Desk where
  lockFile : Bool
  pciAcc : Bool
  pciDev : Bool
  lock : LockUse
  /-- The PCI data register stands for a register the process has selected. -/
  aimed : Bool

def Desk.initial : Desk := ⟨false, false, false, .free, false⟩

def Desk.kernel (d : Desk) : Kernel where
  isSmu := false
  files := {x | d.lockFile = true ∧ x = (3, smuLockPath)}
  streams := ∅
  pciAccs := {x | d.pciAcc = true ∧ x = 0}
  pciDevs := {x | d.pciDev = true ∧ x = (0, 0)}
  mappings := ∅
  lock := d.lock

def Desk.aim (d : Desk) : Option Aim := if d.aimed then some .pci else none

/-- The index register, and what was written to the registers behind it, the last first. -/
structure RegisterFile where
  selected : Word
  values : List (Word × Word)

namespace RegisterFile

/-- The mailboxes of `FAM_RAVEN`: message, response and first argument. -/
def mailboxes : List (Word × Word × Word) :=
  [(0x3B10528, 0x3B10564, 0x3B10998), (0x3B10A20, 0x3B10A80, 0x3B10A88)]

def select (r : RegisterFile) (addr : Word) : RegisterFile := { r with selected := addr }

def load (r : RegisterFile) : Word := (r.values.lookup r.selected).getD 0

/-- A message is answered at once; every question is one for the table. -/
def store (r : RegisterFile) (val : Word) : RegisterFile :=
  match mailboxes.lookup r.selected with
  | some (rep, arg0) =>
    { r with values := (rep, repMsgOK) :: (arg0, 0x1E0001) :: (r.selected, val) :: r.values }
  | none => { r with values := (r.selected, val) :: r.values }

end RegisterFile

structure Workbench where
  desk : Bool → Desk
  last : Option Bool
  registers : RegisterFile

def Workbench.initial : Workbench := ⟨fun _ => .initial, none, ⟨0, []⟩⟩

namespace Workbench
variable (cpu : Word → CpuInfo) (s : Workbench) (i : Bool)

def seen : Computer Bool := ⟨fun i => (s.desk i).kernel, fun i => (s.desk i).aim, s.last⟩

def put (d : Desk) : Workbench := { s with desk := Function.update s.desk i d }

def touch (registers : RegisterFile) : Workbench :=
  { s with last := some i, registers := registers }

def answer : (o : linux.Op) → Option (linux.Ret o × Workbench)
  | .inl .isSmu => some (false, s)
  | .inl (.setIsSmu false) => some ((), s)
  | .inl .smnIoSetError => some ((), s)
  | .inl .smnIoTakeError => some (false, s)
  | .inl .malloc => some (true, s)
  | .inl .pciAlloc =>
    if (s.desk i).pciAcc then none
    else if (s.desk i).pciDev then none
    else some (some 0, s.put i { s.desk i with pciAcc := true })
  | .inl (.pciGetDev 0) =>
    if (s.desk i).pciDev then none else some (some 0, s.put i { s.desk i with pciDev := true })
  | .inl (.pciWriteLong _ reg val) =>
    if reg = nbPciRegAddrAddr then
      some (true, (s.put i { s.desk i with aimed := true }).touch i (s.registers.select val))
    else some (true, s.touch i (s.registers.store val))
  | .inl (.pciReadLong _ _) => some (s.registers.load, s.touch i s.registers)
  | .inr .openSmuLock =>
    if (s.desk i).lockFile then none
    else some ((3 : Int), s.put i { s.desk i with lockFile := true, lock := .free })
  | .inr (.flockEx _) =>
    if (s.desk !i).lock = .held then
      some (.error eWouldBlock, s.put i { s.desk i with aimed := false })
    else some (.acquired, s.put i { s.desk i with lock := .held, aimed := false })
  | .inr (.flockUn _) => some ((), s.put i { s.desk i with lock := .free })
  | .inr .monotonicMs => some ((0 : Nat), s)
  | .inr .usleep => some ((), s)
  | .inr .shortSleep => some ((), s)
  | .inr (.lstat _) => some (false, s)
  | .inr (.pciFreeDev 0) => some ((), s.put i { s.desk i with pciDev := false })
  | .inr (.pciCleanup 0) => some ((), s.put i { s.desk i with pciAcc := false })
  | .inr .malloc => some (true, s)
  | .inr (.processor (.getcpuid infoType)) => some (cpu infoType, s)
  | _ => none

section Calls
variable {cpu s i} {s' : Workbench}

theorem move_desk {o : linux.Op} {r : linux.Ret o} {d : Desk}
    (hdesk : s'.desk = Function.update s.desk i d)
    (hkernel : (s.desk i).kernel.Move cpu o r d.kernel)
    (haim : aimMove (s.desk i).aim o r d.aim) (hgrants : s.seen.Grants i o r)
    (htouched : (s.desk i).kernel.Touches o → s'.last = some i)
    (huntouched : ¬(s.desk i).kernel.Touches o → s'.last = s.last) :
    s.seen.Move cpu i o r s'.seen where
  kernel := by
    show Kernel.Move cpu _ o r (s'.desk i).kernel
    rw [hdesk, Function.update_self]
    exact hkernel
  aim := by
    show aimMove _ o r (s'.desk i).aim
    rw [hdesk, Function.update_self]
    exact haim
  grants := hgrants
  others j hj := by
    have hother : s'.desk j = s.desk j := by rw [hdesk, Function.update_of_ne hj]
    exact ⟨congrArg Desk.kernel hother, congrArg Desk.aim hother⟩
  touched := htouched
  untouched := huntouched

theorem move_put {o : linux.Op} {r : linux.Ret o} {d : Desk}
    (hkernel : (s.desk i).kernel.Move cpu o r d.kernel) (haim : aimMove (s.desk i).aim o r d.aim)
    (hgrants : s.seen.Grants i o r) (hplain : ¬(s.desk i).kernel.Touches o) :
    s.seen.Move cpu i o r (s.put i d).seen :=
  move_desk rfl hkernel haim hgrants (fun h => absurd h hplain) fun _ => rfl

theorem move_same {o : linux.Op} {r : linux.Ret o}
    (hkernel : (s.desk i).kernel.Move cpu o r (s.desk i).kernel)
    (haim : aimMove (s.desk i).aim o r (s.desk i).aim)
    (hgrants : s.seen.Grants i o r) (hplain : ¬(s.desk i).kernel.Touches o) :
    s.seen.Move cpu i o r s.seen := by
  have hput : s.put i (s.desk i) = s := by
    rw [put, Function.update_eq_self]
  have hmove := move_put hkernel haim hgrants hplain
  rwa [hput] at hmove

end Calls

end Workbench
namespace Workbench
variable {cpu : Word → CpuInfo} {s s' : Workbench} {i : Bool}

/-- The calls of the two backends. -/
theorem answer_sys {o : Sys.Op} {r : Sys.Ret o} (h : s.answer cpu i (.inl o) = some (r, s')) :
    s.seen.Move cpu i (.inl o) r s'.seen := by
  cases o with
  | isSmu =>
    cases h
    exact move_same ⟨rfl, rfl⟩ rfl trivial id
  | setIsSmu b =>
    cases b with
    | false =>
      cases h
      exact move_same rfl rfl trivial id
    | true => cases h
  | smnIoSetError =>
    cases h
    exact move_same rfl rfl trivial id
  | smnIoTakeError =>
    cases h
    exact move_same rfl rfl trivial id
  | malloc =>
    cases h
    exact move_same rfl rfl trivial id
  | pciAlloc =>
    simp only [answer] at h
    split at h
    next => cases h
    next hacc =>
      split at h
      next => cases h
      next hdev =>
        cases h
        refine move_put ⟨fun h => hacc h.1, fun _ h => hdev h.1, ?_⟩ rfl trivial id
        simp [Desk.kernel, hacc]
  | pciGetDev acc =>
    cases acc with
    | succ _ => cases h
    | zero =>
      simp only [answer] at h
      split at h
      next => cases h
      next hdev =>
        cases h
        refine move_put ⟨fun h => ?_, ?_⟩ rfl trivial id
        · obtain ⟨acc, hmem⟩ := h
          exact hdev hmem.1
        · simp [Desk.kernel, hdev]
  | pciWriteLong dev reg val =>
    simp only [answer] at h
    split at h
    next hreg =>
      cases h
      exact move_desk rfl rfl (if_pos hreg).symm trivial (fun _ => rfl) fun h => absurd trivial h
    next hreg =>
      cases h
      exact ⟨rfl, (if_neg hreg).symm, trivial, fun _ _ => ⟨rfl, rfl⟩, fun _ => rfl,
        fun h => absurd trivial h⟩
  | pciReadLong dev reg =>
    cases h
    exact ⟨rfl, rfl, trivial, fun _ _ => ⟨rfl, rfl⟩, fun _ => rfl, fun h => absurd trivial h⟩
  | _ => cases h

/-- The calls of the process beside them. -/
theorem answer_host {o : Host.Op} {r : Host.Ret o} (h : s.answer cpu i (.inr o) = some (r, s')) :
    s.seen.Move cpu i (.inr o) r s'.seen := by
  cases o with
  | openSmuLock =>
    simp only [answer] at h
    split at h
    next => cases h
    next hfile =>
      cases h
      refine move_put ⟨_, .inr ⟨by decide, fun _ h => hfile h.1, rfl⟩, ?_⟩ rfl
        (show (3 : Int) ≠ -1 by decide) id
      simp [Desk.kernel, hfile]
  | flockEx fd =>
    simp only [answer] at h
    split at h
    next hheld =>
      cases h
      exact move_put rfl rfl (.inl rfl) id
    next hfree =>
      cases h
      refine move_put rfl rfl (fun j hj => ?_) id
      rw [Bool.eq_not.mpr hj]
      exact hfree
  | flockUn fd =>
    cases h
    exact move_put rfl rfl trivial id
  | monotonicMs =>
    cases h
    exact move_same rfl rfl trivial id
  | usleep =>
    cases h
    exact move_same rfl rfl trivial id
  | shortSleep =>
    cases h
    exact move_same rfl rfl trivial id
  | lstat path =>
    cases h
    exact move_same rfl rfl trivial id
  | pciFreeDev dev =>
    cases dev with
    | succ _ => cases h
    | zero =>
      cases h
      have hgone : {x ∈ (s.desk i).kernel.pciDevs | x.2 ≠ 0} = ∅ :=
        Set.eq_empty_of_forall_notMem fun x hx => hx.2 (congrArg Prod.snd hx.1.2)
      refine move_put ?_ rfl trivial id
      simp only [Kernel.Move, hgone]
      simp [Desk.kernel]
  | pciCleanup acc =>
    cases acc with
    | succ _ => cases h
    | zero =>
      cases h
      have hgone : (s.desk i).kernel.pciAccs \ {0} = ∅ :=
        Set.eq_empty_of_forall_notMem fun x hx => hx.2 hx.1.2
      refine move_put ?_ rfl trivial id
      simp only [Kernel.Move, hgone]
      simp [Desk.kernel]
  | malloc =>
    cases h
    exact move_same rfl rfl trivial id
  | processor o =>
    cases o with
    | getcpuid infoType =>
      cases h
      exact move_same ⟨rfl, rfl⟩ rfl trivial id
    | printf m => cases h
  | _ => cases h

theorem answer_move {o : linux.Op} {r : linux.Ret o} (h : s.answer cpu i o = some (r, s')) :
    s.seen.Move cpu i o r s'.seen := by
  cases o with
  | inl o => exact answer_sys h
  | inr o => exact answer_host h

theorem initial_kernel : Desk.initial.kernel = Kernel.initial := by
  simp [Desk.initial, Desk.kernel, Kernel.initial]

theorem seen_initial : initial.seen = ⟨fun _ => .initial, fun _ => none, none⟩ := by
  simp only [seen, initial, initial_kernel]
  rfl

theorem seen_entered (i : Bool) (s : Workbench) : (s.put i .initial).seen = s.seen.entered i := by
  have hdesk : ∀ j, (s.put i .initial).desk j = if j = i then .initial else s.desk j :=
    fun j => Function.update_apply s.desk i .initial j
  simp only [seen, Computer.entered, Computer.mk.injEq, hdesk]
  refine ⟨funext fun j => ?_, funext fun j => ?_, rfl⟩
  · by_cases hj : j = i
    · simp [hj, initial_kernel]
    · simp [hj]
  · by_cases hj : j = i
    · simp [hj, Desk.initial, Desk.aim]
    · simp [hj]

section Programs
variable (cpu : Word → CpuInfo) {P : Signature} (own : (o : P.Op) → P.Ret o)

def answerBeside (i : Bool) (s : Workbench) :
    (o : (linux.sum P).Op) → Option ((linux.sum P).Ret o × Workbench)
  | .inl o => s.answer cpu i o
  | .inr o => some (own o, s)

def bench {π α : Type} (prog : π → Prog (linux.sum P) α) :
    Bench (machine cpu Bool prog) Workbench where
  seen := seen
  enter i s := s.put i .initial
  answer := answerBeside cpu own
  seen_enter := seen_entered
  next i s o r s' h := by
    cases o with
    | inl o => exact answer_move h
    | inr o =>
      cases h
      rfl

variable {cpu own}

theorem answerBeside_next {i : Bool} {s s' : Workbench} {o : (linux.sum P).Op}
    {r : (linux.sum P).Ret o} (h : s.answerBeside cpu own i o = some (r, s')) :
    ((kernelEnv cpu).beside P).next (s.desk i).kernel o r (s'.desk i).kernel := by
  cases o with
  | inl o => exact (answer_move h).kernel
  | inr o =>
    cases h
    rfl

variable {α : Type} {p : Prog (linux.sum P) α} {n : Nat}

theorem exists_steps {check : Prog (linux.sum P) α × Workbench → Bool}
    (h : (p.advance (answerBeside cpu own false) n initial).any check = true) :
    ∃ q s, Prog.Steps ((kernelEnv cpu).beside P) (p, .initial) (q, (s.desk false).kernel) ∧
      check (q, s) = true := by
  rw [← initial_kernel]
  exact Prog.exists_steps (fun _ _ _ _ hcall => answerBeside_next hcall) h

theorem exists_result {Q : α → Workbench → Bool}
    (h : (p.advance (answerBeside cpu own false) n initial).any
      (fun x => x.1.returned.any fun a => Q a x.2) = true) :
    ∃ a s, Prog.Steps ((kernelEnv cpu).beside P) (p, .initial) (.ret a, (s.desk false).kernel) ∧
      Q a s = true := by
  rw [← initial_kernel]
  exact Prog.exists_result (fun _ _ _ _ hcall => answerBeside_next hcall) h

end Programs

end Workbench

/-- A Raven Ridge processor. -/
def ravenCpu (leaf : Word) : CpuInfo :=
  if leaf = 0 then ⟨0xD, 0x68747541, 0x444D4163, 0x69746E65⟩ else ⟨0x00810F10, 0, 0, 0⟩

section Watched
variable {P : Signature} {π α : Type}

/-- The process is about to read the register it has selected. -/
def readsRegister : Option (Prog (linux.sum P) α) → Bool
  | some (.call (.inl (.inl (.pciReadLong _ _))) _) => true
  | _ => false

theorem exists_read {t : Option (Prog (linux.sum P) α)} (h : readsRegister t = true) :
    ∃ dev reg k, t = some (.call (.inl (.inl (.pciReadLong dev reg))) k) := by
  unfold readsRegister at h
  split at h
  next dev reg k => exact ⟨dev, reg, k, rfl⟩
  next => cases h

/-- The process has been told that another one has the lock. -/
def turnedAway (i : Bool) : Act (linux.sum P) Bool π α → Bool
  | .op j (.inl (.inr (.flockEx _))) (.error e) => j = i ∧ e = eWouldBlock
  | _ => false

/-- The process is about to read what it has selected itself, and nobody else has the lock. -/
structure ReadsAlone (C : Config (linux.sum P) Bool (Computer Bool) α) (i : Bool) : Prop where
  reads : readsRegister (C.task i) = true
  last : C.state.last = some i
  lock : ∀ j, (C.state.kernel j).lock = .held ↔ j = i

theorem Exclusive.readsAlone {C : Config (linux.sum P) Bool (Computer Bool) α} (h : Exclusive C)
    {i : Bool} (hreads : readsRegister (C.task i) = true) : ReadsAlone C i := by
  have hmailbox : (C.state.kernel i).lock = .held ∧ C.state.last = some i := by
    obtain ⟨dev, reg, k, htask⟩ := exists_read hreads
    obtain ⟨hheld, hlast⟩ := h.mailbox i _ k htask trivial
    exact ⟨hheld, hlast trivial⟩
  refine ⟨hreads, hmailbox.2, fun j => ⟨fun hj => h.lock j i hj hmailbox.1, fun hj => ?_⟩⟩
  rw [hj]
  exact hmailbox.1

end Watched
end RyzenAdj
