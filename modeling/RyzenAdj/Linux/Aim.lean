import RyzenAdj.Linux.Kernel

/-!
# Selecting before transferring

A mailbox file is set to its beginning before anything goes through it, and the
PCI data register is used after the index register has been written, by the
process itself and since it took the lock. What another process had selected is
never built on.
-/

namespace RyzenAdj
open Interaction Sys

/-- What the next data of a process goes through. -/
inductive Aim where
  | file (fd : Int)
  | pci

def MailboxPath (path : String) : Prop := path = smnPath ∨ path = smuRawCmdPath

instance (path : String) : Decidable (MailboxPath path) := inferInstanceAs (Decidable (_ ∨ _))

/-- A file stands at its beginning when it has been opened; for one of the mailbox only an
`lseek` counts. Taking the lock ends what was selected before. -/
def aimMove (a : Option Aim) : (o : linux.Op) → linux.Ret o → Option Aim → Prop
  | .inl (.openFile path), (fd : Int), a' =>
    a' = if fd ≠ -1 ∧ ¬MailboxPath path then some (.file fd) else none
  | .inl (.lseek fd), _, a' => a' = some (Aim.file fd)
  | .inl (.pciWriteLong _ reg _), _, a' => a' = if reg = nbPciRegAddrAddr then some .pci else a
  | .inr (.flockEx _), _, a' => a' = none
  | _, _, a' => a' = a

def Aimed (a : Option Aim) : linux.Op → Prop
  | .inl (.write fd _) => a = some (Aim.file fd)
  | .inl (.read fd _) => a = some (Aim.file fd)
  | .inl (.pciWriteLong _ reg _) => reg ≠ nbPciRegAddrAddr → a = some .pci
  | .inl (.pciReadLong _ _) => a = some .pci
  | _ => True

def aimEnv : Env linux (Option Aim) where
  guard := Aimed
  next := aimMove

section Backends
variable {α β : Type} {a : Option Aim} {fd : Int}

abbrev Aims (p : Prog linux α) : Prop := p.Passes aimEnv

abbrev AimsSys (p : Prog sys α) : Prop := p.Passes aimEnv.first

theorem aim_seq {p : Prog sys α} {f : α → Prog sys β}
    (hp : p.Wp aimEnv.first (fun _ a' => a' = a) a)
    (hf : ∀ x, (f x).Wp aimEnv.first (fun _ _ => True) a) :
    (p.bind f).Wp aimEnv.first (fun _ _ => True) a := by
  apply Prog.wp_seq _ hp
  intro x a' ha'
  rw [ha']
  exact hf x

theorem readFull_aimed (fd : Int) (len : Nat) :
    (readFull fd len).Wp aimEnv.first (fun _ a => a = some (Aim.file fd)) (some (.file fd)) := by
  apply readFull_rule (Q := fun _ _ a => a = some (Aim.file fd))
    (fun _ a => a = some (Aim.file fd)) rfl
  · exact fun _ _ _ ha => ha
  · exact fun _ _ _ _ ha hnext => hnext.trans ha
  · exact fun _ _ _ _ _ ha _ hnext => hnext.trans ha
  · exact fun _ _ _ _ _ _ ha _ hnext => hnext.trans ha
  · exact fun _ _ _ _ _ _ ha _ hnext => hnext.trans ha
  · exact fun _ _ _ ha => ha

theorem writeFull_aimed (fd : Int) (bytes : List Byte) :
    (writeFull fd bytes).Wp aimEnv.first (fun _ a => a = some (Aim.file fd)) (some (.file fd)) := by
  apply writeFull_rule (Q := fun _ a => a = some (Aim.file fd))
    (fun _ a => a = some (Aim.file fd)) rfl
  · exact fun _ _ _ ha => ha
  · exact fun _ _ _ _ ha hnext => hnext.trans ha
  · exact fun _ _ _ _ _ ha _ hnext => hnext.trans ha
  · exact fun _ _ _ _ _ _ ha hnext => hnext.trans ha
  · exact fun _ _ _ ha => ha

theorem aims_lseek {f : Option Errno → Prog sys α}
    (hf : ∀ r, (f r).Wp aimEnv.first (fun _ _ => True) (some (.file fd))) :
    AimsSys ((Sys.lseek fd).bind f) := by
  refine fun a => ⟨trivial, fun r a' hnext => ?_⟩
  rw [show a' = some (Aim.file fd) from hnext]
  exact hf r

theorem aims_setError (x : α) : AimsSys (smnIoSetError.bind fun _ => .ret x) :=
  fun _ => ⟨trivial, fun _ _ _ => trivial⟩

theorem seekWriteFull_aims (fd : Int) (bytes : List Byte) : AimsSys (seekWriteFull fd bytes) := by
  apply aims_lseek
  intro seekError
  cases seekError with
  | some e => trivial
  | none => exact Prog.wp_mono _ (writeFull_aimed fd bytes) fun _ _ _ => trivial

theorem seekReadFull_aims (fd : Int) (len : Nat) : AimsSys (seekReadFull fd len) := by
  apply aims_lseek
  intro seekError
  cases seekError with
  | some e => trivial
  | none => exact Prog.wp_mono _ (readFull_aimed fd len) fun _ _ _ => trivial

theorem smnRegReadKmod_aims (o : KmodObj) (addr : Word) : AimsSys (smnRegReadKmod o addr) := by
  apply aims_lseek
  intro seekError
  apply Prog.wp_ite _ fun _ => aims_setError _ _
  intro _
  apply aim_seq (writeFull_aimed _ _)
  intro writeError
  apply Prog.wp_ite _ fun _ => aims_setError _ _
  intro _
  refine aims_lseek (fun seekError => ?_) _
  apply Prog.wp_ite _ fun _ => aims_setError _ _
  intro _
  apply aim_seq (readFull_aimed _ _)
  intro t
  exact Prog.wp_ite _ (fun _ => aims_setError _ _) fun _ => trivial

theorem smnRegWriteKmod_aims (o : KmodObj) (addr data : Word) :
    AimsSys (smnRegWriteKmod o addr data) := by
  apply aims_lseek
  intro seekError
  apply Prog.wp_ite _ fun _ => aims_setError _ _
  intro _
  apply aim_seq (writeFull_aimed _ _)
  intro writeError
  exact Prog.wp_ite _ (fun _ => aims_setError () _) fun _ => trivial

theorem smuRawCmdKmod_aims (o : KmodObj) (msg rep argBase id : Word) (args : Args) :
    AimsSys (smuRawCmdKmod o msg rep argBase id args) := by
  apply Prog.passes_ite fun _ => Prog.passes_ret _
  intro _ a
  apply Prog.wp_seq _ (seekWriteFull_aims _ _ a)
  intro writeError a' _
  cases writeError with
  | some e => trivial
  | none =>
    apply Prog.wp_seq _ (seekReadFull_aims _ _ a')
    intro t _ _
    cases t.error with
    | some e => trivial
    | none => trivial

theorem copyPmTableKmod_aims (o : KmodObj) (size : Nat) : AimsSys (copyPmTableKmod o size) := by
  apply Prog.passes_ite fun _ => Prog.passes_ret _
  intro _
  apply Prog.passes_ite fun _ => Prog.passes_ret _
  exact fun _ => seekReadFull_aims _ _

theorem smnRegReadMem_aims (o : MemObj) (addr : Word) : AimsSys (smnRegReadMem o addr) := by
  have hread : (Sys.pciReadLong o.pciDev nbPciRegDataAddr).Wp aimEnv.first (fun _ _ => True)
      (some .pci) := ⟨rfl, fun _ _ _ => trivial⟩
  refine fun a => ⟨fun h => absurd rfl h, fun selected a' hnext => ?_⟩
  rw [show a' = some .pci from hnext]
  apply Prog.wp_ite
  · intro _
    refine ⟨trivial, fun _ a'' hkept => ?_⟩
    rw [show a'' = some .pci from hkept]
    exact hread
  · exact fun _ => hread

theorem smnRegWriteMem_aims (o : MemObj) (addr data : Word) :
    AimsSys (smnRegWriteMem o addr data) := by
  refine fun a => ⟨fun h => absurd rfl h, fun selected a' hnext => ?_⟩
  rw [show a' = some .pci from hnext]
  apply Prog.wp_ite _ fun _ => aims_setError _ _
  intro _
  refine ⟨fun _ => rfl, fun written a'' _ => ?_⟩
  exact Prog.wp_ite _ (fun _ => trivial) fun _ => aims_setError () _

theorem getPmTableSize_aims : AimsSys getPmTableSize := by
  refine fun a => ⟨trivial, fun (fd : Int) a' hnext => ?_⟩
  refine Prog.wp_ite _ (fun _ => trivial) fun hopen => ?_
  have hpath : ¬MailboxPath "/sys/kernel/ryzen_smu_drv/pm_table_size" := by decide
  have ha' : a' = some (.file fd) := Eq.trans hnext (if_pos ⟨hopen, hpath⟩)
  rw [ha']
  apply aim_seq (readFull_aimed fd 4)
  intro t
  refine ⟨trivial, fun _ _ _ => ?_⟩
  refine Prog.wp_ite _ (fun _ => trivial) fun _ => ?_
  exact Prog.wp_ite _ (fun _ => trivial) fun _ => trivial

theorem initOsAccessObjKmod_aims : AimsSys initOsAccessObjKmod := by
  refine fun a => ⟨trivial, fun allocated a' _ => ?_⟩
  refine Prog.wp_ite _ (fun _ => trivial) fun _ => ?_
  apply Prog.wp_seq _ (getPmTableSize_aims a')
  intro reported _ _
  refine ⟨trivial, fun smnFd _ _ => ?_⟩
  refine Prog.wp_ite _ (fun _ => trivial) fun _ => ?_
  refine ⟨trivial, fun rawCmdFd _ _ => ?_⟩
  refine Prog.wp_ite _ (fun _ => trivial) fun _ => ?_
  refine ⟨trivial, fun pmTableFd _ _ => ?_⟩
  exact Prog.wp_ite _ (fun _ => trivial) fun _ => trivial

theorem undefined_aims : AimsSys (Sys.undefined : Prog sys α) :=
  fun _ => ⟨trivial, fun r => nomatch r⟩

theorem smnRegReadLinux_aims (obj : OsAccessObj) (addr : Word) :
    AimsSys (smnRegReadLinux obj addr) := by
  refine fun a => ⟨trivial, fun isSmu a' _ => ?_⟩
  match isSmu, obj with
  | true, .kmod o => exact smnRegReadKmod_aims o addr a'
  | false, .mem o => exact smnRegReadMem_aims o addr a'
  | true, .mem _ => exact undefined_aims a'
  | false, .kmod _ => exact undefined_aims a'

theorem smnRegWriteLinux_aims (obj : OsAccessObj) (addr data : Word) :
    AimsSys (smnRegWriteLinux obj addr data) := by
  refine fun a => ⟨trivial, fun isSmu a' _ => ?_⟩
  match isSmu, obj with
  | true, .kmod o => exact smnRegWriteKmod_aims o addr data a'
  | false, .mem o => exact smnRegWriteMem_aims o addr data a'
  | true, .mem _ => exact undefined_aims a'
  | false, .kmod _ => exact undefined_aims a'

theorem smuRawCmdLinux_aims (obj : OsAccessObj) (msg rep argBase id : Word) (args : Args) :
    AimsSys (smuRawCmdLinux obj msg rep argBase id args) := by
  refine fun a => ⟨trivial, fun isSmu a' _ => ?_⟩
  match isSmu, obj with
  | true, .kmod o => exact smuRawCmdKmod_aims o msg rep argBase id args a'
  | true, .mem _ => exact undefined_aims a'
  | false, _ => trivial

end Backends

section Process
open Host
variable {α β : Type}

/-- The calls of the backends that move no data. -/
def Plain : Sys.Op → Prop
  | .write _ _ | .read _ _ | .pciWriteLong _ _ _ | .pciReadLong _ _ => False
  | _ => True

theorem aims_system {o : Sys.Op} {f : Sys.Ret o → Prog linux α} (ho : Plain o)
    (hf : ∀ r, Aims (f r)) : Aims (.call (S := linux) (.inl o) f) := by
  refine Prog.passes_call (fun a => ?_) hf
  cases o <;> trivial

theorem aims_host {o : Host.Op} {f : Host.Ret o → Prog linux α} (hf : ∀ r, Aims (f r)) :
    Aims (.call (S := linux) (.inr o) f) :=
  Prog.passes_call (fun _ => trivial) hf

theorem isRyzenSmuDriverCompatible_aims : Aims isRyzenSmuDriverCompatible := by
  apply aims_host
  intro drvVer
  cases drvVer with
  | none => exact Prog.passes_ret _
  | some stream =>
    exact aims_host fun _ => aims_host fun _ => Prog.passes_ret _

theorem hostInitOsAccessObjMem_aims : Aims Host.initOsAccessObjMem := by
  apply aims_system (by trivial)
  intro allocated
  apply Prog.passes_ite fun _ => Prog.passes_ret _
  intro _
  apply aims_system (by trivial)
  intro acc
  cases acc with
  | none => exact Prog.passes_ret _
  | some pciAcc =>
    apply aims_system (by trivial)
    intro dev
    cases dev with
    | none => exact aims_host fun _ => Prog.passes_ret _
    | some pciDev => exact Prog.passes_ret _

theorem initOsAccessObj_aims : Aims Host.initOsAccessObj := by
  have hkmod : Aims (initOsAccessObjKmod.inl.bind fun o => .ret (o.map OsAccessObj.kmod)) :=
    Prog.passes_bind (Prog.passes_inl initOsAccessObjKmod_aims) fun _ => Prog.passes_ret _
  have hobject : ∀ detected : Bool, Aims (if detected then
      (system (.setIsSmu true)).bind fun _ => initOsAccessObjKmod.inl.bind fun o =>
        .ret (o.map .kmod)
      else Host.initOsAccessObjMem.bind fun o => .ret (o.map OsAccessObj.mem)) := by
    intro detected
    apply Prog.passes_ite
    · exact fun _ => aims_system (by trivial) fun _ => hkmod
    · exact fun _ => Prog.passes_bind hostInitOsAccessObjMem_aims fun _ => Prog.passes_ret _
  apply aims_host
  intro there
  apply Prog.passes_ite
  · exact fun _ => Prog.passes_bind isRyzenSmuDriverCompatible_aims hobject
  · exact fun _ => hobject false

theorem unmapPhy_aims (window : PhyMap) : Aims (Host.unmapPhy window) := by
  unfold Host.unmapPhy
  cases window.phyMap with
  | none => exact Prog.passes_ret _
  | some base => exact aims_host fun _ => Prog.passes_ret _

theorem initMemObj_aims (window : PhyMap) (physAddr : BitVec 64) (size : Nat) :
    Aims (Host.initMemObj window physAddr size) := by
  apply aims_system (by trivial)
  intro isSmu
  apply Prog.passes_ite fun _ => Prog.passes_ret _
  intro _
  apply aims_host
  intro sz
  apply Prog.passes_bind (unmapPhy_aims window)
  intro _
  apply aims_system (by trivial)
  intro devMemFd
  apply Prog.passes_ite fun _ => Prog.passes_ret _
  intro _
  exact aims_host fun _ => aims_system (by trivial) fun _ => Prog.passes_ret _

theorem closeOpen_aims (fd : Int) : Aims (closeOpen fd) :=
  Prog.passes_ite (fun _ => aims_system (by trivial) fun _ => Prog.passes_ret _)
    fun _ => Prog.passes_ret _

theorem freeOsAccessObj_aims (window : PhyMap) (obj : OsAccessObj) :
    Aims (Host.freeOsAccessObj window obj) := by
  have hkmod : ∀ o, Aims (Host.freeOsAccessObjKmod o) := fun o =>
    Prog.passes_bind (closeOpen_aims _) fun _ => Prog.passes_bind (closeOpen_aims _)
      fun _ => closeOpen_aims _
  have hmem : ∀ o, Aims (Host.freeOsAccessObjMem window o) := fun o =>
    Prog.passes_bind (unmapPhy_aims window) fun _ => aims_host fun _ =>
      aims_host fun _ => Prog.passes_ret _
  have hdown : ∀ w : PhyMap, Aims ((system (.setIsSmu false)).bind fun _ => .ret w) := fun w =>
    aims_system (by trivial) fun _ => Prog.passes_ret w
  apply aims_system (by trivial)
  intro isSmu
  match isSmu, obj with
  | true, .kmod o =>
    show Aims ((Host.freeOsAccessObjKmod o).bind _)
    exact Prog.passes_bind (hkmod o) fun _ => hdown _
  | false, .mem o =>
    show Aims ((Host.freeOsAccessObjMem window o).bind _)
    exact Prog.passes_bind (hmem o) fun _ => hdown _
  | true, .mem _ => exact Prog.passes_inl undefined_aims
  | false, .kmod _ => exact Prog.passes_inl undefined_aims

theorem copyPmTable_aims (window : PhyMap) (obj : OsAccessObj) (size : Nat) :
    Aims (Host.copyPmTable window obj size) := by
  have hmem : Aims (Host.copyPmTableMem window size) := by
    unfold Host.copyPmTableMem
    cases phyTablePtr window with
    | none => exact Prog.passes_ret _
    | some src =>
      exact Prog.passes_ite (fun _ => Prog.passes_ret _)
        fun _ => aims_host fun _ => Prog.passes_ret _
  apply aims_system (by trivial)
  intro isSmu
  match isSmu, obj with
  | true, .kmod o => exact Prog.passes_inl (copyPmTableKmod_aims o size)
  | true, .mem _ => exact Prog.passes_inl undefined_aims
  | false, _ => exact hmem

theorem comparePmTable_aims (window : PhyMap) (buffer : List Byte) :
    Aims (Host.comparePmTable window buffer) := by
  have hmem : Aims (Host.comparePmTableMem window buffer) := by
    unfold Host.comparePmTableMem
    cases phyTablePtr window with
    | none => exact Prog.passes_ret _
    | some src =>
      exact Prog.passes_ite (fun _ => Prog.passes_ret _)
        fun _ => aims_host fun _ => Prog.passes_ret _
  apply aims_system (by trivial)
  intro isSmu
  exact Prog.passes_ite (fun _ => Prog.passes_ret _) fun _ => hmem

theorem cpuidGetFamily_aims (p : Statics) : Aims (Host.cpuidGetFamily p) :=
  Prog.passes_bind (Prog.passes_link (fun _ _ => aims_host fun _ => Prog.passes_ret _) _ ())
    fun _ => Prog.passes_ret _

theorem mailboxImpl_aims (p : Statics) (o : Mailbox.Op) : Aims (Host.mailboxImpl p o) := by
  have hbackend : ∀ {β γ : Type} {q : Prog sys β} (f : β → γ), AimsSys q →
      Aims (q.inl.bind fun r => .ret (f r)) :=
    fun f hq => Prog.passes_bind (Prog.passes_inl hq) fun r => Prog.passes_ret (f r)
  cases o with
  | smuLockFd => exact Prog.passes_ret _
  | cpuidGetFamily => exact cpuidGetFamily_aims p
  | smnRegRead obj addr =>
    exact hbackend _ (smnRegReadLinux_aims obj addr)
  | smnRegWrite obj addr data =>
    exact hbackend _ (smnRegWriteLinux_aims obj addr data)
  | smuRawCmd obj msg rep argBase id args =>
    exact hbackend _ (smuRawCmdLinux_aims obj msg rep argBase id args)
  | smnIoTakeError => exact aims_system (by trivial) fun _ => Prog.passes_ret _
  | _ => exact aims_host fun _ => Prog.passes_ret _

theorem apiImpl_aims (p : Statics) (o : Api.Op) : Aims (Host.apiImpl p o) := by
  have hthen : ∀ {β γ : Type} {q : Prog linux β} (f : β → γ), Aims q →
      Aims (q.bind fun r => .ret (f r)) :=
    fun f hq => Prog.passes_bind hq fun r => Prog.passes_ret (f r)
  cases o with
  | smuServiceReq smu id args => exact Prog.passes_link mailboxImpl_aims _ p
  | getSmu obj smuType => exact Prog.passes_link mailboxImpl_aims _ p
  | cpuidGetFamily => exact cpuidGetFamily_aims p
  | initOsAccessObj => exact hthen _ initOsAccessObj_aims
  | freeOsAccessObj obj => exact hthen _ (freeOsAccessObj_aims p.window obj)
  | initMemObj obj physAddr size => exact hthen _ (initMemObj_aims p.window physAddr size)
  | copyPmTable obj size => exact hthen _ (copyPmTable_aims p.window obj size)
  | comparePmTable buffer => exact hthen _ (comparePmTable_aims p.window buffer)
  | undefined => exact Prog.passes_inl undefined_aims
  | isUsingSmuDriver => exact aims_system (by trivial) fun _ => Prog.passes_ret _
  | _ => exact aims_host fun _ => Prog.passes_ret _

end Process
end RyzenAdj
