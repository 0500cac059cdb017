import RyzenAdj.Api.Cpuid
import RyzenAdj.Api.Interface
import RyzenAdj.Linux.Detection
import RyzenAdj.Linux.Dispatch
import RyzenAdj.Smu.Service

/-!
# The library as a Linux process

Everything that `api.c` calls, down to the calls on the kernel, on libpci and on
the C library: `osdep_linux.c` with both backends, the lock file and the clock
of `nb_smu_ops.c`, and `cpuid.c`, over the statics of the process.
-/

namespace RyzenAdj
open Interaction Libc

/-- The calls that are not among those of the two backends. -/
inductive Host.Op where
  | openSmuLock
  | flockEx (fd : Int)
  | flockUn (fd : Int)
  | monotonicMs
  | usleep
  | shortSleep
  | lstat (path : String)
  | fopen (path : String)
  -- the text that a stream has to give from where it stands
  | text (stream : Nat)
  | fclose (stream : Nat)
  | pciFreeDev (dev : Nat)
  | pciCleanup (acc : Nat)
  | sysconf
  | mmap (fd : Int) (len offset : Nat)
  | munmap (base len : Nat)
  -- the bytes behind a mapped range
  | memory (start n : Nat)
  | malloc
  | calloc (nmemb : Nat)
  | sleep (ms : Nat)
  | processor (o : Processor.Op)

abbrev Host.Ret : Host.Op → Type
  | .openSmuLock => Int
  | .flockEx _ => FlockResult
  | .flockUn _ => Unit
  | .monotonicMs => Nat
  | .usleep => Unit
  | .shortSleep => Unit
  | .lstat _ => Bool
  | .fopen _ => Option Nat
  | .text _ => CString
  | .fclose _ => Unit
  | .pciFreeDev _ => Unit
  | .pciCleanup _ => Unit
  | .sysconf => BitVec 64
  | .mmap _ _ _ => Bool
  | .munmap _ _ => Unit
  | .memory _ n => { bytes : List Byte // bytes.length = n }
  | .malloc => Bool
  | .calloc _ => Bool
  | .sleep _ => Unit
  | .processor o => processor.Ret o

abbrev host : Signature := ⟨Host.Op, Host.Ret⟩

/-- What a process of the library calls. -/
abbrev linux : Signature := sys.sum host

/-- The statics `smu_lock_fd`, `cpuid_family` and those of the mapped window. -/
structure Statics where
  smuLockFd : Int
  cpuidFamily : Option RyzenFamily
  window : PhyMap

def Statics.initial : Statics := ⟨-1, none, .initial⟩

namespace Host

def call (o : Host.Op) : Prog linux (Host.Ret o) := .perform (S := linux) (.inr o)
def system (o : Sys.Op) : Prog linux (Sys.Ret o) := .perform (S := linux) (.inl o)
def undefined {α : Type} : Prog linux α := (Sys.undefined : Prog sys α).inl

/-! ### `osdep_linux.c` -/

def isRyzenSmuDriverCompatible : Prog linux Bool := do
  match ← call (.fopen "/sys/kernel/ryzen_smu_drv/drv_version") with
  | none => return false
  | some drvVer =>
    let text ← call (.text drvVer)
    call (.fclose drvVer)
    return versionCompatible text

/-- `init_os_access_obj_mem` with the release of what it has taken. -/
def initOsAccessObjMem : Prog linux (Option MemObj) := do
  let allocated ← system .malloc
  if !allocated then return none
  match ← system .pciAlloc with
  | none => return none
  | some pciAcc =>
    match ← system (.pciGetDev pciAcc) with
    | none =>
      call (.pciCleanup pciAcc)
      return none
    | some pciDev => return some ⟨pciAcc, pciDev⟩

def initOsAccessObj : Prog linux (Option OsAccessObj) := do
  let there ← call (.lstat "/sys/kernel/ryzen_smu_drv")
  let detected ← if there then isRyzenSmuDriverCompatible else pure false
  if detected then
    system (.setIsSmu true)
    let o ← initOsAccessObjKmod.inl
    return o.map .kmod
  else
    let o ← initOsAccessObjMem
    return o.map .mem

def unmapPhy (window : PhyMap) : Prog linux Unit :=
  match window.phyMap with
  | none => return ()
  | some base => call (.munmap base window.phyMapLen)

/-- `init_mem_obj_mem`: true is the return value 0. -/
def initMemObjMem (window : PhyMap) (physAddr : BitVec 64) (size : Nat) :
    Prog linux (Bool × PhyMap) := do
  let sz ← call .sysconf
  let pgsz := pageSize sz
  unmapPhy window
  let devMemFd ← system (.openFile "/dev/mem")
  if devMemFd < 0 then return RyzenAdj.initMemObjMem pgsz window .openFailed physAddr size
  let (aligned, _, len) := phyWindow pgsz physAddr size
  let mapped ← call (.mmap devMemFd len aligned)
  system (.closeFd devMemFd)
  return RyzenAdj.initMemObjMem pgsz window (if mapped then .mapped else .mmapFailed) physAddr size

def initMemObj (window : PhyMap) (physAddr : BitVec 64) (size : Nat) :
    Prog linux (Bool × PhyMap) := do
  let isSmu ← system .isSmu
  if isSmu then return (true, window)
  initMemObjMem window physAddr size

/-- A descriptor of the object is closed where there is one. -/
def closeOpen (fd : Int) : Prog linux Unit :=
  if 0 ≤ fd then system (.closeFd fd) else return ()

def freeOsAccessObjKmod (o : KmodObj) : Prog linux Unit := do
  closeOpen o.smnFd
  closeOpen o.pmTableFd
  closeOpen o.rawCmdFd

def freeOsAccessObjMem (window : PhyMap) (o : MemObj) : Prog linux Unit := do
  unmapPhy window
  call (.pciFreeDev o.pciDev)
  call (.pciCleanup o.pciAcc)

def freeOsAccessObj (window : PhyMap) (obj : OsAccessObj) : Prog linux PhyMap := do
  let isSmu ← system .isSmu
  match isSmu, obj with
  | true, .kmod o =>
    freeOsAccessObjKmod o
    system (.setIsSmu false)
    return window
  | false, .mem o =>
    freeOsAccessObjMem window o
    system (.setIsSmu false)
    return RyzenAdj.unmapPhy window
  | _, _ => undefined

def copyPmTableMem (window : PhyMap) (size : Nat) : Prog linux (Transfer size) :=
  match phyTablePtr window with
  | none => return .failed size eIo
  | some src =>
    if phyTableAvail window < size then
      return .failed size eIo
    else do
      let bytes ← call (.memory src size)
      return ⟨bytes.val, none, Nat.le_of_eq bytes.property, fun _ => bytes.property⟩

def copyPmTable (window : PhyMap) (obj : OsAccessObj) (size : Nat) :
    Prog linux (Transfer size) := do
  let isSmu ← system .isSmu
  match isSmu, obj with
  | true, .kmod o => (copyPmTableKmod o size).inl
  | false, _ => copyPmTableMem window size
  | true, .mem _ => undefined

def comparePmTableMem (window : PhyMap) (buffer : List Byte) : Prog linux Int :=
  match phyTablePtr window with
  | none => return -1
  | some src =>
    if phyTableAvail window < buffer.length then
      return -1
    else do
      let bytes ← call (.memory src buffer.length)
      return memcmp buffer bytes.val

def comparePmTable (window : PhyMap) (buffer : List Byte) : Prog linux Int := do
  let isSmu ← system .isSmu
  if isSmu then return -1
  comparePmTableMem window buffer

/-! ### The statics -/

def processorImpl : Impl processor linux Unit := fun _ o => do
  let r ← call (.processor o)
  return (r, ())

def cpuidGetFamily (p : Statics) : Prog linux (RyzenFamily × Statics) := do
  let ((family, cpuidFamily), _) ← (Cpuid.cpuidGetFamily p.cpuidFamily).link processorImpl ()
  return (family, { p with cpuidFamily := cpuidFamily })

/-- What `nb_smu_ops.c` calls. -/
def mailboxImpl : Impl mailbox linux Statics
  | p, .smuLockFd => return (decide (0 ≤ p.smuLockFd), p)
  | p, .openSmuLock => do
    let fd ← call .openSmuLock
    return (decide (0 ≤ fd), { p with smuLockFd := fd })
  | p, .flockEx => do
    let r ← call (.flockEx p.smuLockFd)
    return (r, p)
  | p, .flockUn => do
    call (.flockUn p.smuLockFd)
    return ((), p)
  | p, .monotonicMs => do
    let now ← call .monotonicMs
    return (now, p)
  | p, .usleep => do
    call .usleep
    return ((), p)
  | p, .shortSleep => do
    call .shortSleep
    return ((), p)
  | p, .malloc => do
    let allocated ← call .malloc
    return (allocated, p)
  | p, .cpuidGetFamily => cpuidGetFamily p
  | p, .smnRegRead obj addr => do
    let data ← (smnRegReadLinux obj addr).inl
    return (data, p)
  | p, .smnRegWrite obj addr data => do
    (smnRegWriteLinux obj addr data).inl
    return ((), p)
  | p, .smnIoTakeError => do
    let failed ← system .smnIoTakeError
    return (failed, p)
  | p, .smuRawCmd obj msg rep argBase id args => do
    let r ← (smuRawCmdLinux obj msg rep argBase id args).inl
    return (r, p)

/-- What `api.c` calls. -/
def apiImpl : Impl api linux Statics
  | p, .smuServiceReq smu id args => (RyzenAdj.smuServiceReq smu id args).link mailboxImpl p
  | p, .getSmu obj smuType => (RyzenAdj.getSmu obj smuType).link mailboxImpl p
  | p, .cpuidGetFamily => cpuidGetFamily p
  | p, .initOsAccessObj => do
    let obj ← initOsAccessObj
    return (obj, p)
  | p, .freeOsAccessObj obj => do
    let window ← freeOsAccessObj p.window obj
    return ((), { p with window := window })
  | p, .isUsingSmuDriver => do
    let isSmu ← system .isSmu
    return (isSmu, p)
  | p, .initMemObj _ physAddr size => do
    let (ok, window) ← initMemObj p.window physAddr size
    return (ok, { p with window := window })
  | p, .copyPmTable obj size => do
    let t ← copyPmTable p.window obj size
    return (t, p)
  | p, .comparePmTable buffer => do
    let r ← comparePmTable p.window buffer
    return (r, p)
  | p, .malloc => do
    let allocated ← call .malloc
    return (allocated, p)
  | p, .calloc nmemb => do
    let allocated ← call (.calloc nmemb)
    return (allocated, p)
  | p, .sleep ms => do
    call (.sleep ms)
    return ((), p)
  | _, .undefined => undefined

end Host
end RyzenAdj
