import Mathlib.Logic.Function.Basic
import RyzenAdj.Linux.Host

/-!
# The backend on Windows (`lib/win32/osdep_win32.cpp`)

SMN registers are reached through WinRing0, the memory of the PM table through
`inpoutx64.DLL`, which is loaded when it is first wanted and called through the
pointers that `GetProcAddress` has given. There is no lock file, no driver file
and no report of a failed register access.
-/

namespace RyzenAdj
open Interaction Libc

structure WinObj where
  pciAddress : Word
  inpoutDll : Option Nat

/-- The calls on WinRing0, on `inpoutx64.DLL` and on the system. A function of the DLL is called by
a pointer, of which only the DLL it points into is kept. -/
inductive Windows.Op where
  | initializeOls
  | getDllStatus
  | deinitializeOls
  | writePciConfigDword (pciAddress reg val : Word)
  | readPciConfigDword (pciAddress reg : Word)
  | loadLibrary (name : String)
  | getProcAddress (dll : Nat) (name : String)
  | freeLibrary (dll : Nat)
  | isInpOutDriverOpen (dll : Nat)
  | mapPhysToLin (dll : Nat) (physAddr : BitVec 64) (size : Nat)
  | unmapPhysicalMemory (dll : Nat) (handle : Option Nat) (linAddr : Nat)
  -- the bytes from an address on
  | memory (linAddr n : Nat)
  | mallocObj
  -- a field of an access object is read or written
  | deref (obj : Nat)
  | free (obj : Nat)
  | malloc
  | calloc (nmemb : Nat)
  | getTickCount64
  | sleep (ms : Nat)
  | processor (o : Processor.Op)
  -- a call through NULL, or a function that this system has not
  | undefined

abbrev Windows.Ret : Windows.Op → Type
  | .initializeOls => Unit
  | .getDllStatus => Word
  | .deinitializeOls => Unit
  | .writePciConfigDword _ _ _ => Unit
  | .readPciConfigDword _ _ => Word
  | .loadLibrary _ => Option Nat
  | .getProcAddress _ _ => Bool
  | .freeLibrary _ => Unit
  | .isInpOutDriverOpen _ => Bool
  -- the address, and what `*pPhysicalMemoryHandle` holds afterwards
  | .mapPhysToLin _ _ _ => Option Nat × Option Nat
  | .unmapPhysicalMemory _ _ _ => Unit
  | .memory _ n => { bytes : List Byte // bytes.length = n }
  | .mallocObj => Option Nat
  | .deref _ => Unit
  | .free _ => Unit
  | .malloc => Bool
  | .calloc _ => Bool
  | .getTickCount64 => Nat
  | .sleep _ => Unit
  | .processor o => processor.Ret o
  | .undefined => Empty

abbrev windows : Signature := ⟨Windows.Op, Windows.Ret⟩

/-- The statics of the backend, `cpuid_family`, and the access objects on the heap. -/
structure WinStatics where
  gfpIsInpOutDriverOpen : Option Nat
  gfpGetPhysLong : Option Nat
  gfpMapPhysToLin : Option Nat
  gfpUnmapPhysicalMemory : Option Nat
  pdwLinAddr : Option Nat
  physicalMemoryHandle : Option Nat
  phyMapLen : Nat
  cpuidFamily : Option RyzenFamily
  objs : Nat → WinObj

def WinStatics.initial : WinStatics :=
  ⟨none, none, none, none, none, none, 0, none, fun _ => ⟨0, none⟩⟩

namespace Windows

def call (o : Windows.Op) : Prog windows (Windows.Ret o) := .perform (S := windows) o
def undefined {α : Type} : Prog windows α := .call (S := windows) .undefined fun r => nomatch r

def olsDllNoError : Word := 0

/-- The pointer to an access object, as `api.c` passes it on. -/
def objPtr (obj : Nat) : OsAccessObj := .mem ⟨obj, 0⟩

def objOf : OsAccessObj → Nat
  | .mem o => o.pciAcc
  | .kmod _ => 0

def initOsAccessObj (p : WinStatics) : Prog windows (Option OsAccessObj × WinStatics) := do
  call .initializeOls
  let dllStatus ← call .getDllStatus
  if dllStatus = olsDllNoError then
    match ← call .mallocObj with
    | none => return (none, p)
    | some obj =>
      call (.deref obj)
      return (some (objPtr obj), { p with objs := Function.update p.objs obj ⟨0, none⟩ })
  else
    return (none, p)

/-- The release of the window, in `free_os_access_obj`. -/
def unmapWindow (p : WinStatics) : Prog windows WinStatics :=
  match p.pdwLinAddr, p.gfpUnmapPhysicalMemory with
  | some linAddr, some dll => do
    call (.unmapPhysicalMemory dll p.physicalMemoryHandle linAddr)
    return { p with pdwLinAddr := none, physicalMemoryHandle := none, phyMapLen := 0 }
  | _, _ => return p

def freeOsAccessObj (p : WinStatics) (obj : Nat) : Prog windows WinStatics := do
  call .deinitializeOls
  let p ← unmapWindow p
  call (.deref obj)
  match (p.objs obj).inpoutDll with
  | some dll =>
    call (.freeLibrary dll)
    call (.free obj)
    return p
  | none =>
    call (.free obj)
    return p

def smnRegRead (p : WinStatics) (obj : Nat) (addr : Word) : Prog windows Word := do
  call (.deref obj)
  call (.writePciConfigDword (p.objs obj).pciAddress nbPciRegAddrAddr (addr &&& ~~~(3 : Word)))
  call (.deref obj)
  call (.readPciConfigDword (p.objs obj).pciAddress nbPciRegDataAddr)

def smnRegWrite (p : WinStatics) (obj : Nat) (addr data : Word) : Prog windows Unit := do
  call (.deref obj)
  call (.writePciConfigDword (p.objs obj).pciAddress nbPciRegAddrAddr addr)
  call (.deref obj)
  call (.writePciConfigDword (p.objs obj).pciAddress nbPciRegDataAddr data)

/-- The pointer to a function of the DLL; `none` is NULL. -/
def procAddress (dll : Nat) (name : String) : Prog windows (Option Nat) := do
  let found ← call (.getProcAddress dll name)
  return if found then some dll else none

/-- `init_mem_obj` from the call of `MapPhysToLin` on. -/
def mapWindow (p : WinStatics) (obj dll map : Nat) (physAddr : BitVec 64) (size : Nat) :
    Prog windows (Bool × WinStatics) := do
  let len := if size ≠ 0 ∧ size ≤ ryzenadjMaxTableSize then size else ryzenadjMaxTableSize
  let (linAddr, handle) ← call (.mapPhysToLin map physAddr len)
  if linAddr.isNone then
    return (false, { p with
      pdwLinAddr := none
      physicalMemoryHandle := handle
      phyMapLen := 0 })
  else
    call (.deref obj)
    let object : WinObj := { p.objs obj with inpoutDll := some dll }
    return (true, { p with
      pdwLinAddr := linAddr
      physicalMemoryHandle := handle
      phyMapLen := len
      objs := Function.update p.objs obj object })

/-- `init_mem_obj` with the pointers fetched. That the one to `IsInpOutDriverOpen` is not NULL is
checked only after it has been called. -/
def mapTable (p : WinStatics) (obj dll : Nat) (physAddr : BitVec 64) (size : Nat) :
    Prog windows (Bool × WinStatics) :=
  match p.gfpIsInpOutDriverOpen with
  | none => undefined
  | some f => do
    let driverOpen ← call (.isInpOutDriverOpen f)
    if !driverOpen then return (false, p)
    if p.gfpUnmapPhysicalMemory.isNone then return (false, p)
    match p.gfpMapPhysToLin with
    | none => return (false, p)
    | some map => mapWindow p obj dll map physAddr size

/-- `init_mem_obj`: true is the return value 0. -/
def initMemObj (p : WinStatics) (obj : Nat) (physAddr : BitVec 64) (size : Nat) :
    Prog windows (Bool × WinStatics) := do
  match ← call (.loadLibrary "inpoutx64.DLL") with
  | none => return (false, p)
  | some dll =>
    let isOpen ← procAddress dll "IsInpOutDriverOpen"
    let getPhysLong ← procAddress dll "GetPhysLong"
    let map ← procAddress dll "MapPhysToLin"
    let unmap ← procAddress dll "UnmapPhysicalMemory"
    mapTable { p with
      gfpIsInpOutDriverOpen := isOpen
      gfpGetPhysLong := getPhysLong
      gfpMapPhysToLin := map
      gfpUnmapPhysicalMemory := unmap } obj dll physAddr size

def copyPmTable (p : WinStatics) (size : Nat) : Prog windows (Transfer size) :=
  match p.pdwLinAddr with
  | none => return .failed size eIo
  | some linAddr =>
    if p.phyMapLen < size then
      return .failed size eIo
    else do
      let bytes ← call (.memory linAddr size)
      return ⟨bytes.val, none, Nat.le_of_eq bytes.property, fun _ => bytes.property⟩

def comparePmTable (p : WinStatics) (buffer : List Byte) : Prog windows Int :=
  match p.pdwLinAddr with
  | none => return -1
  | some linAddr =>
    if p.phyMapLen < buffer.length then
      return -1
    else do
      let bytes ← call (.memory linAddr buffer.length)
      return memcmp buffer bytes.val

def processorImpl : Impl processor windows Unit := fun _ o => do
  let r ← call (.processor o)
  return (r, ())

def cpuidGetFamily (p : WinStatics) : Prog windows (RyzenFamily × WinStatics) := do
  let ((family, cpuidFamily), _) ← (Cpuid.cpuidGetFamily p.cpuidFamily).link processorImpl ()
  return (family, { p with cpuidFamily := cpuidFamily })

/-- What `nb_smu_ops.c` calls. `smu_lock` and `smu_unlock` are empty on this system, as they are
elsewhere when there is no lock file to be had. -/
def mailboxImpl : Impl mailbox windows WinStatics
  | p, .smuLockFd => return (false, p)
  | p, .openSmuLock => return (false, p)
  | _, .flockEx => undefined
  | _, .flockUn => undefined
  | p, .monotonicMs => do
    let now ← call .getTickCount64
    return (now, p)
  | p, .usleep => do
    call (.sleep 1)
    return ((), p)
  | p, .shortSleep => do
    call (.sleep 1)
    return ((), p)
  | p, .malloc => do
    let allocated ← call .malloc
    return (allocated, p)
  | p, .cpuidGetFamily => cpuidGetFamily p
  | p, .smnRegRead obj addr => do
    let data ← smnRegRead p (objOf obj) addr
    return (data, p)
  | p, .smnRegWrite obj addr data => do
    smnRegWrite p (objOf obj) addr data
    return ((), p)
  | p, .smnIoTakeError => return (false, p)
  | p, .smuRawCmd _ _ _ _ _ _ => return (none, p)

theorem smuLock_empty (p : WinStatics) : smuLock.link mailboxImpl p = .ret (true, p) := rfl

theorem smuUnlock_empty (p : WinStatics) : smuUnlock.link mailboxImpl p = .ret ((), p) := rfl

/-- What `api.c` calls. -/
def apiImpl : Impl api windows WinStatics
  | p, .smuServiceReq smu id args => (RyzenAdj.smuServiceReq smu id args).link mailboxImpl p
  | p, .getSmu obj smuType => (RyzenAdj.getSmu obj smuType).link mailboxImpl p
  | p, .cpuidGetFamily => cpuidGetFamily p
  | p, .initOsAccessObj => initOsAccessObj p
  | p, .freeOsAccessObj obj => do
    let p ← freeOsAccessObj p (objOf obj)
    return ((), p)
  | p, .isUsingSmuDriver => return (false, p)
  | p, .initMemObj obj physAddr size => initMemObj p (objOf obj) physAddr size
  | p, .copyPmTable _ size => do
    let t ← copyPmTable p size
    return (t, p)
  | p, .comparePmTable buffer => do
    let r ← comparePmTable p buffer
    return (r, p)
  | p, .malloc => do
    let allocated ← call .malloc
    return (allocated, p)
  | p, .calloc nmemb => do
    let allocated ← call (.calloc nmemb)
    return (allocated, p)
  | p, .sleep ms => do
    call (.sleep ms)
    return ((), p)
  | _, .undefined => undefined

end Windows
end RyzenAdj
