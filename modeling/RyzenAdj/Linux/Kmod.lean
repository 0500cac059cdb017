import RyzenAdj.Linux.System

/-!
# The kernel-module backend (`lib/linux/osdep_linux_smu_kernel_module.c`)

SMN registers, the raw command and the PM table through the sysfs files of
`ryzen_smu`.
-/

namespace RyzenAdj
open Interaction Sys

def getPmTableSize : Prog sys (Option Nat) := do
  let fd ← openFile "/sys/kernel/ryzen_smu_drv/pm_table_size"
  if fd = -1 then return none
  let t ← readFull fd 4
  closeFd fd
  if t.error.isSome then return none
  let tableSz := ((bytesWords t.data).headD 0).toNat
  if tableSz = 0 ∨ ryzenadjMaxTableSize < tableSz then return none
  return some tableSz

/-- `init_os_access_obj_kmod`: only the SMN file is mandatory; a PM table that
cannot be opened is the same as none. -/
def initOsAccessObjKmod : Prog sys (Option KmodObj) := do
  let allocated ← malloc
  if !allocated then return none
  let reported ← getPmTableSize
  let pmTableSize := reported.getD 0
  let smnFd ← openFile "/sys/kernel/ryzen_smu_drv/smn"
  if smnFd = -1 then return none
  let rawCmdFd ← openFile "/sys/kernel/ryzen_smu_drv/smu_raw_cmd"
  if pmTableSize = 0 then return some ⟨smnFd, -1, rawCmdFd, pmTableSize⟩
  let pmTableFd ← openFile "/sys/kernel/ryzen_smu_drv/pm_table"
  if pmTableFd = -1 then return some ⟨smnFd, -1, rawCmdFd, 0⟩
  return some ⟨smnFd, pmTableFd, rawCmdFd, pmTableSize⟩

def smnRegReadKmod (o : KmodObj) (addr : Word) : Prog sys Word := do
  let seekError ← lseek o.smnFd
  if seekError.isSome then
    smnIoSetError
    return 0
  let writeError ← writeFull o.smnFd (wordBytes addr)
  if writeError.isSome then
    smnIoSetError
    return 0
  let seekError ← lseek o.smnFd
  if seekError.isSome then
    smnIoSetError
    return 0
  let t ← readFull o.smnFd 4
  if t.error.isSome then
    smnIoSetError
    return 0
  return (bytesWords t.data).headD 0

def smnRegWriteKmod (o : KmodObj) (addr data : Word) : Prog sys Unit := do
  let seekError ← lseek o.smnFd
  if seekError.isSome then
    smnIoSetError
    return ()
  let writeError ← writeFull o.smnFd (wordBytes addr ++ wordBytes data)
  if writeError.isSome then smnIoSetError else return ()

/-- `copy_pm_table_kmod`: what reached the buffer, and whether the return value is 0. -/
def copyPmTableKmod (o : KmodObj) (size : Nat) : Prog sys (Transfer size) := do
  if o.pmTableFd < 0 ∨ o.pmTableSize = 0 then return .failed size eIo
  if o.pmTableSize < size then return .failed size eIo
  match ← lseek o.pmTableFd with
  | some e => return .failed size e
  | none => readFull o.pmTableFd size

/-- `RSMU_RET_CMD_TIMEOUT`, the status `ryzen_smu` reports for an SMU that does not answer. -/
def rsmuRetCmdTimeout : Word := 0xFB

/-- The request `smu_raw_cmd` takes: mailbox registers, message, arguments. -/
def rawRequest (msg rep argBase id : Word) (args : Args) : List Byte :=
  [msg, rep, argBase, id, args.arg0, args.arg1, args.arg2, args.arg3, args.arg4,
    args.arg5].flatMap wordBytes

/-- The switch over `res[0]`: the response and the caller's arguments. -/
def rawResponse (args : Args) : List Word → Word × Args
  | [code, r1, r2, r3, r4, r5, r6] =>
    if code = repMsgOK then
      (code, ⟨r1, r2, r3, r4, r5, r6⟩)
    else if code = repMsgFailed ∨ code = repMsgUnknownCmd ∨ code = repMsgCmdRejectedPrereq ∨
        code = repMsgCmdRejectedBusy then
      (code, args)
    else if code = rsmuRetCmdTimeout then
      (repMsgTimeout, args)
    else
      -- PCI failure or invalid argument inside the driver
      (repMsgFailed, args)
  | _ => (repMsgFailed, args)

/-- `lseek` and then the whole transfer, the first error ending it. -/
def seekWriteFull (fd : Int) (bytes : List Byte) : Prog sys (Option Errno) := do
  match ← lseek fd with
  | some e => return some e
  | none => writeFull fd bytes

def seekReadFull (fd : Int) (len : Nat) : Prog sys (Transfer len) := do
  match ← lseek fd with
  | some e => return .failed len e
  | none => readFull fd len

/-- `smu_raw_cmd_kmod`: `none` is the return value -1, by which the caller falls
back to the registers; that is the answer to EINVAL, a mailbox outside the
driver's allowed window. EAGAIN says that another process overwrote the result. -/
def smuRawCmdKmod (o : KmodObj) (msg rep argBase id : Word) (args : Args) :
    Prog sys (Option (Word × Args)) := do
  if o.rawCmdFd < 0 then return none
  match ← seekWriteFull o.rawCmdFd (rawRequest msg rep argBase id args) with
  | some e => return if e = eInval then none else some (repMsgFailed, args)
  | none =>
    let t ← seekReadFull o.rawCmdFd 28
    match t.error with
    | some e => return some (if e = eAgain then repMsgCmdRejectedBusy else repMsgFailed, args)
    | none => return some (rawResponse args (bytesWords t.data))

end RyzenAdj
