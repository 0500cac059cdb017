import RyzenAdj.Api.Session
import RyzenAdj.Api.SetterLaw
import RyzenAdj.Cli.Main
import RyzenAdj.Interaction.Link

/-!
# What the tool prints (`main.c`, `show_info_header` to `show_table_dump`)

The functions of `main.c` that read the handle and print, over the calls of the
library and those of the console; and with them the whole tool, the calls of
`main` carried out on the handle that `init_ryzenadj` returned.
-/

namespace RyzenAdj
open Interaction Libc

/-- A line that `main` prints from `init_ryzenadj` on, or a function it calls with the handle; a
`float` is its bits. The usage, the errors of the parser and of the exclusive options and the
warning about root come before it, and what the library prints is not among them. -/
inductive Line where
  | unableToInit
  | unableToInitTable (tableErr : Int)
  | cpuFamily (name : String)
  | biosIfVer (ver : Word)
  | version
  | adjusted (c : SetCall)
  | notAdjusted (c : SetCall) (adjerr : Int)
  | tableVersion (ver : Word)
  | unableToRefresh (errorcode : Int)
  | infoHead
  | infoRow (name : String) (value : Word) (param : String)
  | dumpVersion (ver : Word)
  | dumpUnavailable
  | outOfMemory
  | dumpHead
  | dumpRow (offset : Nat) (data value : Word)
  | adjustHead
  | adjustRow (offset : Nat) (data value adjusted : Word)
  deriving DecidableEq

inductive Console.Op where
  | print (l : Line)
  | malloc (size : Nat)

abbrev console : Signature where
  Op := Console.Op
  Ret
    | .print _ => Unit
    | .malloc _ => Bool

/-- A console that takes every line and has memory to give. -/
def quietConsole : (o : console.Op) → console.Ret o
  | .print _ => ()
  | .malloc _ => true

abbrev tool : Signature := api.sum console

namespace Tool

def print (l : Line) : Prog tool Unit := .perform (S := tool) (.inr (.print l))
def malloc (size : Nat) : Prog tool Bool := .perform (S := tool) (.inr (.malloc size))
def undefined {α : Type} : Prog tool α := (Api.undefined : Prog api α).inl

end Tool
open Tool

def familyName : RyzenFamily → String
  | .raven => "Raven"
  | .picasso => "Picasso"
  | .renoir => "Renoir"
  | .cezanne => "Cezanne"
  | .dali => "Dali"
  | .mendocino => "Mendocino"
  | .lucienne => "Lucienne"
  | .vangogh => "Vangogh"
  | .rembrandt => "Rembrandt"
  | .phoenix => "Phoenix Point"
  | .hawkpoint => "Hawk Point"
  | .dragonrange => "Dragon Range"
  | .krackanpoint => "Krackan Point"
  | .strixpoint => "Strix Point"
  | .strixhalo => "Strix Halo"
  | .firerange => "Fire Range"
  | .unknown => "Unknown"

/-- `get_cpu_family` and `get_table_values`; the buffer stays the handle's. -/
def getCpuFamily (ry : RyzenAccess) : RyzenFamily := ry.family
def getTableValues (ry : RyzenAccess) : Option (List Byte) := ry.tableValues

def showInfoHeader (ry : RyzenAccess) : Prog tool RyzenAccess := do
  print (.cpuFamily (familyName (getCpuFamily ry)))
  let (ver, ry) ← (getBiosIfVer ry).inl
  print (.biosIfVer ver)
  print .version
  return ry

/-- The rows of `show_info_table`: `tableFormat` of a name, a getter and a parameter. -/
def infoRows : List (String × Getter × String) :=
  [("STAPM LIMIT", getStapmLimit, "stapm-limit"),
    ("STAPM VALUE", getStapmValue, ""),
    ("PPT LIMIT FAST", getFastLimit, "fast-limit"),
    ("PPT VALUE FAST", getFastValue, ""),
    ("PPT LIMIT SLOW", getSlowLimit, "slow-limit"),
    ("PPT VALUE SLOW", getSlowValue, ""),
    ("StapmTimeConst", getStapmTime, "stapm-time"),
    ("SlowPPTTimeConst", getSlowTime, "slow-time"),
    ("PPT LIMIT APU", getApuSlowLimit, "apu-slow-limit"),
    ("PPT VALUE APU", getApuSlowValue, ""),
    ("TDC LIMIT VDD", getVrmCurrent, "vrm-current"),
    ("TDC VALUE VDD", getVrmCurrentValue, ""),
    ("TDC LIMIT SOC", getVrmsocCurrent, "vrmsoc-current"),
    ("TDC VALUE SOC", getVrmsocCurrentValue, ""),
    ("EDC LIMIT VDD", getVrmmaxCurrent, "vrmmax-current"),
    ("EDC VALUE VDD", getVrmmaxCurrentValue, ""),
    ("EDC LIMIT SOC", getVrmsocmaxCurrent, "vrmsocmax-current"),
    ("EDC VALUE SOC", getVrmsocmaxCurrentValue, ""),
    ("THM LIMIT CORE", getTctlTemp, "tctl-temp"),
    ("THM VALUE CORE", getTctlTempValue, ""),
    ("STT LIMIT APU", getApuSkinTempLimit, "apu-skin-temp"),
    ("STT VALUE APU", getApuSkinTempValue, ""),
    ("STT LIMIT dGPU", getDgpuSkinTempLimit, "dgpu-skin-temp"),
    ("STT VALUE dGPU", getDgpuSkinTempValue, ""),
    ("CCLK Boost SETPOINT", getCclkSetpoint, "power-saving /"),
    ("CCLK BUSY VALUE", getCclkBusyValue, "max-performance")]

def printInfoRows (ry : RyzenAccess) : List (String × Getter × String) → Prog tool Unit
  | [] => return ()
  | (name, getter, param) :: rest =>
    match getter.read ry 0 with
    | none => undefined
    | some value => do
      print (.infoRow name value param)
      printInfoRows ry rest

def showInfoTable (depth : Nat) (ry : RyzenAccess) : Prog tool RyzenAccess := do
  let (ver, ry) ← (getTableVer depth ry).inl
  print (.tableVersion ver)
  let (errorcode, ry) ← (refreshTable depth ry).inl
  if errorcode ≠ 0 then
    print (.unableToRefresh errorcode)
    return ry
  print .infoHead
  printInfoRows ry infoRows
  return ry

/-- The loops over `index`, from `index` on, `count` cells being left. -/
def printDumpRows (data values : List Byte) : (index count : Nat) → Prog tool Unit
  | _, 0 => return ()
  | index, count + 1 =>
    match cellAt data index, cellAt values index with
    | some word, some value => do
      print (.dumpRow (index * 4) word value)
      printDumpRows data values (index + 1) count
    | _, _ => undefined

def printAdjustRows (data old values : List Byte) : (index count : Nat) → Prog tool Unit
  | _, 0 => return ()
  | index, count + 1 =>
    match cellAt data index, cellAt old index, cellAt values index with
    | some word, some value, some adjusted => do
      print (.adjustRow (index * 4) word value adjusted)
      printAdjustRows data old values (index + 1) count
    | _, _, _ => undefined

/-- The copies of `show_table_dump` are the first `table_size` bytes of the buffer, which the
refresh in between writes over; `current_table_values` goes on pointing to it. -/
def dumpAdjusted (depth : Nat) (ry : RyzenAccess) (tableSize : Nat) (tableDataCopy : List Byte) :
    Prog tool RyzenAccess := do
  let allocated ← malloc tableSize
  if !allocated then
    print .outOfMemory
    return ry
  let oldTableValues := tableDataCopy
  let (errorcode, ry) ← (refreshTable depth ry).inl
  if errorcode ≠ 0 then print (.unableToRefresh errorcode)
  print .adjustHead
  match getTableValues ry with
  | none => undefined
  | some currentTableValues =>
    printAdjustRows tableDataCopy oldTableValues currentTableValues 0 (tableSize / 4)
    return ry

def dumpPlain (ry : RyzenAccess) (tableSize : Nat) (tableDataCopy currentTableValues : List Byte) :
    Prog tool RyzenAccess := do
  print .dumpHead
  printDumpRows tableDataCopy currentTableValues 0 (tableSize / 4)
  return ry

def showTableDump (depth : Nat) (ry : RyzenAccess) (anyAdjustApplied : Bool) :
    Prog tool RyzenAccess := do
  let (ver, ry) ← (getTableVer depth ry).inl
  print (.dumpVersion ver)
  let (tableSize, ry) ← (getTableSize depth ry).inl
  match getTableValues ry with
  | none =>
    print .dumpUnavailable
    return ry
  | some currentTableValues =>
    if tableSize < 4 then
      print .dumpUnavailable
      return ry
    let allocated ← malloc tableSize
    if !allocated then
      print .outOfMemory
      return ry
    -- memcpy
    if currentTableValues.length < tableSize then undefined
    let tableDataCopy := currentTableValues.take tableSize
    if anyAdjustApplied then
      dumpAdjusted depth ry tableSize tableDataCopy
    else
      dumpPlain ry tableSize tableDataCopy currentTableValues

/-- The library's function of each variable. -/
def Limit.function : Limit → SetFunction
  | .stapmLimit => .stapmLimit
  | .fastLimit => .fastLimit
  | .slowLimit => .slowLimit
  | .slowTime => .slowTime
  | .stapmTime => .stapmTime
  | .tctlTemp => .tctlTemp
  | .vrmCurrent => .vrmCurrent
  | .vrmsocCurrent => .vrmsocCurrent
  | .vrmmaxCurrent => .vrmmaxCurrent
  | .vrmsocmaxCurrent => .vrmsocmaxCurrent
  | .psi0Current => .psi0Current
  | .psi0socCurrent => .psi0socCurrent
  | .vrmgfxCurrent => .vrmgfxCurrent
  | .vrmcvipCurrent => .vrmcvipCurrent
  | .vrmgfxmaxCurrent => .vrmgfxmaxCurrent
  | .psi3cpuCurrent => .psi3cpuCurrent
  | .psi3gfxCurrent => .psi3gfxCurrent
  | .maxSocclkFreq => .maxSocclkFreq
  | .minSocclkFreq => .minSocclkFreq
  | .maxFclkFreq => .maxFclkFreq
  | .minFclkFreq => .minFclkFreq
  | .maxVcn => .maxVcn
  | .minVcn => .minVcn
  | .maxLclk => .maxLclk
  | .minLclk => .minLclk
  | .maxGfxclkFreq => .maxGfxclkFreq
  | .minGfxclkFreq => .minGfxclkFreq
  | .prochotDeassertionRamp => .prochotDeassertionRamp
  | .apuSkinTempLimit => .apuSkinTempLimit
  | .dgpuSkinTempLimit => .dgpuSkinTempLimit
  | .apuSlowLimit => .apuSlowLimit
  | .skinTempPowerLimit => .skinTempPowerLimit
  | .gfxClk => .gfxClk
  | .ocClk => .ocClk
  | .ocVolt => .ocVolt

def Action.function : Action → SetFunction
  | .powerSaving => .powerSaving
  | .maxPerformance => .maxPerformance
  | .enableOc => .enableOc
  | .disableOc => .disableOc

def Curve.function : Curve → SetFunction
  | .coall => .coall
  | .coper => .coper
  | .cogfx => .cogfx

def SetCall.function : SetCall → SetFunction
  | .limit a _ => a.function
  | .action a => a.function
  | .curve a _ => a.function

def SetCall.value : SetCall → Word
  | .limit _ value => value
  | .action _ => 0
  | .curve _ value => value

def SetCall.prog (c : SetCall) (ry : RyzenAccess) : Prog api Int := c.function.setter.run ry c.value

/-- The calls of `main` and what it prints of their outcome. A handle is there once
`init_ryzenadj` has returned one; without it `main` makes no other call. -/
def toolImpl (depth : Nat) : Impl cli tool (Option RyzenAccess)
  | _, .initRyzenadj => do
    let ry ← (RyzenAdj.initRyzenadj).inl
    if ry.isNone then print .unableToInit
    return (ry.isSome, ry)
  | none, _ => undefined
  | some ry, .showInfoHeader => do
    let ry ← RyzenAdj.showInfoHeader ry
    return ((), some ry)
  | some ry, .initTable => do
    let (tableErr, ry) ← (RyzenAdj.initTable depth ry).inl
    if tableErr ≠ 0 then print (.unableToInitTable tableErr)
    return (tableErr, some ry)
  | some ry, .set c => do
    let adjerr ← (c.prog ry).inl
    if adjerr = 0 then print (.adjusted c) else print (.notAdjusted c adjerr)
    return (adjerr, some ry)
  | some ry, .showTableDump anyAdjustApplied => do
    let ry ← RyzenAdj.showTableDump depth ry anyAdjustApplied
    return ((), some ry)
  | some ry, .showInfoTable => do
    let ry ← RyzenAdj.showInfoTable depth ry
    return ((), some ry)
  | some ry, .cleanupRyzenadj => do
    (RyzenAdj.cleanupRyzenadj ry.osAccess).inl
    return ((), none)

/-- The tool on the words after the name of the program. -/
def ryzenadj (depth : Nat) (long : LongWidth) (args : List CString) : Prog tool Int :=
  ((main long args).link (toolImpl depth) none).bind fun x => .ret x.1

end RyzenAdj
