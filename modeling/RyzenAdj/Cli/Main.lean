import RyzenAdj.Cli.Argparse
import RyzenAdj.Interaction.Program

/-!
# The command-line tool (`main.c`)

The option table of `main` and what it does with the values: which of the
library's calls it makes, in which order, and its exit status. The library and
the functions that print are behind the calls of the signature `cli`.
-/

namespace RyzenAdj
open Interaction Libc

inductive Limit where
  | stapmLimit | fastLimit | slowLimit | slowTime | stapmTime | tctlTemp
  | vrmCurrent | vrmsocCurrent | vrmmaxCurrent | vrmsocmaxCurrent | psi0Current | psi0socCurrent
  | vrmgfxCurrent | vrmcvipCurrent | vrmgfxmaxCurrent | psi3cpuCurrent | psi3gfxCurrent
  | maxSocclkFreq | minSocclkFreq | maxFclkFreq | minFclkFreq | maxVcn | minVcn | maxLclk | minLclk
  | maxGfxclkFreq | minGfxclkFreq | prochotDeassertionRamp | apuSkinTempLimit | dgpuSkinTempLimit
  | apuSlowLimit | skinTempPowerLimit | gfxClk | ocClk | ocVolt
  deriving DecidableEq

inductive Action where
  | powerSaving | maxPerformance | enableOc | disableOc
  deriving DecidableEq

inductive Flag where
  | info | dumpTable
  | action (a : Action)
  deriving DecidableEq

/-- The `int64_t` variables. -/
inductive Curve where
  | coall | coper | cogfx
  deriving DecidableEq

abbrev CliOption := ArgparseOption Flag Limit Curve
abbrev CliVars := Vars Flag Limit Curve

def optHelp : CliOption :=
  { type := .boolean none, shortName := some 'h', longName := some "help".toList,
    callback := some .argparseHelpCb, noneg := true }

def optGroup : CliOption := { type := .group }

def optBoolean (shortName : Option Char) (longName : String) (value : Flag) : CliOption :=
  { type := .boolean (some value), shortName, longName := some longName.toList }

def optU32 (shortName : Option Char) (longName : String) (value : Limit) : CliOption :=
  { type := .u32 value, shortName, longName := some longName.toList }

def optCo32 (shortName : Option Char) (longName : String) (value : Curve) : CliOption :=
  { type := .co32 value, shortName, longName := some longName.toList }

def options : List CliOption :=
  [optHelp,
    optGroup,
    optBoolean (some 'i') "info" .info,
    optBoolean none "dump-table" .dumpTable,
    optGroup,
    optU32 (some 'a') "stapm-limit" .stapmLimit,
    optU32 (some 'b') "fast-limit" .fastLimit,
    optU32 (some 'c') "slow-limit" .slowLimit,
    optU32 (some 'd') "slow-time" .slowTime,
    optU32 (some 'e') "stapm-time" .stapmTime,
    optU32 (some 'f') "tctl-temp" .tctlTemp,
    optU32 (some 'g') "vrm-current" .vrmCurrent,
    optU32 (some 'j') "vrmsoc-current" .vrmsocCurrent,
    optU32 none "vrmgfx-current" .vrmgfxCurrent,
    optU32 none "vrmcvip-current" .vrmcvipCurrent,
    optU32 (some 'k') "vrmmax-current" .vrmmaxCurrent,
    optU32 (some 'l') "vrmsocmax-current" .vrmsocmaxCurrent,
    optU32 none "vrmgfxmax_current" .vrmgfxmaxCurrent,
    optU32 (some 'm') "psi0-current" .psi0Current,
    optU32 none "psi3cpu_current" .psi3cpuCurrent,
    optU32 (some 'n') "psi0soc-current" .psi0socCurrent,
    optU32 none "psi3gfx_current" .psi3gfxCurrent,
    optU32 (some 'o') "max-socclk-frequency" .maxSocclkFreq,
    optU32 (some 'p') "min-socclk-frequency" .minSocclkFreq,
    optU32 (some 'q') "max-fclk-frequency" .maxFclkFreq,
    optU32 (some 'r') "min-fclk-frequency" .minFclkFreq,
    optU32 (some 's') "max-vcn" .maxVcn,
    optU32 (some 't') "min-vcn" .minVcn,
    optU32 (some 'u') "max-lclk" .maxLclk,
    optU32 (some 'v') "min-lclk" .minLclk,
    optU32 (some 'w') "max-gfxclk" .maxGfxclkFreq,
    optU32 (some 'x') "min-gfxclk" .minGfxclkFreq,
    optU32 (some 'y') "prochot-deassertion-ramp" .prochotDeassertionRamp,
    optU32 none "apu-skin-temp" .apuSkinTempLimit,
    optU32 none "dgpu-skin-temp" .dgpuSkinTempLimit,
    optU32 none "apu-slow-limit" .apuSlowLimit,
    optU32 none "skin-temp-limit" .skinTempPowerLimit,
    optU32 none "gfx-clk" .gfxClk,
    optU32 none "oc-clk" .ocClk,
    optU32 none "oc-volt" .ocVolt,
    optBoolean none "enable-oc" (.action .enableOc),
    optBoolean none "disable-oc" (.action .disableOc),
    optCo32 none "set-coall" .coall,
    optCo32 none "set-coper" .coper,
    optCo32 none "set-cogfx" .cogfx,
    optBoolean none "power-saving" (.action .powerSaving),
    optBoolean none "max-performance" (.action .maxPerformance),
    optGroup]

def argUnset : Word := 0xFFFFFFFF

def coUnset : Int := -2 ^ 63

def unsetVars : CliVars where
  flag _ := 0
  u32 _ := argUnset
  co32 _ := coUnset

/-- A call of a setter with its value, as the handle is the same in all. -/
inductive SetCall where
  | limit (a : Limit) (value : Word)
  | action (a : Action)
  | curve (a : Curve) (value : Word)
  deriving DecidableEq

inductive CliOp where
  | initRyzenadj
  | showInfoHeader
  | initTable
  | set (c : SetCall)
  | showTableDump (anyAdjustApplied : Bool)
  | showInfoTable
  | cleanupRyzenadj

/-- `initRyzenadj` answers whether there is a handle. -/
def cli : Signature where
  Op := CliOp
  Ret
    | .initRyzenadj => Bool
    | .initTable | .set _ => Int
    | _ => Unit

namespace Cli

def initRyzenadj : Prog cli Bool := Prog.perform (S := cli) .initRyzenadj
def showInfoHeader : Prog cli Unit := Prog.perform (S := cli) .showInfoHeader
def initTable : Prog cli Int := Prog.perform (S := cli) .initTable
def set (c : SetCall) : Prog cli Int := Prog.perform (S := cli) (.set c)
def showTableDump (anyAdjustApplied : Bool) : Prog cli Unit :=
  Prog.perform (S := cli) (.showTableDump anyAdjustApplied)
def showInfoTable : Prog cli Unit := Prog.perform (S := cli) .showInfoTable
def cleanupRyzenadj : Prog cli Unit := Prog.perform (S := cli) .cleanupRyzenadj

end Cli

/-- One line of `main` after another: `_do_adjust`, `_do_enable` or `_do_adjust_co` of a
variable. -/
inductive Setting where
  | doAdjust (a : Limit)
  | doEnable (a : Action)
  | doAdjustCo (a : Curve)
  deriving DecidableEq

def settings : List Setting :=
  [.doAdjust .stapmLimit,
    .doAdjust .fastLimit,
    .doAdjust .slowLimit,
    .doAdjust .slowTime,
    .doAdjust .stapmTime,
    .doAdjust .tctlTemp,
    .doAdjust .vrmCurrent,
    .doAdjust .vrmsocCurrent,
    .doAdjust .vrmgfxCurrent,
    .doAdjust .vrmcvipCurrent,
    .doAdjust .vrmmaxCurrent,
    .doAdjust .vrmsocmaxCurrent,
    .doAdjust .vrmgfxmaxCurrent,
    .doAdjust .psi0Current,
    .doAdjust .psi3cpuCurrent,
    .doAdjust .psi0socCurrent,
    .doAdjust .psi3gfxCurrent,
    .doAdjust .maxSocclkFreq,
    .doAdjust .minSocclkFreq,
    .doAdjust .maxFclkFreq,
    .doAdjust .minFclkFreq,
    .doAdjust .maxVcn,
    .doAdjust .minVcn,
    .doAdjust .maxLclk,
    .doAdjust .minLclk,
    .doAdjust .maxGfxclkFreq,
    .doAdjust .minGfxclkFreq,
    .doAdjust .prochotDeassertionRamp,
    .doAdjust .apuSkinTempLimit,
    .doAdjust .dgpuSkinTempLimit,
    .doAdjust .apuSlowLimit,
    .doAdjust .skinTempPowerLimit,
    .doAdjust .gfxClk,
    .doEnable .enableOc,
    .doAdjust .ocClk,
    .doAdjust .ocVolt,
    .doEnable .disableOc,
    .doEnable .powerSaving,
    .doEnable .maxPerformance,
    .doAdjustCo .coall,
    .doAdjustCo .coper,
    .doAdjustCo .cogfx]

/-- The condition and the value of `_do_adjust_ex`: the call the line makes, if any. -/
def Setting.call (vars : CliVars) : Setting → Option SetCall
  | .doAdjust a => if vars.u32 a ≠ argUnset then some (.limit a (vars.u32 a)) else none
  | .doEnable a => if vars.flag (.action a) ≠ 0 then some (.action a) else none
  | .doAdjustCo a =>
    if vars.co32 a ≠ coUnset then some (.curve a (BitVec.ofInt 32 (vars.co32 a))) else none

/-- `err` and `any_adjust_applied`. -/
structure Outcome where
  err : Int
  anyAdjustApplied : Bool

/-- `err` is only ever set: a failure of an earlier line stays. -/
def Outcome.after (o : Outcome) (adjerr : Int) : Outcome :=
  if adjerr = 0 then { o with anyAdjustApplied := true } else { o with err := -1 }

def applySettings (vars : CliVars) : List Setting → Outcome → Prog cli Outcome
  | [], o => return o
  | s :: rest, o =>
    match s.call vars with
    | none => applySettings vars rest o
    | some c => do
      let adjerr ← Cli.set c
      applySettings vars rest (o.after adjerr)

def exclusive (vars : CliVars) : Bool :=
  !((vars.flag (.action .powerSaving) ≠ 0 && vars.flag (.action .maxPerformance) ≠ 0) ||
    (vars.flag (.action .enableOc) ≠ 0 && vars.flag (.action .disableOc) ≠ 0))

/-- The header and `init_table` before the adjustments; the result is what remains of
`info` and `dump_table`. Without monitoring the adjustments are still valid. -/
def initMonitoring (info dumpTable : Bool) : Prog cli (Bool × Bool) := do
  if info then Cli.showInfoHeader
  if info || dumpTable then
    let tableErr ← Cli.initTable
    if tableErr ≠ 0 then return (false, false) else return (info, dumpTable)
  else return (info, dumpTable)

def showMonitoring (info dumpTable : Bool) (o : Outcome) : Prog cli Unit := do
  if dumpTable then Cli.showTableDump o.anyAdjustApplied
  if info then Cli.showInfoTable

def runTool (vars : CliVars) : Prog cli Int := do
  let ry ← Cli.initRyzenadj
  if ry then
    let (info, dumpTable) ← initMonitoring (vars.flag .info ≠ 0) (vars.flag .dumpTable ≠ 0)
    let o ← applySettings vars settings ⟨0, false⟩
    if o.err = 0 then showMonitoring info dumpTable o
    Cli.cleanupRyzenadj
    return o.err
  else return -1

/-- `main` on the words after the name of the program; the result is what it passes to `exit`
or returns. -/
def main (long : LongWidth) (args : List CString) : Prog cli Int :=
  match argparseParse long options args unsetVars with
  | .error stop => return stop.status
  | .ok self => if exclusive self.vars then runTool self.vars else return -1

end RyzenAdj
