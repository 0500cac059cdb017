import RyzenAdj.Api.Table

/-!
# Setters (`lib/api.c`, `set_stapm_limit` to `set_cogfx`)

Every setter is a switch over the family whose arms send the value to one of
the two mailboxes, some of them to the second one after the first refused.
-/

namespace RyzenAdj
open Interaction Api

/-- The code `_do_adjust` and `_do_adjust_psmu` put into `err`. -/
def adjustCode (resp : Word) : Int :=
  if resp = repMsgOK then 0
  else if resp = repMsgTimeout then adjErrSmuTimeout
  else if resp = repMsgUnknownCmd then adjErrSmuUnsupported
  else adjErrSmuRejected

def doAdjust (smu : Smu) (opt value : Word) : Prog api Int := do
  let (resp, _) ← Api.smuServiceReq smu opt { Args.zero with arg0 := value }
  return adjustCode resp

/-- The arm of a setter: `_do_adjust`, `_do_adjust_psmu`, or the first and, on an
error, the second. -/
inductive Send where
  | mp1 (opt : Word)
  | psmu (opt : Word)
  | mp1ThenPsmu (opt retry : Word)

def Send.run (ry : RyzenAccess) (value : Word) : Send → Prog api Int
  | .mp1 opt => doAdjust ry.mp1Smu opt value
  | .psmu opt => doAdjust ry.psmu opt value
  | .mp1ThenPsmu opt retry => do
    let err ← doAdjust ry.mp1Smu opt value
    if err ≠ 0 then doAdjust ry.psmu retry value else return err

/-- What a setter makes of its value: nothing, `value *= 256`, or there is none. -/
inductive Scale where
  | value
  | times256
  | zero

def Scale.arg : Scale → Word → Word
  | .value, v => v
  | .times256, v => v * 256
  | .zero, _ => 0

structure Setter where
  scale : Scale
  cases : List (List RyzenFamily × Send)

def Setter.run (s : Setter) (ry : RyzenAccess) (value : Word) : Prog api Int :=
  match switchOn ry.family s.cases with
  | none => return adjErrFamUnsupported
  | some send => send.run ry (s.scale.arg value)

def setStapmLimit : Setter := ⟨.value,
  [([.raven, .picasso, .dali], .mp1 0x1a),
    ([.renoir, .lucienne, .cezanne, .vangogh, .rembrandt, .mendocino, .phoenix, .hawkpoint,
      .krackanpoint, .strixpoint, .strixhalo], .mp1ThenPsmu 0x14 0x31),
    ([.dragonrange, .firerange], .mp1 0x4f)]⟩
def setFastLimit : Setter := ⟨.value,
  [([.raven, .picasso, .dali], .mp1 0x1b),
    ([.renoir, .lucienne, .cezanne, .vangogh, .rembrandt, .mendocino, .phoenix, .hawkpoint,
      .krackanpoint, .strixpoint, .strixhalo], .mp1 0x15),
    ([.dragonrange, .firerange], .mp1 0x3e)]⟩
def setSlowLimit : Setter := ⟨.value,
  [([.raven, .picasso, .dali], .mp1 0x1c),
    ([.renoir, .lucienne, .cezanne, .vangogh, .rembrandt, .mendocino, .phoenix, .hawkpoint,
      .krackanpoint, .strixpoint, .strixhalo], .mp1 0x16),
    ([.dragonrange, .firerange], .mp1 0x5f)]⟩
def setSlowTime : Setter := ⟨.value,
  [([.raven, .picasso, .dali], .mp1 0x1d),
    ([.renoir, .lucienne, .cezanne, .vangogh, .rembrandt, .mendocino, .phoenix, .hawkpoint,
      .krackanpoint, .strixpoint, .strixhalo], .mp1 0x17),
    ([.dragonrange, .firerange], .mp1 0x60)]⟩
def setStapmTime : Setter := ⟨.value,
  [([.raven, .picasso, .dali], .mp1 0x1e),
    ([.renoir, .lucienne, .cezanne, .vangogh, .rembrandt, .mendocino, .phoenix, .hawkpoint,
      .krackanpoint, .strixpoint, .strixhalo], .mp1 0x18),
    ([.dragonrange, .firerange], .mp1 0x4e)]⟩
def setTctlTemp : Setter := ⟨.value,
  [([.raven, .picasso, .dali], .mp1 0x1f),
    ([.renoir, .lucienne, .cezanne, .vangogh, .rembrandt, .mendocino, .phoenix, .hawkpoint,
      .krackanpoint, .strixpoint, .strixhalo], .mp1 0x19),
    ([.dragonrange, .firerange], .mp1 0x3f)]⟩
def setVrmCurrent : Setter := ⟨.value,
  [([.raven, .picasso, .dali], .mp1 0x20),
    ([.renoir, .lucienne, .cezanne, .vangogh, .rembrandt, .mendocino, .phoenix, .hawkpoint,
      .krackanpoint, .strixpoint, .strixhalo], .mp1 0x1a),
    ([.dragonrange, .firerange], .mp1 0x3c)]⟩
def setVrmsocCurrent : Setter := ⟨.value,
  [([.raven, .picasso, .dali], .mp1 0x21),
    ([.renoir, .lucienne, .cezanne, .vangogh, .rembrandt, .mendocino, .phoenix, .hawkpoint,
      .krackanpoint, .strixpoint, .strixhalo], .mp1 0x1b)]⟩
def setVrmgfxCurrent : Setter := ⟨.value, [([.vangogh], .mp1 0x1c)]⟩
def setVrmcvipCurrent : Setter := ⟨.value, [([.vangogh], .mp1 0x1d)]⟩
def setVrmmaxCurrent : Setter := ⟨.value,
  [([.raven, .picasso, .dali], .mp1 0x22),
    ([.renoir, .lucienne, .cezanne, .rembrandt, .mendocino, .phoenix, .hawkpoint, .krackanpoint,
      .strixpoint, .strixhalo], .mp1 0x1c),
    ([.vangogh], .mp1 0x1e)]⟩
def setVrmgfxmaxCurrent : Setter := ⟨.value, [([.vangogh], .mp1 0x1f)]⟩
def setVrmsocmaxCurrent : Setter := ⟨.value,
  [([.raven, .picasso, .dali], .mp1 0x23),
    ([.renoir, .lucienne, .cezanne, .rembrandt, .mendocino, .phoenix, .hawkpoint, .krackanpoint,
      .strixpoint, .strixhalo], .mp1 0x1d)]⟩
def setPsi0Current : Setter := ⟨.value,
  [([.raven, .picasso, .dali], .mp1 0x24),
    ([.renoir, .lucienne, .cezanne], .mp1 0x1e)]⟩
def setPsi3cpuCurrent : Setter := ⟨.value, [([.vangogh], .mp1 0x20)]⟩
def setPsi0socCurrent : Setter := ⟨.value,
  [([.raven, .picasso, .dali], .mp1 0x25),
    ([.renoir, .lucienne, .cezanne], .mp1 0x1f)]⟩
def setPsi3gfxCurrent : Setter := ⟨.value, [([.vangogh], .mp1 0x21)]⟩
def setMaxGfxclkFreq : Setter := ⟨.value, [([.raven, .picasso, .dali, .lucienne], .mp1 0x46)]⟩
def setMinGfxclkFreq : Setter := ⟨.value, [([.raven, .picasso, .dali, .lucienne], .mp1 0x47)]⟩
def setMaxSocclkFreq : Setter := ⟨.value, [([.raven, .picasso, .dali], .mp1 0x48)]⟩
def setMinSocclkFreq : Setter := ⟨.value, [([.raven, .picasso, .dali], .mp1 0x49)]⟩
def setMaxFclkFreq : Setter := ⟨.value, [([.raven, .picasso, .dali], .mp1 0x4A)]⟩
def setMinFclkFreq : Setter := ⟨.value, [([.raven, .picasso, .dali], .mp1 0x4B)]⟩
def setMaxVcn : Setter := ⟨.value, [([.raven, .picasso, .dali], .mp1 0x4C)]⟩
def setMinVcn : Setter := ⟨.value, [([.raven, .picasso, .dali], .mp1 0x4D)]⟩
def setMaxLclk : Setter := ⟨.value, [([.raven, .picasso, .dali], .mp1 0x4E)]⟩
def setMinLclk : Setter := ⟨.value, [([.raven, .picasso, .dali], .mp1 0x4F)]⟩
def setProchotDeassertionRamp : Setter := ⟨.value,
  [([.raven, .picasso, .dali], .mp1 0x26),
    ([.renoir, .lucienne, .cezanne], .mp1 0x20),
    ([.vangogh], .mp1 0x22),
    ([.rembrandt, .mendocino, .phoenix, .hawkpoint, .krackanpoint, .strixpoint, .strixhalo],
      .mp1 0x1f)]⟩
def setApuSkinTempLimit : Setter := ⟨.times256,
  [([.renoir, .lucienne, .cezanne], .mp1 0x38),
    ([.vangogh, .rembrandt, .mendocino, .phoenix, .hawkpoint], .mp1 0x33)]⟩
def setDgpuSkinTempLimit : Setter := ⟨.times256,
  [([.renoir, .lucienne, .cezanne], .mp1 0x39),
    ([.vangogh, .rembrandt, .mendocino, .phoenix, .hawkpoint, .strixpoint], .mp1 0x34)]⟩
def setApuSlowLimit : Setter := ⟨.value,
  [([.renoir, .lucienne, .cezanne], .mp1 0x21),
    ([.rembrandt, .phoenix, .hawkpoint, .krackanpoint, .strixpoint, .strixhalo], .mp1 0x23)]⟩
def setSkinTempPowerLimit : Setter := ⟨.value,
  [([.renoir, .lucienne, .cezanne], .mp1 0x53),
    ([.vangogh, .rembrandt, .mendocino, .phoenix, .hawkpoint, .krackanpoint, .strixpoint,
      .strixhalo], .mp1 0x4a)]⟩
def setGfxClk : Setter := ⟨.value,
  [([.renoir, .lucienne, .cezanne, .vangogh, .rembrandt, .mendocino, .phoenix, .hawkpoint,
      .krackanpoint, .strixpoint, .strixhalo], .psmu 0x89)]⟩
def setPowerSaving : Setter := ⟨.zero,
  [([.raven, .picasso, .dali], .mp1 0x19),
    ([.renoir, .lucienne, .cezanne, .vangogh, .rembrandt, .mendocino, .phoenix, .hawkpoint,
      .krackanpoint, .strixpoint, .strixhalo], .mp1 0x12)]⟩
def setMaxPerformance : Setter := ⟨.zero,
  [([.raven, .picasso, .dali], .mp1 0x18),
    ([.renoir, .lucienne, .cezanne, .vangogh, .rembrandt, .mendocino, .phoenix, .hawkpoint,
      .krackanpoint, .strixpoint, .strixhalo], .mp1 0x11)]⟩
def setOcClk : Setter := ⟨.value,
  [([.lucienne, .renoir, .cezanne, .rembrandt], .mp1ThenPsmu 0x31 0x19)]⟩
def setPerCoreOcClk : Setter := ⟨.value,
  [([.lucienne, .renoir, .cezanne, .rembrandt], .mp1ThenPsmu 0x32 0x1a)]⟩
def setOcVolt : Setter := ⟨.value, [([.lucienne, .renoir, .cezanne], .mp1ThenPsmu 0x33 0x1b)]⟩
def setDisableOc : Setter := ⟨.zero,
  [([.lucienne, .renoir, .cezanne], .mp1ThenPsmu 0x30 0x1d),
    ([.rembrandt], .psmu 0x18)]⟩
def setEnableOc : Setter := ⟨.zero,
  [([.lucienne, .renoir, .cezanne], .mp1 0x2F),
    ([.rembrandt], .psmu 0x17)]⟩
def setCoall : Setter := ⟨.value,
  [([.cezanne, .renoir, .lucienne], .mp1 0x55),
    ([.rembrandt, .vangogh, .phoenix, .hawkpoint, .krackanpoint, .strixpoint, .strixhalo], .mp1
      0x4C),
    ([.dragonrange, .firerange], .psmu 0x7)]⟩
def setCoper : Setter := ⟨.value,
  [([.cezanne, .renoir, .lucienne], .mp1 0x54),
    ([.rembrandt, .phoenix, .vangogh, .hawkpoint, .krackanpoint, .strixpoint, .strixhalo], .mp1
      0x4b),
    ([.dragonrange, .firerange], .psmu 0x6)]⟩
def setCogfx : Setter := ⟨.value,
  [([.cezanne, .renoir, .lucienne], .mp1 0x64),
    ([.rembrandt, .phoenix, .hawkpoint, .vangogh], .psmu 0xB7)]⟩

end RyzenAdj
