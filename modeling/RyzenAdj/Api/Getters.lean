import RyzenAdj.Api.Table

/-!
# Single-value getters (`lib/api.c`, `_read_float_value` and its users)

A getter is where in the table it looks: an offset that may depend on the
table version and, for the per-core values, on the core.
-/

namespace RyzenAdj
open Interaction Api

/-- `offset ver core` is `none` where the getter has no offset and returns NAN. -/
structure Getter where
  offset : Word → Word → Option Nat

namespace Getter

def fixed (off : Nat) : Getter := ⟨fun _ _ => some off⟩

def versioned (cases : List (List Word × Nat)) : Getter := ⟨fun ver _ => switchOn ver cases⟩

/-- Sixteen cores at most, four on Van Gogh (`0x3F0000`). -/
def perCore (cases : List (List Word × Nat)) : Getter :=
  ⟨fun ver core =>
    if 15 < core then none
    else if ver = 0x3F0000 ∧ 4 ≤ core then none
    else (switchOn ver cases).map (· + core.toNat * 4)⟩

end Getter

def nan : Word := 0x7FC00000

/-- `_read_float_value`; a cell outside the allocation is `none`. -/
def readFloatValue (ry : RyzenAccess) (off : Nat) : Option Word :=
  match ry.tableValues with
  | none => some nan
  | some buf => if ry.tableSize < off + 4 then some nan else cellAt buf (off / 4)

def Getter.read (g : Getter) (ry : RyzenAccess) (core : Word) : Option Word :=
  match g.offset ry.tableVer core with
  | none => some nan
  | some off => readFloatValue ry off

def getStapmLimit : Getter := .fixed 0x0
def getStapmValue : Getter := .fixed 0x4
def getFastLimit : Getter := .fixed 0x8
def getFastValue : Getter := .fixed 0xC
def getSlowLimit : Getter := .fixed 0x10
def getSlowValue : Getter := .fixed 0x14
def getApuSlowLimit : Getter := .versioned
  [([0x370000, 0x370001, 0x370002, 0x370003, 0x370004, 0x370005, 0x3F0000, 0x400001, 0x400002,
      0x400003, 0x400004, 0x400005, 0x450004, 0x450005, 0x4C0006, 0x4C0007, 0x4C0008, 0x4C0009,
      0x5D0008, 0x5D0009, 0x5D000B, 0x64020C, 0x650005], 0x18)]
def getApuSlowValue : Getter := .versioned
  [([0x370000, 0x370001, 0x370002, 0x370003, 0x370004, 0x370005, 0x3F0000, 0x400001, 0x400002,
      0x400003, 0x400004, 0x400005, 0x450004, 0x450005, 0x4C0006, 0x4C0009, 0x5D0008, 0x5D0009,
      0x5D000B, 0x64020C, 0x650005], 0x1C)]
def getVrmCurrent : Getter := .versioned
  [([0x1E0001, 0x1E0002, 0x1E0003, 0x1E0004, 0x1E0005, 0x1E000A, 0x1E0101], 0x18),
    ([0x370000, 0x370001, 0x370002, 0x370003, 0x370004, 0x370005, 0x400001, 0x400002, 0x400003,
      0x400004, 0x400005, 0x450004, 0x450005, 0x4C0006, 0x4C0007, 0x4C0008, 0x4C0009], 0x20),
    ([0x5D0008, 0x5D0009, 0x5D000B, 0x650005], 0x30)]
def getVrmCurrentValue : Getter := .versioned
  [([0x1E0001, 0x1E0002, 0x1E0003, 0x1E0004, 0x1E0005, 0x1E000A, 0x1E0101], 0x1C),
    ([0x370000, 0x370001, 0x370002, 0x370003, 0x370004, 0x370005, 0x400001, 0x400002, 0x400003,
      0x400004, 0x400005, 0x450004, 0x450005, 0x4C0006, 0x4C0007, 0x4C0008, 0x4C0009], 0x24),
    ([0x5D0008, 0x5D0009, 0x5D000B, 0x650005], 0x34)]
def getVrmsocCurrent : Getter := .versioned
  [([0x1E0001, 0x1E0002, 0x1E0003, 0x1E0004, 0x1E0005, 0x1E000A, 0x1E0101], 0x20),
    ([0x370000, 0x370001, 0x370002, 0x370003, 0x370004, 0x370005, 0x400001, 0x400002, 0x400003,
      0x400004, 0x400005, 0x450004, 0x450005, 0x4C0006, 0x4C0007, 0x4C0008, 0x4C0009], 0x28),
    ([0x5D0008, 0x5D0009, 0x5D000B, 0x650005], 0x38)]
def getVrmsocCurrentValue : Getter := .versioned
  [([0x1E0001, 0x1E0002, 0x1E0003, 0x1E0004, 0x1E0005, 0x1E000A, 0x1E0101], 0x24),
    ([0x370000, 0x370001, 0x370002, 0x370003, 0x370004, 0x370005, 0x400001, 0x400002, 0x400003,
      0x400004, 0x400005, 0x450004, 0x450005, 0x4C0006, 0x4C0007, 0x4C0008, 0x4C0009], 0x2C),
    ([0x5D0008, 0x5D0009, 0x5D000B, 0x650005], 0x3C)]
def getVrmmaxCurrent : Getter := .versioned
  [([0x1E0001, 0x1E0002, 0x1E0003, 0x1E0004, 0x1E0005, 0x1E000A, 0x1E0101], 0x28),
    ([0x370000, 0x370001, 0x370002, 0x370003, 0x370004, 0x370005, 0x400001, 0x400002, 0x400003,
      0x400004, 0x400005, 0x450004, 0x450005, 0x4C0006, 0x4C0007, 0x4C0008, 0x4C0009], 0x30),
    ([0x5D0008, 0x5D0009, 0x5D000B], 0x30)]
def getVrmmaxCurrentValue : Getter := .versioned
  [([0x1E0001, 0x1E0002, 0x1E0003, 0x1E0004, 0x1E0005, 0x1E000A, 0x1E0101], 0x2C),
    ([0x370000, 0x370001, 0x370002, 0x370003, 0x370004, 0x370005, 0x400001, 0x400002, 0x400003,
      0x400004, 0x400005, 0x450004, 0x450005, 0x4C0006, 0x4C0007, 0x4C0008, 0x4C0009], 0x34),
    ([0x5D0008, 0x5D0009, 0x5D000B], 0x34)]
def getVrmsocmaxCurrent : Getter := .versioned
  [([0x1E0001, 0x1E0002, 0x1E0003, 0x1E0004, 0x1E0005, 0x1E000A, 0x1E0101], 0x34),
    ([0x370000, 0x370001, 0x370002, 0x370003, 0x370004, 0x370005, 0x400001, 0x400002, 0x400003,
      0x400004, 0x400005, 0x450004, 0x450005, 0x4C0006, 0x4C0007, 0x4C0008, 0x4C0009], 0x38),
    ([0x5D0008, 0x5D0009, 0x5D000B], 0x38)]
def getVrmsocmaxCurrentValue : Getter := .versioned
  [([0x1E0001, 0x1E0002, 0x1E0003, 0x1E0004, 0x1E0005, 0x1E000A, 0x1E0101], 0x38),
    ([0x370000, 0x370001, 0x370002, 0x370003, 0x370004, 0x370005, 0x400001, 0x400002, 0x400003,
      0x400004, 0x400005, 0x450004, 0x450005, 0x4C0006, 0x4C0007, 0x4C0008, 0x4C0009], 0x3C),
    ([0x5D0008, 0x5D0009, 0x5D000B], 0x3C)]
def getTctlTemp : Getter := .versioned
  [([0x1E0001, 0x1E0002, 0x1E0003, 0x1E0004, 0x1E0005, 0x1E000A, 0x1E0101, 0x64020C], 0x58),
    ([0x370000, 0x370001, 0x370002, 0x370003, 0x370004, 0x370005, 0x3F0000, 0x400001, 0x400002,
      0x400003, 0x400004, 0x400005, 0x450004, 0x450005, 0x4C0006, 0x4C0007, 0x4C0008, 0x4C0009,
      0x5D0008, 0x5D0009, 0x5D000B, 0x650005], 0x40)]
def getTctlTempValue : Getter := .versioned
  [([0x1E0001, 0x1E0002, 0x1E0003, 0x1E0004, 0x1E0005, 0x1E000A, 0x1E0101, 0x64020C], 0x5C),
    ([0x370000, 0x370001, 0x370002, 0x370003, 0x370004, 0x370005, 0x3F0000, 0x400001, 0x400002,
      0x400003, 0x400004, 0x400005, 0x450004, 0x450005, 0x4C0006, 0x4C0007, 0x4C0008, 0x4C0009,
      0x5D0008, 0x5D0009, 0x5D000B, 0x650005], 0x44)]
def getApuSkinTempLimit : Getter := .versioned
  [([0x370000, 0x370001, 0x370002, 0x370003, 0x370004, 0x370005, 0x3F0000, 0x400001, 0x400002,
      0x400003, 0x400004, 0x400005, 0x450004, 0x450005, 0x4C0006, 0x4C0007, 0x4C0008, 0x4C0009,
      0x5D0008, 0x5D0009, 0x5D000B, 0x64020C], 0x58)]
def getApuSkinTempValue : Getter := .versioned
  [([0x370000, 0x370001, 0x370002, 0x370003, 0x370004, 0x370005, 0x3F0000, 0x400001, 0x400002,
      0x400003, 0x400004, 0x400005, 0x450004, 0x450005, 0x4C0006, 0x4C0007, 0x4C0008, 0x4C0009,
      0x5D0008, 0x5D0009, 0x5D000B, 0x64020C], 0x5C)]
def getDgpuSkinTempLimit : Getter := .versioned
  [([0x370000, 0x370001, 0x370002, 0x370003, 0x370004, 0x370005, 0x400001, 0x400002, 0x400003,
      0x400004, 0x400005, 0x450004, 0x450005, 0x4C0006, 0x4C0007, 0x4C0008, 0x4C0009, 0x64020C],
      0x60),
    ([0x5D0008, 0x5D0009, 0x5D000B], 0x68)]
def getDgpuSkinTempValue : Getter := .versioned
  [([0x370000, 0x370001, 0x370002, 0x370003, 0x370004, 0x370005, 0x400001, 0x400002, 0x400003,
      0x400004, 0x400005, 0x450004, 0x450005, 0x4C0006, 0x4C0007, 0x4C0008, 0x4C0009, 0x64020C],
      0x64),
    ([0x5D0008, 0x5D0009, 0x5D000B], 0x6C)]
def getPsi0Current : Getter := .versioned
  [([0x1E0001, 0x1E0002, 0x1E0003, 0x1E0004, 0x1E0005, 0x1E000A, 0x1E0101], 0x40),
    ([0x370000, 0x370001, 0x370002, 0x370003, 0x370004, 0x370005, 0x400001, 0x400002, 0x400003,
      0x400004, 0x400005, 0x4C0006, 0x4C0007, 0x4C0008, 0x4C0009], 0x78)]
def getPsi0socCurrent : Getter := .versioned
  [([0x1E0001, 0x1E0002, 0x1E0003, 0x1E0004, 0x1E0005, 0x1E000A, 0x1E0101], 0x48),
    ([0x370000, 0x370001, 0x370002, 0x370003, 0x370004, 0x370005, 0x400001, 0x400002, 0x400003,
      0x400004, 0x400005, 0x4C0006, 0x4C0007, 0x4C0008, 0x4C0009], 0x80)]
def getCclkSetpoint : Getter := .versioned
  [([0x1E0001, 0x1E0002, 0x1E0003, 0x1E0004, 0x1E0005, 0x1E000A, 0x1E0101], 0x98),
    ([0x370000, 0x370001, 0x370002, 0x370003, 0x370004, 0x370005], 0xFC),
    ([0x400001, 0x400002, 0x400003, 0x400004, 0x400005], 0x100),
    ([0x5D0008, 0x5D0009, 0x5D000B], 0xD0)]
def getCclkBusyValue : Getter := .versioned
  [([0x1E0001, 0x1E0002, 0x1E0003, 0x1E0004, 0x1E0005, 0x1E000A, 0x1E0101], 0x9C),
    ([0x370000, 0x370001, 0x370002, 0x370003, 0x370004, 0x370005], 0x100),
    ([0x400001, 0x400002, 0x400003, 0x400004, 0x400005], 0x104),
    ([0x5D0008, 0x5D0009, 0x5D000B], 0xCC)]
def getStapmTime : Getter := .versioned
  [([0x1E0002], 0x564), ([0x1E0003], 0x55C),
    ([0x1E0004, 0x1E0005, 0x1E000A, 0x1E0101], 0x5E0), ([0x370000], 0x768), ([0x370001], 0x858),
    ([0x370002], 0x860), ([0x370003, 0x370004], 0x880), ([0x370005], 0x89C), ([0x400001], 0x8E4),
    ([0x400002], 0x8FC), ([0x400003], 0x920),
    ([0x400004, 0x400005, 0x4C0006, 0x4C0007, 0x4C0008, 0x4C0009], 0x918),
    ([0x5D0008, 0x5D0009, 0x5D000B], 0x9BC), ([0x650005], 0x90C)]
def getSlowTime : Getter := .versioned
  [([0x1E0002], 0x568), ([0x1E0003], 0x560),
    ([0x1E0004, 0x1E0005, 0x1E000A, 0x1E0101], 0x5E4), ([0x370000], 0x76C), ([0x370001], 0x85C),
    ([0x370002], 0x864), ([0x370003, 0x370004], 0x884), ([0x370005], 0x8A0), ([0x400001], 0x8E8),
    ([0x400002], 0x900), ([0x400003], 0x924),
    ([0x400004, 0x400005, 0x4C0006, 0x4C0007, 0x4C0008, 0x4C0009], 0x91C),
    ([0x5D0008, 0x5D0009, 0x5D000B], 0x9C0), ([0x650005], 0x910)]
def getCorePower : Getter := .perCore
  [([0x370000, 0x370001, 0x370002, 0x370003, 0x370004], 0x300), ([0x370005], 0x31C),
    ([0x3F0000], 0x238), ([0x400001], 0x304), ([0x400004, 0x400005], 0x320),
    ([0x5D0008, 0x5D0009, 0x5D000B], 0x9D8), ([0x64020C], 0xB90)]
def getCoreVolt : Getter := .perCore
  [([0x370000, 0x370001, 0x370002, 0x370003, 0x370004], 0x320), ([0x370005], 0x33C),
    ([0x3F0000], 0x248), ([0x400004, 0x400005], 0x340),
    ([0x5D0008, 0x5D0009, 0x5D000B], 0xA08), ([0x64020C], 0xBD0)]
def getCoreTemp : Getter := .perCore
  [([0x370000, 0x370001, 0x370002, 0x370003, 0x370004], 0x340), ([0x370005], 0x35C),
    ([0x3F0000], 0x258), ([0x400004, 0x400005], 0x360),
    ([0x5D0008, 0x5D0009, 0x5D000B], 0xA38), ([0x64020C], 0xC10)]
def getCoreClk : Getter := .perCore
  [([0x370000, 0x370001, 0x370002, 0x370003, 0x370004], 0x3A0), ([0x370005], 0x3BC),
    ([0x3F0000], 0x288), ([0x400004, 0x400005], 0x3C0),
    ([0x5D0008, 0x5D0009, 0x5D000B], 0xA68), ([0x64020C], 0xC50)]
def getL3Clk : Getter := .versioned
  [([0x370000, 0x370001, 0x370002, 0x370003, 0x370004], 0x568), ([0x370005], 0x584),
    ([0x3F0000], 0x35C), ([0x400004, 0x400005], 0x614)]
def getL3Logic : Getter := .versioned
  [([0x370000, 0x370001, 0x370002, 0x370003, 0x370004], 0x540), ([0x370005], 0x55C),
    ([0x3F0000], 0x348), ([0x400004, 0x400005], 0x600)]
def getL3Vddm : Getter := .versioned
  [([0x370000, 0x370001, 0x370002, 0x370003, 0x370004], 0x548), ([0x370005], 0x564),
    ([0x3F0000], 0x34C), ([0x400004, 0x400005], 0x604)]
def getL3Temp : Getter := .versioned
  [([0x370000, 0x370001, 0x370002, 0x370003, 0x370004], 0x550), ([0x370005], 0x56C),
    ([0x3F0000], 0x350), ([0x400004, 0x400005], 0x608)]
def getGfxClk : Getter := .versioned
  [([0x370000, 0x370001, 0x370002, 0x370003, 0x370004], 0x5B4), ([0x370005], 0x5D0),
    ([0x400001], 0x60C), ([0x400002], 0x624), ([0x400003], 0x644), ([0x400004, 0x400005], 0x648),
    ([0x3F0000], 0x388),
    ([0x5D0008, 0x5D0009, 0x5D000B], 0x4C0), ([0x64020C], 0x558)]
def getGfxVolt : Getter := .versioned
  [([0x370000, 0x370001, 0x370002, 0x370003, 0x370004], 0x5A8), ([0x370005], 0x5C4),
    ([0x400001], 0x600), ([0x400002], 0x618), ([0x400003], 0x638), ([0x400004, 0x400005], 0x63C),
    ([0x3F0000], 0x37C),
    ([0x5D0008, 0x5D0009, 0x5D000B], 0x4B8), ([0x64020C], 0x54C)]
def getGfxTemp : Getter := .versioned
  [([0x370000, 0x370001, 0x370002, 0x370003, 0x370004], 0x5AC), ([0x370005], 0x5C8),
    ([0x400001], 0x604), ([0x400002], 0x61C), ([0x400003], 0x63C), ([0x400004, 0x400005], 0x640),
    ([0x3F0000], 0x380),
    ([0x5D0008, 0x5D0009, 0x5D000B], 0x4C8), ([0x64020C], 0x550)]
def getFclk : Getter := .versioned
  [([0x370000, 0x370001, 0x370002, 0x370003, 0x370004], 0x5CC), ([0x370005], 0x5E8),
    ([0x3F0000], 0x3C5), ([0x400004, 0x400005], 0x664),
    ([0x5D0008, 0x5D0009, 0x5D000B], 0x4E0)]
def getMemClk : Getter := .versioned
  [([0x370000, 0x370001, 0x370002, 0x370003, 0x370004], 0x5D4), ([0x370005], 0x5F0),
    ([0x3F0000], 0x3C4), ([0x400004, 0x400005], 0x66C),
    ([0x5D0008, 0x5D0009, 0x5D000B], 0x4EC)]
def getSocVolt : Getter := .versioned
  [([0x370000, 0x370001, 0x370002, 0x370003, 0x370004], 0x198), ([0x370005], 0x198),
    ([0x3F0000], 0x1A0), ([0x400004, 0x400005], 0x19C)]
def getSocPower : Getter := .versioned
  [([0x370000, 0x370001, 0x370002, 0x370003, 0x370004], 0x1A0), ([0x370005], 0x1A0),
    ([0x3F0000], 0x1A8), ([0x400004, 0x400005], 0x1A4)]
def getSocketPower : Getter := .versioned
  [([0x370000, 0x370001, 0x370002, 0x370003, 0x370004, 0x370005], 0x98),
    ([0x400001, 0x400002, 0x400003, 0x400004, 0x400005], 0x98), ([0x3F0000], 0xA8),
    ([0x5D0008, 0x5D0009, 0x5D000B], 0xD0)]

end RyzenAdj
