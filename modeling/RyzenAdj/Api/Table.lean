import RyzenAdj.Api.Interface

/-!
# The PM table (`lib/api.c`, `request_table_ver_and_size` to `refresh_table`)
-/

namespace RyzenAdj
open Interaction Api

def translatedSmuError (resp : Word) : Int :=
  if resp = repMsgTimeout then adjErrSmuTimeout
  else if resp = repMsgUnknownCmd then adjErrSmuUnsupported
  else adjErrSmuRejected

/-- The families `request_table_*` tell apart; any other is unsupported. -/
inductive TableFamily where
  | ravenGroup
  | renoirGroup
  | rembrandtGroup
  deriving DecidableEq, Repr

def tableFamily : RyzenFamily → Option TableFamily
  | .raven | .picasso | .dali => some .ravenGroup
  | .renoir | .lucienne | .cezanne => some .renoirGroup
  | .rembrandt | .phoenix | .hawkpoint | .krackanpoint | .strixpoint | .strixhalo =>
    some .rembrandtGroup
  | _ => none

def getTableVerMsg : TableFamily → Word
  | .ravenGroup => 0xC
  | .renoirGroup | .rembrandtGroup => 0x6

def getTableAddrMsg : TableFamily → Word
  | .ravenGroup => 0xB
  | .renoirGroup | .rembrandtGroup => 0x66

def transferTableMsg : TableFamily → Word
  | .ravenGroup => 0x3D
  | .renoirGroup | .rembrandtGroup => 0x65

/-- The argument block of the address and transfer requests. -/
def tableArgs : TableFamily → Args
  | .ravenGroup => { Args.zero with arg0 := 3 }
  | .renoirGroup | .rembrandtGroup => Args.zero

/-- The switch over `table_ver` in `request_table_ver_and_size`. -/
def tableSizeCases : List (List Word × Nat) :=
  [([0x1E0001], 0x568), ([0x1E0002], 0x580), ([0x1E0003], 0x578),
    ([0x1E0004, 0x1E0005, 0x1E000A, 0x1E0101], 0x608),
    ([0x370000], 0x794), ([0x370001], 0x884), ([0x370002], 0x88C),
    ([0x370003, 0x370004], 0x8AC), ([0x370005], 0x8C8), ([0x3F0000], 0x7AC),
    ([0x400001], 0x910), ([0x400002], 0x928), ([0x400003], 0x94C),
    ([0x400004, 0x400005], 0x944), ([0x450004], 0xAA4), ([0x450005], 0xAB0),
    ([0x4C0003], 0xB18), ([0x4C0004], 0xB1C), ([0x4C0005], 0xAF8), ([0x4C0006], 0xAFC),
    ([0x4C0008], 0xAF0), ([0x4C0007, 0x4C0009], 0xB00),
    ([0x5D0008, 0x5D0009, 0x5D000B], 0xD54), ([0x64020C], 0xE50)]

/-- A C switch without fall-through: the value of the first case that lists `v`. -/
def switchOn {κ β : Type} [DecidableEq κ] (v : κ) : List (List κ × β) → Option β
  | [] => none
  | (labels, b) :: rest => if v ∈ labels then some b else switchOn v rest

theorem switchOn_eq_none {κ β : Type} [DecidableEq κ] {v : κ} {cases : List (List κ × β)} :
    switchOn v cases = none ↔ ∀ c ∈ cases, v ∉ c.1 := by
  induction cases with
  | nil => simp [switchOn]
  | cons c rest ih =>
    rw [switchOn, List.forall_mem_cons]
    by_cases hv : v ∈ c.1
    · simp [hv]
    · simp [hv, ih]

theorem switchOn_label {κ β : Type} [DecidableEq κ] {v : κ} {cases : List (List κ × β)} {b : β}
    (h : switchOn v cases = some b) : ∃ labels, (labels, b) ∈ cases ∧ v ∈ labels := by
  induction cases with
  | nil => cases h
  | cons c rest ih =>
    rw [switchOn] at h
    by_cases hv : v ∈ c.1
    · rw [if_pos hv] at h
      exact ⟨c.1, Option.some.inj h ▸ List.mem_cons_self .., hv⟩
    · rw [if_neg hv] at h
      obtain ⟨labels, hmem, hlabel⟩ := ih h
      exact ⟨labels, List.mem_cons_of_mem _ hmem, hlabel⟩

theorem switchOn_mem {κ β : Type} [DecidableEq κ] {v : κ} {cases : List (List κ × β)} {b : β}
    (h : switchOn v cases = some b) : ∃ labels, (labels, b) ∈ cases := by
  obtain ⟨labels, hmem, -⟩ := switchOn_label h
  exact ⟨labels, hmem⟩

def tableSizeOf (ver : Word) : Nat := (switchOn ver tableSizeCases).getD 0x1000

/-- Every size of the table is one `init_table_locked` lets through. -/
theorem tableSizeOf_accepted (ver : Word) :
    0x568 ≤ tableSizeOf ver ∧ tableSizeOf ver % 4 = 0 ∧ tableSizeOf ver ≤ 0x1000 := by
  unfold tableSizeOf
  cases h : switchOn ver tableSizeCases with
  | none => decide
  | some n =>
    obtain ⟨labels, hmem⟩ := switchOn_mem h
    have hall : ∀ c ∈ tableSizeCases, 0x568 ≤ c.2 ∧ c.2 % 4 = 0 ∧ c.2 ≤ 0x1000 := by decide
    exact hall (labels, n) hmem

def requestTableVerAndSize (ry : RyzenAccess) : Prog api (Int × RyzenAccess) := do
  match tableFamily ry.family with
  | none => return (adjErrFamUnsupported, ry)
  | some fam =>
    let (resp, args) ← Api.smuServiceReq ry.psmu (getTableVerMsg fam) Args.zero
    let ry := { ry with tableVer := args.arg0, tableSize := tableSizeOf args.arg0 }
    if resp ≠ repMsgOK then return (translatedSmuError resp, ry)
    if ry.tableVer = 0 then return (adjErrSmuUnsupported, ry)
    return (0, ry)

/-- `table_addr` as the two argument words make it up. -/
def tableAddrOf (fam : TableFamily) (args : Args) : BitVec 64 :=
  match fam with
  | .rembrandtGroup => (args.arg1.setWidth 64 <<< 32) ||| args.arg0.setWidth 64
  | .ravenGroup | .renoirGroup => args.arg0.setWidth 64

def requestTableAddr (ry : RyzenAccess) : Prog api (Int × RyzenAccess) := do
  match tableFamily ry.family with
  | none => return (adjErrFamUnsupported, ry)
  | some fam =>
    let (resp, args) ← Api.smuServiceReq ry.psmu (getTableAddrMsg fam) (tableArgs fam)
    let ry := { ry with tableAddr := tableAddrOf fam args }
    if resp ≠ repMsgOK then return (translatedSmuError resp, ry)
    if ry.tableAddr = 0 then return (adjErrSmuUnsupported, ry)
    return (0, ry)

/-- `request_transfer_table`: a rejected transfer is tried up to three times. What
the SMU leaves in `args` is passed on to the next attempt. -/
def requestTransferTable (ry : RyzenAccess) : Prog api Int := do
  match tableFamily ry.family with
  | none => return adjErrFamUnsupported
  | some fam =>
    let mut (resp, args) ← Api.smuServiceReq ry.psmu (transferTableMsg fam) (tableArgs fam)
    if resp = repMsgCmdRejectedPrereq then
      sleep 10
      (resp, args) ← Api.smuServiceReq ry.psmu (transferTableMsg fam) args
      if resp = repMsgCmdRejectedPrereq then
        sleep 100
        (resp, args) ← Api.smuServiceReq ry.psmu (transferTableMsg fam) args
    if resp ≠ repMsgOK then return translatedSmuError resp
    return 0

/-- The kmod-reported size is authoritative where it is accepted. -/
def preferKmodSize (ry : RyzenAccess) : Prog api RyzenAccess := do
  let driver ← isUsingSmuDriver
  if !driver then return ry
  match ry.osAccess with
  | .mem _ => undefined
  | .kmod o =>
    if o.pmTableSize ≠ ry.tableSize ∧ o.pmTableSize ≠ 0 ∧ o.pmTableSize % 4 = 0 ∧
        o.pmTableSize ≤ ryzenadjMaxTableSize then
      return { ry with tableSize := o.pmTableSize }
    return ry

/-- The end of `init_table_locked`: fill the new buffer, once more when the first
value read is zero. -/
def fillTable (refresh : RyzenAccess → Prog api (Int × RyzenAccess)) (ry : RyzenAccess) :
    Prog api (Int × RyzenAccess) := do
  let (errorcode, ry) ← refresh ry
  if errorcode ≠ 0 then return (errorcode, ry)
  match ry.tableValues.bind (cellAt · 0) with
  | none => undefined
  | some first =>
    if isZeroFloat first then
      sleep 10
      refresh ry
    else
      return (0, ry)

/-- `init_table_locked` from the check of the size on. -/
def initTableBuffer (refresh : RyzenAccess → Prog api (Int × RyzenAccess)) (ry : RyzenAccess) :
    Prog api (Int × RyzenAccess) := do
  if ry.tableSize = 0 ∨ ry.tableSize % 4 ≠ 0 ∨ ryzenadjMaxTableSize < ry.tableSize then
    return (adjErrMemoryAccess, ry)
  let mapped ← initMemObj ry.osAccess ry.tableAddr ry.tableSize
  if !mapped then return (adjErrMemoryAccess, ry)
  let ry ← preferKmodSize ry
  let allocated ← calloc (ry.tableSize / 4)
  if !allocated then return (adjErrMemoryAccess, { ry with tableValues := none })
  fillTable refresh { ry with tableValues := some (List.replicate (4 * (ry.tableSize / 4)) 0) }

/-- `init_table_locked`, with the `refresh_table` it calls. -/
def initTableLocked (refresh : RyzenAccess → Prog api (Int × RyzenAccess)) (ry : RyzenAccess) :
    Prog api (Int × RyzenAccess) := do
  let (errorcode, ry) ← requestTableVerAndSize ry
  if errorcode ≠ 0 then return (errorcode, ry)
  let (errorcode, ry) ← requestTableAddr ry
  if errorcode ≠ 0 then return (errorcode, ry)
  initTableBuffer refresh ry

/-- `init_table`: not entered again while `table_init_busy` is set. -/
def initTableWith (refresh : RyzenAccess → Prog api (Int × RyzenAccess)) (ry : RyzenAccess) :
    Prog api (Int × RyzenAccess) := do
  if ry.tableInitBusy then return (adjErrMemoryAccess, ry)
  let (errorcode, ry) ← initTableLocked refresh { ry with tableInitBusy := true }
  return (errorcode, { ry with tableInitBusy := false })

/-- Whether `refresh_table` asks the SMU for a transfer: the table is empty, or
its first six values are still those in memory. -/
def needTransfer (buf : List Byte) : Prog api Bool := do
  match cellAt buf 0 with
  | none => undefined
  | some first =>
    if isZeroFloat first then return true
    if buf.length < 6 * 4 then undefined
    else
      let diff ← comparePmTable (buf.take (6 * 4))
      return decide (diff = 0)

/-- The end of `refresh_table`: copy the table over the buffer. -/
def copyTable (ry : RyzenAccess) (buf : List Byte) : Prog api (Int × RyzenAccess) := do
  let t ← copyPmTable ry.osAccess ry.tableSize
  match storeBytes buf t.data with
  | none => undefined
  | some buf' =>
    let ry := { ry with tableValues := some buf' }
    if t.error.isSome then return (adjErrMemoryAccess, ry)
    return (0, ry)

/-- `refresh_table` after `_lazy_init_table`. -/
def refreshTableBody (ry : RyzenAccess) : Prog api (Int × RyzenAccess) := do
  match ry.tableValues with
  | none => undefined
  | some buf =>
    let driver ← isUsingSmuDriver
    let transfer ← if driver then pure false else needTransfer buf
    let errorcode ← if transfer then requestTransferTable ry else pure 0
    if errorcode ≠ 0 then return (errorcode, ry)
    copyTable ry buf

def lazyInitTable (init : RyzenAccess → Prog api (Int × RyzenAccess)) (ry : RyzenAccess) :
    Prog api (Int × RyzenAccess) :=
  match ry.tableValues with
  | some _ => pure (0, ry)
  | none => init ry

/-- `refresh_table` and `init_table` call each other; `depth` is how many nested
calls of `refresh_table` the C stack has room for. -/
def refreshTable : Nat → RyzenAccess → Prog api (Int × RyzenAccess)
  | 0, _ => undefined
  | depth + 1, ry => do
    let (errorcode, ry) ← lazyInitTable (initTableWith (refreshTable depth)) ry
    if errorcode ≠ 0 then return (errorcode, ry)
    refreshTableBody ry

def initTable (depth : Nat) (ry : RyzenAccess) : Prog api (Int × RyzenAccess) :=
  initTableWith (refreshTable depth) ry

def getTableVer (depth : Nat) (ry : RyzenAccess) : Prog api (Word × RyzenAccess) := do
  let (errorcode, ry) ← lazyInitTable (initTable depth) ry
  if errorcode ≠ 0 then return (0, ry)
  return (ry.tableVer, ry)

def getTableSize (depth : Nat) (ry : RyzenAccess) : Prog api (Nat × RyzenAccess) := do
  let (errorcode, ry) ← lazyInitTable (initTable depth) ry
  if errorcode ≠ 0 then return (0, ry)
  return (ry.tableSize, ry)

/-- `get_bios_if_ver`: cached only when the SMU answered OK. -/
def getBiosIfVer (ry : RyzenAccess) : Prog api (Word × RyzenAccess) := do
  if ry.biosIfVer ≠ 0 then return (ry.biosIfVer, ry)
  let (resp, args) ← Api.smuServiceReq ry.mp1Smu 0x3 Args.zero
  if resp ≠ repMsgOK then return (0, ry)
  return (args.arg0, { ry with biosIfVer := args.arg0 })

end RyzenAdj
