import RyzenAdj.Linux.System

/-!
# What the library calls (`lib/api.c`)

The handle `struct _ryzen_access` and the functions of the lower layers that
`api.c` uses, as the signature `api`. A service request is one call here; its
program is `smuServiceReq`.
-/

namespace RyzenAdj
open Interaction

inductive Api.Op where
  | smuServiceReq (smu : Smu) (id : Word) (args : Args)
  | getSmu (obj : OsAccessObj) (smuType : SmuType)
  | cpuidGetFamily
  | initOsAccessObj
  | freeOsAccessObj (obj : OsAccessObj)
  | isUsingSmuDriver
  | initMemObj (obj : OsAccessObj) (physAddr : BitVec 64) (size : Nat)
  | copyPmTable (obj : OsAccessObj) (size : Nat)
  | comparePmTable (buffer : List Byte)
  | malloc
  | calloc (nmemb : Nat)
  | sleep (ms : Nat)
  -- a pointer is used outside what it points to
  | undefined

abbrev Api.Ret : Api.Op → Type
  | .smuServiceReq _ _ _ => Word × Args
  | .getSmu _ _ => Option Smu
  | .cpuidGetFamily => RyzenFamily
  | .initOsAccessObj => Option OsAccessObj
  | .freeOsAccessObj _ => Unit
  | .isUsingSmuDriver => Bool
  | .initMemObj _ _ _ => Bool
  | .copyPmTable _ size => Transfer size
  | .comparePmTable _ => Int
  | .malloc => Bool
  | .calloc _ => Bool
  | .sleep _ => Unit
  | .undefined => Empty

abbrev api : Signature := ⟨Api.Op, Api.Ret⟩

namespace Api

def smuServiceReq (smu : Smu) (id : Word) (args : Args) : Prog api (Word × Args) :=
  .perform (S := api) (.smuServiceReq smu id args)
def getSmu (obj : OsAccessObj) (smuType : SmuType) : Prog api (Option Smu) :=
  .perform (S := api) (.getSmu obj smuType)
def cpuidGetFamily : Prog api RyzenFamily := .perform (S := api) .cpuidGetFamily
def initOsAccessObj : Prog api (Option OsAccessObj) := .perform (S := api) .initOsAccessObj
def freeOsAccessObj (obj : OsAccessObj) : Prog api Unit :=
  .perform (S := api) (.freeOsAccessObj obj)
def isUsingSmuDriver : Prog api Bool := .perform (S := api) .isUsingSmuDriver
-- true is a return value that is not negative
def initMemObj (obj : OsAccessObj) (physAddr : BitVec 64) (size : Nat) : Prog api Bool :=
  .perform (S := api) (.initMemObj obj physAddr size)
def copyPmTable (obj : OsAccessObj) (size : Nat) : Prog api (Transfer size) :=
  .perform (S := api) (.copyPmTable obj size)
def comparePmTable (buffer : List Byte) : Prog api Int :=
  .perform (S := api) (.comparePmTable buffer)
def malloc : Prog api Bool := .perform (S := api) .malloc
-- `calloc(nmemb, 4)`; true when it gave a buffer
def calloc (nmemb : Nat) : Prog api Bool := .perform (S := api) (.calloc nmemb)
def sleep (ms : Nat) : Prog api Unit := .perform (S := api) (.sleep ms)
def undefined {α : Type} : Prog api α := .call (S := api) .undefined fun r => nomatch r

/-- The calls that lead to a dispatcher of `osdep_linux.c`, and the object it is called on. -/
def Op.accessObj : Op → Option OsAccessObj
  | .smuServiceReq smu _ _ => some smu.osAccess
  | .getSmu obj _ => some obj
  | .freeOsAccessObj obj => some obj
  | .initMemObj obj _ _ => some obj
  | .copyPmTable obj _ => some obj
  | _ => none

end Api

/-- `struct _ryzen_access`. The buffer behind `table_values` is the list of its
allocated bytes; `none` is NULL. -/
structure RyzenAccess where
  osAccess : OsAccessObj
  mp1Smu : Smu
  psmu : Smu
  family : RyzenFamily
  biosIfVer : Word
  tableAddr : BitVec 64
  tableVer : Word
  tableSize : Nat
  tableValues : Option (List Byte)
  tableInitBusy : Bool
  deriving DecidableEq, Repr

/-- `table_values[i]`; `none` when the cell is not wholly inside the allocation. -/
def cellAt (buf : List Byte) (i : Nat) : Option Word :=
  match buf.drop (4 * i) with
  | a :: b :: c :: d :: _ => some (joinBytes a b c d)
  | _ => none

theorem cellAt_isSome_iff (buf : List Byte) (i : Nat) :
    (cellAt buf i).isSome ↔ 4 * i + 4 ≤ buf.length := by
  have hl : (buf.drop (4 * i)).length = buf.length - 4 * i := List.length_drop
  unfold cellAt
  split
  next a b c d rest h =>
    rw [h] at hl
    simp only [List.length_cons] at hl
    simp only [Option.isSome_some, true_iff]
    omega
  next h =>
    simp only [Option.isSome_none, Bool.false_eq_true, false_iff]
    intro hle
    rcases hd : buf.drop (4 * i) with _ | ⟨a, _ | ⟨b, _ | ⟨c, _ | ⟨d, rest⟩⟩⟩⟩
    · rw [hd] at hl; simp only [List.length_nil] at hl; omega
    · rw [hd] at hl; simp only [List.length_cons, List.length_nil] at hl; omega
    · rw [hd] at hl; simp only [List.length_cons, List.length_nil] at hl; omega
    · rw [hd] at hl; simp only [List.length_cons, List.length_nil] at hl; omega
    · exact h a b c d rest hd

theorem exists_cellAt {buf : List Byte} {i : Nat} (h : 4 * i + 4 ≤ buf.length) :
    ∃ v, cellAt buf i = some v :=
  Option.isSome_iff_exists.mp ((cellAt_isSome_iff buf i).mpr h)

theorem length_lt_of_cellAt {buf : List Byte} {i : Nat} (h : cellAt buf i = none) :
    buf.length < 4 * i + 4 := by
  by_contra hlen
  obtain ⟨v, hv⟩ := exists_cellAt (Nat.not_lt.mp hlen)
  rw [h] at hv
  cases hv

def overwrite (buf data : List Byte) : List Byte := data ++ buf.drop data.length

theorem overwrite_length {buf data : List Byte} (h : data.length ≤ buf.length) :
    (overwrite buf data).length = buf.length := by
  unfold overwrite
  rw [List.length_append, List.length_drop]
  omega

theorem overwrite_full {buf data : List Byte} (h : data.length = buf.length) :
    overwrite buf data = data := by
  unfold overwrite
  rw [h, List.drop_length, List.append_nil]

/-- Write `data` to the start of a buffer; `none` when it runs past the end. -/
def storeBytes (buf data : List Byte) : Option (List Byte) :=
  if data.length ≤ buf.length then some (overwrite buf data) else none

/-- Zero as a C `float`, of either sign. -/
def isZeroFloat (w : Word) : Bool := w &&& 0x7FFFFFFF = 0

end RyzenAdj
