import RyzenAdj.Smu.Interface

/-!
# System calls and full transfers

The calls the Linux backends make on the kernel, on libpci and on the two
process-wide variables of `osdep_linux.c`, and the loops `read_full` and
`write_full` of `osdep_linux_smu_kernel_module.c`.
-/

namespace RyzenAdj
open Interaction

inductive WriteResult (len : Nat) where
  | error (e : Errno)
  | wrote (n : Nat) (h : n ≤ len)

inductive ReadResult (len : Nat) where
  | error (e : Errno)
  | got (bytes : List Byte) (h : bytes.length ≤ len)

/-- What a whole-buffer read leaves behind: the bytes stored so far and the
error, if any. Without an error the buffer is full. -/
structure Transfer (len : Nat) where
  data : List Byte
  error : Option Errno
  data_le : data.length ≤ len
  full : error = none → data.length = len

def Transfer.failed (len : Nat) (e : Errno) : Transfer len := ⟨[], some e, by simp, by simp⟩

inductive Sys.Op where
  | isSmu
  | setIsSmu (b : Bool)
  | smnIoSetError
  | smnIoTakeError
  | malloc
  | openFile (path : String)
  | closeFd (fd : Int)
  | lseek (fd : Int)
  | write (fd : Int) (bytes : List Byte)
  | read (fd : Int) (len : Nat)
  | pciAlloc
  | pciGetDev (acc : Nat)
  | pciWriteLong (dev reg : Nat) (val : Word)
  | pciReadLong (dev reg : Nat)
  -- a member of the access union is used that was not the one stored
  | undefined

abbrev Sys.Ret : Sys.Op → Type
  | .isSmu => Bool
  | .setIsSmu _ => Unit
  | .smnIoSetError => Unit
  | .smnIoTakeError => Bool
  | .malloc => Bool
  | .openFile _ => Int
  | .closeFd _ => Unit
  | .lseek _ => Option Errno
  | .write _ bytes => WriteResult bytes.length
  | .read _ len => ReadResult len
  | .pciAlloc => Option Nat
  | .pciGetDev _ => Option Nat
  | .pciWriteLong _ _ _ => Bool
  | .pciReadLong _ _ => Word
  | .undefined => Empty

abbrev sys : Signature := ⟨Sys.Op, Sys.Ret⟩

namespace Sys

def isSmu : Prog sys Bool := .perform (S := sys) .isSmu
def setIsSmu (b : Bool) : Prog sys Unit := .perform (S := sys) (.setIsSmu b)
def smnIoSetError : Prog sys Unit := .perform (S := sys) .smnIoSetError
def smnIoTakeError : Prog sys Bool := .perform (S := sys) .smnIoTakeError
def malloc : Prog sys Bool := .perform (S := sys) .malloc
def openFile (path : String) : Prog sys Int := .perform (S := sys) (.openFile path)
def closeFd (fd : Int) : Prog sys Unit := .perform (S := sys) (.closeFd fd)
-- `lseek(fd, 0, SEEK_SET)`
def lseek (fd : Int) : Prog sys (Option Errno) := .perform (S := sys) (.lseek fd)
def write (fd : Int) (bytes : List Byte) : Prog sys (WriteResult bytes.length) :=
  .perform (S := sys) (.write fd bytes)
def read (fd : Int) (len : Nat) : Prog sys (ReadResult len) := .perform (S := sys) (.read fd len)
def pciAlloc : Prog sys (Option Nat) := .perform (S := sys) .pciAlloc
def pciGetDev (acc : Nat) : Prog sys (Option Nat) := .perform (S := sys) (.pciGetDev acc)
def pciWriteLong (dev reg : Nat) (val : Word) : Prog sys Bool :=
  .perform (S := sys) (.pciWriteLong dev reg val)
def pciReadLong (dev reg : Nat) : Prog sys Word := .perform (S := sys) (.pciReadLong dev reg)
def undefined {α : Type} : Prog sys α := .call (S := sys) .undefined fun r => nomatch r

end Sys
open Sys

abbrev Partial (len : Nat) := { buf : List Byte // buf.length ≤ len }

def readFullTurn (fd : Int) (len : Nat) (buf : Partial len) :
    Prog sys (Partial len ⊕ Transfer len) :=
  if h : buf.val.length < len then do
    match ← read fd (len - buf.val.length) with
    | .error e =>
      if e = eIntr then pure (.inl buf) else pure (.inr ⟨buf.val, some e, buf.property, by simp⟩)
    | .got bytes hb =>
      if bytes.length = 0 then
        pure (.inr ⟨buf.val, some eIo, buf.property, by simp⟩)
      else
        pure (.inl ⟨buf.val ++ bytes, by rw [List.length_append]; omega⟩)
  else
    pure (.inr ⟨buf.val, none, buf.property, fun _ => by have := buf.property; omega⟩)

def readFull (fd : Int) (len : Nat) : Prog sys (Transfer len) :=
  Prog.iterate ⟨[], by simp⟩ (readFullTurn fd len)

def writeFullTurn (fd : Int) (bytes : List Byte) (done : Nat) : Prog sys (Nat ⊕ Option Errno) :=
  if done < bytes.length then do
    match ← write fd (bytes.drop done) with
    | .error e => if e = eIntr then pure (.inl done) else pure (.inr (some e))
    | .wrote n _ => pure (.inl (done + n))
  else
    pure (.inr none)

/-- `write_full`: `none` is the return value 0, `some errno` the return value -1. -/
def writeFull (fd : Int) (bytes : List Byte) : Prog sys (Option Errno) :=
  Prog.iterate 0 (writeFullTurn fd bytes)

section Rules
variable {σ : Type} {E : Env sys σ} {fd : Int}

/-- The rule of `write_full`: `I` holds of the bytes taken so far, whatever a write takes. -/
theorem writeFull_rule {bytes : List Byte} {Q : Option Errno → σ → Prop} {s : σ}
    (I : Nat → σ → Prop) (hstart : I 0 s)
    (hguard : ∀ done t, done < bytes.length → I done t → E.guard t (.write fd (bytes.drop done)))
    (hintr : ∀ done t t', done < bytes.length → I done t →
      E.next t (.write fd (bytes.drop done)) (.error eIntr) t' → I done t')
    (hfatal : ∀ done t e t', done < bytes.length → I done t → e ≠ eIntr →
      E.next t (.write fd (bytes.drop done)) (.error e) t' → Q (some e) t')
    (hwrote : ∀ done t n hn t', done < bytes.length → I done t →
      E.next t (.write fd (bytes.drop done)) (.wrote n hn) t' → I (done + n) t')
    (hdone : ∀ done t, bytes.length ≤ done → I done t → Q none t) :
    (writeFull fd bytes).Wp E Q s := by
  refine Prog.wp_loop _ I hstart fun done t hI => ?_
  apply Prog.wp_ite
  · intro hmore
    refine ⟨hguard done t hmore hI, fun r t' hnext => ?_⟩
    cases r with
    | error e =>
      apply Prog.wp_ite
      · intro he
        rw [he] at hnext
        exact hintr done t t' hmore hI hnext
      · exact fun he => hfatal done t e t' hmore hI he hnext
    | wrote n hn => exact hwrote done t n hn t' hmore hI hnext
  · exact fun hend => hdone done t (Nat.not_lt.mp hend) hI

/-- The rule of `read_full`: `I` holds of the buffer, whatever a read gives. -/
theorem readFull_rule {len : Nat} {Q : List Byte → Option Errno → σ → Prop} {s : σ}
    (I : List Byte → σ → Prop) (hstart : I [] s)
    (hguard : ∀ buf t, buf.length < len → I buf t → E.guard t (.read fd (len - buf.length)))
    (hintr : ∀ buf t t', buf.length < len → I buf t →
      E.next t (.read fd (len - buf.length)) (.error eIntr) t' → I buf t')
    (hfatal : ∀ buf t e t', buf.length < len → I buf t → e ≠ eIntr →
      E.next t (.read fd (len - buf.length)) (.error e) t' → Q buf (some e) t')
    (hempty : ∀ buf t bytes hb t', buf.length < len → I buf t → bytes.length = 0 →
      E.next t (.read fd (len - buf.length)) (.got bytes hb) t' → Q buf (some eIo) t')
    (hgot : ∀ buf t bytes hb t', buf.length < len → I buf t → bytes.length ≠ 0 →
      E.next t (.read fd (len - buf.length)) (.got bytes hb) t' → I (buf ++ bytes) t')
    (hdone : ∀ buf t, buf.length = len → I buf t → Q buf none t) :
    (readFull fd len).Wp E (fun r => Q r.data r.error) s := by
  refine Prog.wp_loop _ (fun buf => I buf.val) hstart fun buf t hI => ?_
  unfold readFullTurn
  split
  · rename_i hmore
    refine ⟨hguard buf.val t hmore hI, fun r t' hnext => ?_⟩
    cases r with
    | error e =>
      apply Prog.wp_ite
      · intro he
        rw [he] at hnext
        exact hintr buf.val t t' hmore hI hnext
      · exact fun he => hfatal buf.val t e t' hmore hI he hnext
    | got bytes hb =>
      show Prog.Wp _ (dite _ _ _) _ _
      split
      · rename_i hnone
        exact hempty buf.val t bytes hb t' hmore hI hnone hnext
      · rename_i hsome
        exact hgot buf.val t bytes hb t' hmore hI hsome hnext
  · rename_i hfull
    exact hdone buf.val t (Nat.le_antisymm buf.property (Nat.not_lt.mp hfull)) hI

end Rules

end RyzenAdj
