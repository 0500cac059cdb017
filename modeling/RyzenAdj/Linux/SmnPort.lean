import Mathlib.Logic.Function.Basic
import RyzenAdj.Linux.Dispatch

/-!
# The SMN port

What the system calls of the two backends do to the SMN registers: the `smn`
attribute of `ryzen_smu`, which takes an address and a word since the last
`lseek`, and the PCI index/data pair. Any call may fail. A failure is reported
to the caller and counted, and what it left in the registers is open; a read
or write interrupted before it moved anything is no failure, the code repeats it.
-/

namespace RyzenAdj
open Interaction Sys

/-- What the driver makes of the bytes it has been given: it acts on the eighth. -/
def smnStore (regs : Word → Word) (request : List Byte) : Word → Word :=
  match bytesWords request with
  | [addr, data] => if request.length = 8 then Function.update regs addr data else regs
  | _ => regs

def smnRequest (addr data : Word) : List Byte := wordBytes addr ++ wordBytes data

theorem smnRequest_length (addr data : Word) : (smnRequest addr data).length = 8 := rfl

theorem smnStore_smnRequest (regs : Word → Word) (addr data : Word) :
    smnStore regs (smnRequest addr data) = Function.update regs addr data := by
  have hwords : bytesWords (smnRequest addr data) = [addr, data] := by
    have h := bytesWords_flatMap [addr, data]
    simp only [List.flatMap_cons, List.flatMap_nil, List.append_nil] at h
    exact h
  simp only [smnStore, hwords, smnRequest_length, if_true]

theorem smnStore_of_length {request : List Byte} (regs : Word → Word) (h : request.length ≠ 8) :
    smnStore regs request = regs := by
  unfold smnStore
  split
  · rw [if_neg h]
  · rfl

structure SmnPort where
  isSmu : Bool
  /-- `smn_io_error`, the sticky flag. -/
  ioError : Bool
  regs : Word → Word
  /-- The register selected through the PCI pair. -/
  index : Word
  /-- What the `smn` attribute has been given since the last `lseek`. -/
  request : List Byte
  faults : Nat

namespace SmnPort

def store (p : SmnPort) (addr data : Word) : SmnPort :=
  { p with regs := Function.update p.regs addr data }

def accept (p : SmnPort) (bytes : List Byte) : SmnPort :=
  { p with request := p.request ++ bytes, regs := smnStore p.regs (p.request ++ bytes) }

/-- A call that reported its failure. -/
structure Faulted (p p' : SmnPort) : Prop where
  isSmu : p'.isSmu = p.isSmu
  ioError : p'.ioError = p.ioError
  faults : p.faults < p'.faults

end SmnPort

def smnFile : OsAccessObj → Option Int
  | .kmod o => some o.smnFd
  | .mem _ => none

/-- What one system call does. What a read brings back is left open, and so is what a
raw command, written to the other attribute, does to the registers. -/
def portMove (obj : OsAccessObj) (p : SmnPort) : (o : Sys.Op) → Sys.Ret o → SmnPort → Prop
  | .isSmu, r, p' => r = p.isSmu ∧ p' = p
  | .setIsSmu b, _, p' => p' = { p with isSmu := b }
  | .smnIoSetError, _, p' => p' = { p with ioError := true }
  | .smnIoTakeError, r, p' => r = p.ioError ∧ p' = { p with ioError := false }
  | .lseek _, some _, p' => p.Faulted p'
  | .lseek fd, none, p' => p' = if smnFile obj = some fd then { p with request := [] } else p
  | .write _ _, .error e, p' => if e = eIntr then p' = p else p.Faulted p'
  | .write fd bytes, .wrote n _, p' =>
    if smnFile obj = some fd then p' = p.accept (bytes.take n)
    else ∃ regs, p' = { p with regs := regs }
  | .read _ _, .error e, p' => if e = eIntr then p' = p else p.Faulted p'
  | .pciWriteLong _ _ _, false, p' => p.Faulted p'
  | .pciWriteLong _ reg val, true, p' =>
    p' = if reg = nbPciRegAddrAddr then { p with index := val }
      else if reg = nbPciRegDataAddr then p.store p.index val
      else p
  | _, _, p' => p' = p

def portEnv (obj : OsAccessObj) : Env sys SmnPort where
  guard _ o := o ≠ .undefined
  next := portMove obj

/-- What a register write comes to. -/
inductive SmnPort.Written (p : SmnPort) (addr data : Word) (p' : SmnPort) : Prop where
  | stored (hsmu : p'.isSmu = p.isSmu) (herror : p'.ioError = p.ioError)
      (hfaults : p'.faults = p.faults) (hregs : p'.regs = Function.update p.regs addr data)
  | failed (hsmu : p'.isSmu = p.isSmu) (herror : p'.ioError = true)
      (hfaults : p.faults < p'.faults)

theorem SmnPort.Written.isSmu {p p' : SmnPort} {addr data : Word} (h : p.Written addr data p') :
    p'.isSmu = p.isSmu := by
  cases h with
  | stored hsmu _ _ _ => exact hsmu
  | failed hsmu _ _ => exact hsmu

theorem Faulted.setError {obj : OsAccessObj} {p p' : SmnPort} {addr data : Word}
    (h : p.Faulted p') :
    Prog.Wp (portEnv obj) smnIoSetError (fun _ p'' => p.Written addr data p'') p' := by
  refine ⟨fun h => (nomatch h), fun _ p'' hnext => ?_⟩
  rw [show p'' = { p' with ioError := true } from hnext]
  exact .failed h.isSmu rfl h.faults

section Kmod
variable {o : KmodObj} {p : SmnPort} {addr data : Word}

structure Sent (p : SmnPort) (addr data : Word) (done : Nat) (p' : SmnPort) : Prop where
  le : done ≤ 8
  isSmu : p'.isSmu = p.isSmu
  ioError : p'.ioError = p.ioError
  faults : p'.faults = p.faults
  request : p'.request = (smnRequest addr data).take done
  regs : done < 8 → p'.regs = p.regs
  stored : done = 8 → p'.regs = Function.update p.regs addr data

theorem Sent.accept {done n : Nat} {p' : SmnPort} (h : Sent p addr data done p')
    (hdone : done < 8) (hn : n ≤ 8 - done) :
    Sent p addr data (done + n) (p'.accept (((smnRequest addr data).drop done).take n)) := by
  have hreq : p'.request ++ ((smnRequest addr data).drop done).take n =
      (smnRequest addr data).take (done + n) := by
    rw [h.request, List.take_add]
  have hregs := h.regs hdone
  unfold SmnPort.accept
  rw [hreq]
  by_cases hall : done + n = 8
  · have htake : (smnRequest addr data).take (done + n) = smnRequest addr data := by
      rw [hall]
      rfl
    rw [htake]
    refine ⟨by omega, h.isSmu, h.ioError, h.faults, htake.symm, by omega, fun _ => ?_⟩
    show smnStore p'.regs (smnRequest addr data) = _
    rw [smnStore_smnRequest, hregs]
  · have hlen : ((smnRequest addr data).take (done + n)).length ≠ 8 := by
      rw [List.length_take, smnRequest_length]
      omega
    refine ⟨by omega, h.isSmu, h.ioError, h.faults, rfl, fun _ => ?_, fun h8 => absurd h8 hall⟩
    show smnStore p'.regs _ = _
    rw [smnStore_of_length _ hlen, hregs]

theorem writeFull_port {p₀ : SmnPort} (h : Sent p addr data 0 p₀) :
    (writeFull o.smnFd (smnRequest addr data)).Wp (portEnv (.kmod o))
      (fun r p' => (r = none → Sent p addr data 8 p') ∧ (r ≠ none → p.Faulted p')) p₀ := by
  refine writeFull_rule (fun done p' => Sent p addr data done p') h ?_ ?_ ?_ ?_ ?_
  · exact fun _ _ _ _ h => Sys.Op.noConfusion h
  · intro done p' p'' _ hsent hnext
    simp only [portEnv, portMove] at hnext
    rw [hnext]
    exact hsent
  · intro done p' e p'' _ hsent hfatal hnext
    simp only [portEnv, portMove, if_neg hfatal] at hnext
    refine ⟨fun hnone => absurd hnone (Option.some_ne_none _), fun _ => ?_⟩
    exact ⟨hnext.isSmu.trans hsent.isSmu, hnext.ioError.trans hsent.ioError,
      hsent.faults ▸ hnext.faults⟩
  · intro done p' n hn p'' hdone hsent hnext
    simp only [portEnv, portMove, smnFile, if_true] at hnext
    rw [List.length_drop, smnRequest_length] at hn
    rw [smnRequest_length] at hdone
    rw [hnext]
    exact hsent.accept hdone hn
  · intro done p' hdone hsent
    rw [smnRequest_length] at hdone
    have hle := hsent.le
    refine ⟨fun _ => ?_, fun hnone => absurd rfl hnone⟩
    rwa [show done = 8 by omega] at hsent

theorem smnRegWriteKmod_port :
    (smnRegWriteKmod o addr data).Wp (portEnv (.kmod o))
      (fun _ p' => p.Written addr data p') p := by
  refine ⟨fun h => (nomatch h), fun seekError p₁ hseek => ?_⟩
  cases seekError with
  | some e => exact Faulted.setError hseek
  | none =>
    simp only [portEnv, portMove, smnFile, if_true] at hseek
    have hstart : Sent p addr data 0 p₁ := by
      rw [hseek]
      exact ⟨by omega, rfl, rfl, rfl, rfl, fun _ => rfl, fun h => absurd h (by omega)⟩
    simp only [Prog.ret_bind]
    apply Prog.wp_seq _ (writeFull_port hstart)
    intro r p' hend
    cases r with
    | none =>
      have hsent := hend.1 rfl
      exact .stored hsent.isSmu hsent.ioError hsent.faults (hsent.stored rfl)
    | some e => exact Faulted.setError (hend.2 (Option.some_ne_none e))

end Kmod

theorem smnRegWriteMem_port {o : MemObj} {p : SmnPort} {addr data : Word} :
    (smnRegWriteMem o addr data).Wp (portEnv (.mem o)) (fun _ p' => p.Written addr data p') p := by
  refine ⟨fun h => (nomatch h), fun selected p₁ hselect => ?_⟩
  cases selected with
  | false => exact Faulted.setError hselect
  | true =>
    refine ⟨fun h => (nomatch h), fun written p₂ hwrite => ?_⟩
    have hindex : p₁ = { p with index := addr } := hselect
    cases written with
    | false =>
      have hfault : p₁.Faulted p₂ := hwrite
      rw [hindex] at hfault
      exact Faulted.setError ⟨hfault.isSmu, hfault.ioError, hfault.faults⟩
    | true =>
      rw [show p₂ = p₁.store p₁.index data from hwrite, hindex]
      exact .stored rfl rfl rfl rfl

theorem smnRegWriteLinux_port {obj : OsAccessObj} {p : SmnPort} (hflag : p.isSmu = obj.isKmod)
    (addr data : Word) :
    (smnRegWriteLinux obj addr data).Wp (portEnv obj) (fun _ p' => p.Written addr data p') p := by
  refine ⟨fun h => (nomatch h), fun isSmu p₁ hnext => ?_⟩
  obtain ⟨rfl, rfl⟩ := hnext
  cases obj with
  | kmod o =>
    rw [hflag]
    exact smnRegWriteKmod_port
  | mem o =>
    rw [hflag]
    exact smnRegWriteMem_port

/-- A register write can always come back, if only with its first system call failing. -/
theorem smnRegWriteLinux_can_fail {obj : OsAccessObj} {p : SmnPort} (hflag : p.isSmu = obj.isKmod)
    (addr data : Word) :
    ∃ p', Prog.Steps (portEnv obj) (smnRegWriteLinux obj addr data, p) (.ret (), p') ∧
      p.faults < p'.faults := by
  have hread : (portEnv obj).next p .isSmu obj.isKmod p := ⟨hflag.symm, rfl⟩
  have hfault : p.Faulted { p with faults := p.faults + 1 } := ⟨rfl, rfl, Nat.lt_succ_self _⟩
  have herror : Prog.Steps (portEnv obj) (smnIoSetError, { p with faults := p.faults + 1 })
      (.ret (), { p with faults := p.faults + 1, ioError := true }) := .single (Prog.Step.call rfl)
  refine ⟨{ p with faults := p.faults + 1, ioError := true }, .head (Prog.Step.call hread) ?_,
    Nat.lt_succ_self _⟩
  cases obj with
  | kmod o =>
    have hseek : (portEnv (.kmod o)).next p (.lseek o.smnFd) (some eIo)
        { p with faults := p.faults + 1 } := hfault
    refine .head (Prog.Step.call hseek) ?_
    exact herror
  | mem o =>
    have hselect : (portEnv (.mem o)).next p (.pciWriteLong o.pciDev nbPciRegAddrAddr addr) false
        { p with faults := p.faults + 1 } := hfault
    refine .head (Prog.Step.call hselect) ?_
    exact herror

theorem portMove_isSmu {obj : OsAccessObj} {o : Sys.Op} (ho : BackendOp o) {p p' : SmnPort}
    {r : Sys.Ret o} (h : portMove obj p o r p') : p'.isSmu = p.isSmu := by
  cases o with
  | isSmu => cases ho
  | setIsSmu _ => cases ho
  | undefined => cases ho
  | lseek fd =>
    cases r with
    | some e => exact h.isSmu
    | none =>
      simp only [portMove] at h
      rw [h]
      split
      · rfl
      · rfl
  | write fd bytes =>
    cases r with
    | error e =>
      simp only [portMove] at h
      split at h
      · rw [h]
      · exact h.isSmu
    | wrote n hn =>
      simp only [portMove] at h
      split at h
      · rw [h]
        rfl
      · obtain ⟨regs, h⟩ := h
        rw [h]
  | read fd len =>
    cases r with
    | error e =>
      simp only [portMove] at h
      split at h
      · rw [h]
      · exact h.isSmu
    | got bytes hb => rw [show p' = p from h]
  | pciWriteLong dev reg val =>
    cases r with
    | false => exact h.isSmu
    | true =>
      simp only [portMove] at h
      rw [h]
      split
      · rfl
      · split
        · rfl
        · rfl
  | smnIoSetError => rw [show p' = { p with ioError := true } from h]
  | smnIoTakeError => rw [h.2]
  | _ => rw [show p' = p from h]

theorem wp_isSmu_port {obj : OsAccessObj} {α : Type} {q : Prog sys α} {p : SmnPort}
    (h : q.Wp (Env.only BackendOp) (fun _ _ => True) ()) :
    q.Wp (portEnv obj) (fun _ p' => p'.isSmu = p.isSmu) p := by
  have hkeep : ∀ (o : Sys.Op) (t : SmnPort), BackendOp o → t.isSmu = p.isSmu →
      (portEnv obj).guard t o ∧ ∀ r t', (portEnv obj).next t o r t' → t'.isSmu = p.isSmu := by
    intro o t ho ht
    refine ⟨fun h => by rw [h] at ho; exact ho, fun r t' hnext => Eq.trans ?_ ht⟩
    exact portMove_isSmu ho hnext
  exact Prog.wp_mono _ (Prog.wp_of_only (I := fun t => t.isSmu = p.isSmu) _ hkeep rfl h)
    fun _ _ hend => hend.2

end RyzenAdj
