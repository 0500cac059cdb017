import RyzenAdj.Linux.SmnPort

/-!
# What a register access comes to

The SMN port with what its reads bring back. A call that fails moves nothing:
`smn_reg_read_kmod` then returns 0, and `smn_reg_read_mem` whatever register
was selected before. One spec for a register read and one for a register write
say so for both backends.
-/

namespace RyzenAdj
open Interaction Sys

/-- The port, and what the `smn` attribute shows. -/
structure SmnBus extends SmnPort where
  /-- The register asked for last. -/
  result : Word
  /-- The bytes of it read since the last `lseek`. -/
  pos : Nat

/-- The driver fetches a register when it has been given the four bytes of its address. -/
def smnFetch (regs : Word → Word) (result : Word) (request : List Byte) : Word :=
  if request.length = 4 then regs ((bytesWords request).headD 0) else result

namespace SmnBus

def fault (b : SmnBus) : SmnBus := { b with faults := b.faults + 1 }

def accept (b : SmnBus) (bytes : List Byte) : SmnBus :=
  { b with
    request := b.request ++ bytes
    regs := smnStore b.regs (b.request ++ bytes)
    result := smnFetch b.regs b.result (b.request ++ bytes) }

/-- Nothing at all to read is an error to `read_full`. -/
def give (b : SmnBus) (bytes : List Byte) : SmnBus :=
  { b with
    pos := b.pos + bytes.length
    faults := if bytes.length = 0 then b.faults + 1 else b.faults }

def store (b : SmnBus) (addr data : Word) : SmnBus :=
  { b with regs := Function.update b.regs addr data }

end SmnBus

/-- What one system call does; `pci_read_long` reports no failure. -/
def busMove (obj : OsAccessObj) (b : SmnBus) : (o : Sys.Op) → Sys.Ret o → SmnBus → Prop
  | .isSmu, r, b' => r = b.isSmu ∧ b' = b
  | .setIsSmu v, _, b' => b' = { b with isSmu := v }
  | .smnIoSetError, _, b' => b' = { b with ioError := true }
  | .smnIoTakeError, r, b' => r = b.ioError ∧ b' = { b with ioError := false }
  | .lseek _, some _, b' => b' = b.fault
  | .lseek fd, none, b' =>
    b' = if smnFile obj = some fd then { b with request := [], pos := 0 } else b
  | .write _ _, .error e, b' => b' = if e = eIntr then b else b.fault
  | .write fd bytes, .wrote n _, b' =>
    b' = if smnFile obj = some fd then b.accept (bytes.take n) else b
  | .read _ _, .error e, b' => b' = if e = eIntr then b else b.fault
  | .read fd _, .got bytes _, b' =>
    if smnFile obj = some fd then
      bytes = ((wordBytes b.result).drop b.pos).take bytes.length ∧ b' = b.give bytes
    else
      b' = b
  | .pciWriteLong _ _ _, false, b' => b' = b.fault
  | .pciWriteLong _ reg val, true, b' =>
    b' = if reg = nbPciRegAddrAddr then { b with index := val }
      else if reg = nbPciRegDataAddr then b.store b.index val
      else b
  | .pciReadLong _ reg, r, b' => (reg = nbPciRegDataAddr → r = b.regs b.index) ∧ b' = b
  | _, _, b' => b' = b

def busEnv (obj : OsAccessObj) : Env sys SmnBus where
  guard _ o := o ≠ .undefined
  next := busMove obj

namespace SmnBus

def unread (b : SmnBus) : OsAccessObj → Word
  | .kmod _ => 0
  | .mem _ => b.regs b.index

/-- The registers, the flags and the count of failures are as they were. -/
structure Quiet (b b' : SmnBus) : Prop where
  isSmu : b'.isSmu = b.isSmu
  ioError : b'.ioError = b.ioError
  regs : b'.regs = b.regs
  faults : b'.faults = b.faults

/-- A system call reported a failure. -/
structure Faulted (b b' : SmnBus) : Prop where
  isSmu : b'.isSmu = b.isSmu
  regs : b'.regs = b.regs
  faults : b.faults < b'.faults

structure Failed (b b' : SmnBus) : Prop extends Faulted b b' where
  ioError : b'.ioError = true

inductive Read (b : SmnBus) (obj : OsAccessObj) (addr r : Word) (b' : SmnBus) : Prop where
  | got (hquiet : b.Quiet b') (hvalue : r = b.regs addr)
  | failed (hfailed : b.Failed b') (hvalue : r = b.unread obj)

inductive Written (b : SmnBus) (addr data : Word) (b' : SmnBus) : Prop where
  | stored (hquiet : (b.store addr data).Quiet b')
  | failed (hfailed : b.Failed b')

theorem Quiet.refl (b : SmnBus) : b.Quiet b := ⟨rfl, rfl, rfl, rfl⟩

theorem Quiet.fault {b b' : SmnBus} (h : b.Quiet b') : b.Faulted b'.fault :=
  ⟨h.isSmu, h.regs, Nat.lt_succ_of_le (Nat.le_of_eq h.faults.symm)⟩

theorem Faulted.setError {obj : OsAccessObj} {b b' : SmnBus} (h : b.Faulted b') :
    smnIoSetError.Wp (busEnv obj) (fun _ b'' => b.Failed b'') b' := by
  refine ⟨fun h => (nomatch h), fun _ b'' hnext => ?_⟩
  rw [show b'' = { b' with ioError := true } from hnext]
  exact ⟨⟨h.isSmu, h.regs, h.faults⟩, rfl⟩

end SmnBus

section Kmod
variable {o : KmodObj} {b : SmnBus}

/-- The bus after the first `done` bytes of a request. -/
structure Passed (b : SmnBus) (bytes : List Byte) (done : Nat) (b' : SmnBus) : Prop where
  le : done ≤ bytes.length
  isSmu : b'.isSmu = b.isSmu
  ioError : b'.ioError = b.ioError
  faults : b'.faults = b.faults
  request : b'.request = bytes.take done
  regs : b'.regs = smnStore b.regs (bytes.take done)
  result : done = 4 → b'.result = b.regs ((bytesWords (bytes.take 4)).headD 0)

theorem Passed.regs_of_lt {bytes : List Byte} {done : Nat} {b' : SmnBus}
    (h : Passed b bytes done b') (hdone : done < 8) : b'.regs = b.regs := by
  rw [h.regs]
  refine smnStore_of_length _ ?_
  rw [List.length_take]
  omega

theorem Passed.accept {bytes : List Byte} {done n : Nat} {b' : SmnBus}
    (h : Passed b bytes done b') (hlen : bytes.length ≤ 8) (hdone : done < bytes.length)
    (hn : n ≤ bytes.length - done) :
    Passed b bytes (done + n) (b'.accept ((bytes.drop done).take n)) := by
  have hrequest : b'.request ++ (bytes.drop done).take n = bytes.take (done + n) := by
    rw [h.request, List.take_add]
  have hregs := h.regs_of_lt (by omega)
  unfold SmnBus.accept
  rw [hrequest, hregs]
  refine ⟨by omega, h.isSmu, h.ioError, h.faults, rfl, rfl, fun hfour => ?_⟩
  have hshort : (bytes.take (done + n)).length = 4 := by
    rw [List.length_take]
    omega
  show smnFetch b.regs b'.result (bytes.take (done + n)) = _
  rw [smnFetch, if_pos hshort, hfour]

theorem writeFull_bus {bytes : List Byte} {b₀ : SmnBus} (hlen : bytes.length ≤ 8)
    (h : Passed b bytes 0 b₀) :
    (writeFull o.smnFd bytes).Wp (busEnv (.kmod o))
      (fun r b' => (r = none → Passed b bytes bytes.length b') ∧ (r ≠ none → b.Faulted b')) b₀ := by
  refine writeFull_rule (fun done b' => Passed b bytes done b') h ?_ ?_ ?_ ?_ ?_
  · exact fun _ _ _ _ h => Sys.Op.noConfusion h
  · intro done b' b'' _ hpassed hnext
    have hmove : b'' = b' := hnext.trans (if_pos rfl)
    rw [hmove]
    exact hpassed
  · intro done b' e b'' hdone hpassed hfatal hnext
    have hmove : b'' = b'.fault := hnext.trans (if_neg hfatal)
    refine ⟨fun hnone => absurd hnone (Option.some_ne_none _), fun _ => ?_⟩
    have hregs := hpassed.regs_of_lt (by omega)
    rw [hmove]
    exact (SmnBus.Quiet.mk hpassed.isSmu hpassed.ioError hregs hpassed.faults).fault
  · intro done b' n hn b'' hdone hpassed hnext
    have hmove : b'' = b'.accept ((bytes.drop done).take n) := by
      simpa only [busEnv, busMove, smnFile, if_true] using hnext
    rw [List.length_drop] at hn
    rw [hmove]
    exact hpassed.accept hlen hdone hn
  · intro done b' hdone hpassed
    have hle := hpassed.le
    refine ⟨fun _ => ?_, fun hnone => absurd rfl hnone⟩
    rwa [show done = bytes.length by omega] at hpassed

structure Fetching (b : SmnBus) (buf : List Byte) (b' : SmnBus) : Prop
    extends SmnBus.Quiet b b' where
  result : b'.result = b.result
  pos : b'.pos = buf.length
  buf : buf = (wordBytes b.result).take buf.length

theorem readFull_bus {b₀ : SmnBus} (h : Fetching b [] b₀) :
    (readFull o.smnFd 4).Wp (busEnv (.kmod o))
      (fun t b' => (t.error = none → b.Quiet b' ∧ t.data = wordBytes b.result) ∧
        (t.error ≠ none → b.Faulted b')) b₀ := by
  -- what a read gives is what the attribute shows past the buffer
  have hgives : ∀ {len : Nat} {b' b'' : SmnBus} {bytes : List Byte} {hb : bytes.length ≤ len},
      (busEnv (.kmod o)).next b' (.read o.smnFd len) (.got bytes hb) b'' →
      bytes = ((wordBytes b'.result).drop b'.pos).take bytes.length ∧ b'' = b'.give bytes := by
    intro len b' b'' bytes hb hnext
    simpa only [busEnv, busMove, smnFile, if_true] using hnext
  refine readFull_rule (Q := fun data error b' =>
    (error = none → b.Quiet b' ∧ data = wordBytes b.result) ∧ (error ≠ none → b.Faulted b'))
    (fun buf b' => Fetching b buf b') h ?_ ?_ ?_ ?_ ?_ ?_
  · exact fun _ _ _ _ h => Sys.Op.noConfusion h
  · intro buf b' b'' _ hfetching hnext
    have hmove : b'' = b' := hnext.trans (if_pos rfl)
    rw [hmove]
    exact hfetching
  · intro buf b' e b'' _ hfetching hfatal hnext
    have hmove : b'' = b'.fault := hnext.trans (if_neg hfatal)
    rw [hmove]
    exact ⟨fun hnone => absurd hnone (Option.some_ne_none _), fun _ => hfetching.toQuiet.fault⟩
  · intro buf b' bytes hb b'' _ hfetching hnone hnext
    obtain ⟨-, rfl⟩ := hgives hnext
    refine ⟨fun hnone => absurd hnone (Option.some_ne_none _), fun _ => ?_⟩
    have hfault : (b'.give bytes).faults = b'.faults + 1 := if_pos hnone
    refine ⟨hfetching.isSmu, hfetching.regs, ?_⟩
    rw [hfault, hfetching.faults]
    exact Nat.lt_succ_self _
  · intro buf b' bytes hb b'' _ hfetching hsome hnext
    obtain ⟨hbytes, rfl⟩ := hgives hnext
    have hfaults : (b'.give bytes).faults = b'.faults := if_neg hsome
    refine ⟨⟨hfetching.isSmu, hfetching.ioError, hfetching.regs, ?_⟩, hfetching.result, ?_, ?_⟩
    · rw [hfaults, hfetching.faults]
    · show b'.pos + bytes.length = (buf ++ bytes).length
      rw [hfetching.pos, List.length_append]
    · rw [List.length_append, List.take_add, ← hfetching.buf]
      rw [hfetching.result, hfetching.pos] at hbytes
      rw [← hbytes]
  · intro buf b' hlen hfetching
    refine ⟨fun _ => ⟨hfetching.toQuiet, ?_⟩, fun hnone => absurd rfl hnone⟩
    have hbuf := hfetching.buf
    rw [hlen] at hbuf
    exact hbuf

theorem passed_start {b b' : SmnBus} (h : b.Quiet b') (bytes : List Byte) :
    Passed b bytes 0 { b' with request := [], pos := 0 } := by
  refine ⟨Nat.zero_le _, h.isSmu, h.ioError, h.faults, rfl, ?_, by omega⟩
  show b'.regs = smnStore b.regs []
  rw [h.regs]
  rfl

theorem lseek_bus {b b₁ b₂ : SmnBus} {r : Option Errno} (h : b.Quiet b₁)
    (hnext : (busEnv (.kmod o)).next b₁ (.lseek o.smnFd) r b₂) :
    (r = none → b₂ = { b₁ with request := [], pos := 0 }) ∧ (r ≠ none → b.Faulted b₂) := by
  cases r with
  | none =>
    refine ⟨fun _ => ?_, fun hnone => absurd rfl hnone⟩
    simpa only [busEnv, busMove, smnFile, if_true] using hnext
  | some e =>
    refine ⟨fun hnone => absurd hnone (Option.some_ne_none _), fun _ => ?_⟩
    rw [show b₂ = b₁.fault from hnext]
    exact h.fault

theorem smnRegReadKmod_bus (o : KmodObj) (b : SmnBus) (addr : Word) :
    (smnRegReadKmod o addr).Wp (busEnv (.kmod o)) (b.Read (.kmod o) addr) b := by
  have hfail : ∀ b', b.Faulted b' → (smnIoSetError.bind fun _ => .ret 0).Wp (busEnv (.kmod o))
      (b.Read (.kmod o) addr) b' := by
    intro b' hfaulted
    exact Prog.wp_seq _ hfaulted.setError fun _ _ h => .failed h rfl
  refine ⟨fun h => (nomatch h), fun seekError b₁ hseek => ?_⟩
  obtain ⟨hstart, hbad⟩ := lseek_bus (.refl b) hseek
  apply Prog.wp_ite
  · exact fun hsome => hfail b₁ (hbad fun h => by rw [h] at hsome; cases hsome)
  · intro hnone
    rw [hstart (Option.not_isSome_iff_eq_none.mp hnone)]
    have hlen := wordBytes_length addr
    have hwrite := writeFull_bus (o := o) (by omega) (passed_start (.refl b) (wordBytes addr))
    apply Prog.wp_seq _ hwrite
    intro writeError b₂ hpassed
    apply Prog.wp_ite
    · exact fun hsome => hfail b₂ (hpassed.2 fun h => by rw [h] at hsome; cases hsome)
    · intro hnone
      have hall := hpassed.1 (Option.not_isSome_iff_eq_none.mp hnone)
      have hquiet : b.Quiet b₂ :=
        ⟨hall.isSmu, hall.ioError, hall.regs_of_lt (by omega), hall.faults⟩
      have hresult : b₂.result = b.regs addr := by
        rw [hall.result rfl]
        exact congrArg (fun ws => b.regs (ws.headD 0)) (bytesWords_wordBytes addr [])
      refine ⟨fun h => (nomatch h), fun seekError b₃ hseek => ?_⟩
      obtain ⟨hagain, hbad⟩ := lseek_bus hquiet hseek
      apply Prog.wp_ite
      · exact fun hsome => hfail b₃ (hbad fun h => by rw [h] at hsome; cases hsome)
      · intro hnone
        have hb₃ := hagain (Option.not_isSome_iff_eq_none.mp hnone)
        have hfetch : Fetching { b with result := b₂.result } [] b₃ := by
          rw [hb₃]
          exact ⟨⟨hquiet.isSmu, hquiet.ioError, hquiet.regs, hquiet.faults⟩, rfl, rfl, rfl⟩
        apply Prog.wp_seq _ (readFull_bus hfetch)
        intro t b₄ hread
        apply Prog.wp_ite
        · intro hsome
          have hfaulted := hread.2 fun h => by rw [h] at hsome; cases hsome
          exact hfail b₄ ⟨hfaulted.isSmu, hfaulted.regs, hfaulted.faults⟩
        · intro hnone
          obtain ⟨hend, hdata⟩ := hread.1 (Option.not_isSome_iff_eq_none.mp hnone)
          refine .got ⟨hend.isSmu, hend.ioError, hend.regs, hend.faults⟩ ?_
          rw [hdata, ← hresult]
          exact congrArg (List.headD · 0) (bytesWords_wordBytes b₂.result [])

theorem smnRegWriteKmod_bus (o : KmodObj) (b : SmnBus) (addr data : Word) :
    (smnRegWriteKmod o addr data).Wp (busEnv (.kmod o)) (fun _ b' => b.Written addr data b') b := by
  refine ⟨fun h => (nomatch h), fun seekError b₁ hseek => ?_⟩
  obtain ⟨hstart, hbad⟩ := lseek_bus (.refl b) hseek
  apply Prog.wp_ite
  · intro hsome
    have hfaulted := hbad fun h => by rw [h] at hsome; cases hsome
    exact Prog.wp_seq _ hfaulted.setError fun _ _ h => .failed h
  · intro hnone
    rw [hstart (Option.not_isSome_iff_eq_none.mp hnone)]
    have hlen : (smnRequest addr data).length = 8 := smnRequest_length addr data
    have hwrite := writeFull_bus (o := o) (by omega) (passed_start (.refl b) (smnRequest addr data))
    apply Prog.wp_seq _ hwrite
    intro writeError b₂ hpassed
    apply Prog.wp_ite
    · intro hsome
      have hfaulted := hpassed.2 fun h => by rw [h] at hsome; cases hsome
      exact Prog.wp_mono _ hfaulted.setError fun _ _ h => .failed h
    · intro hnone
      have hall := hpassed.1 (Option.not_isSome_iff_eq_none.mp hnone)
      refine .stored ⟨hall.isSmu, hall.ioError, ?_, hall.faults⟩
      rw [hall.regs, List.take_length, smnStore_smnRequest]
      rfl

end Kmod

section Mem
variable {o : MemObj} {b : SmnBus}

/-- `smn_reg_read_mem` clears the two low bits of the address. -/
def RegAligned (addr : Word) : Prop := addr &&& ~~~(3 : Word) = addr

theorem smnRegReadMem_bus {addr : Word} (haddr : RegAligned addr) :
    (smnRegReadMem o addr).Wp (busEnv (.mem o)) (b.Read (.mem o) addr) b := by
  refine ⟨fun h => (nomatch h), fun selected b₁ hselect => ?_⟩
  cases selected with
  | false =>
    have hfault : b₁ = b.fault := hselect
    refine (Prog.wp_bind _).mpr ⟨fun h => (nomatch h), fun _ b₂ hset => ?_⟩
    have hb₂ : b₂ = { b₁ with ioError := true } := hset
    refine ⟨fun h => (nomatch h), fun r b₃ hread => ?_⟩
    obtain ⟨hvalue, rfl⟩ := hread
    subst hb₂ hfault
    exact .failed ⟨⟨rfl, rfl, Nat.lt_succ_self _⟩, rfl⟩ (hvalue rfl)
  | true =>
    have hb₁ : b₁ = { b with index := addr &&& ~~~(3 : Word) } := hselect
    refine ⟨fun h => (nomatch h), fun r b₂ hread => ?_⟩
    obtain ⟨hvalue, rfl⟩ := hread
    subst hb₁
    refine .got ⟨rfl, rfl, rfl, rfl⟩ ((hvalue rfl).trans ?_)
    exact congrArg b.regs haddr

theorem smnRegWriteMem_bus (addr data : Word) :
    (smnRegWriteMem o addr data).Wp (busEnv (.mem o)) (fun _ b' => b.Written addr data b') b := by
  refine ⟨fun h => (nomatch h), fun selected b₁ hselect => ?_⟩
  cases selected with
  | false =>
    have hfaulted : b.Faulted b₁ := by
      rw [show b₁ = b.fault from hselect]
      exact (SmnBus.Quiet.refl b).fault
    show (smnIoSetError.bind fun _ => .ret ()).Wp _ _ b₁
    exact Prog.wp_seq _ hfaulted.setError fun _ _ h => .failed h
  | true =>
    have hb₁ : b₁ = { b with index := addr } := hselect
    refine ⟨fun h => (nomatch h), fun written b₂ hwrite => ?_⟩
    cases written with
    | false =>
      have hb₂ : b₂ = b₁.fault := hwrite
      subst hb₂ hb₁
      refine Prog.wp_mono _ ?_ fun _ _ h => .failed h
      exact SmnBus.Faulted.setError ⟨rfl, rfl, Nat.lt_succ_self _⟩
    | true =>
      have hb₂ : b₂ = b₁.store b₁.index data := hwrite
      subst hb₂ hb₁
      exact .stored ⟨rfl, rfl, rfl, rfl⟩

end Mem

section Linux
variable {obj : OsAccessObj} {b : SmnBus}

theorem smnRegReadLinux_bus (hflag : b.isSmu = obj.isKmod) {addr : Word} (haddr : RegAligned addr) :
    (smnRegReadLinux obj addr).Wp (busEnv obj) (b.Read obj addr) b := by
  refine ⟨fun h => (nomatch h), fun isSmu b₁ hnext => ?_⟩
  obtain ⟨rfl, rfl⟩ := hnext
  cases obj with
  | kmod o =>
    rw [hflag]
    exact smnRegReadKmod_bus o b₁ addr
  | mem o =>
    rw [hflag]
    exact smnRegReadMem_bus haddr

theorem smnRegWriteLinux_bus (hflag : b.isSmu = obj.isKmod) (addr data : Word) :
    (smnRegWriteLinux obj addr data).Wp (busEnv obj) (fun _ b' => b.Written addr data b') b := by
  refine ⟨fun h => (nomatch h), fun isSmu b₁ hnext => ?_⟩
  obtain ⟨rfl, rfl⟩ := hnext
  cases obj with
  | kmod o =>
    rw [hflag]
    exact smnRegWriteKmod_bus o b₁ addr data
  | mem o =>
    rw [hflag]
    exact smnRegWriteMem_bus addr data

end Linux

end RyzenAdj
