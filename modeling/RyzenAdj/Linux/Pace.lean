import Mathlib.Order.WellFounded
import RyzenAdj.Interaction.Total
import RyzenAdj.Linux.Host
import RyzenAdj.Smu.Calls

/-!
# Time and interruptions

What the waiting of the library rests on: the monotonic clock does not run back
and does not stand still for ever, and a transfer does not come to nothing for
ever. Nothing else is asked of what the kernel, the SMU or another process does.
-/

namespace RyzenAdj
open Interaction Sys

/-- The clock, and how often in a row it may still show the same time. -/
structure Clock where
  now : Nat
  patience : Nat

/-- The clock is read. -/
def Clock.Tick (c : Clock) (r : Nat) (c' : Clock) : Prop :=
  c'.now = r ∧ (c.now < r ∨ (r = c.now ∧ c'.patience < c.patience))

/-- The clock, and how many transfers in a row may still come to nothing. -/
structure Pace where
  clock : Clock
  idle : Nat

/-- A transfer that came to nothing and is tried again: EINTR, or a write of nothing. -/
def Sys.Op.Idles : (o : Sys.Op) → Sys.Ret o → Prop
  | .write _ _, .error e => e = eIntr
  | .write _ _, .wrote n _ => n = 0
  | .read _ _, .error e => e = eIntr
  | _, _ => False

def Pace.Move (s : Pace) : (o : linux.Op) → linux.Ret o → Pace → Prop
  | .inr .monotonicMs, now, s' => s.clock.Tick now s'.clock
  | .inr _, _, s' => s'.clock = s.clock
  | .inl o, r, s' => s'.clock = s.clock ∧ (o.Idles r → s'.idle < s.idle)

def paceEnv : Env linux Pace where
  guard _ _ := True
  next := Pace.Move

def clockEnv : Env mailbox Clock where
  guard _ _ := True
  next
    | c, .monotonicMs, now, c' => c.Tick now c'
    | c, _, _, c' => c' = c

section Backends

/-- Always ends, and does not read the clock. -/
abbrev SteadySys {α : Type} (p : Prog sys α) : Prop := p.TotalKeeping paceEnv.first Pace.clock

abbrev Steady {α : Type} (p : Prog linux α) : Prop := p.TotalKeeping paceEnv Pace.clock

variable {α β : Type}

theorem steadySys_call {o : Sys.Op} {k : Sys.Ret o → Prog sys α} (hk : ∀ r, SteadySys (k r)) :
    SteadySys (.call (S := sys) o k) :=
  Prog.keeping_call (fun _ => trivial) (fun _ _ _ hnext => hnext.1) hk

theorem steady_system {o : Sys.Op} {k : Sys.Ret o → Prog linux α} (hk : ∀ r, Steady (k r)) :
    Steady (.call (S := linux) (.inl o) k) :=
  Prog.keeping_call (fun _ => trivial) (fun _ _ _ hnext => hnext.1) hk

theorem steady_host {o : Host.Op} {k : Host.Ret o → Prog linux α} (ho : o ≠ .monotonicMs)
    (hk : ∀ r, Steady (k r)) : Steady (.call (S := linux) (.inr o) k) := by
  refine Prog.keeping_call (fun _ => trivial) (fun s r s' hnext => ?_) hk
  cases o <;> first | exact absurd rfl ho | exact hnext

/-- The bytes still to go, and how often none may. -/
abbrev ToGo := Nat × Nat

def ToGo.Less : ToGo → ToGo → Prop := Prod.Lex (· < ·) (· < ·)

theorem ToGo.less_wf : WellFounded ToGo.Less := WellFounded.prod_lex Nat.lt_wfRel.wf Nat.lt_wfRel.wf

theorem readFull_steady (fd : Int) (len : Nat) : SteadySys (readFull fd len) := by
  intro s
  refine ⟨ToGo, ToGo.Less, fun v buf t => v = (len - buf.val.length, t.idle) ∧ t.clock = s.clock,
    ToGo.less_wf, ⟨_, rfl, rfl⟩, ?_⟩
  intro v buf t hv
  obtain ⟨rfl, hclock⟩ := hv
  unfold readFullTurn
  split
  · rename_i hmore
    refine ⟨trivial, fun r t' hnext => ?_⟩
    obtain ⟨hkept, hidle⟩ := hnext
    have hclock' : t'.clock = s.clock := hkept.trans hclock
    cases r with
    | error e =>
      apply Prog.wpTotal_ite
      · exact fun he => ⟨_, .right _ (hidle he), rfl, hclock'⟩
      · exact fun _ => hclock'
    | got bytes hb =>
      apply Prog.wpTotal_ite
      · exact fun _ => hclock'
      · intro hsome
        refine ⟨_, .left _ _ ?_, rfl, hclock'⟩
        simp only [List.length_append]
        omega
  · exact hclock

theorem writeFull_steady (fd : Int) (bytes : List Byte) : SteadySys (writeFull fd bytes) := by
  intro s
  refine ⟨ToGo, ToGo.Less, fun v done t => v = (bytes.length - done, t.idle) ∧ t.clock = s.clock,
    ToGo.less_wf, ⟨_, rfl, rfl⟩, ?_⟩
  intro v done t hv
  obtain ⟨rfl, hclock⟩ := hv
  apply Prog.wpTotal_ite
  · intro hmore
    refine ⟨trivial, fun r t' hnext => ?_⟩
    obtain ⟨hkept, hidle⟩ := hnext
    have hclock' : t'.clock = s.clock := hkept.trans hclock
    cases r with
    | error e =>
      apply Prog.wpTotal_ite
      · exact fun he => ⟨_, .right _ (hidle he), rfl, hclock'⟩
      · exact fun _ => hclock'
    | wrote n hn =>
      by_cases hzero : n = 0
      · subst hzero
        exact ⟨_, .right _ (hidle rfl), rfl, hclock'⟩
      · exact ⟨_, .left _ _ (by omega), rfl, hclock'⟩
  · exact fun _ => hclock

theorem setError_steady (a : α) : SteadySys (smnIoSetError.bind fun _ => .ret a) :=
  steadySys_call fun _ => Prog.keeping_ret a

theorem smnRegReadKmod_steady (o : KmodObj) (addr : Word) : SteadySys (smnRegReadKmod o addr) := by
  apply steadySys_call
  intro seekError
  apply Prog.keeping_ite fun _ => setError_steady _
  intro _
  apply Prog.keeping_bind (writeFull_steady _ _)
  intro writeError
  apply Prog.keeping_ite fun _ => setError_steady _
  intro _
  apply steadySys_call
  intro seekError
  apply Prog.keeping_ite fun _ => setError_steady _
  intro _
  apply Prog.keeping_bind (readFull_steady _ _)
  intro t
  exact Prog.keeping_ite (fun _ => setError_steady _) fun _ => Prog.keeping_ret _

theorem smnRegWriteKmod_steady (o : KmodObj) (addr data : Word) :
    SteadySys (smnRegWriteKmod o addr data) := by
  apply steadySys_call
  intro seekError
  apply Prog.keeping_ite fun _ => setError_steady _
  intro _
  apply Prog.keeping_bind (writeFull_steady _ _)
  intro writeError
  exact Prog.keeping_ite (fun _ => setError_steady ()) fun _ => Prog.keeping_ret _

theorem seekWriteFull_steady (fd : Int) (bytes : List Byte) :
    SteadySys (seekWriteFull fd bytes) := by
  apply steadySys_call
  intro seekError
  cases seekError with
  | some e => exact Prog.keeping_ret _
  | none => exact writeFull_steady fd bytes

theorem seekReadFull_steady (fd : Int) (len : Nat) : SteadySys (seekReadFull fd len) := by
  apply steadySys_call
  intro seekError
  cases seekError with
  | some e => exact Prog.keeping_ret _
  | none => exact readFull_steady fd len

theorem smuRawCmdKmod_steady (o : KmodObj) (msg rep argBase id : Word) (args : Args) :
    SteadySys (smuRawCmdKmod o msg rep argBase id args) := by
  apply Prog.keeping_ite fun _ => Prog.keeping_ret _
  intro _
  apply Prog.keeping_bind (seekWriteFull_steady _ _)
  intro writeError
  cases writeError with
  | some e => exact Prog.keeping_ret _
  | none =>
    apply Prog.keeping_bind (seekReadFull_steady _ _)
    intro t
    cases t.error with
    | some e => exact Prog.keeping_ret _
    | none => exact Prog.keeping_ret _

theorem copyPmTableKmod_steady (o : KmodObj) (size : Nat) : SteadySys (copyPmTableKmod o size) := by
  apply Prog.keeping_ite fun _ => Prog.keeping_ret _
  intro _
  apply Prog.keeping_ite fun _ => Prog.keeping_ret _
  exact fun _ => seekReadFull_steady _ _

theorem getPmTableSize_steady : SteadySys getPmTableSize := by
  apply steadySys_call
  intro fd
  apply Prog.keeping_ite fun _ => Prog.keeping_ret _
  intro _
  apply Prog.keeping_bind (readFull_steady _ _)
  intro t
  apply steadySys_call
  intro _
  apply Prog.keeping_ite fun _ => Prog.keeping_ret _
  exact fun _ => Prog.keeping_ite (fun _ => Prog.keeping_ret _) fun _ => Prog.keeping_ret _

theorem initOsAccessObjKmod_steady : SteadySys initOsAccessObjKmod := by
  apply steadySys_call
  intro allocated
  apply Prog.keeping_ite fun _ => Prog.keeping_ret _
  intro _
  apply Prog.keeping_bind getPmTableSize_steady
  intro reported
  apply steadySys_call
  intro smnFd
  apply Prog.keeping_ite fun _ => Prog.keeping_ret _
  intro _
  apply steadySys_call
  intro rawCmdFd
  apply Prog.keeping_ite fun _ => Prog.keeping_ret _
  intro _
  apply steadySys_call
  intro pmTableFd
  exact Prog.keeping_ite (fun _ => Prog.keeping_ret _) fun _ => Prog.keeping_ret _

theorem smnRegReadMem_steady (o : MemObj) (addr : Word) : SteadySys (smnRegReadMem o addr) := by
  have hread : SteadySys (Sys.pciReadLong o.pciDev nbPciRegDataAddr) :=
    steadySys_call fun _ => Prog.keeping_ret _
  apply steadySys_call
  intro selected
  exact Prog.keeping_ite (fun _ => steadySys_call fun _ => hread) fun _ => hread

theorem smnRegWriteMem_steady (o : MemObj) (addr data : Word) :
    SteadySys (smnRegWriteMem o addr data) := by
  apply steadySys_call
  intro selected
  apply Prog.keeping_ite fun _ => setError_steady _
  intro _
  apply steadySys_call
  intro written
  exact Prog.keeping_ite (fun _ => Prog.keeping_ret _) fun _ => setError_steady ()

theorem undefined_steady : SteadySys (Sys.undefined : Prog sys α) :=
  steadySys_call fun r => nomatch r

theorem smnRegReadLinux_steady (obj : OsAccessObj) (addr : Word) :
    SteadySys (smnRegReadLinux obj addr) := by
  apply steadySys_call
  intro isSmu
  match isSmu, obj with
  | true, .kmod o => exact smnRegReadKmod_steady o addr
  | false, .mem o => exact smnRegReadMem_steady o addr
  | true, .mem _ => exact undefined_steady
  | false, .kmod _ => exact undefined_steady

theorem smnRegWriteLinux_steady (obj : OsAccessObj) (addr data : Word) :
    SteadySys (smnRegWriteLinux obj addr data) := by
  apply steadySys_call
  intro isSmu
  match isSmu, obj with
  | true, .kmod o => exact smnRegWriteKmod_steady o addr data
  | false, .mem o => exact smnRegWriteMem_steady o addr data
  | true, .mem _ => exact undefined_steady
  | false, .kmod _ => exact undefined_steady

theorem smuRawCmdLinux_steady (obj : OsAccessObj) (msg rep argBase id : Word) (args : Args) :
    SteadySys (smuRawCmdLinux obj msg rep argBase id args) := by
  apply steadySys_call
  intro isSmu
  match isSmu, obj with
  | true, .kmod o => exact smuRawCmdKmod_steady o msg rep argBase id args
  | true, .mem _ => exact undefined_steady
  | false, _ => exact Prog.keeping_ret _

end Backends

section Process
open Host
variable {α β : Type}

theorem isRyzenSmuDriverCompatible_steady : Steady isRyzenSmuDriverCompatible := by
  apply steady_host (by simp)
  intro drvVer
  cases drvVer with
  | none => exact Prog.keeping_ret _
  | some stream =>
    apply steady_host (by simp)
    intro text
    exact steady_host (by simp) fun _ => Prog.keeping_ret _

theorem hostInitOsAccessObjMem_steady : Steady Host.initOsAccessObjMem := by
  apply steady_system
  intro allocated
  apply Prog.keeping_ite fun _ => Prog.keeping_ret _
  intro _
  apply steady_system
  intro acc
  cases acc with
  | none => exact Prog.keeping_ret _
  | some pciAcc =>
    apply steady_system
    intro dev
    cases dev with
    | none => exact steady_host (by simp) fun _ => Prog.keeping_ret _
    | some pciDev => exact Prog.keeping_ret _

theorem initOsAccessObj_steady : Steady Host.initOsAccessObj := by
  have hobject : ∀ detected : Bool, Steady (if detected then
      (system (.setIsSmu true)).bind fun _ => initOsAccessObjKmod.inl.bind fun o =>
        .ret (o.map .kmod)
      else Host.initOsAccessObjMem.bind fun o => .ret (o.map OsAccessObj.mem)) := by
    intro detected
    apply Prog.keeping_ite
    · have hkmod : Steady (initOsAccessObjKmod.inl.bind fun o =>
          .ret (o.map OsAccessObj.kmod)) :=
        Prog.keeping_bind (Prog.keeping_inl initOsAccessObjKmod_steady) fun _ => Prog.keeping_ret _
      exact fun _ => steady_system fun _ => hkmod
    · exact fun _ => Prog.keeping_bind hostInitOsAccessObjMem_steady fun _ => Prog.keeping_ret _
  apply steady_host (by simp)
  intro there
  apply Prog.keeping_ite
  · exact fun _ => Prog.keeping_bind isRyzenSmuDriverCompatible_steady hobject
  · exact fun _ => hobject false

theorem unmapPhy_steady (window : PhyMap) : Steady (Host.unmapPhy window) := by
  unfold Host.unmapPhy
  cases window.phyMap with
  | none => exact Prog.keeping_ret _
  | some base => exact steady_host (by simp) fun _ => Prog.keeping_ret _

theorem initMemObj_steady (window : PhyMap) (physAddr : BitVec 64) (size : Nat) :
    Steady (Host.initMemObj window physAddr size) := by
  apply steady_system
  intro isSmu
  apply Prog.keeping_ite fun _ => Prog.keeping_ret _
  intro _
  apply steady_host (by simp)
  intro sz
  apply Prog.keeping_bind (unmapPhy_steady window)
  intro _
  apply steady_system
  intro devMemFd
  apply Prog.keeping_ite fun _ => Prog.keeping_ret _
  intro _
  apply steady_host (by simp)
  intro mapped
  exact steady_system fun _ => Prog.keeping_ret _

theorem closeOpen_steady (fd : Int) : Steady (closeOpen fd) :=
  Prog.keeping_ite (fun _ => steady_system fun _ => Prog.keeping_ret _) fun _ => Prog.keeping_ret _

theorem freeOsAccessObj_steady (window : PhyMap) (obj : OsAccessObj) :
    Steady (Host.freeOsAccessObj window obj) := by
  have hkmod : ∀ o, Steady (Host.freeOsAccessObjKmod o) := fun o =>
    Prog.keeping_bind (closeOpen_steady _) fun _ => Prog.keeping_bind (closeOpen_steady _)
      fun _ => closeOpen_steady _
  have hmem : ∀ o, Steady (Host.freeOsAccessObjMem window o) := fun o =>
    Prog.keeping_bind (unmapPhy_steady window) fun _ => steady_host (by simp)
      fun _ => steady_host (by simp) fun _ => Prog.keeping_ret _
  have hdown : ∀ w : PhyMap, Steady ((system (.setIsSmu false)).bind fun _ => .ret w) := fun w =>
    steady_system fun _ => Prog.keeping_ret w
  apply steady_system
  intro isSmu
  match isSmu, obj with
  | true, .kmod o =>
    show Steady ((Host.freeOsAccessObjKmod o).bind _)
    exact Prog.keeping_bind (hkmod o) fun _ => hdown _
  | false, .mem o =>
    show Steady ((Host.freeOsAccessObjMem window o).bind _)
    exact Prog.keeping_bind (hmem o) fun _ => hdown _
  | true, .mem _ => exact Prog.keeping_inl undefined_steady
  | false, .kmod _ => exact Prog.keeping_inl undefined_steady

theorem copyPmTable_steady (window : PhyMap) (obj : OsAccessObj) (size : Nat) :
    Steady (Host.copyPmTable window obj size) := by
  have hmem : Steady (Host.copyPmTableMem window size) := by
    unfold Host.copyPmTableMem
    cases phyTablePtr window with
    | none => exact Prog.keeping_ret _
    | some src =>
      exact Prog.keeping_ite (fun _ => Prog.keeping_ret _) fun _ =>
        steady_host (by simp) fun _ => Prog.keeping_ret _
  apply steady_system
  intro isSmu
  match isSmu, obj with
  | true, .kmod o => exact Prog.keeping_inl (copyPmTableKmod_steady o size)
  | true, .mem _ => exact Prog.keeping_inl undefined_steady
  | false, _ => exact hmem

theorem comparePmTable_steady (window : PhyMap) (buffer : List Byte) :
    Steady (Host.comparePmTable window buffer) := by
  have hmem : Steady (Host.comparePmTableMem window buffer) := by
    unfold Host.comparePmTableMem
    cases phyTablePtr window with
    | none => exact Prog.keeping_ret _
    | some src =>
      exact Prog.keeping_ite (fun _ => Prog.keeping_ret _) fun _ =>
        steady_host (by simp) fun _ => Prog.keeping_ret _
  apply steady_system
  intro isSmu
  exact Prog.keeping_ite (fun _ => Prog.keeping_ret _) fun _ => hmem

theorem asked_ends {o : Processor.Op} {k : processor.Ret o → Prog processor α}
    (hk : ∀ r, (k r).TotalKeeping (Env.only fun _ => True) id) :
    (Prog.call (S := processor) o k).TotalKeeping (Env.only fun _ => True) id :=
  Prog.keeping_call (fun _ => trivial) (fun _ _ _ _ => rfl) hk

theorem cpuidLoadFamily_ends : cpuidLoadFamily.TotalKeeping (Env.only fun _ => True) id := by
  apply asked_ends
  intro regs
  apply Prog.keeping_ite
  · exact fun _ => asked_ends fun _ => Prog.keeping_ret _
  · intro _
    apply asked_ends
    intro regs'
    simp only [Prog.ret_bind]
    cases switchOn (cpuFamily regs'.eax) cpuFamilies with
    | none => exact asked_ends fun _ => asked_ends fun _ => Prog.keeping_ret _
    | some models =>
      simp only
      cases switchOn (cpuModel regs'.eax) models with
      | some f => exact Prog.keeping_ret f
      | none => exact asked_ends fun _ => asked_ends fun _ => Prog.keeping_ret _

theorem cpuidGetFamily_ends (cpuidFamily : Option RyzenFamily) :
    (Cpuid.cpuidGetFamily cpuidFamily).TotalKeeping (Env.only fun _ => True) id := by
  cases cpuidFamily with
  | some family => exact Prog.keeping_ret _
  | none => exact Prog.keeping_bind cpuidLoadFamily_ends fun _ => Prog.keeping_ret _

theorem cpuidGetFamily_steady (p : Statics) : Steady (Host.cpuidGetFamily p) := by
  intro s
  have hmeets : processorImpl.MeetsTotal (Env.only fun _ => True) paceEnv
      (fun _ _ t => t.clock = s.clock) := by
    intro _ _ t o ht _
    exact ⟨trivial, fun r t' hnext => ⟨(), trivial, Eq.trans hnext ht⟩⟩
  apply Prog.wpTotal_seq (Prog.wpTotal_link hmeets rfl (cpuidGetFamily_ends p.cpuidFamily ()))
  intro x t hx
  obtain ⟨_, -, hclock⟩ := hx
  exact hclock

end Process

section Waiting
variable {α : Type}

/-- Always ends, whatever the clock shows. -/
abbrev Timely (p : Prog mailbox α) : Prop := p.TotalKeeping clockEnv fun _ => ()

theorem timely_call {o : Mailbox.Op} {k : Mailbox.Ret o → Prog mailbox α}
    (hk : ∀ r, Timely (k r)) : Timely (.call (S := mailbox) o k) :=
  Prog.keeping_call (fun _ => trivial) (fun _ _ _ _ => rfl) hk

/-- Nearer to the deadline, or the same time again. -/
def Clock.Nearer (deadline : Nat) (c' c : Clock) : Prop :=
  ToGo.Less (deadline - c'.now, c'.patience) (deadline - c.now, c.patience)

theorem Clock.nearer_wf (deadline : Nat) : WellFounded (Clock.Nearer deadline) :=
  InvImage.wf (fun c : Clock => (deadline - c.now, c.patience)) ToGo.less_wf

theorem Clock.Tick.nearer {c c' : Clock} {deadline now : Nat} (h : c.Tick now c')
    (hearly : now < deadline) : Clock.Nearer deadline c' c := by
  obtain ⟨rfl, hlater | ⟨hsame, hless⟩⟩ := h
  · exact .left _ _ (by omega)
  · rw [Clock.Nearer, hsame]
    exact .right _ hless

/-- A loop that looks at the clock in every turn, and goes on before the deadline only. -/
theorem timely_until {τ : Type} {x : τ} {body : τ → Prog mailbox (τ ⊕ α)} (deadline : Nat)
    (hturn : ∀ y c, (body y).WpTotal clockEnv
      (fun z c' => z.isLeft = true → Clock.Nearer deadline c' c) c) :
    Timely (Prog.iterate x body) := by
  intro c
  refine ⟨Clock, Clock.Nearer deadline, fun v _ c => v = c, Clock.nearer_wf deadline, ⟨c, rfl⟩, ?_⟩
  intro v y c hv
  subst hv
  apply Prog.wpTotal_mono (hturn y v)
  intro z c' hz
  cases z with
  | inl y' => exact ⟨c', hz rfl, rfl⟩
  | inr b => rfl

theorem smuLock_timely : Timely smuLock := by
  have hloop : ∀ now : Nat, Timely (Prog.iterate () (smuLockTurn (now + smuLockTimeoutMs))) := by
    intro start
    refine timely_until (start + smuLockTimeoutMs) fun _ c => ⟨trivial, fun r c₁ hc₁ => ?_⟩
    cases r with
    | acquired => exact fun h => by cases h
    | error e =>
      apply Prog.wpTotal_ite
      · exact fun _ h => by cases h
      · intro _
        refine ⟨trivial, fun now c₂ htick => ?_⟩
        rw [show c₁ = c from hc₁] at htick
        apply Prog.wpTotal_ite
        · exact fun _ h => by cases h
        · intro hearly
          refine ⟨trivial, fun _ c₃ hc₃ _ => ?_⟩
          rw [show c₃ = c₂ from hc₃]
          exact Clock.Tick.nearer htick (Nat.not_le.mp hearly)
  have hrest : ∀ opened : Bool, Timely (if !opened then Prog.ret true else
      Mailbox.monotonicMs.bind fun now =>
        Prog.iterate () (smuLockTurn (now + smuLockTimeoutMs))) := fun opened =>
    Prog.keeping_ite (fun _ => Prog.keeping_ret _) fun _ => timely_call hloop
  apply timely_call
  intro fdOpen
  apply Prog.keeping_ite
  · exact fun _ => hrest true
  · exact fun _ => timely_call hrest

theorem smuWaitForResponse_timely (smu : Smu) : Timely (smuWaitForResponse smu) := by
  apply timely_call
  intro start
  refine timely_until (start + smuRespTimeoutMs) fun spins c => ⟨trivial, fun r c₁ hc₁ => ?_⟩
  apply Prog.wpTotal_ite
  · exact fun _ h => by cases h
  · intro _
    refine ⟨trivial, fun now c₂ htick => ?_⟩
    rw [show c₁ = c from hc₁] at htick
    apply Prog.wpTotal_ite
    · exact fun _ h => by cases h
    · intro hearly
      have hnearer := Clock.Tick.nearer htick (Nat.not_le.mp hearly)
      apply Prog.wpTotal_ite
      · intro _
        refine ⟨trivial, fun _ c₃ hc₃ _ => ?_⟩
        rw [show c₃ = c₂ from hc₃]
        exact hnearer
      · exact fun _ _ => hnearer

theorem smuUnlock_timely : Timely smuUnlock := by
  apply timely_call
  intro fdOpen
  exact Prog.keeping_ite (fun _ => timely_call fun _ => Prog.keeping_ret _)
    fun _ => Prog.keeping_ret _

theorem unlockRet_timely (a : α) : Timely (smuUnlock.bind fun _ => .ret a) :=
  Prog.keeping_bind smuUnlock_timely fun _ => Prog.keeping_ret a

theorem writeAll_timely (obj : OsAccessObj) (ws : List (Word × Word)) :
    Timely (writeAll obj ws) := by
  induction ws with
  | nil => exact Prog.keeping_ret ()
  | cons w ws ih => exact timely_call fun _ => ih

theorem smuReadBack_timely (smu : Smu) : Timely (smuReadBack smu) :=
  timely_call fun _ => timely_call fun _ => timely_call fun _ => timely_call fun _ =>
    timely_call fun _ => timely_call fun _ => Prog.keeping_ret _

theorem smuServiceReqRegisters_timely (smu : Smu) (id : Word) (args : Args) :
    Timely (smuServiceReqRegisters smu id args) := by
  apply timely_call
  intro _
  simp only [Prog.ret_bind, Prog.bind_eq, Prog.pure_eq]
  apply Prog.keeping_bind (writeAll_timely smu.osAccess (setupWrites smu args))
  intro _
  apply timely_call
  intro setupFailed
  apply Prog.keeping_ite fun _ => unlockRet_timely _
  intro _
  apply timely_call
  intro _
  simp only [Prog.ret_bind]
  apply Prog.keeping_bind (smuWaitForResponse_timely smu)
  intro response
  apply Prog.keeping_ite
  · exact fun _ => timely_call fun _ => unlockRet_timely _
  · intro _
    apply Prog.keeping_bind (smuReadBack_timely smu)
    exact fun _ => timely_call fun _ => unlockRet_timely _

theorem smuServiceReq_timely (smu : Smu) (id : Word) (args : Args) :
    Timely (smuServiceReq smu id args) := by
  apply Prog.keeping_bind smuLock_timely
  intro locked
  apply Prog.keeping_ite fun _ => Prog.keeping_ret _
  intro _
  apply timely_call
  intro raw
  cases raw with
  | some r => exact unlockRet_timely _
  | none => exact smuServiceReqRegisters_timely smu id args

theorem smuServiceTestRegisters_timely (smu : Smu) : Timely (smuServiceTestRegisters smu) := by
  apply timely_call fun _ => ?_
  apply timely_call fun _ => ?_
  apply timely_call
  intro echo
  apply Prog.keeping_ite fun _ => unlockRet_timely _
  intro _
  apply timely_call
  intro _
  simp only [Prog.ret_bind, Prog.bind_eq, Prog.pure_eq]
  apply Prog.keeping_bind (smuWaitForResponse_timely smu)
  intro response
  apply timely_call
  intro _
  simp only [Prog.ret_bind]
  apply Prog.keeping_bind smuUnlock_timely
  intro _
  exact Prog.keeping_ite (fun _ => Prog.keeping_ret _) fun _ => Prog.keeping_ret _

theorem smuServiceTest_timely (smu : Smu) : Timely (smuServiceTest smu) := by
  apply Prog.keeping_bind smuLock_timely
  intro locked
  apply Prog.keeping_ite fun _ => Prog.keeping_ret _
  intro _
  apply timely_call
  intro raw
  cases raw with
  | some r => exact unlockRet_timely _
  | none => exact smuServiceTestRegisters_timely smu

theorem getSmu_timely (obj : OsAccessObj) (smuType : SmuType) : Timely (getSmu obj smuType) := by
  apply timely_call
  intro allocated
  apply Prog.keeping_ite fun _ => Prog.keeping_ret _
  intro _
  apply timely_call
  intro family
  simp only [Prog.ret_bind]
  cases smuOf obj smuType family with
  | none => exact Prog.keeping_ret _
  | some smu =>
    apply Prog.keeping_bind (smuServiceTest_timely smu)
    intro works
    exact Prog.keeping_ite (fun _ => Prog.keeping_ret _) fun _ => Prog.keeping_ret _

theorem steady_meets {o : Mailbox.Op} {m : Prog linux (Mailbox.Ret o × Statics)} {c : Clock}
    {s : Pace} (hsame : c = s.clock) (hm : Steady m)
    (hnext : ∀ r, clockEnv.next c o r c) :
    m.WpTotal paceEnv (fun x s' => ∃ c', clockEnv.next c o x.1 c' ∧ c' = s'.clock) s := by
  apply Prog.wpTotal_mono (hm s)
  intro x s' hclock
  exact ⟨c, hnext x.1, hsame.trans hclock.symm⟩

theorem mailboxImpl_steady :
    Host.mailboxImpl.MeetsTotal clockEnv paceEnv fun c _ s => c = s.clock := by
  have hret : ∀ {β : Type} (o : Host.Op) (f : Host.Ret o → β), o ≠ .monotonicMs →
      Steady ((Host.call o).bind fun r => .ret (f r)) :=
    fun _ f ho => steady_host ho fun r => Prog.keeping_ret (f r)
  have hbackend : ∀ {β γ : Type} {q : Prog sys β} (f : β → γ), SteadySys q →
      Steady (q.inl.bind fun r => .ret (f r)) :=
    fun f hq => Prog.keeping_bind (Prog.keeping_inl hq) fun r => Prog.keeping_ret (f r)
  intro c p s o hsame _
  cases o with
  | smuLockFd => exact steady_meets (o := .smuLockFd) hsame (Prog.keeping_ret _) fun _ => rfl
  | openSmuLock =>
    exact steady_meets (o := .openSmuLock) hsame (hret .openSmuLock _ (by simp)) fun _ => rfl
  | flockEx =>
    exact steady_meets (o := .flockEx) hsame (hret (.flockEx _) _ (by simp)) fun _ => rfl
  | flockUn =>
    exact steady_meets (o := .flockUn) hsame (hret (.flockUn _) _ (by simp)) fun _ => rfl
  | monotonicMs =>
    refine ⟨trivial, fun now s' htick => ⟨s'.clock, ?_, rfl⟩⟩
    rw [hsame]
    exact htick
  | usleep => exact steady_meets (o := .usleep) hsame (hret .usleep _ (by simp)) fun _ => rfl
  | shortSleep =>
    exact steady_meets (o := .shortSleep) hsame (hret .shortSleep _ (by simp)) fun _ => rfl
  | malloc => exact steady_meets (o := .malloc) hsame (hret .malloc _ (by simp)) fun _ => rfl
  | cpuidGetFamily =>
    exact steady_meets (o := .cpuidGetFamily) hsame (cpuidGetFamily_steady p) fun _ => rfl
  | smnRegRead obj addr =>
    exact steady_meets (o := .smnRegRead obj addr) hsame
      (hbackend _ (smnRegReadLinux_steady obj addr)) fun _ => rfl
  | smnRegWrite obj addr data =>
    exact steady_meets (o := .smnRegWrite obj addr data) hsame
      (hbackend _ (smnRegWriteLinux_steady obj addr data)) fun _ => rfl
  | smnIoTakeError =>
    exact steady_meets (o := .smnIoTakeError) hsame
      (steady_system fun _ => Prog.keeping_ret _) fun _ => rfl
  | smuRawCmd obj msg rep argBase id args =>
    exact steady_meets (o := .smuRawCmd obj msg rep argBase id args) hsame
      (hbackend _ (smuRawCmdLinux_steady obj msg rep argBase id args)) fun _ => rfl

theorem mailbox_ends {q : Prog mailbox α} (h : Timely q) (p : Statics) (s : Pace) :
    (q.link Host.mailboxImpl p).WpTotal paceEnv (fun _ _ => True) s := by
  apply Prog.wpTotal_mono (Prog.wpTotal_link mailboxImpl_steady rfl (h s.clock))
  exact fun _ _ _ => trivial

theorem ends_of_steady {q : Prog linux α} (h : Steady q) (s : Pace) :
    q.WpTotal paceEnv (fun _ _ => True) s :=
  Prog.wpTotal_mono (h s) fun _ _ _ => trivial

theorem apiImpl_ends (p : Statics) (o : Api.Op) (s : Pace) :
    (Host.apiImpl p o).WpTotal paceEnv (fun _ _ => True) s := by
  have hthen : ∀ {β γ : Type} {q : Prog linux β} (f : β → γ), Steady q →
      (q.bind fun r => .ret (f r)).WpTotal paceEnv (fun _ _ => True) s :=
    fun f hq => ends_of_steady (Prog.keeping_bind hq fun r => Prog.keeping_ret (f r)) s
  have hcall : ∀ o : Host.Op, o ≠ .monotonicMs → Steady (Host.call o) :=
    fun _ ho => steady_host ho fun r => Prog.keeping_ret r
  cases o with
  | smuServiceReq smu id args => exact mailbox_ends (smuServiceReq_timely smu id args) p s
  | getSmu obj smuType => exact mailbox_ends (getSmu_timely obj smuType) p s
  | cpuidGetFamily => exact ends_of_steady (cpuidGetFamily_steady p) s
  | initOsAccessObj => exact hthen _ initOsAccessObj_steady
  | freeOsAccessObj obj => exact hthen _ (freeOsAccessObj_steady p.window obj)
  | isUsingSmuDriver => exact ⟨trivial, fun _ _ _ => trivial⟩
  | initMemObj obj physAddr size => exact hthen _ (initMemObj_steady p.window physAddr size)
  | copyPmTable obj size => exact hthen _ (copyPmTable_steady p.window obj size)
  | comparePmTable buffer => exact hthen _ (comparePmTable_steady p.window buffer)
  | malloc => exact hthen _ (hcall .malloc (by simp))
  | calloc nmemb => exact hthen _ (hcall (.calloc nmemb) (by simp))
  | sleep ms => exact hthen _ (hcall (.sleep ms) (by simp))
  | undefined => exact ends_of_steady (Prog.keeping_inl undefined_steady) s

end Waiting
end RyzenAdj
