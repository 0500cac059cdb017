import RyzenAdj.Interaction.Progress
import RyzenAdj.Smu.Calls
import RyzenAdj.Linux.SmnPort

/-!
# No command with stale arguments

A request on the register path over the SMN port: every register access is a
run of its Linux function, any of whose system calls may fail. The message
register is written only behind a complete setup. Before that nobody but the
request writes the mailbox; from then on the SMU does as it likes.
-/

namespace RyzenAdj
open Interaction Mailbox

/-- One `smn_reg_write`: what the registers held when it began, and whether a system
call of it failed. -/
structure RegWrite where
  addr : Word
  data : Word
  before : Word → Word
  failed : Bool

structure Traffic where
  port : SmnPort
  writes : List RegWrite

def Traffic.Rung (smu : Smu) (t : Traffic) : Prop := ∃ w ∈ t.writes, w.addr = smu.msg

/-- The register path writes nothing but the setup and the message register. -/
def Traffic.SetupFailed (smu : Smu) (t : Traffic) : Prop :=
  ∃ w ∈ t.writes, w.addr ≠ smu.msg ∧ w.failed = true

def trafficMove (t : Traffic) : (o : Mailbox.Op) → Mailbox.Ret o → Traffic → Prop
  | .smnRegRead obj addr, r, t' =>
    ∃ p, Prog.Steps (portEnv obj) (smnRegReadLinux obj addr, t.port) (.ret r, p) ∧
      t' = { t with port := p }
  | .smnRegWrite obj addr data, _, t' =>
    ∃ p, Prog.Steps (portEnv obj) (smnRegWriteLinux obj addr data, t.port) (.ret (), p) ∧
      t' = ⟨p, t.writes ++ [⟨addr, data, t.port.regs, decide (t.port.faults < p.faults)⟩]⟩
  | .smnIoTakeError, r, t' =>
    r = t.port.ioError ∧ t' = { t with port := { t.port with ioError := false } }
  | .smuRawCmd obj msg rep argBase id args, r, t' =>
    ∃ p, Prog.Steps (portEnv obj) (smuRawCmdLinux obj msg rep argBase id args, t.port)
      (.ret r, p) ∧ t' = { t with port := p }
  | _, _, t' => t' = t

/-- The mailbox is set up for a request with these arguments. -/
def Ready (smu : Smu) (args : Args) (regs : Word → Word) : Prop :=
  regs smu.rep = 0 ∧ ∀ i, regs (argAddr smu.argBase i) = args.get i

/-- The guard is what the message register asks for. -/
def trafficEnv (smu : Smu) (args : Args) : Env mailbox Traffic where
  guard t
    | .smnRegWrite _ addr _ => addr = smu.msg → Ready smu args t.port.regs
    | _ => True
  next t o r t' :=
    ∃ t₁, trafficMove t o r t₁ ∧
      (t' = t₁ ∨ t₁.Rung smu ∧ ∃ regs, t' = { t₁ with port := { t₁.port with regs := regs } })

section
variable {smu : Smu} {args : Args}

/-- A call that writes no register leaves the record of writes alone. -/
def KeepsWrites (o : Mailbox.Op) : Prop := ∀ obj addr data, o ≠ .smnRegWrite obj addr data

theorem writes_of_keepsWrites {o : Mailbox.Op} (ho : KeepsWrites o) {t t' : Traffic}
    {r : Mailbox.Ret o} (h : (trafficEnv smu args).next t o r t') : t'.writes = t.writes := by
  obtain ⟨t₁, hmove, hsmu⟩ := h
  have hwrites : t₁.writes = t.writes := by
    cases o with
    | smnRegWrite obj addr data => exact absurd rfl (ho obj addr data)
    | smnRegRead obj addr =>
      obtain ⟨p, _, rfl⟩ := hmove
      rfl
    | smuRawCmd obj msg rep argBase id args =>
      obtain ⟨p, _, rfl⟩ := hmove
      rfl
    | smnIoTakeError => rw [hmove.2]
    | _ => rw [show t₁ = t from hmove]
  rcases hsmu with rfl | ⟨_, regs, rfl⟩
  · exact hwrites
  · exact hwrites

/-- Without the doorbell the SMU is silent. -/
theorem move_of_not_rung {o : Mailbox.Op} (ho : KeepsWrites o) {t t' : Traffic}
    (hsilent : ¬ t.Rung smu) {r : Mailbox.Ret o} (h : (trafficEnv smu args).next t o r t') :
    trafficMove t o r t' := by
  have hwrites := writes_of_keepsWrites ho h
  obtain ⟨t₁, hmove, hsmu⟩ := h
  rcases hsmu with rfl | ⟨hrung, regs, rfl⟩
  · exact hmove
  · obtain ⟨w, hw, haddr⟩ := hrung
    exact absurd ⟨w, hwrites ▸ hw, haddr⟩ hsilent

theorem setupFailed_stays {t t' : Traffic} {o : Mailbox.Op} {r : Mailbox.Ret o}
    (hfailed : t.SetupFailed smu) (h : (trafficEnv smu args).next t o r t') :
    t'.SetupFailed smu := by
  obtain ⟨w, hw, hwf⟩ := hfailed
  by_cases ho : KeepsWrites o
  · exact ⟨w, (writes_of_keepsWrites ho h).symm ▸ hw, hwf⟩
  · simp only [KeepsWrites, not_forall, not_not] at ho
    obtain ⟨obj, addr, data, rfl⟩ := ho
    obtain ⟨t₁, ⟨p, _, rfl⟩, hsmu⟩ := h
    rcases hsmu with rfl | ⟨_, regs, rfl⟩
    · exact ⟨w, List.mem_append_left _ hw, hwf⟩
    · exact ⟨w, List.mem_append_left _ hw, hwf⟩

/-- The state in the middle of the setup: the writes of `done` are made, or the error
flag is up. -/
structure SetUp (smu : Smu) (done : List (Word × Word)) (t : Traffic) : Prop where
  isSmu : t.port.isSmu = smu.osAccess.isKmod
  silent : ¬ t.Rung smu
  state : t.port.ioError = true ∨
    (∀ w ∈ t.writes, w.failed = false) ∧ ∀ w ∈ done, t.port.regs w.1 = w.2

theorem SetUp.write {done : List (Word × Word)} {addr data : Word} {t t' : Traffic}
    (h : SetUp smu done t) (hmsg : addr ≠ smu.msg) (hnew : ∀ w ∈ done, w.1 ≠ addr)
    (hnext : (trafficEnv smu args).next t (.smnRegWrite smu.osAccess addr data) () t') :
    SetUp smu ((addr, data) :: done) t' := by
  obtain ⟨t₁, ⟨p, hrun, rfl⟩, hsmu⟩ := hnext
  have hspec := Prog.wp_result _ hrun (smnRegWriteLinux_port h.isSmu addr data)
  have hsilent : ¬ Traffic.Rung smu ⟨p, t.writes ++
      [⟨addr, data, t.port.regs, decide (t.port.faults < p.faults)⟩]⟩ := by
    intro hrung
    obtain ⟨w, hw, haddr⟩ := hrung
    rcases List.mem_append.mp hw with hw | hw
    · exact h.silent ⟨w, hw, haddr⟩
    · rw [List.mem_singleton.mp hw] at haddr
      exact hmsg haddr
  rcases hsmu with rfl | ⟨hrung, _⟩
  · refine ⟨hspec.isSmu.trans h.isSmu, hsilent, ?_⟩
    cases hspec with
    | failed _ herror _ => exact .inl herror
    | stored _ herror hfaults hregs =>
      rcases h.state with hup | ⟨hclean, hdone⟩
      · exact .inl (herror.trans hup)
      · refine .inr ⟨?_, ?_⟩
        · intro w hw
          rcases List.mem_append.mp hw with hw | hw
          · exact hclean w hw
          · rw [List.mem_singleton.mp hw]
            show decide (t.port.faults < p.faults) = false
            rw [hfaults, decide_eq_false (Nat.lt_irrefl _)]
        · intro w hw
          show p.regs w.1 = w.2
          rw [hregs]
          rcases List.mem_cons.mp hw with rfl | hw
          · exact Function.update_self ..
          · rw [Function.update_of_ne (hnew w hw)]
            exact hdone w hw
  · exact absurd hrung hsilent

theorem write_returns {t : Traffic} (hsmu : t.port.isSmu = smu.osAccess.isKmod)
    (addr data : Word) :
    ∃ r t', (trafficEnv smu args).next t (.smnRegWrite smu.osAccess addr data) r t' := by
  obtain ⟨p, hrun, _⟩ := smnRegWriteLinux_can_fail hsmu addr data
  exact ⟨(), _, _, ⟨p, hrun, rfl⟩, .inl rfl⟩

variable (args) in
/-- The setup writes, by induction on the list of them. -/
theorem wpEnds_writeAll {ws done : List (Word × Word)} (hmsg : ∀ w ∈ ws, w.1 ≠ smu.msg)
    (honce : ws.Pairwise fun a b => a.1 ≠ b.1) (hnew : ∀ w ∈ ws, ∀ d ∈ done, d.1 ≠ w.1)
    {t : Traffic} (h : SetUp smu done t) :
    (writeAll smu.osAccess ws).WpEnds (trafficEnv smu args) (Traffic.SetupFailed smu)
      (fun _ t' => SetUp smu (ws.reverse ++ done) t') t := by
  induction ws generalizing done t with
  | nil => exact h
  | cons w ws ih =>
    obtain ⟨addr, data⟩ := w
    obtain ⟨hfirst, honce⟩ := List.pairwise_cons.mp honce
    have haddr : addr ≠ smu.msg := hmsg _ List.mem_cons_self
    refine ⟨fun heq => absurd heq haddr, fun _ => write_returns h.isSmu addr data, ?_⟩
    intro _ t' hnext
    have hwritten := h.write haddr (hnew _ List.mem_cons_self) hnext
    have hnew' : ∀ w ∈ ws, ∀ d ∈ (addr, data) :: done, d.1 ≠ w.1 := by
      intro w hw d hd
      rcases List.mem_cons.mp hd with rfl | hd
      · exact hfirst w hw
      · exact hnew w (List.mem_cons_of_mem _ hw) d hd
    have hrest := ih (fun w hw => hmsg w (List.mem_cons_of_mem _ hw)) honce hnew' hwritten
    rw [List.reverse_cons, List.append_assoc]
    exact hrest

theorem not_setupFailed {t : Traffic} (hclean : ∀ w ∈ t.writes, w.failed = false) :
    ¬ t.SetupFailed smu := by
  intro hfailed
  obtain ⟨w, hw, _, hwf⟩ := hfailed
  rw [hclean w hw] at hwf
  cases hwf

/-- The doorbell itself is no setup write. -/
theorem not_setupFailed_ring {t t' : Traffic} (hclean : ∀ w ∈ t.writes, w.failed = false)
    {obj : OsAccessObj} {id : Word}
    (hring : (trafficEnv smu args).next t (.smnRegWrite obj smu.msg id) () t') :
    ¬ t'.SetupFailed smu := by
  intro hfailed
  obtain ⟨w, hw, hmsg, hwf⟩ := hfailed
  obtain ⟨t₁, ⟨p, _, rfl⟩, hsmu⟩ := hring
  have hmem : w ∈ t.writes ++
      [⟨smu.msg, id, t.port.regs, decide (t.port.faults < p.faults)⟩] := by
    rcases hsmu with rfl | ⟨_, regs, rfl⟩
    · exact hw
    · exact hw
  rcases List.mem_append.mp hmem with hw | hw
  · rw [hclean w hw] at hwf
    cases hwf
  · rw [List.mem_singleton.mp hw] at hmsg
    exact hmsg rfl

/-- The outcome of a failed setup write. -/
def Aborted (smu : Smu) (args : Args) (r : Word × Args) (t : Traffic) : Prop :=
  t.SetupFailed smu → r = (repMsgFailed, args) ∧ ¬ t.Rung smu

/-- Where no setup write failed, and none is to come, nothing is asked. -/
theorem wpEnds_of_keepsWrites {p : Prog mailbox (Word × Args)} {t : Traffic}
    (hok : ¬ t.SetupFailed smu) (hp : p.Wp (Env.only KeepsWrites) (fun _ _ => True) ()) :
    p.WpEnds (trafficEnv smu args) (Traffic.SetupFailed smu) (Aborted smu args) t := by
  have hkeep : ∀ (o : Mailbox.Op) (s : Traffic), KeepsWrites o → ¬ s.SetupFailed smu →
      (trafficEnv smu args).guard s o ∧
        ∀ r s', (trafficEnv smu args).next s o r s' → ¬ s'.SetupFailed smu := by
    intro o s ho hs
    refine ⟨?_, fun r s' hnext hfailed => hs ?_⟩
    · cases o with
      | smnRegWrite obj addr data => exact absurd rfl (ho obj addr data)
      | _ => trivial
    · obtain ⟨w, hw, hwf⟩ := hfailed
      exact ⟨w, writes_of_keepsWrites ho hnext ▸ hw, hwf⟩
  have hrun := Prog.wpEnds_of_only (I := fun s : Traffic => ¬ s.SetupFailed smu)
    (fun _ hs => hs) hkeep hok hp
  exact Prog.wpEnds_mono hrun fun _ _ hend hfailed => absurd hfailed hend.2

theorem keepsWrites_of_lockOp {o : Mailbox.Op} (h : LockOp o) : KeepsWrites o := by
  intro obj addr data heq
  rw [heq] at h
  exact h

theorem keepsWrites_of_unlockOp {o : Mailbox.Op} (h : UnlockOp o) : KeepsWrites o := by
  intro obj addr data heq
  rw [heq] at h
  exact h

theorem keepsWrites_of_pollOp {o : Mailbox.Op} (h : PollOp smu o) : KeepsWrites o := by
  intro obj addr data heq
  rw [heq] at h
  exact h

theorem keepsWrites_of_readBackOp {o : Mailbox.Op} (h : ReadBackOp smu o) : KeepsWrites o := by
  intro obj addr data heq
  rw [heq] at h
  exact h

theorem keepsWrites_unlockRet {α : Type} (a : α) :
    (smuUnlock.bind fun _ => .ret a).Wp (Env.only KeepsWrites) (fun _ _ => True) () :=
  Prog.wp_mono _ (Prog.wp_only_mono (fun _ => keepsWrites_of_unlockOp) (unlockOp_unlockRet a))
    fun _ _ _ => trivial

theorem keepsWrites_takeError : KeepsWrites .smnIoTakeError := fun _ _ _ h => nomatch h

theorem keepsWrites_answer (args : Args) :
    ((smuWaitForResponse smu).bind fun response =>
      if response = repMsgTimeout then
        (smnIoTakeError.bind fun _ => smuUnlock.bind fun _ => .ret (repMsgTimeout, args))
      else
        (smuReadBack smu).bind fun args => smnIoTakeError.bind fun readFailed =>
          smuUnlock.bind fun _ => .ret
            (if readFailed = true ∧ response = repMsgOK then repMsgFailed else response, args)).Wp
      (Env.only KeepsWrites) (fun _ _ => True) () := by
  have hpoll := Prog.wp_only_mono (fun _ => keepsWrites_of_pollOp) (pollOp_smuWaitForResponse smu)
  apply Prog.wp_seq _ hpoll
  intro response _ _
  apply Prog.wp_ite
  · exact fun _ => ⟨keepsWrites_takeError, fun _ _ _ => keepsWrites_unlockRet _⟩
  · intro _
    have hread := Prog.wp_only_mono (fun _ => keepsWrites_of_readBackOp)
      (readBackOp_smuReadBack smu)
    apply Prog.wp_seq _ hread
    intro args' _ _
    exact ⟨keepsWrites_takeError, fun _ _ _ => keepsWrites_unlockRet _⟩

/-- The way out after a failed setup write: no loop, and every call is answered. -/
theorem wpEnds_abort {t : Traffic} (hsilent : ¬ t.Rung smu) :
    (smuUnlock.bind fun _ => .ret (repMsgFailed, args)).WpEnds (trafficEnv smu args)
      (Traffic.SetupFailed smu) (Aborted smu args) t := by
  have hlockFd : KeepsWrites .smuLockFd := fun _ _ _ h => nomatch h
  have hflockUn : KeepsWrites .flockUn := fun _ _ _ h => nomatch h
  have hanswer : (trafficEnv smu args).next t .smuLockFd true t := ⟨t, rfl, .inl rfl⟩
  refine ⟨trivial, fun _ => ⟨true, t, hanswer⟩, fun fdOpen t₁ hnext => ?_⟩
  have heq : t₁ = t := move_of_not_rung hlockFd hsilent hnext
  subst heq
  cases fdOpen with
  | false => exact fun _ => ⟨rfl, hsilent⟩
  | true =>
    refine ⟨trivial, fun _ => ⟨(), t₁, t₁, rfl, .inl rfl⟩, fun _ t₂ hnext => ?_⟩
    rw [show t₂ = t₁ from move_of_not_rung hflockUn hsilent hnext]
    exact fun _ => ⟨rfl, hsilent⟩

theorem SetUp.takeError {done : List (Word × Word)} {t t' : Traffic} {r : Bool}
    (h : SetUp smu done t) (hnext : (trafficEnv smu args).next t .smnIoTakeError r t') :
    r = t.port.ioError ∧ t' = { t with port := { t.port with ioError := false } } :=
  move_of_not_rung keepsWrites_takeError h.silent hnext

theorem wpEnds_smuServiceReqRegisters (hsep : AddrsSeparate smu.msg smu.rep smu.argBase)
    (id : Word) {t : Traffic} (hsmu : t.port.isSmu = smu.osAccess.isKmod) (hnone : t.writes = []) :
    (smuServiceReqRegisters smu id args).WpEnds (trafficEnv smu args)
      (Traffic.SetupFailed smu) (Aborted smu args) t := by
  have hsilent : ¬ t.Rung smu := by
    intro h
    obtain ⟨w, hw, _⟩ := h
    rw [hnone] at hw
    cases hw
  have hanswer : (trafficEnv smu args).next t .smnIoTakeError t.port.ioError
      { t with port := { t.port with ioError := false } } := ⟨_, ⟨rfl, rfl⟩, .inl rfl⟩
  refine ⟨trivial, fun _ => ⟨_, _, hanswer⟩, fun stale t₁ hnext => ?_⟩
  obtain ⟨_, rfl⟩ := move_of_not_rung keepsWrites_takeError hsilent hnext
  have hstart : SetUp smu [] { t with port := { t.port with ioError := false } } := by
    refine ⟨hsmu, hsilent, .inr ⟨?_, fun w hw => absurd hw List.not_mem_nil⟩⟩
    intro w hw
    have hmem : w ∈ t.writes := hw
    rw [hnone] at hmem
    cases hmem
  simp only [Prog.ret_bind, Prog.bind_eq, Prog.pure_eq, smuWriteSetup_eq]
  have hsetup := wpEnds_writeAll args (fun _ hw => setupWrites_ne_msg args hsep hw)
    (setupWrites_pairwise args hsep) (fun _ _ _ hd => absurd hd List.not_mem_nil) hstart
  apply Prog.wpEnds_seq hsetup
  intro _ t₂ h₂
  have hanswer : (trafficEnv smu args).next t₂ .smnIoTakeError t₂.port.ioError
      { t₂ with port := { t₂.port with ioError := false } } := ⟨_, ⟨rfl, rfl⟩, .inl rfl⟩
  refine ⟨trivial, fun _ => ⟨_, _, hanswer⟩, fun setupFailed t₃ hnext => ?_⟩
  obtain ⟨rfl, rfl⟩ := h₂.takeError hnext
  refine Prog.wpEnds_ite (fun _ => wpEnds_abort h₂.silent) fun hok => ?_
  rcases h₂.state with hup | ⟨hclean, hdone⟩
  · exact absurd hup hok
  have hready : Ready smu args t₂.port.regs := by
    refine ⟨hdone (smu.rep, 0) ?_, fun i => hdone (argAddr smu.argBase i, args.get i) ?_⟩
    · exact List.mem_append_left _ (List.mem_reverse.mpr List.mem_cons_self)
    · have hmem := List.mem_map_of_mem (f := fun i => (argAddr smu.argBase i, args.get i))
        (List.mem_finRange i)
      exact List.mem_append_left _ (List.mem_reverse.mpr (List.mem_cons_of_mem _ hmem))
  refine ⟨fun _ => hready, fun hfailed => absurd hfailed (not_setupFailed hclean), ?_⟩
  intro _ t₄ hring
  have hok := not_setupFailed_ring
    (t := { t₂ with port := { t₂.port with ioError := false } }) hclean hring
  exact wpEnds_of_keepsWrites hok (keepsWrites_answer args)

theorem smuRawCmdLinux_port {obj : OsAccessObj} {p : SmnPort} (hflag : p.isSmu = obj.isKmod)
    (msg rep argBase id : Word) :
    (smuRawCmdLinux obj msg rep argBase id args).Wp (portEnv obj)
      (fun _ p' => p'.isSmu = obj.isKmod) p := by
  refine ⟨fun h => (nomatch h), fun isSmu p₁ hnext => ?_⟩
  obtain ⟨rfl, rfl⟩ := hnext
  cases obj with
  | kmod o =>
    rw [hflag]
    exact Prog.wp_mono _ (wp_isSmu_port (backendOp_smuRawCmdKmod o msg rep argBase id args))
      fun _ _ hsame => hsame.trans hflag
  | mem o =>
    rw [hflag]
    exact hflag

variable (args) in
theorem wpEnds_smuServiceReq (hsep : AddrsSeparate smu.msg smu.rep smu.argBase) (id : Word)
    {port : SmnPort} (hsmu : port.isSmu = smu.osAccess.isKmod) :
    (smuServiceReq smu id args).WpEnds (trafficEnv smu args) (Traffic.SetupFailed smu)
      (Aborted smu args) ⟨port, []⟩ := by
  have hnone : ∀ t : Traffic, t.port.isSmu = smu.osAccess.isKmod ∧ t.writes = [] →
      ¬ t.SetupFailed smu := by
    intro t ht
    refine not_setupFailed fun w hw => ?_
    rw [ht.2] at hw
    cases hw
  have hlock : ∀ (o : Mailbox.Op) (t : Traffic), LockOp o →
      t.port.isSmu = smu.osAccess.isKmod ∧ t.writes = [] →
      (trafficEnv smu args).guard t o ∧ ∀ r t', (trafficEnv smu args).next t o r t' →
        t'.port.isSmu = smu.osAccess.isKmod ∧ t'.writes = [] := by
    intro o t ho ht
    have hsilent : ¬ t.Rung smu := by
      intro hrung
      obtain ⟨w, hw, _⟩ := hrung
      rw [ht.2] at hw
      cases hw
    have hkeeps := keepsWrites_of_lockOp ho
    refine ⟨?_, fun r t' hnext => ?_⟩
    · cases o with
      | smnRegWrite _ _ _ => cases ho
      | _ => trivial
    · have hmove := move_of_not_rung hkeeps hsilent hnext
      have heq : t' = t := by
        cases o with
        | smnRegRead _ _ => cases ho
        | smnRegWrite _ _ _ => cases ho
        | smuRawCmd _ _ _ _ _ _ => cases ho
        | smnIoTakeError => cases ho
        | _ => exact hmove
      rw [heq]
      exact ht
  have hlocked := Prog.wpEnds_of_only (s := ⟨port, []⟩) hnone hlock ⟨hsmu, rfl⟩ lockOp_smuLock
  apply Prog.wpEnds_seq hlocked
  intro locked t ht
  obtain ⟨_, hsmu, hwrites⟩ := ht
  have hok := hnone t ⟨hsmu, hwrites⟩
  refine Prog.wpEnds_ite (fun _ hfailed => absurd hfailed hok) fun _ => ?_
  refine ⟨trivial, fun hfailed => absurd hfailed hok, fun r t₁ hnext => ?_⟩
  obtain ⟨t₂, ⟨p, hrun, rfl⟩, hmoved⟩ := hnext
  have hport := Prog.wp_result _ hrun (smuRawCmdLinux_port hsmu _ _ _ _)
  have h₁ : t₁.port.isSmu = smu.osAccess.isKmod ∧ t₁.writes = [] := by
    rcases hmoved with rfl | ⟨_, regs, rfl⟩
    · exact ⟨hport, hwrites⟩
    · exact ⟨hport, hwrites⟩
  cases r with
  | some r => exact wpEnds_of_keepsWrites (hnone t₁ h₁) (keepsWrites_unlockRet r)
  | none => exact wpEnds_smuServiceReqRegisters hsep id h₁.1 h₁.2

end

section
variable {smu : Smu} {args : Args}

theorem ready_of_recorded {t t' : Traffic} {o : Mailbox.Op} {r : Mailbox.Ret o}
    (hguard : (trafficEnv smu args).guard t o) (hnext : (trafficEnv smu args).next t o r t')
    (h : ∀ w ∈ t.writes, w.addr = smu.msg → Ready smu args w.before) :
    ∀ w ∈ t'.writes, w.addr = smu.msg → Ready smu args w.before := by
  by_cases ho : KeepsWrites o
  · rw [writes_of_keepsWrites ho hnext]
    exact h
  · simp only [KeepsWrites, not_forall, not_not] at ho
    obtain ⟨obj, addr, data, rfl⟩ := ho
    obtain ⟨t₁, ⟨p, _, rfl⟩, hsmu⟩ := hnext
    intro w hw hmsg
    have hmem : w ∈ t.writes ++ [⟨addr, data, t.port.regs, decide (t.port.faults < p.faults)⟩] := by
      rcases hsmu with rfl | ⟨_, regs, rfl⟩
      · exact hw
      · exact hw
    rcases List.mem_append.mp hmem with hw | hw
    · exact h w hw hmsg
    · rw [List.mem_singleton.mp hw] at hmsg ⊢
      exact hguard hmsg

end

/-- Wherever a request has got to, the message register was only written on a complete
setup; and once a setup write has failed the request must end, without the message
register written, in `REP_MSG_Failed` with the caller's arguments. -/
theorem message_behind_setup {obj : OsAccessObj} {smuType : SmuType} {family : RyzenFamily}
    {smu : Smu} (hsmu : smuOf obj smuType family = some smu) {port : SmnPort}
    (hflag : port.isSmu = obj.isKmod) (id : Word) (args : Args)
    {q : Prog mailbox (Word × Args)} {t : Traffic}
    (hst : Prog.Steps (trafficEnv smu args) (smuServiceReq smu id args, ⟨port, []⟩) (q, t)) :
    (∀ w ∈ t.writes, w.addr = smu.msg → Ready smu args w.before) ∧
      (t.SetupFailed smu → Prog.Ends (trafficEnv smu args)
        (fun r t' => r = (repMsgFailed, args) ∧ ¬ t'.Rung smu) (q, t)) := by
  rw [← smuOf_osAccess hsmu] at hflag
  have hreq := wpEnds_smuServiceReq args (smuOf_separate hsmu) id hflag
  refine ⟨?_, fun hfailed => ?_⟩
  · exact Prog.wp_always _ (fun _ _ _ _ => ready_of_recorded)
      (fun w hw => absurd hw List.not_mem_nil) (Prog.wp_of_wpEnds hreq) hst
  · have hends := Prog.ends_of_wpEnds (fun _ _ _ _ hfailed _ => setupFailed_stays hfailed) hfailed
      (Prog.wpEnds_steps hst hreq)
    exact hends.mono fun r t' hend => hend.1 hend.2

/-- `/dev/mem` access with the error flag left up and stale words in all registers. -/
def stalePort : SmnPort := ⟨false, true, fun _ => 0x7, 0, [], 0⟩

def clearedPort : SmnPort := { stalePort with ioError := false }

/-- The clearing of the response register fails in its first PCI write. -/
theorem message_behind_setup_stale :
    ∃ q t, Prog.Steps (trafficEnv ravenMp1 Args.zero)
        (smuServiceReq ravenMp1 0x2 Args.zero, ⟨stalePort, []⟩) (q, t) ∧
      t.SetupFailed ravenMp1 ∧ Prog.Ends (trafficEnv ravenMp1 Args.zero)
        (fun r t' => r = (repMsgFailed, Args.zero) ∧ ¬ t'.Rung ravenMp1) (q, t) := by
  have hquiet : ∀ {o : Mailbox.Op} {r : Mailbox.Ret o} {t t' : Traffic}, trafficMove t o r t' →
      (trafficEnv ravenMp1 Args.zero).next t o r t' := fun h => ⟨_, h, .inl rfl⟩
  have hasked : (portEnv ravenMp1.osAccess).next stalePort .isSmu false stalePort := ⟨rfl, rfl⟩
  have hnoDriver : Prog.Steps (portEnv ravenMp1.osAccess)
      (smuRawCmdLinux ravenMp1.osAccess ravenMp1.msg ravenMp1.rep ravenMp1.argBase 0x2 Args.zero,
        stalePort)
      (.ret none, stalePort) := .single (Prog.Step.call hasked)
  have hfits : clearedPort.isSmu = ravenMp1.osAccess.isKmod := rfl
  obtain ⟨p, hwrite, hfault⟩ := smnRegWriteLinux_can_fail hfits ravenMp1.rep 0x0
  have hlock : (trafficEnv ravenMp1 Args.zero).next ⟨stalePort, []⟩ .flockEx .acquired
      ⟨stalePort, []⟩ := hquiet rfl
  have hfd : (trafficEnv ravenMp1 Args.zero).next ⟨stalePort, []⟩ .smuLockFd true
      ⟨stalePort, []⟩ := hquiet rfl
  have hclock : (trafficEnv ravenMp1 Args.zero).next ⟨stalePort, []⟩ .monotonicMs (0 : Nat)
      ⟨stalePort, []⟩ := hquiet rfl
  have hraw : (trafficEnv ravenMp1 Args.zero).next ⟨stalePort, []⟩
      (.smuRawCmd ravenMp1.osAccess ravenMp1.msg ravenMp1.rep ravenMp1.argBase 0x2 Args.zero) none
      ⟨stalePort, []⟩ := hquiet ⟨_, hnoDriver, rfl⟩
  have htake : (trafficEnv ravenMp1 Args.zero).next ⟨stalePort, []⟩ .smnIoTakeError true
      ⟨clearedPort, []⟩ := hquiet ⟨rfl, rfl⟩
  have hclear : (trafficEnv ravenMp1 Args.zero).next ⟨clearedPort, []⟩
      (.smnRegWrite ravenMp1.osAccess ravenMp1.rep 0x0) ()
      ⟨p, [⟨ravenMp1.rep, 0x0, clearedPort.regs,
        decide (clearedPort.faults < p.faults)⟩]⟩ := hquiet ⟨_, hwrite, rfl⟩
  have hst : ∃ q, Prog.Steps (trafficEnv ravenMp1 Args.zero)
      (smuServiceReq ravenMp1 0x2 Args.zero, ⟨stalePort, []⟩) (q, ⟨p, [⟨ravenMp1.rep, 0x0,
        clearedPort.regs, decide (clearedPort.faults < p.faults)⟩]⟩) := by
    apply Exists.intro
    refine .head (Prog.Step.call hfd) ?_
    refine .head (Prog.Step.call hclock) ?_
    refine .head Prog.Step.loop ?_
    refine .head (Prog.Step.call hlock) ?_
    refine .head (Prog.Step.call hraw) ?_
    refine .head (Prog.Step.call htake) ?_
    exact .single (Prog.Step.call hclear)
  obtain ⟨q, hst⟩ := hst
  have hsep : ravenMp1.msg ≠ ravenMp1.rep := by decide
  have hfailed : Traffic.SetupFailed ravenMp1 ⟨p, [⟨ravenMp1.rep, 0x0, clearedPort.regs,
      decide (clearedPort.faults < p.faults)⟩]⟩ :=
    ⟨_, List.mem_singleton_self _, hsep.symm, decide_eq_true hfault⟩
  have hsmu : smuOf (.mem ⟨0, 0⟩) .mp1 .raven = some ravenMp1 := rfl
  exact ⟨q, _, hst, hfailed, (message_behind_setup hsmu rfl 0x2 Args.zero hst).2 hfailed⟩

end RyzenAdj
