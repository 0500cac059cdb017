import RyzenAdj.Linux.Carried
import RyzenAdj.Windows.Process

/-!
# The calls of the library on Windows

How the backend carries out the calls of `nb_smu_ops.c` and of `api.c`, on what
the process has at that moment. A turn with the mailbox is one without a lock.
-/

namespace RyzenAdj
open Interaction Windows

theorem Possession.cached {exports : String → Bool} {p : WinStatics} {s : WinState} {l : Lifetime}
    (h : Possession exports p s l) (f : Option RyzenFamily) :
    Possession exports { p with cpuidFamily := f } s l := by
  cases h with
  | notYet hnone hunmap hmade hobjs hmapped hloads =>
    exact .notYet hnone hunmap hmade hobjs hmapped hloads
  | live obj hols hobjs hwindow =>
    exact .live obj hols hobjs
      ⟨hwindow.object, hwindow.loaded, hwindow.unmap, hwindow.shown, hwindow.hidden⟩
  | ended hnone hreleased => exact .ended hnone hreleased

theorem Possession.ticked {exports : String → Bool} {p : WinStatics} {s : WinState} {l : Lifetime}
    (h : Possession exports p s l) (clock : Clock) :
    Possession exports p { s with clock := clock } l := by
  cases h with
  | notYet hnone hunmap hmade hobjs hmapped hloads =>
    exact .notYet hnone hunmap hmade hobjs hmapped hloads
  | live obj hols hobjs hwindow =>
    exact .live obj hols hobjs
      ⟨hwindow.object, hwindow.loaded, hwindow.unmap, hwindow.shown, hwindow.hidden⟩
  | ended hnone hreleased => exact .ended hnone ⟨hreleased.objs, hreleased.mapped, hreleased.ols⟩

theorem Possession.of_live {exports : String → Bool} {p : WinStatics} {s : WinState}
    {obj : OsAccessObj} (h : Possession exports p s (.live obj)) :
    obj = objPtr (objOf obj) ∧ s.ols = true ∧ Kept exports p p (objOf obj) s := by
  cases h with
  | live n hols hobjs hwindow => exact ⟨rfl, hols, rfl, hols, hobjs, hwindow⟩

theorem Possession.shown {exports : String → Bool} {p : WinStatics} {s : WinState} {l : Lifetime}
    (h : Possession exports p s l) {linAddr : Nat} (hlin : p.pdwLinAddr = some linAddr) :
    ⟨p.physicalMemoryHandle, linAddr, p.phyMapLen⟩ ∈ s.mapped := by
  cases h with
  | notYet hnone _ _ _ _ _ =>
    rw [hnone] at hlin
    cases hlin
  | live obj _ _ hwindow => exact hwindow.shown linAddr hlin
  | ended hnone _ =>
    rw [hnone] at hlin
    cases hlin

section Calls
variable {exports : String → Bool} {cpu : Word → CpuInfo} {p : WinStatics} {s : WinState}

theorem winCall_keeps {o : Windows.Op} (hallow : s.Allows o)
    (hsame : ∀ r s', WinState.Move exports cpu s o r s' → s' = s) :
    (Windows.call o).WpTotal (winEnv exports cpu) (fun _ s' => s' = s) s :=
  ⟨hallow, hsame⟩

theorem smnRegRead_windows (hols : s.ols = true) {obj : Nat} (hobj : obj ∈ s.objs) (addr : Word) :
    (Windows.smnRegRead p obj addr).WpTotal (winEnv exports cpu) (fun _ s' => s' = s) s := by
  refine ⟨hobj, fun _ s₁ hnext => ?_⟩
  rw [show s₁ = s from hnext]
  refine ⟨hols, fun _ s₂ hnext => ?_⟩
  rw [show s₂ = s from hnext]
  refine ⟨hobj, fun _ s₃ hnext => ?_⟩
  rw [show s₃ = s from hnext]
  exact winCall_keeps hols fun _ _ h => h

theorem smnRegWrite_windows (hols : s.ols = true) {obj : Nat} (hobj : obj ∈ s.objs)
    (addr data : Word) :
    (Windows.smnRegWrite p obj addr data).WpTotal (winEnv exports cpu) (fun _ s' => s' = s) s := by
  refine ⟨hobj, fun _ s₁ hnext => ?_⟩
  rw [show s₁ = s from hnext]
  refine ⟨hols, fun _ s₂ hnext => ?_⟩
  rw [show s₂ = s from hnext]
  refine ⟨hobj, fun _ s₃ hnext => ?_⟩
  rw [show s₃ = s from hnext]
  exact winCall_keeps hols fun _ _ h => h

theorem copyPmTable_windows {l : Lifetime} (h : Possession exports p s l) (size : Nat) :
    (Windows.copyPmTable p size).WpTotal (winEnv exports cpu) (fun _ s' => s' = s) s := by
  unfold Windows.copyPmTable
  cases hlin : p.pdwLinAddr with
  | none => exact rfl
  | some linAddr =>
    refine Prog.wpTotal_ite (fun _ => rfl) fun hfits => ?_
    exact ⟨⟨_, h.shown hlin, rfl, Nat.not_lt.mp hfits⟩, fun _ _ hnext => hnext⟩

theorem comparePmTable_windows {l : Lifetime} (h : Possession exports p s l) (buffer : List Byte) :
    (Windows.comparePmTable p buffer).WpTotal (winEnv exports cpu) (fun _ s' => s' = s) s := by
  unfold Windows.comparePmTable
  cases hlin : p.pdwLinAddr with
  | none => exact rfl
  | some linAddr =>
    refine Prog.wpTotal_ite (fun _ => rfl) fun hfits => ?_
    exact ⟨⟨_, h.shown hlin, rfl, Nat.not_lt.mp hfits⟩, fun _ _ hnext => hnext⟩

end Calls

section Library
variable {exports : String → Bool} {cpu : Word → CpuInfo} {b : Backend} {p : WinStatics}
  {s : WinState}

/-- A turn with the mailbox: never a lock file, and the clock as the code has seen it. -/
structure WinServing (exports : String → Bool) (family : RyzenFamily) (b : Backend)
    (x : Turn × Clock) (p : WinStatics) (s : WinState) : Prop where
  standing : WinStanding exports family b p s
  fdOpen : x.1.fdOpen = false
  clock : x.2 = s.clock

theorem winServing_kept {family : RyzenFamily} {obj : OsAccessObj} {x : Turn × Clock}
    {o : Mailbox.Op} (h : WinServing exports family b x p s) {m : Prog windows (Mailbox.Ret o)}
    (hm : m.WpTotal (winEnv exports cpu) (fun _ s' => s' = s) s)
    (hnext : ∀ r, ((turnEnv family obj).both clockEnv).next x o r x) :
    (m.bind fun r => Prog.ret (r, p)).WpTotal (winEnv exports cpu)
      (fun y s' => ∃ x', ((turnEnv family obj).both clockEnv).next x o y.1 x' ∧
        WinServing exports family b x' y.2 s') s := by
  apply Prog.wpTotal_seq hm
  intro r s' hs'
  subst hs'
  exact ⟨x, hnext r, h⟩

theorem WinStanding.cached {family : RyzenFamily} (h : WinStanding exports family b p s) :
    WinStanding exports family b { p with cpuidFamily := some family } s :=
  ⟨h.flag, (fun _ hf => (Option.some.inj hf).symm), h.possession.cached _⟩

theorem mailboxImpl_windows {obj : OsAccessObj} (hlive : b.access = .live obj) :
    Windows.mailboxImpl.MeetsTotal ((turnEnv (loadedFamily cpu) obj).both clockEnv)
      (winEnv exports cpu) (WinServing exports (loadedFamily cpu) b) := by
  intro x p s o hserving hguard
  obtain ⟨v, c⟩ := x
  have hturn : TurnCall obj v o := hguard.1
  have hclosed : v.fdOpen = false := hserving.fdOpen
  have hpossession := hserving.standing.possession
  rw [hlive] at hpossession
  obtain ⟨-, hols, hkept⟩ := hpossession.of_live
  -- a register is reached through the object that is live
  have hown : ∀ obj', obj' = obj → objOf obj' ∈ s.objs := by
    intro obj' heq
    rw [heq, hkept.objs]
    rfl
  cases o with
  | smuLockFd => exact ⟨(v, c), ⟨⟨hclosed.symm, rfl⟩, rfl⟩, hserving⟩
  | openSmuLock =>
    exact ⟨(⟨false, .unlocked⟩, c), ⟨rfl, rfl⟩, hserving.standing, rfl, hserving.clock⟩
  | flockEx =>
    obtain ⟨hopen, -⟩ := hturn.locks rfl
    rw [hclosed] at hopen
    cases hopen
  | flockUn =>
    have hopen := hturn.unlocks rfl
    rw [hclosed] at hopen
    cases hopen
  | monotonicMs =>
    refine ⟨trivial, fun now s' hnext => ?_⟩
    obtain ⟨clock, htick, rfl⟩ := hnext
    have hc : c = s.clock := hserving.clock
    refine ⟨(v, clock), ⟨rfl, ?_⟩, ?_, hclosed, rfl⟩
    · rw [hc]
      exact htick
    · have hstanding := hserving.standing
      exact ⟨hstanding.flag, hstanding.family, hstanding.possession.ticked clock⟩
  | cpuidGetFamily =>
    apply Prog.wpTotal_mono (cpuidGetFamily_windows hserving.standing.family)
    intro r s' hr
    obtain ⟨hfamily, hp, rfl⟩ := hr
    refine ⟨(v, c), ⟨⟨hfamily, rfl⟩, rfl⟩, ?_, hclosed, hserving.clock⟩
    rw [hp]
    exact hserving.standing.cached
  | usleep =>
    exact winServing_kept (o := .usleep) hserving
      (winCall_keeps (o := .sleep 1) trivial fun _ _ h => h) fun _ => ⟨rfl, rfl⟩
  | shortSleep =>
    exact winServing_kept (o := .shortSleep) hserving
      (winCall_keeps (o := .sleep 1) trivial fun _ _ h => h) fun _ => ⟨rfl, rfl⟩
  | malloc =>
    exact winServing_kept (o := .malloc) hserving
      (winCall_keeps (o := .malloc) trivial fun _ _ h => h) fun _ => ⟨rfl, rfl⟩
  | smnRegRead obj' addr =>
    exact winServing_kept (o := .smnRegRead obj' addr) hserving
      (smnRegRead_windows hols (hown obj' (hturn.object obj' rfl)) addr) fun _ => ⟨rfl, rfl⟩
  | smnRegWrite obj' addr data =>
    exact winServing_kept (o := .smnRegWrite obj' addr data) hserving
      (smnRegWrite_windows hols (hown obj' (hturn.object obj' rfl)) addr data) fun _ => ⟨rfl, rfl⟩
  | smnIoTakeError => exact ⟨(v, c), ⟨rfl, rfl⟩, hserving⟩
  | smuRawCmd obj' msg rep argBase id args => exact ⟨(v, c), ⟨rfl, rfl⟩, hserving⟩

theorem mailbox_windows {α : Type} {obj : OsAccessObj} {q : Prog mailbox α} {R : α → Prop}
    (h : WinStanding exports (loadedFamily cpu) b p s) (hlive : b.access = .live obj)
    (hq : ∀ v : Turn, v.Idle →
      q.Wp (turnEnv (loadedFamily cpu) obj) (fun a _ => R a) v)
    (htime : Timely q) :
    (q.link Windows.mailboxImpl p).WpTotal (winEnv exports cpu)
      (fun x s' => R x.1 ∧ WinStanding exports (loadedFamily cpu) b x.2 s') s := by
  have hidle : Turn.Idle ⟨false, .unlocked⟩ := .inr ⟨rfl, rfl⟩
  have hboth := Prog.wpTotal_both (hq _ hidle) (htime s.clock)
  have hlink := Prog.wpTotal_link (mailboxImpl_windows hlive) (r := p) (t := s) ⟨h, rfl, rfl⟩ hboth
  apply Prog.wpTotal_mono hlink
  intro x s' hx
  obtain ⟨y, ⟨hR, -⟩, hserving⟩ := hx
  exact ⟨hR, hserving.standing⟩

theorem winStanding_kept {family : RyzenFamily} {o : Api.Op}
    (h : WinStanding exports family b p s) {m : Prog windows (Api.Ret o)}
    (hm : m.WpTotal (winEnv exports cpu) (fun _ s' => s' = s) s)
    (hnext : ∀ r, backendMove family b o r b) :
    (m.bind fun r => Prog.ret (r, p)).WpTotal (winEnv exports cpu)
      (fun x s' => ∃ b', backendMove family b o x.1 b' ∧ WinStanding exports family b' x.2 s')
      s := by
  apply Prog.wpTotal_seq hm
  intro r s' hs'
  subst hs'
  exact ⟨b, hnext r, h⟩

theorem apiImpl_windows (hexport : exports "IsInpOutDriverOpen" = true) :
    Windows.apiImpl.MeetsTotal (backendEnv (loadedFamily cpu)) (winEnv exports cpu)
      (WinStanding exports (loadedFamily cpu)) := by
  intro b p s o hstanding hguard
  have hcall : BackendCall b o := hguard
  have hlive : ∀ obj, o.accessObj = some obj → b.access = .live obj := hcall.live
  cases o with
  | smuServiceReq smu id args =>
    have hserved := mailbox_windows (R := fun _ : Word × Args => True) hstanding (hlive _ rfl)
      (fun v hv => Prog.wp_mono _ (smuServiceReq_turn rfl id args hv) fun _ _ _ => trivial)
      (smuServiceReq_timely smu id args)
    apply Prog.wpTotal_mono hserved
    intro x s' hx
    exact ⟨b, rfl, hx.2⟩
  | getSmu obj smuType =>
    have hserved := mailbox_windows (R := fun r => ∀ smu, r = some smu →
        smuOf obj smuType (loadedFamily cpu) = some smu) hstanding (hlive _ rfl)
      (fun v hv => Prog.wp_mono _ (getSmu_turn smuType hv) fun _ _ h => h.1)
      (getSmu_timely obj smuType)
    apply Prog.wpTotal_mono hserved
    intro x s' hx
    exact ⟨b, ⟨hx.1, rfl⟩, hx.2⟩
  | cpuidGetFamily =>
    apply Prog.wpTotal_mono (cpuidGetFamily_windows hstanding.family)
    intro r s' hr
    obtain ⟨hfamily, hp, rfl⟩ := hr
    refine ⟨b, ⟨hfamily, rfl⟩, ?_⟩
    rw [hp]
    exact hstanding.cached
  | initOsAccessObj =>
    have hpossession := hstanding.possession
    rw [hcall.once rfl] at hpossession
    apply Prog.wpTotal_mono (initOsAccessObj_windows hpossession)
    intro r s' hr
    obtain ⟨hfamily, hkind, hpossession'⟩ := hr
    refine ⟨_, ⟨false, hkind, rfl⟩, ?_, ?_, hpossession'⟩
    · rw [Bool.or_false]
      exact hstanding.flag
    · rw [hfamily]
      exact hstanding.family
  | freeOsAccessObj obj =>
    have hpossession := hstanding.possession
    rw [hlive obj rfl] at hpossession
    obtain ⟨-, hols, hkept⟩ := hpossession.of_live
    apply Prog.wpTotal_seq (freeOsAccessObj_windows hols hkept.objs hkept.window)
    intro p' s' hfree
    obtain ⟨hfamily, hended⟩ := hfree
    refine ⟨_, rfl, rfl, ?_, hended⟩
    rw [hfamily]
    exact hstanding.family
  | isUsingSmuDriver => exact ⟨b, ⟨hstanding.flag.symm, rfl⟩, hstanding⟩
  | initMemObj obj physAddr size =>
    have hpossession := hstanding.possession
    rw [hlive obj rfl] at hpossession
    obtain ⟨hobj, -, hkept⟩ := hpossession.of_live
    apply Prog.wpTotal_mono (initMemObj_windows hexport hkept physAddr size)
    intro r s' hr
    refine ⟨b, rfl, hstanding.flag, ?_, ?_⟩
    · rw [hr.family]
      exact hstanding.family
    · rw [hlive obj rfl, hobj]
      exact .live (objOf obj) hr.ols hr.objs hr.window
  | copyPmTable obj size =>
    exact winStanding_kept (o := .copyPmTable obj size) hstanding
      (copyPmTable_windows hstanding.possession size) fun _ => rfl
  | comparePmTable buffer =>
    exact winStanding_kept (o := .comparePmTable buffer) hstanding
      (comparePmTable_windows hstanding.possession buffer) fun _ => rfl
  | malloc =>
    exact winStanding_kept (o := .malloc) hstanding
      (winCall_keeps (o := .malloc) trivial fun _ _ h => h) fun _ => rfl
  | calloc nmemb =>
    exact winStanding_kept (o := .calloc nmemb) hstanding
      (winCall_keeps (o := .calloc nmemb) trivial fun _ _ h => h) fun _ => rfl
  | sleep ms =>
    exact winStanding_kept (o := .sleep ms) hstanding
      (winCall_keeps (o := .sleep ms) trivial fun _ _ h => h) fun _ => rfl
  | undefined => exact absurd rfl hcall.defined

end Library
end RyzenAdj
