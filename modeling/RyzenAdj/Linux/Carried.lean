import RyzenAdj.Linux.Turn

/-!
# The calls of the library carried out

Every call of `nb_smu_ops.c` and of `api.c` as the system calls it is made of:
none asks of the kernel what the process does not have, and the next call finds
what it needs.
-/

namespace RyzenAdj
open Interaction

section Family
variable {cpu : Word → CpuInfo} {b : Backend} {p : Statics} {k : Kernel}

theorem processorImpl_meets (cpu : Word → CpuInfo) (k : Kernel) :
    Host.processorImpl.Meets (processorEnv cpu) (kernelEnv cpu) (fun _ _ k' => k' = k) := by
  intro _ _ k' o hk' _
  subst hk'
  cases o with
  | getcpuid infoType =>
    refine ⟨trivial, fun regs k₁ hnext => ?_⟩
    obtain ⟨hregs, hk₁⟩ := hnext
    exact ⟨(), hregs, hk₁⟩
  | printf m => exact ⟨trivial, fun _ k₁ hnext => ⟨(), trivial, hnext⟩⟩

theorem cpuidGetFamily_owned (h : Owned (loadedFamily cpu) b p k) :
    (Host.cpuidGetFamily p).Wp (kernelEnv cpu) (fun r k' => r.1 = loadedFamily cpu ∧ k' = k ∧
      r.2.smuLockFd = p.smuLockFd ∧ Owned (loadedFamily cpu) b r.2 k') k := by
  have hload := cpuidGetFamily_loads h.family
  have hlink := Prog.wp_link (processorImpl_meets cpu k) (r := ()) rfl hload
  apply Prog.wp_seq _ hlink
  intro r k' hr
  obtain ⟨⟨f, cache⟩, _⟩ := r
  obtain ⟨_, ⟨hf, hcache⟩, hk'⟩ := hr
  subst hk'
  have hcache' : cache = some (loadedFamily cpu) := hcache
  refine ⟨hf, rfl, rfl, h.flag, h.files, h.unique, h.smn, h.streams, h.pciAccs, h.pciDevs,
    h.mappings, h.unmapped, fun g hg => ?_⟩
  have hg' : cache = some g := hg
  rw [hcache'] at hg'
  exact (Option.some.inj hg').symm

end Family

section Registers
variable {cpu : Word → CpuInfo} {family : RyzenFamily} {b : Backend} {p : Statics} {k : Kernel}
  {obj : OsAccessObj} (h : Owned family b p k) (hlive : b.access = .live obj)
  (hflag : b.isSmu = obj.isKmod)
include h hlive

theorem smn_usable {o : KmodObj} (hobj : obj = .kmod o) (hlock : k.lock ≠ .free) :
    k.Usable o.smnFd := by
  subst hobj
  refine ⟨smnPath, ?_, fun _ => hlock⟩
  rw [h.files, hlive]
  exact .inr (.inl (.inl ⟨h.smn o hlive, rfl⟩))

theorem rawCmd_usable {o : KmodObj} (hobj : obj = .kmod o) (hlock : k.lock ≠ .free) :
    0 ≤ o.rawCmdFd → k.Usable o.rawCmdFd := by
  subst hobj
  intro hfd
  refine ⟨smuRawCmdPath, ?_, fun _ => hlock⟩
  rw [h.files, hlive]
  exact .inr (.inr ⟨hfd, rfl⟩)

theorem pciDev_there {o : MemObj} (hobj : obj = .mem o) : k.HasDev o.pciDev := by
  subst hobj
  refine ⟨o.pciAcc, ?_⟩
  rw [h.pciDevs, hlive]
  rfl

include hflag

/-- A dispatcher finds the flag that fits, and the member of the union that was stored. -/
theorem smnRegReadLinux_keeps (hlock : k.lock ≠ .free) (addr : Word) :
    (smnRegReadLinux obj addr).Wp (sysEnv cpu) (fun _ k' => k' = k) k := by
  refine ⟨trivial, fun (isSmu : Bool) k₁ hnext => ?_⟩
  obtain ⟨hisSmu, rfl⟩ := hnext
  rw [h.flag, hflag] at hisSmu
  rw [hisSmu]
  cases obj with
  | kmod o => exact smnRegReadKmod_keeps (smn_usable h hlive rfl hlock) addr
  | mem o => exact smnRegReadMem_keeps (pciDev_there h hlive rfl) hlock addr

theorem smnRegWriteLinux_keeps (hlock : k.lock ≠ .free) (addr data : Word) :
    (smnRegWriteLinux obj addr data).Wp (sysEnv cpu) (fun _ k' => k' = k) k := by
  refine ⟨trivial, fun (isSmu : Bool) k₁ hnext => ?_⟩
  obtain ⟨hisSmu, rfl⟩ := hnext
  rw [h.flag, hflag] at hisSmu
  rw [hisSmu]
  cases obj with
  | kmod o => exact smnRegWriteKmod_keeps (smn_usable h hlive rfl hlock) addr data
  | mem o => exact smnRegWriteMem_keeps (pciDev_there h hlive rfl) hlock addr data

theorem smuRawCmdLinux_keeps (hlock : k.lock ≠ .free) (msg rep argBase id : Word) (args : Args) :
    (smuRawCmdLinux obj msg rep argBase id args).Wp (sysEnv cpu) (fun _ k' => k' = k) k := by
  refine ⟨trivial, fun (isSmu : Bool) k₁ hnext => ?_⟩
  obtain ⟨hisSmu, rfl⟩ := hnext
  rw [h.flag, hflag] at hisSmu
  rw [hisSmu]
  cases obj with
  | kmod o => exact smuRawCmdKmod_keeps (rawCmd_usable h hlive rfl hlock) msg rep argBase id args
  | mem o => exact rfl

end Registers

section Mailbox
variable {cpu : Word → CpuInfo} {b : Backend} {obj : OsAccessObj}

/-- The mailbox code's view of the lock, with what the process has. -/
structure Serving (family : RyzenFamily) (b : Backend) (v : Turn) (p : Statics) (k : Kernel) :
    Prop where
  owned : Owned family b p k
  fdOpen : v.fdOpen = decide (0 ≤ p.smuLockFd)
  use : v.use = k.lock

theorem serving_kept {family : RyzenFamily} {v : Turn} {p : Statics} {k : Kernel} {o : Mailbox.Op}
    (h : Serving family b v p k) {m : Prog linux (Mailbox.Ret o)}
    (hm : m.Wp (kernelEnv cpu) (fun _ k' => k' = k) k)
    (hnext : ∀ r, turnMove family v o r v) :
    (m.bind fun r => Prog.ret (r, p)).Wp (kernelEnv cpu)
      (fun x k' => ∃ v', turnMove family v o x.1 v' ∧ Serving family b v' x.2 k') k := by
  apply Prog.wp_seq _ hm
  intro r k' hk'
  subst hk'
  exact ⟨v, hnext r, h⟩

theorem call_keeps {o : linux.Op} {k : Kernel} (hallowed : k.Allows o)
    (hkeep : ∀ r k', k.Move cpu o r k' → k' = k) :
    (Prog.perform (S := linux) o).Wp (kernelEnv cpu) (fun _ k' => k' = k) k :=
  ⟨hallowed, hkeep⟩

theorem Owned.locked {family : RyzenFamily} {p : Statics} {k : Kernel} (h : Owned family b p k)
    (use : LockUse) : Owned family b p { k with lock := use } :=
  ⟨h.flag, h.files, h.unique, h.smn, h.streams, h.pciAccs, h.pciDevs, h.mappings, h.unmapped,
    h.family⟩

theorem lockFile_there {family : RyzenFamily} {v : Turn} {p : Statics} {k : Kernel}
    (h : Serving family b v p k) (hopen : v.fdOpen = true) :
    (p.smuLockFd, smuLockPath) ∈ k.files := by
  rw [h.owned.files]
  exact .inl ⟨by simpa [h.fdOpen] using hopen, rfl⟩

theorem openSmuLock_served {family : RyzenFamily} {v : Turn} {p : Statics} {k : Kernel}
    (h : Serving family b v p k) (hclosed : ¬0 ≤ p.smuLockFd) :
    (Host.mailboxImpl p .openSmuLock).Wp (kernelEnv cpu)
      (fun x k' => ∃ v', turnMove family v .openSmuLock x.1 v' ∧ Serving family b v' x.2 k') k := by
  have hfiles : k.files = b.access.files := by
    rw [h.owned.files, Statics.lockFile, openAt_neg (Int.not_le.mp hclosed), Set.empty_union]
  refine ⟨trivial, fun (fd : Int) k' hmove => ?_⟩
  obtain ⟨k₁, hopen, rfl⟩ := hmove
  obtain ⟨hfd, rfl, hunique⟩ := opened_files hopen h.owned.unique
  refine ⟨_, rfl, ?_, rfl, ?_⟩
  · refine ⟨h.owned.flag, ?_, hunique, h.owned.smn, h.owned.streams, h.owned.pciAccs,
      h.owned.pciDevs, h.owned.mappings, h.owned.unmapped, h.owned.family⟩
    show k.files ∪ _ = openAt fd smuLockPath ∪ _
    rw [hfiles, Set.union_comm]
  · rcases hfd with rfl | hfd
    · rfl
    · have hne : fd ≠ -1 := by omega
      simp [hfd, hne]

theorem mailboxImpl_meets (hlive : b.access = .live obj) (hflag : b.isSmu = obj.isKmod) :
    Host.mailboxImpl.Meets (turnEnv (loadedFamily cpu) obj) (kernelEnv cpu)
      (Serving (loadedFamily cpu) b) := by
  intro v p k o hserving hguard
  have howned := hserving.owned
  have hfd := hserving.fdOpen
  have huse := hserving.use
  have hlock : o.access = true → k.lock ≠ .free := fun ho => by rw [← huse]; exact hguard.access ho
  have hobject : ∀ x, o.accessObj = some x → x = obj := hguard.object
  cases o with
  | smuLockFd => exact ⟨v, ⟨hfd.symm, rfl⟩, hserving⟩
  | openSmuLock =>
    have hclosed : ¬0 ≤ p.smuLockFd := by simpa [hfd] using hguard.opens rfl
    exact openSmuLock_served hserving hclosed
  | flockEx =>
    obtain ⟨hopen, hfree⟩ := hguard.locks rfl
    have hfile := lockFile_there hserving hopen
    refine ⟨⟨hfile, huse.symm.trans hfree⟩, fun r k' hmove => ?_⟩
    rw [show k' = k.flocked r from hmove]
    cases r with
    | acquired => exact ⟨{ v with use := .held }, rfl, howned.locked .held, hfd, rfl⟩
    | error e =>
      refine ⟨_, rfl, ?_⟩
      simp only [Kernel.flocked]
      split
      · exact hserving
      · exact ⟨howned.locked .unlocked, hfd, rfl⟩
  | flockUn =>
    refine ⟨lockFile_there hserving (hguard.unlocks rfl), fun _ k' hmove => ?_⟩
    rw [show k' = { k with lock := .free } from hmove]
    exact ⟨{ v with use := .free }, rfl, howned.locked .free, hfd, rfl⟩
  | cpuidGetFamily =>
    apply Prog.wp_mono _ (cpuidGetFamily_owned howned)
    intro r k' hr
    obtain ⟨hr, rfl, hfd', howned'⟩ := hr
    exact ⟨v, ⟨hr, rfl⟩, howned', by rw [hfd', hfd], huse⟩
  | monotonicMs =>
    exact serving_kept (o := .monotonicMs) hserving
      (call_keeps (o := .inr .monotonicMs) trivial fun _ _ h => h) fun _ => rfl
  | usleep =>
    exact serving_kept (o := .usleep) hserving
      (call_keeps (o := .inr .usleep) trivial fun _ _ h => h) fun _ => rfl
  | shortSleep =>
    exact serving_kept (o := .shortSleep) hserving
      (call_keeps (o := .inr .shortSleep) trivial fun _ _ h => h) fun _ => rfl
  | malloc =>
    exact serving_kept (o := .malloc) hserving
      (call_keeps (o := .inr .malloc) trivial fun _ _ h => h) fun _ => rfl
  | smnRegRead x addr =>
    obtain rfl := hobject x rfl
    have hread : (smnRegReadLinux x addr).Wp (sysEnv cpu) (fun _ k' => k' = k) k :=
      smnRegReadLinux_keeps howned hlive hflag (hlock rfl) addr
    exact serving_kept (o := .smnRegRead x addr) hserving (Prog.wp_inl.mpr hread) fun _ => rfl
  | smnRegWrite x addr data =>
    obtain rfl := hobject x rfl
    have hwrite : (smnRegWriteLinux x addr data).Wp (sysEnv cpu) (fun _ k' => k' = k) k :=
      smnRegWriteLinux_keeps howned hlive hflag (hlock rfl) addr data
    exact serving_kept (o := .smnRegWrite x addr data) hserving (Prog.wp_inl.mpr hwrite)
      fun _ => rfl
  | smnIoTakeError =>
    exact serving_kept (o := .smnIoTakeError) hserving
      (call_keeps (o := .inl .smnIoTakeError) trivial fun _ _ h => h) fun _ => rfl
  | smuRawCmd x msg rep argBase id args =>
    obtain rfl := hobject x rfl
    have hcmd : (smuRawCmdLinux x msg rep argBase id args).Wp (sysEnv cpu)
        (fun _ k' => k' = k) k :=
      smuRawCmdLinux_keeps howned hlive hflag (hlock rfl) msg rep argBase id args
    exact serving_kept (o := .smuRawCmd x msg rep argBase id args) hserving
      (Prog.wp_inl.mpr hcmd) fun _ => rfl

end Mailbox

section Library
variable {cpu : Word → CpuInfo} {b : Backend} {p : Statics} {k : Kernel}

/-- The flag is that of the live object, and down before there was one. -/
structure Backend.Fits (b : Backend) : Prop where
  live : ∀ obj, b.access = .live obj → b.isSmu = obj.isKmod
  first : b.access = .notYet → b.isSmu = false

theorem Backend.Fits.ended {isSmu : Bool} : Backend.Fits ⟨isSmu, .ended⟩ :=
  ⟨(fun _ h => by cases h), (fun h => by cases h)⟩

/-- What the process has between two calls of `api.c`. -/
structure Standing (family : RyzenFamily) (b : Backend) (p : Statics) (k : Kernel) : Prop where
  owned : Owned family b p k
  fits : b.Fits
  lock : k.lock = .free ∨ (k.lock = .unlocked ∧ p.smuLockFd < 0)

theorem Standing.idle {family : RyzenFamily} (h : Standing family b p k) :
    Serving family b ⟨decide (0 ≤ p.smuLockFd), k.lock⟩ p k ∧
      Turn.Idle ⟨decide (0 ≤ p.smuLockFd), k.lock⟩ := by
  refine ⟨⟨h.owned, rfl, rfl⟩, ?_⟩
  rcases h.lock with hfree | ⟨hnone, hfd⟩
  · exact .inl hfree
  · exact .inr ⟨hnone, by simpa using hfd⟩

theorem Serving.standing {family : RyzenFamily} {v : Turn} (h : Serving family b v p k)
    (hfits : b.Fits) (hv : v.Idle) : Standing family b p k := by
  refine ⟨h.owned, hfits, ?_⟩
  rw [← h.use]
  rcases hv with hfree | ⟨hnone, hclosed⟩
  · exact .inl hfree
  · refine .inr ⟨hnone, ?_⟩
    rw [h.fdOpen] at hclosed
    simpa using hclosed

theorem mailbox_served {α : Type} {obj : OsAccessObj} {q : Prog mailbox α} {R : α → Prop}
    (h : Standing (loadedFamily cpu) b p k) (hlive : b.access = .live obj)
    (hq : ∀ v : Turn, v.Idle →
      q.Wp (turnEnv (loadedFamily cpu) obj) (fun a v' => R a ∧ v'.Idle) v) :
    (q.link Host.mailboxImpl p).Wp (kernelEnv cpu)
      (fun x k' => R x.1 ∧ Standing (loadedFamily cpu) b x.2 k') k := by
  obtain ⟨hserving, hidle⟩ := h.idle
  have hlink := Prog.wp_link (mailboxImpl_meets hlive (h.fits.live obj hlive)) hserving (hq _ hidle)
  apply Prog.wp_mono _ hlink
  intro x k' hx
  obtain ⟨v', ⟨hR, hidle'⟩, hserving'⟩ := hx
  exact ⟨hR, hserving'.standing h.fits hidle'⟩

theorem standing_kept {family : RyzenFamily} {o : Api.Op} (h : Standing family b p k)
    {m : Prog linux (Api.Ret o)} (hm : m.Wp (kernelEnv cpu) (fun _ k' => k' = k) k)
    (hnext : ∀ r, backendMove family b o r b) :
    (m.bind fun r => Prog.ret (r, p)).Wp (kernelEnv cpu)
      (fun x k' => ∃ b', backendMove family b o x.1 b' ∧ Standing family b' x.2 k') k := by
  apply Prog.wp_seq _ hm
  intro r k' hk'
  subst hk'
  exact ⟨b, hnext r, h⟩

theorem apiImpl_meets (cpu : Word → CpuInfo) :
    Host.apiImpl.Meets (backendEnv (loadedFamily cpu)) (kernelEnv cpu)
      (Standing (loadedFamily cpu)) := by
  intro b p k o hstanding hguard
  have howned := hstanding.owned
  have hcall : BackendCall b o := hguard
  have hlive : ∀ obj, o.accessObj = some obj → b.access = .live obj := hcall.live
  cases o with
  | smuServiceReq smu id args =>
    have hserved := mailbox_served (R := fun _ : Word × Args => True)
      (q := smuServiceReq smu id args) hstanding (hlive _ rfl)
      fun v hv => Prog.wp_mono _ (smuServiceReq_turn rfl id args hv) fun _ _ hidle =>
        ⟨trivial, hidle⟩
    apply Prog.wp_mono _ hserved
    intro x k' hx
    exact ⟨b, rfl, hx.2⟩
  | getSmu obj smuType =>
    have hserved := mailbox_served (R := fun r => ∀ smu, r = some smu →
        smuOf obj smuType (loadedFamily cpu) = some smu)
      (q := getSmu obj smuType) hstanding (hlive _ rfl)
      fun v hv => getSmu_turn smuType hv
    apply Prog.wp_mono _ hserved
    intro x k' hx
    exact ⟨b, ⟨hx.1, rfl⟩, hx.2⟩
  | cpuidGetFamily =>
    apply Prog.wp_mono _ (cpuidGetFamily_owned howned)
    intro r k' hr
    obtain ⟨hr, rfl, hfd, howned'⟩ := hr
    exact ⟨b, ⟨hr, rfl⟩, howned', hstanding.fits, by rw [hfd]; exact hstanding.lock⟩
  | initOsAccessObj =>
    have hfirst := hcall.once rfl
    have hnone : NoObject (loadedFamily cpu) b p k := ⟨howned, hfirst⟩
    apply Prog.wp_seq _ hnone.initOsAccessObj_made
    intro r k' hmade
    obtain ⟨detected, hkind, hlock, howned'⟩ := hmade
    refine ⟨_, ⟨detected, hkind, rfl⟩, howned', ?_, by rw [hlock]; exact hstanding.lock⟩
    cases r with
    | none => exact .ended
    | some obj =>
      refine ⟨fun obj' hobj' => ?_, fun h => by cases h⟩
      cases hobj'
      rw [hkind obj rfl, hstanding.fits.first hfirst, Bool.false_or]
  | freeOsAccessObj obj =>
    apply Prog.wp_seq _ (freeOsAccessObj_owned howned (hlive obj rfl) hcall.fits)
    intro window k' hfree
    exact ⟨_, rfl, hfree.2, .ended, by rw [hfree.1]; exact hstanding.lock⟩
  | isUsingSmuDriver =>
    refine ⟨trivial, fun isSmu k' hnext => ?_⟩
    obtain ⟨hisSmu, rfl⟩ := hnext
    exact ⟨b, ⟨hisSmu.trans howned.flag, rfl⟩, hstanding⟩
  | initMemObj obj physAddr size =>
    apply Prog.wp_seq _ (initMemObj_owned howned (hlive obj rfl) hcall.fits physAddr size)
    intro r k' hinit
    exact ⟨b, rfl, hinit.2, hstanding.fits, by rw [hinit.1]; exact hstanding.lock⟩
  | copyPmTable obj size =>
    exact standing_kept (o := .copyPmTable obj size) hstanding
      (copyPmTable_keeps howned (hlive obj rfl) hcall.fits size) fun _ => rfl
  | comparePmTable buffer =>
    exact standing_kept (o := .comparePmTable buffer) hstanding
      (comparePmTable_keeps howned buffer) fun _ => rfl
  | malloc =>
    exact standing_kept (o := .malloc) hstanding
      (call_keeps (o := .inr .malloc) trivial fun _ _ h => h) fun _ => rfl
  | calloc nmemb =>
    exact standing_kept (o := .calloc nmemb) hstanding
      (call_keeps (o := .inr (.calloc nmemb)) trivial fun _ _ h => h) fun _ => rfl
  | sleep ms =>
    exact standing_kept (o := .sleep ms) hstanding
      (call_keeps (o := .inr (.sleep ms)) trivial fun _ _ h => h) fun _ => rfl
  | undefined => exact absurd rfl hcall.defined

end Library
end RyzenAdj
