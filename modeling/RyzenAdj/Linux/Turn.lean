import RyzenAdj.Linux.Resources

/-!
# The calls of `nb_smu_ops.c` on Linux

The mailbox code's own discipline with the lock, a run without one included, and
its calls carried out by the kernel on what the process has.
-/

namespace RyzenAdj
open Interaction Mailbox

/-- What the mailbox code knows of the lock: whether `smu_lock_fd` is open, and the lock. -/
structure Turn where
  fdOpen : Bool
  use : LockUse

/-- A call on the object alone; the mailbox is touched only with the lock, or where there is no
lock to be had. -/
structure TurnCall (obj : OsAccessObj) (v : Turn) (o : Mailbox.Op) : Prop where
  object : OnObject obj o
  access : o.access = true → v.use ≠ .free
  opens : o = .openSmuLock → v.fdOpen = false
  locks : o = .flockEx → v.fdOpen = true ∧ v.use = .free
  unlocks : o = .flockUn → v.fdOpen = true

def turnMove (family : RyzenFamily) (v : Turn) : (o : Mailbox.Op) → Mailbox.Ret o → Turn → Prop
  | .smuLockFd, r, v' => r = v.fdOpen ∧ v' = v
  | .openSmuLock, (opened : Bool), v' => v' = ⟨opened, if opened then .free else .unlocked⟩
  | .flockEx, .acquired, v' => v' = { v with use := .held }
  | .flockEx, .error e, v' =>
    v' = if e = eWouldBlock ∨ e = eIntr then v else { v with use := .unlocked }
  | .flockUn, _, v' => v' = { v with use := .free }
  | .cpuidGetFamily, r, v' => r = family ∧ v' = v
  | _, _, v' => v' = v

def turnEnv (family : RyzenFamily) (obj : OsAccessObj) : Env mailbox Turn where
  guard := TurnCall obj
  next := turnMove family

/-- Between two transactions. -/
def Turn.Idle (v : Turn) : Prop := v.use = .free ∨ (v.use = .unlocked ∧ v.fdOpen = false)

/-- Within one. -/
def Turn.Busy (v : Turn) : Prop := v.use ≠ .free ∧ (v.use = .held → v.fdOpen = true)

section Discipline
variable {family : RyzenFamily} {obj : OsAccessObj}

theorem turnCall_other {v : Turn} {o : Mailbox.Op} (hobj : o.accessObj = none)
    (haccess : o.access = false) (hopen : o ≠ .openSmuLock) (hlock : o ≠ .flockEx)
    (hunlock : o ≠ .flockUn) : TurnCall obj v o where
  object := onObject_of_none hobj
  access h := by rw [haccess] at h; cases h
  opens h := absurd h hopen
  locks h := absurd h hlock
  unlocks h := absurd h hunlock

theorem turn_inside {o : Mailbox.Op} {v : Turn} (hv : v.Busy) (ho : InsideOn obj o) :
    TurnCall obj v o ∧ ∀ r v', turnMove family v o r v' → v'.Busy := by
  obtain ⟨hinside, hobj⟩ := ho
  refine ⟨⟨hobj, fun _ => hv.1, ?_, ?_, ?_⟩, fun r v' hnext => ?_⟩
  · rintro rfl
    cases hinside
  · rintro rfl
    cases hinside
  · rintro rfl
    cases hinside
  · cases o with
    | smuLockFd => cases hinside
    | openSmuLock => cases hinside
    | flockEx => cases hinside
    | flockUn => cases hinside
    | cpuidGetFamily => cases hinside
    | _ => rw [show v' = v from hnext]; exact hv

/-- What `smu_lock` comes to. -/
def Turn.Locked (locked : Bool) (v : Turn) : Prop := if locked then v.Busy else v.Idle

theorem turn_lock {v : Turn} (hv : v.Idle) :
    smuLock.Wp (turnEnv family obj) (fun locked v' => v'.Locked locked) v := by
  -- from the opened lock file on
  have hflock :
    (monotonicMs.bind fun now => Prog.iterate () (smuLockTurn (now + smuLockTimeoutMs))).Wp
      (turnEnv family obj) (fun locked v' => v'.Locked locked) ⟨true, .free⟩ := by
    refine ⟨turnCall_other rfl rfl (by simp) (by simp) (by simp), fun now v₁ hnow => ?_⟩
    refine Prog.wp_loop _ (fun _ u => u = ⟨true, .free⟩) hnow ?_
    intro _ u hu
    subst hu
    refine ⟨⟨onObject_of_none rfl, (fun h => by cases h), (fun h => by cases h),
      fun _ => ⟨rfl, rfl⟩, (fun h => by cases h)⟩, fun r u₁ hnext => ?_⟩
    cases r with
    | acquired =>
      rw [show u₁ = ⟨true, .held⟩ from hnext]
      exact ⟨(fun h => by cases h), fun _ => rfl⟩
    | error e =>
      apply Prog.wp_ite
      · intro hother
        have hu₁ : u₁ = ⟨true, .unlocked⟩ :=
          (show u₁ = _ from hnext).trans (if_neg (not_or.mpr hother))
        rw [hu₁]
        exact ⟨(fun h => by cases h), (fun h => by cases h)⟩
      · intro hbusy
        have hu₁ : u₁ = ⟨true, .free⟩ := (show u₁ = _ from hnext).trans (if_pos (by tauto))
        rw [hu₁]
        refine ⟨turnCall_other rfl rfl (by simp) (by simp) (by simp), fun now u₂ hnow => ?_⟩
        rw [show u₂ = _ from hnow]
        apply Prog.wp_ite
        · exact fun _ => .inl rfl
        · intro _
          exact ⟨turnCall_other rfl rfl (by simp) (by simp) (by simp), fun _ _ hsleep => hsleep⟩
  refine ⟨turnCall_other rfl rfl (by simp) (by simp) (by simp), fun fdOpen v₁ hnext => ?_⟩
  obtain ⟨rfl, rfl⟩ := hnext
  apply Prog.wp_ite
  · intro hopen
    have hfree : v₁ = ⟨true, .free⟩ := by
      rcases hv with hv | ⟨-, hclosed⟩
      · rw [← hopen, ← hv]
      · rw [hclosed] at hopen
        cases hopen
    rw [hfree]
    exact hflock
  · intro hclosed
    have hguard : TurnCall obj v₁ .openSmuLock :=
      ⟨onObject_of_none rfl, (fun h => by cases h), fun _ => Bool.eq_false_iff.mpr hclosed,
        (fun h => by cases h), (fun h => by cases h)⟩
    refine ⟨hguard, fun (opened : Bool) v₂ hnext => ?_⟩
    rw [show v₂ = _ from hnext]
    cases opened with
    | false => exact ⟨(fun h => by cases h), (fun h => by cases h)⟩
    | true => exact hflock

theorem turn_unlock {v : Turn} (hv : v.Busy) :
    smuUnlock.Wp (turnEnv family obj) (fun _ v' => v'.Idle) v := by
  refine ⟨turnCall_other rfl rfl (by simp) (by simp) (by simp), fun fdOpen v₁ hnext => ?_⟩
  obtain ⟨rfl, rfl⟩ := hnext
  apply Prog.wp_ite
  · intro hopen
    have hguard : TurnCall obj v₁ .flockUn :=
      ⟨onObject_of_none rfl, (fun h => by cases h), (fun h => by cases h), (fun h => by cases h),
        fun _ => hopen⟩
    refine ⟨hguard, fun _ v₂ hnext => ?_⟩
    rw [show v₂ = _ from hnext]
    exact .inl rfl
  · intro hclosed
    obtain ⟨hfree, hheld⟩ := hv
    refine .inr ⟨?_, Bool.eq_false_iff.mpr hclosed⟩
    cases huse : v₁.use with
    | free => exact absurd huse hfree
    | held => exact absurd (hheld huse) hclosed
    | unlocked => rfl

theorem turn_bracket : Bracket (turnEnv family obj) obj Turn.Idle Turn.Busy Turn.Idle where
  inside _ _ hv ho := turn_inside hv ho
  lock _ hv := turn_lock hv
  unlock _ hv := turn_unlock hv

theorem Turn.idle_of_overOr {refused : Prop} {v : Turn} (h : OverOr Turn.Idle Turn.Idle refused v) :
    v.Idle := h.elim id And.left

theorem smuServiceReq_turn {smu : Smu} (hobj : smu.osAccess = obj) (id : Word) (args : Args)
    {v : Turn} (hv : v.Idle) :
    (smuServiceReq smu id args).Wp (turnEnv family obj) (fun _ v' => v'.Idle) v :=
  Prog.wp_mono _ (smuServiceReq_rule turn_bracket hobj id args hv) fun _ _ => Turn.idle_of_overOr

theorem getSmu_turn (smuType : SmuType) {v : Turn} (hv : v.Idle) :
    (getSmu obj smuType).Wp (turnEnv family obj)
      (fun r v' => (∀ smu, r = some smu → smuOf obj smuType family = some smu) ∧ v'.Idle) v := by
  have hmalloc : ∀ u : Turn, u.Idle → (turnEnv family obj).guard u .malloc ∧
      ∀ r u', (turnEnv family obj).next u .malloc r u' → u'.Idle := by
    intro u hu
    refine ⟨turnCall_other rfl rfl (by simp) (by simp) (by simp), fun r u' hnext => ?_⟩
    rw [show u' = u from hnext]
    exact hu
  have hfamily : ∀ u : Turn, u.Idle → (turnEnv family obj).guard u .cpuidGetFamily ∧
      ∀ r u', (turnEnv family obj).next u .cpuidGetFamily r u' → r = family ∧ u'.Idle := by
    intro u hu
    refine ⟨turnCall_other rfl rfl (by simp) (by simp) (by simp), fun r u' hnext => ?_⟩
    obtain ⟨hr, rfl⟩ := hnext
    exact ⟨hr, hu⟩
  apply Prog.wp_mono _ (getSmu_rule turn_bracket smuType hmalloc hfamily hv)
  intro r v' hr
  refine ⟨fun smu hsmu => ?_, Turn.idle_of_overOr hr.2⟩
  obtain ⟨fam, rfl, hfound⟩ := hr.1 smu hsmu
  exact hfound

end Discipline
end RyzenAdj
