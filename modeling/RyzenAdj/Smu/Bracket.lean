import RyzenAdj.Smu.Calls

/-!
# What stands between lock and unlock

The rule of a request and of a probe: they take the lock, make calls on the one
access object, and give the lock up on every path; without the lock they make
no such call.
-/

namespace RyzenAdj
open Interaction Mailbox

/-- The calls of a mailbox program that is given one access object: on no other. -/
def OnObject (obj : OsAccessObj) (o : Mailbox.Op) : Prop := ∀ x, o.accessObj = some x → x = obj

/-- The calls between `smu_lock` and `smu_unlock`. -/
def InsideOp : Mailbox.Op → Prop
  | .smnRegRead _ _ | .smnRegWrite _ _ _ | .smnIoTakeError | .smuRawCmd _ _ _ _ _ _
  | .monotonicMs | .shortSleep => True
  | _ => False

section Calls
variable {obj : OsAccessObj} {o : Mailbox.Op}

theorem onObject_of_none (h : o.accessObj = none) : OnObject obj o := by
  intro x hx
  rw [h] at hx
  cases hx

theorem onObject_of_some (h : o.accessObj = some obj) : OnObject obj o := by
  intro x hx
  rw [h] at hx
  exact (Option.some.inj hx).symm

theorem onObject_of_lockOp (h : LockOp o) : OnObject obj o := by
  intro x hx
  cases o with
  | smnRegRead _ _ => cases h
  | smnRegWrite _ _ _ => cases h
  | smuRawCmd _ _ _ _ _ _ => cases h
  | _ => cases hx

theorem onObject_of_unlockOp (h : UnlockOp o) : OnObject obj o := by
  intro x hx
  cases o with
  | smnRegRead _ _ => cases h
  | smnRegWrite _ _ _ => cases h
  | smuRawCmd _ _ _ _ _ _ => cases h
  | _ => cases hx

theorem onObject_of_pathOp {smu : Smu} (h : smu.osAccess = obj) (hpath : PathOp smu o) :
    OnObject obj o := by
  intro x hx
  cases o with
  | smnRegRead _ _ => exact (Option.some.inj hx).symm.trans (hpath.trans h)
  | smnRegWrite _ _ _ => exact (Option.some.inj hx).symm.trans (hpath.trans h)
  | smuRawCmd _ _ _ _ _ _ => cases hpath
  | _ => cases hx

theorem insideOp_of_pollOp {smu : Smu} (h : PollOp smu o) : InsideOp o := by
  cases o with
  | smnRegRead _ _ => trivial
  | monotonicMs => trivial
  | shortSleep => trivial
  | _ => cases h

theorem insideOp_of_readBackOp {smu : Smu} (h : ReadBackOp smu o) : InsideOp o := by
  cases o with
  | smnRegRead _ _ => trivial
  | _ => cases h

end Calls

/-- The calls between `smu_lock` and `smu_unlock`, on the object. -/
def InsideOn (obj : OsAccessObj) (o : Mailbox.Op) : Prop := InsideOp o ∧ OnObject obj o

theorem insideOn_takeError {obj : OsAccessObj} : InsideOn obj .smnIoTakeError :=
  ⟨trivial, onObject_of_none rfl⟩

section Inside
variable {obj : OsAccessObj} {smu : Smu} (h : smu.osAccess = obj)
include h

theorem insideOn_read (addr : Word) : InsideOn obj (.smnRegRead smu.osAccess addr) :=
  ⟨trivial, onObject_of_some (congrArg some h)⟩

theorem insideOn_write (addr data : Word) : InsideOn obj (.smnRegWrite smu.osAccess addr data) :=
  ⟨trivial, onObject_of_some (congrArg some h)⟩

theorem insideOn_rawCmd (msg rep argBase id : Word) (args : Args) :
    InsideOn obj (.smuRawCmd smu.osAccess msg rep argBase id args) :=
  ⟨trivial, onObject_of_some (congrArg some h)⟩

theorem insideOn_poll :
    (smuWaitForResponse smu).Wp (Env.only (InsideOn obj)) (fun _ _ => True) () := by
  have hon : ∀ o : Mailbox.Op, PollOp smu o → InsideOn obj o :=
    fun o ho => ⟨insideOp_of_pollOp ho, onObject_of_pathOp h (pathOp_of_pollOp ho)⟩
  exact Prog.wp_only_mono hon (pollOp_smuWaitForResponse smu)

theorem insideOn_readBack :
    (smuReadBack smu).Wp (Env.only (InsideOn obj)) (fun _ _ => True) () := by
  have hon : ∀ o : Mailbox.Op, ReadBackOp smu o → InsideOn obj o :=
    fun o ho => ⟨insideOp_of_readBackOp ho, onObject_of_pathOp h (pathOp_of_readBackOp ho)⟩
  exact Prog.wp_only_mono hon (readBackOp_smuReadBack smu)

theorem insideOn_setup (args : Args) :
    (smuWriteSetup smu args).Wp (Env.only (InsideOn obj)) (fun _ _ => True) () := by
  have hwrites : ∀ ws : List (Word × Word),
      (writeAll smu.osAccess ws).Wp (Env.only (InsideOn obj)) (fun _ _ => True) () := by
    intro ws
    induction ws with
    | nil => trivial
    | cons w ws ih => exact ⟨insideOn_write h _ _, fun _ _ _ => ih⟩
  exact hwrites (setupWrites smu args)

end Inside

/-- A discipline for the calls on `obj`: `Busy` is kept by the calls inside, `smu_lock` leads to
it where it returns 0, and `smu_unlock` from it to `Over`. -/
structure Bracket {σ : Type} (E : Env mailbox σ) (obj : OsAccessObj) (Idle Busy Over : σ → Prop) :
    Prop where
  inside : ∀ o s, Busy s → InsideOn obj o → E.guard s o ∧ ∀ r s', E.next s o r s' → Busy s'
  lock : ∀ s, Idle s → smuLock.Wp E (fun locked t => if locked then Busy t else Idle t) s
  unlock : ∀ s, Busy s → smuUnlock.Wp E (fun _ t => Over t) s

/-- A call that is over, or was refused for want of the lock. -/
def OverOr {σ : Type} (Idle Over : σ → Prop) (refused : Prop) (t : σ) : Prop :=
  Over t ∨ (Idle t ∧ refused)

section Rules
variable {σ : Type} {E : Env mailbox σ} {obj : OsAccessObj} {smu : Smu} {Idle Busy Over : σ → Prop}
  (hE : Bracket E obj Idle Busy Over) (hobj : smu.osAccess = obj)
include hE

theorem busy_seq {α β : Type} {p : Prog mailbox α} {f : α → Prog mailbox β} {Q : β → σ → Prop}
    {s : σ} (hp : p.Wp (Env.only (InsideOn obj)) (fun _ _ => True) ()) (hs : Busy s)
    (hf : ∀ a t, Busy t → (f a).Wp E Q t) : (p.bind f).Wp E Q s := by
  have hbusy := Prog.wp_of_only E (I := Busy) (fun o t ho ht => hE.inside o t ht ho) hs hp
  apply Prog.wp_seq E hbusy
  exact fun a t ht => hf a t ht.2

theorem busy_call {α : Type} {o : Mailbox.Op} {k : Mailbox.Ret o → Prog mailbox α}
    {Q : α → σ → Prop} {s : σ} (ho : InsideOn obj o) (hs : Busy s)
    (hk : ∀ r t, Busy t → (k r).Wp E Q t) : (Prog.call (S := mailbox) o k).Wp E Q s := by
  obtain ⟨hguard, hnext⟩ := hE.inside o s hs ho
  exact ⟨hguard, fun r t ht => hk r t (hnext r t ht)⟩

theorem unlock_ret {α : Type} (a : α) {s : σ} (hs : Busy s) :
    (smuUnlock.bind fun _ => Prog.ret a).Wp E (fun _ t => Over t) s :=
  Prog.wp_seq E (hE.unlock s hs) fun _ _ ht => ht

include hobj

theorem smuServiceReqRegisters_rule (id : Word) (args : Args) {s : σ} (hs : Busy s) :
    (smuServiceReqRegisters smu id args).Wp E (fun _ t => Over t) s := by
  apply busy_call hE insideOn_takeError hs
  intro _ s₁ hs₁
  apply busy_seq hE (insideOn_setup hobj args) hs₁
  intro _ s₂ hs₂
  apply busy_call hE insideOn_takeError hs₂
  intro setupFailed s₃ hs₃
  apply Prog.wp_ite
  · exact fun _ => unlock_ret hE _ hs₃
  · intro _
    apply busy_call hE (insideOn_write hobj _ _) hs₃
    intro _ s₄ hs₄
    apply busy_seq hE (insideOn_poll hobj) hs₄
    intro response s₅ hs₅
    apply Prog.wp_ite
    · intro _
      apply busy_call hE insideOn_takeError hs₅
      exact fun _ s₆ hs₆ => unlock_ret hE _ hs₆
    · intro _
      apply busy_seq hE (insideOn_readBack hobj) hs₅
      intro args' s₆ hs₆
      apply busy_call hE insideOn_takeError hs₆
      exact fun _ s₇ hs₇ => unlock_ret hE _ hs₇

theorem smuServiceReq_rule (id : Word) (args : Args) {s : σ} (hs : Idle s) :
    (smuServiceReq smu id args).Wp E
      (fun r t => OverOr Idle Over (r.1 = repMsgCmdRejectedBusy) t) s := by
  apply Prog.wp_seq E (hE.lock s hs)
  intro locked s₁ hs₁
  cases locked with
  | false => exact .inr ⟨hs₁, rfl⟩
  | true =>
    have hbusy : Busy s₁ := hs₁
    apply busy_call hE (insideOn_rawCmd hobj _ _ _ _ _) hbusy
    intro r s₂ hs₂
    refine Prog.wp_mono E ?_ fun _ _ => .inl
    cases r with
    | some r => exact unlock_ret hE _ hs₂
    | none => exact smuServiceReqRegisters_rule hE hobj id args hs₂

theorem smuServiceTestRegisters_rule {s : σ} (hs : Busy s) :
    (smuServiceTestRegisters smu).Wp E (fun _ t => Over t) s := by
  apply busy_call hE (insideOn_write hobj _ _) hs
  intro _ s₁ hs₁
  apply busy_call hE (insideOn_write hobj _ _) hs₁
  intro _ s₂ hs₂
  apply busy_call hE (insideOn_read hobj _) hs₂
  intro echo s₃ hs₃
  apply Prog.wp_ite
  · exact fun _ => unlock_ret hE _ hs₃
  · intro _
    apply busy_call hE (insideOn_write hobj _ _) hs₃
    intro _ s₄ hs₄
    apply busy_seq hE (insideOn_poll hobj) hs₄
    intro response s₅ hs₅
    apply busy_call hE insideOn_takeError hs₅
    intro _ s₆ hs₆
    apply Prog.wp_seq E (hE.unlock s₆ hs₆)
    intro _ s₇ hs₇
    apply Prog.wp_ite
    · exact fun _ => hs₇
    · exact fun _ => hs₇

theorem smuServiceTest_rule {s : σ} (hs : Idle s) :
    (smuServiceTest smu).Wp E (fun works t => OverOr Idle Over (works = false) t) s := by
  apply Prog.wp_seq E (hE.lock s hs)
  intro locked s₁ hs₁
  cases locked with
  | false => exact .inr ⟨hs₁, rfl⟩
  | true =>
    have hbusy : Busy s₁ := hs₁
    apply busy_call hE (insideOn_rawCmd hobj _ _ _ _ _) hbusy
    intro r s₂ hs₂
    refine Prog.wp_mono E ?_ fun _ _ => .inl
    cases r with
    | some r => exact unlock_ret hE _ hs₂
    | none => exact smuServiceTestRegisters_rule hE hobj hs₂

end Rules

section Probe
variable {σ : Type} {E : Env mailbox σ} {obj : OsAccessObj} {Idle Busy Over : σ → Prop}

/-- A probe finds the registers of a family that the processor may have; the two calls before it
keep `Idle`. -/
theorem getSmu_rule (hE : Bracket E obj Idle Busy Over) (smuType : SmuType)
    {Known : RyzenFamily → Prop}
    (hmalloc : ∀ s, Idle s → E.guard s .malloc ∧ ∀ r s', E.next s .malloc r s' → Idle s')
    (hfamily : ∀ s, Idle s → E.guard s .cpuidGetFamily ∧
      ∀ r s', E.next s .cpuidGetFamily r s' → Known r ∧ Idle s') {s : σ} (hs : Idle s) :
    (getSmu obj smuType).Wp E
      (fun r t => (∀ smu, r = some smu → ∃ family, Known family ∧
        smuOf obj smuType family = some smu) ∧ OverOr Idle Over (r = none) t) s := by
  have hnone : ∀ {t : σ}, Idle t → (∀ smu, none = some smu → ∃ family, Known family ∧
      smuOf obj smuType family = some smu) ∧ OverOr Idle Over ((none : Option Smu) = none) t := by
    intro t ht
    refine ⟨fun smu h => ?_, .inr ⟨ht, rfl⟩⟩
    cases h
  obtain ⟨hguard, hnext⟩ := hmalloc s hs
  refine ⟨hguard, fun allocated s₁ h₁ => ?_⟩
  have hs₁ := hnext allocated s₁ h₁
  apply Prog.wp_ite
  · exact fun _ => hnone hs₁
  · intro _
    obtain ⟨hguard, hnext⟩ := hfamily s₁ hs₁
    refine ⟨hguard, fun family s₂ h₂ => ?_⟩
    obtain ⟨hknown, hs₂⟩ := hnext family s₂ h₂
    simp only [Prog.ret_bind]
    cases hsmu : smuOf obj smuType family with
    | none => exact hnone hs₂
    | some smu =>
      apply Prog.wp_seq E (smuServiceTest_rule hE (smuOf_osAccess hsmu) hs₂)
      intro works s₃ hs₃
      apply Prog.wp_ite
      · intro hworks
        refine ⟨fun smu' h => ⟨family, hknown, hsmu.trans h⟩, ?_⟩
        rcases hs₃ with hover | ⟨-, hrefused⟩
        · exact .inl hover
        · rw [hrefused] at hworks
          cases hworks
      · intro _
        refine ⟨fun smu' h => ?_, hs₃.imp_right fun h => ⟨h.1, rfl⟩⟩
        cases h

end Probe
end RyzenAdj
