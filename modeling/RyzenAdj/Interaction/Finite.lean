import RyzenAdj.Interaction.Progress

/-!
# Programs without loops

`WpFin` is `Wp` with no loop allowed on any path the surroundings can take the
program. Every run of such a program is finite, and where a call that meets its
guard has an answer it comes to a result.
-/

namespace Interaction
namespace Prog
variable {S : Signature} {α β σ : Type}

def WpFin (E : Env S σ) {α : Type} : Prog S α → (α → σ → Prop) → σ → Prop
  | .ret a, Q, s => Q a s
  | .call o k, Q, s => E.guard s o ∧ ∀ r s', E.next s o r s' → (k r).WpFin E Q s'
  | .loop _ _ _, _, _ => False

section Rules
variable {E : Env S σ}

theorem wpFin_mono {p : Prog S α} {Q R : α → σ → Prop} {s : σ} (h : p.WpFin E Q s)
    (hqr : ∀ a t, Q a t → R a t) : p.WpFin E R s := by
  induction p generalizing s with
  | ret a => exact hqr a s h
  | call o k ih => exact ⟨h.1, fun r s' hn => ih r (h.2 r s' hn) hqr⟩
  | loop x body k _ _ => exact h.elim

theorem wpFin_bind {p : Prog S α} {f : α → Prog S β} {Q : β → σ → Prop} {s : σ}
    (h : p.WpFin E (fun a => (f a).WpFin E Q) s) : (p.bind f).WpFin E Q s := by
  induction p generalizing s with
  | ret a => exact h
  | call o k ih => exact ⟨h.1, fun r s' hn => ih r (h.2 r s' hn)⟩
  | loop x body k _ _ => exact h.elim

theorem wpFin_seq {p : Prog S α} {f : α → Prog S β} {R : α → σ → Prop} {Q : β → σ → Prop} {s : σ}
    (hp : p.WpFin E R s) (hf : ∀ a t, R a t → (f a).WpFin E Q t) : (p.bind f).WpFin E Q s :=
  wpFin_bind (wpFin_mono hp hf)

theorem wpFin_ite {c : Prop} [Decidable c] {p q : Prog S α} {Q : α → σ → Prop} {s : σ}
    (hp : c → p.WpFin E Q s) (hq : ¬c → q.WpFin E Q s) :
    (if c then p else q).WpFin E Q s := by
  by_cases h : c
  · rw [if_pos h]
    exact hp h
  · rw [if_neg h]
    exact hq h

theorem wpFin_and {p : Prog S α} {Q R : α → σ → Prop} {s : σ} (hq : p.WpFin E Q s)
    (hr : p.WpFin E R s) : p.WpFin E (fun a t => Q a t ∧ R a t) s := by
  induction p generalizing s with
  | ret a => exact ⟨hq, hr⟩
  | call o k ih => exact ⟨hq.1, fun r s' hn => ih r (hq.2 r s' hn) (hr.2 r s' hn)⟩
  | loop x body k _ _ => exact hq.elim

theorem wp_of_wpFin {p : Prog S α} {Q : α → σ → Prop} {s : σ} (h : p.WpFin E Q s) :
    p.Wp E Q s := by
  induction p generalizing s with
  | ret a => exact h
  | call o k ih => exact ⟨h.1, fun r s' hn => ih r (h.2 r s' hn)⟩
  | loop x body k _ _ => exact h.elim

/-- There is no infinite run. -/
theorem acc_of_wpFin {p : Prog S α} {Q : α → σ → Prop} {s : σ} (h : p.WpFin E Q s) :
    Acc (fun d c => Step E c d) (p, s) := by
  induction p generalizing s with
  | ret a =>
    refine ⟨_, fun d hd => ?_⟩
    cases hd
  | call o k ih =>
    refine ⟨_, fun d hd => ?_⟩
    cases hd with
    | call hn => exact ih _ (h.2 _ _ hn)
  | loop x body k _ _ => exact h.elim

theorem wpFin_steps {c d : Prog S α × σ} {Q : α → σ → Prop} (hst : Steps E c d)
    (h : c.1.WpFin E Q c.2) : d.1.WpFin E Q d.2 := by
  induction hst with
  | refl => exact h
  | tail _ hlast ih =>
    cases hlast with
    | call hn => exact ih.2 _ _ hn
    | loop => exact ih.elim

/-- A run that does not go on has a result, or makes a call that has no answer. -/
theorem stuck_of_wpFin {c d : Prog S α × σ} {Q : α → σ → Prop} (h : c.1.WpFin E Q c.2)
    (hst : Steps E c d) (hstuck : ∀ e, ¬Step E d e) :
    (∃ a, d.1 = .ret a) ∨ ∃ o k, d.1 = .call o k ∧ ∀ r s', ¬E.next d.2 o r s' := by
  have hend := wpFin_steps hst h
  obtain ⟨p, s⟩ := d
  cases p with
  | ret a => exact .inl ⟨a, rfl⟩
  | call o k => exact .inr ⟨o, k, rfl, fun r s' hn => hstuck _ (.call hn)⟩
  | loop x body k => exact hend.elim

theorem ends_of_wpFin (hanswer : ∀ s o, E.guard s o → ∃ r s', E.next s o r s') {p : Prog S α}
    {Q : α → σ → Prop} {s : σ} (h : p.WpFin E Q s) : Ends E Q (p, s) := by
  induction p generalizing s with
  | ret a => exact .ret h
  | call o k ih =>
    obtain ⟨r, s', hn⟩ := hanswer s o h.1
    refine .step (.call hn) fun e he => ?_
    cases he with
    | call hn' => exact ih _ (h.2 _ _ hn')
  | loop x body k _ _ => exact h.elim

end Rules

/-- Steps do not depend on the guards. -/
theorem step_of_next {E F : Env S σ} (hnext : ∀ s o r s', E.next s o r s' → F.next s o r s')
    {c d : Prog S α × σ} (h : Step E c d) : Step F c d := by
  cases h with
  | call hn => exact .call (hnext _ _ _ _ hn)
  | loop => exact .loop

theorem Ends.of_next {E F : Env S σ} (hnext : ∀ s o r s', E.next s o r s' ↔ F.next s o r s')
    {Q : α → σ → Prop} {c : Prog S α × σ} (h : Ends E Q c) : Ends F Q c := by
  induction h with
  | ret hq => exact .ret hq
  | step hs _ ih =>
    refine .step (step_of_next (fun s o r s' => (hnext s o r s').mp) hs) fun e he => ih e ?_
    exact step_of_next (fun s o r s' => (hnext s o r s').mpr) he

end Prog

/-- The surroundings given by a handler, for programs that make no call it refuses. -/
def Env.answered {S : Signature} {σ : Type} (h : σ → (o : S.Op) → Option (S.Ret o) × σ) :
    Env S σ where
  guard s o := (h s o).1.isSome = true
  next s o r s' := h s o = (some r, s')

namespace Prog
variable {S : Signature} {α σ : Type} {h : σ → (o : S.Op) → Option (S.Ret o) × σ}

theorem wpFin_answer {o : S.Op} {k : S.Ret o → Prog S α} {Q : α → σ → Prop} {s s' : σ}
    {r : S.Ret o} (ho : h s o = (some r, s')) (hk : (k r).WpFin (.answered h) Q s') :
    (Prog.call o k).WpFin (.answered h) Q s := by
  refine ⟨by show (h s o).1.isSome = true; rw [ho]; rfl, fun r' t hn => ?_⟩
  obtain ⟨hr, rfl⟩ := Prod.mk.inj (ho.symm.trans hn)
  obtain rfl := Option.some.inj hr
  exact hk

theorem eval_of_wpFin {p : Prog S α} {Q : α → σ → Prop} {s : σ}
    (hp : p.WpFin (.answered h) Q s) : ∃ a t, p.eval h s = (some a, t) ∧ Q a t := by
  induction p generalizing s with
  | ret a => exact ⟨a, s, rfl, hp⟩
  | call o k ih =>
    obtain ⟨r, hr⟩ := Option.isSome_iff_exists.mp hp.1
    have ho : h s o = (some r, (h s o).2) := by rw [← hr]
    obtain ⟨a, t, heval, hq⟩ := ih r (hp.2 r _ ho)
    exact ⟨a, t, by rw [eval_call, ho]; exact heval, hq⟩
  | loop x body k _ _ => exact hp.elim

end Prog
end Interaction
