import RyzenAdj.Interaction.Semantics

/-!
# Runs that must end

`Wp` says nothing about a program that goes on for ever or waits for an answer.
`Ends` is the total notion, a least fixed point. `WpEnds` asks for it from the
moment a condition on the state holds: from there on the program has no loop
left and no call without an answer.
-/

namespace Interaction
namespace Prog
variable {S : Signature} {α β σ : Type}

/-- Every run from here comes to a result with `Q`; no call on the way stays unanswered. -/
inductive Ends (E : Env S σ) (Q : α → σ → Prop) : Prog S α × σ → Prop where
  | ret {a : α} {s : σ} : Q a s → Ends E Q (.ret a, s)
  | step {c d : Prog S α × σ} : Step E c d → (∀ e, Step E c e → Ends E Q e) → Ends E Q c

theorem Ends.mono {E : Env S σ} {Q R : α → σ → Prop} (hqr : ∀ a s, Q a s → R a s)
    {c : Prog S α × σ} (h : Ends E Q c) : Ends E R c := by
  induction h with
  | ret hq => exact .ret (hqr _ _ hq)
  | step hstep _ ih => exact .step hstep ih

theorem Ends.result {E : Env S σ} {Q : α → σ → Prop} {c : Prog S α × σ} {a : α} {t : σ}
    (h : Ends E Q c) (hst : Steps E c (.ret a, t)) : Q a t := by
  induction h with
  | ret hq =>
    rcases Relation.ReflTransGen.cases_head hst with heq | ⟨d, hstep, -⟩
    · cases heq
      exact hq
    · cases hstep
  | step hstep _ ih =>
    rcases Relation.ReflTransGen.cases_head hst with rfl | ⟨d, hd, hrest⟩
    · cases hstep
    · exact ih d hd hrest

theorem Ends.exists_result {E : Env S σ} {Q : α → σ → Prop} {c : Prog S α × σ} (h : Ends E Q c) :
    ∃ a t, Steps E c (.ret a, t) ∧ Q a t := by
  induction h with
  | @ret a s hq => exact ⟨a, s, .refl, hq⟩
  | @step c d hstep _ ih =>
    obtain ⟨a, t, hrest, hq⟩ := ih d hstep
    exact ⟨a, t, .head hstep hrest, hq⟩

theorem step_ofHandler {h : σ → (o : S.Op) → Option (S.Ret o) × σ} {c d e : Prog S α × σ}
    (hd : Step (.ofHandler h) c d) (he : Step (.ofHandler h) c e) : d = e := by
  cases hd with
  | call hn =>
    cases he with
    | call hn' =>
      have heq := hn.symm.trans hn'
      cases heq
      rfl
  | loop =>
    cases he with
    | loop => rfl

/-- Against a handler there is one run, so that one to a result is all of them. -/
theorem ends_of_steps {h : σ → (o : S.Op) → Option (S.Ret o) × σ} {Q : α → σ → Prop}
    {c : Prog S α × σ} {a : α} {t : σ} (hst : Steps (.ofHandler h) c (.ret a, t)) (hq : Q a t) :
    Ends (.ofHandler h) Q c := by
  induction hst using Relation.ReflTransGen.head_induction_on with
  | refl => exact .ret hq
  | head hstep _ ih => exact .step hstep fun e he => step_ofHandler hstep he ▸ ih

def WpEnds (E : Env S σ) (F : σ → Prop) {α : Type} : Prog S α → (α → σ → Prop) → σ → Prop
  | .ret a, Q, s => Q a s
  | .call o k, Q, s =>
    E.guard s o ∧ (F s → ∃ r s', E.next s o r s') ∧
      ∀ r s', E.next s o r s' → (k r).WpEnds E F Q s'
  | .loop (τ := τ) x body k, Q, s =>
    ∃ I : τ → σ → Prop, I x s ∧
      ∀ y t, I y t → ¬ F t ∧ (body y).WpEnds E F (Sum.elim I fun b => (k b).WpEnds E F Q) t

section Rules
variable {E : Env S σ} {F : σ → Prop}

theorem wpEnds_mono {p : Prog S α} {Q R : α → σ → Prop} {s : σ} (h : p.WpEnds E F Q s)
    (hqr : ∀ a t, Q a t → R a t) : p.WpEnds E F R s := by
  induction p generalizing s with
  | ret a => exact hqr a s h
  | call o k ih => exact ⟨h.1, h.2.1, fun r s' hn => ih r (h.2.2 r s' hn) hqr⟩
  | loop x body k ihb ihk =>
    obtain ⟨I, hx, hstep⟩ := h
    refine ⟨I, hx, fun y t hy => ⟨(hstep y t hy).1, ihb y (hstep y t hy).2 ?_⟩⟩
    intro z u hz
    cases z with
    | inl y' => exact hz
    | inr b => exact ihk b hz hqr

theorem wpEnds_bind {p : Prog S α} {f : α → Prog S β} {Q : β → σ → Prop} {s : σ} :
    (p.bind f).WpEnds E F Q s ↔ p.WpEnds E F (fun a => (f a).WpEnds E F Q) s := by
  induction p generalizing s with
  | ret a => rfl
  | call o k ih => simp only [call_bind, WpEnds, ih]
  | loop x body k _ ih =>
    have hk : (fun b => ((k b).bind f).WpEnds E F Q) =
        fun b => (k b).WpEnds E F fun a => (f a).WpEnds E F Q :=
      funext fun b => funext fun t => propext (ih b)
    simp only [loop_bind, WpEnds, hk]

theorem wpEnds_seq {p : Prog S α} {f : α → Prog S β} {R : α → σ → Prop} {Q : β → σ → Prop}
    {s : σ} (hp : p.WpEnds E F R s) (hf : ∀ a t, R a t → (f a).WpEnds E F Q t) :
    (p.bind f).WpEnds E F Q s :=
  wpEnds_bind.mpr (wpEnds_mono hp hf)

theorem wp_of_wpEnds {p : Prog S α} {Q : α → σ → Prop} {s : σ} (h : p.WpEnds E F Q s) :
    p.Wp E Q s := by
  induction p generalizing s with
  | ret a => exact h
  | call o k ih => exact ⟨h.1, fun r s' hn => ih r (h.2.2 r s' hn)⟩
  | loop x body k ihb ihk =>
    obtain ⟨I, hx, hstep⟩ := h
    refine ⟨I, hx, fun y t hy => wp_mono E (ihb y (hstep y t hy).2) ?_⟩
    intro z u hz
    cases z with
    | inl y' => exact hz
    | inr b => exact ihk b hz

theorem wpEnds_step {p q : Prog S α} {s t : σ} {Q : α → σ → Prop}
    (hst : Step E (p, s) (q, t)) (h : p.WpEnds E F Q s) : q.WpEnds E F Q t := by
  cases hst with
  | call hn => exact h.2.2 _ _ hn
  | loop =>
    obtain ⟨I, hx, hstep⟩ := h
    apply wpEnds_seq (hstep _ _ hx).2
    intro z u hz
    cases z with
    | inl y => exact ⟨I, hz, hstep⟩
    | inr b => exact hz

theorem wpEnds_steps {c d : Prog S α × σ} {Q : α → σ → Prop} (hst : Steps E c d)
    (h : c.1.WpEnds E F Q c.2) : d.1.WpEnds E F Q d.2 := by
  induction hst with
  | refl => exact h
  | tail _ hlast ih => exact wpEnds_step hlast ih

/-- Once the condition holds, and if it stays, the run must end, and end well. -/
theorem ends_of_wpEnds (hF : ∀ s o r s', F s → E.guard s o → E.next s o r s' → F s')
    {p : Prog S α} {Q : α → σ → Prop} {s : σ} (hs : F s) (h : p.WpEnds E F Q s) :
    Ends E (fun a t => Q a t ∧ F t) (p, s) := by
  induction p generalizing s with
  | ret a => exact .ret ⟨h, hs⟩
  | call o k ih =>
    obtain ⟨r, s', hn⟩ := h.2.1 hs
    refine .step (.call hn) ?_
    intro e he
    cases he with
    | call hn' => exact ih _ (hF _ _ _ _ hs h.1 hn') (h.2.2 _ _ hn')
  | loop x body k _ _ =>
    obtain ⟨I, hx, hstep⟩ := h
    exact absurd hs (hstep x s hx).1

theorem wpEnds_ite {c : Prop} [Decidable c] {p q : Prog S α} {Q : α → σ → Prop} {s : σ}
    (hp : c → p.WpEnds E F Q s) (hq : ¬ c → q.WpEnds E F Q s) :
    (if c then p else q).WpEnds E F Q s := by
  by_cases h : c
  · rw [if_pos h]
    exact hp h
  · rw [if_neg h]
    exact hq h

/-- A program that only makes calls of one kind, where such calls keep the condition away. -/
theorem wpEnds_of_only {P : S.Op → Prop} {I : σ → Prop} (hI : ∀ s, I s → ¬ F s)
    (hop : ∀ o s, P o → I s → E.guard s o ∧ ∀ r s', E.next s o r s' → I s')
    {p : Prog S α} {Q : α → Unit → Prop} {s : σ} (hs : I s) (hp : p.Wp (Env.only P) Q ()) :
    p.WpEnds E F (fun a t => Q a () ∧ I t) s := by
  induction p generalizing s with
  | ret a => exact ⟨hp, hs⟩
  | call o k ih =>
    obtain ⟨hguard, hnext⟩ := hop o s hp.1 hs
    refine ⟨hguard, fun hFs => absurd hFs (hI s hs), ?_⟩
    exact fun r s' hn => ih r (hnext r s' hn) (hp.2 r () trivial)
  | loop x body k ihb ihk =>
    obtain ⟨J, hx, hstep⟩ := hp
    refine ⟨fun y t => J y () ∧ I t, ⟨hx, hs⟩, ?_⟩
    intro y t hyt
    refine ⟨hI t hyt.2, wpEnds_mono (ihb y hyt.2 (hstep y () hyt.1)) ?_⟩
    intro z u hzu
    cases z with
    | inl y' => exact hzu
    | inr b => exact ihk b hzu.2 hzu.1

end Rules
end Prog
end Interaction
