import RyzenAdj.Interaction.Trace

/-!
# Total correctness

`WpTotal` is `Wp` with a variant for every loop: the invariant carries a value
that goes down, in some well-founded order, with every turn that is not the
last. What is verified so has no infinite run. A program that is correct in one
surroundings and total in others is both where they answer together.
-/

namespace Interaction
namespace Prog
variable {S T : Signature} {α β σ υ : Type}

def WpTotal (E : Env S σ) {α : Type} : Prog S α → (α → σ → Prop) → σ → Prop
  | .ret a, Q, s => Q a s
  | .call o k, Q, s => E.guard s o ∧ ∀ r s', E.next s o r s' → (k r).WpTotal E Q s'
  | .loop (τ := τ) x body k, Q, s =>
    ∃ (V : Type) (lt : V → V → Prop) (I : V → τ → σ → Prop), WellFounded lt ∧ (∃ v, I v x s) ∧
      ∀ v y t, I v y t → (body y).WpTotal E
        (Sum.elim (fun y' t' => ∃ v', lt v' v ∧ I v' y' t') fun b => (k b).WpTotal E Q) t

section Rules
variable {E : Env S σ}

theorem wpTotal_mono {p : Prog S α} {Q R : α → σ → Prop} {s : σ} (h : p.WpTotal E Q s)
    (hqr : ∀ a t, Q a t → R a t) : p.WpTotal E R s := by
  induction p generalizing s with
  | ret a => exact hqr a s h
  | call o k ih => exact ⟨h.1, fun r s' hn => ih r (h.2 r s' hn) hqr⟩
  | loop x body k ihb ihk =>
    obtain ⟨V, lt, I, hwf, hx, hstep⟩ := h
    refine ⟨V, lt, I, hwf, hx, fun v y t hy => ihb y (hstep v y t hy) ?_⟩
    intro z u hz
    cases z with
    | inl y' => exact hz
    | inr b => exact ihk b hz hqr

theorem wpTotal_bind {p : Prog S α} {f : α → Prog S β} {Q : β → σ → Prop} {s : σ}
    (h : p.WpTotal E (fun a => (f a).WpTotal E Q) s) : (p.bind f).WpTotal E Q s := by
  induction p generalizing s with
  | ret a => exact h
  | call o k ih => exact ⟨h.1, fun r s' hn => ih r (h.2 r s' hn)⟩
  | loop x body k _ ihk =>
    obtain ⟨V, lt, I, hwf, hx, hstep⟩ := h
    refine ⟨V, lt, I, hwf, hx, fun v y t hy => wpTotal_mono (hstep v y t hy) ?_⟩
    intro z u hz
    cases z with
    | inl y' => exact hz
    | inr b => exact ihk b hz

theorem wpTotal_seq {p : Prog S α} {f : α → Prog S β} {R : α → σ → Prop} {Q : β → σ → Prop}
    {s : σ} (hp : p.WpTotal E R s) (hf : ∀ a t, R a t → (f a).WpTotal E Q t) :
    (p.bind f).WpTotal E Q s :=
  wpTotal_bind (wpTotal_mono hp hf)

theorem wpTotal_ite {c : Prop} [Decidable c] {p q : Prog S α} {Q : α → σ → Prop} {s : σ}
    (hp : c → p.WpTotal E Q s) (hq : ¬c → q.WpTotal E Q s) :
    (if c then p else q).WpTotal E Q s := by
  by_cases h : c
  · rw [if_pos h]
    exact hp h
  · rw [if_neg h]
    exact hq h

/-- A program without loops needs no variant. -/
theorem wpTotal_of_wpFin {p : Prog S α} {Q : α → σ → Prop} {s : σ} (h : p.WpFin E Q s) :
    p.WpTotal E Q s := by
  induction p generalizing s with
  | ret a => exact h
  | call o k ih => exact ⟨h.1, fun r s' hn => ih r (h.2 r s' hn)⟩
  | loop x body k _ _ => exact h.elim

theorem wp_of_wpTotal {p : Prog S α} {Q : α → σ → Prop} {s : σ} (h : p.WpTotal E Q s) :
    p.Wp E Q s := by
  induction p generalizing s with
  | ret a => exact h
  | call o k ih => exact ⟨h.1, fun r s' hn => ih r (h.2 r s' hn)⟩
  | loop x body k ihb ihk =>
    obtain ⟨V, lt, I, -, hx, hstep⟩ := h
    refine ⟨fun y t => ∃ v, I v y t, hx, fun y t hy => ?_⟩
    obtain ⟨v, hv⟩ := hy
    apply wp_mono E (ihb y (hstep v y t hv))
    intro z u hz
    cases z with
    | inl y' =>
      obtain ⟨v', -, hv'⟩ := hz
      exact ⟨v', hv'⟩
    | inr b => exact ihk b hz

theorem wpTotal_inl {E : Env (S.sum T) σ} {p : Prog S α} {Q : α → σ → Prop} {s : σ} :
    p.inl.WpTotal E Q s ↔ p.WpTotal E.first Q s := by
  induction p generalizing s with
  | ret a => rfl
  | call o k ih =>
    have hk : ∀ r s', (k r).inl.WpTotal E Q s' ↔ (k r).WpTotal E.first Q s' := fun r s' => ih r
    exact and_congr_right fun _ => forall_congr' fun r => forall_congr' fun s' =>
      imp_congr_right fun _ => hk r s'
  | loop x body k ihb ihk =>
    have hk : (fun b => (k b).inl.WpTotal E Q) = fun b => (k b).WpTotal E.first Q :=
      funext fun b => funext fun t => propext (ihk b)
    simp only [inl, WpTotal, hk, ihb]

/-- What is correct in one surroundings and total in others is both where they answer together. -/
theorem wpTotal_both {F : Env S υ} {p : Prog S α} {Q : α → σ → Prop} {R : α → υ → Prop} {s : σ}
    {t : υ} (hp : p.Wp E Q s) (hq : p.WpTotal F R t) :
    p.WpTotal (E.both F) (fun a x => Q a x.1 ∧ R a x.2) (s, t) := by
  induction p generalizing s t with
  | ret a => exact ⟨hp, hq⟩
  | call o k ih =>
    refine ⟨⟨hp.1, hq.1⟩, fun r x hx => ?_⟩
    exact ih r (hp.2 r x.1 hx.1) (hq.2 r x.2 hx.2)
  | loop x body k ihb ihk =>
    obtain ⟨J, hJ, hpstep⟩ := hp
    obtain ⟨V, lt, I, hwf, ⟨v, hv⟩, hqstep⟩ := hq
    refine ⟨V, lt, fun v y x => J y x.1 ∧ I v y x.2, hwf, ⟨v, hJ, hv⟩, ?_⟩
    intro v y x hx
    apply wpTotal_mono (ihb y (hpstep y x.1 hx.1) (hqstep v y x.2 hx.2))
    intro z u hz
    cases z with
    | inl y' =>
      obtain ⟨hy, v', hlt, hv'⟩ := hz
      exact ⟨v', hlt, hy, hv'⟩
    | inr b => exact ihk b hz.1 hz.2

end Rules

/-- Whatever happens, the program comes to an end and leaves what `f` sees of the state. -/
def TotalKeeping {τ : Type} (E : Env S σ) (f : σ → τ) (p : Prog S α) : Prop :=
  ∀ s, p.WpTotal E (fun _ s' => f s' = f s) s

section Keeping
variable {τ : Type} {E : Env S σ} {f : σ → τ}

theorem keeping_ret (a : α) : TotalKeeping E f (.ret a : Prog S α) := fun _ => rfl

theorem keeping_call {o : S.Op} {k : S.Ret o → Prog S α} (hguard : ∀ s, E.guard s o)
    (hkeep : ∀ s r s', E.next s o r s' → f s' = f s) (hk : ∀ r, TotalKeeping E f (k r)) :
    TotalKeeping E f (.call o k) := by
  intro s
  refine ⟨hguard s, fun r s' hnext => wpTotal_mono (hk r s') ?_⟩
  intro a t ht
  rw [ht, hkeep s r s' hnext]

theorem keeping_bind {p : Prog S α} {g : α → Prog S β} (hp : TotalKeeping E f p)
    (hg : ∀ a, TotalKeeping E f (g a)) : TotalKeeping E f (p.bind g) := by
  intro s
  apply wpTotal_seq (hp s)
  intro a t ht
  apply wpTotal_mono (hg a t)
  intro b u hu
  rw [hu, ht]

theorem keeping_ite {c : Prop} [Decidable c] {p q : Prog S α} (hp : c → TotalKeeping E f p)
    (hq : ¬c → TotalKeeping E f q) : TotalKeeping E f (if c then p else q) :=
  fun s => wpTotal_ite (fun h => hp h s) fun h => hq h s

theorem keeping_inl {E : Env (S.sum T) σ} {p : Prog S α} (h : TotalKeeping E.first f p) :
    TotalKeeping E f p.inl :=
  fun s => wpTotal_inl.mpr (h s)

end Keeping

section Ends
variable {E : Env S σ}

theorem ends_bind {p : Prog S α} {f : α → Prog S β} {Q : α → σ → Prop} {R : β → σ → Prop} {s : σ}
    (hp : Ends E Q (p, s)) (hf : ∀ a t, Q a t → Ends E R (f a, t)) : Ends E R (p.bind f, s) := by
  -- by the run of the first program
  have hall : ∀ c : Prog S α × σ, Ends E Q c → Ends E R (c.1.bind f, c.2) := by
    intro c hc
    induction hc with
    | ret hq => exact hf _ _ hq
    | @step c d hstep _ ih =>
      obtain ⟨q, t⟩ := c
      cases hstep with
      | call hn =>
        refine .step (.call hn) fun e he => ?_
        cases he with
        | call hn' => exact ih _ (.call hn')
      | @loop τ γ x body k =>
        have hagain : ((body x).bind (again body k)).bind f =
            (body x).bind (again body fun b => (k b).bind f) := by
          rw [bind_assoc]
          congr 1
          funext z
          exact again_bind body k f z
        have hnext := ih _ .loop
        rw [hagain] at hnext
        refine .step .loop fun e he => ?_
        cases he with
        | loop => exact hnext
  exact hall (p, s) hp

/-- Where every call that is in order is answered, a total program comes to its result. -/
theorem ends_of_wpTotal (hanswer : ∀ s o, E.guard s o → ∃ r s', E.next s o r s') {p : Prog S α}
    {Q : α → σ → Prop} {s : σ} (h : p.WpTotal E Q s) : Ends E Q (p, s) := by
  induction p generalizing s with
  | ret a => exact .ret h
  | call o k ih =>
    obtain ⟨r, s', hn⟩ := hanswer s o h.1
    refine .step (.call hn) fun e he => ?_
    cases he with
    | call hn' => exact ih _ (h.2 _ _ hn')
  | loop x body k ihb ihk =>
    obtain ⟨V, lt, I, hwf, ⟨v, hv⟩, hstep⟩ := h
    -- the loop from any turn on, by induction on the variant
    have hturns : ∀ v y t, I v y t → Ends E Q (Prog.loop y body k, t) := by
      intro v
      induction v using hwf.induction with
      | _ v ih =>
        intro y t hy
        refine .step .loop fun e he => ?_
        cases he with
        | loop =>
          apply ends_bind (ihb y (hstep v y t hy))
          intro z u hz
          cases z with
          | inl y' =>
            obtain ⟨v', hlt, hv'⟩ := hz
            exact ih v' hlt y' u hv'
          | inr b => exact ihk b hz
    exact hturns v x s hv

end Ends
end Prog

/-- The implementation of every call is total, and meets what `E` says of it. -/
def Impl.MeetsTotal {S T : Signature} {σ ρ υ : Type} (impl : Impl S T ρ) (E : Env S σ)
    (F : Env T υ) (R : σ → ρ → υ → Prop) : Prop :=
  ∀ s r t o, R s r t → E.guard s o →
    (impl r o).WpTotal F (fun x t' => ∃ s', E.next s o x.1 s' ∧ R s' x.2 t') t

section Link
variable {S T C : Signature} {σ ρ υ : Type} {impl : Impl S T ρ} {E : Env S σ} {F : Env T υ}
  {R : σ → ρ → υ → Prop}

theorem Impl.MeetsTotal.beside (h : impl.MeetsTotal E F R) :
    (impl.beside C).MeetsTotal (E.beside C) (F.beside C) R := by
  intro s r t o hR hguard
  cases o with
  | inl o => exact Prog.wpTotal_inl.mpr (h s r t o hR hguard)
  | inr o =>
    refine ⟨trivial, fun a t' hnext => ?_⟩
    rw [show t' = t from hnext]
    exact ⟨s, rfl, hR⟩

theorem Prog.wpTotal_link {α : Type} (h : impl.MeetsTotal E F R) {p : Prog S α}
    {Q : α → σ → Prop} {s : σ} {r : ρ} {t : υ} (hR : R s r t) (hp : p.WpTotal E Q s) :
    (p.link impl r).WpTotal F (fun x t' => ∃ s', Q x.1 s' ∧ R s' x.2 t') t := by
  induction p generalizing s r t with
  | ret a => exact ⟨s, hp, hR⟩
  | call o k ih =>
    apply Prog.wpTotal_seq (h s r t o hR hp.1)
    intro x t' hx
    obtain ⟨s', hnext, hR'⟩ := hx
    exact ih x.1 hR' (hp.2 x.1 s' hnext)
  | loop x body k ihb ihk =>
    obtain ⟨V, lt, I, hwf, ⟨v, hv⟩, hstep⟩ := hp
    refine ⟨V, lt, fun v y u => ∃ s', I v y.1 s' ∧ R s' y.2 u, hwf, ⟨v, s, hv, hR⟩, ?_⟩
    intro v y u hy
    obtain ⟨s', hI, hR'⟩ := hy
    apply Prog.wpTotal_seq (ihb y.1 hR' (hstep v y.1 s' hI))
    intro z w hz
    obtain ⟨z, r'⟩ := z
    obtain ⟨s'', hend, hR''⟩ := hz
    cases z with
    | inl y' =>
      obtain ⟨v', hlt, hv'⟩ := hend
      exact ⟨v', hlt, s'', hv', hR''⟩
    | inr b => exact ihk b hR'' hend

theorem Impl.MeetsFin.total (h : impl.MeetsFin E F R) : impl.MeetsTotal E F R :=
  fun s r t o hR hguard => Prog.wpTotal_of_wpFin (h s r t o hR hguard)

theorem Impl.MeetsTotal.meets (h : impl.MeetsTotal E F R) : impl.Meets E F R :=
  fun s r t o hR hguard => Prog.wp_of_wpTotal (h s r t o hR hguard)

theorem Impl.MeetsTotal.over {U : Signature} {τ ω : Type} {below : Impl T U τ} {G : Env U ω}
    {R' : υ → τ → ω → Prop} (h : impl.MeetsTotal E F R) (h' : below.MeetsTotal F G R') :
    (impl.over below).MeetsTotal E G fun s r w => ∃ t, R s r.1 t ∧ R' t r.2 w := by
  intro s r w o hR hguard
  obtain ⟨t, hR, hR'⟩ := hR
  apply Prog.wpTotal_seq (Prog.wpTotal_link h' hR' (h s r.1 t o hR hguard))
  intro x w' hx
  obtain ⟨t', ⟨s', hnext, hR₁⟩, hR₂⟩ := hx
  exact ⟨s', hnext, t', hR₁, hR₂⟩

end Link
end Interaction
