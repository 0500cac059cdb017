import RyzenAdj.Interaction.Program

/-!
# Small steps and preconditions

The surroundings of a program as a relation: which answers a call may get and
how the state moves with it. `Wp` is the precondition calculus for safety: the
guard of every call is met whatever the surroundings answer, and every result
satisfies the postcondition. A loop is verified by an invariant.
-/

namespace Interaction

/-- The surroundings of a program: `guard` is what a call needs, `next` what it may do. -/
structure Env (S : Signature) (σ : Type) where
  guard : σ → S.Op → Prop
  next : σ → (o : S.Op) → S.Ret o → σ → Prop

/-- The surroundings given by a deterministic handler. -/
def Env.ofHandler {S : Signature} {σ : Type} (h : σ → (o : S.Op) → Option (S.Ret o) × σ) :
    Env S σ where
  guard _ _ := True
  next s o r s' := h s o = (some r, s')

/-- Surroundings that may answer anything; a call needs `P`. -/
def Env.only {S : Signature} (P : S.Op → Prop) : Env S Unit where
  guard _ o := P o
  next _ _ _ _ := True

namespace Prog
variable {S : Signature} {α β γ σ : Type}

def again {τ : Type} (body : τ → Prog S (τ ⊕ β)) (k : β → Prog S α) : τ ⊕ β → Prog S α
  | .inl y => .loop y body k
  | .inr b => k b

theorem again_bind {τ : Type} (body : τ → Prog S (τ ⊕ β)) (k : β → Prog S α) (f : α → Prog S γ)
    (z : τ ⊕ β) : (again body k z).bind f = again body (fun b => (k b).bind f) z := by
  cases z <;> rfl

inductive Step (E : Env S σ) {α : Type} : Prog S α × σ → Prog S α × σ → Prop where
  | call {o : S.Op} {k : S.Ret o → Prog S α} {s s' : σ} {r : S.Ret o} :
      E.next s o r s' → Step E (.call o k, s) (k r, s')
  | loop {τ β : Type} {x : τ} {body : τ → Prog S (τ ⊕ β)} {k : β → Prog S α} {s : σ} :
      Step E (.loop x body k, s) ((body x).bind (again body k), s)

/-- Any number of steps. -/
def Steps (E : Env S σ) {α : Type} : Prog S α × σ → Prog S α × σ → Prop :=
  Relation.ReflTransGen (Step E)

def Wp (E : Env S σ) {α : Type} : Prog S α → (α → σ → Prop) → σ → Prop
  | .ret a, Q, s => Q a s
  | .call o k, Q, s => E.guard s o ∧ ∀ r s', E.next s o r s' → (k r).Wp E Q s'
  | .loop (τ := τ) x body k, Q, s =>
    ∃ I : τ → σ → Prop, I x s ∧
      ∀ y t, I y t → (body y).Wp E (Sum.elim I fun b => (k b).Wp E Q) t

section Rules
variable (E : Env S σ)

@[simp] theorem wp_ret (a : α) (Q : α → σ → Prop) (s : σ) : (Prog.ret a).Wp E Q s ↔ Q a s :=
  Iff.rfl

@[simp] theorem wp_call (o : S.Op) (k : S.Ret o → Prog S α) (Q : α → σ → Prop) (s : σ) :
    (Prog.call o k).Wp E Q s ↔ E.guard s o ∧ ∀ r s', E.next s o r s' → (k r).Wp E Q s' :=
  Iff.rfl

theorem wp_mono {p : Prog S α} {Q R : α → σ → Prop} {s : σ} (h : p.Wp E Q s)
    (hqr : ∀ a t, Q a t → R a t) : p.Wp E R s := by
  induction p generalizing s with
  | ret a => exact hqr a s h
  | call o k ih => exact ⟨h.1, fun r s' hn => ih r (h.2 r s' hn) hqr⟩
  | loop x body k ihb ihk =>
    obtain ⟨I, hx, hstep⟩ := h
    refine ⟨I, hx, fun y t hy => ihb y (hstep y t hy) ?_⟩
    rintro (z | b) u hu
    · exact hu
    · exact ihk b hu hqr

theorem wp_bind {p : Prog S α} {f : α → Prog S β} {Q : β → σ → Prop} {s : σ} :
    (p.bind f).Wp E Q s ↔ p.Wp E (fun a => (f a).Wp E Q) s := by
  induction p generalizing s with
  | ret a => rfl
  | call o k ih => simp only [call_bind, wp_call, ih]
  | loop x body k _ ih =>
    have hk : (fun b => ((k b).bind f).Wp E Q) = fun b => (k b).Wp E fun a => (f a).Wp E Q :=
      funext fun b => funext fun t => propext (ih b)
    simp only [loop_bind, Wp, hk]

/-- One program after the other, by what is known of the first. -/
theorem wp_seq {p : Prog S α} {f : α → Prog S β} {R : α → σ → Prop} {Q : β → σ → Prop} {s : σ}
    (hp : p.Wp E R s) (hf : ∀ a t, R a t → (f a).Wp E Q t) : (p.bind f).Wp E Q s :=
  (wp_bind E).mpr (wp_mono E hp hf)

theorem wp_ite {c : Prop} [Decidable c] {p q : Prog S α} {Q : α → σ → Prop} {s : σ}
    (hp : c → p.Wp E Q s) (hq : ¬ c → q.Wp E Q s) : (if c then p else q).Wp E Q s := by
  by_cases h : c
  · rw [if_pos h]
    exact hp h
  · rw [if_neg h]
    exact hq h

/-- The invariant rule for loops. -/
theorem wp_loop {τ : Type} {x : τ} {body : τ → Prog S (τ ⊕ β)} {k : β → Prog S α}
    {Q : α → σ → Prop} {s : σ} (I : τ → σ → Prop) (hx : I x s)
    (hbody : ∀ y t, I y t → (body y).Wp E (Sum.elim I fun b => (k b).Wp E Q) t) :
    (Prog.loop x body k).Wp E Q s :=
  ⟨I, hx, hbody⟩

theorem wp_unroll {τ : Type} {x : τ} {body : τ → Prog S (τ ⊕ β)} {k : β → Prog S α}
    {Q : α → σ → Prop} {s : σ} (h : (Prog.loop x body k).Wp E Q s) :
    ((body x).bind (again body k)).Wp E Q s := by
  obtain ⟨I, hx, hstep⟩ := h
  apply wp_seq E (hstep x s hx)
  rintro (z | b) t ht
  · exact ⟨I, ht, hstep⟩
  · exact ht

theorem wp_step {p q : Prog S α} {s t : σ} {Q : α → σ → Prop}
    (hst : Step E (p, s) (q, t)) (h : p.Wp E Q s) : q.Wp E Q t := by
  cases hst with
  | call hn => exact h.2 _ _ hn
  | loop => exact wp_unroll E h

theorem wp_steps {c d : Prog S α × σ} {Q : α → σ → Prop} (hst : Steps E c d)
    (h : c.1.Wp E Q c.2) : d.1.Wp E Q d.2 := by
  induction hst with
  | refl => exact h
  | tail _ hlast ih => exact wp_step E hlast ih

theorem wp_result {p : Prog S α} {a : α} {s t : σ} {Q : α → σ → Prop}
    (hst : Steps E (p, s) (.ret a, t)) (h : p.Wp E Q s) : Q a t :=
  wp_steps E hst h

theorem wp_guard {p : Prog S α} {o : S.Op} {k : S.Ret o → Prog S α} {s t : σ}
    {Q : α → σ → Prop} (hst : Steps E (p, s) (.call o k, t)) (h : p.Wp E Q s) : E.guard t o :=
  (wp_steps E hst h).1

/-- What every call keeps when its guard holds, holds in every state a verified
program reaches. -/
theorem wp_always {P : σ → Prop}
    (hP : ∀ s o r s', E.guard s o → E.next s o r s' → P s → P s') {p q : Prog S α} {s t : σ}
    {Q : α → σ → Prop} (hs : P s) (h : p.Wp E Q s) (hst : Steps E (p, s) (q, t)) : P t := by
  have hboth : ∀ d, Steps E (p, s) d → d.1.Wp E Q d.2 ∧ P d.2 := by
    intro d hd
    induction hd with
    | refl => exact ⟨h, hs⟩
    | tail _ hlast ih =>
      refine ⟨wp_step E hlast ih.1, ?_⟩
      cases hlast with
      | call hn => exact hP _ _ _ _ ih.1.1 hn ih.2
      | loop => exact ih.2
  exact (hboth (q, t) hst).2

theorem wp_only_true {p : Prog S α} {s : Unit} :
    p.Wp (Env.only fun _ => True) (fun _ _ => True) s := by
  induction p generalizing s with
  | ret a => trivial
  | call o k ih => exact ⟨trivial, fun r s' _ => ih r⟩
  | loop x body k ihb ihk =>
    refine ⟨fun _ _ => True, trivial, fun y t _ => wp_mono _ (ihb y) ?_⟩
    intro z u _
    cases z with
    | inl y' => trivial
    | inr b => exact ihk b

theorem wp_only_mono {P R : S.Op → Prop} (hpr : ∀ o, P o → R o) {p : Prog S α}
    {Q : α → Unit → Prop} (hp : p.Wp (Env.only P) Q ()) : p.Wp (Env.only R) Q () := by
  induction p with
  | ret a => exact hp
  | call o k ih => exact ⟨hpr o hp.1, fun r u hn => ih r (hp.2 r u hn)⟩
  | loop x body k ihb ihk =>
    obtain ⟨J, hx, hstep⟩ := hp
    refine ⟨J, hx, fun y t hy => wp_mono _ (ihb y (hstep y t hy)) ?_⟩
    intro z u hz
    cases z with
    | inl y' => exact hz
    | inr b => exact ihk b hz

/-- A program that only makes calls of one kind is safe wherever such calls are safe
and keep an invariant. -/
theorem wp_of_only {P : S.Op → Prop} {I : σ → Prop}
    (hop : ∀ o s, P o → I s → E.guard s o ∧ ∀ r s', E.next s o r s' → I s')
    {p : Prog S α} {Q : α → Unit → Prop} {s : σ} (hs : I s) (hp : p.Wp (Env.only P) Q ()) :
    p.Wp E (fun a t => Q a () ∧ I t) s := by
  induction p generalizing s with
  | ret a => exact ⟨hp, hs⟩
  | call o k ih =>
    obtain ⟨hguard, hnext⟩ := hop o s hp.1 hs
    exact ⟨hguard, fun r s' hn => ih r (hnext r s' hn) (hp.2 r () trivial)⟩
  | loop x body k ihb ihk =>
    obtain ⟨J, hx, hstep⟩ := hp
    refine ⟨fun y t => J y () ∧ I t, ⟨hx, hs⟩, ?_⟩
    rintro y t ⟨hy, ht⟩
    refine wp_mono E (ihb y ht (hstep y () hy)) ?_
    rintro (z | b) u ⟨hu, hI⟩
    · exact ⟨hu, hI⟩
    · exact ihk b hI hu

theorem wp_silent {P : S.Op → Prop} {s : σ}
    (hop : ∀ o, P o → E.guard s o ∧ ∀ r s', E.next s o r s' → s' = s)
    {p : Prog S α} {Q : α → Unit → Prop} (hp : p.Wp (Env.only P) Q ()) :
    p.Wp E (fun a t => Q a () ∧ t = s) s := by
  refine wp_of_only E (I := (· = s)) (fun o t ho ht => ?_) rfl hp
  rw [ht]
  exact hop o ho

end Rules

section Runs
variable {E : Env S σ}

theorem Steps.bind {p q : Prog S α} {s t : σ} (hst : Steps E (p, s) (q, t))
    (f : α → Prog S β) : Steps E (p.bind f, s) (q.bind f, t) := by
  generalize hc : (p, s) = c at hst
  generalize hd : (q, t) = d at hst
  induction hst generalizing q t with
  | refl =>
    obtain ⟨rfl, rfl⟩ := Prod.mk.inj (hc.trans hd.symm)
    exact .refl
  | @tail m d' _ hlast ih =>
    subst hd
    rcases m with ⟨m, u⟩
    refine (ih rfl).tail ?_
    cases hlast with
    | call hn => exact .call hn
    | @loop _ _ x body k =>
      have hturn : ((body x).bind (again body k)).bind f =
          (body x).bind (again body fun b => (k b).bind f) := by
        rw [bind_assoc]
        exact congrArg _ (funext (again_bind body k f))
      rw [hturn]
      exact .loop

theorem Steps.seq {p : Prog S α} {f : α → Prog S β} {a : α} {s t : σ} {c : Prog S β × σ}
    (hp : Steps E (p, s) (.ret a, t)) (hf : Steps E (f a, t) c) : Steps E (p.bind f, s) c :=
  (hp.bind f).trans hf

theorem Steps.again {τ : Type} {x y : τ} {body : τ → Prog S (τ ⊕ β)} {k : β → Prog S α} {s t : σ}
    {c : Prog S α × σ} (hbody : Steps E (body x, s) (.ret (.inl y), t))
    (hrest : Steps E (.loop y body k, t) c) : Steps E (.loop x body k, s) c :=
  .head .loop (hbody.seq hrest)

theorem Steps.leave {τ : Type} {x : τ} {b : β} {body : τ → Prog S (τ ⊕ β)} {k : β → Prog S α}
    {s t : σ} {c : Prog S α × σ} (hbody : Steps E (body x, s) (.ret (.inr b), t))
    (hrest : Steps E (k b, t) c) : Steps E (.loop x body k, s) c :=
  .head .loop (hbody.seq hrest)

theorem Steps.of_next {F : Env S σ} (hnext : ∀ s o r s', E.next s o r s' → F.next s o r s')
    {c d : Prog S α × σ} (hst : Steps E c d) : Steps F c d := by
  induction hst with
  | refl => exact .refl
  | tail _ hlast ih =>
    refine ih.tail ?_
    cases hlast with
    | call hn => exact .call (hnext _ _ _ _ hn)
    | loop => exact .loop

theorem run_steps {h : σ → (o : S.Op) → Option (S.Ret o) × σ}
    (hE : ∀ s o r s', h s o = (some r, s') → E.next s o r s') {n : Nat} {p : Prog S α} {s : σ}
    {a : α} {t : σ} (hr : run h n p s = some (a, t)) : Steps E (p, s) (.ret a, t) := by
  induction n generalizing α s t with
  | zero => simp [run] at hr
  | succ n ih =>
    cases p with
    | ret b =>
      simp only [run, Option.some.injEq, Prod.mk.injEq] at hr
      obtain ⟨rfl, rfl⟩ := hr
      exact .refl
    | call o k =>
      simp only [run] at hr
      split at hr
      next r s' ho => exact .head (.call (hE _ _ _ _ ho)) (ih hr)
      next => simp at hr
    | loop x body k =>
      simp only [run] at hr
      split at hr
      next y s' hb =>
        have hturn := (ih hb).bind (again body k)
        exact .head .loop (hturn.trans (ih hr))
      next b s' hb =>
        have hturn := (ih hb).bind (again body k)
        exact .head .loop (hturn.trans (ih hr))
      next => simp at hr

end Runs
end Prog
end Interaction
