import RyzenAdj.Interaction.Finite

/-!
# Linking

The calls of a program over one signature, each carried out by a program over
another. What carries them out may keep a state. A program verified against a
specification of its calls stays verified over anything that meets the
specification, and a run of the linked program is one the specification allows.
-/

namespace Interaction

/-- The calls of two signatures. -/
abbrev Signature.sum (S T : Signature) : Signature where
  Op := S.Op ⊕ T.Op
  Ret := Sum.elim S.Ret T.Ret

/-- The surroundings as the calls of the first signature find them. -/
def Env.first {S T : Signature} {σ : Type} (E : Env (S.sum T) σ) : Env S σ where
  guard s o := E.guard s (.inl o)
  next s o r s' := E.next s (.inl o) r s'

/-- Surroundings in which the calls of a second signature may be made at any time. -/
def Env.beside {S : Signature} (T : Signature) {σ : Type} (E : Env S σ) : Env (S.sum T) σ where
  guard
    | s, .inl o => E.guard s o
    | _, .inr _ => True
  next
    | s, .inl o, r, s' => E.next s o r s'
    | s, .inr _, _, s' => s' = s

/-- What carries out the calls of `S` over `T`, in a state of its own. -/
abbrev Impl (S T : Signature) (ρ : Type) : Type 1 := ρ → (o : S.Op) → Prog T (S.Ret o × ρ)

/-- The implementation of every call meets what `E` says of it; `R` relates the states
that `E` speaks of to those of the implementation. -/
def Impl.Meets {S T : Signature} {σ ρ υ : Type} (impl : Impl S T ρ) (E : Env S σ) (F : Env T υ)
    (R : σ → ρ → υ → Prop) : Prop :=
  ∀ s r t o, R s r t → E.guard s o →
    (impl r o).Wp F (fun x t' => ∃ s', E.next s o x.1 s' ∧ R s' x.2 t') t

/-- The same of an implementation that always comes to an end. -/
def Impl.MeetsFin {S T : Signature} {σ ρ υ : Type} (impl : Impl S T ρ) (E : Env S σ) (F : Env T υ)
    (R : σ → ρ → υ → Prop) : Prop :=
  ∀ s r t o, R s r t → E.guard s o →
    (impl r o).WpFin F (fun x t' => ∃ s', E.next s o x.1 s' ∧ R s' x.2 t') t

namespace Prog
variable {S T : Signature} {α β τ σ ρ υ : Type}

/-- A program over the first signature as one over both. -/
def inl {α : Type} : Prog S α → Prog (S.sum T) α
  | .ret a => .ret a
  | .call o k => .call (.inl o) fun r => (k r).inl
  | .loop x body k => .loop x (fun y => (body y).inl) fun b => (k b).inl

@[simp] theorem inl_ret (a : α) : (Prog.ret a : Prog S α).inl (T := T) = .ret a := rfl

theorem wp_inl {E : Env (S.sum T) σ} {p : Prog S α} {Q : α → σ → Prop} {s : σ} :
    p.inl.Wp E Q s ↔ p.Wp E.first Q s := by
  induction p generalizing s with
  | ret a => rfl
  | call o k ih =>
    have hk : ∀ r s', (k r).inl.Wp E Q s' ↔ (k r).Wp E.first Q s' := fun r s' => ih r
    exact and_congr_right fun _ => forall_congr' fun r => forall_congr' fun s' =>
      imp_congr_right fun _ => hk r s'
  | loop x body k ihb ihk =>
    have hk : (fun b => (k b).inl.Wp E Q) = fun b => (k b).Wp E.first Q :=
      funext fun b => funext fun t => propext (ihk b)
    simp only [inl, Wp, hk, ihb]

theorem wpFin_inl {E : Env (S.sum T) σ} {p : Prog S α} {Q : α → σ → Prop} {s : σ} :
    p.inl.WpFin E Q s ↔ p.WpFin E.first Q s := by
  induction p generalizing s with
  | ret a => rfl
  | call o k ih =>
    have hk : ∀ r s', (k r).inl.WpFin E Q s' ↔ (k r).WpFin E.first Q s' := fun r s' => ih r
    exact and_congr_right fun _ => forall_congr' fun r => forall_congr' fun s' =>
      imp_congr_right fun _ => hk r s'
  | loop x body k _ _ => rfl

end Prog

/-- The calls of a further signature are passed on. -/
def Impl.beside {S T : Signature} {ρ : Type} (impl : Impl S T ρ) (C : Signature) :
    Impl (S.sum C) (T.sum C) ρ
  | r, .inl o => (impl r o).inl
  | r, .inr o => .call (S := T.sum C) (.inr o) fun a => .ret (a, r)

theorem Impl.Meets.beside {S T C : Signature} {σ ρ υ : Type} {impl : Impl S T ρ} {E : Env S σ}
    {F : Env T υ} {R : σ → ρ → υ → Prop} (h : impl.Meets E F R) :
    (impl.beside C).Meets (E.beside C) (F.beside C) R := by
  intro s r t o hR hguard
  cases o with
  | inl o => exact Prog.wp_inl.mpr (h s r t o hR hguard)
  | inr o =>
    refine ⟨trivial, fun a t' hnext => ?_⟩
    rw [show t' = t from hnext]
    exact ⟨s, rfl, hR⟩

namespace Prog
variable {S T : Signature} {α β τ σ ρ υ : Type}

def turn : (τ ⊕ β) × ρ → (τ × ρ) ⊕ (β × ρ)
  | (.inl y, r) => .inl (y, r)
  | (.inr b, r) => .inr (b, r)

def link (impl : Impl S T ρ) {α : Type} : Prog S α → ρ → Prog T (α × ρ)
  | .ret a, r => .ret (a, r)
  | .call o k, r => (impl r o).bind fun x => (k x.1).link impl x.2
  | .loop x body k, r =>
    .loop (x, r) (fun y => ((body y.1).link impl y.2).bind fun z => .ret (turn z))
      fun b => (k b.1).link impl b.2

@[simp] theorem link_ret (impl : Impl S T ρ) (a : α) (r : ρ) :
    (Prog.ret a).link impl r = .ret (a, r) := rfl

@[simp] theorem link_call (impl : Impl S T ρ) (o : S.Op) (k : S.Ret o → Prog S α) (r : ρ) :
    (Prog.call o k).link impl r = (impl r o).bind fun x => (k x.1).link impl x.2 := rfl

section Rules
variable {impl : Impl S T ρ} {E : Env S σ} {F : Env T υ} {R : σ → ρ → υ → Prop}

/-- The rule for a linked program: verify it against the specification of its calls. -/
theorem wp_link (h : impl.Meets E F R) {p : Prog S α} {Q : α → σ → Prop} {s : σ} {r : ρ} {t : υ}
    (hR : R s r t) (hp : p.Wp E Q s) :
    (p.link impl r).Wp F (fun x t' => ∃ s', Q x.1 s' ∧ R s' x.2 t') t := by
  induction p generalizing s r t with
  | ret a => exact ⟨s, hp, hR⟩
  | call o k ih =>
    apply wp_seq F (h s r t o hR hp.1)
    intro x t' hx
    obtain ⟨s', hnext, hR'⟩ := hx
    exact ih x.1 hR' (hp.2 x.1 s' hnext)
  | loop x body k ihb ihk =>
    obtain ⟨I, hx, hstep⟩ := hp
    apply wp_loop F (fun y u => ∃ s', I y.1 s' ∧ R s' y.2 u) ⟨s, hx, hR⟩
    intro y u hy
    obtain ⟨s', hI, hR'⟩ := hy
    apply wp_seq F (ihb y.1 hR' (hstep y.1 s' hI))
    intro z v hz
    obtain ⟨z, r'⟩ := z
    obtain ⟨s'', hend, hR''⟩ := hz
    cases z with
    | inl y' => exact ⟨s'', hend, hR''⟩
    | inr b => exact ihk b hR'' hend

theorem wpFin_link (h : impl.MeetsFin E F R) {p : Prog S α} {Q : α → σ → Prop} {s : σ} {r : ρ}
    {t : υ} (hR : R s r t) (hp : p.WpFin E Q s) :
    (p.link impl r).WpFin F (fun x t' => ∃ s', Q x.1 s' ∧ R s' x.2 t') t := by
  induction p generalizing s r t with
  | ret a => exact ⟨s, hp, hR⟩
  | call o k ih =>
    apply wpFin_seq (h s r t o hR hp.1)
    intro x t' hx
    obtain ⟨s', hnext, hR'⟩ := hx
    exact ih x.1 hR' (hp.2 x.1 s' hnext)
  | loop x body k _ _ => exact hp.elim

end Rules

/-- The calls of a program are in order, whatever the state it begins in. -/
def Passes (E : Env S σ) (p : Prog S α) : Prop := ∀ s, p.Wp E (fun _ _ => True) s

section Passing
variable {E : Env S σ}

theorem passes_ret (a : α) : Passes E (.ret a : Prog S α) := fun _ => trivial

theorem passes_call {o : S.Op} {k : S.Ret o → Prog S α} (hguard : ∀ s, E.guard s o)
    (hk : ∀ r, Passes E (k r)) : Passes E (.call o k) :=
  fun s => ⟨hguard s, fun r s' _ => hk r s'⟩

theorem passes_bind {p : Prog S α} {f : α → Prog S β} (hp : Passes E p)
    (hf : ∀ a, Passes E (f a)) : Passes E (p.bind f) :=
  fun s => wp_seq E (hp s) fun a s' _ => hf a s'

theorem passes_ite {c : Prop} [Decidable c] {p q : Prog S α} (hp : c → Passes E p)
    (hq : ¬c → Passes E q) : Passes E (if c then p else q) :=
  fun s => wp_ite E (fun h => hp h s) fun h => hq h s

theorem passes_inl {E : Env (S.sum T) σ} {p : Prog S α} (h : Passes E.first p) :
    Passes E p.inl :=
  fun s => wp_inl.mpr (h s)

theorem passes_link {impl : Impl S T ρ} {F : Env T υ} (h : ∀ r o, Passes F (impl r o))
    (p : Prog S α) (r : ρ) : Passes F (p.link impl r) := by
  have hmeets : impl.Meets (Env.only fun _ => True) F (fun _ _ _ => True) :=
    fun _ r t o _ _ => wp_mono F (h r o t) fun _ _ _ => ⟨(), trivial, trivial⟩
  intro t
  apply wp_mono F (wp_link hmeets (s := ()) trivial wp_only_true)
  exact fun _ _ _ => trivial

theorem passes_beside {C : Signature} {impl : Impl S T ρ} {F : Env T υ}
    (h : ∀ r o, Passes F (impl r o)) (r : ρ) (o : (S.sum C).Op) :
    Passes (F.beside C) (impl.beside C r o) := by
  cases o with
  | inl o => exact passes_inl (h r o)
  | inr o => exact passes_call (fun _ => trivial) fun _ => passes_ret _

end Passing
end Prog

/-- One implementation over another. -/
def Impl.over {S T U : Signature} {ρ τ : Type} (impl : Impl S T ρ) (below : Impl T U τ) :
    Impl S U (ρ × τ) :=
  fun r o => ((impl r.1 o).link below r.2).bind fun x => .ret (x.1.1, (x.1.2, x.2))

theorem Impl.Meets.over {S T U : Signature} {σ ρ υ τ ω : Type} {impl : Impl S T ρ} {E : Env S σ}
    {F : Env T υ} {R : σ → ρ → υ → Prop} {below : Impl T U τ} {G : Env U ω}
    {R' : υ → τ → ω → Prop} (h : impl.Meets E F R) (h' : below.Meets F G R') :
    (impl.over below).Meets E G fun s r w => ∃ t, R s r.1 t ∧ R' t r.2 w := by
  intro s r w o hR hguard
  obtain ⟨t, hR, hR'⟩ := hR
  apply Prog.wp_seq G (Prog.wp_link h' hR' (h s r.1 t o hR hguard))
  intro x w' hx
  obtain ⟨t', ⟨s', hnext, hR₁⟩, hR₂⟩ := hx
  exact ⟨s', hnext, t', hR₁, hR₂⟩

end Interaction
