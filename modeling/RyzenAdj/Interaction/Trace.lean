import Mathlib.Computability.Language
import Mathlib.Order.CompletePartialOrder
import RyzenAdj.Interaction.Link

/-!
# Traces

What is seen of the calls of a program, as a word over an alphabet of events,
and the languages such words belong to. A program is said to speak a language
when the calls of each of its runs, whatever they are answered, spell a word of
it; the parts of a program contribute factors of a product.
-/

namespace Interaction
variable {S T : Signature} {σ υ ε : Type}

/-- The same surroundings beside a record of what is seen of the calls. -/
def Env.traced (E : Env S σ) (obs : (o : S.Op) → S.Ret o → List ε) : Env S (σ × List ε) where
  guard x o := E.guard x.1 o
  next x o r x' := E.next x.1 o r x'.1 ∧ x'.2 = x.2 ++ obs o r

/-- Surroundings that may answer what `A` allows, any call being in order. -/
def Env.answering (A : (o : S.Op) → S.Ret o → Prop) : Env S Unit where
  guard _ _ := True
  next _ o r _ := A o r

/-- Two surroundings that answer together. -/
def Env.both (E : Env S σ) (F : Env S υ) : Env S (σ × υ) where
  guard x o := E.guard x.1 o ∧ F.guard x.2 o
  next x o r x' := E.next x.1 o r x'.1 ∧ F.next x.2 o r x'.2

/-- `F` asks for no more and allows no more than `E`, by a relation between their states. -/
def Env.Refines (F : Env S υ) (E : Env S σ) (R : σ → υ → Prop) : Prop :=
  ∀ s t o, R s t → E.guard s o →
    F.guard t o ∧ ∀ r t', F.next t o r t' → ∃ s', E.next s o r s' ∧ R s' t'

namespace Prog
variable {α β : Type}

section Surroundings
variable {E : Env S σ} {F : Env S υ}

/-- What holds in two surroundings holds where they answer together. -/
theorem wpFin_both {p : Prog S α} {Q : α → σ → Prop} {R : α → υ → Prop} {s : σ} {t : υ}
    (hp : p.WpFin E Q s) (hq : p.Wp F R t) :
    p.WpFin (E.both F) (fun a x => Q a x.1 ∧ R a x.2) (s, t) := by
  induction p generalizing s t with
  | ret a => exact ⟨hp, hq⟩
  | call o k ih =>
    refine ⟨⟨hp.1, hq.1⟩, fun r x hx => ?_⟩
    exact ih r (hp.2 r x.1 hx.1) (hq.2 r x.2 hx.2)
  | loop x body k _ _ => exact hp.elim

theorem wpFin_refine {R : σ → υ → Prop} (h : F.Refines E R) {p : Prog S α} {Q : α → σ → Prop}
    {s : σ} {t : υ} (hR : R s t) (hp : p.WpFin E Q s) :
    p.WpFin F (fun a t' => ∃ s', Q a s' ∧ R s' t') t := by
  induction p generalizing s t with
  | ret a => exact ⟨s, hp, hR⟩
  | call o k ih =>
    obtain ⟨hguard, hnext⟩ := h s t o hR hp.1
    refine ⟨hguard, fun r t' ht => ?_⟩
    obtain ⟨s', hs, hR'⟩ := hnext r t' ht
    exact ih r hR' (hp.2 r s' hs)
  | loop x body k _ _ => exact hp.elim

theorem wp_refine {R : σ → υ → Prop} (h : F.Refines E R) {p : Prog S α} {Q : α → σ → Prop}
    {s : σ} {t : υ} (hR : R s t) (hp : p.Wp E Q s) :
    p.Wp F (fun a t' => ∃ s', Q a s' ∧ R s' t') t := by
  induction p generalizing s t with
  | ret a => exact ⟨s, hp, hR⟩
  | call o k ih =>
    obtain ⟨hguard, hnext⟩ := h s t o hR hp.1
    refine ⟨hguard, fun r t' ht => ?_⟩
    obtain ⟨s', hs, hR'⟩ := hnext r t' ht
    exact ih r hR' (hp.2 r s' hs)
  | loop x body k ihb ihk =>
    obtain ⟨I, hx, hstep⟩ := hp
    apply wp_loop F (fun y u => ∃ s', I y s' ∧ R s' u) ⟨s, hx, hR⟩
    intro y u hy
    obtain ⟨s', hI, hR'⟩ := hy
    apply wp_mono F (ihb y hR' (hstep y s' hI))
    intro z v hz
    obtain ⟨s'', hend, hR''⟩ := hz
    cases z with
    | inl y' => exact ⟨s'', hend, hR''⟩
    | inr b => exact ihk b hR'' hend

/-- The record may be left out. -/
theorem wpFin_untraced {obs : (o : S.Op) → S.Ret o → List ε} {p : Prog S α}
    {Q : α → σ × List ε → Prop} {s : σ} {w : List ε} (hp : p.WpFin (E.traced obs) Q (s, w)) :
    p.WpFin E (fun a s' => ∃ w', Q a (s', w')) s := by
  induction p generalizing s w with
  | ret a => exact ⟨w, hp⟩
  | call o k ih =>
    refine ⟨hp.1, fun r s' hnext => ?_⟩
    exact ih r (hp.2 r (s', w ++ obs o r) ⟨hnext, rfl⟩)
  | loop x body k _ _ => exact hp.elim

end Surroundings

/-- Whatever the calls of the program are answered within `A`, what is seen of them is a word
of the language of its result. -/
def Says (A : (o : S.Op) → S.Ret o → Prop) (obs : (o : S.Op) → S.Ret o → List ε) (p : Prog S α)
    (L : α → Language ε) : Prop :=
  ∀ w, p.Wp ((Env.answering A).traced obs) (fun a x => ∃ v ∈ L a, x.2 = w ++ v) ((), w)

section Says
variable {A : (o : S.Op) → S.Ret o → Prop} {obs : (o : S.Op) → S.Ret o → List ε}

theorem says_ret {a : α} {L : α → Language ε} (h : [] ∈ L a) : Says A obs (.ret a) L :=
  fun w => ⟨[], h, (List.append_nil w).symm⟩

theorem says_mono {p : Prog S α} {L M : α → Language ε} (h : Says A obs p L)
    (hle : ∀ a, L a ≤ M a) :
    Says A obs p M := by
  intro w
  apply wp_mono _ (h w)
  intro a x hx
  obtain ⟨v, hv, heq⟩ := hx
  exact ⟨v, hle a hv, heq⟩

theorem says_call {o : S.Op} {k : S.Ret o → Prog S α} {L : α → Language ε}
    (h : ∀ r, A o r → Says A obs (k r) fun a => {v | obs o r ++ v ∈ L a}) :
    Says A obs (.call o k) L := by
  refine fun w => ⟨trivial, fun r x hx => ?_⟩
  obtain ⟨u, w'⟩ := x
  obtain rfl : w' = w ++ obs o r := hx.2
  apply wp_mono _ (h r hx.1 (w ++ obs o r))
  intro a y hy
  obtain ⟨v, hv, heq⟩ := hy
  exact ⟨obs o r ++ v, hv, by rw [heq, List.append_assoc]⟩

theorem says_anything {p : Prog S α} : Says A obs p fun _ => ⊤ := by
  intro w
  have hgrows := wp_of_only ((Env.answering A).traced obs) (I := fun x => ∃ v, x.2 = w ++ v)
    (P := fun _ => True) (s := ((), w)) (fun o x _ hx => ?_) ⟨[], (List.append_nil w).symm⟩
    (wp_only_true (p := p))
  · apply wp_mono _ hgrows
    intro a x hx
    obtain ⟨-, v, hv⟩ := hx
    exact ⟨v, trivial, hv⟩
  · obtain ⟨v, hv⟩ := hx
    refine ⟨trivial, fun r x' hnext => ⟨v ++ obs o r, ?_⟩⟩
    rw [hnext.2, hv, List.append_assoc]

/-- One program after the other: a product of their languages. -/
theorem says_seq {p : Prog S α} {f : α → Prog S β} {L : α → Language ε} {M : α → β → Language ε}
    {N : β → Language ε} (hp : Says A obs p L) (hf : ∀ a, (∃ v, v ∈ L a) → Says A obs (f a) (M a))
    (hN : ∀ a b, L a * M a b ≤ N b) : Says A obs (p.bind f) N := by
  intro w
  apply wp_seq _ (hp w)
  intro a x hx
  obtain ⟨u, w'⟩ := x
  obtain ⟨v, hv, heq⟩ := hx
  apply wp_mono _ (hf a ⟨v, hv⟩ w')
  intro b y hy
  obtain ⟨v', hv', heq'⟩ := hy
  refine ⟨v ++ v', hN a b (Language.append_mem_mul hv hv'), ?_⟩
  rw [heq', show w' = w ++ v from heq, List.append_assoc]

/-- The same where what comes after may depend on what was seen before. -/
theorem says_bind {p : Prog S α} {f : α → Prog S β} {L : α → Language ε} {M : β → Language ε}
    (hp : Says A obs p L) (hf : ∀ a v, v ∈ L a → Says A obs (f a) fun b => {u | v ++ u ∈ M b}) :
    Says A obs (p.bind f) M := by
  intro w
  apply wp_seq _ (hp w)
  intro a x hx
  obtain ⟨u, w'⟩ := x
  obtain ⟨v, hv, heq⟩ := hx
  apply wp_mono _ (hf a v hv w')
  intro b y hy
  obtain ⟨v', hv', heq'⟩ := hy
  refine ⟨v ++ v', hv', ?_⟩
  rw [heq', show w' = w ++ v from heq, List.append_assoc]

theorem says_ite {c : Prop} [Decidable c] {p q : Prog S α} {L : α → Language ε}
    (hp : c → Says A obs p L) (hq : ¬c → Says A obs q L) : Says A obs (if c then p else q) L := by
  by_cases h : c
  · rw [if_pos h]
    exact hp h
  · rw [if_neg h]
    exact hq h

theorem says_silent {P : S.Op → Prop} (hobs : ∀ o r, P o → obs o r = []) {p : Prog S α}
    {Q : α → Unit → Prop} (hp : p.Wp (Env.only P) Q ()) :
    Says A obs p fun a => {v | Q a () ∧ v = []} := by
  intro w
  have hkeep : ∀ o, P o → ((Env.answering A).traced obs).guard ((), w) o ∧
      ∀ r x, ((Env.answering A).traced obs).next ((), w) o r x → x = ((), w) := by
    intro o ho
    refine ⟨trivial, fun r x hnext => ?_⟩
    have hw : x.2 = w := by rw [hnext.2, hobs o r ho, List.append_nil]
    exact Prod.ext rfl hw
  apply wp_mono _ (wp_silent _ hkeep hp)
  intro a x hx
  exact ⟨[], ⟨hx.1, rfl⟩, by rw [hx.2, List.append_nil]⟩

theorem says_after {P : S.Op → Prop} (hobs : ∀ o r, P o → obs o r = []) {p : Prog S α}
    {R : α → Prop} (hp : p.Wp (Env.only P) (fun a _ => R a) ()) {f : α → Prog S β}
    {L : β → Language ε} (hf : ∀ a, R a → Says A obs (f a) L) : Says A obs (p.bind f) L := by
  apply says_bind (says_silent hobs hp)
  intro a v hv
  rw [hv.2]
  exact hf a hv.1

/-- A program over the first of two signatures, its events among those of both. -/
theorem says_inl {δ : Type} {B : (o : (S.sum T).Op) → (S.sum T).Ret o → Prop}
    {obs' : (o : (S.sum T).Op) → (S.sum T).Ret o → List δ} {g : ε → δ}
    (hA : ∀ o r, B (.inl o) r → A o r) (hobs : ∀ o r, obs' (.inl o) r = (obs o r).map g)
    {p : Prog S α} {L : α → Language ε} (hp : Says A obs p L) :
    Says B obs' (p.inl (T := T)) fun a => {w | ∃ v ∈ L a, w = v.map g} := by
  intro u
  have hrefines : ((Env.answering B).traced obs').first.Refines ((Env.answering A).traced obs)
      fun x y => y.2 = u ++ x.2.map g := by
    intro x y o hxy _
    refine ⟨trivial, fun r y' hnext => ⟨((), x.2 ++ obs o r), ⟨hA o r hnext.1, rfl⟩, ?_⟩⟩
    have hy' : y'.2 = y.2 ++ (obs o r).map g := hnext.2.trans (congrArg (y.2 ++ ·) (hobs o r))
    simp only [hy', hxy, List.map_append, List.append_assoc]
  have hrun := wp_refine hrefines (s := ((), [])) (t := ((), u)) (List.append_nil u).symm (hp [])
  rw [wp_inl]
  apply wp_mono _ hrun
  intro a y hy
  obtain ⟨x, ⟨v, hv, hx⟩, hy⟩ := hy
  rw [List.nil_append] at hx
  exact ⟨v.map g, ⟨v, hv, rfl⟩, by rw [hy, hx]⟩

end Says
end Prog
end Interaction
