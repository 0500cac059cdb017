import Mathlib.Logic.Function.Basic
import RyzenAdj.Interaction.Semantics

/-!
# Interleaved processes

Processes that each run one call after the other, in any interleaving over a
shared state. A call verified against what one process sees of the state stays
verified, if the others leave that alone.
-/

namespace Interaction

structure System (S : Signature) (ι σ κ α : Type) where
  /-- The program of a call of one process. -/
  prog : ι → κ → Prog S α
  /-- What the beginning of a call does to the state. -/
  enter : ι → σ → σ
  next : ι → σ → (o : S.Op) → S.Ret o → σ → Prop

structure Config (S : Signature) (ι σ α : Type) where
  state : σ
  task : ι → Option (Prog S α)

inductive Act (S : Signature) (ι κ α : Type) where
  | start (i : ι) (c : κ)
  | op (i : ι) (o : S.Op) (r : S.Ret o)
  | turn (i : ι)
  | finish (i : ι) (a : α)

namespace System
variable {S : Signature} {ι σ κ α ν : Type} [DecidableEq ι] (Y : System S ι σ κ α)

/-- One action of one process. -/
inductive Move : Config S ι σ α → Act S ι κ α → Config S ι σ α → Prop where
  | start {C : Config S ι σ α} {i : ι} {c : κ} : C.task i = none →
      Move C (.start i c) ⟨Y.enter i C.state, Function.update C.task i (some (Y.prog i c))⟩
  | op {C : Config S ι σ α} {i : ι} {o : S.Op} {k : S.Ret o → Prog S α} {r : S.Ret o} {s' : σ} :
      C.task i = some (.call o k) → Y.next i C.state o r s' →
      Move C (.op i o r) ⟨s', Function.update C.task i (some (k r))⟩
  | turn {C : Config S ι σ α} {i : ι} {τ β : Type} {x : τ} {body : τ → Prog S (τ ⊕ β)}
      {k : β → Prog S α} : C.task i = some (.loop x body k) →
      Move C (.turn i)
        ⟨C.state, Function.update C.task i (some ((body x).bind (Prog.again body k)))⟩
  | finish {C : Config S ι σ α} {i : ι} {a : α} : C.task i = some (.ret a) →
      Move C (.finish i a) ⟨C.state, Function.update C.task i none⟩

inductive Moves : Config S ι σ α → List (Act S ι κ α) → Config S ι σ α → Prop where
  | nil {C : Config S ι σ α} : Moves C [] C
  | cons {C D F : Config S ι σ α} {a : Act S ι κ α} {as : List (Act S ι κ α)} :
      Move Y C a D → Moves D as F → Moves C (a :: as) F

theorem moves_append {C F : Config S ι σ α} {as bs : List (Act S ι κ α)} :
    Y.Moves C (as ++ bs) F ↔ ∃ D, Y.Moves C as D ∧ Y.Moves D bs F := by
  induction as generalizing C with
  | nil =>
    refine ⟨fun h => ⟨C, .nil, h⟩, fun h => ?_⟩
    obtain ⟨D, hnil, h⟩ := h
    cases hnil
    exact h
  | cons a as ih =>
    refine ⟨fun h => ?_, fun h => ?_⟩
    · cases h with
      | cons ha h =>
        obtain ⟨D, has, hbs⟩ := ih.mp h
        exact ⟨D, .cons ha has, hbs⟩
    · obtain ⟨D, has, hbs⟩ := h
      cases has with
      | cons ha has => exact .cons ha (ih.mpr ⟨D, has, hbs⟩)

/-- A run is a run before any of its actions, the action, and a run after it. -/
theorem moves_middle {C F : Config S ι σ α} {a : Act S ι κ α} {as bs : List (Act S ι κ α)}
    (h : Y.Moves C (as ++ a :: bs) F) :
    ∃ D E, Y.Moves C as D ∧ Y.Move D a E ∧ Y.Moves E bs F := by
  obtain ⟨D, has, hrest⟩ := (moves_append _).mp h
  cases hrest with
  | cons ha hbs => exact ⟨D, _, has, ha, hbs⟩

/-- What every action keeps, every run keeps. -/
theorem moves_keep {P : Config S ι σ α → Prop} {C D : Config S ι σ α} {as : List (Act S ι κ α)}
    (hP : ∀ C a D, Y.Move C a D → P C → P D) (h : Y.Moves C as D) (hC : P C) : P D := by
  induction h with
  | nil => exact hC
  | cons hmove _ ih => exact ih (hP _ _ _ hmove hC)

section Views
variable (E : Env S ν) (view : ι → σ → ν) (Q : α → ν → Prop) (R : ν → Prop)

/-- A running call is verified where its process stands, an idle process stands where a
call may begin. -/
def Standing (task : Option (Prog S α)) (v : ν) : Prop :=
  match task with
  | some p => p.Wp E Q v
  | none => R v

def Verified (C : Config S ι σ α) : Prop := ∀ i, Standing E Q R (C.task i) (view i C.state)

/-- Each process sees its own calls as `E` says, and nothing of the others'. -/
structure Separated : Prop where
  own : ∀ i s o r s', Y.next i s o r s' → E.next (view i s) o r (view i s')
  other : ∀ i j s o r s', i ≠ j → Y.next j s o r s' → view i s' = view i s
  enter_other : ∀ i j s, i ≠ j → view i (Y.enter j s) = view i s
  enter : ∀ i c s, R (view i s) → (Y.prog i c).Wp E Q (view i (Y.enter i s))
  finish : ∀ a v, Q a v → R v

variable {E view Q R}

theorem verified_update {C : Config S ι σ α} (h : Verified E view Q R C) {i : ι} {s' : σ}
    {task : Option (Prog S α)} (hother : ∀ j, j ≠ i → view j s' = view j C.state)
    (hown : Standing E Q R task (view i s')) :
    Verified E view Q R ⟨s', Function.update C.task i task⟩ := by
  intro j
  show Standing E Q R (Function.update C.task i task j) (view j s')
  by_cases hij : j = i
  · subst hij
    rw [Function.update_self]
    exact hown
  · rw [Function.update_of_ne hij, hother j hij]
    exact h j

theorem verified_move (hsep : Y.Separated E view Q R) {C D : Config S ι σ α} {a : Act S ι κ α}
    (hmove : Y.Move C a D) (h : Verified E view Q R C) : Verified E view Q R D := by
  cases hmove with
  | @start i c hidle =>
    have hi := h i
    rw [hidle] at hi
    exact verified_update h (fun j hij => hsep.enter_other j i _ hij) (hsep.enter i c _ hi)
  | @op i o k r s' hrun hnext =>
    have hi := h i
    rw [hrun] at hi
    exact verified_update h (fun j hij => hsep.other j i _ _ _ _ hij hnext)
      (hi.2 _ _ (hsep.own i _ _ _ _ hnext))
  | @turn i τ β x body k hrun =>
    have hi := h i
    rw [hrun] at hi
    exact verified_update h (fun _ _ => rfl) (Prog.wp_unroll E hi)
  | @finish i a hrun =>
    have hi := h i
    rw [hrun] at hi
    exact verified_update h (fun _ _ => rfl) (hsep.finish _ _ hi)

omit [DecidableEq ι] in
theorem Verified.guard {C : Config S ι σ α} (h : Verified E view Q R C) {i : ι} {o : S.Op}
    {k : S.Ret o → Prog S α} (hrun : C.task i = some (.call o k)) :
    E.guard (view i C.state) o := by
  have hi := h i
  rw [hrun] at hi
  exact hi.1

end Views

end System
end Interaction
