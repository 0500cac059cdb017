import Mathlib.Logic.Relation

/-!
# Interaction programs

A program that talks to its surroundings only through the calls of a
signature. The surroundings stay a parameter: a program may be run against a
deterministic handler (`eval`, `run`).
-/

namespace Interaction

/-- The calls a program may make, and the type of the answer to each. -/
structure Signature where
  Op : Type
  Ret : Op → Type

inductive Prog (S : Signature) : Type → Type 1 where
  | ret {α : Type} (a : α) : Prog S α
  | call {α : Type} (o : S.Op) (k : S.Ret o → Prog S α) : Prog S α
  | loop {τ β α : Type} (x : τ) (body : τ → Prog S (τ ⊕ β)) (k : β → Prog S α) : Prog S α

namespace Prog
variable {S : Signature} {α β γ σ : Type}

def bind {α β : Type} : Prog S α → (α → Prog S β) → Prog S β
  | .ret a, f => f a
  | .call o k, f => .call o fun r => (k r).bind f
  | .loop x body k, f => .loop x body fun b => (k b).bind f

instance : Monad (Prog S) where
  pure := .ret
  bind := .bind

def perform (o : S.Op) : Prog S (S.Ret o) := .call o .ret

/-- Repeat `body` from `x` until it leaves with a result. -/
def iterate {τ : Type} (x : τ) (body : τ → Prog S (τ ⊕ β)) : Prog S β := .loop x body .ret

@[simp] theorem pure_eq (a : α) : (pure a : Prog S α) = .ret a := rfl
@[simp] theorem bind_eq (p : Prog S α) (f : α → Prog S β) : p >>= f = p.bind f := rfl
@[simp] theorem ret_bind (a : α) (f : α → Prog S β) : (Prog.ret a).bind f = f a := rfl
@[simp] theorem call_bind (o : S.Op) (k : S.Ret o → Prog S α) (f : α → Prog S β) :
    (Prog.call o k).bind f = .call o fun r => (k r).bind f := rfl
@[simp] theorem loop_bind {τ : Type} (x : τ) (body : τ → Prog S (τ ⊕ β)) (k : β → Prog S α)
    (f : α → Prog S γ) : (Prog.loop x body k).bind f = .loop x body fun b => (k b).bind f := rfl
@[simp] theorem perform_bind (o : S.Op) (f : S.Ret o → Prog S β) :
    (perform o).bind f = .call o f := rfl
@[simp] theorem iterate_bind {τ : Type} (x : τ) (body : τ → Prog S (τ ⊕ β)) (f : β → Prog S γ) :
    (iterate x body).bind f = .loop x body f := rfl

theorem bind_assoc (p : Prog S α) (f : α → Prog S β) (g : β → Prog S γ) :
    (p.bind f).bind g = p.bind fun a => (f a).bind g := by
  induction p with
  | ret a => rfl
  | call o k ih => simp only [call_bind, ih]
  | loop x body k _ ih => simp only [loop_bind, ih]

/-- Continue with the result of `x`, unless it stopped. -/
def andThen (x : Option β × σ) (f : β → σ → Option α × σ) : Option α × σ :=
  match x with
  | (some b, s) => f b s
  | (none, s) => (none, s)

@[simp] theorem andThen_some (b : β) (s : σ) (f : β → σ → Option α × σ) :
    andThen (some b, s) f = f b s := rfl
@[simp] theorem andThen_none (s : σ) (f : β → σ → Option α × σ) :
    andThen (none, s) f = (none, s) := rfl

/-- Evaluation of a loop-free program against a deterministic handler. A handler
that refuses a call stops the program there; the state reached is kept, so
that what happened before the stop can still be inspected. -/
def eval (h : σ → (o : S.Op) → Option (S.Ret o) × σ) {α : Type} : Prog S α → σ → Option α × σ
  | .ret a, s => (some a, s)
  | .call o k, s => andThen (h s o) fun r s' => (k r).eval h s'
  | .loop _ _ _, s => (none, s)

section Eval
variable (h : σ → (o : S.Op) → Option (S.Ret o) × σ)

@[simp] theorem eval_ret (a : α) (s : σ) : (Prog.ret a).eval h s = (some a, s) := rfl

theorem eval_call (o : S.Op) (k : S.Ret o → Prog S α) (s : σ) :
    (Prog.call o k).eval h s = andThen (h s o) fun r s' => (k r).eval h s' := rfl

theorem eval_bind (p : Prog S α) (f : α → Prog S β) (s : σ) :
    (p.bind f).eval h s = andThen (p.eval h s) fun a s' => (f a).eval h s' := by
  induction p generalizing s with
  | ret a => rfl
  | call o k ih =>
    simp only [call_bind, eval_call]
    rcases h s o with ⟨_ | r, s'⟩
    · rfl
    · exact ih r f s'
  | loop x body k _ _ => rfl

end Eval

/-- Evaluation with loops: `fuel` bounds the number of steps taken. -/
def run (h : σ → (o : S.Op) → Option (S.Ret o) × σ) :
    Nat → {α : Type} → Prog S α → σ → Option (α × σ)
  | 0, _, _, _ => none
  | _ + 1, _, .ret a, s => some (a, s)
  | n + 1, _, .call o k, s =>
    match h s o with
    | (some r, s') => run h n (k r) s'
    | (none, _) => none
  | n + 1, _, .loop x body k, s =>
    match run h n (body x) s with
    | some (.inl y, s') => run h n (.loop y body k) s'
    | some (.inr b, s') => run h n (k b) s'
    | none => none

end Prog
end Interaction
