import RyzenAdj.Interaction.Concurrent

/-!
# Schedules

Runs that are computed. The surroundings answer from a state of their own
making, which is seen as a state of those that a program is verified in; where
there are several processes, a schedule says which goes on, and for how many
actions.
-/

namespace Interaction

namespace Prog
variable {S : Signature} {σ τ α : Type} {E : Env S σ}

def advance (answer : τ → (o : S.Op) → Option (S.Ret o × τ)) :
    Nat → Prog S α → τ → Option (Prog S α × τ)
  | 0, p, t => some (p, t)
  | _ + 1, .ret a, t => some (.ret a, t)
  | n + 1, .call o k, t =>
    match answer t o with
    | none => none
    | some (r, t') => advance answer n (k r) t'
  | n + 1, .loop x body k, t => advance answer n ((body x).bind (again body k)) t

def returned : Prog S α → Option α
  | .ret a => some a
  | _ => none

theorem eq_ret_of_returned {p : Prog S α} {a : α} (h : p.returned = some a) : p = .ret a := by
  cases p with
  | ret b => rw [Option.some.inj h]
  | call o k => cases h
  | loop x body k => cases h

section Computed
variable {answer : τ → (o : S.Op) → Option (S.Ret o × τ)} {seen : τ → σ}
  (hanswer : ∀ t o r t', answer t o = some (r, t') → E.next (seen t) o r (seen t'))
include hanswer

theorem advance_steps {n : Nat} {p q : Prog S α} {t t' : τ}
    (h : advance answer n p t = some (q, t')) : Steps E (p, seen t) (q, seen t') := by
  induction n generalizing p t with
  | zero =>
    cases h
    exact .refl
  | succ n ih =>
    cases p with
    | ret a =>
      cases h
      exact .refl
    | call o k =>
      simp only [advance] at h
      split at h
      next => cases h
      next r t₁ hcall => exact .head (.call (hanswer t o r t₁ hcall)) (ih h)
    | loop x body k => exact .head .loop (ih h)

theorem exists_steps {n : Nat} {p : Prog S α} {t : τ} {P : Prog S α × τ → Bool}
    (h : (advance answer n p t).any P = true) :
    ∃ q t', Steps E (p, seen t) (q, seen t') ∧ P (q, t') = true := by
  obtain ⟨x, hx, hP⟩ := (Option.any_eq_true _ _).mp h
  exact ⟨x.1, x.2, advance_steps hanswer hx, hP⟩

theorem exists_result {n : Nat} {p : Prog S α} {t : τ} {P : α → τ → Bool}
    (h : (advance answer n p t).any (fun x => x.1.returned.any fun a => P a x.2) = true) :
    ∃ a t', Steps E (p, seen t) (.ret a, seen t') ∧ P a t' = true := by
  obtain ⟨q, t', hsteps, hq⟩ := exists_steps hanswer h
  obtain ⟨a, ha, hP⟩ := (Option.any_eq_true _ _).mp hq
  rw [show q = .ret a from eq_ret_of_returned ha] at hsteps
  exact ⟨a, t', hsteps, hP⟩

end Computed
end Prog

/-- Surroundings that compute their answers; no answer means that the call is not provided. -/
structure Bench {S : Signature} {ι σ κ α : Type} (Y : System S ι σ κ α) (τ : Type) where
  seen : τ → σ
  enter : ι → τ → τ
  answer : ι → τ → (o : S.Op) → Option (S.Ret o × τ)
  seen_enter : ∀ i t, seen (enter i t) = Y.enter i (seen t)
  next : ∀ i t o r t', answer i t o = some (r, t') → Y.next i (seen t) o r (seen t')

/-- A call that is begun, or a process that goes on. -/
inductive Slot (ι κ : Type) where
  | start (i : ι) (c : κ)
  | goOn (i : ι) (actions : Nat)

namespace Bench
variable {S : Signature} {ι σ κ α τ : Type} [DecidableEq ι] {Y : System S ι σ κ α} (B : Bench Y τ)

def view (C : Config S ι τ α) : Config S ι σ α := ⟨B.seen C.state, C.task⟩

def started (i : ι) (c : κ) (C : Config S ι τ α) : Config S ι τ α :=
  ⟨B.enter i C.state, Function.update C.task i (some (Y.prog i c))⟩

def step (i : ι) (C : Config S ι τ α) : Option (Act S ι κ α × Config S ι τ α) :=
  match C.task i with
  | none => none
  | some (.ret a) => some (.finish i a, ⟨C.state, Function.update C.task i none⟩)
  | some (.call o k) =>
    match B.answer i C.state o with
    | none => none
    | some (r, t) => some (.op i o r, ⟨t, Function.update C.task i (some (k r))⟩)
  | some (.loop x body k) =>
    some (.turn i, ⟨C.state, Function.update C.task i (some ((body x).bind (Prog.again body k)))⟩)

def steps (i : ι) : Nat → Config S ι τ α → Option (List (Act S ι κ α) × Config S ι τ α)
  | 0, C => some ([], C)
  | n + 1, C =>
    match B.step i C with
    | none => none
    | some (a, D) =>
      match steps i n D with
      | none => none
      | some (as, F) => some (a :: as, F)

def play : List (Slot ι κ) → Config S ι τ α → Option (List (Act S ι κ α) × Config S ι τ α)
  | [], C => some ([], C)
  | .start i c :: slots, C =>
    match C.task i with
    | some _ => none
    | none =>
      match play slots (B.started i c C) with
      | none => none
      | some (as, D) => some (.start i c :: as, D)
  | .goOn i n :: slots, C =>
    match B.steps i n C with
    | none => none
    | some (as, D) =>
      match play slots D with
      | none => none
      | some (bs, F) => some (as ++ bs, F)

section Runs
variable {B}

theorem start_move {i : ι} {C : Config S ι τ α} (c : κ) (hidle : C.task i = none) :
    Y.Move (B.view C) (.start i c) (B.view (B.started i c C)) := by
  simp only [view, started, B.seen_enter]
  exact .start hidle

theorem step_move {i : ι} {C D : Config S ι τ α} {a : Act S ι κ α} (h : B.step i C = some (a, D)) :
    Y.Move (B.view C) a (B.view D) := by
  unfold step at h
  split at h
  next => cases h
  next b htask =>
    cases h
    exact .finish htask
  next o k htask =>
    split at h
    next => cases h
    next r t hanswer =>
      cases h
      exact .op htask (B.next i C.state o r t hanswer)
  next x body k htask =>
    cases h
    exact .turn htask

theorem steps_moves {i : ι} {n : Nat} {C D : Config S ι τ α} {as : List (Act S ι κ α)}
    (h : B.steps i n C = some (as, D)) : Y.Moves (B.view C) as (B.view D) := by
  induction n generalizing C as with
  | zero =>
    cases h
    exact .nil
  | succ n ih =>
    simp only [steps] at h
    split at h
    next => cases h
    next a E hstep =>
      split at h
      next => cases h
      next bs F hrest =>
        cases h
        exact .cons (step_move hstep) (ih hrest)

theorem play_moves {slots : List (Slot ι κ)} {C D : Config S ι τ α} {as : List (Act S ι κ α)}
    (h : B.play slots C = some (as, D)) : Y.Moves (B.view C) as (B.view D) := by
  induction slots generalizing C as with
  | nil =>
    cases h
    exact .nil
  | cons slot slots ih =>
    cases slot with
    | start i c =>
      simp only [play] at h
      split at h
      next => cases h
      next hidle =>
        split at h
        next => cases h
        next bs F hrest =>
          cases h
          exact .cons (start_move c hidle) (ih hrest)
    | goOn i n =>
      simp only [play] at h
      split at h
      next => cases h
      next bs E hsteps =>
        split at h
        next => cases h
        next cs F hrest =>
          cases h
          exact Y.moves_append.mpr ⟨_, steps_moves hsteps, ih hrest⟩

/-- A schedule that comes to something that can be checked is a run that does. -/
theorem exists_moves {slots : List (Slot ι κ)} {C : Config S ι τ α}
    {P : List (Act S ι κ α) × Config S ι τ α → Bool} (h : (B.play slots C).any P = true) :
    ∃ as D, Y.Moves (B.view C) as (B.view D) ∧ P (as, D) = true := by
  obtain ⟨x, hplay, hP⟩ := (Option.any_eq_true _ _).mp h
  exact ⟨x.1, x.2, play_moves hplay, hP⟩

end Runs
end Bench
end Interaction
