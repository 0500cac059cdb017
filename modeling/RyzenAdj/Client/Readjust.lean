import RyzenAdj.Client.Library

/-!
# A client that watches (`examples/readjust.py`)

The script reads the fast limit every three seconds and sets its limits again
when something has changed it. It never releases its handle and never looks at
what `refresh_table` returns.
-/

namespace RyzenAdj
open Interaction Api

/-- What the script does besides calling the library. -/
inductive Python.Op where
  | print (text : String)
  | stderr (text : String)
  | sleep (seconds : Nat)

abbrev python : Signature := ⟨Python.Op, fun _ => Unit⟩

abbrev script : Signature := library.sum python

namespace Readjust

def lib (o : Library.Op) : Prog script (Library.Ret o) := .perform (S := script) (.inl o)
def own (o : Python.Op) : Prog script Unit := .perform (S := script) (.inr o)

/-- `round` of a C `float`, given by its bits: to the nearest, a tie to the even one. NaN and the
infinities raise an exception. The magnitude is taken in units of `2 ^ -149`. -/
def round (w : Word) : Option Int :=
  let exponent := (w >>> 23 &&& 0xFF).toNat
  let fraction := (w &&& 0x7FFFFF).toNat
  if exponent = 0xFF then none
  else
    let units := if exponent = 0 then fraction else (2 ^ 23 + fraction) * 2 ^ (exponent - 1)
    let one := 2 ^ 149
    let whole := units / one
    let rest := units % one
    let nearest := if one < 2 * rest ∨ (2 * rest = one ∧ whole % 2 = 1) then whole + 1 else whole
    some (if w >>> 31 = 1 then -nearest else nearest)

example : round 0x420C0000 = some 35 ∧ round 0x420E0000 = some 36 ∧ round 0xC0200000 = some (-2) ∧
    round nan = none := by decide

def errorMessage (functionName : String) (res : Int) : String :=
  if res = -1 then functionName ++ " is not supported on this family\n"
  else if res = -3 then functionName ++ " is not supported on this SMU\n"
  else if res = -4 then functionName ++ " is rejected by SMU\n"
  else functionName ++ " did fail with " ++ toString res ++ "\n"

/-- `adjust` and `enable`: the field, the function of that name and, for `adjust`, the value. -/
structure Adjustment where
  field : String
  function : SetFunction
  value : Word
  deriving DecidableEq

def adjust (a : Adjustment) : Prog script Unit := do
  let res ← lib (.set a.function a.value)
  if res ≠ 0 then own (.stderr (errorMessage ("set_" ++ a.field) res))

def adjustments : List Adjustment :=
  [⟨"fast_limit", .fastLimit, 35000⟩, ⟨"slow_limit", .slowLimit, 22000⟩,
    ⟨"slow_time", .slowTime, 30⟩, ⟨"tctl_temp", .tctlTemp, 97⟩,
    ⟨"apu_skin_temp_limit", .apuSkinTempLimit, 50⟩, ⟨"vrmmax_current", .vrmmaxCurrent, 100000⟩,
    ⟨"max_performance", .maxPerformance, 0⟩]

def adjustAll : List Adjustment → Prog script Unit
  | [] => return ()
  | a :: rest => do
    adjust a
    adjustAll rest

inductive End where
  | notInitialized
  | raised
  deriving DecidableEq

def turn : Prog script (Unit ⊕ End) := do
  let _ ← lib .refreshTable
  let limit ← lib (.getter getFastLimit 0)
  match round limit with
  | none => return .inr .raised
  | some limit =>
    if limit ≠ 35 then
      own (.print ("reapply limits, because old limit was " ++ toString limit))
      adjustAll adjustments
    own (.sleep 3)
    return .inl ()

def readjust : Prog script End := do
  let ry ← lib .initRyzenadj
  if !ry then
    own (.stderr "RyzenAdj could not get initialized")
    return .notInitialized
  own (.print "Monitor if fast limit is not 35W")
  Prog.iterate () fun _ => turn

/-! ### What it does in its turns -/

structure Watch where
  limit : Option Word
  set : List (SetFunction × Word)

def Watch.initial : Watch := ⟨none, []⟩

def allSet : List (SetFunction × Word) := adjustments.map fun a => (a.function, a.value)

/-- The limit is known, and is not the one wanted. -/
def Watch.Changed (x : Watch) : Prop :=
  ∃ w limit, x.limit = some w ∧ round w = some limit ∧ limit ≠ 35

/-- All is set again where the limit was changed, and nothing otherwise. -/
structure Watch.Settled (x : Watch) : Prop where
  changed : x.Changed → x.set = allSet
  unchanged : ¬x.Changed → x.set = []

def Watch.Allows (x : Watch) : script.Op → Prop
  | .inl .initRyzenadj => True
  | .inl .refreshTable => x.Settled
  | .inl (.getter g _) => g = getFastLimit
  | .inl (.set f value) => x.Changed ∧ x.set ++ [(f, value)] <+: allSet
  | .inl _ => False
  | .inr (.sleep _) => x.Settled
  | .inr _ => True

def watchEnv : Env script Watch where
  guard := Watch.Allows
  next
    | _, .inl .refreshTable, _, x' => x' = ⟨none, []⟩
    | x, .inl (.getter _ _), w, x' => x' = { x with limit := some w }
    | x, .inl (.set f value), _, x' => x' = { x with set := x.set ++ [(f, value)] }
    | x, _, _, x' => x' = x

abbrev readjustEnv : Env script (Usage × Watch) := (libraryEnv.beside python).both watchEnv

/-- How it stands at the end: nothing was made of the handle, or the limit was no number. -/
def Ended (e : End) (y : Usage × Watch) : Prop :=
  match e with
  | .notInitialized => y.1 = .over
  | .raised => y.1 = .tableAsked ∧ ∃ w, y.2.limit = some w ∧ round w = none

section Turns
variable {α : Type} {u : Usage} {x : Watch} {Q : α → Usage × Watch → Prop}

theorem own_spec {o : Python.Op} {f : Unit → Prog script α} (hallowed : x.Allows (.inr o))
    (hf : (f ()).Wp readjustEnv Q (u, x)) : ((own o).bind f).Wp readjustEnv Q (u, x) := by
  refine ⟨⟨trivial, hallowed⟩, fun _ y hnext => ?_⟩
  have hx : y.2 = x := by
    cases o <;> exact hnext.2
  rw [show y = (u, x) from Prod.ext hnext.1 hx]
  exact hf

theorem lib_spec {o : Library.Op} {f : Library.Ret o → Prog script α} (hguard : u.Allows o)
    (hallowed : x.Allows (.inl o))
    (hf : ∀ r x', watchEnv.next x (.inl o) r x' → (f r).Wp readjustEnv Q (u.after o r, x')) :
    ((lib o).bind f).Wp readjustEnv Q (u, x) := by
  refine ⟨⟨hguard, hallowed⟩, fun r y hnext => ?_⟩
  rw [show y = (u.after o r, y.2) from Prod.ext hnext.1 rfl]
  exact hf r y.2 hnext.2

theorem adjust_spec (a : Adjustment) (hu : u = .tableAsked) (hchanged : x.Changed)
    (hnext : x.set ++ [(a.function, a.value)] <+: allSet) :
    (adjust a).Wp readjustEnv
      (fun _ y => y = (u, { x with set := x.set ++ [(a.function, a.value)] })) (u, x) := by
  subst hu
  refine lib_spec (o := .set a.function a.value) ?_ ⟨hchanged, hnext⟩ fun (res : Int) x' hx' => ?_
  · trivial
  rw [show x' = { x with set := x.set ++ [(a.function, a.value)] } from hx']
  apply Prog.wp_ite
  · intro _
    apply own_spec (f := Prog.ret) (o := .stderr (errorMessage ("set_" ++ a.field) res))
    · trivial
    · exact rfl
  · exact fun _ => rfl

theorem adjustAll_spec {rest : List Adjustment} (hu : u = .tableAsked) (hchanged : x.Changed)
    (hset : x.set ++ rest.map (fun a => (a.function, a.value)) = allSet) :
    (adjustAll rest).Wp readjustEnv (fun _ y => y = (u, { x with set := allSet })) (u, x) := by
  induction rest generalizing x with
  | nil =>
    rw [List.map_nil, List.append_nil] at hset
    rw [← hset]
    exact rfl
  | cons a rest ih =>
    rw [List.map_cons, List.append_cons] at hset
    apply Prog.wp_seq _ (adjust_spec a hu hchanged ⟨_, hset⟩)
    intro _ y hy
    subst hy
    exact ih (x := { x with set := x.set ++ [(a.function, a.value)] }) hchanged hset

/-- What a turn comes to: all is settled and it goes on, or the script is over. -/
def AfterTurn (z : Unit ⊕ End) (y : Usage × Watch) : Prop :=
  match z with
  | .inl _ => y.1 = .tableAsked ∧ y.2.Settled
  | .inr e => Ended e y

theorem turn_spec (hu : u.HasHandle) (hsettled : x.Settled) :
    turn.Wp readjustEnv AfterTurn (u, x) := by
  -- the end of a turn that goes on
  have hsleep : ∀ x' : Watch, x'.Settled →
      ((own (.sleep 3)).bind fun _ => Prog.ret (.inl ())).Wp readjustEnv AfterTurn
        (.tableAsked, x') := by
    intro x' hx'
    apply own_spec
    · exact hx'
    · exact ⟨rfl, hx'⟩
  apply lib_spec (o := .refreshTable) hu hsettled
  intro _ x' hx'
  rw [show x' = ⟨none, []⟩ from hx']
  refine lib_spec (o := .getter getFastLimit 0) ?_ rfl fun (w : Word) x' hx' => ?_
  · trivial
  rw [show x' = ⟨some w, []⟩ from hx']
  cases hround : round w with
  | none => exact ⟨rfl, w, rfl, hround⟩
  | some limit =>
    apply Prog.wp_ite
    · intro hlimit
      have hchanged : Watch.Changed ⟨some w, []⟩ := ⟨w, limit, rfl, hround, hlimit⟩
      apply own_spec
      · trivial
      · apply Prog.wp_seq _ (adjustAll_spec rfl hchanged rfl)
        intro _ y hy
        subst hy
        exact hsleep _ ⟨fun _ => rfl, fun h => absurd hchanged h⟩
    · intro hlimit
      have hunchanged : ¬Watch.Changed ⟨some w, []⟩ := by
        intro hchanged
        obtain ⟨w', limit', hw, hround', hne⟩ := hchanged
        obtain rfl := Option.some.inj hw
        rw [hround] at hround'
        rw [← Option.some.inj hround'] at hne
        exact hlimit hne
      exact hsleep _ ⟨fun h => absurd h hunchanged, fun _ => rfl⟩

end Turns

/-- The whole script: its calls are in order and its turns settled, for ever or until it ends. -/
theorem readjust_spec : readjust.Wp readjustEnv Ended (.notYet, .initial) := by
  have hinitial : Watch.initial.Settled := by
    refine ⟨fun h => ?_, fun _ => rfl⟩
    obtain ⟨w, _, hw, -⟩ := h
    cases hw
  refine lib_spec (o := .initRyzenadj) rfl ?_ fun (ry : Bool) x' hx' => ?_
  · trivial
  rw [show x' = .initial from hx']
  cases ry with
  | false => exact own_spec (o := .stderr _) (show Watch.initial.Allows (.inr _) from trivial) rfl
  | true =>
    refine own_spec (o := .print _) (show Watch.initial.Allows (.inr _) from trivial) ?_
    apply Prog.wp_loop _ (fun _ y => y.1.HasHandle ∧ y.2.Settled) ⟨trivial, hinitial⟩
    intro _ y hy
    obtain ⟨u, x⟩ := y
    apply Prog.wp_mono _ (turn_spec hy.1 hy.2)
    intro z y hz
    cases z with
    | inl _ =>
      obtain ⟨hu, hsettled⟩ := hz
      refine ⟨?_, hsettled⟩
      rw [hu]
      trivial
    | inr e => exact hz

/-- In any run of the script, whatever the library answers: the calls on the handle are in order, a
limit is set only where the one last read is another than 35 W, all seven are set then, in their
order, before the table is refreshed again, and the script ends only where there is no handle or
what it has read is no number. -/
theorem readjust_turns :
    (∀ o k y, Prog.Steps readjustEnv (readjust, (.notYet, .initial)) (.call o k, y) →
      (libraryEnv.beside python).guard y.1 o ∧ y.2.Allows o) ∧
    ∀ e y, Prog.Steps readjustEnv (readjust, (.notYet, .initial)) (.ret e, y) → Ended e y := by
  constructor
  · intro o k y hsteps
    exact Prog.wp_guard _ hsteps readjust_spec
  · intro e y hsteps
    exact Prog.wp_result _ hsteps readjust_spec

theorem readjust_keeps :
    readjust.Wp (libraryEnv.beside python) (fun e u => e = .raised → u = .tableAsked) .notYet := by
  have hrefines : (libraryEnv.beside python).Refines readjustEnv fun y u => u = y.1 := by
    intro y u o hu hguard
    subst hu
    refine ⟨hguard.1, fun r u' hnext => ?_⟩
    obtain ⟨x', hx'⟩ : ∃ x', watchEnv.next y.2 o r x' := by
      cases o with
      | inl o => cases o <;> exact ⟨_, rfl⟩
      | inr o => exact ⟨_, rfl⟩
    exact ⟨(u', x'), ⟨hnext, hx'⟩, rfl⟩
  apply Prog.wp_mono _ (Prog.wp_refine hrefines rfl readjust_spec)
  intro e u hu he
  obtain ⟨y, hend, rfl⟩ := hu
  subst he
  exact hend.1

end Readjust
end RyzenAdj
