import RyzenAdj.Api.BackendFlag

/-!
# The access object of a process (`api.c`)

The object that `init_os_access_obj` makes, from its creation to its release:
which calls of `api.c` are in order on it, and how they move it and the flag.
-/

namespace RyzenAdj
open Interaction

/-- The access object of a process. -/
inductive Lifetime where
  | notYet
  | live (obj : OsAccessObj)
  | ended

structure Backend where
  isSmu : Bool
  access : Lifetime

def Backend.initial : Backend := ⟨false, .notYet⟩

/-- The flag and the access object as the calls of `api.c` move them, on a processor of this
family. -/
def backendMove (family : RyzenFamily) (b : Backend) :
    (o : Api.Op) → Api.Ret o → Backend → Prop
  | .cpuidGetFamily, r, b' => r = family ∧ b' = b
  | .getSmu obj smuType, r, b' =>
    (∀ smu, r = some smu → smuOf obj smuType family = some smu) ∧ b' = b
  | .initOsAccessObj, r, b' =>
    ∃ detected, (∀ obj, r = some obj → obj.isKmod = detected) ∧
      b' = ⟨b.isSmu || detected, r.elim .ended .live⟩
  | .freeOsAccessObj _, _, b' => b' = ⟨false, .ended⟩
  | .isUsingSmuDriver, r, b' => r = b.isSmu ∧ b' = b
  | _, _, b' => b' = b

/-- A call is made on the one live access object, with the flag that fits it at every dispatcher
it comes to; such an object is asked for once; nothing undefined is done. -/
structure BackendCall (b : Backend) (o : Api.Op) : Prop where
  fits : OpFits b.isSmu o
  defined : o ≠ .undefined
  live : ∀ obj, o.accessObj = some obj → b.access = .live obj
  once : o = .initOsAccessObj → b.access = .notYet

def backendEnv (family : RyzenFamily) : Env api Backend where
  guard := BackendCall
  next := backendMove family

theorem onHandle_accessObj {obj obj' : OsAccessObj} {o : Api.Op} (ho : OnHandle obj o)
    (h : o.accessObj = some obj') : obj' = obj := by
  cases o with
  | smuServiceReq smu id args => exact (Option.some.inj h).symm.trans ho
  | initMemObj x _ _ => exact (Option.some.inj h).symm.trans ho
  | copyPmTable x _ => exact (Option.some.inj h).symm.trans ho
  | getSmu _ _ => cases ho
  | freeOsAccessObj _ => cases ho
  | _ => cases h

end RyzenAdj
