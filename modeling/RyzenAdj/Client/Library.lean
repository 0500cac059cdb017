import RyzenAdj.Api.Room
import RyzenAdj.Cli.Tool
import RyzenAdj.Interaction.Total

/-!
# The library as its clients see it (`lib/ryzenadj.h`)

The exported functions as calls with the handle kept out of sight, and the order
in which a client makes them: one handle from its creation to its release, and
`init_table`, if at all, before the table is asked for in any other way.
-/

namespace RyzenAdj
open Interaction Api

inductive Library.Op where
  | initRyzenadj
  | cleanupRyzenadj
  | getCpuFamily
  | getBiosIfVer
  | initTable
  | refreshTable
  | getTableVer
  | getTableSize
  | getter (g : Getter) (core : Word)
  | set (f : SetFunction) (value : Word)

abbrev Library.Ret : Library.Op → Type
  | .initRyzenadj => Bool
  | .cleanupRyzenadj => Unit
  | .getCpuFamily => RyzenFamily
  | .getBiosIfVer => Word
  | .initTable => Int
  | .refreshTable => Int
  | .getTableVer => Word
  | .getTableSize => Nat
  | .getter _ _ => Word
  | .set _ _ => Int

abbrev library : Signature := ⟨Library.Op, Library.Ret⟩

def libraryImpl (depth : Nat) : Impl library api (Option RyzenAccess)
  | _, .initRyzenadj => do
    let ry ← RyzenAdj.initRyzenadj
    return (ry.isSome, ry)
  | none, _ => undefined
  | some ry, .cleanupRyzenadj => do
    RyzenAdj.cleanupRyzenadj ry.osAccess
    return ((), none)
  | some ry, .getCpuFamily => return (RyzenAdj.getCpuFamily ry, some ry)
  | some ry, .getBiosIfVer => do
    let (ver, ry) ← RyzenAdj.getBiosIfVer ry
    return (ver, some ry)
  | some ry, .initTable => do
    let (errorcode, ry) ← RyzenAdj.initTable depth ry
    return (errorcode, some ry)
  | some ry, .refreshTable => do
    let (errorcode, ry) ← RyzenAdj.refreshTable depth ry
    return (errorcode, some ry)
  | some ry, .getTableVer => do
    let (ver, ry) ← RyzenAdj.getTableVer depth ry
    return (ver, some ry)
  | some ry, .getTableSize => do
    let (size, ry) ← RyzenAdj.getTableSize depth ry
    return (size, some ry)
  | some ry, .getter g core =>
    match g.read ry core with
    | none => undefined
    | some value => return (value, some ry)
  | some ry, .set f value => do
    let err ← f.setter.run ry value
    return (err, some ry)

/-- How far a client is with its handle. -/
inductive Usage where
  | notYet
  | fresh
  | tableAsked
  | over
  deriving DecidableEq

def Usage.HasHandle : Usage → Prop
  | .fresh | .tableAsked => True
  | _ => False

def Usage.Allows (u : Usage) : Library.Op → Prop
  | .initRyzenadj => u = .notYet
  | .initTable => u = .fresh
  | _ => u.HasHandle

def Usage.after (u : Usage) : (o : Library.Op) → Library.Ret o → Usage
  | .initRyzenadj, (ry : Bool) => if ry then .fresh else .over
  | .cleanupRyzenadj, _ => .over
  | .initTable, _ | .refreshTable, _ | .getTableVer, _ | .getTableSize, _ => .tableAsked
  | _, _ => u

def libraryEnv : Env library Usage where
  guard := Usage.Allows
  next u o r u' := u' = u.after o r

section Handle
variable {family : RyzenFamily} {ry : RyzenAccess} {b : Backend}

/-- A function on the live handle, as `onHandle_spec` has it, with the messages left out. -/
theorem handle_spec {α : Type} {p : Prog api α} {Q : α → Nat → Prop} {bound : Nat}
    (h : Holds family ry b) (hbound : p.WpFin (requestBound ry.osAccess.isKmod bound True) Q 0)
    (hon : p.Wp (onHandleEnv ry.osAccess) (fun _ _ => True) ()) :
    p.WpFin (backendEnv family) (fun a b' => b' = b ∧ ∃ n, Q a n) b := by
  have hspec := onHandle_spec family h.live h.flag hbound hon Prog.says_anything []
  apply Prog.wpFin_mono (Prog.wpFin_untraced hspec)
  intro a b' hb
  obtain ⟨w, hsame, hQ, -⟩ := hb
  exact ⟨hsame, hQ⟩

/-- The handle between two calls of the client. -/
structure InService (family : RyzenFamily) (u : Usage) (ry : RyzenAccess) (b : Backend) : Prop where
  usage : u.HasHandle
  holds : Holds family ry b
  room : Roomy ry.osAccess.isKmod ry
  fresh : u = .fresh → ry.tableValues = none

theorem InService.after {u u' : Usage} {ry' : RyzenAccess} (h : InService family u ry b)
    (htended : Tended ry.osAccess.isKmod ry ry') (hidle : ry'.tableInitBusy = false)
    (husage : u'.HasHandle) (hfresh : u' = .fresh → ry'.tableValues = none) :
    InService family u' ry' b := by
  refine ⟨husage, h.holds.same htended.same hidle, ?_, hfresh⟩
  rw [htended.same.osAccess]
  exact htended.room

/-- What the client's handle stands for. -/
def Attended (family : RyzenFamily) (u : Usage) (ry : Option RyzenAccess) (b : Backend) : Prop :=
  match ry with
  | some ry => InService family u ry b
  | none => (u = .notYet ∧ b = .initial) ∨ (u = .over ∧ ∀ obj, b.access ≠ .live obj)

/-- A call that asks for the table. -/
theorem asked_served {u : Usage} {o : Library.Op} {p : Prog api (Library.Ret o × RyzenAccess)}
    {bound : Nat} (h : InService family u ry b) (hasked : ∀ r, u.after o r = .tableAsked)
    (hbound : p.WpFin (requestBound ry.osAccess.isKmod bound True)
      (fun r _ => Tended ry.osAccess.isKmod ry r.2 ∧ r.2.tableInitBusy = false) 0)
    (hon : p.Wp (onHandleEnv ry.osAccess) (fun _ _ => True) ()) :
    (p.bind fun r => .ret (r.1, some r.2)).WpFin (backendEnv family)
      (fun x b' => ∃ u', libraryEnv.next u o x.1 u' ∧ Attended family u' x.2 b') b := by
  apply Prog.wpFin_seq (handle_spec h.holds hbound hon)
  intro r b' hr
  obtain ⟨rfl, n, htended, hidle⟩ := hr
  have hserved : InService family .tableAsked r.2 b' :=
    h.after htended hidle trivial fun h => nomatch h
  exact ⟨.tableAsked, (hasked r.1).symm, hserved⟩

theorem getBiosIfVer_served (h : Holds family ry b) :
    (getBiosIfVer ry).WpFin (backendEnv family)
      (fun r b' => b' = b ∧ ∃ ver, r.2 = { ry with biosIfVer := ver }) b := by
  have hbound : (getBiosIfVer ry).WpFin (requestBound ry.osAccess.isKmod 1 True)
      (fun r _ => ∃ ver, r.2 = { ry with biosIfVer := ver }) 0 := by
    apply Prog.wpFin_ite
    · exact fun _ => ⟨ry.biosIfVer, rfl⟩
    · intro _
      apply request_bound (Nat.le_refl 1)
      intro r
      exact Prog.wpFin_ite (fun _ => ⟨ry.biosIfVer, rfl⟩) fun _ => ⟨r.2.arg0, rfl⟩
  have hon := Prog.wp_mono _ (keeps_getBiosIfVer ry h.owns) fun _ _ _ => trivial
  apply Prog.wpFin_mono (handle_spec h hbound hon)
  intro r b' hr
  exact ⟨hr.1, hr.2.choose_spec⟩

/-- Without a handle only `init_ryzenadj` is in order. -/
theorem libraryImpl_opens {depth : Nat} {u : Usage} {o : Library.Op}
    (h : Attended family u none b) (hallowed : u.Allows o) :
    (libraryImpl depth none o).WpFin (backendEnv family)
      (fun x b' => ∃ u', libraryEnv.next u o x.1 u' ∧ Attended family u' x.2 b') b := by
  have hnone : ¬u.HasHandle := by
    intro hhandle
    rcases h with ⟨rfl, -⟩ | ⟨rfl, -⟩
    · exact hhandle
    · exact hhandle
  cases o with
  | initRyzenadj =>
    obtain rfl : u = .notYet := hallowed
    obtain rfl : b = .initial := by
      rcases h with ⟨-, hb⟩ | ⟨hu, -⟩
      · exact hb
      · cases hu
    apply Prog.wpFin_seq (Prog.wpFin_untraced (initRyzenadj_spec []))
    intro ry b' hb'
    obtain ⟨w, hopened⟩ := hb'
    refine ⟨_, rfl, ?_⟩
    cases ry with
    | none => exact .inr ⟨rfl, hopened.1⟩
    | some ry =>
      obtain ⟨hholds, hvalues, -⟩ := hopened
      exact ⟨trivial, hholds, roomy_of_none hvalues, fun _ => hvalues⟩
  | initTable =>
    rw [show u = .fresh from hallowed] at hnone
    exact absurd trivial hnone
  | _ => exact absurd hallowed hnone

theorem libraryImpl_serves {depth : Nat} {u : Usage} {o : Library.Op}
    (hservice : InService family u ry b) (hallowed : u.Allows o) :
    (libraryImpl (depth + 2) (some ry) o).WpFin (backendEnv family)
      (fun x b' => ∃ u', libraryEnv.next u o x.1 u' ∧ Attended family u' x.2 b') b := by
  have hidle := hservice.holds.idle
  have howns := hservice.holds.owns
  -- the table functions look at the table first, or at nothing else
  have hlazy := keeps_lazyInitTable (keeps_initTable (depth + 2)) ry howns
  cases o with
  | initRyzenadj =>
    obtain rfl : u = .notYet := hallowed
    exact hservice.usage.elim
  | cleanupRyzenadj =>
    have hcleanup : (RyzenAdj.cleanupRyzenadj ry.osAccess).WpFin (messagesEnv family)
        (fun _ y => y.1 = ⟨false, .ended⟩) (b, []) :=
      cleanup_spec (f := Prog.ret) hservice.holds.live hservice.holds.flag rfl
    apply Prog.wpFin_seq (Prog.wpFin_untraced hcleanup)
    intro _ b' hb'
    obtain ⟨w, hb⟩ := hb'
    obtain rfl : b' = ⟨false, .ended⟩ := hb
    exact ⟨.over, rfl, .inr ⟨rfl, fun _ h => nomatch h⟩⟩
  | getCpuFamily => exact ⟨u, rfl, hservice⟩
  | getBiosIfVer =>
    apply Prog.wpFin_seq (getBiosIfVer_served hservice.holds)
    intro r b' hb'
    obtain ⟨ver, ry'⟩ := r
    obtain ⟨rfl, v, rfl⟩ := hb'
    exact ⟨u, rfl, hservice.after ⟨⟨rfl, rfl, rfl, rfl⟩, hservice.room⟩ hidle
      hservice.usage hservice.fresh⟩
  | initTable =>
    have hon := Prog.wp_mono _ (keeps_initTable (depth + 2) ry howns) fun _ _ _ => trivial
    have htable := initTable_tended (depth + 1) hidle rfl (hservice.fresh hallowed)
    exact asked_served (o := .initTable) hservice (fun _ => rfl) htable hon
  | refreshTable =>
    have hon := Prog.wp_mono _ (keeps_refreshTable (depth + 2) ry howns) fun _ _ _ => trivial
    have htable := refreshTable_tended depth hidle rfl hservice.room
    exact asked_served (o := .refreshTable) hservice (fun _ => rfl) htable hon
  | getTableVer =>
    have hon : (getTableVer (depth + 2) ry).Wp (onHandleEnv ry.osAccess) (fun _ _ => True) () :=
      Prog.wp_seq _ hlazy fun r _ _ => Prog.wp_ite _ (fun _ => trivial) fun _ => trivial
    have htable := getTableVer_tended (depth + 1) hidle rfl hservice.room
    exact asked_served (o := .getTableVer) hservice (fun _ => rfl) htable hon
  | getTableSize =>
    have hon : (getTableSize (depth + 2) ry).Wp (onHandleEnv ry.osAccess) (fun _ _ => True) () :=
      Prog.wp_seq _ hlazy fun r _ _ => Prog.wp_ite _ (fun _ => trivial) fun _ => trivial
    have htable := getTableSize_tended (depth + 1) hidle rfl hservice.room
    exact asked_served (o := .getTableSize) hservice (fun _ => rfl) htable hon
  | getter g core =>
    obtain ⟨value, hvalue⟩ := Option.isSome_iff_exists.mp (hservice.room.read_isSome g core)
    simp only [libraryImpl, hvalue]
    exact ⟨u, rfl, hservice⟩
  | set f value =>
    apply Prog.wpFin_seq (Prog.wpFin_untraced (setter_spec hservice.holds [] f.setter value))
    intro err b' hb'
    obtain ⟨w, hb, -⟩ := hb'
    obtain rfl : b' = b := hb
    exact ⟨u, rfl, hservice⟩

end Handle

theorem libraryImpl_meets (family : RyzenFamily) (depth : Nat) :
    (libraryImpl (depth + 2)).MeetsFin libraryEnv (backendEnv family) (Attended family) := by
  intro u r b o hattended hguard
  cases r with
  | none => exact libraryImpl_opens hattended hguard
  | some ry => exact libraryImpl_serves hattended hguard

end RyzenAdj
