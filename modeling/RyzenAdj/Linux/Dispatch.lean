import RyzenAdj.Linux.Kmod
import RyzenAdj.Linux.Mem

/-!
# Backend dispatch (`lib/linux/osdep_linux.c`)

One process-wide flag, `is_smu`, says by which backend every access object is
read. Reading a union by the member it was not built with is undefined.
-/

namespace RyzenAdj
open Interaction

def smnRegReadLinux (obj : OsAccessObj) (addr : Word) : Prog sys Word := do
  let isSmu ← Sys.isSmu
  match isSmu, obj with
  | true, .kmod o => smnRegReadKmod o addr
  | false, .mem o => smnRegReadMem o addr
  | _, _ => Sys.undefined

def smnRegWriteLinux (obj : OsAccessObj) (addr data : Word) : Prog sys Unit := do
  let isSmu ← Sys.isSmu
  match isSmu, obj with
  | true, .kmod o => smnRegWriteKmod o addr data
  | false, .mem o => smnRegWriteMem o addr data
  | _, _ => Sys.undefined

def smuRawCmdLinux (obj : OsAccessObj) (msg rep argBase id : Word) (args : Args) :
    Prog sys (Option (Word × Args)) := do
  let isSmu ← Sys.isSmu
  match isSmu, obj with
  | false, _ => pure none
  | true, .kmod o => smuRawCmdKmod o msg rep argBase id args
  | true, .mem _ => Sys.undefined

section Flag
open Sys

/-- The calls of the backends proper: the flag is left alone. -/
def BackendOp : Sys.Op → Prop
  | .isSmu | .setIsSmu _ | .undefined => False
  | _ => True

theorem backendOp_readFull (fd : Int) (len : Nat) :
    (readFull fd len).Wp (Env.only BackendOp) (fun _ _ => True) () := by
  apply readFull_rule (Q := fun _ _ _ => True) (fun _ _ => True) trivial <;> intros <;> trivial

theorem backendOp_writeFull (fd : Int) (bytes : List Byte) :
    (writeFull fd bytes).Wp (Env.only BackendOp) (fun _ _ => True) () := by
  apply writeFull_rule (fun _ _ => True) trivial <;> intros <;> trivial

theorem backendOp_setError {α : Type} (a : α) :
    (smnIoSetError.bind fun _ => .ret a).Wp (Env.only BackendOp) (fun _ _ => True) () :=
  ⟨trivial, fun _ _ _ => trivial⟩

theorem backendOp_smnRegReadKmod (o : KmodObj) (addr : Word) :
    (smnRegReadKmod o addr).Wp (Env.only BackendOp) (fun _ _ => True) () := by
  refine ⟨trivial, fun seekError _ _ => ?_⟩
  apply Prog.wp_ite
  · exact fun _ => backendOp_setError _
  · intro _
    apply Prog.wp_seq _ (backendOp_writeFull _ _)
    intro writeError _ _
    apply Prog.wp_ite
    · exact fun _ => backendOp_setError _
    · intro _
      refine ⟨trivial, fun seekError _ _ => ?_⟩
      apply Prog.wp_ite
      · exact fun _ => backendOp_setError _
      · intro _
        apply Prog.wp_seq _ (backendOp_readFull _ _)
        intro t _ _
        apply Prog.wp_ite
        · exact fun _ => backendOp_setError _
        · exact fun _ => trivial

theorem backendOp_smnRegWriteKmod (o : KmodObj) (addr data : Word) :
    (smnRegWriteKmod o addr data).Wp (Env.only BackendOp) (fun _ _ => True) () := by
  refine ⟨trivial, fun seekError _ _ => ?_⟩
  apply Prog.wp_ite
  · exact fun _ => backendOp_setError _
  · intro _
    apply Prog.wp_seq _ (backendOp_writeFull _ _)
    intro writeError _ _
    apply Prog.wp_ite
    · exact fun _ => ⟨trivial, fun _ _ _ => trivial⟩
    · exact fun _ => trivial

theorem backendOp_smuRawCmdKmod (o : KmodObj) (msg rep argBase id : Word) (args : Args) :
    (smuRawCmdKmod o msg rep argBase id args).Wp (Env.only BackendOp) (fun _ _ => True) () := by
  have hwrite : (seekWriteFull o.rawCmdFd (rawRequest msg rep argBase id args)).Wp
      (Env.only BackendOp) (fun _ _ => True) () := by
    refine ⟨trivial, fun r _ _ => ?_⟩
    cases r with
    | some e => trivial
    | none => exact backendOp_writeFull _ _
  have hread : (seekReadFull o.rawCmdFd 28).Wp (Env.only BackendOp) (fun _ _ => True) () := by
    refine ⟨trivial, fun r _ _ => ?_⟩
    cases r with
    | some e => trivial
    | none => exact backendOp_readFull _ _
  apply Prog.wp_ite
  · exact fun _ => trivial
  · intro _
    apply Prog.wp_seq _ hwrite
    intro r _ _
    cases r with
    | some e => trivial
    | none =>
      apply Prog.wp_seq _ hread
      intro t _ _
      cases t.error with
      | some e => trivial
      | none => trivial

theorem backendOp_smnRegReadMem (o : MemObj) (addr : Word) :
    (smnRegReadMem o addr).Wp (Env.only BackendOp) (fun _ _ => True) () := by
  refine ⟨trivial, fun selected _ _ => ?_⟩
  apply Prog.wp_ite
  · exact fun _ => ⟨trivial, fun _ _ _ => ⟨trivial, fun _ _ _ => trivial⟩⟩
  · exact fun _ => ⟨trivial, fun _ _ _ => trivial⟩

theorem backendOp_smnRegWriteMem (o : MemObj) (addr data : Word) :
    (smnRegWriteMem o addr data).Wp (Env.only BackendOp) (fun _ _ => True) () := by
  refine ⟨trivial, fun selected _ _ => ?_⟩
  apply Prog.wp_ite
  · exact fun _ => backendOp_setError _
  · intro _
    refine ⟨trivial, fun written _ _ => ?_⟩
    apply Prog.wp_ite
    · exact fun _ => trivial
    · exact fun _ => ⟨trivial, fun _ _ _ => trivial⟩

/-- The flag alone as the state; a member of the union that was not stored is never used. -/
def isSmuEnv : Env sys Bool where
  guard _ o := o ≠ .undefined
  next isSmu
    | .isSmu, r, isSmu' => r = isSmu ∧ isSmu' = isSmu
    | .setIsSmu b, _, isSmu' => isSmu' = b
    | _, _, isSmu' => isSmu' = isSmu

theorem wp_isSmu_of_backendOp {α : Type} {p : Prog sys α} (isSmu : Bool)
    (h : p.Wp (Env.only BackendOp) (fun _ _ => True) ()) :
    p.Wp isSmuEnv (fun _ isSmu' => isSmu' = isSmu) isSmu := by
  have hkeep : ∀ o : Sys.Op, BackendOp o →
      isSmuEnv.guard isSmu o ∧ ∀ r b', isSmuEnv.next isSmu o r b' → b' = isSmu := by
    intro o ho
    cases o with
    | isSmu => cases ho
    | setIsSmu _ => cases ho
    | undefined => cases ho
    | _ => exact ⟨fun h => (nomatch h), fun r b' hnext => hnext⟩
  exact Prog.wp_mono _ (Prog.wp_silent _ hkeep h) fun _ _ hend => hend.2

section Fits
variable {isSmu : Bool} {obj : OsAccessObj} (h : isSmu = obj.isKmod)
include h

/-- With a flag that fits, the dispatchers never read the union by the wrong member. -/
theorem smnRegReadLinux_fits (addr : Word) :
    (smnRegReadLinux obj addr).Wp isSmuEnv (fun _ isSmu' => isSmu' = isSmu) isSmu := by
  refine ⟨fun h => (nomatch h), fun b b' hnext => ?_⟩
  obtain ⟨rfl, rfl⟩ := hnext
  cases obj with
  | kmod o =>
    rw [h]
    exact wp_isSmu_of_backendOp true (backendOp_smnRegReadKmod o addr)
  | mem o =>
    rw [h]
    exact wp_isSmu_of_backendOp false (backendOp_smnRegReadMem o addr)

theorem smnRegWriteLinux_fits (addr data : Word) :
    (smnRegWriteLinux obj addr data).Wp isSmuEnv (fun _ isSmu' => isSmu' = isSmu) isSmu := by
  refine ⟨fun h => (nomatch h), fun b b' hnext => ?_⟩
  obtain ⟨rfl, rfl⟩ := hnext
  cases obj with
  | kmod o =>
    rw [h]
    exact wp_isSmu_of_backendOp true (backendOp_smnRegWriteKmod o addr data)
  | mem o =>
    rw [h]
    exact wp_isSmu_of_backendOp false (backendOp_smnRegWriteMem o addr data)

theorem smuRawCmdLinux_fits (msg rep argBase id : Word) (args : Args) :
    (smuRawCmdLinux obj msg rep argBase id args).Wp isSmuEnv
      (fun _ isSmu' => isSmu' = isSmu) isSmu := by
  refine ⟨fun h => (nomatch h), fun b b' hnext => ?_⟩
  obtain ⟨rfl, rfl⟩ := hnext
  cases obj with
  | kmod o =>
    rw [h]
    exact wp_isSmu_of_backendOp true (backendOp_smuRawCmdKmod o msg rep argBase id args)
  | mem o =>
    rw [h]
    rfl

end Fits

end Flag

end RyzenAdj
