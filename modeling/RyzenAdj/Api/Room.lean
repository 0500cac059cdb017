import RyzenAdj.Api.Messages

/-!
# Room in the buffer

A handle whose buffer has what `refresh_table` and the getters read of it keeps
such a buffer, whatever is called on it, as long as `init_table` is not asked to
replace the buffer.
-/

namespace RyzenAdj
open Interaction Api

/-- The buffer, where there is one, has what is read of it. -/
def Roomy (driver : Bool) (ry : RyzenAccess) : Prop :=
  ∀ buf, ry.tableValues = some buf → Refreshable driver ry.tableSize buf

theorem roomy_of_none {driver : Bool} {ry : RyzenAccess} (h : ry.tableValues = none) :
    Roomy driver ry := by
  intro buf hbuf
  rw [h] at hbuf
  cases hbuf

/-- What a call leaves of a handle. -/
structure Tended (driver : Bool) (ry ry' : RyzenAccess) : Prop where
  same : SameHandle ry ry'
  room : Roomy driver ry'

theorem SameBut.tended {driver : Bool} {ry ry' : RyzenAccess} {buf : List Byte}
    (h : SameBut ry buf ry') (hfits : Refreshable driver ry.tableSize buf) :
    Tended driver ry ry' := by
  obtain ⟨buf', rfl, hlen⟩ := h
  refine ⟨⟨rfl, rfl, rfl, rfl⟩, fun buf'' hbuf => ?_⟩
  rw [← Option.some.inj hbuf]
  exact hfits.of_length hlen

section Tables
variable {driver : Bool} {bound : Nat}

theorem initTableBuffer_room (depth : Nat) (ry : RyzenAccess)
    (hsize : Fillable driver ry.tableSize) (hkind : driver = ry.osAccess.isKmod)
    (hnone : ry.tableValues = none) {n : Nat} (hn : n + 6 ≤ bound) :
    (initTableBuffer (refreshTable (depth + 1)) ry).WpFin (requestBound driver bound True)
      (fun r n' => Tended driver ry r.2 ∧ n' ≤ n + 6) n := by
  have hself : Tended driver ry ry := ⟨.refl ry, roomy_of_none hnone⟩
  refine Prog.wpFin_ite (fun _ => ⟨hself, Nat.le_add_right n 6⟩) fun _ => ?_
  apply other_bound Api.Op.noConfusion rfl (by omega)
  intro mapped _
  refine Prog.wpFin_ite (fun _ => ⟨hself, Nat.le_add_right n 6⟩) fun _ => ?_
  apply Prog.wpFin_seq (preferKmodSize_bound ry hsize (fun _ => hkind) (show n ≤ bound by omega))
  intro ry' m hry
  obtain ⟨⟨size, rfl, hfill⟩, rfl⟩ := hry
  apply other_bound Api.Op.noConfusion rfl (by omega)
  intro allocated _
  have hfailed : Tended driver ry { ry with tableSize := size, tableValues := none } :=
    ⟨⟨rfl, rfl, rfl, rfl⟩, roomy_of_none rfl⟩
  refine Prog.wpFin_ite (fun _ => ⟨hfailed, Nat.le_add_right m 6⟩) fun _ => ?_
  apply Prog.wpFin_mono (fillTable_bound depth _ rfl (fun _ => hfill.refreshable) hn)
  intro r n' hr
  have htended := hr.1.tended hfill.refreshable
  exact ⟨⟨⟨htended.same.osAccess, htended.same.mp1Smu, htended.same.psmu, htended.same.family⟩,
    htended.room⟩, hr.2⟩

theorem initTable_room (depth : Nat) (ry : RyzenAccess) (hidle : ry.tableInitBusy = false)
    (hkind : driver = ry.osAccess.isKmod) (hnone : ry.tableValues = none) {n : Nat}
    (hn : n + 8 ≤ bound) :
    (initTable (depth + 1) ry).WpFin (requestBound driver bound True)
      (fun r n' => Tended driver ry r.2 ∧ n' ≤ n + 8) n := by
  have hlocked : (initTableLocked (refreshTable (depth + 1))
      { ry with tableInitBusy := true }).WpFin (requestBound driver bound True)
      (fun r n' => Tended driver ry r.2 ∧ n' ≤ n + 8) n := by
    apply Prog.wpFin_seq (requestTableVerAndSize_bound _ (show n + 1 ≤ bound by omega))
    intro r₁ n₁ hr₁
    obtain ⟨code, ry₁⟩ := r₁
    obtain ⟨hry₁, hn₁⟩ := hr₁
    refine Prog.wpFin_ite (fun _ => ⟨?_, by omega⟩) fun hcode => ?_
    · rcases hry₁ with ⟨rfl, -⟩ | ⟨ver, rfl⟩
      · exact ⟨⟨rfl, rfl, rfl, rfl⟩, roomy_of_none hnone⟩
      · exact ⟨⟨rfl, rfl, rfl, rfl⟩, roomy_of_none hnone⟩
    obtain ⟨ver, rfl⟩ := hry₁.resolve_left fun h => hcode h.2
    apply Prog.wpFin_seq (requestTableAddr_bound _ (show n₁ + 1 ≤ bound by omega))
    intro r₂ n₂ hr₂
    obtain ⟨code', ry₂⟩ := r₂
    obtain ⟨⟨addr, rfl⟩, hn₂⟩ := hr₂
    refine Prog.wpFin_ite (fun _ => ⟨⟨⟨rfl, rfl, rfl, rfl⟩, roomy_of_none hnone⟩, by omega⟩) ?_
    intro _
    have haccepted := tableSizeOf_accepted ver
    have hsize : Fillable driver (tableSizeOf ver) := ⟨by omega, haccepted.2.1, fun _ => by omega⟩
    have hbuffer := initTableBuffer_room depth
      (({ ry with tableInitBusy := true } : RyzenAccess).withVersion ver |>.withAddr addr)
      hsize hkind hnone (show n₂ + 6 ≤ bound by omega)
    apply Prog.wpFin_mono hbuffer
    intro r n' h
    have hsame := h.1.same
    exact ⟨⟨⟨hsame.osAccess, hsame.mp1Smu, hsame.psmu, hsame.family⟩, h.1.room⟩, by omega⟩
  refine Prog.wpFin_ite (fun hbusy => absurd (hidle.symm.trans hbusy) Bool.false_ne_true) ?_
  intro _
  apply Prog.wpFin_seq hlocked
  intro r n' h
  have hsame := h.1.same
  exact ⟨⟨⟨hsame.osAccess, hsame.mp1Smu, hsame.psmu, hsame.family⟩, h.1.room⟩, h.2⟩

theorem lazyInitTable_room (depth : Nat) (ry : RyzenAccess) (hidle : ry.tableInitBusy = false)
    (hkind : driver = ry.osAccess.isKmod) (hroom : Roomy driver ry) {n : Nat}
    (hn : n + lazyRequests ry ≤ bound) :
    (lazyInitTable (initTable (depth + 1)) ry).WpFin (requestBound driver bound True)
      (fun r n' => Tended driver ry r.2 ∧ n' ≤ n + lazyRequests ry) n := by
  unfold lazyInitTable lazyRequests at *
  cases hvalues : ry.tableValues with
  | some buf => exact ⟨⟨.refl ry, hroom⟩, Nat.le_refl _⟩
  | none =>
    rw [hvalues] at hn
    exact initTable_room depth ry hidle hkind hvalues hn

theorem refreshTable_room (depth : Nat) (ry : RyzenAccess) (hidle : ry.tableInitBusy = false)
    (hkind : driver = ry.osAccess.isKmod) (hroom : Roomy driver ry) {n : Nat}
    (hn : n + lazyRequests ry + 3 ≤ bound) :
    (refreshTable (depth + 2) ry).WpFin (requestBound driver bound True)
      (fun r _ => Tended driver ry r.2) n := by
  have hfewer : n + lazyRequests ry ≤ bound := by omega
  have hlazy := Prog.wpFin_and (lazyInitTable_room depth ry hidle hkind hroom hfewer)
    (lazyInitTable_bound depth ry hidle (fun _ => hkind) hfewer)
  apply Prog.wpFin_seq hlazy
  intro r n' hr
  obtain ⟨code, ry'⟩ := r
  obtain ⟨⟨htended, hn'⟩, hhas, -⟩ := hr
  refine Prog.wpFin_ite (fun _ => htended) fun hcode => ?_
  have hsome : ∃ buf, ry'.tableValues = some buf := by
    rcases hhas with hhas | ⟨hsame, hsome⟩
    · obtain ⟨buf, hvalues, -⟩ := hhas (not_not.mp hcode)
      exact ⟨buf, hvalues⟩
    · obtain ⟨-, rfl⟩ := Prod.mk.inj hsame
      exact Option.isSome_iff_exists.mp hsome
  obtain ⟨buf, hvalues⟩ := hsome
  have hfits := htended.room buf hvalues
  have hbody := refreshTableBody_bound ry' hvalues (fun _ : True => hfits)
    (show n' + 3 ≤ bound by omega)
  apply Prog.wpFin_mono hbody
  intro r m hr
  have hbody := hr.1.tended hfits
  exact ⟨htended.same.trans hbody.same, hbody.room⟩

end Tables

/-! ### Calls on an idle handle with room -/

section Calls
variable {driver : Bool} {ry : RyzenAccess}

theorem Roomy.read_isSome (h : Roomy driver ry) (g : Getter) (core : Word) :
    (g.read ry core).isSome := by
  unfold Getter.read
  cases g.offset ry.tableVer core with
  | none => rfl
  | some off => exact readFloatValue_isSome (fun buf hbuf => (h buf hbuf).size_le) off

variable (depth : Nat) (hidle : ry.tableInitBusy = false) (hkind : driver = ry.osAccess.isKmod)
include hidle hkind

theorem initTable_tended (hnone : ry.tableValues = none) :
    (initTable (depth + 1) ry).WpFin (requestBound driver 8 True)
      (fun r _ => Tended driver ry r.2 ∧ r.2.tableInitBusy = false) 0 := by
  have hroom := initTable_room depth ry hidle hkind hnone (Nat.le_refl (0 + 8))
  have hbusy := initTable_bound depth ry hidle (fun _ : True => hkind) (Nat.le_refl (0 + 8))
  exact Prog.wpFin_mono (Prog.wpFin_and hroom hbusy) fun r n h => ⟨h.1.1, h.2.1.2⟩

variable (hroom : Roomy driver ry)
include hroom

theorem lazyInitTable_tended : (lazyInitTable (initTable (depth + 1)) ry).WpFin
    (requestBound driver (lazyRequests ry) True)
    (fun r _ => Tended driver ry r.2 ∧ r.2.tableInitBusy = false) 0 := by
  have hmax : 0 + lazyRequests ry ≤ lazyRequests ry := Nat.le_of_eq (Nat.zero_add _)
  have htended := lazyInitTable_room depth ry hidle hkind hroom hmax
  have hbusy := lazyInitTable_bound depth ry hidle (fun _ : True => hkind) hmax
  exact Prog.wpFin_mono (Prog.wpFin_and htended hbusy) fun r n h => ⟨h.1.1, h.2.2.1⟩

theorem refreshTable_tended : (refreshTable (depth + 2) ry).WpFin
    (requestBound driver (lazyRequests ry + 3) True)
    (fun r _ => Tended driver ry r.2 ∧ r.2.tableInitBusy = false) 0 := by
  have hmax : 0 + lazyRequests ry + 3 ≤ lazyRequests ry + 3 := by omega
  have htended := refreshTable_room depth ry hidle hkind hroom hmax
  have hbusy := refreshTable_bound depth ry hidle (fun _ : True => ⟨hkind, hroom⟩) hmax
  exact Prog.wpFin_and htended hbusy

theorem getTableVer_tended : (getTableVer (depth + 1) ry).WpFin
    (requestBound driver (lazyRequests ry) True)
    (fun r _ => Tended driver ry r.2 ∧ r.2.tableInitBusy = false) 0 := by
  apply Prog.wpFin_seq (lazyInitTable_tended depth hidle hkind hroom)
  intro r n h
  exact Prog.wpFin_ite (fun _ => h) fun _ => h

theorem getTableSize_tended : (getTableSize (depth + 1) ry).WpFin
    (requestBound driver (lazyRequests ry) True)
    (fun r _ => Tended driver ry r.2 ∧ r.2.tableInitBusy = false) 0 := by
  apply Prog.wpFin_seq (lazyInitTable_tended depth hidle hkind hroom)
  intro r n h
  exact Prog.wpFin_ite (fun _ => h) fun _ => h

end Calls
end RyzenAdj
