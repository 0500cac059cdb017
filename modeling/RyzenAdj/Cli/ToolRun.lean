import RyzenAdj.Cli.Tool

/-!
# Runs of the tool (`main.c`)

The calls of `main` carried out on the handle that `init_ryzenadj` returned, and
with them the whole tool: whatever the words after its name, its runs end, reach
nothing undefined, give back the access object they took, and send the messages
of the calls the words stand for and no others.
-/

namespace RyzenAdj
open Interaction Libc Tool

/-- The messages of the calls of `main` on this processor; without a handle they are those of the
`init_ryzenadj` that failed. -/
inductive SentBy (family : RyzenFamily) : List CliEvent → List Outgoing → Prop where
  | noCall : SentBy family [] []
  | noHandle (w : List Outgoing) : Unopened family w → SentBy family [.initRyzenadj false] w
  | handle (calls : List CliEvent) (obj : OsAccessObj) (mp1 psmu : Smu) (w : List Outgoing) :
      smuOf obj .mp1 family = some mp1 → smuOf obj .psmu family = some psmu →
      w ∈ callWords obj.isKmod mp1 psmu family calls → SentBy family calls w

abbrev toolTraced (family : RyzenFamily) : Env tool (Backend × List Outgoing) :=
  (toolEnv family).traced toolSent

/-- The handle of `main` after the calls `x.2`, with the backend and the messages so far. -/
structure Serves (family : RyzenFamily) (x : Stage × List CliEvent) (ry : RyzenAccess)
    (y : Backend × List Outgoing) : Prop where
  stage : x.1.HasHandle
  holds : Holds family ry y.1
  buffer : x.1 = .monitored → HasBuffer ry
  words : y.2 ∈ callWords ry.osAccess.isKmod ry.mp1Smu ry.psmu family x.2

/-- No access object is left, and what was sent was sent by the calls. -/
structure Released (family : RyzenFamily) (x : Stage × List CliEvent)
    (y : Backend × List Outgoing) : Prop where
  stage : x.1 = .ended
  access : ∀ obj, y.1.access ≠ .live obj
  words : SentBy family x.2 y.2

/-- What `main` knows of its handle and what there is. -/
def Linked (family : RyzenFamily) (x : Stage × List CliEvent) (ry : Option RyzenAccess)
    (y : Backend × List Outgoing) : Prop :=
  match ry with
  | some ry => Serves family x ry y
  | none => (x = (.start, []) ∧ y = (.initial, [])) ∨ Released family x y

section Rules
variable {family : RyzenFamily} {α : Type} {Q : α → Backend × List Outgoing → Prop}
  {b : Backend} {w : List Outgoing}

theorem library_spec {β : Type} {p : Prog api β} {R : β → Backend × List Outgoing → Prop}
    {f : β → Prog tool α} (hp : p.WpFin (messagesEnv family) R (b, w))
    (hf : ∀ r x, R r x → (f r).WpFin (toolTraced family) Q x) :
    (p.inl.bind f).WpFin (toolTraced family) Q (b, w) := by
  have hinl : (p.inl (T := console)).WpFin (toolTraced family) R (b, w) := Prog.wpFin_inl.mpr hp
  exact Prog.wpFin_seq hinl hf

theorem console_spec {o : Console.Op} {f : console.Ret o → Prog tool α}
    (hf : ∀ r, (f r).WpFin (toolTraced family) Q (b, w)) :
    ((Prog.perform (S := tool) (.inr o)).bind f).WpFin (toolTraced family) Q (b, w) := by
  refine ⟨trivial, fun r x hx => ?_⟩
  have hw : x.2 = w := by rw [hx.2]; exact List.append_nil w
  rw [show x = (b, w) from Prod.ext hx.1 hw]
  exact hf r

theorem print_spec {l : Line} {f : Unit → Prog tool α}
    (hf : (f ()).WpFin (toolTraced family) Q (b, w)) :
    ((print l).bind f).WpFin (toolTraced family) Q (b, w) :=
  console_spec (o := .print l) fun _ => hf

theorem callWords_nil {driver : Bool} {mp1 psmu : Smu} :
    [] ∈ callWords driver mp1 psmu family [] := rfl

theorem callWords_concat {driver : Bool} {mp1 psmu : Smu} {calls : List CliEvent} {e : CliEvent}
    {v : List Outgoing} (hw : w ∈ callWords driver mp1 psmu family calls)
    (hv : v ∈ e.words driver mp1 psmu family) :
    w ++ v ∈ callWords driver mp1 psmu family (calls ++ [e]) := by
  have hprod : callWords driver mp1 psmu family (calls ++ [e]) =
      callWords driver mp1 psmu family calls * e.words driver mp1 psmu family := by
    simp [callWords, List.prod_append]
  rw [hprod]
  exact Language.append_mem_mul hw hv

end Rules

section Calls
variable {family : RyzenFamily} {g g' : Stage} {calls : List CliEvent} {ry ry' : RyzenAccess}
  {b : Backend} {w v : List Outgoing}

theorem Serves.after (h : Serves family (g, calls) ry (b, w)) (hholds : Holds family ry' b)
    (hsame : SameHandle ry ry') (hstage : g'.HasHandle) (hbuf : g' = .monitored → HasBuffer ry')
    (e : CliEvent) (hv : v ∈ e.words ry.osAccess.isKmod ry.mp1Smu ry.psmu family) :
    Serves family (g', calls ++ [e]) ry' (b, w ++ v) := by
  refine ⟨hstage, hholds, hbuf, ?_⟩
  rw [hsame.osAccess, hsame.mp1Smu, hsame.psmu]
  exact callWords_concat h.words hv

theorem getTableVer_of_buffer (depth : Nat) (hbuf : HasBuffer ry) :
    getTableVer depth ry = .ret (ry.tableVer, ry) := by
  obtain ⟨buf, hvalues, -⟩ := hbuf
  simp only [getTableVer, lazyInitTable, hvalues]
  rfl

theorem getTableSize_of_buffer (depth : Nat) (hbuf : HasBuffer ry) :
    getTableSize depth ry = .ret (ry.tableSize, ry) := by
  obtain ⟨buf, hvalues, -⟩ := hbuf
  simp only [getTableSize, lazyInitTable, hvalues]
  rfl

theorem showInfoHeader_spec (h : Holds family ry b) (w : List Outgoing) :
    (RyzenAdj.showInfoHeader ry).WpFin (toolTraced family) (fun ry' x => x.1 = b ∧
      Holds family ry' b ∧ SameHandle ry ry' ∧
      ∃ v ∈ CliEvent.showInfoHeader.words ry.osAccess.isKmod ry.mp1Smu ry.psmu family,
        x.2 = w ++ v) (b, w) := by
  apply print_spec
  apply library_spec (getBiosIfVer_spec h w)
  intro r x hx
  obtain ⟨ver, ry'⟩ := r
  obtain ⟨b', w'⟩ := x
  apply print_spec
  apply print_spec
  exact hx

theorem printInfoRows_spec (hbuf : HasBuffer ry) (rows : List (String × Getter × String)) :
    (printInfoRows ry rows).WpFin (toolTraced family) (fun _ x => x = (b, w)) (b, w) := by
  obtain ⟨buf, hvalues, hfits⟩ := hbuf
  induction rows with
  | nil => rfl
  | cons row rows ih =>
    obtain ⟨name, getter, param⟩ := row
    obtain ⟨value, hvalue⟩ : ∃ v, getter.read ry 0 = some v := by
      rw [← Option.isSome_iff_exists]
      unfold Getter.read
      cases getter.offset ry.tableVer 0 with
      | none => rfl
      | some off =>
        apply readFloatValue_isSome
        intro buf' hbuf'
        rw [hvalues] at hbuf'
        rw [← Option.some.inj hbuf']
        exact hfits.size_le
    simp only [printInfoRows, hvalue]
    exact print_spec ih

theorem showInfoTable_spec (depth : Nat) (h : Holds family ry b) (hbuf : HasBuffer ry)
    (w : List Outgoing) :
    (RyzenAdj.showInfoTable (depth + 1) ry).WpFin (toolTraced family) (fun ry' x => x.1 = b ∧
      Holds family ry' b ∧ SameHandle ry ry' ∧ HasBuffer ry' ∧
      ∃ v ∈ CliEvent.showInfoTable.words ry.osAccess.isKmod ry.mp1Smu ry.psmu family,
        x.2 = w ++ v) (b, w) := by
  unfold RyzenAdj.showInfoTable
  rw [getTableVer_of_buffer (depth + 1) hbuf]
  apply print_spec
  apply library_spec (refreshTable_spec h w depth hbuf)
  intro r x hx
  obtain ⟨errorcode, ry'⟩ := r
  obtain ⟨b', w'⟩ := x
  obtain ⟨hb, hholds, hsame, hbuf', -, -, v, hv, hw⟩ := hx
  obtain rfl : b' = b := hb
  have hend : HasBuffer ry' ∧ ∃ v ∈ CliEvent.showInfoTable.words ry.osAccess.isKmod ry.mp1Smu
      ry.psmu family, w' = w ++ v := by
    rw [h.family] at hv
    exact ⟨hbuf', v, ⟨errorcode, hv⟩, hw⟩
  apply Prog.wpFin_ite
  · intro _
    apply print_spec
    exact ⟨rfl, hholds, hsame, hend⟩
  · intro _
    apply print_spec
    apply Prog.wpFin_seq (printInfoRows_spec hbuf' infoRows)
    intro _ x hx
    rw [hx]
    exact ⟨rfl, hholds, hsame, hend⟩

theorem printDumpRows_spec {data values : List Byte} {index count : Nat}
    (hdata : 4 * (index + count) ≤ data.length) (hvalues : 4 * (index + count) ≤ values.length) :
    (printDumpRows data values index count).WpFin (toolTraced family) (fun _ x => x = (b, w))
      (b, w) := by
  induction count generalizing index with
  | zero => rfl
  | succ count ih =>
    obtain ⟨word, hword⟩ := Option.isSome_iff_exists.mp
      ((cellAt_isSome_iff data index).mpr (by omega))
    obtain ⟨value, hvalue⟩ := Option.isSome_iff_exists.mp
      ((cellAt_isSome_iff values index).mpr (by omega))
    simp only [printDumpRows, hword, hvalue]
    exact print_spec (ih (by omega) (by omega))

theorem printAdjustRows_spec {data old values : List Byte} {index count : Nat}
    (hdata : 4 * (index + count) ≤ data.length) (hold : 4 * (index + count) ≤ old.length)
    (hvalues : 4 * (index + count) ≤ values.length) :
    (printAdjustRows data old values index count).WpFin (toolTraced family)
      (fun _ x => x = (b, w)) (b, w) := by
  induction count generalizing index with
  | zero => rfl
  | succ count ih =>
    obtain ⟨word, hword⟩ := Option.isSome_iff_exists.mp
      ((cellAt_isSome_iff data index).mpr (by omega))
    obtain ⟨value, hvalue⟩ := Option.isSome_iff_exists.mp
      ((cellAt_isSome_iff old index).mpr (by omega))
    obtain ⟨adjusted, hadjusted⟩ := Option.isSome_iff_exists.mp
      ((cellAt_isSome_iff values index).mpr (by omega))
    simp only [printAdjustRows, hword, hvalue, hadjusted]
    exact print_spec (ih (by omega) (by omega) (by omega))

def Dumped (family : RyzenFamily) (ry : RyzenAccess) (b : Backend) (w : List Outgoing)
    (any : Bool) (ry' : RyzenAccess) (x : Backend × List Outgoing) : Prop :=
  x.1 = b ∧ Holds family ry' b ∧ SameHandle ry ry' ∧ HasBuffer ry' ∧
    ∃ v ∈ (CliEvent.showTableDump any).words ry.osAccess.isKmod ry.mp1Smu ry.psmu family,
      x.2 = w ++ v

theorem dumped_silent (h : Holds family ry b) (hbuf : HasBuffer ry) (any : Bool) :
    Dumped family ry b w any ry (b, w) := by
  refine ⟨rfl, h, .refl ry, hbuf, [], ?_, (List.append_nil w).symm⟩
  cases any with
  | false => rfl
  | true => exact .inl rfl

theorem dumpAdjusted_spec (depth : Nat) (h : Holds family ry b) (hbuf : HasBuffer ry)
    {tableDataCopy : List Byte} (hcopy : ry.tableSize ≤ tableDataCopy.length) (w : List Outgoing) :
    (dumpAdjusted (depth + 1) ry ry.tableSize tableDataCopy).WpFin (toolTraced family)
      (Dumped family ry b w true) (b, w) := by
  apply console_spec (o := .malloc ry.tableSize)
  intro allocated
  apply Prog.wpFin_ite
  · intro _
    apply print_spec
    exact dumped_silent h hbuf true
  · intro _
    apply library_spec (refreshTable_spec h w depth hbuf)
    intro r x hx
    obtain ⟨errorcode, ry'⟩ := r
    obtain ⟨b', w'⟩ := x
    obtain ⟨hb, hholds, hsame, hbuf', hsize, -, v, hv, hw⟩ := hx
    obtain rfl : b' = b := hb
    have hdumped : Dumped family ry b' w true ry' (b', w') := by
      rw [h.family] at hv
      exact ⟨rfl, hholds, hsame, hbuf', v, .inr ⟨errorcode, hv⟩, hw⟩
    obtain ⟨buf, hvalues, hfits⟩ := hbuf'
    have hvalues' : getTableValues ry' = some buf := hvalues
    have hlen : ry.tableSize ≤ buf.length := by
      rw [← hsize]
      exact hfits.size_le
    have hrows : (printAdjustRows tableDataCopy tableDataCopy buf 0 (ry.tableSize / 4)).WpFin
        (toolTraced family) (fun _ x => x = (b', w')) (b', w') :=
      printAdjustRows_spec (by omega) (by omega) (by omega)
    have hend : ((printAdjustRows tableDataCopy tableDataCopy buf 0 (ry.tableSize / 4)).bind
        fun _ => Prog.ret ry').WpFin (toolTraced family) (Dumped family ry b' w true) (b', w') := by
      apply Prog.wpFin_seq hrows
      intro _ x hx
      rw [hx]
      exact hdumped
    simp only [hvalues']
    apply Prog.wpFin_ite
    · intro _
      apply print_spec
      apply print_spec
      exact hend
    · intro _
      apply print_spec
      exact hend

theorem dumpPlain_spec (h : Holds family ry b) (hbuf : HasBuffer ry) {data values : List Byte}
    (hdata : ry.tableSize ≤ data.length) (hvalues : ry.tableSize ≤ values.length)
    (w : List Outgoing) :
    (dumpPlain ry ry.tableSize data values).WpFin (toolTraced family)
      (Dumped family ry b w false) (b, w) := by
  have hrows : (printDumpRows data values 0 (ry.tableSize / 4)).WpFin (toolTraced family)
      (fun _ x => x = (b, w)) (b, w) :=
    printDumpRows_spec (by omega) (by omega)
  apply print_spec
  apply Prog.wpFin_seq hrows
  intro _ x hx
  rw [hx]
  exact dumped_silent h hbuf false

theorem showTableDump_spec (depth : Nat) (h : Holds family ry b) (hbuf : HasBuffer ry)
    (any : Bool) (w : List Outgoing) :
    (RyzenAdj.showTableDump (depth + 1) ry any).WpFin (toolTraced family)
      (Dumped family ry b w any) (b, w) := by
  obtain ⟨buf, hvalues, hfits⟩ := id hbuf
  have hvalues' : getTableValues ry = some buf := hvalues
  have hlen := hfits.size_le
  have hcopy : ry.tableSize ≤ (buf.take ry.tableSize).length := by
    rw [List.length_take]
    omega
  unfold RyzenAdj.showTableDump
  rw [getTableVer_of_buffer (depth + 1) hbuf]
  apply print_spec
  rw [getTableSize_of_buffer (depth + 1) hbuf]
  simp only [Prog.inl_ret, Prog.bind_eq, Prog.ret_bind, hvalues']
  apply Prog.wpFin_ite
  · intro _
    apply print_spec
    exact dumped_silent h hbuf any
  · intro _
    apply console_spec (o := .malloc ry.tableSize)
    intro allocated
    apply Prog.wpFin_ite
    · intro _
      apply print_spec
      exact dumped_silent h hbuf any
    · intro _
      apply Prog.wpFin_ite
      · intro hshort
        omega
      · intro _
        cases any with
        | true => exact dumpAdjusted_spec depth h hbuf hcopy w
        | false => exact dumpPlain_spec h hbuf hcopy hlen w

end Calls

section Run
variable {family : RyzenFamily} {g : Stage} {calls : List CliEvent} {ry : RyzenAccess}
  {b : Backend} {w : List Outgoing}

theorem answered {x : Stage × List CliEvent} {o : cli.Op} {r : cli.Ret o} {v : Option RyzenAccess}
    {y : Backend × List Outgoing}
    (h : Linked family (x.1.after o r, x.2 ++ called o r) v y) :
    ∃ x', traced.next x o r x' ∧ Linked family x' v y :=
  ⟨(x.1.after o r, x.2 ++ called o r), ⟨rfl, rfl⟩, h⟩

theorem opened_linked {ry : Option RyzenAccess} {y : Backend × List Outgoing}
    (h : Opened family [] ry y) :
    Linked family (Stage.start.after .initRyzenadj ry.isSome, [.initRyzenadj ry.isSome]) ry y := by
  cases ry with
  | none =>
    obtain ⟨hnone, v, hv, hw⟩ := h
    refine .inr ⟨rfl, hnone, ?_⟩
    rw [hw]
    exact .noHandle v hv
  | some ry =>
    obtain ⟨hholds, -, v, hv, hw⟩ := h
    refine ⟨trivial, hholds, (fun h => by cases h), ?_⟩
    rw [hw]
    exact callWords_concat (w := []) callWords_nil hv

theorem initRyzenadj_answered (depth : Nat) :
    (toolImpl depth none .initRyzenadj).WpFin (toolTraced family) (fun r y =>
      ∃ x', traced.next (.start, []) .initRyzenadj r.1 x' ∧ Linked family x' r.2 y)
      (.initial, []) := by
  apply library_spec (initRyzenadj_spec [])
  intro ry y hy
  have hanswered := answered (x := (.start, [])) (o := .initRyzenadj) (opened_linked hy)
  obtain ⟨b, w⟩ := y
  apply Prog.wpFin_ite
  · intro _
    exact print_spec hanswered
  · intro _
    exact hanswered

theorem initTable_answered (depth : Nat) (h : Serves family (.opened, calls) ry (b, w)) :
    (toolImpl (depth + 1) (some ry) .initTable).WpFin (toolTraced family) (fun r y =>
      ∃ x', traced.next (.opened, calls) .initTable r.1 x' ∧ Linked family x' r.2 y) (b, w) := by
  apply library_spec (initTable_spec h.holds w depth)
  intro r y hy
  obtain ⟨tableErr, ry'⟩ := r
  obtain ⟨b', w'⟩ := y
  obtain ⟨hb, hholds, hsame, hbuf, v, hv, hw⟩ := hy
  obtain rfl : b' = b := hb
  obtain rfl : w' = w ++ v := hw
  have hstage : (Stage.opened.after .initTable tableErr).HasHandle := by
    simp only [Stage.after]
    split <;> exact trivial
  have hmonitored : Stage.opened.after .initTable tableErr = .monitored → HasBuffer ry' := by
    simp only [Stage.after]
    split
    next hzero => exact fun _ => hbuf hzero
    next => exact fun h => by cases h
  have hanswered := answered (x := (.opened, calls)) (o := .initTable) (r := tableErr)
    (v := some ry') (h.after hholds hsame hstage hmonitored (.initTable tableErr)
      (by rw [h.holds.family] at hv; exact hv))
  apply Prog.wpFin_ite
  · intro _
    exact print_spec hanswered
  · intro _
    exact hanswered

theorem set_answered (depth : Nat) (c : SetCall) (h : Serves family (g, calls) ry (b, w)) :
    (toolImpl depth (some ry) (.set c)).WpFin (toolTraced family) (fun r y =>
      ∃ x', traced.next (g, calls) (.set c) r.1 x' ∧ Linked family x' r.2 y) (b, w) := by
  apply library_spec (setter_spec h.holds w c.function.setter c.value)
  intro adjerr y hy
  obtain ⟨b', w'⟩ := y
  obtain ⟨hb, v, hv, hw⟩ := hy
  obtain rfl : b' = b := hb
  obtain rfl : w' = w ++ v := hw
  have hanswered := answered (x := (g, calls)) (o := .set c) (r := adjerr) (v := some ry)
    (h.after h.holds (.refl ry) h.stage h.buffer (.set c adjerr)
      (by rw [h.holds.family] at hv; exact hv))
  apply Prog.wpFin_ite
  · intro _
    exact print_spec hanswered
  · intro _
    exact print_spec hanswered

theorem cleanup_answered (depth : Nat) (h : Serves family (g, calls) ry (b, w)) :
    (toolImpl depth (some ry) .cleanupRyzenadj).WpFin (toolTraced family) (fun r y =>
      ∃ x', traced.next (g, calls) .cleanupRyzenadj r.1 x' ∧ Linked family x' r.2 y) (b, w) := by
  have hwords : w ++ [] ∈ callWords ry.osAccess.isKmod ry.mp1Smu ry.psmu family
      (calls ++ [.cleanupRyzenadj]) := callWords_concat h.words rfl
  rw [List.append_nil] at hwords
  have hreleased : Released family (.ended, calls ++ [.cleanupRyzenadj]) (⟨false, .ended⟩, w) :=
    ⟨rfl, (fun _ h => by cases h), .handle _ ry.osAccess _ _ w h.holds.mp1 h.holds.psmu hwords⟩
  have hcleanup : (cleanupRyzenadj ry.osAccess).WpFin (messagesEnv family)
      (fun _ y => y = (⟨false, .ended⟩, w)) (b, w) :=
    cleanup_spec (f := Prog.ret) h.holds.live h.holds.flag rfl
  apply library_spec hcleanup
  intro _ y hy
  rw [hy]
  exact answered (x := (g, calls)) (o := .cleanupRyzenadj) (v := none) (.inr hreleased)

/-- Every call of `main` does what the protocol says of it, on the handle there is. -/
theorem toolImpl_meets (family : RyzenFamily) (depth : Nat) :
    (toolImpl (depth + 1)).MeetsFin traced (toolTraced family) (Linked family) := by
  intro x r y o hlinked hguard
  obtain ⟨g, calls⟩ := x
  obtain ⟨b, w⟩ := y
  have hallowed : g.Allows o := hguard
  cases r with
  | none =>
    cases hlinked with
    | inl hstart =>
      obtain ⟨hx, hy⟩ := hstart
      cases hx
      cases hy
      cases o with
      | initRyzenadj => exact initRyzenadj_answered (depth + 1)
      | showInfoHeader => cases hallowed
      | initTable => cases hallowed
      | set c => exact hallowed.elim
      | showTableDump any => cases hallowed
      | showInfoTable => cases hallowed
      | cleanupRyzenadj => exact hallowed.elim
    | inr hreleased =>
      obtain rfl : g = .ended := hreleased.stage
      cases o with
      | set c => exact hallowed.elim
      | cleanupRyzenadj => exact hallowed.elim
      | _ => cases hallowed
  | some ry =>
    have hserves : Serves family (g, calls) ry (b, w) := hlinked
    cases o with
    | initRyzenadj =>
      obtain rfl : g = .start := hallowed
      exact hserves.stage.elim
    | showInfoHeader =>
      obtain rfl : g = .opened := hallowed
      apply Prog.wpFin_seq (showInfoHeader_spec hserves.holds w)
      intro ry' z hz
      obtain ⟨b', w'⟩ := z
      obtain ⟨hb, hholds, hsame, v, hv, hw⟩ := hz
      obtain rfl : b' = b := hb
      obtain rfl : w' = w ++ v := hw
      exact answered (x := (.opened, calls)) (o := .showInfoHeader) (v := some ry')
        (hserves.after hholds hsame hserves.stage (fun h => by cases h) _ hv)
    | initTable =>
      obtain rfl : g = .opened := hallowed
      exact initTable_answered depth hserves
    | set c => exact set_answered (depth + 1) c hserves
    | showTableDump any =>
      obtain rfl : g = .monitored := hallowed
      apply Prog.wpFin_seq (showTableDump_spec depth hserves.holds (hserves.buffer rfl) any w)
      intro ry' z hz
      obtain ⟨b', w'⟩ := z
      obtain ⟨hb, hholds, hsame, hbuf, v, hv, hw⟩ := hz
      obtain rfl : b' = b := hb
      obtain rfl : w' = w ++ v := hw
      exact answered (x := (.monitored, calls)) (o := .showTableDump any) (v := some ry')
        (hserves.after hholds hsame hserves.stage (fun _ => hbuf) _ hv)
    | showInfoTable =>
      obtain rfl : g = .monitored := hallowed
      apply Prog.wpFin_seq (showInfoTable_spec depth hserves.holds (hserves.buffer rfl) w)
      intro ry' z hz
      obtain ⟨b', w'⟩ := z
      obtain ⟨hb, hholds, hsame, hbuf, v, hv, hw⟩ := hz
      obtain rfl : b' = b := hb
      obtain rfl : w' = w ++ v := hw
      exact answered (x := (.monitored, calls)) (o := .showInfoTable) (v := some ry')
        (hserves.after hholds hsame hserves.stage (fun _ => hbuf) _ hv)
    | cleanupRyzenadj => exact cleanup_answered (depth + 1) hserves

/-- What is left at the end of a run. -/
structure ToolEnd (family : RyzenFamily) (long : LongWidth) (args : List CString) (status : Int)
    (y : Backend × List Outgoing) : Prop where
  access : ∀ obj, y.1.access ≠ .live obj
  words : ∃ calls, MainCalls long args status calls ∧ SentBy family calls y.2

theorem tool_run (family : RyzenFamily) (depth : Nat) (long : LongWidth) (args : List CString) :
    (ryzenadj (depth + 1) long args).WpFin (toolTraced family) (ToolEnd family long args)
      (.initial, []) := by
  have hstart : Linked family (.start, []) none (.initial, []) := .inl ⟨rfl, rfl⟩
  have hlink := Prog.wpFin_link (toolImpl_meets family depth) hstart (main_calls long args)
  apply Prog.wpFin_seq hlink
  intro r y hy
  obtain ⟨status, ry⟩ := r
  obtain ⟨x, ⟨hstage, hcalls⟩, hlinked⟩ := hy
  cases ry with
  | some ry => exact absurd (Serves.stage hlinked) hstage
  | none =>
    cases hlinked with
    | inl hnone =>
      obtain ⟨rfl, rfl⟩ := hnone
      exact ⟨(fun _ h => by cases h), [], hcalls, .noCall⟩
    | inr hreleased => exact ⟨hreleased.access, x.2, hcalls, hreleased.words⟩

theorem toolEnv_answers {b : Backend} {o : tool.Op} (h : (toolEnv family).guard b o) :
    ∃ r b', (toolEnv family).next b o r b' := by
  cases o with
  | inr o =>
    cases o with
    | print l => exact ⟨(), b, rfl⟩
    | malloc size => exact ⟨true, b, rfl⟩
  | inl o =>
    cases o with
    | smuServiceReq smu id args => exact ⟨(0, args), b, rfl⟩
    | getSmu obj smuType => exact ⟨none, b, (fun _ h => by cases h), rfl⟩
    | cpuidGetFamily => exact ⟨family, b, rfl, rfl⟩
    | initOsAccessObj => exact ⟨none, _, false, (fun _ h => by cases h), rfl⟩
    | freeOsAccessObj obj => exact ⟨(), ⟨false, .ended⟩, rfl⟩
    | isUsingSmuDriver => exact ⟨b.isSmu, b, rfl, rfl⟩
    | initMemObj obj physAddr size => exact ⟨true, b, rfl⟩
    | copyPmTable obj size => exact ⟨.failed size eIo, b, rfl⟩
    | comparePmTable buffer => exact ⟨(0 : Int), b, rfl⟩
    | malloc => exact ⟨true, b, rfl⟩
    | calloc nmemb => exact ⟨true, b, rfl⟩
    | sleep ms => exact ⟨(), b, rfl⟩
    | undefined => exact absurd rfl (BackendCall.defined h)

/-- Whatever the words after the name of the tool and whatever is answered: no call of a run is
out of place, and every run comes to an end, with the access object given back. -/
theorem tool_lifetime (family : RyzenFamily) (depth : Nat) (long : LongWidth)
    (args : List CString) :
    (∀ o k b, Prog.Steps (toolEnv family) (ryzenadj (depth + 1) long args, .initial)
      (.call (.inl o) k, b) → BackendCall b o) ∧
    Prog.Ends (toolEnv family) (fun _ b => ∀ obj, b.access ≠ .live obj)
      (ryzenadj (depth + 1) long args, .initial) := by
  have hrun := Prog.wpFin_untraced (tool_run family depth long args)
  constructor
  · intro o k b hsteps
    exact Prog.wp_guard _ hsteps (Prog.wp_of_wpFin hrun)
  · apply Prog.ends_of_wpFin (fun _ _ => toolEnv_answers)
    apply Prog.wpFin_mono hrun
    intro status b hend
    obtain ⟨w, hend⟩ := hend
    exact hend.access

end Run
end RyzenAdj
