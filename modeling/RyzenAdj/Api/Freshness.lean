import RyzenAdj.Api.TableCalls
import RyzenAdj.Interaction.Finite
import RyzenAdj.Linux.Mem

/-!
# Fresh samples without the driver

`refresh_table` over `/dev/mem`, where other programs may write the memory
behind the window at any time: what the buffer holds when it returns 0, and
what the SMU or the comparison has to do with it.
-/

namespace RyzenAdj
open Interaction Api

/-- What a refresh does that can be seen from outside: a request with its response, and a
comparison or a copy with what the memory held then. -/
inductive TableEvent where
  | requested (smu : Smu) (id resp : Word)
  | compared (phys : Nat → Byte)
  | copied (phys : Nat → Byte)

/-- The mapping, what the SMU answers, the physical memory at each access to it, and the events,
newest first. -/
structure LiveWorld where
  window : PhyMap
  smu : Stream' (Word × Args)
  phys : Stream' (Nat → Byte)
  events : List TableEvent

def LiveWorld.answer (w : LiveWorld) : (o : Api.Op) → Option (Api.Ret o) × LiveWorld
  | .smuServiceReq smu id _ =>
    (some w.smu.head,
      { w with smu := w.smu.tail, events := .requested smu id w.smu.head.1 :: w.events })
  | .isUsingSmuDriver => (some false, w)
  | .comparePmTable buffer =>
    (some (comparePmTableMem w.window w.phys.head buffer),
      { w with phys := w.phys.tail, events := .compared w.phys.head :: w.events })
  | .copyPmTable _ size =>
    (some (copyPmTableMem w.window w.phys.head size),
      { w with phys := w.phys.tail, events := .copied w.phys.head :: w.events })
  | .sleep _ => (some (), w)
  | .initMemObj _ _ _ | .calloc _ | .getSmu _ _ | .cpuidGetFamily | .initOsAccessObj
  | .freeOsAccessObj _ | .malloc | .undefined => (none, w)

abbrev liveEnv : Env api LiveWorld := .answered LiveWorld.answer

/-- A handle on `/dev/mem` with a table, as `init_table` leaves it. -/
structure Initialised (ry : RyzenAccess) (buf : List Byte) : Prop where
  mem : ry.osAccess.isKmod = false
  values : ry.tableValues = some buf
  whole : buf.length = ry.tableSize
  first : 24 ≤ ry.tableSize

/-- Every `init_table` that returns 0 leaves such a handle. -/
theorem initTable_initialised (depth : Nat) {ry ry' : RyzenAccess}
    (hmem : ry.osAccess.isKmod = false)
    {w w' : World}
    (hinit : (initTable (depth + 1) ry).eval (World.answer false) w = (some (0, ry'), w')) :
    ∃ buf, Initialised ry' buf := by
  have hend := initTable_end depth ry w
  rw [hmem, hinit] at hend
  cases hend with
  | version fam _ _ _ _ hcode => exact absurd rfl hcode
  | addr fam _ _ _ _ _ hcode => exact absurd rfl hcode
  | filled fam _ ry₁ _ _ _ _ _ _ _ hfill =>
    obtain ⟨buf, hlen, heq⟩ := hfill.init
    rw [heq]
    have hsize : initSize ry w.smu = tableSizeOf w.smu.head.2.arg0 := by
      cases hobj : ry.osAccess with
      | mem o => rw [initSize, hobj, preferredSize]
      | kmod o =>
        rw [hobj] at hmem
        cases hmem
    have haccepted := tableSizeOf_accepted w.smu.head.2.arg0
    refine ⟨buf, hmem, rfl, hlen, ?_⟩
    show 24 ≤ initSize ry w.smu
    omega

def Transferred (ry : RyzenAccess) (w : LiveWorld) : Prop :=
  ∃ fam, tableFamily ry.family = some fam ∧
    .requested ry.psmu (transferTableMsg fam) repMsgOK ∈ w.events

/-- At the comparison the first six values in memory were not those of the buffer. -/
def Differed (old : List Byte) (w : LiveWorld) : Prop :=
  ∃ src phys, phyTablePtr w.window = some src ∧ .compared phys ∈ w.events ∧
    physBytes phys src 24 ≠ old.take 24

/-- The buffer is the table as it was when it was copied, at the end of the call. -/
def CopiedLast (ry : RyzenAccess) (new : List Byte) (w : LiveWorld) : Prop :=
  ∃ src phys, phyTablePtr w.window = some src ∧ w.events.head? = some (.copied phys) ∧
    new = physBytes phys src ry.tableSize

/-! ### Comparing and copying -/

/-- A comparison that could be made and does not give 0 has found a difference. -/
theorem comparePmTableMem_differs {m : PhyMap} {phys : Nat → Byte} {buffer : List Byte} {src : Nat}
    (hptr : phyTablePtr m = some src) (hroom : buffer.length ≤ phyTableAvail m)
    (hne : comparePmTableMem m phys buffer ≠ 0) : physBytes phys src buffer.length ≠ buffer := by
  intro heq
  apply hne
  simp only [comparePmTableMem, hptr, if_neg (Nat.not_lt.mpr hroom), heq, memcmp_self]

section Refreshing
variable {ry : RyzenAccess} {α : Type}

/-! ### One refresh -/

/-- A later world of the same call: the same window, and more events. -/
structure LiveWorld.Later (w w' : LiveWorld) : Prop where
  window : w'.window = w.window
  events : ∃ more, w'.events = more ++ w.events

theorem LiveWorld.Later.refl (w : LiveWorld) : w.Later w := ⟨rfl, [], rfl⟩

theorem LiveWorld.Later.trans {w w' w'' : LiveWorld} (h : w.Later w') (h' : w'.Later w'') :
    w.Later w'' := by
  obtain ⟨more, hmore⟩ := h.events
  obtain ⟨more', hmore'⟩ := h'.events
  refine ⟨h'.window.trans h.window, more' ++ more, ?_⟩
  rw [hmore', hmore, List.append_assoc]

theorem LiveWorld.Later.mem {w w' : LiveWorld} (h : w.Later w') {e : TableEvent}
    (he : e ∈ w.events) : e ∈ w'.events := by
  obtain ⟨more, hmore⟩ := h.events
  rw [hmore]
  exact List.mem_append_right _ he

theorem Transferred.later {w w' : LiveWorld} (h : Transferred ry w) (hw : w.Later w') :
    Transferred ry w' := by
  obtain ⟨fam, hfam, hmem⟩ := h
  exact ⟨fam, hfam, hw.mem hmem⟩

theorem Differed.later {old : List Byte} {w w' : LiveWorld} (h : Differed old w)
    (hw : w.Later w') : Differed old w' := by
  obtain ⟨src, phys, hptr, hmem, hne⟩ := h
  exact ⟨src, phys, hw.window ▸ hptr, hw.mem hmem, hne⟩

/-- The end of `request_transfer_table`: 0 is for a last response that was OK. -/
theorem transferCode_live {fam : TableFamily} (hfam : tableFamily ry.family = some fam)
    {w w' : LiveWorld} {resp : Word} (hw : w.Later w')
    (hasked : .requested ry.psmu (transferTableMsg fam) resp ∈ w'.events) :
    (if resp ≠ repMsgOK then Prog.ret (S := api) (translatedSmuError resp) else Prog.ret 0).WpFin
      liveEnv (fun code v => w.Later v ∧ (code = 0 → Transferred ry v)) w' := by
  refine Prog.wpFin_ite (fun _ => ⟨hw, fun hcode => ?_⟩) fun hok => ⟨hw, fun _ => ?_⟩
  · exact absurd hcode (translatedSmuError_ne_zero resp)
  · rw [not_not.mp hok] at hasked
    exact ⟨fam, hfam, hasked⟩

def LiveWorld.asked (w : LiveWorld) (smu : Smu) (id : Word) : LiveWorld :=
  { w with smu := w.smu.tail, events := .requested smu id w.smu.head.1 :: w.events }

theorem LiveWorld.later_asked (w : LiveWorld) (smu : Smu) (id : Word) : w.Later (w.asked smu id) :=
  ⟨rfl, [_], rfl⟩

theorem request_live {smu : Smu} {id : Word} {args : Args} {f : Word × Args → Prog api α}
    {Q : α → LiveWorld → Prop} {w : LiveWorld}
    (hf : (f w.smu.head).WpFin liveEnv Q (w.asked smu id)) :
    ((Api.smuServiceReq smu id args).bind f).WpFin liveEnv Q w :=
  Prog.wpFin_answer rfl hf

theorem sleep_live {ms : Nat} {f : Unit → Prog api α} {Q : α → LiveWorld → Prop} {w : LiveWorld}
    (hf : (f ()).WpFin liveEnv Q w) : ((Api.sleep ms).bind f).WpFin liveEnv Q w :=
  Prog.wpFin_answer rfl hf

theorem requestTransferTable_live (ry : RyzenAccess) (w : LiveWorld) :
    (requestTransferTable ry).WpFin liveEnv
      (fun code w' => w.Later w' ∧ (code = 0 → Transferred ry w')) w := by
  unfold requestTransferTable
  cases hfam : tableFamily ry.family with
  | none => exact ⟨.refl w, fun hcode => absurd hcode (show adjErrFamUnsupported ≠ 0 by decide)⟩
  | some fam =>
    apply request_live
    have hfirst := w.later_asked ry.psmu (transferTableMsg fam)
    refine Prog.wpFin_ite (fun _ => sleep_live (request_live ?_)) fun _ =>
      transferCode_live hfam hfirst (List.mem_cons_self ..)
    have hsecond := hfirst.trans (LiveWorld.later_asked _ ry.psmu (transferTableMsg fam))
    refine Prog.wpFin_ite (fun _ => sleep_live (request_live ?_)) fun _ =>
      transferCode_live hfam hsecond (List.mem_cons_self ..)
    have hthird := hsecond.trans (LiveWorld.later_asked _ ry.psmu (transferTableMsg fam))
    exact transferCode_live hfam hthird (List.mem_cons_self ..)

/-- Without a transfer the comparison has not given 0. -/
def Compared (old : List Byte) (w : LiveWorld) : Prop :=
  ∃ phys, .compared phys ∈ w.events ∧ comparePmTableMem w.window phys (old.take 24) ≠ 0

theorem needTransfer_live {buf : List Byte} (hlen : 24 ≤ buf.length) (w : LiveWorld) :
    (needTransfer buf).WpFin liveEnv
      (fun need w' => w.Later w' ∧ (need = false → Compared buf w')) w := by
  obtain ⟨first, hfirst⟩ := exists_cellAt (show 4 * 0 + 4 ≤ buf.length by omega)
  unfold needTransfer
  simp only [hfirst]
  refine Prog.wpFin_ite (fun _ => ⟨.refl w, fun h => Bool.noConfusion h⟩) fun _ => ?_
  refine Prog.wpFin_ite (fun hshort => absurd hshort (by omega)) fun _ => ?_
  refine Prog.wpFin_answer rfl ⟨⟨rfl, [_], rfl⟩, fun hneed => ?_⟩
  exact ⟨w.phys.head, List.mem_cons_self .., of_decide_eq_false hneed⟩

theorem Compared.differed {old : List Byte} {w : LiveWorld} (h : Compared old w) {src : Nat}
    (hptr : phyTablePtr w.window = some src) (hroom : 24 ≤ phyTableAvail w.window)
    (hlen : 24 ≤ old.length) : Differed old w := by
  obtain ⟨phys, hmem, hne⟩ := h
  have htake : (old.take 24).length = 24 := by
    rw [List.length_take]
    omega
  have hdiff := comparePmTableMem_differs hptr (by rw [htake]; exact hroom) hne
  rw [htake] at hdiff
  exact ⟨src, phys, hptr, hmem, hdiff⟩

/-- What `refresh_table` comes to from `w`: the buffer is another at most. -/
structure RefreshedLive (ry : RyzenAccess) (old : List Byte) (w : LiveWorld)
    (r : Int × RyzenAccess) (w' : LiveWorld) : Prop where
  later : w.Later w'
  handle : ∃ new, r.2 = { ry with tableValues := some new } ∧ new.length = old.length ∧
    (r.1 = 0 → CopiedLast ry new w' ∧ (Transferred ry w' ∨ Differed old w'))

theorem copyTable_live {buf : List Byte} (h : Initialised ry buf) {w w' : LiveWorld}
    (hw : w.Later w') (hwhy : Transferred ry w' ∨ Compared buf w') :
    (copyTable ry buf).WpFin liveEnv (RefreshedLive ry buf w) w' := by
  apply Prog.wpFin_answer rfl
  have hcopied : w'.Later
      { w' with phys := w'.phys.tail, events := .copied w'.phys.head :: w'.events } :=
        ⟨rfl, [_], rfl⟩
  rcases copyPmTableMem_cases w'.window w'.phys.head ry.tableSize with
    hfailed | ⟨src, hptr, hroom, hdone⟩
  · rw [hfailed]
    have hcode : adjErrMemoryAccess ≠ 0 := by decide
    exact ⟨hw.trans hcopied, buf, rfl, rfl, fun hzero => absurd hzero hcode⟩
  · rw [hdone]
    have hlen : (physBytes w'.phys.head src ry.tableSize).length = buf.length :=
      (physBytes_length _ _ _).trans h.whole.symm
    have hstore : storeBytes buf (physBytes w'.phys.head src ry.tableSize) =
        some (physBytes w'.phys.head src ry.tableSize) := by
      rw [storeBytes, if_pos (Nat.le_of_eq hlen), overwrite,
        List.drop_eq_nil_of_le (Nat.le_of_eq hlen.symm), List.append_nil]
    simp only [Prog.ret_bind, Transfer.copied, hstore]
    refine ⟨hw.trans hcopied, _, rfl, hlen, fun _ => ⟨⟨src, _, hptr, rfl, rfl⟩, ?_⟩⟩
    rcases hwhy with htransfer | hcompared
    · exact .inl (htransfer.later hcopied)
    · have hdiffered := hcompared.differed hptr (Nat.le_trans h.first hroom) (h.whole ▸ h.first)
      exact .inr (hdiffered.later hcopied)

theorem refreshTableBody_live {buf : List Byte} (h : Initialised ry buf) (w : LiveWorld) :
    (refreshTableBody ry).WpFin liveEnv (RefreshedLive ry buf w) w := by
  have hself : ∀ {code : Int} {w' : LiveWorld}, code ≠ 0 → w.Later w' →
      RefreshedLive ry buf w (code, ry) w' := by
    intro code w' hcode hw
    refine ⟨hw, buf, ?_, rfl, fun hzero => absurd hzero hcode⟩
    rw [← h.values]
  unfold refreshTableBody
  rw [h.values]
  apply Prog.wpFin_answer rfl
  show ((needTransfer buf).bind _).WpFin liveEnv _ w
  have hneed := needTransfer_live (show 24 ≤ buf.length from h.whole ▸ h.first) w
  apply Prog.wpFin_seq hneed
  intro need w₁ hw₁
  apply Prog.wpFin_ite
  · intro _
    apply Prog.wpFin_seq (requestTransferTable_live ry w₁)
    intro code w₂ hw₂
    refine Prog.wpFin_ite (fun hcode => hself hcode (hw₁.1.trans hw₂.1)) fun hcode => ?_
    exact copyTable_live h (hw₁.1.trans hw₂.1) (.inl (hw₂.2 (not_not.mp hcode)))
  · intro hnot
    show (copyTable ry buf).WpFin liveEnv _ w₁
    exact copyTable_live h hw₁.1 (.inr (hw₁.2 (Bool.eq_false_iff.mpr hnot)))

end Refreshing

/-! ### Runs of refreshes -/

/-- One `refresh_table`: the handle before it, its code, the handle and the world after it. -/
structure Refresh where
  before : RyzenAccess
  code : Int
  after : RyzenAccess
  world : LiveWorld

/-- Refreshes one after the other, each with a window, answers and memory of its own. -/
def refreshes (depth : Nat) : RyzenAccess → List LiveWorld → List Refresh
  | _, [] => []
  | ry, w :: ws =>
    match (refreshTable depth ry).eval LiveWorld.answer { w with events := [] } with
    | (some (code, ry'), w') => ⟨ry, code, ry', w'⟩ :: refreshes depth ry' ws
    | (none, _) => []

/-- The memory behind the window changed between the comparison and the copy. -/
def ChangedMeanwhile (w : LiveWorld) : Prop :=
  ∃ src phys phys', phyTablePtr w.window = some src ∧ .compared phys ∈ w.events ∧
    w.events.head? = some (.copied phys') ∧ physBytes phys src 24 ≠ physBytes phys' src 24

/-- The sample is the table as copied at the end of the call, and new: the SMU has transferred it
in this call, or it differed from the sample before. One that is the same as before is new only
where the SMU was asked, unless the memory changed under the call. -/
structure FreshSample (r : Refresh) : Prop where
  copied : ∃ new, r.after.tableValues = some new ∧ CopiedLast r.before new r.world
  asked : ∃ old, r.before.tableValues = some old ∧
    (Transferred r.before r.world ∨ Differed old r.world)
  unchanged : r.after.tableValues = r.before.tableValues →
    Transferred r.before r.world ∨ ChangedMeanwhile r.world

theorem RefreshedLive.fresh {ry ry' : RyzenAccess} {old : List Byte} {w w' : LiveWorld}
    (h : RefreshedLive ry old w (0, ry') w') (hinit : Initialised ry old) :
    FreshSample ⟨ry, 0, ry', w'⟩ := by
  obtain ⟨new, rfl, hlen, hfresh⟩ := h.handle
  obtain ⟨hcopied, hasked⟩ := hfresh rfl
  refine ⟨⟨new, rfl, hcopied⟩, ⟨old, hinit.values, hasked⟩, fun hsame => ?_⟩
  rcases hasked with htransfer | ⟨src, phys, hptr, hmem, hne⟩
  · exact .inl htransfer
  · obtain ⟨src', phys', hptr', hlast, hnew⟩ := hcopied
    obtain rfl : src = src' := Option.some.inj (hptr.symm.trans hptr')
    refine .inr ⟨src, phys, phys', hptr, hmem, hlast, fun heq => hne ?_⟩
    obtain rfl : new = old := Option.some.inj (hsame.trans hinit.values)
    have htake : (physBytes phys' src ry.tableSize).take 24 = physBytes phys' src 24 := by
      rw [physBytes, ← List.map_take, List.take_range, Nat.min_eq_left hinit.first]
      rfl
    rw [heq, hnew, htake]

theorem RefreshedLive.initialised {ry ry' : RyzenAccess} {old : List Byte} {w w' : LiveWorld}
    {code : Int} (h : RefreshedLive ry old w (code, ry') w') (hinit : Initialised ry old) :
    ∃ new, Initialised ry' new := by
  obtain ⟨new, rfl, hlen, -⟩ := h.handle
  exact ⟨new, hinit.mem, rfl, hlen.trans hinit.whole, hinit.first⟩

/-- Every refresh of a run comes to an end, and one that returns 0 has a fresh sample. -/
theorem refreshes_fresh (depth : Nat) (ry : RyzenAccess) (buf : List Byte)
    (hinit : Initialised ry buf) (ws : List LiveWorld) :
    List.Forall₂ (fun w r => r.world.window = w.window ∧ (r.code = 0 → FreshSample r)) ws
      (refreshes (depth + 1) ry ws) := by
  induction ws generalizing ry buf with
  | nil => exact .nil
  | cons w ws ih =>
    obtain ⟨⟨code, ry'⟩, w', heval, hrefreshed⟩ :=
      Prog.eval_of_wpFin (refreshTableBody_live hinit { w with events := [] })
    rw [← refreshTable_of_buffer depth ry hinit.values] at heval
    obtain ⟨new, hinit'⟩ := hrefreshed.initialised hinit
    rw [refreshes, heval]
    refine .cons ⟨hrefreshed.later.window, fun hcode => ?_⟩ (ih ry' new hinit')
    obtain rfl : code = 0 := hcode
    exact hrefreshed.fresh hinit

/-- Another program has written the table, the buffer holding ones. -/
def rewrittenWorld : LiveWorld where
  window := ⟨some 0x1E0000, 0x2000, 1⟩
  smu := Stream'.const (repMsgOK, Args.zero)
  phys := Stream'.const fun _ => 2
  events := []

theorem refreshes_fresh_rewritten :
    (refreshes 1 ravenInitialised [rewrittenWorld, rewrittenWorld]).map Refresh.code = [0, 0] ∧
      List.Forall₂ (fun w r => r.world.window = w.window ∧ (r.code = 0 → FreshSample r))
        [rewrittenWorld, rewrittenWorld]
        (refreshes 1 ravenInitialised [rewrittenWorld, rewrittenWorld]) := by
  have hinit : Initialised ravenInitialised (List.replicate 0x568 1) :=
    ⟨rfl, rfl, List.length_replicate, by decide⟩
  exact ⟨by decide +kernel, refreshes_fresh 0 ravenInitialised _ hinit _⟩

end RyzenAdj
