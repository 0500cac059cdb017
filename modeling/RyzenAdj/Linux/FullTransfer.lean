import RyzenAdj.Interaction.Progress
import RyzenAdj.Linux.AtMostOnce

/-!
# Full transfers (`read_full` and `write_full`)

The two loops on a descriptor whose reads and writes have any results: whether
they end, and what has gone through the descriptor when they do. `read_full`
takes a read of nothing for the end of the file; `write_full` makes nothing of
a write of nothing, and tries again.
-/

namespace RyzenAdj
open Interaction Sys

/-- The reads or the writes made on the descriptor so far, and the bytes that went through it. -/
structure FdTrace where
  calls : Nat
  moved : List Byte

def FdTrace.start : FdTrace := ⟨0, []⟩

theorem min_length_le (n : Nat) (bytes : List Byte) : min n bytes.length ≤ bytes.length :=
  Nat.min_le_right _ _

namespace RawOutcomes
variable (out : RawOutcomes)

/-- A read gives at most what it is asked for, a write takes at most what it is given. -/
def transfer (t : FdTrace) : (o : Sys.Op) → Option (Sys.Ret o) × FdTrace
  | .read _ len =>
    (out.reads t.calls).elim (fun e => (some (.error e), { t with calls := t.calls + 1 }))
      fun bytes => (some (.got (bytes.take len) (List.length_take_le len bytes)),
        ⟨t.calls + 1, t.moved ++ bytes.take len⟩)
  | .write _ bytes =>
    (out.writes t.calls).elim (fun e => (some (.error e), { t with calls := t.calls + 1 }))
      fun n => (some (.wrote (min n bytes.length) (min_length_le n bytes)),
        ⟨t.calls + 1, t.moved ++ bytes.take n⟩)
  | _ => (Option.none, t)

/-- EINTR comes only finitely often in a row. -/
structure Resumes : Prop where
  reads : ∀ k, ∃ j, k ≤ j ∧ out.reads j ≠ .inl eIntr
  writes : ∀ k, ∃ j, k ≤ j ∧ out.writes j ≠ .inl eIntr

/-- From the `k`-th write on nothing more is taken of `len` bytes, no error but EINTR coming. -/
def Stalls (len : Nat) : Prop :=
  ∃ k, (∀ j < k, out.GoesOn j) ∧ out.sent k < len ∧
    ∀ j, k ≤ j → out.writes j = .inr 0 ∨ out.writes j = .inl eIntr

def given : Nat → Nat
  | 0 => 0
  | k + 1 => given k + (out.reads k).elim (fun _ => 0) List.length

def ReadsOn (k : Nat) : Prop :=
  out.reads k = .inl eIntr ∨ ∃ bytes, out.reads k = .inr bytes ∧ bytes ≠ []

end RawOutcomes

abbrev transferEnv (out : RawOutcomes) : Env sys FdTrace := .ofHandler out.transfer

/-- Both loops end, and return 0 exactly when all bytes have gone through the descriptor: the
buffer is then what the reads gave, one after the other, and what the writes took, one after the
other, are the bytes. -/
structure FullTransfers (out : RawOutcomes) (fd : Int) (len : Nat) (bytes : List Byte) : Prop where
  read : Prog.Ends (transferEnv out)
    (fun r t => r.data = t.moved ∧ (r.error = none ↔ t.moved.length = len))
    (readFull fd len, FdTrace.start)
  write : Prog.Ends (transferEnv out)
    (fun r t => t.moved <+: bytes ∧ (r = none ↔ t.moved = bytes))
    (writeFull fd bytes, FdTrace.start)

theorem reaches_of_grows {f : Nat → Nat} (bound : Nat)
    (hmono : ∀ k, f k ≤ f (k + 1)) (hgrows : ∀ k, f k < bound → ∃ j, k ≤ j ∧ f j < f (j + 1)) :
    ∃ k, bound ≤ f k := by
  have hle : ∀ k j, k ≤ j → f k ≤ f j := by
    intro k j hkj
    induction hkj with
    | refl => exact Nat.le_refl _
    | step _ ih => exact Nat.le_trans ih (hmono _)
  have hmin : ∀ n, ∃ k, min n bound ≤ f k := by
    intro n
    induction n with
    | zero => exact ⟨0, by omega⟩
    | succ n ih =>
      obtain ⟨k, hk⟩ := ih
      by_cases hbound : bound ≤ f k
      · exact ⟨k, by omega⟩
      · obtain ⟨j, hkj, hgrow⟩ := hgrows k (Nat.not_le.mp hbound)
        have := hle k j hkj
        exact ⟨j + 1, by omega⟩
  obtain ⟨k, hk⟩ := hmin bound
  exact ⟨k, by omega⟩

section Transfers
variable {out : RawOutcomes}

/-! ### Reads -/

theorem transfer_read_error (fd : Int) (len : Nat) {t : FdTrace} {e : Errno}
    (h : out.reads t.calls = .inl e) :
    out.transfer t (.read fd len) = (some (.error e), { t with calls := t.calls + 1 }) := by
  simp only [RawOutcomes.transfer, h, Sum.elim_inl]

theorem transfer_read_got (fd : Int) (len : Nat) {t : FdTrace} {bytes : List Byte}
    (h : out.reads t.calls = .inr bytes) :
    out.transfer t (.read fd len) =
      (some (.got (bytes.take len) (List.length_take_le len bytes)),
        ⟨t.calls + 1, t.moved ++ bytes.take len⟩) := by
  simp only [RawOutcomes.transfer, h, Sum.elim_inr]

/-- The loop of `read_full` holds what has been read. -/
structure ReadHead (out : RawOutcomes) {len : Nat} (buf : Partial len) (t : FdTrace) : Prop where
  moved : buf.val = t.moved
  given : buf.val.length = min (out.given t.calls) len

theorem ReadHead.start (out : RawOutcomes) (len : Nat) :
    ReadHead out (⟨[], Nat.zero_le len⟩ : Partial len) .start :=
  ⟨rfl, (Nat.zero_min _).symm⟩

theorem readFullTurn_goes_on (fd : Int) {len : Nat} {buf : Partial len} {t : FdTrace}
    (h : ReadHead out buf t) (hmore : buf.val.length < len) (hon : out.ReadsOn t.calls) :
    ∃ buf' t', Prog.Steps (transferEnv out) (readFullTurn fd len buf, t) (.ret (.inl buf'), t') ∧
      ReadHead out buf' t' ∧ t'.calls = t.calls + 1 := by
  rw [readFullTurn, dif_pos hmore]
  rcases hon with hread | ⟨bytes, hread, hsome⟩
  · have hnext := transfer_read_error fd (len - buf.val.length) hread
    refine ⟨buf, { t with calls := t.calls + 1 }, .head (Prog.Step.call hnext) .refl,
      ⟨h.moved, ?_⟩, rfl⟩
    simp only [RawOutcomes.given, hread, Sum.elim_inl, Nat.add_zero]
    exact h.given
  · have hnext := transfer_read_got fd (len - buf.val.length) hread
    have hpos := List.length_pos_iff.mpr hsome
    have hpiece : (bytes.take (len - buf.val.length)).length ≠ 0 := by
      rw [List.length_take]
      omega
    have hle : (buf.val ++ bytes.take (len - buf.val.length)).length ≤ len := by
      rw [List.length_append, List.length_take]
      omega
    refine ⟨⟨_, hle⟩, ⟨t.calls + 1, t.moved ++ bytes.take (len - buf.val.length)⟩,
      .head (Prog.Step.call hnext) ?_, ⟨?_, ?_⟩, rfl⟩
    · simp only [Prog.ret_bind, if_neg hpiece]
      exact .refl
    · show buf.val ++ _ = t.moved ++ _
      rw [h.moved]
    · have hgiven := h.given
      simp only [RawOutcomes.given, hread, Sum.elim_inr, List.length_append, List.length_take]
      omega

theorem readFullTurn_stops (fd : Int) {len : Nat} {buf : Partial len} {t : FdTrace}
    (h : ReadHead out buf t) (hmore : buf.val.length < len) (hoff : ¬out.ReadsOn t.calls) :
    ∃ r t', Prog.Steps (transferEnv out) (readFullTurn fd len buf, t) (.ret (.inr r), t') ∧
      r.data = t'.moved ∧ (r.error = none ↔ t'.moved.length = len) := by
  rw [readFullTurn, dif_pos hmore]
  have hshort : ∀ {e : Errno}, some e = none ↔ t.moved.length = len := by
    intro e
    refine ⟨fun hnone => absurd hnone (Option.some_ne_none e), fun hfull => ?_⟩
    rw [h.moved] at hmore
    omega
  cases hread : out.reads t.calls with
  | inl e =>
    have hfatal : e ≠ eIntr := fun he => hoff (.inl (he ▸ hread))
    have hnext := transfer_read_error fd (len - buf.val.length) hread
    refine ⟨⟨buf.val, some e, buf.property, by simp⟩, { t with calls := t.calls + 1 },
      .head (Prog.Step.call hnext) ?_, ?_⟩
    · simp only [Prog.ret_bind, if_neg hfatal]
      exact .refl
    · exact ⟨h.moved, hshort⟩
  | inr bytes =>
    have hnil : bytes = [] := by
      by_contra hsome
      exact hoff (.inr ⟨bytes, hread, hsome⟩)
    subst hnil
    have hnext := transfer_read_got fd (len - buf.val.length) hread
    have hpiece : (([] : List Byte).take (len - buf.val.length)).length = 0 := by
      rw [List.take_nil]
      rfl
    refine ⟨⟨buf.val, some eIo, buf.property, by simp⟩,
      ⟨t.calls + 1, t.moved ++ [].take (len - buf.val.length)⟩, .head (Prog.Step.call hnext) ?_, ?_⟩
    · simp only [Prog.ret_bind, if_pos hpiece]
      exact .refl
    · rw [List.take_nil, List.append_nil]
      exact ⟨h.moved, hshort⟩

theorem readFullTurn_full (fd : Int) {len : Nat} {buf : Partial len} {t : FdTrace}
    (h : ReadHead out buf t) (hfull : ¬buf.val.length < len) :
    ∃ r, Prog.Steps (transferEnv out) (readFullTurn fd len buf, t) (.ret (.inr r), t) ∧
      r.data = t.moved ∧ (r.error = none ↔ t.moved.length = len) := by
  have hlen : buf.val.length = len := Nat.le_antisymm buf.property (Nat.not_lt.mp hfull)
  rw [readFullTurn, dif_neg hfull]
  refine ⟨⟨buf.val, none, buf.property, fun _ => hlen⟩, .refl, h.moved, fun _ => ?_, fun _ => rfl⟩
  rw [← h.moved]
  exact hlen

/-- A read after which `read_full` gives up, or before which it has all it wants. -/
theorem exists_last_read (hres : out.Resumes) (len : Nat) :
    ∃ k, len ≤ out.given k ∨ ¬out.ReadsOn k := by
  by_contra hnone
  simp only [not_exists, not_or, not_not] at hnone
  have hmono : ∀ k, out.given k ≤ out.given (k + 1) := fun k => Nat.le_add_right _ _
  obtain ⟨k, hk⟩ := reaches_of_grows len hmono fun k _ => by
    obtain ⟨j, hkj, hj⟩ := hres.reads k
    obtain ⟨bytes, hread, hsome⟩ := (hnone j).2.resolve_left hj
    have hpos := List.length_pos_iff.mpr hsome
    refine ⟨j, hkj, ?_⟩
    simp only [RawOutcomes.given, hread, Sum.elim_inr]
    omega
  exact (hnone k).1 hk

theorem readLoop_ends (fd : Int) {len k : Nat} (hlast : len ≤ out.given k ∨ ¬out.ReadsOn k)
    (rest : Nat) :
    ∀ {buf : Partial len} {t : FdTrace}, ReadHead out buf t → t.calls + rest = k →
      ∃ r t', Prog.Steps (transferEnv out) (Prog.iterate buf (readFullTurn fd len), t)
        (.ret r, t') ∧ r.data = t'.moved ∧ (r.error = none ↔ t'.moved.length = len) := by
  induction rest with
  | zero =>
    intro buf t hhead hk
    obtain rfl : t.calls = k := hk
    by_cases hmore : buf.val.length < len
    · have hgiven := hhead.given
      obtain ⟨r, t', hturn, hend⟩ :=
        readFullTurn_stops fd hhead hmore (hlast.resolve_left (by omega))
      exact ⟨r, t', .leave hturn .refl, hend⟩
    · obtain ⟨r, hturn, hend⟩ := readFullTurn_full fd hhead hmore
      exact ⟨r, t, .leave hturn .refl, hend⟩
  | succ rest ih =>
    intro buf t hhead hk
    by_cases hmore : buf.val.length < len
    · by_cases hon : out.ReadsOn t.calls
      · obtain ⟨buf', t', hturn, hhead', hcalls⟩ := readFullTurn_goes_on fd hhead hmore hon
        obtain ⟨r, t'', hrest, hend⟩ := ih hhead' (by omega)
        exact ⟨r, t'', .again hturn hrest, hend⟩
      · obtain ⟨r, t', hturn, hend⟩ := readFullTurn_stops fd hhead hmore hon
        exact ⟨r, t', .leave hturn .refl, hend⟩
    · obtain ⟨r, hturn, hend⟩ := readFullTurn_full fd hhead hmore
      exact ⟨r, t, .leave hturn .refl, hend⟩

/-! ### Writes -/

theorem transfer_write_error (fd : Int) (bytes : List Byte) {t : FdTrace} {e : Errno}
    (h : out.writes t.calls = .inl e) :
    out.transfer t (.write fd bytes) = (some (.error e), { t with calls := t.calls + 1 }) := by
  simp only [RawOutcomes.transfer, h, Sum.elim_inl]

theorem transfer_write_taken (fd : Int) (bytes : List Byte) {t : FdTrace} {n : Nat}
    (h : out.writes t.calls = .inr n) :
    out.transfer t (.write fd bytes) =
      (some (.wrote (min n bytes.length) (min_length_le n bytes)),
        ⟨t.calls + 1, t.moved ++ bytes.take n⟩) := by
  simp only [RawOutcomes.transfer, h, Sum.elim_inr]

theorem writes_of_transfer_error {fd : Int} {bytes : List Byte} {e : Errno} {t t' : FdTrace}
    (h : (transferEnv out).next t (.write fd bytes) (.error e) t') :
    out.writes t.calls = .inl e ∧ t' = { t with calls := t.calls + 1 } := by
  cases hwrite : out.writes t.calls with
  | inl e' =>
    have hanswer := (transfer_write_error fd bytes hwrite).symm.trans h
    cases hanswer
    exact ⟨rfl, rfl⟩
  | inr n =>
    have hanswer := (transfer_write_taken fd bytes hwrite).symm.trans h
    cases hanswer

theorem writes_of_transfer_wrote {fd : Int} {bytes : List Byte} {n : Nat} {hn : n ≤ bytes.length}
    {t t' : FdTrace} (h : (transferEnv out).next t (.write fd bytes) (.wrote n hn) t') :
    ∃ taken, out.writes t.calls = .inr taken ∧ n = min taken bytes.length ∧
      t' = ⟨t.calls + 1, t.moved ++ bytes.take taken⟩ := by
  cases hwrite : out.writes t.calls with
  | inl e =>
    have hanswer := (transfer_write_error fd bytes hwrite).symm.trans h
    cases hanswer
  | inr taken =>
    have hanswer := (transfer_write_taken fd bytes hwrite).symm.trans h
    cases hanswer
    exact ⟨taken, rfl, rfl, rfl⟩

/-- The loop of `write_full` after `done` bytes. -/
structure WriteHead (out : RawOutcomes) (bytes : List Byte) (done : Nat) (t : FdTrace) : Prop where
  moved : t.moved = bytes.take done
  sent : done = min (out.sent t.calls) bytes.length

theorem WriteHead.start (out : RawOutcomes) (bytes : List Byte) : WriteHead out bytes 0 .start :=
  ⟨rfl, (Nat.zero_min _).symm⟩

theorem WriteHead.begins {bytes : List Byte} {done : Nat} {t : FdTrace}
    (h : WriteHead out bytes done t) : t.moved <+: bytes := by
  rw [h.moved]
  exact List.take_prefix done bytes

theorem WriteHead.short {bytes : List Byte} {done : Nat} {t : FdTrace}
    (h : WriteHead out bytes done t) (hmore : done < bytes.length) : t.moved ≠ bytes := by
  intro heq
  have hlen := congrArg List.length heq
  rw [h.moved, List.length_take] at hlen
  omega

theorem WriteHead.interrupted {bytes : List Byte} {done : Nat} {t : FdTrace}
    (h : WriteHead out bytes done t) (hwrite : out.writes t.calls = .inl eIntr) :
    WriteHead out bytes done { t with calls := t.calls + 1 } := by
  refine ⟨h.moved, ?_⟩
  simp only [RawOutcomes.sent, hwrite, Sum.elim_inl, Nat.add_zero]
  exact h.sent

theorem WriteHead.taken {bytes : List Byte} {done n : Nat} {t : FdTrace}
    (h : WriteHead out bytes done t) (hmore : done < bytes.length)
    (hwrite : out.writes t.calls = .inr n) :
    WriteHead out bytes (done + min n (bytes.drop done).length)
      ⟨t.calls + 1, t.moved ++ (bytes.drop done).take n⟩ := by
  have hsent := h.sent
  constructor
  · rw [List.take_add, h.moved, ← List.take_eq_take_min]
  · simp only [RawOutcomes.sent, hwrite, Sum.elim_inr, id, List.length_drop]
    omega

theorem writeFullTurn_goes_on (fd : Int) {bytes : List Byte} {done : Nat} {t : FdTrace}
    (h : WriteHead out bytes done t) (hmore : done < bytes.length) (hon : out.GoesOn t.calls) :
    ∃ done' t', Prog.Steps (transferEnv out) (writeFullTurn fd bytes done, t)
        (.ret (.inl done'), t') ∧
      WriteHead out bytes done' t' ∧ t'.calls = t.calls + 1 := by
  rw [writeFullTurn, if_pos hmore]
  cases hwrite : out.writes t.calls with
  | inl e =>
    obtain rfl := hon e hwrite
    have hnext := transfer_write_error fd (bytes.drop done) hwrite
    exact ⟨done, { t with calls := t.calls + 1 }, .head (Prog.Step.call hnext) .refl,
      h.interrupted hwrite, rfl⟩
  | inr n =>
    have hnext := transfer_write_taken fd (bytes.drop done) hwrite
    exact ⟨_, ⟨t.calls + 1, t.moved ++ (bytes.drop done).take n⟩,
      .head (Prog.Step.call hnext) .refl, h.taken hmore hwrite, rfl⟩

theorem writeFullTurn_stops (fd : Int) {bytes : List Byte} {done : Nat} {t : FdTrace}
    (h : WriteHead out bytes done t) (hmore : done < bytes.length) (hoff : ¬out.GoesOn t.calls) :
    ∃ r t', Prog.Steps (transferEnv out) (writeFullTurn fd bytes done, t) (.ret (.inr r), t') ∧
      t'.moved <+: bytes ∧ (r = none ↔ t'.moved = bytes) := by
  rw [writeFullTurn, if_pos hmore]
  obtain ⟨e, hwrite, hfatal⟩ : ∃ e, out.writes t.calls = .inl e ∧ e ≠ eIntr := by
    simpa [RawOutcomes.GoesOn] using hoff
  have hnext := transfer_write_error fd (bytes.drop done) hwrite
  refine ⟨some e, { t with calls := t.calls + 1 }, .head (Prog.Step.call hnext) ?_, h.begins, ?_⟩
  · simp only [Prog.ret_bind, if_neg hfatal]
    exact .refl
  · exact ⟨fun hnone => absurd hnone (Option.some_ne_none e), fun hall =>
    absurd hall (h.short hmore)⟩

theorem writeFullTurn_done (fd : Int) {bytes : List Byte} {done : Nat} {t : FdTrace}
    (h : WriteHead out bytes done t) (hdone : ¬done < bytes.length) :
    Prog.Steps (transferEnv out) (writeFullTurn fd bytes done, t) (.ret (.inr none), t) ∧
      t.moved = bytes := by
  rw [writeFullTurn, if_neg hdone]
  refine ⟨.refl, ?_⟩
  rw [h.moved, List.take_of_length_le (Nat.not_lt.mp hdone)]

/-- Where the writes do not stall there is one after which `write_full` gives up, or before which
all is written. -/
theorem exists_last_write {len : Nat} (h : ¬out.Stalls len) :
    ∃ k, len ≤ out.sent k ∨ ¬out.GoesOn k := by
  by_contra hnone
  simp only [not_exists, not_or, not_not, Nat.not_le] at hnone
  have hmono : ∀ k, out.sent k ≤ out.sent (k + 1) := fun k => Nat.le_add_right _ _
  obtain ⟨k, hk⟩ := reaches_of_grows len hmono fun k hlt => by
    by_contra hstay
    refine h ⟨k, fun j _ => (hnone j).2, hlt, fun j hkj => ?_⟩
    cases hwrite : out.writes j with
    | inl e => exact .inr (congrArg Sum.inl ((hnone j).2 e hwrite))
    | inr n =>
      have hzero : n = 0 := by
        by_contra hpos
        refine hstay ⟨j, hkj, ?_⟩
        simp only [RawOutcomes.sent, hwrite, Sum.elim_inr, id]
        omega
      exact .inl (congrArg Sum.inr hzero)
  exact absurd (hnone k).1 (Nat.not_lt.mpr hk)

theorem writeLoop_ends (fd : Int) {bytes : List Byte} {k : Nat}
    (hlast : bytes.length ≤ out.sent k ∨ ¬out.GoesOn k) (rest : Nat) :
    ∀ {done : Nat} {t : FdTrace}, WriteHead out bytes done t → t.calls + rest = k →
      ∃ r t', Prog.Steps (transferEnv out) (Prog.iterate done (writeFullTurn fd bytes), t)
        (.ret r, t') ∧ t'.moved <+: bytes ∧ (r = none ↔ t'.moved = bytes) := by
  have hdone : ∀ {done : Nat} {t : FdTrace}, WriteHead out bytes done t → ¬done < bytes.length →
      ∃ r t', Prog.Steps (transferEnv out) (Prog.iterate done (writeFullTurn fd bytes), t)
        (.ret r, t') ∧ t'.moved <+: bytes ∧ (r = none ↔ t'.moved = bytes) := by
    intro done t hhead hmore
    obtain ⟨hturn, hall⟩ := writeFullTurn_done fd hhead hmore
    exact ⟨none, t, .leave hturn .refl, hhead.begins, fun _ => hall, fun _ => rfl⟩
  induction rest with
  | zero =>
    intro done t hhead hk
    obtain rfl : t.calls = k := hk
    by_cases hmore : done < bytes.length
    · have hsent := hhead.sent
      obtain ⟨r, t', hturn, hend⟩ :=
        writeFullTurn_stops fd hhead hmore (hlast.resolve_left (by omega))
      exact ⟨r, t', .leave hturn .refl, hend⟩
    · exact hdone hhead hmore
  | succ rest ih =>
    intro done t hhead hk
    by_cases hmore : done < bytes.length
    · by_cases hon : out.GoesOn t.calls
      · obtain ⟨done', t', hturn, hhead', hcalls⟩ := writeFullTurn_goes_on fd hhead hmore hon
        obtain ⟨r, t'', hrest, hend⟩ := ih hhead' (by omega)
        exact ⟨r, t'', .again hturn hrest, hend⟩
      · obtain ⟨r, t', hturn, hend⟩ := writeFullTurn_stops fd hhead hmore hon
        exact ⟨r, t', .leave hturn .refl, hend⟩
    · exact hdone hhead hmore

/-- Where the writes stall `write_full` does not return. -/
theorem writeFull_stalls (fd : Int) {bytes : List Byte} (h : out.Stalls bytes.length) :
    (writeFull fd bytes).Wp (transferEnv out) (fun _ _ => False) FdTrace.start := by
  obtain ⟨k, hgoes, hroom, hzero⟩ := h
  have hend : ∀ j, out.GoesOn j := by
    intro j e he
    rcases Nat.lt_or_ge j k with hlt | hge
    · exact hgoes j hlt e he
    · rcases hzero j hge with hj | hj
      · cases hj.symm.trans he
      · exact (Sum.inl.inj (hj.symm.trans he)).symm
  have hstay : ∀ j, k ≤ j → out.sent j = out.sent k := by
    intro j hkj
    induction hkj with
    | refl => rfl
    | @step j hkj ih =>
      rw [RawOutcomes.sent, ih]
      rcases hzero j hkj with hj | hj <;> simp [hj]
  have hshort : ∀ j, out.sent j < bytes.length := by
    intro j
    rcases Nat.le_total j k with hle | hge
    · exact Nat.lt_of_le_of_lt (sent_le hle) hroom
    · rw [hstay j hge]
      exact hroom
  refine writeFull_rule (WriteHead out bytes) (.start out bytes) ?_ ?_ ?_ ?_ ?_
  · exact fun _ _ _ _ => trivial
  · intro done t t' _ hhead hnext
    obtain ⟨hwrite, rfl⟩ := writes_of_transfer_error hnext
    exact hhead.interrupted hwrite
  · intro done t e t' _ _ hfatal hnext
    exact hfatal (hend t.calls e (writes_of_transfer_error hnext).1)
  · intro done t n hn t' hmore hhead hnext
    obtain ⟨taken, hwrite, rfl, rfl⟩ := writes_of_transfer_wrote hnext
    exact hhead.taken hmore hwrite
  · intro done t hdone hhead
    have := hshort t.calls
    have := hhead.sent
    omega

end Transfers

/-- As long as EINTR comes only finitely often in a row, `read_full` and `write_full` end as full
transfers do exactly if the writes do not stall. -/
theorem full_transfers (out : RawOutcomes) (hres : out.Resumes) (fd : Int) (len : Nat)
    (bytes : List Byte) : FullTransfers out fd len bytes ↔ ¬out.Stalls bytes.length := by
  constructor
  · intro h hstalls
    obtain ⟨r, t, hrun, -⟩ := h.write.exists_result
    exact Prog.wp_result _ hrun (writeFull_stalls fd hstalls)
  · intro h
    obtain ⟨k, hread⟩ := exists_last_read hres len
    obtain ⟨j, hwrite⟩ := exists_last_write h
    obtain ⟨r, t, hrun, hend⟩ := readLoop_ends fd hread k (.start out len) (Nat.zero_add k)
    obtain ⟨r', t', hrun', hend'⟩ := writeLoop_ends fd hwrite j (.start out bytes) (Nat.zero_add j)
    exact ⟨Prog.ends_of_steps hrun hend, Prog.ends_of_steps hrun' hend'⟩

def pairOutcomes : RawOutcomes where
  seeks _ := none
  writes k := if k % 2 = 0 then .inl eIntr else .inr 2
  reads k := if k % 2 = 0 then .inl eIntr else .inr [1, 2]

theorem pairOutcomes_resumes : pairOutcomes.Resumes := by
  constructor <;> intro k <;> refine ⟨2 * k + 1, by omega, ?_⟩
  · simp [pairOutcomes]
  · simp [pairOutcomes]

theorem full_transfers_pairs : FullTransfers pairOutcomes 3 5 [1, 2, 3] := by
  refine (full_transfers pairOutcomes pairOutcomes_resumes 3 5 [1, 2, 3]).mpr ?_
  rintro ⟨k, -, -, hzero⟩
  have hodd := hzero (2 * k + 1) (by omega)
  simp [pairOutcomes] at hodd

/-- A descriptor that takes nothing. -/
def idleOutcomes : RawOutcomes where
  seeks _ := none
  writes _ := .inr 0
  reads _ := .inr []

theorem write_of_nothing_repeated :
    idleOutcomes.Resumes ∧ ¬FullTransfers idleOutcomes 3 1 [1] ∧
      ¬∃ r t, Prog.Steps (transferEnv idleOutcomes) (writeFull 3 [1], FdTrace.start)
        (.ret r, t) := by
  have hresumes : idleOutcomes.Resumes := by
    constructor <;> exact fun k => ⟨k, Nat.le_refl k, by simp [idleOutcomes]⟩
  have hstalls : idleOutcomes.Stalls 1 :=
    ⟨0, by simp, by simp [RawOutcomes.sent], fun _ _ => .inl rfl⟩
  have hnever : ¬∃ r t, Prog.Steps (transferEnv idleOutcomes)
      (writeFull 3 [1], FdTrace.start) (.ret r, t) := by
    rintro ⟨r, t, hrun⟩
    exact Prog.wp_result _ hrun (writeFull_stalls 3 hstalls)
  refine ⟨hresumes, fun h => hnever ?_, hnever⟩
  obtain ⟨r, t, hrun, -⟩ := h.write.exists_result
  exact ⟨r, t, hrun⟩

end RyzenAdj
