import RyzenAdj.Api.TableCalls
import RyzenAdj.Linux.Kmod
import RyzenAdj.Linux.Mem

/-!
# A refresh that fails

`refresh_table` on a handle with a PM table, the copy coming from the backend
of the handle: `read_full` on the PM-table file, whose reads have any outcomes,
or one `memcpy` from the mapping. `read_full` stores each piece into the live
buffer as it comes, so that an error after some pieces leaves them there.
-/

namespace RyzenAdj
open Interaction Sys

/-! ### Reads of the PM-table file -/

/-- The outcomes of `lseek` and of the reads: an error, or what the kernel has to give, nothing
being the end of the file. -/
structure TableFile where
  seek : Option Errno
  reads : Nat → Errno ⊕ List Byte

namespace TableFile
variable (file : TableFile)

/-- The state counts the reads. -/
def answer (k : Nat) : (o : Sys.Op) → Option (Sys.Ret o) × Nat
  | .lseek _ => (some file.seek, k)
  | .read _ len =>
    (some (match file.reads k with
      | .inl e => .error e
      | .inr bytes => .got (bytes.take len) (List.length_take_le len bytes)), k + 1)
  | _ => (none, k)

def piece (k : Nat) : List Byte := (file.reads k).elim (fun _ => []) id

def got : Nat → List Byte
  | 0 => []
  | k + 1 => got k ++ file.piece k

def Fatal (k : Nat) : Prop :=
  match file.reads k with
  | .inl e => e ≠ eIntr
  | .inr bytes => bytes = []

instance (k : Nat) : Decidable (file.Fatal k) :=
  match h : file.reads k with
  | .inl e => decidable_of_iff (e ≠ eIntr) (by simp [Fatal, h])
  | .inr bytes => decidable_of_iff (bytes = []) (by simp [Fatal, h])

/-- The `n`-th read is the first after which `read_full` gives up, with the buffer not full. -/
def FailsAt (size n : Nat) : Prop :=
  (∀ k < n, ¬file.Fatal k) ∧ (file.got n).length < size ∧ file.Fatal n

end TableFile

abbrev tableFileEnv (file : TableFile) : Env sys Nat := .ofHandler file.answer

section Reads
variable {file : TableFile} {size : Nat}

theorem got_le {j k : Nat} (h : j ≤ k) : (file.got j).length ≤ (file.got k).length := by
  induction h with
  | refl => exact Nat.le_refl _
  | step _ ih =>
    rw [TableFile.got, List.length_append]
    omega

theorem read_error (fd : Int) (len : Nat) {k : Nat} {e : Errno} (h : file.reads k = .inl e) :
    file.answer k (.read fd len) = (some (.error e), k + 1) := by
  simp only [TableFile.answer, h]

theorem read_got (fd : Int) (len : Nat) {k : Nat} {bytes : List Byte}
    (h : file.reads k = .inr bytes) :
    file.answer k (.read fd len) =
      (some (.got (bytes.take len) (List.length_take_le len bytes)), k + 1) := by
  simp only [TableFile.answer, h]

theorem reads_of_error {fd : Int} {len k k' : Nat} {e : Errno}
    (h : (tableFileEnv file).next k (.read fd len) (.error e) k') :
    file.reads k = .inl e ∧ k' = k + 1 := by
  cases hread : file.reads k with
  | inl e' =>
    have hanswer := (read_error fd len hread).symm.trans h
    cases hanswer
    exact ⟨rfl, rfl⟩
  | inr bytes =>
    have hanswer := (read_got fd len hread).symm.trans h
    cases hanswer

theorem reads_of_got {fd : Int} {len k k' : Nat} {piece : List Byte} {hpiece : piece.length ≤ len}
    (h : (tableFileEnv file).next k (.read fd len) (.got piece hpiece) k') :
    ∃ bytes, file.reads k = .inr bytes ∧ piece = bytes.take len ∧ k' = k + 1 := by
  cases hread : file.reads k with
  | inl e =>
    have hanswer := (read_error fd len hread).symm.trans h
    cases hanswer
  | inr bytes =>
    have hanswer := (read_got fd len hread).symm.trans h
    cases hanswer
    exact ⟨bytes, rfl, rfl, rfl⟩

/-- A read that goes on leaves its piece in the buffer, as far as there is room. -/
theorem readTurn_goes_on (fd : Int) {k : Nat} (buf : Partial size) (hroom : buf.val.length < size)
    (hk : ¬file.Fatal k) :
    ∃ buf' : Partial size, Prog.Steps (tableFileEnv file) (readFullTurn fd size buf, k)
      (.ret (.inl buf'), k + 1) ∧ buf'.val = (buf.val ++ file.piece k).take size := by
  unfold TableFile.Fatal at hk
  unfold TableFile.piece
  cases hread : file.reads k with
  | inl e =>
    have hintr : e = eIntr := by simpa [hread] using hk
    have hnext := read_error fd (size - buf.val.length) hread
    refine ⟨buf, ?_, ?_⟩
    · rw [readFullTurn, dif_pos hroom]
      refine .head (Prog.Step.call hnext) ?_
      simp only [Prog.ret_bind, if_pos hintr]
      exact .refl
    · rw [Sum.elim_inl, List.append_nil, List.take_of_length_le buf.property]
  | inr bytes =>
    have hsome : bytes ≠ [] := by simpa [hread] using hk
    have hnext := read_got fd (size - buf.val.length) hread
    have hpos := List.length_pos_iff.mpr hsome
    have hpiece : (bytes.take (size - buf.val.length)).length ≠ 0 := by
      rw [List.length_take]
      omega
    have hle : (buf.val ++ bytes.take (size - buf.val.length)).length ≤ size := by
      rw [List.length_append, List.length_take]
      omega
    refine ⟨⟨_, hle⟩, ?_, ?_⟩
    · rw [readFullTurn, dif_pos hroom]
      refine .head (Prog.Step.call hnext) ?_
      simp only [Prog.ret_bind, if_neg hpiece]
      exact .refl
    · rw [Sum.elim_inr, List.take_append, List.take_of_length_le buf.property]
      rfl

/-- A read that does not ends the transfer with an error and what is in the buffer. -/
theorem readTurn_fatal (fd : Int) {k : Nat} (buf : Partial size) (hroom : buf.val.length < size)
    (hk : file.Fatal k) :
    ∃ t, Prog.Steps (tableFileEnv file) (readFullTurn fd size buf, k) (.ret (.inr t), k + 1) ∧
      t.data = buf.val ∧ t.error.isSome = true := by
  unfold TableFile.Fatal at hk
  cases hread : file.reads k with
  | inl e =>
    have hfatal : e ≠ eIntr := by simpa [hread] using hk
    have hnext := read_error fd (size - buf.val.length) hread
    refine ⟨⟨buf.val, some e, buf.property, by simp⟩, ?_, rfl, rfl⟩
    rw [readFullTurn, dif_pos hroom]
    refine .head (Prog.Step.call hnext) ?_
    simp only [Prog.ret_bind, if_neg hfatal]
    exact .refl
  | inr bytes =>
    have hnil : bytes = [] := by simpa [hread] using hk
    have hnext := read_got fd (size - buf.val.length) hread
    have hpiece : (bytes.take (size - buf.val.length)).length = 0 := by
      rw [hnil, List.take_nil]
      rfl
    refine ⟨⟨buf.val, some eIo, buf.property, by simp⟩, ?_, rfl, rfl⟩
    rw [readFullTurn, dif_pos hroom]
    refine .head (Prog.Step.call hnext) ?_
    simp only [Prog.ret_bind, if_pos hpiece]
    exact .refl

/-- Up to the failing read the buffer holds what the reads before it gave. -/
theorem readLoop_fails (fd : Int) {n : Nat} (hn : file.FailsAt size n) (m : Nat) :
    ∀ {k : Nat} (buf : Partial size), buf.val = file.got k → k + m = n →
      ∃ t, Prog.Steps (tableFileEnv file) (Prog.iterate buf (readFullTurn fd size), k)
        (.ret t, n + 1) ∧ t.data = file.got n ∧ t.error.isSome = true := by
  obtain ⟨hgoes, hroom, hfatal⟩ := hn
  induction m with
  | zero =>
    intro k buf hbuf hk
    obtain rfl : k = n := hk
    obtain ⟨t, hturn, hdata, herror⟩ := readTurn_fatal fd buf (by rwa [hbuf]) hfatal
    exact ⟨t, .leave hturn .refl, hdata.trans hbuf, herror⟩
  | succ m ih =>
    intro k buf hbuf hk
    have hbefore : k < n := by omega
    have hnow : (file.got k).length ≤ (file.got n).length := got_le (Nat.le_of_lt hbefore)
    have hlater : (file.got (k + 1)).length ≤ (file.got n).length := got_le hbefore
    obtain ⟨buf', hturn, hbuf'⟩ :=
      readTurn_goes_on fd buf (by rw [hbuf]; omega) (hgoes k hbefore)
    have hgot : buf'.val = file.got (k + 1) := by
      rw [hbuf', hbuf]
      exact List.take_of_length_le (Nat.le_trans hlater (Nat.le_of_lt hroom))
    obtain ⟨t, hrest, hdone⟩ := ih buf' hgot (by omega)
    exact ⟨t, .again hturn hrest, hdone⟩

/-- A transfer that ends with an error failed at some read, and stored what the reads before
it gave. -/
theorem readFull_wp (fd : Int) : (readFull fd size).Wp (tableFileEnv file)
    (fun t _ => t.error.isSome = true → ∃ n, file.FailsAt size n ∧ t.data = file.got n) 0 := by
  have hroomy : ∀ {buf : List Byte} {k : Nat}, buf.length < size → buf = (file.got k).take size →
      (file.got k).length < size ∧ buf = file.got k := by
    intro buf k hroom hbuf
    have hlen : (file.got k).length < size := by
      rw [hbuf, List.length_take] at hroom
      omega
    exact ⟨hlen, by rw [hbuf, List.take_of_length_le (Nat.le_of_lt hlen)]⟩
  have hstep : ∀ {k : Nat}, (∀ j < k, ¬file.Fatal j) → ¬file.Fatal k →
      ∀ j < k + 1, ¬file.Fatal j := by
    intro k hgoes hk j hj
    rcases Nat.lt_succ_iff_lt_or_eq.mp hj with hlt | rfl
    · exact hgoes j hlt
    · exact hk
  -- nothing has failed, and the buffer holds what was read
  refine readFull_rule (Q := fun data error _ =>
      error.isSome = true → ∃ n, file.FailsAt size n ∧ data = file.got n)
    (fun buf k => buf = (file.got k).take size ∧ ∀ j < k, ¬file.Fatal j)
    ⟨List.take_nil.symm, by simp⟩ ?_ ?_ ?_ ?_ ?_ ?_
  · exact fun _ _ _ _ => trivial
  · rintro buf k k' _ ⟨hbuf, hgoes⟩ hnext
    obtain ⟨hread, rfl⟩ := reads_of_error hnext
    have hk : ¬file.Fatal k := by simp [TableFile.Fatal, hread]
    refine ⟨?_, hstep hgoes hk⟩
    simp only [TableFile.got, TableFile.piece, hread, Sum.elim_inl, List.append_nil, hbuf]
  · rintro buf k e k' hroom ⟨hbuf, hgoes⟩ hfatal hnext _
    obtain ⟨hread, rfl⟩ := reads_of_error hnext
    obtain ⟨hlen, hval⟩ := hroomy hroom hbuf
    have hk : file.Fatal k := by simpa [TableFile.Fatal, hread] using hfatal
    exact ⟨k, ⟨hgoes, hlen, hk⟩, hval⟩
  · rintro buf k piece hpiece k' hroom ⟨hbuf, hgoes⟩ hempty hnext _
    obtain ⟨bytes, hread, rfl, rfl⟩ := reads_of_got hnext
    obtain ⟨hlen, hval⟩ := hroomy hroom hbuf
    have hnil : bytes = [] := by
      rw [List.length_take] at hempty
      exact List.length_eq_zero_iff.mp (by omega)
    have hk : file.Fatal k := by simp [TableFile.Fatal, hread, hnil]
    exact ⟨k, ⟨hgoes, hlen, hk⟩, hval⟩
  · rintro buf k piece hpiece k' hroom ⟨hbuf, hgoes⟩ hsome hnext
    obtain ⟨bytes, hread, rfl, rfl⟩ := reads_of_got hnext
    obtain ⟨-, hval⟩ := hroomy hroom hbuf
    have hne : bytes ≠ [] := by
      rintro rfl
      exact hsome (by rw [List.take_nil]; rfl)
    have hk : ¬file.Fatal k := by simpa [TableFile.Fatal, hread] using hne
    refine ⟨?_, hstep hgoes hk⟩
    rw [TableFile.got, TableFile.piece, hread, Sum.elim_inr, id, List.take_append,
      ← hval, List.take_of_length_le (Nat.le_of_lt hroom)]
  · exact fun _ _ _ _ herror => absurd herror Bool.false_ne_true

def TableFile.Opened (file : TableFile) (o : KmodObj) (size : Nat) : Prop :=
  0 ≤ o.pmTableFd ∧ o.pmTableSize ≠ 0 ∧ size ≤ o.pmTableSize ∧ file.seek = none

theorem copyPmTableKmod_error {o : KmodObj} {t : Transfer size} {k : Nat}
    (h : Prog.Steps (tableFileEnv file) (copyPmTableKmod o size, 0) (.ret t, k))
    (herror : t.error.isSome = true) :
    t.data = [] ∨ file.Opened o size ∧ ∃ n, file.FailsAt size n ∧ t.data = file.got n := by
  suffices hwp : (copyPmTableKmod o size).Wp (tableFileEnv file) (fun t _ =>
      t.error.isSome = true → t.data = [] ∨ file.Opened o size ∧
        ∃ n, file.FailsAt size n ∧ t.data = file.got n) 0 from Prog.wp_result _ h hwp herror
  unfold copyPmTableKmod
  apply Prog.wp_ite
  · exact fun _ _ => .inl rfl
  · intro hfd
    apply Prog.wp_ite
    · exact fun _ _ => .inl rfl
    · intro hle
      refine ⟨trivial, fun r k' hnext => ?_⟩
      cases r with
      | some e => exact fun _ => .inl rfl
      | none =>
        have hpair : (some file.seek, 0) = (some none, k') := hnext
        obtain ⟨hseek, rfl⟩ := Prod.mk.inj hpair
        have hopen : file.Opened o size := by
          refine ⟨?_, fun h => hfd (.inr h), Nat.not_lt.mp hle, Option.some.inj hseek⟩
          by_contra hneg
          exact hfd (.inl (Int.not_le.mp hneg))
        exact Prog.wp_mono _ (readFull_wp o.pmTableFd) fun t _ ht herror =>
          .inr ⟨hopen, ht herror⟩

theorem copyPmTableKmod_fails {o : KmodObj} {n : Nat} (hopen : file.Opened o size)
    (hn : file.FailsAt size n) :
    ∃ t k, Prog.Steps (tableFileEnv file) (copyPmTableKmod o size, 0) (.ret t, k) ∧
      t.data = file.got n ∧ t.error.isSome = true := by
  obtain ⟨hfd, hsize, hle, hseek⟩ := hopen
  obtain ⟨t, hread, hdone⟩ := readLoop_fails o.pmTableFd hn n ⟨[], by simp⟩ rfl (Nat.zero_add n)
  have hnext : (tableFileEnv file).next 0 (.lseek o.pmTableFd) none 0 := by
    show (_, _) = (_, _)
    rw [hseek]
  refine ⟨t, n + 1, ?_, hdone⟩
  unfold copyPmTableKmod
  have hclosed : ¬(o.pmTableFd < 0 ∨ o.pmTableSize = 0) := by
    rintro (h | h)
    · omega
    · exact hsize h
  rw [if_neg hclosed, if_neg (Nat.not_lt.mpr hle)]
  exact .head (Prog.Step.call hnext) hread

end Reads

/-! ### Refreshing -/

theorem overwrite_eq_self {buf data : List Byte} : overwrite buf data = buf ↔ data <+: buf := by
  constructor
  · intro h
    rw [← h]
    exact List.prefix_append data _
  · rintro ⟨rest, rfl⟩
    rw [overwrite, List.drop_left]

/-- What a copy of the table leaves, on the backend of the object. -/
def CopiedBy (file : TableFile) (m : PhyMap) (phys : Nat → Byte) (size : Nat) :
    OsAccessObj → Transfer size → Prop
  | .kmod o, t => ∃ k, Prog.Steps (tableFileEnv file) (copyPmTableKmod o size, 0) (.ret t, k)
  | .mem _, t => t = copyPmTableMem m phys size

/-- A refresh that returns an error has left the table alone, whatever the SMU answered. -/
def RefreshAtomic (depth : Nat) (ry : RyzenAccess) (buf : List Byte) (t : Transfer ry.tableSize) :
    Prop :=
  ∀ w code ry' w', w.copied.head ry.tableSize = t →
    (refreshTable (depth + 1) ry).eval (World.answer ry.osAccess.isKmod) w =
      (some (code, ry'), w') →
    code ≠ 0 → ry'.tableValues = some buf

/-- The reads of the PM-table file fail after pieces that are not what the table began with. -/
def TornBy (file : TableFile) (size : Nat) (buf : List Byte) : OsAccessObj → Prop
  | .kmod o => file.Opened o size ∧ ∃ n, file.FailsAt size n ∧ ¬file.got n <+: buf
  | .mem _ => False

section Refresh
variable {depth : Nat} {ry : RyzenAccess} {buf : List Byte} {t : Transfer ry.tableSize}

theorem refreshAtomic_of_stored (hbuf : ry.tableValues = some buf)
    (hinit : Refreshable ry.osAccess.isKmod ry.tableSize buf)
    (hpre : t.error.isSome = true → t.data <+: buf) : RefreshAtomic depth ry buf t := by
  rintro w code ry' w' rfl heval hcode
  rw [refreshTable_of_buffer depth ry hbuf] at heval
  have hend := refreshTableBody_end ry hbuf hinit w
  rw [heval] at hend
  cases hend with
  | rejected code smu compared _ _ _ => exact hbuf
  | failed smu compared herror => exact congrArg some (overwrite_eq_self.mpr (hpre herror))
  | done smu compared _ => exact absurd rfl hcode

theorem refreshAtomic_kmod (hbuf : ry.tableValues = some buf) (hkmod : ry.osAccess.isKmod = true)
    (hinit : Refreshable ry.osAccess.isKmod ry.tableSize buf) (herror : t.error.isSome = true)
    (h : RefreshAtomic depth ry buf t) : t.data <+: buf := by
  let copied : (size : Nat) → Transfer size := fun size =>
    if hsize : size = ry.tableSize then hsize ▸ t else .failed size eIo
  have hcopied : copied ry.tableSize = t := dif_pos rfl
  let w : World := ⟨Stream'.const (repMsgOK, .zero), Stream'.const true, Stream'.const true,
    Stream'.const 0, Stream'.const copied, []⟩
  have hhead : w.copied.head ry.tableSize = t := hcopied
  have hend := refreshTableBody_end ry hbuf hinit w
  rw [← refreshTable_of_buffer depth ry hbuf] at hend
  generalize heval : (refreshTable (depth + 1) ry).eval (World.answer ry.osAccess.isKmod) w = r
    at hend
  cases hend with
  | rejected code smu compared hdriver _ _ =>
    rw [hkmod] at hdriver
    cases hdriver
  | failed smu compared _ =>
    have hsame := h w _ _ _ hhead heval (by decide)
    rw [← overwrite_eq_self, ← hhead]
    exact Option.some.inj hsame
  | done smu compared hnone =>
    rw [hhead] at hnone
    rw [hnone] at herror
    cases herror

end Refresh

/-- A refresh that fails leaves the table as it was, exactly if no reads of the PM-table file fail
after pieces that are not what the table began with. -/
theorem refresh_atomic (depth : Nat) (ry : RyzenAccess) (buf : List Byte)
    (hbuf : ry.tableValues = some buf)
    (hinit : Refreshable ry.osAccess.isKmod ry.tableSize buf)
    (file : TableFile) (m : PhyMap) (phys : Nat → Byte) :
    (∀ t, CopiedBy file m phys ry.tableSize ry.osAccess t → RefreshAtomic depth ry buf t) ↔
      ¬TornBy file ry.tableSize buf ry.osAccess := by
  constructor
  · intro h htorn
    cases hobj : ry.osAccess with
    | mem o =>
      rw [hobj] at htorn
      exact htorn
    | kmod o =>
      rw [hobj] at htorn h
      obtain ⟨hopen, n, hn, hdiffer⟩ := htorn
      obtain ⟨t, k, hrun, hdata, herror⟩ := copyPmTableKmod_fails hopen hn
      have hkmod : ry.osAccess.isKmod = true := by rw [hobj]; rfl
      have hpre := refreshAtomic_kmod hbuf hkmod hinit herror (h t ⟨k, hrun⟩)
      rw [hdata] at hpre
      exact hdiffer hpre
  · intro h t ht
    refine refreshAtomic_of_stored hbuf hinit fun herror => ?_
    cases hobj : ry.osAccess with
    | mem o =>
      rw [hobj] at ht
      have hnil : t.data = [] := by
        rw [show t = copyPmTableMem m phys ry.tableSize from ht] at herror ⊢
        rcases copyPmTableMem_cases m phys ry.tableSize with hfailed | ⟨src, -, -, hdone⟩
        · rw [hfailed]
          rfl
        · rw [hdone] at herror
          cases herror
      rw [hnil]
      exact List.nil_prefix
    | kmod o =>
      rw [hobj] at ht h
      obtain ⟨k, hrun⟩ := ht
      rcases copyPmTableKmod_error hrun herror with hnil | ⟨hopen, n, hn, hdata⟩
      · rw [hnil]
        exact List.nil_prefix
      · by_contra hdiffer
        rw [hdata] at hdiffer
        exact h ⟨hopen, n, hn, hdiffer⟩

def driverHandle : RyzenAccess :=
  { freshHandle (.kmod ⟨3, 4, 5, 0x568⟩) ⟨.kmod ⟨3, 4, 5, 0x568⟩, 0x3B10528, 0x3B10564, 0x3B10998⟩
      ⟨.kmod ⟨3, 4, 5, 0x568⟩, 0x3B10A20, 0x3B10A80, 0x3B10A88⟩ .raven with
    tableVer := 0x1E0001
    tableSize := 0x568
    tableValues := some (List.replicate 0x568 1) }

theorem driverHandle_refreshable :
    Refreshable driverHandle.osAccess.isKmod driverHandle.tableSize (List.replicate 0x568 1) := by
  have hlen : (List.replicate 0x568 (1 : Byte)).length = 0x568 := List.length_replicate
  refine ⟨Nat.le_of_eq hlen.symm, by rw [hlen]; decide, by rw [hlen]; decide⟩

/-- The first read fails. -/
theorem refresh_atomic_unread : ¬TornBy ⟨none, fun _ => .inl eIo⟩ 0x568 (List.replicate 0x568 1)
      driverHandle.osAccess ∧
    ∀ t, CopiedBy ⟨none, fun _ => .inl eIo⟩ ⟨none, 0, 0⟩
      (fun _ => 0) 0x568 driverHandle.osAccess t →
      RefreshAtomic 0 driverHandle (List.replicate 0x568 1) t := by
  have hwhole : ¬TornBy ⟨none, fun _ => .inl eIo⟩ 0x568 (List.replicate 0x568 1)
      driverHandle.osAccess := by
    rintro ⟨-, n, ⟨hgoes, -, -⟩, hdiffer⟩
    cases n with
    | zero => exact hdiffer List.nil_prefix
    | succ n => exact hgoes 0 (Nat.succ_pos n) (by decide)
  exact ⟨hwhole, (refresh_atomic 0 driverHandle _ rfl driverHandle_refreshable _ _ _).mpr hwhole⟩

def failingFile : TableFile := ⟨none, fun k => if k = 0 then .inr [2, 2, 2, 2] else .inl eIo⟩

/-- The refresh returns an error, and the first cell of the table is new. -/
theorem failed_read_tears_table :
    (∃ t k, Prog.Steps (tableFileEnv failingFile) (copyPmTableKmod ⟨3, 4, 5, 0x568⟩ 0x568, 0)
      (.ret t, k) ∧ t.data = [2, 2, 2, 2] ∧ t.error.isSome = true) ∧
    ¬∀ t, CopiedBy failingFile ⟨none, 0, 0⟩ (fun _ => 0) 0x568 driverHandle.osAccess t →
      RefreshAtomic 0 driverHandle (List.replicate 0x568 1) t := by
  have hopen : failingFile.Opened ⟨3, 4, 5, 0x568⟩ 0x568 := ⟨by decide, by decide, by decide, rfl⟩
  have hfails : failingFile.FailsAt 0x568 1 := by
    refine ⟨fun k hk => ?_, by decide, by decide⟩
    obtain rfl : k = 0 := by omega
    decide
  obtain ⟨t, k, hrun, hdata, herror⟩ := copyPmTableKmod_fails hopen hfails
  refine ⟨⟨t, k, hrun, hdata, herror⟩, fun h => ?_⟩
  have hpre := refreshAtomic_kmod rfl rfl driverHandle_refreshable herror (h t ⟨k, hrun⟩)
  rw [hdata] at hpre
  obtain ⟨rest, hrest⟩ := hpre
  cases hrest

end RyzenAdj
