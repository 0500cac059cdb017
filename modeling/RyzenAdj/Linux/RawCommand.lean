import RyzenAdj.Linux.Kmod
import RyzenAdj.Smu.RegisterPath

/-!
# The raw-command path against an answering driver

The `smu_raw_cmd` attribute without faults, taking and giving any number of
bytes at a time: a request goes in whole, and what comes back is the driver's
report of the SMU's answer.
-/

namespace RyzenAdj
open Interaction Sys

/-- What the driver reports: the SMU's code and words, or its own timeout status with
whatever the result words were. -/
def driverReport (junk : Args) : Option SmuAnswer → List Word
  | some a => [a.code, a.result.arg0, a.result.arg1, a.result.arg2, a.result.arg3, a.result.arg4,
      a.result.arg5]
  | none => [rsmuRetCmdTimeout, junk.arg0, junk.arg1, junk.arg2, junk.arg3, junk.arg4, junk.arg5]

structure RawFile where
  calls : Nat
  taken : Nat

/-- `chunk` says how much a transfer moves, one byte at the least. -/
def RawFile.answer (chunk : Nat → Nat) (report : List Byte) (d : RawFile) :
    (o : Sys.Op) → Option (Sys.Ret o) × RawFile
  | .lseek _ => (some none, { d with taken := 0 })
  | .write _ bytes =>
    (some (.wrote (min bytes.length (chunk d.calls + 1)) (Nat.min_le_left ..)),
      { d with calls := d.calls + 1 })
  | .read _ len =>
    let piece := (report.drop d.taken).take (min len (chunk d.calls + 1))
    (some (.got piece (Nat.le_trans (List.length_take_le ..) (Nat.min_le_left ..))),
      { calls := d.calls + 1, taken := d.taken + piece.length })
  | _ => (none, d)

abbrev rawEnv (chunk : Nat → Nat) (report : List Byte) : Env sys RawFile :=
  .ofHandler (RawFile.answer chunk report)

section
variable (chunk : Nat → Nat) {report : List Byte}

variable (report) in
theorem writeFullLoop_steps (fd : Int) (bytes : List Byte) (k done : Nat)
    (hk : bytes.length ≤ done + k) (d : RawFile) :
    ∃ calls, Prog.Steps (rawEnv chunk report) (Prog.iterate done (writeFullTurn fd bytes), d)
      (.ret none, { d with calls := calls }) := by
  induction k generalizing done d with
  | zero =>
    have hturn : Prog.Steps (rawEnv chunk report) (writeFullTurn fd bytes done, d)
        (.ret (.inr none), d) := by
      rw [writeFullTurn, if_neg (by omega)]
      exact .refl
    exact ⟨d.calls, .leave hturn .refl⟩
  | succ k ih =>
    by_cases hdone : done < bytes.length
    · have hwrite : (rawEnv chunk report).next d (.write fd (bytes.drop done))
          (.wrote (min (bytes.drop done).length (chunk d.calls + 1)) (Nat.min_le_left ..))
          { d with calls := d.calls + 1 } := rfl
      have hturn : Prog.Steps (rawEnv chunk report) (writeFullTurn fd bytes done, d)
          (.ret (.inl (done + min (bytes.drop done).length (chunk d.calls + 1))),
            { d with calls := d.calls + 1 }) := by
        rw [writeFullTurn, if_pos hdone]
        exact .single (Prog.Step.call hwrite)
      have hlen := List.length_drop (l := bytes) (i := done)
      obtain ⟨calls, hrest⟩ := ih (done + min (bytes.drop done).length (chunk d.calls + 1))
        (by omega) { d with calls := d.calls + 1 }
      exact ⟨calls, .again hturn hrest⟩
    · have hturn : Prog.Steps (rawEnv chunk report) (writeFullTurn fd bytes done, d)
          (.ret (.inr none), d) := by
        rw [writeFullTurn, if_neg hdone]
        exact .refl
      exact ⟨d.calls, .leave hturn .refl⟩

theorem readFullLoop_full {len : Nat} (hlen : report.length = len) (fd : Int) {d : RawFile}
    (buf : Partial len) (hbuf : buf.val = report) :
    ∃ t d', Prog.Steps (rawEnv chunk report)
        (Prog.iterate buf (readFullTurn fd len), d) (.ret t, d') ∧
      t.data = report ∧ t.error = none := by
  have hfull : ¬ buf.val.length < len := by
    rw [hbuf, hlen]
    exact Nat.lt_irrefl _
  have hturn : Prog.Steps (rawEnv chunk report) (readFullTurn fd len buf, d)
      (.ret (.inr ⟨buf.val, none, buf.property, fun _ => by rw [hbuf, hlen]⟩), d) := by
    rw [readFullTurn, dif_neg hfull]
    exact .refl
  exact ⟨_, d, .leave hturn .refl, hbuf, rfl⟩

theorem readFullLoop_steps {len : Nat} (hlen : report.length = len) (fd : Int) (k : Nat)
    {d : RawFile} (buf : Partial len)
    (hbuf : buf.val = report.take d.taken) (htaken : d.taken ≤ report.length)
    (hk : report.length ≤ d.taken + k) :
    ∃ t d', Prog.Steps (rawEnv chunk report)
        (Prog.iterate buf (readFullTurn fd len), d) (.ret t, d') ∧
      t.data = report ∧ t.error = none := by
  induction k generalizing d buf with
  | zero =>
    rw [List.take_of_length_le (by omega)] at hbuf
    exact readFullLoop_full chunk hlen fd buf hbuf
  | succ k ih =>
    have htake : buf.val.length = d.taken := by
      rw [hbuf, List.length_take]
      omega
    by_cases hmore : buf.val.length < len
    · let piece := (report.drop d.taken).take
        (min (len - buf.val.length) (chunk d.calls + 1))
      have hpiece : piece.length = min (len - buf.val.length) (chunk d.calls + 1) := by
        show ((report.drop d.taken).take _).length = _
        rw [List.length_take, List.length_drop]
        omega
      have hle : piece.length ≤ len - buf.val.length := by omega
      have hread : (rawEnv chunk report).next d (.read fd (len - buf.val.length))
          (.got piece hle) ⟨d.calls + 1, d.taken + piece.length⟩ := rfl
      have hall : (buf.val ++ piece).length ≤ len := by
        rw [List.length_append]
        omega
      have hturn : Prog.Steps (rawEnv chunk report) (readFullTurn fd len buf, d)
          (.ret (.inl ⟨buf.val ++ piece, hall⟩), ⟨d.calls + 1, d.taken + piece.length⟩) := by
        rw [readFullTurn, dif_pos hmore]
        refine .head (Prog.Step.call hread) ?_
        have hsome : piece.length ≠ 0 := by omega
        simp only [Prog.ret_bind, if_neg hsome]
        exact .refl
      have hbuf' : buf.val ++ piece = report.take (d.taken + piece.length) := by
        rw [List.take_add, hpiece, ← hbuf]
      have htaken' : d.taken + piece.length ≤ report.length := by omega
      obtain ⟨t, d', hrest, hdata⟩ := ih (d := ⟨d.calls + 1, d.taken + piece.length⟩)
        ⟨buf.val ++ piece, hall⟩ hbuf' htaken' (by
          show report.length ≤ d.taken + piece.length + k
          omega)
      exact ⟨t, d', .again hturn hrest, hdata⟩
    · have hend : report.length ≤ d.taken := by omega
      rw [List.take_of_length_le hend] at hbuf
      exact readFullLoop_full chunk hlen fd buf hbuf

end

/-- What the caller of the raw command is left with. -/
def rawOutcome (junk args : Args) (answer : Option SmuAnswer) : Word × Args :=
  rawResponse args (driverReport junk answer)

theorem smuRawCmdKmod_steps {o : KmodObj} (hopen : 0 ≤ o.rawCmdFd) (chunk : Nat → Nat)
    (answer : Option SmuAnswer) (junk : Args) (msg rep argBase id : Word) (args : Args)
    (d : RawFile) :
    ∃ d', Prog.Steps (rawEnv chunk ((driverReport junk answer).flatMap wordBytes))
      (smuRawCmdKmod o msg rep argBase id args, d)
      (.ret (some (rawOutcome junk args answer)), d') := by
  let report := (driverReport junk answer).flatMap wordBytes
  have hreport : report.length = 28 := by
    show ((driverReport junk answer).flatMap wordBytes).length = 28
    rw [flatMap_wordBytes_length]
    cases answer with
    | some a => rfl
    | none => rfl
  have hseek : ∀ d : RawFile, (rawEnv chunk report).next d (.lseek o.rawCmdFd) none
      { d with taken := 0 } := fun _ => rfl
  have hclosed : ¬ o.rawCmdFd < 0 := by omega
  obtain ⟨calls, hwrite⟩ := writeFullLoop_steps chunk report o.rawCmdFd
    (rawRequest msg rep argBase id args) _ 0 (Nat.le_add_left _ 0) { d with taken := 0 }
  obtain ⟨t, d', hread, hdata, herror⟩ := readFullLoop_steps chunk hreport
    o.rawCmdFd 28 (d := ⟨calls, 0⟩) ⟨[], Nat.zero_le _⟩ rfl (Nat.zero_le _)
    (by show report.length ≤ 0 + 28; omega)
  have hwords : bytesWords t.data = driverReport junk answer := by
    rw [hdata]
    exact bytesWords_flatMap _
  refine ⟨d', ?_⟩
  rw [smuRawCmdKmod, if_neg hclosed]
  refine Prog.Steps.seq (.head (Prog.Step.call (hseek d)) hwrite) ?_
  refine Prog.Steps.seq (.head (Prog.Step.call (hseek _)) hread) ?_
  simp only [herror, hwords]
  exact .refl

end RyzenAdj
