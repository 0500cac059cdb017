import RyzenAdj.Linux.Dispatch
import RyzenAdj.Smu.Calls

/-!
# One command, one execution

A request whose raw command meets any outcomes of the calls on `smu_raw_cmd`.
The register path is for a mailbox the driver turns down before it has taken
anything; `smu_raw_cmd_kmod` tells that by the error number alone, whatever
`write_full` has written before the error.
-/

namespace RyzenAdj
open Interaction Sys Mailbox

/-- The outcomes of the `lseek`s, writes and reads on the file: an error, or how much the driver
takes or gives. -/
structure RawOutcomes where
  seeks : Nat → Option Errno
  writes : Nat → Errno ⊕ Nat
  reads : Nat → Errno ⊕ List Byte

/-- The calls made so far, and the bytes the driver has taken. -/
structure RawCalls where
  seeks : Nat
  writes : Nat
  reads : Nat
  accepted : Nat

namespace RawOutcomes
variable (out : RawOutcomes)

/-- The process reads access objects by the flag `driver`. -/
def answer (driver : Bool) (c : RawCalls) : (o : Sys.Op) → Option (Sys.Ret o) × RawCalls
  | .isSmu => (some driver, c)
  | .lseek _ => (some (out.seeks c.seeks), { c with seeks := c.seeks + 1 })
  | .write _ bytes =>
    match out.writes c.writes with
    | .inl e => (some (.error e), { c with writes := c.writes + 1 })
    | .inr n =>
      (some (.wrote (min n bytes.length) (Nat.min_le_right _ _)),
        { c with writes := c.writes + 1, accepted := c.accepted + min n bytes.length })
  | .read _ len =>
    (some (match out.reads c.reads with
      | .inl e => .error e
      | .inr bytes => .got (bytes.take len) (List.length_take_le len bytes)),
      { c with reads := c.reads + 1 })
  | _ => (none, c)

/-- What the first `k` writes take of a request that is long enough. -/
def sent : Nat → Nat
  | 0 => 0
  | k + 1 => sent k + (out.writes k).elim (fun _ => 0) id

def GoesOn (k : Nat) : Prop := ∀ e, out.writes k = .inl e → e = eIntr

/-- The `k`-th write ends `write_full` with this error, `len` bytes being too many for those
before it. -/
def FailsAt (len k : Nat) (e : Errno) : Prop :=
  (∀ j < k, out.GoesOn j) ∧ out.sent k < len ∧ out.writes k = .inl e ∧ e ≠ eIntr

end RawOutcomes

abbrev rawFileEnv (out : RawOutcomes) (driver : Bool) : Env sys RawCalls :=
  .ofHandler (out.answer driver)

section Writes
variable {out : RawOutcomes} {driver : Bool}

theorem write_error (driver : Bool) {c : RawCalls} {e : Errno} (fd : Int) (bytes : List Byte)
    (h : out.writes c.writes = .inl e) :
    out.answer driver c (.write fd bytes) =
      (some (.error e), { c with writes := c.writes + 1 }) := by
  simp only [RawOutcomes.answer, h]

theorem write_taken (driver : Bool) {c : RawCalls} {n : Nat} (fd : Int) (bytes : List Byte)
    (h : out.writes c.writes = .inr n) :
    out.answer driver c (.write fd bytes) =
      (some (.wrote (min n bytes.length) (Nat.min_le_right _ _)),
        { c with writes := c.writes + 1, accepted := c.accepted + min n bytes.length }) := by
  simp only [RawOutcomes.answer, h]

theorem writes_of_error {fd : Int} {bytes : List Byte} {e : Errno} {c c' : RawCalls}
    (h : (rawFileEnv out driver).next c (.write fd bytes) (.error e) c') :
    out.writes c.writes = .inl e ∧ c' = { c with writes := c.writes + 1 } := by
  cases hwrite : out.writes c.writes with
  | inl e' =>
    have hanswer := (write_error driver fd bytes hwrite).symm.trans h
    cases hanswer
    exact ⟨rfl, rfl⟩
  | inr n =>
    have hanswer := (write_taken driver fd bytes hwrite).symm.trans h
    cases hanswer

theorem writes_of_wrote {fd : Int} {bytes : List Byte} {n : Nat} {hn : n ≤ bytes.length}
    {c c' : RawCalls} (h : (rawFileEnv out driver).next c (.write fd bytes) (.wrote n hn) c') :
    ∃ taken, out.writes c.writes = .inr taken ∧ n = min taken bytes.length ∧
      c' = { c with writes := c.writes + 1, accepted := c.accepted + n } := by
  cases hwrite : out.writes c.writes with
  | inl e =>
    have hanswer := (write_error driver fd bytes hwrite).symm.trans h
    cases hanswer
  | inr taken =>
    have hanswer := (write_taken driver fd bytes hwrite).symm.trans h
    cases hanswer
    exact ⟨taken, rfl, rfl, rfl⟩

/-- The loop of `write_full` after `done` bytes. -/
structure WriteInv (out : RawOutcomes) (len done : Nat) (c : RawCalls) : Prop where
  accepted : c.accepted = done
  sent : done = min (out.sent c.writes) len
  goesOn : ∀ j < c.writes, out.GoesOn j

theorem WriteInv.start (out : RawOutcomes) (len : Nat) {c : RawCalls} (haccepted : c.accepted = 0)
    (hwrites : c.writes = 0) : WriteInv out len 0 c := by
  refine ⟨haccepted, ?_, ?_⟩
  · rw [hwrites]
    exact (Nat.zero_min _).symm
  · rw [hwrites]
    simp

theorem WriteInv.goesOn_succ {len done : Nat} {c : RawCalls} (h : WriteInv out len done c)
    (hnow : out.GoesOn c.writes) : ∀ j < c.writes + 1, out.GoesOn j := by
  intro j hj
  rcases Nat.lt_succ_iff_lt_or_eq.mp hj with hlt | rfl
  · exact h.goesOn j hlt
  · exact hnow

theorem WriteInv.interrupted {len done : Nat} {c : RawCalls} (h : WriteInv out len done c)
    (hwrite : out.writes c.writes = .inl eIntr) :
    WriteInv out len done { c with writes := c.writes + 1 } := by
  refine ⟨h.accepted, ?_, h.goesOn_succ fun e he => ?_⟩
  · simp only [RawOutcomes.sent, hwrite, Sum.elim_inl, Nat.add_zero]
    exact h.sent
  · rw [hwrite] at he
    exact (Sum.inl.inj he).symm

theorem WriteInv.taken {len done n : Nat} {c : RawCalls} (h : WriteInv out len done c)
    (hmore : done < len) (hwrite : out.writes c.writes = .inr n) :
    WriteInv out len (done + min n (len - done))
      { c with writes := c.writes + 1, accepted := c.accepted + min n (len - done) } := by
  have hsent := h.sent
  refine ⟨?_, ?_, h.goesOn_succ fun e he => ?_⟩
  · show c.accepted + _ = done + _
    rw [h.accepted]
  · simp only [RawOutcomes.sent, hwrite, Sum.elim_inr, id]
    omega
  · rw [hwrite] at he
    cases he

/-- Where `write_full` ends with an error, the driver has taken what the writes before it took. -/
theorem writeFull_wp (fd : Int) (bytes : List Byte) {c : RawCalls} (haccepted : c.accepted = 0)
    (hwrites : c.writes = 0) :
    (writeFull fd bytes).Wp (rawFileEnv out driver) (fun r c' => ∀ e, r = some e →
      ∃ k, out.FailsAt bytes.length k e ∧ c'.accepted = out.sent k) c := by
  refine writeFull_rule (WriteInv out bytes.length) (.start out _ haccepted hwrites) ?_ ?_ ?_ ?_ ?_
  · exact fun _ _ _ _ => trivial
  · intro done c c' _ hinv hnext
    obtain ⟨hwrite, rfl⟩ := writes_of_error hnext
    exact hinv.interrupted hwrite
  · rintro done c e c' hmore hinv hfatal hnext _ ⟨⟩
    obtain ⟨hwrite, rfl⟩ := writes_of_error hnext
    have hsent := hinv.sent
    refine ⟨c.writes, ⟨hinv.goesOn, by omega, hwrite, hfatal⟩, ?_⟩
    show c.accepted = _
    rw [hinv.accepted]
    omega
  · intro done c n hn c' hmore hinv hnext
    obtain ⟨taken, hwrite, rfl, rfl⟩ := writes_of_wrote hnext
    rw [List.length_drop]
    exact hinv.taken hmore hwrite
  · exact fun _ _ _ _ e he => absurd he.symm (Option.some_ne_none e)

theorem sent_le {j k : Nat} (h : j ≤ k) : out.sent j ≤ out.sent k := by
  induction h with
  | refl => exact Nat.le_refl _
  | step _ ih => exact Nat.le_trans ih (Nat.le_add_right _ _)

theorem writeTurn_goes_on (fd : Int) {bytes : List Byte} {done : Nat} {c : RawCalls}
    (hmore : done < bytes.length) (hinv : WriteInv out bytes.length done c)
    (hnow : out.GoesOn c.writes) :
    ∃ done' c', Prog.Steps (rawFileEnv out driver) (writeFullTurn fd bytes done, c)
        (.ret (.inl done'), c') ∧
      WriteInv out bytes.length done' c' ∧ c'.writes = c.writes + 1 := by
  rw [writeFullTurn, if_pos hmore]
  cases hwrite : out.writes c.writes with
  | inl e =>
    obtain rfl := hnow e hwrite
    have hnext := write_error driver fd (bytes.drop done) hwrite
    refine ⟨done, _, .head (Prog.Step.call hnext) ?_, hinv.interrupted hwrite, rfl⟩
    simp only [Prog.ret_bind]
    exact .refl
  | inr n =>
    have hnext := write_taken driver fd (bytes.drop done) hwrite
    have hlen : (bytes.drop done).length = bytes.length - done := List.length_drop
    refine ⟨_, _, .head (Prog.Step.call hnext) .refl, ?_, rfl⟩
    rw [hlen]
    exact hinv.taken hmore hwrite

theorem writeLoop_fails (fd : Int) {bytes : List Byte} {k : Nat} {e : Errno}
    (hk : out.FailsAt bytes.length k e) (m : Nat) :
    ∀ {done : Nat} {c : RawCalls}, c.writes + m = k → WriteInv out bytes.length done c →
      ∃ c', Prog.Steps (rawFileEnv out driver)
        (Prog.iterate done (writeFullTurn fd bytes), c) (.ret (some e), c') ∧
        c'.accepted = out.sent k := by
  obtain ⟨hgoes, hroom, hfail, hfatal⟩ := hk
  induction m with
  | zero =>
    intro done c hindex hinv
    obtain rfl : c.writes = k := hindex
    have hdone : done = out.sent c.writes := by
      have := hinv.sent
      omega
    have hnext := write_error driver fd (bytes.drop done) hfail
    have hturn : Prog.Steps (rawFileEnv out driver) (writeFullTurn fd bytes done, c)
        (.ret (.inr (some e)), { c with writes := c.writes + 1 }) := by
      rw [writeFullTurn, if_pos (hdone ▸ hroom)]
      refine .head (Prog.Step.call hnext) ?_
      simp only [Prog.ret_bind, if_neg hfatal]
      exact .refl
    exact ⟨_, .leave hturn .refl, hinv.accepted.trans hdone⟩
  | succ m ih =>
    intro done c hindex hinv
    have hbefore : c.writes < k := by omega
    have hmore : done < bytes.length := by
      have hnow : out.sent c.writes ≤ out.sent k := sent_le (Nat.le_of_lt hbefore)
      have := hinv.sent
      omega
    obtain ⟨done', c', hturn, hinv', hwrites⟩ :=
      writeTurn_goes_on fd hmore hinv (hgoes c.writes hbefore)
    obtain ⟨d, hrest, hsent⟩ := ih (by omega) hinv'
    exact ⟨d, .again hturn hrest, hsent⟩

end Writes

/-- The raw command is turned down before the driver has taken a byte of it: there is no
`raw_cmd`, or EINVAL comes from the `lseek` or in place of the first byte. -/
def TurnedDown (out : RawOutcomes) : OsAccessObj → Prop
  | .kmod o => o.rawCmdFd < 0 ∨ out.seeks 0 = some eInval ∨
    out.seeks 0 = none ∧ ∃ k, out.FailsAt 40 k eInval ∧ out.sent k = 0
  | .mem _ => True

/-- The first write of the raw command that fails does so with EINVAL, after an earlier one has
taken some of it. -/
def RejectedLate (out : RawOutcomes) : OsAccessObj → Prop
  | .kmod o => 0 ≤ o.rawCmdFd ∧ out.seeks 0 = none ∧
    ∃ k, out.FailsAt 40 k eInval ∧ 0 < out.sent k
  | .mem _ => False

theorem rawRequest_length (msg rep argBase id : Word) (args : Args) :
    (rawRequest msg rep argBase id args).length = 40 :=
  flatMap_wordBytes_length _

section RawCommand
variable {out : RawOutcomes} {driver : Bool}

theorem seekWriteFull_wp (fd : Int) (bytes : List Byte) :
    (seekWriteFull fd bytes).Wp (rawFileEnv out driver) (fun r c => ∀ e, r = some e →
      c.accepted = 0 ∧ out.seeks 0 = some e ∨ out.seeks 0 = none ∧
        ∃ k, out.FailsAt bytes.length k e ∧ c.accepted = out.sent k) ⟨0, 0, 0, 0⟩ := by
  refine ⟨trivial, fun r c hnext => ?_⟩
  cases r with
  | some e =>
    have hpair : (some (out.seeks 0), RawCalls.mk 1 0 0 0) = (some (some e), c) := hnext
    obtain ⟨hseek, rfl⟩ := Prod.mk.inj hpair
    rintro _ ⟨⟩
    exact .inl ⟨rfl, Option.some.inj hseek⟩
  | none =>
    have hpair : (some (out.seeks 0), RawCalls.mk 1 0 0 0) = (some none, c) := hnext
    obtain ⟨hseek, rfl⟩ := Prod.mk.inj hpair
    exact Prog.wp_mono _ (writeFull_wp fd bytes rfl rfl) fun r c h e he =>
      .inr ⟨Option.some.inj hseek, h e he⟩

theorem seekReadFull_wp (fd : Int) (len : Nat) (c : RawCalls) :
    (seekReadFull fd len).Wp (rawFileEnv out driver) (fun _ _ => True) c := by
  refine ⟨trivial, fun r c _ => ?_⟩
  cases r with
  | some e => trivial
  | none =>
    exact Prog.wp_mono _ (Prog.wp_of_only _ (I := fun _ => True)
      (fun _ _ _ _ => ⟨trivial, fun _ _ _ => trivial⟩) trivial (backendOp_readFull fd len))
      fun _ _ _ => trivial

/-- `smu_raw_cmd` returns -1 where the driver has turned the command down, before it has taken a
byte of it or after. -/
theorem smuRawCmdLinux_wp (obj : OsAccessObj) (msg rep argBase id : Word) (args : Args) :
    (smuRawCmdLinux obj msg rep argBase id args).Wp (rawFileEnv out obj.isKmod)
      (fun r c => r = none → c.accepted = 0 ∧ TurnedDown out obj ∨ RejectedLate out obj)
      ⟨0, 0, 0, 0⟩ := by
  refine ⟨trivial, fun driver c hnext => ?_⟩
  cases hnext
  cases obj with
  | mem o => exact fun _ => .inl ⟨rfl, trivial⟩
  | kmod o =>
    apply Prog.wp_ite
    · exact fun hfd _ => .inl ⟨rfl, .inl hfd⟩
    · intro hfd
      apply Prog.wp_seq _ (seekWriteFull_wp _ _)
      intro r c h
      cases r with
      | some e =>
        intro hnone
        have hinval : e = eInval := by
          by_contra hne
          rw [if_neg hne] at hnone
          cases hnone
        subst hinval
        rcases h _ rfl with ⟨hzero, hseek⟩ | ⟨hseek, k, hk, haccepted⟩
        · exact .inl ⟨hzero, .inr (.inl hseek)⟩
        · rw [rawRequest_length] at hk
          rcases Nat.eq_zero_or_pos (out.sent k) with hzero | hpos
          · exact .inl ⟨haccepted.trans hzero, .inr (.inr ⟨hseek, k, hk, hzero⟩)⟩
          · exact .inr ⟨Int.not_lt.mp hfd, hseek, k, hk, hpos⟩
      | none =>
        apply Prog.wp_seq _ (seekReadFull_wp _ _ _)
        intro t c _
        cases t.error with
        | some e =>
          intro hnone
          cases hnone
        | none =>
          intro hnone
          cases hnone

theorem smuRawCmdLinux_late {obj : OsAccessObj} (msg rep argBase id : Word) (args : Args)
    (h : RejectedLate out obj) :
    ∃ c, Prog.Steps (rawFileEnv out obj.isKmod)
      (smuRawCmdLinux obj msg rep argBase id args, ⟨0, 0, 0, 0⟩) (.ret none, c) ∧
      0 < c.accepted := by
  cases obj with
  | mem o => exact h.elim
  | kmod o =>
    obtain ⟨hfd, hseek, k, hk, hpos⟩ := h
    rw [← rawRequest_length msg rep argBase id args] at hk
    have hseekNext : (rawFileEnv out true).next ⟨0, 0, 0, 0⟩ (.lseek o.rawCmdFd) none
        ⟨1, 0, 0, 0⟩ := by
      show (_, _) = (_, _)
      rw [hseek]
    obtain ⟨c, hwrite, haccepted⟩ : ∃ c, Prog.Steps (rawFileEnv out true)
        (writeFull o.rawCmdFd (rawRequest msg rep argBase id args), ⟨1, 0, 0, 0⟩)
        (.ret (some eInval), c) ∧ c.accepted = out.sent k :=
      writeLoop_fails o.rawCmdFd hk k (Nat.zero_add k) (.start out _ rfl rfl)
    refine ⟨c, ?_, haccepted ▸ hpos⟩
    refine .head (Prog.Step.call (show (rawFileEnv out true).next _ .isSmu true _ from rfl)) ?_
    show Prog.Steps _ (smuRawCmdKmod o msg rep argBase id args, _) _
    rw [smuRawCmdKmod, if_neg (Int.not_lt.mpr hfd)]
    refine .head (Prog.Step.call hseekNext) ?_
    exact hwrite.seq .refl

end RawCommand

/-! ### The request -/

def RegisterOp : Mailbox.Op → Prop
  | .smnRegRead _ _ | .smnRegWrite _ _ _ | .smnIoTakeError => True
  | _ => False

/-- The surroundings of a request, the state being the bytes of its command the driver has taken.
A raw command is a run of its Linux function over the file, anything else may come out in any
way; the register path is for a command that was turned down at once. -/
def requestEnv (out : RawOutcomes) (smu : Smu) : Env mailbox Nat where
  guard accepted o := RegisterOp o → accepted = 0 ∧ TurnedDown out smu.osAccess
  next accepted
    | .smuRawCmd obj msg rep argBase id args, r, accepted' =>
      ∃ c, Prog.Steps (rawFileEnv out obj.isKmod)
        (smuRawCmdLinux obj msg rep argBase id args, ⟨0, 0, 0, 0⟩) (.ret r, c) ∧
        accepted' = accepted + c.accepted
    | _, _, accepted' => accepted' = accepted

section Request
variable {out : RawOutcomes} {smu : Smu}

/-- No call but the raw command changes what the driver has taken. -/
theorem lock_silent {n : Nat} :
    smuLock.Wp (requestEnv out smu) (fun _ n' => n' = n) n := by
  have hop : ∀ o, LockOp o →
      (requestEnv out smu).guard n o ∧ ∀ r t, (requestEnv out smu).next n o r t → t = n := by
    intro o ho
    cases o <;> first | exact ho.elim | exact ⟨fun h => h.elim, fun _ _ hnext => hnext⟩
  exact Prog.wp_mono _ (Prog.wp_silent _ hop lockOp_smuLock) fun _ _ h => h.2

theorem registers_untaken (hdown : TurnedDown out smu.osAccess) (id : Word) (args : Args) :
    (smuServiceReqRegisters smu id args).Wp (requestEnv out smu) (fun _ _ => True) 0 := by
  have hop : ∀ o, PathOp smu o →
      (requestEnv out smu).guard 0 o ∧ ∀ r t, (requestEnv out smu).next 0 o r t → t = 0 := by
    intro o ho
    cases o <;> first | exact ho.elim | exact ⟨fun _ => ⟨rfl, hdown⟩, fun _ _ hnext => hnext⟩
  have hpath := pathOp_smuServiceReqRegisters smu id args
  exact Prog.wp_mono _ (Prog.wp_silent _ hop hpath) fun _ _ _ => trivial

theorem unlock_untaken {α : Type} (a : α) (n : Nat) :
    (smuUnlock.bind fun _ => .ret a).Wp (requestEnv out smu) (fun _ _ => True) n := by
  have hop : ∀ o, UnlockOp o →
      (requestEnv out smu).guard n o ∧ ∀ r t, (requestEnv out smu).next n o r t → t = n := by
    intro o ho
    cases o <;> first | exact ho.elim | exact ⟨fun h => h.elim, fun _ _ hnext => hnext⟩
  exact Prog.wp_mono _ (Prog.wp_silent _ hop (unlockOp_unlockRet a)) fun _ _ _ => trivial

theorem smuServiceReq_untaken (h : ¬RejectedLate out smu.osAccess) (id : Word) (args : Args) :
    (smuServiceReq smu id args).Wp (requestEnv out smu) (fun _ _ => True) 0 := by
  apply Prog.wp_seq _ lock_silent
  intro locked n hn
  subst hn
  apply Prog.wp_ite
  · exact fun _ => trivial
  · intro _
    refine ⟨fun hop => hop.elim, fun r n hnext => ?_⟩
    obtain ⟨c, hrun, hn⟩ := hnext
    have hraw := Prog.wp_result _ hrun
      (smuRawCmdLinux_wp smu.osAccess smu.msg smu.rep smu.argBase id args)
    cases r with
    | none =>
      obtain ⟨haccepted, hdown⟩ := (hraw rfl).resolve_right h
      have hzero : n = 0 := by omega
      subst hzero
      exact registers_untaken hdown id args
    | some r => exact unlock_untaken r n

/-- A request whose command is turned down late comes to the register path. -/
theorem smuServiceReq_late (h : RejectedLate out smu.osAccess) (id : Word) (args : Args) :
    ∃ n, Prog.Steps (requestEnv out smu) (smuServiceReq smu id args, 0)
      (smuServiceReqRegisters smu id args, n) ∧ 0 < n := by
  obtain ⟨c, hraw, hpos⟩ := smuRawCmdLinux_late smu.msg smu.rep smu.argBase id args h
  have hlock : Prog.Steps (requestEnv out smu) (smuLock, 0) (.ret true, 0) := by
    refine .head (Prog.Step.call (r := true) rfl) ?_
    refine .head (Prog.Step.call (r := (0 : Nat)) rfl) ?_
    exact Prog.Steps.leave (.head (Prog.Step.call (r := FlockResult.acquired) rfl) .refl) .refl
  refine ⟨0 + c.accepted, hlock.seq ?_, by omega⟩
  exact .head (Prog.Step.call (r := none) ⟨c, hraw, rfl⟩) .refl

end Request

/-- A request comes to the register path only where its raw command was turned down at once, the
driver having taken no byte of it, exactly if the driver does not turn a command down with EINVAL
that it has begun to take. -/
theorem at_most_once (out : RawOutcomes) (smu : Smu) (id : Word) (args : Args) :
    (∀ o k n, Prog.Steps (requestEnv out smu) (smuServiceReq smu id args, 0) (.call o k, n) →
      RegisterOp o → n = 0 ∧ TurnedDown out smu.osAccess) ↔ ¬RejectedLate out smu.osAccess := by
  constructor
  · intro honce hlate
    obtain ⟨n, hrun, hpos⟩ := smuServiceReq_late hlate id args
    have hzero := (honce .smnIoTakeError _ n hrun trivial).1
    omega
  · intro hnot o k n hrun
    exact Prog.wp_guard _ hrun (smuServiceReq_untaken hnot id args)

/-- The driver takes four bytes of a command and then turns it down. -/
def lateOutcomes : RawOutcomes where
  seeks _ := none
  writes k := if k = 0 then .inr 4 else .inl eInval
  reads _ := .inr []

/-- The mailbox of the MP1 over the driver, the raw command being there. -/
def ravenMp1Raw : Smu := { ravenMp1 with osAccess := .kmod ⟨3, 4, 5, 0⟩ }

theorem begun_command_sent_again :
    ∃ o k n, Prog.Steps (requestEnv lateOutcomes ravenMp1Raw)
      (smuServiceReq ravenMp1Raw 0x14 Args.zero, 0) (.call o k, n) ∧ RegisterOp o ∧ 0 < n := by
  have hfails : lateOutcomes.FailsAt 40 1 eInval := by
    refine ⟨?_, by decide, rfl, by decide⟩
    intro j hj e he
    obtain rfl : j = 0 := by omega
    cases he
  have hlate : RejectedLate lateOutcomes ravenMp1Raw.osAccess :=
    ⟨by decide, rfl, 1, hfails, by decide⟩
  obtain ⟨n, hrun, hpos⟩ := smuServiceReq_late hlate 0x14 Args.zero
  exact ⟨.smnIoTakeError, _, n, hrun, trivial, hpos⟩

end RyzenAdj
