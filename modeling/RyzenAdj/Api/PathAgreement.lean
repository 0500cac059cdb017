import RyzenAdj.Api.TableRun
import RyzenAdj.Linux.RawCommand

/-!
# The two request paths compared

One SMU answer, given to the caller through the raw command and through the
registers. The responses always mean the same to the callers. The raw command
brings the result words back only with an OK, the register path with every
answer, so the arguments agree where that makes no difference.
-/

namespace RyzenAdj
open Interaction Api

/-- What the callers make of a response: `_return_translated_smu_error`, and the retry of
`request_transfer_table`. -/
inductive ResponseClass where
  | ok
  | timeout
  | unsupported
  | rejectedPrereq
  | rejected
  deriving DecidableEq, Repr

def responseClass (resp : Word) : ResponseClass :=
  if resp = repMsgOK then .ok
  else if resp = repMsgTimeout then .timeout
  else if resp = repMsgUnknownCmd then .unsupported
  else if resp = repMsgCmdRejectedPrereq then .rejectedPrereq
  else .rejected

/-- The callers see a response only through its class. -/
def classError : ResponseClass → Int
  | .ok => 0
  | .timeout => adjErrSmuTimeout
  | .unsupported => adjErrSmuUnsupported
  | .rejectedPrereq | .rejected => adjErrSmuRejected

theorem responseClass_ok {resp : Word} : responseClass resp = .ok ↔ resp = repMsgOK := by
  unfold responseClass
  by_cases h : resp = repMsgOK
  · simp only [h, if_true]
  · simp only [h, if_false, iff_false]
    repeat' split
    all_goals decide

theorem translatedSmuError_of_class {resp : Word} (h : resp ≠ repMsgOK) :
    translatedSmuError resp = classError (responseClass resp) := by
  unfold translatedSmuError responseClass
  rw [if_neg h]
  by_cases htimeout : resp = repMsgTimeout
  · rw [if_pos htimeout, if_pos htimeout]
    rfl
  · rw [if_neg htimeout, if_neg htimeout]
    by_cases hunknown : resp = repMsgUnknownCmd
    · rw [if_pos hunknown, if_pos hunknown]
      rfl
    · rw [if_neg hunknown, if_neg hunknown]
      split
      · rfl
      · rfl

/-- Where it makes no difference whether the result words are brought back. -/
def ArgsSettled (args : Args) : Option SmuAnswer → Prop
  | some a => a.code = repMsgOK ∨ a.result = args
  | none => True

section Outcomes
variable {answer : Option SmuAnswer} (junk args : Args)

theorem rawOutcome_ok {a : SmuAnswer} (h : a.code = repMsgOK) :
    rawOutcome junk args (some a) = (repMsgOK, a.result) := by
  simp only [rawOutcome, driverReport, rawResponse, h, if_true]

theorem rawOutcome_none : rawOutcome junk args none = (repMsgTimeout, args) := by
  simp only [rawOutcome, driverReport, rawResponse]
  rfl

/-- Other codes: the caller's arguments stay, and codes the callers do not know become
`REP_MSG_Failed`. -/
theorem rawOutcome_rejected {a : SmuAnswer} (hok : a.code ≠ repMsgOK)
    (hdriver : a.code ≠ rsmuRetCmdTimeout) :
    responseClass (rawOutcome junk args (some a)).1 = responseClass a.code ∧
      (rawOutcome junk args (some a)).2 = args := by
  simp only [rawOutcome, driverReport, rawResponse, if_neg hok]
  by_cases hknown : a.code = repMsgFailed ∨ a.code = repMsgUnknownCmd ∨
      a.code = repMsgCmdRejectedPrereq ∨ a.code = repMsgCmdRejectedBusy
  · simp only [if_pos hknown, and_self]
  · simp only [if_neg hknown, if_neg hdriver, and_true]
    obtain ⟨hfailed, hrest⟩ := not_or.mp hknown
    obtain ⟨hunknown, hrest⟩ := not_or.mp hrest
    obtain ⟨hprereq, _⟩ := not_or.mp hrest
    simp only [responseClass, if_neg hok, if_neg a.code_ne_zero, if_neg hunknown, if_neg hprereq]
    decide

theorem outcome_class (hdriver : ∀ a, answer = some a → a.code ≠ rsmuRetCmdTimeout) :
    responseClass (rawOutcome junk args answer).1 =
      responseClass (registerOutcome args answer).1 := by
  cases answer with
  | none => rw [rawOutcome_none]; rfl
  | some a =>
    by_cases hok : a.code = repMsgOK
    · rw [rawOutcome_ok junk args hok]
      exact congrArg responseClass hok.symm
    · exact (rawOutcome_rejected junk args hok (hdriver a rfl)).1

theorem outcome_args (hdriver : ∀ a, answer = some a → a.code ≠ rsmuRetCmdTimeout)
    (hsettled : ArgsSettled args answer) :
    (rawOutcome junk args answer).2 = (registerOutcome args answer).2 := by
  cases answer with
  | none => rw [rawOutcome_none]; rfl
  | some a =>
    by_cases hok : a.code = repMsgOK
    · rw [rawOutcome_ok junk args hok]
      rfl
    · rw [(rawOutcome_rejected junk args hok (hdriver a rfl)).2]
      exact (hsettled.resolve_left hok).symm

end Outcomes

/-- A request of a caller, answered with the outcome of one path. -/
def outcomeAnswer (outcome : Args → Word × Args) (_ : Unit) :
    (o : Api.Op) → Option (Api.Ret o) × Unit
  | .smuServiceReq _ _ args => (some (outcome args), ())
  | _ => (none, ())

/-- What a caller that makes one request comes back with: it stores the argument words
first and looks at the response afterwards. -/
def callerResult (store : Args → RyzenAccess) (accept : RyzenAccess → Int) (r : Word × Args) :
    Int × RyzenAccess :=
  (if r.1 = repMsgOK then accept (store r.2) else translatedSmuError r.1, store r.2)

theorem callerResult_code {store : Args → RyzenAccess} {accept : RyzenAccess → Int}
    {r r' : Word × Args} (hclass : responseClass r.1 = responseClass r'.1)
    (hargs : r.1 = repMsgOK → r.2 = r'.2) :
    (callerResult store accept r).1 = (callerResult store accept r').1 := by
  have hsame : r.1 = repMsgOK ↔ r'.1 = repMsgOK := by
    rw [← responseClass_ok, ← responseClass_ok, hclass]
  unfold callerResult
  by_cases hok : r.1 = repMsgOK
  · simp only [if_pos hok, if_pos (hsame.mp hok), hargs hok]
  · have hok' : r'.1 ≠ repMsgOK := fun h => hok (hsame.mpr h)
    simp only [if_neg hok, if_neg hok']
    rw [translatedSmuError_of_class hok, translatedSmuError_of_class hok', hclass]

theorem callerResult_eq {store : Args → RyzenAccess} {accept : RyzenAccess → Int}
    {r r' : Word × Args} (hclass : responseClass r.1 = responseClass r'.1) (hargs : r.2 = r'.2) :
    callerResult store accept r = callerResult store accept r' := by
  refine Prod.ext (callerResult_code hclass fun _ => hargs) ?_
  exact congrArg store hargs

/-- The callers that use the argument words before they test the response. -/
inductive TableRequest where
  | verAndSize
  | addr
  deriving DecidableEq, Repr

def TableRequest.prog (ry : RyzenAccess) : TableRequest → Prog api (Int × RyzenAccess)
  | .verAndSize => requestTableVerAndSize ry
  | .addr => requestTableAddr ry

def TableRequest.args (fam : TableFamily) : TableRequest → Args
  | .verAndSize => Args.zero
  | .addr => tableArgs fam

def TableRequest.result (ry : RyzenAccess) (fam : TableFamily) :
    TableRequest → Word × Args → Int × RyzenAccess
  | .verAndSize =>
    callerResult (fun args => ry.withVersion args.arg0)
      fun ry => if ry.tableVer = 0 then adjErrSmuUnsupported else 0
  | .addr =>
    callerResult (fun args => ry.withAddr (tableAddrOf fam args))
      fun ry => if ry.tableAddr = 0 then adjErrSmuUnsupported else 0

theorem smuServiceReq_outcome {α : Type} (outcome : Args → Word × Args) (smu : Smu) (id : Word)
    (args : Args) (f : Word × Args → Prog api α) :
    ((Api.smuServiceReq smu id args).bind f).eval (outcomeAnswer outcome) () =
      (f (outcome args)).eval (outcomeAnswer outcome) () := rfl

theorem tableRequest_eval (outcome : Args → Word × Args) (ry : RyzenAccess) {fam : TableFamily}
    (hfam : tableFamily ry.family = some fam) (c : TableRequest) :
    ((c.prog ry).eval (outcomeAnswer outcome) ()).1 =
      some (c.result ry fam (outcome (c.args fam))) := by
  cases c with
  | verAndSize =>
    simp only [TableRequest.prog, requestTableVerAndSize, hfam, Prog.bind_eq, Prog.pure_eq,
      smuServiceReq_outcome, TableRequest.result, TableRequest.args, callerResult,
      RyzenAccess.withVersion]
    by_cases hok : (outcome Args.zero).1 = repMsgOK
    · simp only [hok, ne_eq, not_true_eq_false, if_false, if_true]
      by_cases hver : (outcome Args.zero).2.arg0 = 0
      · simp only [hver, if_true, Prog.eval_ret]
      · simp only [hver, if_false, Prog.eval_ret]
    · simp only [hok, ne_eq, not_false_eq_true, if_true, if_false, Prog.eval_ret]
  | addr =>
    simp only [TableRequest.prog, requestTableAddr, hfam, Prog.bind_eq, Prog.pure_eq,
      smuServiceReq_outcome, TableRequest.result, TableRequest.args, callerResult,
      RyzenAccess.withAddr]
    by_cases hok : (outcome (tableArgs fam)).1 = repMsgOK
    · simp only [hok, ne_eq, not_true_eq_false, if_false, if_true]
      by_cases haddr : tableAddrOf fam (outcome (tableArgs fam)).2 = 0
      · simp only [haddr, if_true, Prog.eval_ret]
      · simp only [haddr, if_false, Prog.eval_ret]
    · simp only [hok, ne_eq, not_false_eq_true, if_true, if_false, Prog.eval_ret]

theorem tableRequest_unsupported (outcome : Args → Word × Args) {ry : RyzenAccess}
    (hfam : tableFamily ry.family = none) (c : TableRequest) :
    ((c.prog ry).eval (outcomeAnswer outcome) ()).1 = some (adjErrFamUnsupported, ry) := by
  cases c with
  | verAndSize => simp only [TableRequest.prog, requestTableVerAndSize, hfam, Prog.pure_eq,
      Prog.eval_ret]
  | addr => simp only [TableRequest.prog, requestTableAddr, hfam, Prog.pure_eq, Prog.eval_ret]

theorem tableRequest_code {raw reg : Args → Word × Args}
    (hclass : ∀ args, responseClass (raw args).1 = responseClass (reg args).1)
    (hok : ∀ args, (raw args).1 = repMsgOK → (raw args).2 = (reg args).2) (ry : RyzenAccess)
    (c : TableRequest) :
    ((c.prog ry).eval (outcomeAnswer raw) ()).1.map Prod.fst =
      ((c.prog ry).eval (outcomeAnswer reg) ()).1.map Prod.fst := by
  cases hfam : tableFamily ry.family with
  | none => rw [tableRequest_unsupported raw hfam, tableRequest_unsupported reg hfam]
  | some fam =>
    rw [tableRequest_eval raw ry hfam, tableRequest_eval reg ry hfam]
    refine congrArg some ?_
    cases c with
    | verAndSize => exact callerResult_code (hclass _) (hok _)
    | addr => exact callerResult_code (hclass _) (hok _)

/-- The argument block with which a caller on this handle makes its request. -/
def TableRequest.argsOf (ry : RyzenAccess) (c : TableRequest) : Args :=
  match tableFamily ry.family with
  | none => Args.zero
  | some fam => c.args fam

theorem tableRequest_handle {raw reg : Args → Word × Args}
    (hclass : ∀ args, responseClass (raw args).1 = responseClass (reg args).1) (ry : RyzenAccess)
    (c : TableRequest) (hargs : (raw (c.argsOf ry)).2 = (reg (c.argsOf ry)).2) :
    ((c.prog ry).eval (outcomeAnswer raw) ()).1 = ((c.prog ry).eval (outcomeAnswer reg) ()).1 := by
  unfold TableRequest.argsOf at hargs
  cases hfam : tableFamily ry.family with
  | none => rw [tableRequest_unsupported raw hfam, tableRequest_unsupported reg hfam]
  | some fam =>
    rw [hfam] at hargs
    have hargs : (raw (c.args fam)).2 = (reg (c.args fam)).2 := hargs
    rw [tableRequest_eval raw ry hfam, tableRequest_eval reg ry hfam]
    refine congrArg some ?_
    cases c with
    | verAndSize =>
      simp only [TableRequest.result]
      exact callerResult_eq (hclass _) hargs
    | addr =>
      simp only [TableRequest.result]
      exact callerResult_eq (hclass _) hargs

/-- For one answer of the SMU both paths come to an end. What they hand the caller has the
same meaning, and holds the same arguments unless the answer is a rejection that changed
them; and so do the callers that store the arguments first. -/
theorem paths_agree {obj : OsAccessObj} {smuType : SmuType} {family : RyzenFamily} {smu : Smu}
    (hsmu : smuOf obj smuType family = some smu) {o : KmodObj} (hopen : 0 ≤ o.rawCmdFd)
    {sched : Schedule} (hsched : sched.InTime) {answer : Option SmuAnswer}
    (hanswer : sched.answer.map Prod.fst = answer)
    (hdriver : ∀ a, answer = some a → a.code ≠ rsmuRetCmdTimeout) (chunk : Nat → Nat) (junk : Args)
    (id : Word) (args : Args) (regs : Word → Word) (d : RawFile) :
    ∃ raw reg d' b,
      Prog.Steps (rawEnv chunk ((driverReport junk answer).flatMap wordBytes))
        (smuRawCmdKmod o smu.msg smu.rep smu.argBase id args, d) (.ret (some raw), d') ∧
      Prog.Steps (registerEnv smu sched)
        (smuServiceReqRegisters smu id args, ⟨regs, false, 0, 0⟩) (.ret reg, b) ∧
      raw = rawOutcome junk args answer ∧ reg = registerOutcome args answer ∧
      responseClass raw.1 = responseClass reg.1 ∧
      (ArgsSettled args answer → raw.2 = reg.2) ∧
      (∀ a, answer = some a → a.code ≠ repMsgOK → raw.2 = args ∧ reg.2 = a.result) ∧
      ∀ (ry : RyzenAccess) (c : TableRequest),
        ((c.prog ry).eval (outcomeAnswer (rawOutcome junk · answer)) ()).1.map Prod.fst =
          ((c.prog ry).eval (outcomeAnswer (registerOutcome · answer)) ()).1.map Prod.fst ∧
        (ArgsSettled (c.argsOf ry) answer →
          ((c.prog ry).eval (outcomeAnswer (rawOutcome junk · answer)) ()).1 =
            ((c.prog ry).eval (outcomeAnswer (registerOutcome · answer)) ()).1) := by
  have hclass := fun args => outcome_class junk args hdriver
  obtain ⟨b, hreg⟩ := smuServiceReqRegisters_steps (smuOf_separate hsmu) hsched id args regs
  rw [hanswer] at hreg
  obtain ⟨d', hraw⟩ := smuRawCmdKmod_steps hopen chunk answer junk smu.msg smu.rep smu.argBase id
    args d
  refine ⟨_, _, d', b, hraw, hreg, rfl, rfl, hclass args, outcome_args junk args hdriver, ?_, ?_⟩
  · intro a ha hok
    subst ha
    exact ⟨(rawOutcome_rejected junk args hok (hdriver a rfl)).2, rfl⟩
  · intro ry c
    refine ⟨tableRequest_code hclass ?_ ry c, fun hsettled => ?_⟩
    · intro args hok
      refine outcome_args junk args hdriver ?_
      cases answer with
      | none => trivial
      | some a =>
        exact .inl (responseClass_ok.mp ((hclass args).symm.trans (responseClass_ok.mpr hok)))
    · exact tableRequest_handle hclass ry c (outcome_args junk _ hdriver hsettled)

/-- A rejection that leaves a version number behind. -/
def lateRejection : SmuAnswer := ⟨repMsgFailed, { Args.zero with arg0 := 0x370005 }, by decide⟩

def thirdPoll (a : SmuAnswer) : Schedule := ⟨fun n => n, some (a, 2)⟩

theorem thirdPoll_inTime (a : SmuAnswer) : (thirdPoll a).InTime := by
  intro i hi
  show i + 1 < 0 + smuRespTimeoutMs
  rw [show smuRespTimeoutMs = 1000 from rfl]
  omega

theorem paths_agree_third_poll :
    ∃ raw reg d' b,
      Prog.Steps
        (rawEnv (fun _ => 0) ((driverReport Args.zero (some lateRejection)).flatMap wordBytes))
        (smuRawCmdKmod ⟨3, -1, 4, 0⟩ ravenMp1.msg ravenMp1.rep ravenMp1.argBase 0x6 Args.zero,
          ⟨0, 0⟩)
        (.ret (some raw), d') ∧
      Prog.Steps (registerEnv ravenMp1 (thirdPoll lateRejection))
        (smuServiceReqRegisters ravenMp1 0x6 Args.zero, ⟨fun _ => 0, false, 0, 0⟩) (.ret reg, b) ∧
      responseClass raw.1 = responseClass reg.1 := by
  have hsmu : smuOf (.mem ⟨0, 0⟩) .mp1 .raven = some ravenMp1 := rfl
  have hdriver : ∀ a, some lateRejection = some a → a.code ≠ rsmuRetCmdTimeout := by
    intro a ha
    cases ha
    decide
  obtain ⟨raw, reg, d', b, hraw, hreg, _, _, hclass, _⟩ :=
    paths_agree hsmu (o := ⟨3, -1, 4, 0⟩) (by decide) (thirdPoll_inTime lateRejection) rfl hdriver
      (fun _ => 0) Args.zero 0x6 Args.zero (fun _ => 0) ⟨0, 0⟩
  exact ⟨raw, reg, d', b, hraw, hreg, hclass⟩

/-- The register path hands a rejection's words to the caller, the raw command does not: the
arguments differ, and `request_table_ver_and_size` ends with different handles. -/
theorem rejection_splits_paths :
    ∃ raw reg d' b,
      Prog.Steps
        (rawEnv (fun _ => 0) ((driverReport Args.zero (some lateRejection)).flatMap wordBytes))
        (smuRawCmdKmod ⟨3, -1, 4, 0⟩ ravenMp1.msg ravenMp1.rep ravenMp1.argBase 0x6 Args.zero,
          ⟨0, 0⟩)
        (.ret (some raw), d') ∧
      Prog.Steps (registerEnv ravenMp1 (thirdPoll lateRejection))
        (smuServiceReqRegisters ravenMp1 0x6 Args.zero, ⟨fun _ => 0, false, 0, 0⟩) (.ret reg, b) ∧
      raw.2 ≠ reg.2 ∧
      ∃ ry, ((requestTableVerAndSize ry).eval
          (outcomeAnswer (rawOutcome Args.zero · (some lateRejection))) ()).1 ≠
        ((requestTableVerAndSize ry).eval
          (outcomeAnswer (registerOutcome · (some lateRejection))) ()).1 := by
  have hsep : AddrsSeparate ravenMp1.msg ravenMp1.rep ravenMp1.argBase := by decide +kernel
  obtain ⟨b, hreg⟩ := smuServiceReqRegisters_steps hsep
    (thirdPoll_inTime lateRejection) 0x6 Args.zero (fun _ => 0)
  obtain ⟨d', hraw⟩ := smuRawCmdKmod_steps (o := ⟨3, -1, 4, 0⟩) (by decide) (fun _ => 0)
    (some lateRejection) Args.zero ravenMp1.msg ravenMp1.rep ravenMp1.argBase 0x6 Args.zero ⟨0, 0⟩
  refine ⟨_, _, d', b, hraw, hreg, by decide +kernel, ?_⟩
  refine ⟨⟨.mem ⟨0, 0⟩, ravenMp1, ravenMp1, .renoir, 0, 0, 0, 0, none, false⟩, ?_⟩
  decide +kernel

end RyzenAdj
