import UdsLib.Core.Arrival

/-! The asynchronous request in progress: what an incoming message does to it, and how long it
keeps other handlers from starting. -/
namespace UdsLib.Core
open Bytes Machine Prog

variable {W : Type} {cfg : Config W}

/-- The fields of the context that belong to the request in progress. -/
structure Pending where
  p2MsgPending : Bool
  pendingSid : UInt8
  p2TimerStart : UInt32
  p2StarActive : Bool
  rcrrpCount : UInt16
  deriving DecidableEq

def Ctx.pending (c : Ctx) : Pending where
  p2MsgPending := c.p2MsgPending
  pendingSid := c.pendingSid
  p2TimerStart := c.p2TimerStart
  p2StarActive := c.p2StarActive
  rcrrpCount := c.rcrrpCount

/-- The message leaves the request in progress alone: its fields keep their values, no handler
runs, and the only answer is NRC 0x21, or none to a suppressed tester present. -/
def Isolated (cfg : Config W) (s : Sys W) (d : Sdu) : Prop :=
  let r := step cfg s (.inputSdu (.bytes d))
  r.1.ctx.pending = s.ctx.pending ∧ r.2.any Event.isHandler = false ∧
    sentOf r.2 = if suppressedTesterPresent d then []
      else [[nrcServiceNotSuppInSess, d.byte 0, nrcBusyRepeatRequest]]

instance (cfg : Config W) (s : Sys W) (d : Sdu) : Decidable (Isolated cfg s d) :=
  inferInstanceAs (Decidable (_ ∧ _ ∧ _))

/-- The message is a suppressed tester present, or its busy answer fits and names another
service than the one in progress. -/
def Foreign (cfg : Config W) (s : Sys W) (d : Sdu) : Prop :=
  suppressedTesterPresent d = true ∨ (d.byte 0 ≠ s.ctx.pendingSid ∧ 3 ≤ cfg.txBufferSize)

/-- `uds_process` reaches the response-pending limit. -/
def limitHit (cfg : Config W) (s : Sys W) : Bool :=
  deadlinePassed s.ctx ((getTime cfg).value ((mutexLock cfg).final s)) && rcrrpExhausted cfg s.ctx

/-- The calls that end the request in progress: the application's answer to it, and the
response-pending limit. -/
def Ends (cfg : Config W) (s : Sys W) : Op W → Prop
  | .sendResponse len => len ≤ cfg.txBufferSize
  | .sendNrc sid nrc => nrc ≠ nrcResponsePending ∧ sid = s.ctx.pendingSid
  | .process => limitHit cfg s = true
  | _ => False

/-- The context is left alone, nothing is sent and no handler is entered. -/
def Aside (s : Sys W) (es : List Event) (t : Sys W) : Prop :=
  t.ctx = s.ctx ∧ es.any Event.isHandler = false ∧ sentOf es = []

theorem aside_composable : Composable (Aside (W := W)) where
  refl _ := ⟨rfl, rfl, rfl⟩
  trans h hnext := by
    refine ⟨hnext.1.trans h.1, ?_, ?_⟩
    · rw [List.any_append, h.2.1, hnext.2.1]
      rfl
    · rw [sentOf_append, h.2.2, hnext.2.2]
      rfl

theorem invokeVoid_aside (c : Call) : Keeps Aside (invokeVoid cfg c) :=
  aside_composable.bind (fun _ => ⟨rfl, rfl, rfl⟩) fun _ _ => ⟨rfl, rfl, rfl⟩

theorem onlyIf_aside {c : Prop} [Decidable c] {m : M W Unit} (hm : Keeps Aside m) :
    Keeps Aside (onlyIf c m) :=
  Keeps.ite (fun _ => hm) fun _ _ => ⟨rfl, rfl, rfl⟩

theorem mutexLock_aside (cfg : Config W) : Keeps Aside (mutexLock cfg) :=
  onlyIf_aside (invokeVoid_aside _)

theorem mutexUnlock_aside (cfg : Config W) : Keeps Aside (mutexUnlock cfg) :=
  onlyIf_aside (invokeVoid_aside _)

theorem faults_noHandler {es : List Event} (h : ∀ e ∈ es, ∃ f, e = .fault f) :
    es.any Event.isHandler = false := by
  apply List.any_eq_false.mpr
  exact faults_forall h fun _ => Bool.false_ne_true

theorem writeTx_aside (off : ℕ) (bs : List UInt8) : Keeps Aside (writeTx cfg off bs) := by
  intro s
  have hfaults : ∀ e ∈ (writeTx cfg off bs).outputs s, ∃ f, e = .fault f := fun _ =>
    writeTx_faults s
  exact ⟨rfl, faults_noHandler hfaults, sentOf_faults hfaults⟩

theorem sendNrc_noHandler (sid nrc : UInt8) (s : Sys W) :
    ((sendNrc cfg sid nrc).outputs s).any Event.isHandler = false := by
  obtain ⟨faults, hfaults, ret, houtputs⟩ := sendNrc_outputs cfg sid nrc s
  rw [houtputs]
  split_ifs
  · rw [List.any_append, faults_noHandler hfaults]
    rfl
  · rfl

theorem inputSdu_pending (cfg : Config W) {s : Sys W} {d : Sdu} (hp : s.ctx.p2MsgPending = true)
    (hne : d.bytes ≠ []) :
    let s' := arrived cfg s
    let r := step cfg s (.inputSdu (.bytes d))
    r.1.ctx.pending = (if suppressedTesterPresent d then s'
        else (sendNrc cfg (d.byte 0) nrcBusyRepeatRequest).final s').ctx.pending ∧
      r.2.any Event.isHandler = false ∧
      sentOf r.2 = if suppressedTesterPresent d then []
        else sentOf ((sendNrc cfg (d.byte 0) nrcBusyRepeatRequest).outputs s') := by
  intro s' r
  have h := step_busy cfg hp hne
  have hlock := mutexLock_aside cfg s
  have hbusy : ((busyAnswer cfg d).outputs s').any Event.isHandler = false ∧
      sentOf ((busyAnswer cfg d).outputs s') = (if suppressedTesterPresent d then []
        else sentOf ((sendNrc cfg (d.byte 0) nrcBusyRepeatRequest).outputs s')) ∧
      ((busyAnswer cfg d).final s').ctx.pending = (if suppressedTesterPresent d then s'
        else (sendNrc cfg (d.byte 0) nrcBusyRepeatRequest).final s').ctx.pending := by
    unfold busyAnswer
    split_ifs
    · exact ⟨rfl, rfl, rfl⟩
    · rw [reject_outputs]
      exact ⟨sendNrc_noHandler _ _ _, rfl, rfl⟩
  have hunlock := mutexUnlock_aside cfg ((busyAnswer cfg d).final s')
  have htime : ((getTime cfg).outputs ((mutexLock cfg).final s)).any Event.isHandler = false ∧
      sentOf ((getTime cfg).outputs ((mutexLock cfg).final s)) = [] := ⟨rfl, rfl⟩
  rw [show r.1 = _ from h.final, show r.2 = _ from h.outputs, hunlock.1]
  refine ⟨hbusy.2.2, ?_, ?_⟩
  · rw [List.any_append, List.any_append, List.any_append, hlock.2.1, htime.1, hbusy.1, hunlock.2.1]
    rfl
  · rw [sentOf_append, sentOf_append, sentOf_append, hlock.2.2, htime.2, hunlock.2.2,
      List.append_nil]
    exact hbusy.2.1

/-- The exact messages that leave the request in progress alone. -/
theorem isolated_iff {s : Sys W} {d : Sdu} (hp : s.ctx.p2MsgPending = true)
    (hne : d.bytes ≠ []) : Isolated cfg s d ↔ Foreign cfg s d := by
  obtain ⟨hctx, hhandler, hsent⟩ := inputSdu_pending cfg hp hne
  have hlock := mutexLock_aside cfg s
  have hs' : (arrived cfg s).ctx.pending = s.ctx.pending := by
    rw [arrived_ctx]
    rfl
  have hsid : (arrived cfg s).ctx.pendingSid = s.ctx.pendingSid :=
    congrArg Pending.pendingSid hs'
  unfold Isolated Foreign
  simp only [hctx, hhandler, hsent, true_and]
  cases suppressedTesterPresent d with
  | true => simp [hs']
  | false =>
    simp only [Bool.false_eq_true, if_false, false_or, sendNrc_sent, sendNrc_ctx, hsid]
    constructor
    · rintro ⟨hkept, hone⟩
      have hfits : 3 ≤ cfg.txBufferSize := by
        by_contra hsmall
        rw [if_neg hsmall] at hone
        exact absurd hone (by simp)
      refine ⟨fun hsame => ?_, hfits⟩
      rw [if_pos ⟨hfits, by decide, hsame⟩] at hkept
      have hcleared : false = s.ctx.p2MsgPending := congrArg Pending.p2MsgPending hkept
      rw [hp] at hcleared
      exact absurd hcleared (by decide)
    · rintro ⟨hother, hfits⟩
      rw [if_neg (fun h => hother h.2.2), if_pos hfits]
      exact ⟨hs', rfl⟩

/-! ### Runs -/

/-- A request in progress stays in progress, and no handler is entered. -/
def StillPending (s : Sys W) (es : List Event) (t : Sys W) : Prop :=
  (s.ctx.p2MsgPending = true → t.ctx.p2MsgPending = true) ∧ es.any Event.isHandler = false

theorem stillPending_composable : Composable (StillPending (W := W)) where
  refl _ := ⟨id, rfl⟩
  trans h hnext := by
    refine ⟨hnext.1 ∘ h.1, ?_⟩
    rw [List.any_append, h.2, hnext.2]
    rfl

theorem Aside.still {s t : Sys W} {es : List Event} (h : Aside s es t) : StillPending s es t :=
  ⟨fun hp => by rw [h.1, hp], h.2.1⟩

theorem schedule_still (now : UInt32) (i : Fin 8) : Keeps StillPending (schedule cfg now i) := by
  have hR := stillPending_composable (W := W)
  unfold schedule
  refine hR.bind (fun _ => ⟨id, rfl⟩) fun _ => Keeps.ite (fun _ => ?_) fun _ _ => ⟨id, rfl⟩
  refine hR.bind (fun _ => ⟨id, rfl⟩) fun _ => hR.bind ?_ fun _ _ => ⟨id, rfl⟩
  refine Keeps.ite (fun _ => ?_) fun _ _ => ⟨id, rfl⟩
  refine hR.bind (Keeps.ite (fun _ _ => ⟨id, rfl⟩) fun _ _ => ⟨id, rfl⟩) fun _ => ?_
  refine hR.bind (fun s => (writeTx_aside _ _ s).still) fun _ => ?_
  refine hR.bind (fun s => (writeTx_aside _ _ s).still) fun _ => ?_
  exact hR.bind (fun _ => ⟨id, rfl⟩) fun _ _ => ⟨id, rfl⟩

theorem finishProcess_still (now : UInt32) : Keeps StillPending (finishProcess cfg now) := by
  have hR := stillPending_composable (W := W)
  have hall (is : List (Fin 8)) : Keeps StillPending (scheduleAll cfg now is) := by
    induction is with
    | nil => exact fun _ => ⟨id, rfl⟩
    | cons i is ih => exact hR.bind (schedule_still now i) fun _ => ih
  unfold finishProcess
  refine hR.bind (fun _ => ⟨id, rfl⟩) fun _ => hR.bind ?_ fun _ s => (mutexUnlock_aside cfg s).still
  exact Keeps.ite (fun _ => hall _) fun _ _ => ⟨id, rfl⟩

theorem sendNrc_still {sid nrc : UInt8} {s : Sys W}
    (h : ¬ (nrc ≠ nrcResponsePending ∧ sid = s.ctx.pendingSid)) :
    StillPending s ((sendNrc cfg sid nrc).outputs s) ((sendNrc cfg sid nrc).final s) := by
  constructor
  · intro hp
    rw [sendNrc_ctx, if_neg fun hends => h hends.2, hp]
  · exact sendNrc_noHandler sid nrc s

/-- The S3 timer touches neither the request in progress nor its deadlines. -/
theorem checkS3_keeps (cfg : Config W) (now : UInt32) (s : Sys W) :
    ((checkS3 cfg now).final s).ctx.p2MsgPending = s.ctx.p2MsgPending ∧
      deadlinePassed ((checkS3 cfg now).final s).ctx now = deadlinePassed s.ctx now ∧
      rcrrpExhausted cfg ((checkS3 cfg now).final s).ctx = rcrrpExhausted cfg s.ctx ∧
      ((checkS3 cfg now).outputs s).any Event.isHandler = false := by
  have hlog : Keeps Aside (internalLog cfg logInfo "S3 Timeout: Reverted to Default Session") :=
    onlyIf_aside (invokeVoid_aside _)
  unfold checkS3
  rw [final_getCtx_bind, outputs_getCtx_bind, final_onlyIf, outputs_onlyIf]
  split_ifs
  · rw [final_bind, outputs_bind, (hlog _).1, List.any_append, (hlog _).2.1]
    exact ⟨rfl, rfl, rfl, rfl⟩
  · exact ⟨rfl, rfl, rfl, rfl⟩

theorem udsProcess_still {s : Sys W} (h : limitHit cfg s = false) :
    StillPending s ((udsProcess cfg).outputs s) ((udsProcess cfg).final s) := by
  have hR := stillPending_composable (W := W)
  have hlock := mutexLock_aside cfg s
  obtain ⟨hs3, hdeadline, hexhausted, hquiet⟩ := checkS3_keeps cfg
    ((getTime cfg).value ((mutexLock cfg).final s))
    ((getTime cfg).final ((mutexLock cfg).final s))
  have hctx : ((getTime cfg).final ((mutexLock cfg).final s)).ctx = s.ctx := hlock.1
  rw [hctx] at hdeadline hexhausted
  unfold udsProcess
  refine hR.bind_at hlock.still (hR.bind_at ⟨id, rfl⟩ ?_)
  refine hR.bind_at ⟨fun hp => hs3.trans hp, hquiet⟩ (hR.bind_at ⟨id, rfl⟩ ?_)
  split_ifs with hdead hlimit
  · -- this is the limit
    have hd : deadlinePassed s.ctx ((getTime cfg).value ((mutexLock cfg).final s)) = true :=
      hdeadline.symm.trans hdead
    have hl : rcrrpExhausted cfg s.ctx = true := hexhausted.symm.trans hlimit
    unfold limitHit at h
    rw [hd, hl] at h
    exact absurd h (by decide)
  · refine hR.bind_at (sendNrc_still fun hends => hends.1 rfl) ?_
    exact hR.bind_at ⟨id, rfl⟩ (finishProcess_still _ _)
  · exact finishProcess_still _ _

theorem clientRequest_still (sid : UInt8) (data : Buf) (cb : Option ℕ) :
    Keeps StillPending (clientRequest cfg sid data cb) := by
  have hR := stillPending_composable (W := W)
  unfold clientRequest requestBody
  refine hR.bind (Keeps.ite (fun _ _ => ⟨id, rfl⟩) fun _ => ?_) fun _ => ?_
  · refine Keeps.ite (fun _ _ => ⟨id, rfl⟩) fun _ => ?_
    refine hR.bind (fun s => (mutexLock_aside cfg s).still) fun _ => ?_
    refine hR.bind (fun _ => ⟨id, rfl⟩) fun _ => ?_
    refine hR.bind (fun s => (writeTx_aside _ _ s).still) fun _ => ?_
    refine hR.bind (fun s => (writeTx_aside _ _ s).still) fun _ => ?_
    refine hR.bind (fun _ => ⟨id, rfl⟩) fun _ => ?_
    exact hR.bind (fun s => (mutexUnlock_aside cfg s).still) fun _ _ => ⟨id, rfl⟩
  · exact hR.bind (fun _ => ⟨id, rfl⟩) fun _ _ => ⟨id, rfl⟩

/-- Every message that arrives while a request is in progress is one that `Foreign` allows. -/
def ForeignInput (cfg : Config W) (s : Sys W) : Op W → Prop
  | .inputSdu (.bytes d) => s.ctx.p2MsgPending = true → d.bytes ≠ [] → Foreign cfg s d
  | _ => True

/-- Every message that arrives while a request is in progress leaves it alone. -/
def IsolatedInput (cfg : Config W) (s : Sys W) : Op W → Prop
  | .inputSdu (.bytes d) => s.ctx.p2MsgPending = true → d.bytes ≠ [] → Isolated cfg s d
  | _ => True

theorem isolatedInput_iff (s : Sys W) (op : Op W) :
    IsolatedInput cfg s op ↔ ForeignInput cfg s op := by
  cases op with
  | inputSdu data =>
    cases data with
    | null len => rfl
    | bytes d => exact forall_congr' fun hp => forall_congr' fun hne => isolated_iff hp hne
  | _ => rfl

/-- A call that neither ends the request in progress nor brings a message that hits it. -/
theorem step_still {s : Sys W} {op : Op W} (hp : s.ctx.p2MsgPending = true)
    (hends : ¬ Ends cfg s op) (hin : ForeignInput cfg s op) :
    StillPending s (step cfg s op).2 (step cfg s op).1 := by
  have hR := stillPending_composable (W := W)
  cases op with
  | inputSdu data =>
    have hlock := (mutexLock_aside cfg s).still
    cases data with
    | null len => exact hR.bind_at hlock (mutexUnlock_aside cfg _).still
    | bytes d =>
      by_cases hne : d.bytes = []
      · refine hR.bind_at hlock (hR.bind_at ?_ (mutexUnlock_aside cfg _).still)
        rw [final_onlyIf, outputs_onlyIf, if_neg (not_not.mpr hne), if_neg (not_not.mpr hne)]
        exact ⟨id, rfl⟩
      · obtain ⟨hkept, hhandler, -⟩ := (isolated_iff hp hne).mpr (hin hp hne)
        exact ⟨fun _ => (congrArg Pending.p2MsgPending hkept).trans hp, hhandler⟩
  | process => exact udsProcess_still (Bool.not_eq_true _ ▸ hends)
  | clientRequest sid data cb =>
    exact hR.bind_at (clientRequest_still sid data cb s) ⟨id, rfl⟩
  | fill off bytes => exact ⟨id, rfl⟩
  | sendResponse len =>
    have hlong : len > cfg.txBufferSize := UInt16.not_le.mp hends
    refine hR.bind_at ?_ ⟨id, rfl⟩
    unfold sendResponse
    rw [if_pos hlong]
    exact ⟨id, rfl⟩
  | sendNrc sid nrc => exact hR.bind_at (sendNrc_still hends) ⟨id, rfl⟩
  | elapse f => exact ⟨id, rfl⟩

/-- Until a call ends the request in progress, it stays in progress and no handler starts. -/
theorem run_still {s : Sys W} {ops : List (Op W)} (hp : s.ctx.p2MsgPending = true)
    (hrun : Along (step cfg) (ForeignInput cfg) s ops)
    (hends : Along (step cfg) (fun t op => ¬ Ends cfg t op) s ops) :
    (exec (step cfg) s ops).ctx.p2MsgPending = true ∧
      (trace (step cfg) s ops).any Event.isHandler = false := by
  induction ops generalizing s with
  | nil => exact ⟨hp, rfl⟩
  | cons op ops ih =>
    obtain ⟨hkeep, hnone⟩ := step_still hp hends.1 hrun.1
    obtain ⟨hpending, hrest⟩ := ih (hkeep hp) hrun.2 hends.2
    refine ⟨hpending, ?_⟩
    rw [trace_cons, List.any_append, hnone, hrest]
    rfl

/-- Isolation of the request in progress. Along any run, the messages that arrive while a
request is in progress leave it alone exactly if each of them is a suppressed tester present or
names a service other than the one in progress, with room for the busy answer. In such a run
no handler starts from a state with a request in progress until a call ends that request. -/
theorem pending_isolation_iff (cfg : Config W) (s : Sys W) (ops : List (Op W)) :
    (Along (step cfg) (IsolatedInput cfg) s ops ↔ Along (step cfg) (ForeignInput cfg) s ops) ∧
      (Along (step cfg) (ForeignInput cfg) s ops → ∀ before during after : List (Op W),
        ops = before ++ during ++ after →
        (exec (step cfg) s before).ctx.p2MsgPending = true →
        Along (step cfg) (fun t op => ¬ Ends cfg t op) (exec (step cfg) s before) during →
        (exec (step cfg) s (before ++ during)).ctx.p2MsgPending = true ∧
          (trace (step cfg) (exec (step cfg) s before) during).any Event.isHandler = false) := by
  constructor
  · constructor
    · exact Along.mono fun t op h => (isolatedInput_iff t op).mp h
    · exact Along.mono fun t op h => (isolatedInput_iff t op).mpr h
  · rintro hrun before during after rfl hp hends
    have hduring := (along_append _ _ _ _).mp ((along_append _ _ _ _).mp hrun).1
    rw [exec_append]
    exact run_still hp hduring.2 hends

/-- A user service `0x31` that the application answers later. -/
def slowConfig : Config Unit :=
  { plainConfig with
    userServices :=
      [{ sid := 0x31, minLen := 1, sessionMask := 0xFF, securityMask := 0,
         handler := fun _ => .done udsPending, subMask := none }] }

def slowRequest : Sdu := ⟨[0x31, 0x01], by decide⟩

def keepAlive : Sdu := ⟨[sidTesterPresent, 0x80], by decide⟩

def otherRequest : Sdu := ⟨[0x22, 0xF1, 0x90], by decide⟩

def slowStart : List (Op Unit) := [.inputSdu (.bytes slowRequest)]

def slowArrivals : List (Op Unit) :=
  [.inputSdu (.bytes keepAlive), .inputSdu (.bytes otherRequest)]

theorem slow_run_foreign :
    Along (step slowConfig) (ForeignInput slowConfig) (booted slowConfig)
      (slowStart ++ slowArrivals ++ []) := by
  apply (along_cons _ _ _ _).mpr
  refine ⟨fun h => absurd h (by decide), (along_cons _ _ _ _).mpr ⟨fun _ _ => ?_, ?_⟩⟩
  · exact Or.inl (by decide)
  · exact (along_cons _ _ _ _).mpr ⟨fun _ _ => Or.inr ⟨by decide, by decide⟩, trivial⟩

theorem slow_run_isolated :
    (exec (step slowConfig) (booted slowConfig) (slowStart ++ slowArrivals)).ctx.p2MsgPending =
        true ∧
      (trace (step slowConfig) (exec (step slowConfig) (booted slowConfig) slowStart)
        slowArrivals).any Event.isHandler = false :=
  (pending_isolation_iff slowConfig (booted slowConfig) (slowStart ++ slowArrivals ++ [])).2
    slow_run_foreign slowStart slowArrivals [] rfl (by decide)
    ((along_cons _ _ _ _).mpr ⟨fun h => h, (along_cons _ _ _ _).mpr ⟨fun h => h, trivial⟩⟩)

/-- The busy answer to a repetition of the request in progress ends that request, and the next
repetition starts a second handler. -/
theorem repeated_request_not_isolated :
    let s := exec (step slowConfig) (booted slowConfig) [.inputSdu (.bytes slowRequest)]
    s.ctx.p2MsgPending = true ∧ ¬ Isolated slowConfig s slowRequest ∧
      (step slowConfig s (.inputSdu (.bytes slowRequest))).1.ctx.p2MsgPending = false ∧
      Event.handler 0x31 ∈ trace (step slowConfig) s
        [.inputSdu (.bytes slowRequest), .inputSdu (.bytes slowRequest)] := by
  decide

end UdsLib.Core
