import Mathlib.Data.List.Chain
import UdsLib.Core.Exchange
import UdsLib.Core.Locking

/-! The budget of response-pending answers. A request that its handler defers is answered with NRC 0x78
at once, then by `uds_process` at most `rcrrp_limit` times more, and then it is given up. -/
namespace UdsLib.Core
open Bytes Machine Prog Services

variable {W : Type} {cfg : Config W} {d : Sdu} {s : Sys W} {es fs : List Event} {sid : UInt8}
  {gap first : UInt32} {times : List UInt32}

/-- What is sent in answer to a request. -/
def Event.answer? : Event → Option (List UInt8)
  | .tpSend .response data _ => some data
  | .tpSend .nrc data _ => some data
  | _ => none

def answersIn (es : List Event) : List (List UInt8) := es.filterMap Event.answer?

/-- A negative response at a time. -/
def negativeAt (sid nrc : UInt8) (time : UInt32) : UInt32 × List UInt8 :=
  (time, [nrcServiceNotSuppInSess, sid, nrc])

/-- Whatever the true times behind two readings of the clock, at least `gap` ms lie between them. -/
def Apart (gap t u : UInt32) : Prop :=
  ∀ T U : ℕ, T ≤ U → T % 2 ^ 32 = t.toNat → U % 2 ^ 32 = u.toNat → gap.toNat ≤ U - T

/-- The calls while the application does not complete its request: time passes, `uds_process` is
called, and the tester keeps the session open with messages that want no response. -/
def Waits : Op W → Prop
  | .process => True
  | .elapse _ => True
  | .inputSdu (.bytes d) => suppressedTesterPresent d = true
  | _ => False

/-- The message is dispatched to a handler that defers its answer. -/
structure DefersRequest (cfg : Config W) (s : Sys W) (d : Sdu) : Prop where
  nonempty : d.bytes ≠ []
  idle : s.ctx.p2MsgPending = false
  request : ¬ takesAsAnswer s.ctx d
  deferred : defers cfg d s = true

instance (cfg : Config W) (s : Sys W) (d : Sdu) : Decidable (DefersRequest cfg s d) :=
  decidable_of_iff (d.bytes ≠ [] ∧ s.ctx.p2MsgPending = false ∧ ¬ takesAsAnswer s.ctx d ∧
    defers cfg d s = true) ⟨fun h => ⟨h.1, h.2.1, h.2.2.1, h.2.2.2⟩,
      fun h => ⟨h.nonempty, h.idle, h.request, h.deferred⟩⟩

/-- Whether another request has been deferred, behind a call. -/
def superseded (cfg : Config W) (other : Bool) (s : Sys W) : Op W → Bool
  | .inputSdu (.bytes d) => other || decide (DefersRequest cfg s d)
  | _ => other

/-- The stack with this history. It puts out what `uds_process` answers to the first request, with the
time. -/
def answering (cfg : Config W) (p : Sys W × Bool) (op : Op W) :
    (Sys W × Bool) × List (UInt32 × List UInt8) :=
  (((step cfg p.1 op).1, superseded cfg p.2 p.1 op),
    match op with
    | .process => if p.2 then [] else
      (answersIn (step cfg p.1 .process).2).map fun data => (processTime cfg p.1, data)
    | _ => [])

/-- The request has been answered with NRC 0x78 at these times and is still in progress. The next call
of `uds_process` answers once `gap` ms have passed since the last of them: with NRC 0x78 while the
budget lasts, and then with NRC 0x22, which ends the request. A message that wants no response gets
none. -/
structure InProgress (cfg : Config W) (sid : UInt8) (gap first : UInt32) (times : List UInt32)
    (answers : List (UInt32 × List UInt8)) (p : Sys W × Bool) : Prop where
  answers : answers = times.map (negativeAt sid nrcResponsePending)
  pending : p.1.ctx.p2MsgPending = true
  next :
    let now := processTime cfg p.1
    (answering cfg p .process).2 = if gap ≤ now - times.getLastD first then
      [negativeAt sid (if times.length < cfg.rcrrpLimit.toNat then nrcResponsePending
        else nrcConditionsNotCorrect) now]
    else []
  ends : gap ≤ processTime cfg p.1 - times.getLastD first → times.length = cfg.rcrrpLimit.toNat →
    (step cfg p.1 .process).1.ctx.p2MsgPending = false
  quiet : ∀ d, suppressedTesterPresent d = true → sentOf (step cfg p.1 (.inputSdu (.bytes d))).2 = []

/-- The budget is used up, the last answer was NRC 0x22, and nothing is in progress unless another
request has been deferred. -/
structure GivenUp (cfg : Config W) (sid : UInt8) (times : List UInt32)
    (answers : List (UInt32 × List UInt8)) (p : Sys W × Bool) : Prop where
  full : times.length = cfg.rcrrpLimit.toNat
  answers : ∃ last, answers = times.map (negativeAt sid nrcResponsePending) ++
    [negativeAt sid nrcConditionsNotCorrect last]
  cleared : p.2 = false → p.1.ctx.p2MsgPending = false

/-- The message was answered with NRC 0x78 right before the time `first`, and with nothing more. -/
def PendingSince (cfg : Config W) (s : Sys W) (d : Sdu) (first : UInt32) : Prop :=
  ∃ pre post ret, (step cfg s (.inputSdu (.bytes d))).2 =
    pre ++ .tpSend .nrc [nrcServiceNotSuppInSess, d.byte 0, nrcResponsePending] ret ::
      .time first :: post ∧ answersIn post = []

/-- Behind the deferred request `d` and the calls `ops`, the budget is kept. -/
def BudgetKept (cfg : Config W) (s : Sys W) (d : Sdu) (ops : List (Op W)) : Prop :=
  let t := (step cfg s (.inputSdu (.bytes d))).1
  let p := exec (answering cfg) (t, false) ops
  let answers := trace (answering cfg) (t, false) ops
  ∃ first times, PendingSince cfg s d first ∧ times.length ≤ cfg.rcrrpLimit.toNat ∧
    (first :: times).IsChain (Apart t.ctx.p2StarMs) ∧
    (InProgress cfg (d.byte 0) t.ctx.p2StarMs first times answers p ∨
      GivenUp cfg (d.byte 0) times answers p)

/-! ### Times -/

theorem apart_of_le {t u : UInt32} (h : gap ≤ u - t) : Apart gap t u := by
  intro T U hle hT hU
  have hgap := UInt32.le_iff_toNat_le.mp h
  rw [UInt32.toNat_sub] at hgap
  omega

theorem chain_append (h : (first :: times).IsChain (Apart gap)) {now : UInt32}
    (hnow : gap ≤ now - times.getLastD first) : (first :: (times ++ [now])).IsChain (Apart gap) := by
  rw [← List.cons_append]
  apply List.isChain_append.mpr
  refine ⟨h, List.isChain_singleton now, fun t ht u hu => ?_⟩
  obtain rfl : now = u := Option.some.inj hu
  rw [List.getLast?_cons] at ht
  obtain rfl : times.getLast?.getD first = t := Option.some.inj ht
  rw [List.getLastD_eq_getLast?] at hnow
  exact apart_of_le hnow

/-! ### The calls -/

theorem answersIn_append (es fs : List Event) :
    answersIn (es ++ fs) = answersIn es ++ answersIn fs :=
  List.filterMap_append ..

theorem answersIn_nil (h : ∀ e ∈ es, e.answer? = none) : answersIn es = [] :=
  List.filterMap_eq_nil_iff.mpr h

theorem around_answers (h : es.all Event.isAround = true) : answersIn es = [] :=
  answersIn_nil (around_forall h (fun _ => rfl) (fun _ => rfl) fun _ => rfl)

theorem ticks_answers (h : ∀ e ∈ es, e.isTick = true) : answersIn es = [] := by
  apply answersIn_nil
  intro e he
  have htick := h e he
  cases e with
  | tpSend origin data ret => exact absurd htick Bool.false_ne_true
  | _ => rfl

theorem Scheduled.answers {t : Sys W} (h : Scheduled s es t) : answersIn es = [] := by
  apply answersIn_nil
  intro e he
  have hperiodic := h.events e he
  cases e with
  | tpSend origin data ret =>
    cases origin with
    | periodic => rfl
    | _ => exact absurd hperiodic Bool.false_ne_true
  | _ => rfl

theorem sendNrc_answers (htx : 3 ≤ cfg.txBufferSize) (sid nrc : UInt8) (s : Sys W) :
    answersIn ((sendNrc cfg sid nrc).outputs s) = [[nrcServiceNotSuppInSess, sid, nrc]] := by
  obtain ⟨faults, hfaults, ret, houtputs⟩ := sendNrc_outputs cfg sid nrc s
  have hnone : answersIn faults = [] := answersIn_nil (faults_forall hfaults fun _ => rfl)
  rw [houtputs, if_pos htx, answersIn_append, hnone]
  rfl

/-- The end of `uds_process` answers nothing and leaves the exchange alone. -/
theorem finishProcess_quiet (cfg : Config W) (now : UInt32) (s : Sys W) :
    answersIn ((finishProcess cfg now).outputs s) = [] ∧
      ((finishProcess cfg now).final s).ctx.conversation = s.ctx.conversation := by
  obtain ⟨es, t, hsched, hfinal, houtputs⟩ := finishProcess_parts cfg now s
  constructor
  · rw [houtputs, answersIn_append, hsched.answers, around_answers (mutexUnlock_around cfg t).2]
    rfl
  · rw [hfinal, mutexUnlock_ctx, hsched.ctx]
    rfl

theorem ticked_conversation (cfg : Config W) (s : Sys W) :
    (ticked cfg s).ctx.conversation = s.ctx.conversation := by
  rw [ticked_ctx]
  split_ifs <;> rfl

theorem process_answers (cfg : Config W) (s : Sys W) : answersIn (step cfg s .process).2 =
    answersIn ((answerInTime cfg s.ctx (processTime cfg s)).outputs (ticked cfg s)) := by
  have houtputs : (step cfg s .process).2 = _ := (udsProcess_run cfg s).2
  have hs3 : ∀ e ∈ s3Events cfg s, e.isTick = true := (checkS3_parts cfg _ _).2
  rw [houtputs, ← List.singleton_append, answersIn_append, answersIn_append, answersIn_append,
    around_answers (mutexLock_around cfg s).2, ticks_answers hs3]
  rfl

/-- Before the deadline `uds_process` answers nothing. -/
theorem process_early (h : deadlinePassed s.ctx (processTime cfg s) = false) :
    answersIn (step cfg s .process).2 = [] ∧
      (step cfg s .process).1.ctx.conversation = s.ctx.conversation := by
  have hfinal : (step cfg s .process).1 = _ := (udsProcess_run cfg s).1
  have hquiet := finishProcess_quiet cfg (processTime cfg s) (ticked cfg s)
  rw [process_answers, hfinal]
  unfold answerInTime
  rw [if_neg (Bool.eq_false_iff.mp h)]
  exact ⟨hquiet.1, hquiet.2.trans (ticked_conversation cfg s)⟩

/-- Past the deadline it answers with NRC 0x78 while the budget lasts. -/
theorem process_repeats (htx : 3 ≤ cfg.txBufferSize)
    (h : deadlinePassed s.ctx (processTime cfg s) = true) (hleft : rcrrpExhausted cfg s.ctx = false) :
    answersIn (step cfg s .process).2 =
        [[nrcServiceNotSuppInSess, s.ctx.pendingSid, nrcResponsePending]] ∧
      (step cfg s .process).1.ctx.conversation =
        { s.ctx.conversation with
          rcrrpCount := s.ctx.rcrrpCount + 1, p2StarActive := true,
          p2TimerStart := processTime cfg s } := by
  let now := processTime cfg s
  let u := (sendNrc cfg s.ctx.pendingSid nrcResponsePending).final (ticked cfg s)
  let v : Sys W :=
    { u with ctx :=
      { u.ctx with rcrrpCount := u.ctx.rcrrpCount + 1, p2StarActive := true, p2TimerStart := now } }
  have hu : u.ctx = (ticked cfg s).ctx := by
    have hctx := sendNrc_ctx cfg s.ctx.pendingSid nrcResponsePending (ticked cfg s)
    rw [if_neg fun hends => hends.2.1 rfl] at hctx
    exact hctx
  obtain ⟨hanswers, hkept⟩ := finishProcess_quiet cfg now v
  have hfinal : (step cfg s .process).1 = _ := (udsProcess_run cfg s).1
  rw [process_answers, hfinal]
  unfold answerInTime
  rw [if_pos h, if_neg (Bool.eq_false_iff.mp hleft)]
  constructor
  · change answersIn ((sendNrc cfg s.ctx.pendingSid nrcResponsePending).outputs (ticked cfg s) ++
      (finishProcess cfg now).outputs v) = _
    rw [answersIn_append, sendNrc_answers htx, hanswers]
    rfl
  · change ((finishProcess cfg now).final v).ctx.conversation = _
    have hconv := ticked_conversation cfg s
    rw [← hu] at hconv
    have hcount : u.ctx.rcrrpCount = s.ctx.rcrrpCount := congrArg Conversation.rcrrpCount hconv
    rw [hkept, ← hcount, ← hconv]
    rfl

/-- When the budget is used up it answers with NRC 0x22 and ends the request. -/
theorem process_gives_up (htx : 3 ≤ cfg.txBufferSize)
    (h : deadlinePassed s.ctx (processTime cfg s) = true) (hused : rcrrpExhausted cfg s.ctx = true) :
    answersIn (step cfg s .process).2 =
        [[nrcServiceNotSuppInSess, s.ctx.pendingSid, nrcConditionsNotCorrect]] ∧
      (step cfg s .process).1.ctx.p2MsgPending = false := by
  have hfinal : (step cfg s .process).1 = _ := (udsProcess_run cfg s).1
  have hsid : s.ctx.pendingSid = (ticked cfg s).ctx.pendingSid :=
    (congrArg Conversation.pendingSid (ticked_conversation cfg s)).symm
  rw [process_answers, hfinal]
  unfold answerInTime
  rw [if_pos h, if_pos hused]
  constructor
  · change answersIn ((sendNrc cfg s.ctx.pendingSid nrcConditionsNotCorrect).outputs (ticked cfg s) ++
      []) = _
    rw [List.append_nil]
    exact sendNrc_answers htx _ _ _
  · change ((sendNrc cfg s.ctx.pendingSid nrcConditionsNotCorrect).final
      (ticked cfg s)).ctx.p2MsgPending = false
    rw [sendNrc_ctx, if_pos ⟨htx, by decide, hsid⟩]

/-! ### Messages -/

/-- Nothing comes into progress. -/
def NoStart (c c' : Ctx) : Prop := c'.p2MsgPending = true → c.p2MsgPending = true

theorem noStart_handling : Handling NoStart where
  same _ _ h hp := (congrArg Conversation.p2MsgPending h).symm.trans hp
  trans _ _ _ h hnext := h ∘ hnext
  refused _ hp := absurd hp Bool.false_ne_true
  answered _ _ hp := absurd hp Bool.false_ne_true
  asked _ _ _ hp := hp

/-- The repetitions are not counted up. -/
def NoCount (c c' : Ctx) : Prop := c.rcrrpCount = 0 → c'.rcrrpCount = 0

theorem noCount_handling : Handling NoCount where
  same _ _ h hcount := (congrArg Conversation.rcrrpCount h).trans hcount
  trans _ _ _ h hnext := hnext ∘ h
  refused _ hcount := hcount
  answered _ _ _ := rfl
  asked _ _ _ hcount := hcount

theorem atHandler_conversation (service : Service W) (d : Sdu) (t : Sys W) :
    (atHandler cfg service d t).ctx.p2MsgPending = t.ctx.p2MsgPending ∧
      (atHandler cfg service d t).ctx.rcrrpCount = t.ctx.rcrrpCount := by
  rw [atHandler_ctx]
  exact ⟨rfl, rfl⟩

/-- A message that arrives while nothing is in progress and is not deferred starts nothing. -/
theorem undeferred_starts_nothing (hne : d.bytes ≠ []) (hidle : s.ctx.p2MsgPending = false)
    (h : ¬ DefersRequest cfg s d) :
    (step cfg s (.inputSdu (.bytes d))).1.ctx.p2MsgPending = false := by
  apply Bool.eq_false_iff.mpr
  intro hp
  by_cases hans : takesAsAnswer s.ctx d
  · rw [(step_answered cfg hidle hans hne).final, mutexUnlock_ctx] at hp
    have harrived : (arrived cfg s).ctx.p2MsgPending = false := by
      rw [arrived_ctx]
      exact hidle
    have hkept : NoStart (arrived cfg s).ctx ((takeAnswer cfg d).final (arrived cfg s)).ctx :=
      takeAnswer_follows noStart_handling d _
    rw [hkept hp] at harrived
    cases harrived
  · rw [(step_started cfg hidle hans hne).final, mutexUnlock_ctx] at hp
    change ((handleRequest cfg d).final (entered cfg s)).ctx.p2MsgPending = true at hp
    have hleads := handleRequest_leads cfg (entered cfg s) hne
    cases hfail : firstFailing cfg (entered cfg s) d with
    | none =>
      rw [hfail] at hleads
      obtain ⟨service, hfound, hfinal, -⟩ := hleads
      have hreached : reached cfg d s = some service := by
        unfold reached
        rw [hfail]
        exact hfound
      have hdone : (service.handler d).value (atHandler cfg service d (entered cfg s)) ≠ udsPending := by
        intro hvalue
        apply h
        refine ⟨hne, hidle, hans, ?_⟩
        unfold defers
        rw [hreached]
        exact decide_eq_true hvalue
      rw [hfinal, (executeHandler_done cfg service d hdone).1] at hp
      have hstarted := handler_follows noStart_handling hfound d _ hp
      rw [(atHandler_conversation service d _).1] at hstarted
      cases hstarted
    | some check =>
      rw [hfail] at hleads
      obtain ⟨es, w, hgate, -, hfinal, -⟩ := hleads
      rw [hfinal] at hp
      have hstarted : w.ctx.p2MsgPending = true := sendNrc_follows noStart_handling _ _ w hp
      rw [hgate.1] at hstarted
      cases hstarted

/-! ### The start -/

/-- The context of a request in progress that has been answered at these times. -/
structure Held (sid : UInt8) (gap first : UInt32) (times : List UInt32) (c : Ctx) : Prop where
  pending : c.p2MsgPending = true
  extended : c.p2StarActive = true
  sid : c.pendingSid = sid
  gap : c.p2StarMs = gap
  since : c.p2TimerStart = times.getLastD first
  count : c.rcrrpCount.toNat = times.length

/-- A handler that defers its answer is followed by NRC 0x78 and a look at the clock. -/
theorem executeHandler_defers (cfg : Config W) (service : Service W) (hne : d.bytes ≠ []) {u : Sys W}
    (h : (service.handler d).value u = udsPending) :
    let v := (service.handler d).final u
    ∃ now, (executeHandler cfg service d).outputs u = .handler service.sid ::
        ((service.handler d).outputs u ++
          ((sendNrc cfg (d.byte 0) nrcResponsePending).outputs v ++ [.time now])) ∧
      ((executeHandler cfg service d).final u).ctx =
        { v.ctx with
          p2MsgPending := true, p2StarActive := true, p2TimerStart := now, pendingSid := d.byte 0 } := by
  intro v
  have hpos : 0 < d.bytes.length := List.length_pos_iff.mpr hne
  have hctx : ((sendNrc cfg (d.byte 0) nrcResponsePending).final v).ctx = v.ctx := by
    rw [sendNrc_ctx]
    exact if_neg fun hends => hends.2.1 rfl
  let w : Sys W := (setCtx fun c => { c with p2MsgPending := true, p2StarActive := true }).final
    ((sendNrc cfg (d.byte 0) nrcResponsePending).final v)
  refine ⟨(getTime cfg).value w, ?_, ?_⟩
  · unfold executeHandler
    rw [outputs_bind, outputs_bind, outputs_onlyIf, final_emit, if_pos h,
      outputs_byteAt_bind _ _ _ _ hpos]
    rfl
  · unfold executeHandler
    rw [final_bind, final_bind, final_onlyIf, final_emit, if_pos h, final_byteAt_bind]
    rw [← hctx]
    rfl

/-- A deferred request is answered with NRC 0x78, and none of its budget is used. -/
theorem deferred_starts (htx : 3 ≤ cfg.txBufferSize) (h : DefersRequest cfg s d) :
    let t := (step cfg s (.inputSdu (.bytes d))).1
    ∃ first, PendingSince cfg s d first ∧ Held (d.byte 0) t.ctx.p2StarMs first [] t.ctx := by
  intro t
  have htreats := step_started cfg h.idle h.request h.nonempty
  have hleads := handleRequest_leads cfg (entered cfg s) h.nonempty
  have hdefers := h.deferred
  unfold defers reached at hdefers
  cases hfail : firstFailing cfg (entered cfg s) d with
  | some check =>
    rw [hfail] at hdefers
    cases hdefers
  | none =>
    rw [hfail] at hleads hdefers
    obtain ⟨service, hfound, hfinal, houtputs⟩ := hleads
    dsimp only at hdefers
    rw [hfound] at hdefers
    let u := atHandler cfg service d (entered cfg s)
    have hvalue : (service.handler d).value u = udsPending := of_decide_eq_true hdefers
    obtain ⟨now, hrun, hctx⟩ := executeHandler_defers cfg service h.nonempty hvalue
    obtain ⟨faults, hfaults, ret, hsent⟩ := sendNrc_outputs cfg (d.byte 0) nrcResponsePending
      ((service.handler d).final u)
    rw [if_pos htx] at hsent
    have hcount : ((service.handler d).final u).ctx.rcrrpCount = 0 :=
      handler_follows noCount_handling hfound d u (atHandler_conversation service d _).2
    have hlast : t.ctx = ((executeHandler cfg service d).final u).ctx := by
      have hstate : t = _ := htreats.final
      rw [hstate, mutexUnlock_ctx]
      exact congrArg Sys.ctx hfinal
    refine ⟨now, ?_, ?_⟩
    · have hall := htreats.outputs
      rw [startRequest_outputs, houtputs, hrun, hsent] at hall
      let gate := (safetyGate cfg (d.byte 0) d).outputs (flagged service d (entered cfg s))
      refine ⟨(mutexLock cfg).outputs s ++ ((getTime cfg).outputs ((mutexLock cfg).final s) ++
        ((getTime cfg).outputs (arrived cfg s) ++ (.dispatch d.bytes :: (gate ++
          .handler service.sid :: ((service.handler d).outputs u ++ faults))))),
        (mutexUnlock cfg).outputs ((startRequest cfg d).final (arrived cfg s)), ret, ?_,
        around_answers (mutexUnlock_around cfg _).2⟩
      rw [hall]
      simp only [List.append_assoc, List.cons_append, List.nil_append]
      rfl
    · rw [hlast, hctx]
      exact ⟨rfl, rfl, rfl, rfl, rfl, congrArg UInt16.toNat hcount⟩

/-! ### Waiting -/

theorem Held.kept {c c' : Ctx} (h : Held sid gap first times c)
    (hc : c'.conversation = c.conversation) : Held sid gap first times c' where
  pending := (congrArg Conversation.p2MsgPending hc).trans h.pending
  extended := (congrArg Conversation.p2StarActive hc).trans h.extended
  sid := (congrArg Conversation.pendingSid hc).trans h.sid
  gap := (congrArg Conversation.p2StarMs hc).trans h.gap
  since := (congrArg Conversation.p2TimerStart hc).trans h.since
  count := (congrArg (fun m : Conversation => m.rcrrpCount.toNat) hc).trans h.count

theorem Held.deadline_iff {c : Ctx} (h : Held sid gap first times c) (now : UInt32) :
    deadlinePassed c now = true ↔ gap ≤ now - times.getLastD first := by
  unfold deadlinePassed
  rw [decide_eq_true_iff, h.pending, h.extended, if_pos rfl, h.gap, h.since]
  simp

theorem Held.exhausted_iff {c : Ctx} (h : Held sid gap first times c) (hlimit : 1 ≤ cfg.rcrrpLimit) :
    rcrrpExhausted cfg c = true ↔ cfg.rcrrpLimit.toNat ≤ times.length := by
  have hpos := UInt16.le_iff_toNat_le.mp hlimit
  have hone : (1 : UInt16).toNat = 1 := rfl
  have hzero : (0 : UInt16).toNat = 0 := rfl
  unfold rcrrpExhausted
  rw [decide_eq_true_iff, gt_iff_lt, ge_iff_le, UInt16.lt_iff_toNat_lt, UInt16.le_iff_toNat_le,
    h.count]
  omega

/-- One more answer with NRC 0x78 is counted. -/
theorem Held.repeated {c c' : Ctx} (h : Held sid gap first times c) {now : UInt32}
    (hroom : times.length < cfg.rcrrpLimit.toNat)
    (hc : c'.conversation = { c.conversation with
      rcrrpCount := c.rcrrpCount + 1, p2StarActive := true, p2TimerStart := now }) :
    Held sid gap first (times ++ [now]) c' where
  pending := (congrArg Conversation.p2MsgPending hc).trans h.pending
  extended := congrArg Conversation.p2StarActive hc
  sid := (congrArg Conversation.pendingSid hc).trans h.sid
  gap := (congrArg Conversation.p2StarMs hc).trans h.gap
  since := (congrArg Conversation.p2TimerStart hc).trans List.getLastD_concat.symm
  count := by
    have hcount : c'.rcrrpCount = c.rcrrpCount + 1 := congrArg Conversation.rcrrpCount hc
    have hone : (1 : UInt16).toNat = 1 := rfl
    have hlimit := cfg.rcrrpLimit.toNat_lt
    rw [hcount, UInt16.toNat_add, h.count, hone, List.length_append, List.length_singleton]
    omega

/-- What `uds_process` does at the time `now` for a request that has been answered at these times. -/
inductive Turn (cfg : Config W) (sid : UInt8) (gap first : UInt32) (times : List UInt32) (now : UInt32)
    (es : List Event) (t : Sys W) : Prop where
  | early (hdue : ¬ gap ≤ now - times.getLastD first) (hanswers : answersIn es = [])
      (hheld : Held sid gap first times t.ctx)
  | repeated (hdue : gap ≤ now - times.getLastD first) (hroom : times.length < cfg.rcrrpLimit.toNat)
      (hanswers : answersIn es = [[nrcServiceNotSuppInSess, sid, nrcResponsePending]])
      (hheld : Held sid gap first (times ++ [now]) t.ctx)
  | ended (hdue : gap ≤ now - times.getLastD first) (hfull : ¬ times.length < cfg.rcrrpLimit.toNat)
      (hanswers : answersIn es = [[nrcServiceNotSuppInSess, sid, nrcConditionsNotCorrect]])
      (hcleared : t.ctx.p2MsgPending = false)

theorem process_turn (htx : 3 ≤ cfg.txBufferSize) (hlimit : 1 ≤ cfg.rcrrpLimit)
    (h : Held sid gap first times s.ctx) : Turn cfg sid gap first times (processTime cfg s)
      (step cfg s .process).2 (step cfg s .process).1 := by
  have hdeadline := h.deadline_iff (processTime cfg s)
  have hexhausted := h.exhausted_iff hlimit
  by_cases hdue : gap ≤ processTime cfg s - times.getLastD first
  · by_cases hroom : times.length < cfg.rcrrpLimit.toNat
    · have hleft : rcrrpExhausted cfg s.ctx = false :=
        Bool.eq_false_iff.mpr fun hused => absurd (hexhausted.mp hused) (Nat.not_le.mpr hroom)
      obtain ⟨hanswers, hkept⟩ := process_repeats htx (hdeadline.mpr hdue) hleft
      rw [h.sid] at hanswers
      exact .repeated hdue hroom hanswers (h.repeated hroom hkept)
    · have hused := hexhausted.mpr (Nat.not_lt.mp hroom)
      obtain ⟨hanswers, hcleared⟩ := process_gives_up htx (hdeadline.mpr hdue) hused
      rw [h.sid] at hanswers
      exact .ended hdue hroom hanswers hcleared
  · have hwaits : deadlinePassed s.ctx (processTime cfg s) = false :=
      Bool.eq_false_iff.mpr fun hpassed => hdue (hdeadline.mp hpassed)
    obtain ⟨hanswers, hkept⟩ := process_early hwaits
    exact .early hdue hanswers (h.kept hkept)

theorem tester_nonempty (h : suppressedTesterPresent d = true) : d.bytes ≠ [] := by
  intro hnil
  have hlen := (of_decide_eq_true h).2.1
  rw [hnil] at hlen
  exact absurd hlen (by decide)

/-- A message that wants no response leaves the request in progress alone. -/
theorem tester_held (htester : suppressedTesterPresent d = true)
    (h : Held sid gap first times s.ctx) :
    Held sid gap first times (step cfg s (.inputSdu (.bytes d))).1.ctx := by
  have hfinal := (step_busy cfg h.pending (tester_nonempty htester)).final
  have hquiet : busyAnswer cfg d = pure () := if_pos htester
  rw [hfinal, hquiet, final_pure, mutexUnlock_ctx]
  rw [arrived_ctx]
  exact ⟨h.pending, h.extended, h.sid, h.gap, h.since, h.count⟩

/-- And it is not answered. -/
theorem tester_quiet (htester : suppressedTesterPresent d = true)
    (h : Held sid gap first times s.ctx) : sentOf (step cfg s (.inputSdu (.bytes d))).2 = [] := by
  have houtputs := (step_busy cfg h.pending (tester_nonempty htester)).outputs
  have hquiet : busyAnswer cfg d = pure () := if_pos htester
  rw [houtputs, hquiet]
  simp only [sentOf_append, outputs_pure, around_sent (mutexLock_around cfg s).2,
    around_sent (mutexUnlock_around cfg _).2]
  rfl

/-! ### Runs -/

/-- The budget is kept behind these answers. -/
def OnBudget (cfg : Config W) (sid : UInt8) (gap first : UInt32)
    (answers : List (UInt32 × List UInt8)) (p : Sys W × Bool) : Prop :=
  ∃ times, times.length ≤ cfg.rcrrpLimit.toNat ∧ (first :: times).IsChain (Apart gap) ∧
    ((answers = times.map (negativeAt sid nrcResponsePending) ∧ p.2 = false ∧
      Held sid gap first times p.1.ctx) ∨ GivenUp cfg sid times answers p)

theorem answering_process {p : Sys W × Bool} (h : p.2 = false) : (answering cfg p .process).2 =
    (answersIn (step cfg p.1 .process).2).map fun data => (processTime cfg p.1, data) :=
  if_neg (Bool.eq_false_iff.mp h)

/-- A call keeps a waiting request on its budget. -/
theorem held_on_budget (htx : 3 ≤ cfg.txBufferSize) (hlimit : 1 ≤ cfg.rcrrpLimit) (op : Op W)
    (hop : Waits op) {p : Sys W × Bool} (hp : p.2 = false) (h : Held sid gap first times p.1.ctx)
    (hlen : times.length ≤ cfg.rcrrpLimit.toNat) (hchain : (first :: times).IsChain (Apart gap)) :
    OnBudget cfg sid gap first
      (times.map (negativeAt sid nrcResponsePending) ++ (answering cfg p op).2)
      (answering cfg p op).1 := by
  cases op with
  | process =>
    rw [answering_process hp]
    cases process_turn htx hlimit h with
    | early hdue hanswers hheld =>
      refine ⟨times, hlen, hchain, .inl ⟨?_, hp, hheld⟩⟩
      rw [hanswers]
      exact List.append_nil _
    | repeated hdue hroom hanswers hheld =>
      refine ⟨times ++ [processTime cfg p.1], ?_, chain_append hchain hdue, .inl ⟨?_, hp, hheld⟩⟩
      · rw [List.length_append, List.length_singleton]
        omega
      · rw [hanswers, List.map_append]
        rfl
    | ended hdue hfull hanswers hcleared =>
      refine ⟨times, hlen, hchain, .inr ⟨by omega, ⟨processTime cfg p.1, ?_⟩, fun _ => hcleared⟩⟩
      rw [hanswers]
      rfl
  | inputSdu data =>
    cases data with
    | null len => exact absurd hop not_false
    | bytes d =>
      refine ⟨times, hlen, hchain, .inl ⟨List.append_nil _, ?_, tester_held hop h⟩⟩
      have hnone : ¬ DefersRequest cfg p.1 d := by
        intro hdefers
        cases h.pending.symm.trans hdefers.idle
      change (p.2 || decide (DefersRequest cfg p.1 d)) = false
      rw [hp, decide_eq_false hnone]
      rfl
  | elapse f => exact ⟨times, hlen, hchain, .inl ⟨List.append_nil _, hp, h⟩⟩
  | _ => exact absurd hop not_false

/-- Nothing is answered any more to a request that has been given up. -/
theorem GivenUp.stays (op : Op W) (hop : Waits op) {p : Sys W × Bool}
    {answers : List (UInt32 × List UInt8)} (h : GivenUp cfg sid times answers p) :
    GivenUp cfg sid times (answers ++ (answering cfg p op).2) (answering cfg p op).1 := by
  cases op with
  | process =>
    cases hp : p.2 with
    | true =>
      have hnone : (answering cfg p .process).2 = [] := if_pos hp
      rw [hnone, List.append_nil]
      refine ⟨h.full, h.answers, fun hother => ?_⟩
      rw [show (answering cfg p .process).1.2 = p.2 from rfl, hp] at hother
      cases hother
    | false =>
      have hearly : deadlinePassed p.1.ctx (processTime cfg p.1) = false := by
        unfold deadlinePassed
        rw [h.cleared hp]
        simp
      obtain ⟨hnone, hkept⟩ := process_early hearly
      rw [answering_process hp, hnone, List.map_nil, List.append_nil]
      refine ⟨h.full, h.answers, fun _ => ?_⟩
      exact (congrArg Conversation.p2MsgPending hkept).trans (h.cleared hp)
  | inputSdu data =>
    cases data with
    | null len => exact absurd hop not_false
    | bytes d =>
      have hnone : (answering cfg p (.inputSdu (.bytes d))).2 = [] := rfl
      rw [hnone, List.append_nil]
      refine ⟨h.full, h.answers, fun hother => ?_⟩
      obtain ⟨hp, hdefers⟩ := Bool.or_eq_false_iff.mp hother
      exact undeferred_starts_nothing (tester_nonempty hop) (h.cleared hp) (of_decide_eq_false hdefers)
  | elapse f =>
    have hnone : (answering cfg p (.elapse f)).2 = [] := rfl
    rw [hnone, List.append_nil]
    exact ⟨h.full, h.answers, h.cleared⟩
  | _ => exact absurd hop not_false

theorem step_on_budget (htx : 3 ≤ cfg.txBufferSize) (hlimit : 1 ≤ cfg.rcrrpLimit) (op : Op W)
    (hop : Waits op) {p : Sys W × Bool} {answers : List (UInt32 × List UInt8)}
    (h : OnBudget cfg sid gap first answers p) :
    OnBudget cfg sid gap first (answers ++ (answering cfg p op).2) (answering cfg p op).1 := by
  obtain ⟨times, hlen, hchain, ⟨rfl, hp, hheld⟩ | hgiven⟩ := h
  · exact held_on_budget htx hlimit op hop hp hheld hlen hchain
  · exact ⟨times, hlen, hchain, .inr (hgiven.stays op hop)⟩

/-- A waiting request is in progress, and the next call of `uds_process` treats it so. -/
theorem Held.inProgress (htx : 3 ≤ cfg.txBufferSize) (hlimit : 1 ≤ cfg.rcrrpLimit)
    {p : Sys W × Bool} (hp : p.2 = false) (h : Held sid gap first times p.1.ctx) :
    InProgress cfg sid gap first times (times.map (negativeAt sid nrcResponsePending)) p := by
  constructor
  · rfl
  · exact h.pending
  · intro now
    rw [answering_process hp]
    cases process_turn htx hlimit h with
    | early hdue hanswers hheld =>
      rw [if_neg hdue, hanswers]
      rfl
    | repeated hdue hroom hanswers hheld =>
      rw [if_pos hdue, if_pos hroom, hanswers]
      rfl
    | ended hdue hfull hanswers hcleared =>
      rw [if_pos hdue, if_neg hfull, hanswers]
      rfl
  · intro hdue hfull
    cases process_turn htx hlimit h with
    | early hwaits hanswers hheld => exact absurd hdue hwaits
    | repeated hdue' hroom hanswers hheld => exact absurd hfull (Nat.ne_of_lt hroom)
    | ended hdue' hfull' hanswers hcleared => exact hcleared
  · exact fun d htester => tester_quiet htester h

/-- The budget of response-pending answers is kept for every deferred request, whatever time passes
between the calls of `uds_process` while the application does not complete it. -/
theorem pending_budget (cfg : Config W) (htx : 3 ≤ cfg.txBufferSize) (hlimit : 1 ≤ cfg.rcrrpLimit)
    (s : Sys W) (d : Sdu) (hdefers : DefersRequest cfg s d) (ops : List (Op W))
    (hops : ∀ op ∈ ops, Waits op) : BudgetKept cfg s d ops := by
  unfold BudgetKept
  intro t p answers
  obtain ⟨first, hsince, hheld⟩ := deferred_starts htx hdefers
  have hstart : OnBudget cfg (d.byte 0) t.ctx.p2StarMs first [] (t, false) :=
    ⟨[], Nat.zero_le _, List.isChain_singleton first, .inl ⟨rfl, rfl, hheld⟩⟩
  have hwaits : Along (answering cfg) (fun _ op => Waits op) (t, false) ops :=
    ((Along.trivial (t, false) ops).and_forall hops).mono fun _ _ h => h.1
  have hrun : OnBudget cfg (d.byte 0) t.ctx.p2StarMs first answers p := by
    apply trace_invariant (H := OnBudget cfg (d.byte 0) t.ctx.p2StarMs first) _ hstart hwaits
    exact fun _ _ op h hop => step_on_budget htx hlimit op hop h
  obtain ⟨times, hlen, hchain, ⟨hanswers, hp, hlast⟩ | hgiven⟩ := hrun
  · have hprogress := hlast.inProgress htx hlimit hp
    rw [← hanswers] at hprogress
    exact ⟨first, times, hsince, hlen, hchain, .inl hprogress⟩
  · exact ⟨first, times, hsince, hlen, hchain, .inr hgiven⟩

/-- A request that is never completed, with one repetition of NRC 0x78 allowed. -/
def slowWait : List (Op UInt32) :=
  [.elapse (· + 5000), .process, .inputSdu (.bytes keepAlive), .elapse (· + 4999), .process,
    .elapse (· + 1), .process, .elapse (· + 5000), .process]

theorem slowWait_on_budget :
    let start := (udsInit mutexConfig).final powerOn
    let t := (step mutexConfig start (.inputSdu (.bytes slowRequest))).1
    BudgetKept mutexConfig start slowRequest slowWait ∧
      trace (answering mutexConfig) (t, false) slowWait =
        [(5000, [0x7F, 0x31, 0x78]), (10000, [0x7F, 0x31, 0x22])] := by
  intro start t
  have hquiet : suppressedTesterPresent keepAlive = true := by decide
  have hwaits : ∀ op ∈ slowWait, Waits op := by simp [slowWait, Waits, hquiet]
  constructor
  · exact pending_budget mutexConfig (by decide) (by decide) start slowRequest (by decide) slowWait hwaits
  · decide

end UdsLib.Core
