import UdsLib.Core.ClientResponse
import UdsLib.Core.Openings
import UdsLib.Core.Silence

/-! A stack that answers on the spot. The core services never return `UDS_PENDING` by themselves: only
a user service can, or a `fn_tp_send` with a positive result. Without both no request is ever in
progress between two calls, and a stack that asks nothing itself dispatches all it is given. -/
namespace UdsLib.Core
open Bytes Machine Prog Services

variable {W : Type} {cfg : Config W} {d : Sdu} {s : Sys W} {op : Op W}

/-- There are no user services, and `fn_tp_send` has no positive result. -/
structure Synchronous (cfg : Config W) : Prop where
  services : cfg.userServices = []
  send : ∀ c data w, (cfg.fnTpSend c data w).1 ≤ 0

/-- A call in which the stack asks nothing as a client. -/
def Op.Serves : Op W → Prop
  | .clientRequest _ _ _ => False
  | _ => True

instance (op : Op W) : Decidable op.Serves :=
  match op with
  | .clientRequest _ _ _ => inferInstanceAs (Decidable False)
  | .inputSdu _ | .process | .fill _ _ | .sendResponse _ | .sendNrc _ _ | .elapse _ =>
    inferInstanceAs (Decidable True)

namespace Synchronous

variable (h : Synchronous cfg)
include h

/-- Every service is one of the core's. -/
theorem core {sid : UInt8} {service : Service W} (hfound : findService cfg sid = some service) :
    service ∈ coreServices cfg := by
  unfold findService at hfound
  rw [h.services] at hfound
  exact List.mem_of_find?_eq_some hfound

theorem reached_core {service : Service W} (hreached : reached cfg d s = some service) :
    service ∈ coreServices cfg := by
  unfold reached at hreached
  split at hreached
  · exact h.core hreached
  · cases hreached

theorem not_deferred (s : Sys W) (d : Sdu) : ¬ DefersRequest cfg s d := by
  intro hdefers
  have hpending := hdefers.deferred
  unfold defers at hpending
  cases hreached : reached cfg d s with
  | none =>
    rw [hreached] at hpending
    cases hpending
  | some service =>
    rw [hreached] at hpending
    have hvalue := (coreServices_path d service (h.reached_core hreached)).nonpos h.send
    exact nonpos_ne_pending (hvalue _) (of_decide_eq_true hpending)

/-! ### Calls -/

/-- A request leaves the client's side alone, and nothing in progress. -/
theorem dispatched_closed (hclosed : Closed s.ctx) (hne : d.bytes ≠ []) :
    Closed (step cfg s (.inputSdu (.bytes d))).1.ctx := by
  refine ⟨?_, undeferred_starts_nothing hne hclosed.idle (h.not_deferred s d)⟩
  have hentered : (entered cfg s).ctx.pendingSid = 0 := by
    rw [entered_ctx]
    exact hclosed.sid
  rw [(step_started cfg hclosed.idle (closed_not_taken hclosed d) hne).final, mutexUnlock_ctx,
    startRequest_final]
  have hleads := handleRequest_leads cfg (entered cfg s) hne
  cases hfail : firstFailing cfg (entered cfg s) d with
  | some check =>
    rw [hfail] at hleads
    obtain ⟨es, w, hgated, -, hfinal, -⟩ := hleads
    have hreject : Worked w _ ((reject cfg (d.byte 0) check.nrc).final w) :=
      worked_composable.discard (sendNrc_worked cfg _ _) w
    have hgate : w.ctx.pendingSid = (entered cfg s).ctx.pendingSid := by rw [hgated.1]
    rw [hfinal, hreject.sid, hgate, hentered]
  | none =>
    rw [hfail] at hleads
    obtain ⟨service, hfound, hfinal, -⟩ := hleads
    have hcore := h.core hfound
    have hpath := coreServices_path d service hcore
    have hhandler : Keeps Worked (service.handler d) := hpath.worked
    have hdone := nonpos_ne_pending (hpath.nonpos h.send (atHandler cfg service d (entered cfg s)))
    have hstart : (atHandler cfg service d (entered cfg s)).ctx.pendingSid = 0 := by
      rw [← hentered]
      unfold atHandler safetyGate flagged
      split_ifs <;> rfl
    rw [hfinal, (executeHandler_done cfg service d hdone).1, (hhandler _).sid, hstart]

theorem step_closed (hop : op.Serves) (hclosed : Closed s.ctx) : Closed (step cfg s op).1.ctx := by
  by_cases hmessage : ∃ d, op = .inputSdu (.bytes d) ∧ d.bytes ≠ []
  · obtain ⟨d, rfl, hne⟩ := hmessage
    exact h.dispatched_closed hclosed hne
  · cases op with
    | inputSdu data =>
      have hempty : ∀ d, data = .bytes d → d.bytes = [] := by
        rintro d rfl
        exact not_not.mp fun hne => hmessage ⟨d, rfl, hne⟩
      rw [(step_ignored cfg s hempty).1, mutexUnlock_ctx, mutexLock_ctx]
      exact hclosed
    | clientRequest sid data cb => exact absurd hop not_false
    | process => exact hclosed.kept (udsProcess_keeping cfg s)
    | fill off bytes => exact hclosed
    | sendResponse len => exact hclosed.kept (sendResponse_worked cfg len s).keeping
    | sendNrc sid nrc => exact hclosed.kept (sendNrc_worked cfg sid nrc s).keeping
    | elapse f => exact hclosed

theorem run_closed {ops : List (Op W)} (hops : ∀ op ∈ ops, op.Serves) (hclosed : Closed s.ctx) :
    Closed (exec (step cfg) s ops).ctx := by
  induction ops generalizing s with
  | nil => exact hclosed
  | cons op ops ih =>
    obtain ⟨hop, hops⟩ := List.forall_mem_cons.mp hops
    exact ih hops (h.step_closed hop hclosed)

end Synchronous

/-! ### Dispatches -/

/-- The messages that are dispatched, in order. -/
def dispatchesOf (es : List Event) : List Event := es.filter Event.isDispatch

theorem dispatchesOf_append (es fs : List Event) :
    dispatchesOf (es ++ fs) = dispatchesOf es ++ dispatchesOf fs :=
  List.filter_append ..

/-- What is dispatched is opened. -/
theorem dispatches_opened (es : List Event) :
    (dispatchesOf es).length ≤ (openedOf es).length := by
  induction es with
  | nil => exact le_refl 0
  | cons e es ih =>
    cases e with
    | dispatch message => exact Nat.succ_le_succ ih
    | responseCb cb sid data => exact Nat.le_succ_of_le ih
    | _ => exact ih

/-- The dispatch of a message that is not empty. -/
def dispatchOf? (message : List UInt8) : Option Event :=
  if message = [] then none else some (.dispatch message)

/-- What the messages of the calls come to, if each is dispatched. -/
def dispatchesIn (ops : List (Op W)) : List Event :=
  ((messagesIn ops).map Buf.content).filterMap dispatchOf?

theorem dispatchesIn_cons (op : Op W) (ops : List (Op W)) :
    dispatchesIn (op :: ops) = dispatchesIn [op] ++ dispatchesIn ops := by
  unfold dispatchesIn
  rw [messagesIn_cons op ops, List.map_append, List.filterMap_append]

theorem around_dispatches {es : List Event} (h : es.all Event.isAround = true) :
    dispatchesOf es = [] :=
  List.filter_eq_nil_iff.mpr (around_forall h nofun nofun nofun)

theorem unopened_dispatches {es : List Event} (h : openedOf es = []) : dispatchesOf es = [] := by
  have hlength := dispatches_opened es
  rw [h] at hlength
  exact List.length_eq_zero_iff.mp (Nat.le_zero.mp hlength)

theorem arrival_dispatches (hclosed : Closed s.ctx) (hne : d.bytes ≠ []) :
    dispatchesOf (step cfg s (.inputSdu (.bytes d))).2 = [.dispatch d.bytes] := by
  have hentry : ∃ rest, (handleRequest cfg d).outputs (entered cfg s) = .dispatch d.bytes :: rest :=
    ⟨_, rfl⟩
  obtain ⟨rest, hrest⟩ := hentry
  obtain ⟨-, before, after, -, -, houtputs⟩ :=
    step_dispatched cfg hclosed.idle (closed_not_taken hclosed d) hne
  have hmem : .dispatch d.bytes ∈ dispatchesOf (step cfg s (.inputSdu (.bytes d))).2 := by
    rw [show (step cfg s (.inputSdu (.bytes d))).2 = _ from houtputs, hrest]
    exact List.mem_filter.mpr ⟨by simp, rfl⟩
  -- at most one message is opened, so this dispatch is the only one
  have hlength : (dispatchesOf (step cfg s (.inputSdu (.bytes d))).2).length ≤ 1 :=
    (dispatches_opened _).trans (step_opens cfg s (.inputSdu (.bytes d))).length_le
  obtain ⟨e, he⟩ :=
    List.length_eq_one_iff.mp (le_antisymm hlength (List.length_pos_of_mem hmem))
  rw [he] at hmem ⊢
  rw [List.mem_singleton.mp hmem]

/-- With nothing in progress and nothing asked for, a message is dispatched, and nothing else. -/
theorem step_dispatches (hclosed : Closed s.ctx) (op : Op W) :
    dispatchesOf (step cfg s op).2 = dispatchesIn [op] := by
  have hnone (hop : messagesIn [op] = []) : dispatchesOf (step cfg s op).2 = [] := by
    have hopened := step_opens cfg s op
    rw [hop] at hopened
    exact unopened_dispatches (List.sublist_nil.mp hopened)
  cases op with
  | inputSdu data =>
    show _ = [data.content].filterMap dispatchOf?
    by_cases hcontent : data.content = []
    · have hempty : ∀ d, data = .bytes d → d.bytes = [] := by
        rintro d rfl
        exact hcontent
      have hskipped : dispatchOf? data.content = none := if_pos hcontent
      rw [(step_ignored cfg s hempty).2, dispatchesOf_append,
        around_dispatches (mutexLock_around cfg s).2,
        around_dispatches (mutexUnlock_around cfg _).2, List.filterMap_cons_none hskipped]
      rfl
    · cases data with
      | null len => exact absurd rfl hcontent
      | bytes d =>
        have hdispatch : dispatchOf? (Buf.bytes d).content = some (.dispatch d.bytes) := if_neg hcontent
        rw [arrival_dispatches hclosed hcontent, List.filterMap_cons_some hdispatch]
        rfl
  | process | clientRequest | fill | sendResponse | sendNrc | elapse => exact hnone rfl

/-- What `uds_process` sends while nothing is in progress are periodic messages. -/
theorem process_periodic (hidle : s.ctx.p2MsgPending = false) {origin : Origin} {data : List UInt8}
    {ret : ℤ} (h : .tpSend origin data ret ∈ (step cfg s .process).2) : origin = .periodic := by
  obtain ⟨-, houtputs⟩ := udsProcess_run cfg s
  have hdead : ¬ deadlinePassed s.ctx (processTime cfg s) = true := by
    unfold deadlinePassed
    rw [hidle]
    simp
  have hanswer : answerInTime cfg s.ctx (processTime cfg s) = finishProcess cfg (processTime cfg s) :=
    if_neg hdead
  obtain ⟨es, t, hscheduled, -, hfinish⟩ := finishProcess_parts cfg (processTime cfg s) (ticked cfg s)
  have hmem : .tpSend origin data ret ∈ (udsProcess cfg).outputs s := h
  rw [houtputs, hanswer, hfinish] at hmem
  simp only [List.mem_append, List.mem_cons] at hmem
  rcases hmem with hlock | htime | hs3 | hperiodic | hunlock
  · exact absurd hlock (around_not_mem (mutexLock_around cfg s).2 rfl)
  · cases htime
  · cases (checkS3_parts cfg _ _).2 _ hs3
  · have hkind := hscheduled.events _ hperiodic
    cases origin with
    | periodic => rfl
    | _ => cases hkind
  · exact absurd hunlock (around_not_mem (mutexUnlock_around cfg t).2 rfl)

theorem udsInit_closed (cfg : Config W) (b : Sys W) : Closed ((udsInit cfg).final b).ctx := by
  refine ⟨udsInit_pendingSid cfg b, ?_⟩
  rw [(udsInit_parts cfg b).1]
  split_ifs
  · rfl
  · rfl

theorem run_dispatches (hsync : Synchronous cfg) (ops : List (Op W)) (hops : ∀ op ∈ ops, op.Serves)
    (hclosed : Closed s.ctx) :
    dispatchesOf (trace (step cfg) s ops) = dispatchesIn ops := by
  induction ops generalizing s with
  | nil => rfl
  | cons op ops ih =>
    obtain ⟨hop, hops⟩ := List.forall_mem_cons.mp hops
    rw [trace_cons, dispatchesOf_append, step_dispatches hclosed, dispatchesIn_cons op ops,
      ih hops (hsync.step_closed hop hclosed)]

/-- In every run from `uds_init` of a stack that has no user services, whose `fn_tp_send` has no
positive result and that asks nothing itself: each message that is not empty is dispatched to the
services, once and in order, and nothing else is; no request is ever in progress between two calls;
and `uds_process` sends nothing but periodic messages. -/
theorem each_message_dispatched (cfg : Config W) (hsync : Synchronous cfg) (b : Sys W)
    (ops : List (Op W)) (hops : ∀ op ∈ ops, op.Serves) :
    let s := (udsInit cfg).final b
    let t := exec (step cfg) s ops
    dispatchesOf (trace (step cfg) s ops) = dispatchesIn ops ∧
      t.ctx.p2MsgPending = false ∧
      ∀ origin data ret, .tpSend origin data ret ∈ (step cfg t .process).2 → origin = .periodic := by
  intro s t
  have hs : Closed s.ctx := udsInit_closed cfg b
  have ht : Closed t.ctx := hsync.run_closed hops hs
  exact ⟨run_dispatches hsync ops hops hs, ht.idle, fun _ _ _ => process_periodic ht.idle⟩

theorem keepAlive_dispatched :
    dispatchesOf (trace (step plainConfig) (booted plainConfig) [.inputSdu (.bytes keepAlive), .process]) =
      [.dispatch [0x3E, 0x80]] :=
  (each_message_dispatched plainConfig ⟨rfl, fun _ _ _ => le_refl 0⟩ _
    [.inputSdu (.bytes keepAlive), .process] (by decide)).1

end UdsLib.Core
