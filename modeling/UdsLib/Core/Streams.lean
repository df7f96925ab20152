import UdsLib.Core.Callbacks
import UdsLib.Core.Registry
import UdsLib.Core.Serving

/-! The periodic messages behind a session timeout. The scheduler knows nothing of the session: it goes on
for every id that is registered, so the messages end with the session only if nothing is. -/
namespace UdsLib.Core
open Bytes Machine Prog Services

variable {W : Type} {cfg : Config W} {d : Sdu} {s t : Sys W} {es : List Event}

/-- What the scheduler produces: a call of `fn_periodic_read`, and a message. -/
def Event.isStream : Event → Bool
  | .call (.periodicRead _ _) _ => true
  | .tpSend .periodic _ _ => true
  | _ => false

/-- The message is a request to start periodic ids that is accepted. -/
def acceptsStart (cfg : Config W) (s : Sys W) (d : Sdu) : Bool :=
  (servedBy cfg s d).isSome && decide (d.byte 0 = sidReadByPerId ∧ StartsIds d) &&
    (refusedAt (periodicModeOf d) (periodicIdsOf d) s.ctx.slots).isNone

/-- Whether the session has timed out and no start was accepted since, behind a call. -/
def noteTimeout (cfg : Config W) (h : Bool) (s : Sys W) : Op W → Bool
  | .process => h || decide (s3Passed s.ctx (processTime cfg s))
  | .inputSdu (.bytes d) => h && !acceptsStart cfg s d
  | _ => h

/-- From the call on in which the session times out, the scheduler produces nothing. -/
def EndsStreams (cfg : Config W) (p : Sys W × Bool) (op : Op W) : Prop :=
  p.2 = true ∨ noteTimeout cfg p.2 p.1 op = true → ∀ e ∈ (step cfg p.1 op).2, e.isStream = false

/-- The condition for a call: no id is registered when the session times out, and a later start that is
refused has stored none. -/
structure NothingLeft (cfg : Config W) (p : Sys W × Bool) (op : Op W) : Prop where
  empty : op = .process → s3Passed p.1.ctx (processTime cfg p.1) → NoIds p.1.ctx
  whole : ∀ d r, op = .inputSdu (.bytes d) → p.2 = true → (servedBy cfg p.1 d).isSome = true →
    d.byte 0 = sidReadByPerId → StartsIds d →
      refusedAt (periodicModeOf d) (periodicIdsOf d) p.1.ctx.slots = some r → r.ids = p.1.ctx.slots.ids

/-! ### What a call produces -/

/-- The part of `uds_process` behind the S3 timer, without a registered id. -/
theorem answerInTime_serves (c : Ctx) (now : UInt32) (hempty : NoIds s.ctx) :
    Serves s ((answerInTime cfg c now).outputs s) t := by
  have hfinish (u : Sys W) (hu : NoIds u.ctx) : Serves u ((finishProcess cfg now).outputs u) t := by
    have hidle : (onlyIf (u.ctx.periodicCount > 0) (scheduleAll cfg now (List.finRange 8))).outputs u =
        [] := by
      rw [outputs_onlyIf, (scheduleAll_idle now _ hu).2, ite_self]
    unfold finishProcess
    rw [outputs_getCtx_bind, outputs_bind, hidle, List.nil_append]
    exact mutexUnlock_serves _
  have hnrc (nrc : UInt8) : Serves s ((sendNrc cfg c.pendingSid nrc).outputs s) t :=
    sendNrc_serves c.pendingSid nrc s
  unfold answerInTime
  split_ifs
  · rw [outputs_bind, outputs_setCtx, List.append_nil]
    exact hnrc nrcConditionsNotCorrect
  · have hout : Outside cfg noMessage s _ _ := sendNrc_outside c.pendingSid nrcResponsePending s
    rw [outputs_bind, outputs_bind, outputs_setCtx, List.nil_append]
    apply List.forall_mem_append.mpr ⟨hnrc nrcResponsePending, hfinish _ _⟩
    exact hempty.of_store hout.store
  · exact hfinish s hempty

theorem process_serves (hempty : NoIds s.ctx) : Serves s (step cfg s .process).2 t := by
  obtain ⟨-, pre, hpre, houtputs⟩ := udsProcess_parts cfg s
  have hticks : Serves s pre s := ticks_serve hpre
  have hempty' : NoIds (ticked cfg s).ctx := by
    rw [ticked_ctx]
    split_ifs
    · exact hempty
    · exact hempty
  have hrest : Serves (ticked cfg s)
      ((answerInTime cfg s.ctx (processTime cfg s)).outputs (ticked cfg s)) t :=
    answerInTime_serves s.ctx (processTime cfg s) hempty'
  have hlock : Keeps Serves (mutexLock cfg) := mutexLock_serves
  change ∀ e ∈ (udsProcess cfg).outputs s, _
  rw [houtputs]
  simp only [List.forall_mem_append]
  exact ⟨hlock s, hticks, hrest⟩

/-- Only the scheduler sends periodic messages, and only while an id is registered. -/
theorem step_no_message (op : Op W) (h : op ≠ .process ∨ NoIds s.ctx) (data : List UInt8) (ret : ℤ) :
    .tpSend .periodic data ret ∉ (step cfg s op).2 := by
  intro hmem
  have hserves {es : List Event} (hes : Serves s es s) : .tpSend .periodic data ret ∉ es :=
    fun he => absurd (hes _ he) Bool.false_ne_true
  cases op with
  | inputSdu buf =>
    rcases buf.empty_or_message with hnone | ⟨d, rfl, hne⟩
    · exact hserves (ignored_serves hnone) hmem
    · by_cases hans : s.ctx.p2MsgPending = false ∧ takesAsAnswer s.ctx d
      · have hanswer : ∀ e ∈ (takeAnswer cfg d).outputs (arrived cfg s),
            e ≠ .tpSend .periodic data ret := by
          rintro e he rfl
          rw [takeAnswer_outputs, runResponseCb_outputs] at he
          split at he
          · cases he
          · rcases List.mem_cons.mp he with heq | happ
            · cases heq
            · exact hserves (runApp_serves _ _) happ
        have hserving (e : Event) (he : e.isServing = true) : e ≠ .tpSend .periodic data ret := by
          rintro rfl
          exact absurd he Bool.false_ne_true
        exact (step_answered cfg hans.1 hans.2 hne).forall hserving hanswer _ hmem rfl
      · exact hserves (step_serves hans hne) hmem
  | process => exact hserves (process_serves (h.resolve_left fun hne => hne rfl)) hmem
  | clientRequest sid buf cb =>
    exact hserves (serves_composable.discard (clientRequest_serves sid buf cb) s) hmem
  | fill off bytes => cases hmem
  | sendResponse len => exact hserves (serves_composable.discard (sendResponse_serves len) s) hmem
  | sendNrc sid nrc => exact hserves (serves_composable.discard (sendNrc_serves sid nrc) s) hmem
  | elapse f => cases hmem

/-- Nor does anything else call `fn_periodic_read`. -/
theorem step_no_read (op : Op W) (h : op ≠ .process ∨ NoIds s.ctx) (id : UInt8) (len : UInt16) (ret : ℤ) :
    .call (.periodicRead id len) ret ∉ (step cfg s op).2 := by
  intro hmem
  have houtside {d : Sdu} {es : List Event} (hes : ∀ e ∈ es, Surround cfg d e) :
      .call (.periodicRead id len) ret ∉ es := by
    intro he
    rcases (hes _ he).2 with hlock | ⟨level, msg, hlog⟩ | ⟨sid, hsafe⟩
    · exact absurd hlock Bool.false_ne_true
    · cases hlog
    · cases hsafe
  cases step_footprint cfg s op with
  | outside hout => exact houtside hout.events hmem
  | process hop hstore hevents =>
    rcases hevents _ hmem with hsurround | ⟨⟨i, hi⟩, -⟩
    · exact houtside (List.forall_mem_singleton.mpr hsurround) (List.mem_singleton_self _)
    · exact hi (h.resolve_left (fun hne => hne hop) i)
  | handler d service pre mid post u v hop hruns hes hpre hpost =>
    rw [hes, List.mem_append, List.mem_append] at hmem
    rcases hmem with he | he | he
    · exact houtside hpre.events he
    · have hallowed : Allowed cfg d service.sid (.periodicRead id len) := hruns.work.events _ he
      rcases hallowed.service with hservice | hshared
      · cases hservice
      · exact absurd hshared Bool.false_ne_true
    · exact houtside hpost.events he

theorem step_streamless (op : Op W) (h : op ≠ .process ∨ NoIds s.ctx) :
    ∀ e ∈ (step cfg s op).2, e.isStream = false := by
  intro e he
  cases e with
  | call c ret =>
    cases c with
    | periodicRead id len => exact absurd he (step_no_read op h id len ret)
    | _ => rfl
  | tpSend origin data ret =>
    cases origin with
    | periodic => exact absurd he (step_no_message op h data ret)
    | _ => rfl
  | _ => rfl

/-! ### What a call leaves registered -/

theorem Slots.refused_startAll {mode : UInt8} {ids : List UInt8} {r r' : Slots}
    (h : refusedAt mode ids r = some r') : r.startAll mode ids = r' := by
  induction ids generalizing r with
  | nil => cases h
  | cons id ids ih =>
    rw [refusedAt] at h
    rw [Slots.startAll]
    split_ifs at h with hfull
    · rw [if_pos hfull]
      exact Option.some.inj h
    · rw [if_neg hfull]
      exact ih h

theorem Slots.stopAll_empty {r : Slots} (hr : ∀ j, r.ids j = 0) (ids : List UInt8) :
    ∀ j, (ids.foldl Slots.stop r).ids j = 0 := by
  induction ids generalizing r with
  | nil => exact hr
  | cons id ids ih =>
    apply ih
    intro j
    simp [Slots.stop, hr j]

/-- A served request for the periodic read leaves an empty registry empty, unless it is accepted or stores
ids before it is refused. -/
theorem request_empty {r : Slots} (hr : ∀ j, r.ids j = 0)
    (hstart : StartsIds d → ∃ r', refusedAt (periodicModeOf d) (periodicIdsOf d) r = some r' ∧
      r'.ids = r.ids) :
    ∀ j, (r.request (periodicModeOf d) (periodicIdsOf d)).ids j = 0 := by
  unfold Slots.request
  split_ifs with hstop hall hmode
  · exact fun _ => rfl
  · exact Slots.stopAll_empty hr (periodicIdsOf d)
  · exact hr
  · obtain ⟨hlow, hhigh⟩ := not_or.mp hmode
    obtain ⟨r', hrefused, hids⟩ := hstart ⟨UInt8.not_lt.mp hlow, UInt8.not_lt.mp hhigh⟩
    rw [Slots.refused_startAll hrefused, hids]
    exact hr

/-- Behind a session timeout no id is registered, as long as the condition holds. -/
theorem step_unregistered (p : Sys W × Bool) (op : Op W) (hp : p.2 = true → NoIds p.1.ctx)
    (hleft : NothingLeft cfg p op) (hnext : noteTimeout cfg p.2 p.1 op = true) :
    NoIds (step cfg p.1 op).1.ctx := by
  by_cases h : ∃ d, op = .inputSdu (.bytes d) ∧ (servedBy cfg p.1 d).isSome = true ∧
      d.byte 0 = sidReadByPerId
  · obtain ⟨d, rfl, hserved, hsid⟩ := h
    obtain ⟨htimeout, hnot⟩ := Bool.and_eq_true_iff.mp hnext
    have hempty : ∀ j, p.1.ctx.slots.ids j = 0 := hp htimeout
    change ∀ j, (step cfg p.1 (.inputSdu (.bytes d))).1.ctx.slots.ids j = 0
    rw [step_periodic hserved hsid]
    apply request_empty hempty
    intro hstarts
    cases hrefused : refusedAt (periodicModeOf d) (periodicIdsOf d) p.1.ctx.slots with
    | some r => exact ⟨r, rfl, hleft.whole d r rfl htimeout hserved hsid hstarts hrefused⟩
    | none =>
      have haccepts : acceptsStart cfg p.1 d = true := by
        simp [acceptsStart, hserved, hsid, hstarts, hrefused]
      rw [haccepts] at hnot
      exact absurd hnot Bool.false_ne_true
  · have hids := (step_registry op fun d hop hserved hsid => h ⟨d, hop, hserved, hsid⟩).1
    have hempty : NoIds p.1.ctx := by
      cases op with
      | process =>
        rcases Bool.or_eq_true_iff.mp hnext with htimeout | hpassed
        · exact hp htimeout
        · exact hleft.empty rfl (of_decide_eq_true hpassed)
      | inputSdu buf =>
        cases buf with
        | null len => exact hp hnext
        | bytes d => exact hp (Bool.and_eq_true_iff.mp hnext).1
      | _ => exact hp hnext
    intro j
    rw [hids]
    exact hempty j

theorem step_endsStreams (p : Sys W × Bool) (op : Op W) (hp : p.2 = true → NoIds p.1.ctx)
    (hleft : NothingLeft cfg p op) : EndsStreams cfg p op := by
  intro hover
  apply step_streamless
  by_cases hop : op = .process
  · right
    subst hop
    rcases hover with htimeout | hnext
    · exact hp htimeout
    · rcases Bool.or_eq_true_iff.mp hnext with htimeout | hpassed
      · exact hp htimeout
      · exact hleft.empty rfl (of_decide_eq_true hpassed)
  · exact .inl hop

/-- A session timeout ends the periodic messages. In every run from `uds_init` in which no id is registered
when the session times out, and no later start stores ids before it is refused, the scheduler produces
nothing from the timeout on until a start is accepted. -/
theorem timeout_ends_streams (cfg : Config W) (b : Sys W) (ops : List (Op W))
    (hrun : Along (recorded (step cfg) (noteTimeout cfg)) (NothingLeft cfg) ((udsInit cfg).final b, false)
      ops) :
    Along (recorded (step cfg) (noteTimeout cfg)) (EndsStreams cfg) ((udsInit cfg).final b, false) ops := by
  apply hrun.of_kept (I := fun p => p.2 = true → NoIds p.1.ctx)
  · exact fun p op hp hleft => step_unregistered p op hp hleft
  · exact fun p op hp hleft => step_endsStreams p op hp hleft
  · exact fun h => absurd h Bool.false_ne_true

/-- A clock that the application moves, and periodic data of two bytes. -/
def streamConfig : Config UInt32 :=
  { clockConfig with
    isSet := fun callback => callback = .fnPeriodicRead
    app := fun _ _ w => (⟨2, [0xAA, 0xBB]⟩, w) }

/-- The extended session is entered, and nothing is heard for 6000 ms. -/
def silence : List (Op UInt32) :=
  [.inputSdu (.bytes extendedSession), .elapse fun w => w + 6000]

theorem silence_ends_streams :
    Along (recorded (step streamConfig) (noteTimeout streamConfig)) (EndsStreams streamConfig)
      ((udsInit streamConfig).final powerOn, false) (silence ++ [.process, .process]) := by
  apply timeout_ends_streams
  have hnone (p : Sys UInt32 × Bool) (op : Op UInt32) (hop : op ≠ .process) (hp : p.2 = false) :
      NothingLeft streamConfig p op :=
    ⟨fun h => absurd h hop, fun _ _ _ htimeout => absurd (hp.symm.trans htimeout) Bool.false_ne_true⟩
  have hprocess (p : Sys UInt32 × Bool) (hempty : NoIds p.1.ctx) : NothingLeft streamConfig p .process :=
    ⟨fun _ _ => hempty, by simp⟩
  refine ⟨hnone _ _ (by simp) rfl, hnone _ _ (by simp) rfl, hprocess _ ?_, hprocess _ ?_, trivial⟩
  · decide
  · decide

/-- The id 0xE1 was started in the extended session. It is sent in the call in which the session times out,
and goes on in the default session. -/
theorem streams_outlive_session :
    let start := ((udsInit streamConfig).final powerOn, false)
    let ops := .inputSdu (.bytes extendedSession) :: .inputSdu (.bytes startE1) ::
      [.elapse fun w => w + 6000, .process, .elapse fun w => w + 100, .process]
    (exec (step streamConfig) start.1 ops).ctx.activeSession = sessionIdDefault ∧
      sentOf (trace (step streamConfig) start.1 ops) =
        [[0x50, 0x03, 0x00, 0x32, 0x01, 0xF4], [0x6A], [0xE1, 0xAA, 0xBB], [0xE1, 0xAA, 0xBB]] ∧
      ¬ Along (recorded (step streamConfig) (noteTimeout streamConfig)) (EndsStreams streamConfig) start
        ops := by
  intro start ops
  refine ⟨by decide, by decide, fun h => ?_⟩
  have hquiet := h.2.2.2.1 (.inr (by decide))
  exact absurd (hquiet (.tpSend .periodic [0xE1, 0xAA, 0xBB] 0) (by decide)) (by decide)

end UdsLib.Core
