import UdsLib.Core.Roles

/-! Responses and the requests they answer. The history of the two conversations counts the client
requests that the events show, and only for those are messages taken as responses, as long as
`pending_sid` is the client's. -/
namespace UdsLib.Core
open Bytes Machine Prog Services

variable {W : Type} {cfg : Config W} {d : Sdu} {s : Sys W}

/-! ### The history and the events -/

/-- The SID of a client request that came to its send, and what the send returned. -/
def Event.asked? : Event → Option (UInt8 × ℤ)
  | .tpSend .request (sid :: _) ret => some (sid, ret)
  | _ => none

/-- The client requests that the events show, in order. -/
def askedOf (es : List Event) : List (UInt8 × ℤ) := es.filterMap Event.asked?

/-- What the events show of a request. -/
def Request.shown (r : Request) : UInt8 × ℤ := (r.sid, r.ret)

/-- The client requests of a step. -/
def requestsIn (cfg : Config W) (s : Sys W) : Op W → List Request
  | .clientRequest sid data cb => requestOf cfg sid data cb s
  | op => nestedRequests cfg s op

theorem askedOf_append (es fs : List Event) : askedOf (es ++ fs) = askedOf es ++ askedOf fs :=
  List.filterMap_append ..

theorem askedOf_nil {es : List Event} (h : ∀ e ∈ es, e.asked? = none) : askedOf es = [] :=
  List.filterMap_eq_nil_iff.mpr h

theorem Worked.asked {t : Sys W} {es : List Event} (h : Worked s es t) : askedOf es = [] := by
  apply askedOf_nil
  intro e he
  have hwork := h.events e he
  cases e with
  | tpSend origin data ret =>
    cases origin with
    | request => exact absurd hwork Bool.false_ne_true
    | _ => rfl
  | _ => rfl

theorem around_asked {es : List Event} (h : es.all Event.isAround = true) : askedOf es = [] := by
  apply askedOf_nil
  exact around_forall h (fun _ => rfl) (fun _ => rfl) fun _ => rfl

theorem Gated.asked {t : Sys W} {es : List Event} (h : Gated s es t) : askedOf es = [] := by
  apply askedOf_nil
  exact h.forall fun _ _ _ => rfl

theorem Scheduled.asked {t : Sys W} {es : List Event} (h : Scheduled s es t) :
    askedOf es = [] := by
  apply askedOf_nil
  intro e he
  have hperiodic := h.events e he
  cases e with
  | tpSend origin data ret =>
    cases origin with
    | periodic => rfl
    | _ => exact absurd hperiodic Bool.false_ne_true
  | _ => rfl

theorem ticks_asked {es : List Event} (h : ∀ e ∈ es, e.isTick = true) : askedOf es = [] := by
  apply askedOf_nil
  intro e he
  have htick := h e he
  cases e with
  | tpSend origin data ret => exact absurd htick Bool.false_ne_true
  | _ => rfl

theorem faults_asked {es : List Event} (h : ∀ e ∈ es, ∃ f, e = .fault f) : askedOf es = [] := by
  apply askedOf_nil
  exact faults_forall h fun _ => rfl

theorem clientRequest_asked (sid : UInt8) (data : Buf) (cb : Option ℕ) (s : Sys W) :
    askedOf ((clientRequest cfg sid data cb).outputs s) =
      (requestOf cfg sid data cb s).map Request.shown := by
  have hwrite (off : ℕ) (bs : List UInt8) (s : Sys W) :
      askedOf ((writeTx cfg off bs).outputs s) = [] := faults_asked fun _ => writeTx_faults s
  have hbody : askedOf ((clientRequest cfg sid data cb).outputs s) =
      askedOf ((requestBody cfg sid data cb).outputs s) := by
    unfold clientRequest
    rw [outputs_bind, askedOf_append]
    exact List.append_nil _
  have hvalue : (clientRequest cfg sid data cb).value s = (requestBody cfg sid data cb).value s :=
    rfl
  unfold requestOf
  rw [hbody, hvalue]
  by_cases htakes : takesRequest cfg data
  · unfold requestBody
    rw [if_neg htakes.1, if_neg htakes.2, if_pos htakes]
    have hfirst (m : ℕ → UInt8) : blit (blit m 0 [sid]) 1 data.content 0 = sid := by
      rw [blit_outside _ _ _ _ (Or.inl (by omega))]
      exact blit_inside m 0 [sid] 0 (by simp)
    have hsent (n : ℕ) {u : Sys W} (hu : u.tx 0 = sid) :
        askedOf ((tpSend cfg .request (n + 1)).outputs u) =
          [(sid, (tpSend cfg .request (n + 1)).value u)] := by
      have hdata : slice u.tx 0 (n + 1) = sid :: slice u.tx 1 n := by
        rw [slice_succ, hu]
      exact congrArg (fun data => askedOf [.tpSend .request data _]) hdata
    simp only [outputs_bind, askedOf_append, hwrite, around_asked (mutexLock_around cfg _).2,
      around_asked (mutexUnlock_around cfg _).2, outputs_setCtx, outputs_pure,
      List.nil_append, List.append_nil]
    exact hsent _ (hfirst ((mutexLock cfg).final s).tx)
  · obtain ⟨ret, hrefused⟩ := requestBody_refused sid cb htakes
    rw [if_neg htakes, hrefused]
    rfl

theorem runApp_asked (p : AppProg W) (s : Sys W) :
    askedOf ((runApp cfg p).outputs s) = (requestsOf cfg p s).map Request.shown := by
  induction p generalizing s with
  | done res => rfl
  | look k ih => exact ih _ _ s
  | put w k ih => exact ih _
  | fill off bytes k ih => exact ih _
  | sendResponse len k ih =>
    unfold runApp requestsOf
    rw [outputs_bind, askedOf_append, (sendResponse_worked cfg len s).asked]
    exact ih _ _
  | sendNrc sid nrc k ih =>
    unfold runApp requestsOf
    rw [outputs_bind, askedOf_append, (sendNrc_worked cfg sid nrc s).asked]
    exact ih _ _
  | clientRequest sid data cb k ih =>
    unfold runApp requestsOf
    rw [outputs_bind, askedOf_append, clientRequest_asked, List.map_append, ih]

theorem Treats.asked {m : M W Unit} (h : Treats cfg s d m) :
    askedOf (step cfg s (.inputSdu (.bytes d))).2 = askedOf (m.outputs (arrived cfg s)) := by
  have htime : askedOf ((getTime cfg).outputs ((mutexLock cfg).final s)) = [] := rfl
  rw [h.outputs, askedOf_append, askedOf_append, askedOf_append, htime,
    around_asked (mutexLock_around cfg s).2, around_asked (mutexUnlock_around cfg _).2]
  exact List.append_nil _

theorem reject_asked (sid nrc : UInt8) (s : Sys W) :
    askedOf ((reject cfg sid nrc).outputs s) = [] := by
  rw [reject_outputs, (sendNrc_worked cfg sid nrc s).asked]

theorem takeAnswer_asked (cfg : Config W) (d : Sdu) (s : Sys W) :
    askedOf ((takeAnswer cfg d).outputs (arrived cfg s)) =
      (callbackRequests cfg d s).map Request.shown := by
  have hcb : (arrived cfg s).ctx.clientCb = s.ctx.clientCb := by rw [arrived_ctx]
  unfold callbackRequests
  rw [takeAnswer_outputs, runResponseCb_outputs, hcb]
  cases s.ctx.clientCb with
  | none => rfl
  | some cb => exact runApp_asked _ _

theorem handler_asked {service : Service W} (hfound : findService cfg (d.byte 0) = some service)
    (t : Sys W) : askedOf ((service.handler d).outputs t) =
      (match cfg.userServices.find? fun entry => entry.sid = d.byte 0 with
        | none => []
        | some entry => requestsOf cfg (entry.handler d) t : List Request).map Request.shown := by
  unfold findService at hfound
  split at hfound
  next entry hentry =>
    obtain rfl := Option.some.inj hfound
    rw [hentry]
    exact runApp_asked _ t
  next hnone =>
    have hpath := coreServices_path d service (List.mem_of_find?_eq_some hfound)
    rw [hnone]
    exact (hpath.worked t).asked

theorem executeHandler_asked (cfg : Config W) (service : Service W) (d : Sdu) (t : Sys W) :
    askedOf ((executeHandler cfg service d).outputs t) =
      askedOf ((service.handler d).outputs t) := by
  have hR : Composable (fun (_ : Sys W) (es : List Event) (_ : Sys W) => askedOf es = []) := by
    constructor
    · exact fun _ => rfl
    · intro _ es _ fs _ hes hfs
      rw [askedOf_append, hes, hfs]
      rfl
  have hsplit : ∃ after : List Event, (executeHandler cfg service d).outputs t =
      .handler service.sid :: ((service.handler d).outputs t ++ after) ∧ askedOf after = [] := by
    apply executeHandler_split hR
    · exact fun s => faults_asked fun _ => byteAt_faults s
    · exact fun sid s => (sendNrc_worked cfg sid _ s).asked
    · exact fun _ => rfl
    · exact fun _ => rfl
    · exact fun _ _ _ => rfl
  obtain ⟨after, hrun, hafter⟩ := hsplit
  have hentry (es : List Event) : askedOf (.handler service.sid :: es) = askedOf es := rfl
  rw [hrun, hentry, askedOf_append, hafter, List.append_nil]

theorem handleRequest_asked (hne : d.bytes ≠ []) (s : Sys W) :
    askedOf ((handleRequest cfg d).outputs (entered cfg s)) =
      (handlerRequests cfg d s).map Request.shown := by
  have hleads := handleRequest_leads cfg (entered cfg s) hne
  have hdispatch (es : List Event) : askedOf (.dispatch d.bytes :: es) = askedOf es := rfl
  unfold handlerRequests reached
  cases hfail : firstFailing cfg (entered cfg s) d with
  | none =>
    rw [hfail] at hleads
    obtain ⟨service, hfound, -, houtputs⟩ := hleads
    have hgate : Gated (entered cfg s) _ (atHandler cfg service d (entered cfg s)) :=
      safetyGate_gated _
    rw [houtputs, hfound, askedOf_append, hdispatch, hgate.asked, executeHandler_asked,
      handler_asked hfound]
    split
    next hentry => rw [hentry]; rfl
    next entry hentry => rw [hentry]; rfl
  | some check =>
    rw [hfail] at hleads
    obtain ⟨es, w, hgate, -, -, houtputs⟩ := hleads
    rw [houtputs, askedOf_append, hdispatch, hgate.asked, reject_asked]
    rfl

theorem finishProcess_asked (now : UInt32) (s : Sys W) :
    askedOf ((finishProcess cfg now).outputs s) = [] := by
  obtain ⟨es, t, hsched, -, houtputs⟩ := finishProcess_parts cfg now s
  rw [houtputs, askedOf_append, hsched.asked, around_asked (mutexUnlock_around cfg t).2]
  rfl

theorem udsProcess_asked (cfg : Config W) (s : Sys W) :
    askedOf ((udsProcess cfg).outputs s) = [] := by
  obtain ⟨-, pre, hpre, houtputs⟩ := udsProcess_parts cfg s
  have hnrc (sid nrc : UInt8) (u : Sys W) : askedOf ((sendNrc cfg sid nrc).outputs u) = [] :=
    (sendNrc_worked cfg sid nrc u).asked
  rw [houtputs, askedOf_append, askedOf_append, around_asked (mutexLock_around cfg s).2,
    ticks_asked hpre]
  unfold answerInTime
  split_ifs
  · rw [outputs_bind, askedOf_append, hnrc, outputs_setCtx]
    rfl
  · rw [outputs_bind, askedOf_append, hnrc, outputs_bind, outputs_setCtx, List.nil_append,
      List.nil_append]
    exact finishProcess_asked _ _
  · exact finishProcess_asked _ _

/-- The history counts the client requests that the events of a step show. -/
theorem step_asked (cfg : Config W) (s : Sys W) (op : Op W) :
    askedOf (step cfg s op).2 = (requestsIn cfg s op).map Request.shown := by
  cases op with
  | inputSdu data =>
    rcases data.empty_or_message with hnone | ⟨d, rfl, hne⟩
    · have hempty : requestsIn cfg s (.inputSdu data) = [] := by
        cases data with
        | null len => rfl
        | bytes d => exact if_pos (Or.inl (hnone d rfl))
      rw [hempty, (step_ignored cfg s hnone).2, askedOf_append,
        around_asked (mutexLock_around cfg s).2, around_asked (mutexUnlock_around cfg _).2]
      rfl
    · by_cases hp : s.ctx.p2MsgPending = true
      · have hempty : requestsIn cfg s (.inputSdu (.bytes d)) = [] := if_pos (Or.inr hp)
        rw [hempty, (step_busy cfg hp hne).asked]
        unfold busyAnswer
        split_ifs
        · rfl
        · exact reject_asked _ _ _
      · have hidle : s.ctx.p2MsgPending = false := Bool.eq_false_iff.mpr hp
        have harrival : requestsIn cfg s (.inputSdu (.bytes d)) =
            if takesAsAnswer s.ctx d then callbackRequests cfg d s else handlerRequests cfg d s :=
          if_neg (not_or.mpr ⟨hne, hp⟩)
        rw [harrival]
        by_cases hans : takesAsAnswer s.ctx d
        · rw [if_pos hans, (step_answered cfg hidle hans hne).asked, takeAnswer_asked]
        · rw [if_neg hans, (step_started cfg hidle hans hne).asked]
          exact handleRequest_asked hne s
  | process => exact udsProcess_asked cfg s
  | clientRequest sid data cb =>
    have houtputs : (step cfg s (.clientRequest sid data cb)).2 =
        (clientRequest cfg sid data cb).outputs s := List.append_nil _
    rw [houtputs]
    exact clientRequest_asked sid data cb s
  | fill off bytes => rfl
  | sendResponse len =>
    have houtputs : (step cfg s (.sendResponse len)).2 = (sendResponse cfg len).outputs s :=
      List.append_nil _
    rw [houtputs]
    exact (sendResponse_worked cfg len s).asked
  | sendNrc sid nrc => exact reject_asked sid nrc s
  | elapse f => rfl

theorem ask_unanswered {rs : List Request} {h : Roles} {r : Request}
    (hr : r ∈ (rs.foldl .ask h).unanswered) : r ∈ h.unanswered ∨ r.ret = udsOk ∧ r ∈ rs := by
  induction rs generalizing h with
  | nil => exact Or.inl hr
  | cons first rs ih =>
    rcases ih hr with hasked | ⟨hret, hlater⟩
    · by_cases hsent : first.ret = udsOk
      · have hhead : (h.ask first).unanswered = first :: h.unanswered := if_pos hsent
        rw [hhead] at hasked
        rcases List.mem_cons.mp hasked with rfl | hold
        · exact Or.inr ⟨hsent, List.mem_cons_self⟩
        · exact Or.inl hold
      · have hkept : (h.ask first).unanswered = h.unanswered := if_neg hsent
        exact Or.inl (hkept ▸ hasked)
    · exact Or.inr ⟨hret, List.mem_cons_of_mem _ hlater⟩

/-- A request that is unanswered behind a step was so before it, or the step sent it. -/
theorem note_unanswered {op : Op W} {h : Roles} {r : Request}
    (hr : r ∈ (note cfg h s op).unanswered) :
    r ∈ h.unanswered ∨ r.ret = udsOk ∧ r ∈ requestsIn cfg s op := by
  cases op with
  | inputSdu data =>
    cases data with
    | null len => exact Or.inl hr
    | bytes d =>
      by_cases hskip : d.bytes = [] ∨ s.ctx.p2MsgPending
      · have hkept : note cfg h s (.inputSdu (.bytes d)) = h := if_pos hskip
        exact Or.inl (hkept ▸ hr)
      · have harrival : note cfg h s (.inputSdu (.bytes d)) = noteArrival cfg h s d :=
          if_neg hskip
        have hrequests : requestsIn cfg s (.inputSdu (.bytes d)) =
            if takesAsAnswer s.ctx d then callbackRequests cfg d s else handlerRequests cfg d s :=
          if_neg hskip
        rw [harrival] at hr
        rw [hrequests]
        unfold noteArrival at hr
        by_cases hans : takesAsAnswer s.ctx d
        · rw [if_pos hans] at hr ⊢
          rcases ask_unanswered hr with hold | hsent
          · exact Or.inl (List.mem_of_mem_filter hold)
          · exact Or.inr hsent
        · rw [if_neg hans] at hr ⊢
          have hasked : r ∈ ((handlerRequests cfg d s).foldl .ask h).unanswered := by
            split_ifs at hr
            · exact hr
            · exact hr
          exact ask_unanswered hasked
  | clientRequest sid data cb => exact ask_unanswered hr
  | _ => exact Or.inl hr

/-- The unanswered requests of a history are requests that the events show, each sent with
`UDS_OK`. -/
def Shows (es : List Event) (h : Roles) : Prop :=
  ∀ r ∈ h.unanswered, r.ret = udsOk ∧ r.shown ∈ askedOf es

theorem step_shows {es : List Event} {h : Roles} (hs : Shows es h) (op : Op W) :
    Shows (es ++ (step cfg s op).2) (note cfg h s op) := by
  intro r hr
  rw [askedOf_append, step_asked]
  rcases note_unanswered hr with hold | ⟨hret, hnew⟩
  · obtain ⟨hret, hshown⟩ := hs r hold
    exact ⟨hret, List.mem_append_left _ hshown⟩
  · exact ⟨hret, List.mem_append_right _ (List.mem_map_of_mem hnew)⟩

/-- In every run the history counts among the unanswered requests only what the events show. -/
theorem run_shows (cfg : Config W) (s : Sys W) (ops : List (Op W)) :
    Shows (trace (stepRoles cfg) (s, .start) ops) (exec (stepRoles cfg) (s, .start) ops).2 := by
  have hstart : Shows [] Roles.start := fun r hr => absurd hr List.not_mem_nil
  have hstep (es : List Event) (p : Sys W × Roles) (op : Op W) (hp : Shows es p.2) (_ : True) :
      Shows (es ++ (stepRoles cfg p op).2) (stepRoles cfg p op).1.2 := step_shows hp op
  exact trace_invariant (H := fun es p => Shows es p.2) hstep hstart
    (Along.trivial (s, Roles.start) ops)

/-! ### Responses -/

/-- A message on an idle context is taken as a response only if the last writer of `pending_sid`
is a client request whose send succeeded, and if bit 6 of its SID is clear or the message is its
negative response. -/
def OwnSid (p : Sys W × Roles) : Op W → Prop
  | .inputSdu (.bytes d) => d.bytes ≠ [] → p.1.ctx.p2MsgPending = false →
      takesAsAnswer p.1.ctx d → ∃ sid, p.2.writer = .client sid udsOk ∧
        (sid &&& responseOffset = 0 ∨ IsNegative sid d)
  | _ => True

/-- A message on an idle context is dispatched, or it is the response to a client request that
was sent and is not answered. -/
def OnlyResponsesTaken (cfg : Config W) (p : Sys W × Roles) : Op W → Prop
  | .inputSdu (.bytes d) => d.bytes ≠ [] → p.1.ctx.p2MsgPending = false →
      .dispatch d.bytes ∈ (step cfg p.1 (.inputSdu (.bytes d))).2 ∨
        ∃ r ∈ p.2.unanswered, IsResponse r.sid d
  | _ => True

/-- The stack takes for a positive response what is one, unless bit 6 of the SID is set. -/
theorem answersRequest_iff {sid : UInt8} (hsid : sid &&& responseOffset = 0 ∨ IsNegative sid d) :
    answersRequest sid d = true ↔ IsResponse sid d := by
  unfold answersRequest IsResponse
  rw [decide_eq_true_eq]
  rcases hsid with hclear | hnegative
  · have hbits : sid.toBitVec &&& responseOffset.toBitVec = 0#8 := congrArg UInt8.toBitVec hclear
    have hadd : sid + responseOffset = sid ||| responseOffset :=
      UInt8.toBitVec_inj.mp (BitVec.add_eq_or_of_and_eq_zero _ _ hbits)
    rw [hadd]
    rfl
  · exact iff_of_true (Or.inr hnegative) (Or.inr hnegative)

theorem step_dispatch (hidle : s.ctx.p2MsgPending = false) (hans : ¬ takesAsAnswer s.ctx d)
    (hne : d.bytes ≠ []) : .dispatch d.bytes ∈ (step cfg s (.inputSdu (.bytes d))).2 := by
  obtain ⟨-, before, after, -, -, houtputs⟩ := step_dispatched cfg hidle hans hne
  have hfirst : .dispatch d.bytes ∈ (handleRequest cfg d).outputs (entered cfg s) :=
    List.mem_cons_self
  rw [houtputs]
  exact List.mem_append_right _ (List.mem_append_left _ hfirst)

theorem own_taken {p : Sys W × Roles} {op : Op W} (hp : Tracks p.1.ctx p.2) (hown : OwnSid p op) :
    OnlyResponsesTaken cfg p op := by
  unfold OnlyResponsesTaken
  split
  next d =>
    intro hne hidle
    by_cases hans : takesAsAnswer p.1.ctx d
    · right
      obtain ⟨sid, hwriter, hsid⟩ := hown hne hidle hans
      unfold Tracks at hp
      rw [hwriter] at hp
      obtain ⟨hpending, hlast⟩ := hp
      have hresponse : IsResponse sid d := (answersRequest_iff hsid).mp (hpending ▸ hans.2)
      exact ⟨_, List.mem_of_head? (hlast rfl), hresponse⟩
    · exact Or.inl (step_dispatch hidle hans hne)
  next => trivial

/-- Responses are taken for client requests only. In a run from `uds_init` in which every message
that is taken as a response finds `pending_sid` written last by a client request that was sent,
with bit 6 of its SID clear or the message its negative response, every message on an idle context
that is not dispatched is the response to a client request that was sent and is not answered. What
the history holds for such requests are requests that the events of the run show. -/
theorem only_responses_taken (cfg : Config W) (b : Sys W) (ops : List (Op W))
    (hrun : Along (stepRoles cfg) OwnSid ((udsInit cfg).final b, .start) ops) :
    Along (stepRoles cfg) (OnlyResponsesTaken cfg) ((udsInit cfg).final b, .start) ops ∧
      Shows (trace (stepRoles cfg) ((udsInit cfg).final b, .start) ops)
        (exec (stepRoles cfg) ((udsInit cfg).final b, .start) ops).2 := by
  constructor
  · apply hrun.of_invariant (I := fun p => Tracks p.1.ctx p.2)
    · intro p op hp
      exact step_tracks op hp
    · intro p op hp hown
      exact own_taken hp hown
    · exact udsInit_pendingSid cfg b
  · exact run_shows cfg _ ops

def vinResponse : Sdu := ⟨[0x62, 0xF1, 0x90], by decide⟩

/-- A slow request and its response, then a client request and its response, then a request. -/
def bothRoles : List (Op Unit) :=
  [.inputSdu (.bytes slowRequest), .fill 0 [0x71], .sendResponse 1,
    .clientRequest 0x22 (.bytes vinResponse) (some 0), .inputSdu (.bytes vinResponse),
    .inputSdu (.bytes otherRequest)]

theorem bothRoles_taken :
    let start := ((udsInit slowConfig).final ⟨Ctx.zero, fun _ => 0, fun _ => 0, ()⟩, Roles.start)
    Along (stepRoles slowConfig) (OnlyResponsesTaken slowConfig) start bothRoles ∧
      Shows (trace (stepRoles slowConfig) start bothRoles)
        (exec (stepRoles slowConfig) start bothRoles).2 := by
  apply only_responses_taken
  refine ⟨fun _ _ hans => absurd hans (by decide), trivial, trivial, trivial, ?_, ?_, trivial⟩
  · exact fun _ _ _ => ⟨0x22, by decide, Or.inl (by decide)⟩
  · exact fun _ _ hans => absurd hans (by decide)

/-- A user service `0x5A` that the application answers later. -/
def customConfig : Config Unit :=
  { plainConfig with
    userServices :=
      [{ sid := 0x5A, minLen := 1, sessionMask := 0xFF, securityMask := 0,
         handler := fun _ => .done udsPending, subMask := none }] }

def customRequest : Sdu := ⟨[0x5A, 0x01], by decide⟩

/-- A transport that is down. -/
def downConfig : Config Unit := { plainConfig with fnTpSend := fun _ _ w => (-1, w) }

/-- The request for a slow service `0x5A` is swallowed when it comes again after its response. So
is a response to a client request that could not be sent, and a request for the service `0x5A`
that crosses the client's own request for it. -/
theorem stale_sid_swallows :
    (¬ Along (stepRoles customConfig) (OnlyResponsesTaken customConfig) (booted customConfig, .start)
        [.inputSdu (.bytes customRequest), .fill 0 [0x9A, 0x01], .sendResponse 2,
          .inputSdu (.bytes customRequest)]) ∧
      (¬ Along (stepRoles downConfig) (OnlyResponsesTaken downConfig) (booted downConfig, .start)
        [.clientRequest 0x22 (.null 0) none, .inputSdu (.bytes vinResponse)]) ∧
      ¬ Along (stepRoles plainConfig) (OnlyResponsesTaken plainConfig) (booted plainConfig, .start)
        [.clientRequest 0x5A (.null 0) none, .inputSdu (.bytes customRequest)] := by
  refine ⟨fun h => ?_, fun h => ?_, fun h => ?_⟩
  · exact absurd (h.2.2.2.1 (by decide) (by decide)) (by decide)
  · exact absurd (h.2.1 (by decide) (by decide)) (by decide)
  · exact absurd (h.2.1 (by decide) (by decide)) (by decide)

end UdsLib.Core
