import UdsLib.Core.Pending
import UdsLib.Core.Persistence

/-! The two conversations of a context: the requests it answers as a server and those it makes as
a client. Both keep their SID in `pending_sid`; the history tells whose it is. -/
namespace UdsLib.Core
open Bytes Machine Prog Services

variable {W : Type} {cfg : Config W} {d : Sdu} {s : Sys W}

/-- A call of `uds_client_request` that came to its send, which returned `ret`. -/
structure Request where
  sid : UInt8
  callback : Option ℕ
  ret : ℤ
  deriving DecidableEq

/-- Who wrote `pending_sid` last. It is nobody's before the first write and once a response was
taken. -/
inductive Writer where
  | nobody
  | server
  | client (sid : UInt8) (ret : ℤ)
  deriving DecidableEq

/-- What the history of a context says about its two conversations: the last writer of
`pending_sid`, the SID of the last request whose handler returned `UDS_PENDING`, and the client
requests that were sent but not answered, the last one first. -/
structure Roles where
  writer : Writer
  server : UInt8
  unanswered : List Request
  deriving DecidableEq

/-- `uds_init` was called and nothing else. -/
def Roles.start : Roles := ⟨.nobody, 0, []⟩

/-- The message is the negative response to a request for `sid`. -/
def IsNegative (sid : UInt8) (d : Sdu) : Prop :=
  d.byte 0 = nrcServiceNotSuppInSess ∧ 2 ≤ d.bytes.length ∧ d.byte 1 = sid

instance (sid : UInt8) (d : Sdu) : Decidable (IsNegative sid d) :=
  inferInstanceAs (Decidable (_ ∧ _ ∧ _))

/-- The message is the positive or the negative response to a request for `sid`. -/
def IsResponse (sid : UInt8) (d : Sdu) : Prop :=
  d.byte 0 = sid + responseOffset ∨ IsNegative sid d

instance (sid : UInt8) (d : Sdu) : Decidable (IsResponse sid d) :=
  inferInstanceAs (Decidable (_ ∨ _))

/-- A client request came to its send. -/
def Roles.ask (h : Roles) (r : Request) : Roles :=
  { h with
    writer := .client r.sid r.ret
    unanswered := if r.ret = udsOk then r :: h.unanswered else h.unanswered }

/-- A message was taken as a response. -/
def Roles.answer (h : Roles) (d : Sdu) : Roles :=
  { h with writer := .nobody, unanswered := h.unanswered.filter fun r => ¬ IsResponse r.sid d }

/-- The handler of a request for `sid` returned `UDS_PENDING`. -/
def Roles.defer (h : Roles) (sid : UInt8) : Roles := { h with writer := .server, server := sid }

/-! ### The client requests of a step -/

/-- `uds_client_request` comes to its send with these arguments. -/
def takesRequest (cfg : Config W) (data : Buf) : Prop :=
  ¬ (data.len > 0 ∧ data.isNull) ∧ ¬ data.len.toNat + 1 > cfg.txBufferSize.toNat

instance (cfg : Config W) (data : Buf) : Decidable (takesRequest cfg data) :=
  inferInstanceAs (Decidable (_ ∧ _))

/-- The request of one call of `uds_client_request`. -/
def requestOf (cfg : Config W) (sid : UInt8) (data : Buf) (cb : Option ℕ) (s : Sys W) :
    List Request :=
  if takesRequest cfg data then [⟨sid, cb, (clientRequest cfg sid data cb).value s⟩] else []

/-- The requests that application code makes. -/
def requestsOf (cfg : Config W) : AppProg W → Sys W → List Request
  | .done _, _ => []
  | .look k, s => requestsOf cfg (k s.ctx s.world) s
  | .put w k, s => requestsOf cfg k { s with world := w }
  | .fill off bytes k, s => requestsOf cfg k { s with tx := blit s.tx off bytes }
  | .sendResponse len k, s =>
    requestsOf cfg (k ((sendResponse cfg len).value s)) ((sendResponse cfg len).final s)
  | .sendNrc sid nrc k, s =>
    requestsOf cfg (k ((sendNrc cfg sid nrc).value s)) ((sendNrc cfg sid nrc).final s)
  | .clientRequest sid data cb k, s =>
    let request := clientRequest cfg sid data cb
    requestOf cfg sid data cb s ++ requestsOf cfg (k (request.value s)) (request.final s)

/-- The requests of the callback that a response is handed to. -/
def callbackRequests (cfg : Config W) (d : Sdu) (s : Sys W) : List Request :=
  match s.ctx.clientCb with
  | none => []
  | some cb =>
    requestsOf cfg (cfg.responseCb cb (d.byte 0) (d.slice 1 (d.bytes.length - 1))) (arrived cfg s)

/-- The service whose handler a message reaches that is dispatched. -/
def reached (cfg : Config W) (d : Sdu) (s : Sys W) : Option (Service W) :=
  match firstFailing cfg (entered cfg s) d with
  | none => findService cfg (d.byte 0)
  | some _ => none

/-- The requests of the handler that a message reaches: a user service may make some. -/
def handlerRequests (cfg : Config W) (d : Sdu) (s : Sys W) : List Request :=
  match reached cfg d s, cfg.userServices.find? fun entry => entry.sid = d.byte 0 with
  | some service, some entry =>
    requestsOf cfg (entry.handler d) (atHandler cfg service d (entered cfg s))
  | _, _ => []

/-- The requests that a handler of the application or a client callback makes in this call, while the
stack holds the mutex. -/
def nestedRequests (cfg : Config W) (s : Sys W) : Op W → List Request
  | .inputSdu (.bytes d) =>
    if d.bytes = [] ∨ s.ctx.p2MsgPending then []
    else if takesAsAnswer s.ctx d then callbackRequests cfg d s
    else handlerRequests cfg d s
  | _ => []

/-- The handler that a message reaches returns `UDS_PENDING`. -/
def defers (cfg : Config W) (d : Sdu) (s : Sys W) : Bool :=
  (reached cfg d s).any fun service =>
    (service.handler d).value (atHandler cfg service d (entered cfg s)) = udsPending

/-- The history behind the arrival of a message that is not empty on an idle context. -/
def noteArrival (cfg : Config W) (h : Roles) (s : Sys W) (d : Sdu) : Roles :=
  if takesAsAnswer s.ctx d then
    { (callbackRequests cfg d s).foldl .ask (h.answer d) with writer := .nobody }
  else
    let asked := (handlerRequests cfg d s).foldl .ask h
    if defers cfg d s then asked.defer (d.byte 0) else asked

/-- The history behind a step. -/
def note (cfg : Config W) (h : Roles) (s : Sys W) : Op W → Roles
  | .inputSdu (.bytes d) =>
    if d.bytes = [] ∨ s.ctx.p2MsgPending then h else noteArrival cfg h s d
  | .clientRequest sid data cb => (requestOf cfg sid data cb s).foldl .ask h
  | _ => h

/-- The stack with its history. -/
abbrev stepRoles (cfg : Config W) : Sys W × Roles → Op W → (Sys W × Roles) × List Event :=
  recorded (step cfg) (note cfg)

/-- `pending_sid` holds what its last writer put there, and the callback is that of the last
request. -/
def Tracks (c : Ctx) (h : Roles) : Prop :=
  match h.writer with
  | .nobody => c.pendingSid = 0
  | .server => c.pendingSid = h.server
  | .client sid ret => c.pendingSid = sid ∧
      (ret = udsOk → h.unanswered.head? = some ⟨sid, c.clientCb, ret⟩)

theorem Tracks.same {c c' : Ctx} {h : Roles} (hc : Tracks c h)
    (hsid : c'.pendingSid = c.pendingSid) (hcb : c'.clientCb = c.clientCb) : Tracks c' h := by
  unfold Tracks at *
  rw [hsid, hcb]
  exact hc

theorem Worked.tracks {t : Sys W} {es : List Event} {h : Roles} (hw : Worked s es t)
    (hs : Tracks s.ctx h) : Tracks t.ctx h :=
  hs.same hw.sid hw.callback

theorem tracks_ask {c : Ctx} (h : Roles) (r : Request) (hsid : c.pendingSid = r.sid)
    (hcb : c.clientCb = r.callback) : Tracks c (h.ask r) := by
  refine ⟨hsid, fun hret => ?_⟩
  have hhead : (h.ask r).unanswered = r :: h.unanswered := if_pos hret
  rw [hhead, hcb]
  rfl

/-! ### The steps -/

/-- A request that is refused does nothing. -/
theorem requestBody_refused (sid : UInt8) {data : Buf} (cb : Option ℕ) (h : ¬ takesRequest cfg data) :
    ∃ ret, requestBody cfg sid data cb = pure ret := by
  unfold requestBody
  by_cases hnull : data.len > 0 ∧ data.isNull
  · rw [if_pos hnull]
    exact ⟨_, rfl⟩
  · have hlong : data.len.toNat + 1 > cfg.txBufferSize.toNat := by
      by_contra hfits
      exact h ⟨hnull, hfits⟩
    rw [if_neg hnull, if_pos hlong]
    exact ⟨_, rfl⟩

theorem clientRequest_ctx (cfg : Config W) (sid : UInt8) (data : Buf) (cb : Option ℕ)
    (s : Sys W) : ((clientRequest cfg sid data cb).final s).ctx =
      if takesRequest cfg data then { s.ctx with pendingSid := sid, clientCb := cb } else s.ctx := by
  have hbody : (clientRequest cfg sid data cb).final s = (requestBody cfg sid data cb).final s := rfl
  rw [hbody]
  by_cases htakes : takesRequest cfg data
  · have hlock := mutexLock_ctx cfg s
    unfold requestBody
    rw [if_neg htakes.1, if_neg htakes.2, if_pos htakes]
    simp only [final_bind, final_pure, mutexUnlock_ctx]
    exact congrArg (fun c : Ctx => { c with pendingSid := sid, clientCb := cb }) hlock
  · obtain ⟨ret, hrefused⟩ := requestBody_refused sid cb htakes
    rw [if_neg htakes, hrefused]
    rfl

theorem clientRequest_tracks (sid : UInt8) (data : Buf) (cb : Option ℕ) {h : Roles}
    (hs : Tracks s.ctx h) : Tracks ((clientRequest cfg sid data cb).final s).ctx
      ((requestOf cfg sid data cb s).foldl .ask h) := by
  rw [clientRequest_ctx]
  unfold requestOf
  split_ifs
  · exact tracks_ask h _ rfl rfl
  · exact hs

theorem runApp_tracks (p : AppProg W) {h : Roles} (hs : Tracks s.ctx h) :
    Tracks ((runApp cfg p).final s).ctx ((requestsOf cfg p s).foldl .ask h) := by
  induction p generalizing s h with
  | done res => exact hs
  | look k ih => exact ih _ _ hs
  | put w k ih => exact ih hs
  | fill off bytes k ih => exact ih hs
  | sendResponse len k ih => exact ih _ ((sendResponse_worked cfg len s).tracks hs)
  | sendNrc sid nrc k ih => exact ih _ ((sendNrc_worked cfg sid nrc s).tracks hs)
  | clientRequest sid data cb k ih =>
    unfold requestsOf
    rw [List.foldl_append]
    exact ih _ (clientRequest_tracks sid data cb hs)

theorem Gated.tracks {t : Sys W} {es : List Event} {h : Roles} (hgate : Gated s es t)
    (hs : Tracks s.ctx h) : Tracks t.ctx h := by
  rw [hgate.1]
  exact hs.same rfl rfl

theorem entered_tracks {h : Roles} (hs : Tracks s.ctx h) : Tracks (entered cfg s).ctx h := by
  rw [entered_ctx]
  exact hs.same rfl rfl

/-- A handler of the stack makes no client request, and one of the application those of its
code. -/
theorem handler_tracks {service : Service W} (hfound : findService cfg (d.byte 0) = some service)
    {t : Sys W} {h : Roles} (ht : Tracks t.ctx h) :
    Tracks ((service.handler d).final t).ctx
      (match cfg.userServices.find? fun entry => entry.sid = d.byte 0 with
      | none => h
      | some entry => (requestsOf cfg (entry.handler d) t).foldl .ask h) := by
  unfold findService at hfound
  split at hfound
  next entry hentry =>
    obtain rfl := Option.some.inj hfound
    rw [hentry]
    exact runApp_tracks _ ht
  next hnone =>
    have hpath := coreServices_path d service (List.mem_of_find?_eq_some hfound)
    rw [hnone]
    exact (hpath.worked t).tracks ht

theorem executeHandler_tracks (cfg : Config W) {service : Service W} {t : Sys W} {h : Roles}
    (ht : Tracks ((service.handler d).final t).ctx h) :
    Tracks ((executeHandler cfg service d).final t).ctx
      (if (service.handler d).value t = udsPending then h.defer (d.byte 0) else h) := by
  unfold executeHandler
  rw [final_bind, final_bind, final_onlyIf, final_emit]
  split_ifs
  · rfl
  · exact ht

/-- A message that is dispatched changes `pending_sid` through the requests of its handler, and
if that returns `UDS_PENDING`. -/
theorem handleRequest_tracks (hne : d.bytes ≠ []) {h : Roles} (hs : Tracks s.ctx h) :
    let asked := (handlerRequests cfg d s).foldl .ask h
    Tracks ((handleRequest cfg d).final (entered cfg s)).ctx
      (if defers cfg d s then asked.defer (d.byte 0) else asked) := by
  have hentered : Tracks (entered cfg s).ctx h := entered_tracks hs
  have hleads := handleRequest_leads cfg (entered cfg s) hne
  unfold handlerRequests defers reached
  cases hfail : firstFailing cfg (entered cfg s) d with
  | none =>
    rw [hfail] at hleads
    obtain ⟨service, hfound, hfinal, -⟩ := hleads
    have hgate : Gated (entered cfg s) _ (atHandler cfg service d (entered cfg s)) :=
      safetyGate_gated _
    have hhandler := handler_tracks hfound (hgate.tracks hentered)
    have hrun := executeHandler_tracks cfg hhandler
    rw [hfinal, hfound]
    simp only [Option.any_some, decide_eq_true_eq]
    split at hrun
    next hasync =>
      rw [if_pos hasync]
      split at hrun
      next hentry =>
        rw [hentry]
        exact hrun
      next entry hentry =>
        rw [hentry]
        exact hrun
    next hasync =>
      rw [if_neg hasync]
      split at hrun
      next hentry =>
        rw [hentry]
        exact hrun
      next entry hentry =>
        rw [hentry]
        exact hrun
  | some check =>
    rw [hfail] at hleads
    obtain ⟨es, w, hgate, -, hfinal, -⟩ := hleads
    rw [hfinal]
    exact (sendNrc_worked cfg _ _ w).tracks (hgate.tracks hentered)

theorem runResponseCb_outputs (cfg : Config W) (d : Sdu) (s : Sys W) :
    (runResponseCb cfg d).outputs s =
      match s.ctx.clientCb with
      | none => []
      | some cb =>
        let data := d.slice 1 (d.bytes.length - 1)
        .responseCb cb (d.byte 0) data ::
          (runApp cfg (cfg.responseCb cb (d.byte 0) data)).outputs s := by
  unfold runResponseCb
  rw [outputs_getCtx_bind]
  cases s.ctx.clientCb with
  | none => rfl
  | some cb => exact congrArg (List.cons _) (List.append_nil _)

/-- What arrives on an idle context. -/
theorem arrival_tracks (hidle : s.ctx.p2MsgPending = false) (hne : d.bytes ≠ []) {h : Roles}
    (hs : Tracks s.ctx h) :
    Tracks (step cfg s (.inputSdu (.bytes d))).1.ctx (noteArrival cfg h s d) := by
  unfold noteArrival
  by_cases hans : takesAsAnswer s.ctx d
  · rw [if_pos hans, (step_answered cfg hidle hans hne).final, mutexUnlock_ctx]
    rfl
  · rw [if_neg hans, (step_started cfg hidle hans hne).final, mutexUnlock_ctx]
    exact handleRequest_tracks hne hs

theorem busyAnswer_tracks {h : Roles} (hs : Tracks s.ctx h) :
    Tracks ((busyAnswer cfg d).final s).ctx h := by
  unfold busyAnswer
  split_ifs
  · exact hs
  · exact (sendNrc_worked cfg _ _ s).tracks hs

theorem arrived_tracks {h : Roles} (hs : Tracks s.ctx h) : Tracks (arrived cfg s).ctx h := by
  rw [arrived_ctx]
  exact hs.same rfl rfl

theorem finishProcess_tracks (now : UInt32) {h : Roles} (hs : Tracks s.ctx h) :
    Tracks ((finishProcess cfg now).final s).ctx h := by
  obtain ⟨es, t, hsched, hfinal, -⟩ := finishProcess_parts cfg now s
  rw [hfinal, mutexUnlock_ctx, hsched.ctx]
  exact hs.same rfl rfl

theorem udsProcess_tracks (cfg : Config W) {h : Roles} (hs : Tracks s.ctx h) :
    Tracks ((udsProcess cfg).final s).ctx h := by
  have hticked : Tracks (ticked cfg s).ctx h := by
    rw [ticked_ctx]
    split_ifs
    · exact hs.same rfl rfl
    · exact hs
  have hnrc (sid nrc : UInt8) :
      Tracks ((sendNrc cfg sid nrc).final (ticked cfg s)).ctx h :=
    (sendNrc_worked cfg sid nrc _).tracks hticked
  rw [(udsProcess_parts cfg s).1]
  unfold answerInTime
  split_ifs
  · rw [final_bind, final_setCtx]
    exact (hnrc _ _).same rfl rfl
  · rw [final_bind, final_bind, final_setCtx]
    apply finishProcess_tracks
    exact (hnrc _ _).same rfl rfl
  · exact finishProcess_tracks _ hticked

/-- The history of a context tells whose SID it holds, whatever is called. -/
theorem step_tracks (op : Op W) {h : Roles} (hs : Tracks s.ctx h) :
    Tracks (step cfg s op).1.ctx (note cfg h s op) := by
  cases op with
  | inputSdu data =>
    rcases data.empty_or_message with hnone | ⟨d, rfl, hne⟩
    · have hkept : note cfg h s (.inputSdu data) = h := by
        cases data with
        | null len => rfl
        | bytes d => exact if_pos (Or.inl (hnone d rfl))
      rw [hkept, (step_ignored cfg s hnone).1, mutexUnlock_ctx, mutexLock_ctx]
      exact hs
    · by_cases hp : s.ctx.p2MsgPending = true
      · have hkept : note cfg h s (.inputSdu (.bytes d)) = h := if_pos (Or.inr hp)
        rw [hkept, (step_busy cfg hp hne).final, mutexUnlock_ctx]
        exact busyAnswer_tracks (arrived_tracks hs)
      · have harrival : note cfg h s (.inputSdu (.bytes d)) = noteArrival cfg h s d :=
          if_neg (not_or.mpr ⟨hne, hp⟩)
        rw [harrival]
        exact arrival_tracks (Bool.eq_false_iff.mpr hp) hne hs
  | process => exact udsProcess_tracks cfg hs
  | clientRequest sid data cb => exact clientRequest_tracks sid data cb hs
  | fill off bytes => exact hs
  | sendResponse len => exact (sendResponse_worked cfg len s).tracks hs
  | sendNrc sid nrc => exact (sendNrc_worked cfg sid nrc s).tracks hs
  | elapse f => exact hs

theorem udsInit_pendingSid (cfg : Config W) (b : Sys W) :
    ((udsInit cfg).final b).ctx.pendingSid = 0 := by
  rw [(udsInit_parts cfg b).1]
  split_ifs
  · rfl
  · rfl

end UdsLib.Core
