import UdsLib.Core.Roles

/-! The mutex around the public calls. Each call that takes it gives it back, except
`uds_process` at the response-pending limit; a request that the application makes while the stack
holds the mutex takes it once more in between. -/
namespace UdsLib.Core
open Bytes Machine Prog Services

variable {W : Type} {cfg : Config W} {d : Sdu} {s t : Sys W} {es fs : List Event}

/-- The call of a mutex callback. -/
def Event.lock? : Event → Option Call
  | .call .mutexLock _ => some .mutexLock
  | .call .mutexUnlock _ => some .mutexUnlock
  | _ => none

/-- The calls of the mutex callbacks, in order. -/
def locksOf (es : List Event) : List Call := es.filterMap Event.lock?

/-- Lock and unlock take turns, and the mutex is free at the end. -/
inductive Alternating : List Call → Prop where
  | nil : Alternating []
  | pair {calls : List Call} (h : Alternating calls) :
      Alternating (.mutexLock :: .mutexUnlock :: calls)

/-- A call that takes the mutex gives it back once. -/
def Releases (cfg : Config W) (s : Sys W) (op : Op W) : Prop :=
  let calls := locksOf (step cfg s op).2
  calls = [] ∨ calls = [.mutexLock, .mutexUnlock]

/-- The call reaches the response-pending limit. -/
def HitsLimit (cfg : Config W) (s : Sys W) : Op W → Prop
  | .process => limitHit cfg s = true
  | _ => False

/-- The call does not reach the limit, and the application makes no request inside it. -/
def Disciplined (cfg : Config W) (s : Sys W) (op : Op W) : Prop :=
  ¬ HitsLimit cfg s op ∧ nestedRequests cfg s op = []

/-- Both callbacks are there. -/
structure MutexUse (cfg : Config W) : Prop where
  lock : cfg.isSet .fnMutexLock = true
  unlock : cfg.isSet .fnMutexUnlock = true

/-- The calls of the mutex around each of these requests. -/
def locksAround (requests : List Request) : List Call :=
  requests.flatMap fun _ => [.mutexLock, .mutexUnlock]

/-- The mutex is not touched. -/
def LockFree (_ : Sys W) (es : List Event) (_ : Sys W) : Prop := locksOf es = []

theorem locksOf_append (es fs : List Event) : locksOf (es ++ fs) = locksOf es ++ locksOf fs :=
  List.filterMap_append ..

theorem lockFree_composable : Composable (LockFree (W := W)) where
  refl _ := rfl
  trans h hnext := by
    unfold LockFree at *
    rw [locksOf_append, h, hnext]
    rfl

theorem lockFree_of_forall (h : ∀ e ∈ es, e.lock? = none) : LockFree s es t :=
  List.filterMap_eq_nil_iff.mpr h

theorem Worked.lockFree (h : Worked s es t) : LockFree s es t := by
  apply lockFree_of_forall
  intro e he
  have hwork := h.events e he
  cases e with
  | call c ret =>
    cases c with
    | mutexLock => exact absurd hwork Bool.false_ne_true
    | mutexUnlock => exact absurd hwork Bool.false_ne_true
    | _ => rfl
  | _ => rfl

theorem Scheduled.lockFree (h : Scheduled s es t) : LockFree s es t := by
  apply lockFree_of_forall
  intro e he
  have hperiodic := h.events e he
  cases e with
  | call c ret =>
    cases c with
    | periodicRead id len => rfl
    | _ => exact absurd hperiodic Bool.false_ne_true
  | _ => rfl

theorem ticks_lockFree (h : ∀ e ∈ es, e.isTick = true) : LockFree s es t := by
  apply lockFree_of_forall
  intro e he
  have htick := h e he
  cases e with
  | call c ret =>
    cases c with
    | log level msg => rfl
    | _ => exact absurd htick Bool.false_ne_true
  | _ => rfl

theorem Gated.lockFree (h : Gated s es t) : LockFree s es t := by
  apply lockFree_of_forall
  exact h.forall fun _ _ _ => rfl

theorem faults_lockFree (h : ∀ e ∈ es, ∃ f, e = .fault f) : LockFree s es t := by
  apply lockFree_of_forall
  exact faults_forall h fun _ => rfl

theorem sendNrc_lockFree (sid nrc : UInt8) : Keeps LockFree (sendNrc cfg sid nrc) :=
  fun s => (sendNrc_worked cfg sid nrc s).lockFree

theorem reject_lockFree (sid nrc : UInt8) : Keeps LockFree (reject cfg sid nrc) :=
  lockFree_composable.discard (sendNrc_lockFree sid nrc)

/-! ### The mutex -/

theorem mutexLock_locks (huse : MutexUse cfg) (s : Sys W) :
    locksOf ((mutexLock cfg).outputs s) = [.mutexLock] := by
  unfold mutexLock
  rw [outputs_onlyIf, if_pos huse.lock]
  rfl

theorem mutexUnlock_locks (huse : MutexUse cfg) (s : Sys W) :
    locksOf ((mutexUnlock cfg).outputs s) = [.mutexUnlock] := by
  unfold mutexUnlock
  rw [outputs_onlyIf, if_pos huse.unlock]
  rfl

/-! ### Application code -/

theorem locksAround_append (rs qs : List Request) :
    locksAround (rs ++ qs) = locksAround rs ++ locksAround qs :=
  List.flatMap_append

theorem clientRequest_locks (huse : MutexUse cfg) (sid : UInt8) (data : Buf) (cb : Option ℕ)
    (s : Sys W) : locksOf ((clientRequest cfg sid data cb).outputs s) =
      locksAround (requestOf cfg sid data cb s) := by
  have hbody : locksOf ((clientRequest cfg sid data cb).outputs s) =
      locksOf ((requestBody cfg sid data cb).outputs s) := by
    unfold clientRequest
    rw [outputs_bind, locksOf_append]
    exact List.append_nil _
  have hwrite (off : ℕ) (bs : List UInt8) (s : Sys W) :
      locksOf ((writeTx cfg off bs).outputs s) = [] :=
    faults_lockFree (s := s) (t := s) fun _ => writeTx_faults s
  rw [hbody]
  unfold requestOf
  by_cases htakes : takesRequest cfg data
  · rw [if_pos htakes]
    unfold requestBody
    rw [if_neg htakes.1, if_neg htakes.2]
    simp only [outputs_bind, locksOf_append, mutexLock_locks huse, mutexUnlock_locks huse, hwrite]
    rfl
  · obtain ⟨ret, hrefused⟩ := requestBody_refused sid cb htakes
    rw [if_neg htakes, hrefused]
    rfl

/-- Application code touches the mutex through its requests only. -/
theorem runApp_locks (huse : MutexUse cfg) (p : AppProg W) (s : Sys W) :
    locksOf ((runApp cfg p).outputs s) = locksAround (requestsOf cfg p s) := by
  induction p generalizing s with
  | done res => rfl
  | look k ih => exact ih _ _ _
  | put w k ih => exact ih _
  | fill off bytes k ih => exact ih _
  | sendResponse len k ih =>
    have hsend : locksOf ((sendResponse cfg len).outputs s) = [] :=
      (sendResponse_worked cfg len s).lockFree
    unfold runApp
    rw [outputs_bind, locksOf_append, hsend, ih]
    rfl
  | sendNrc sid nrc k ih =>
    have hsend : locksOf ((sendNrc cfg sid nrc).outputs s) = [] := sendNrc_lockFree _ _ s
    unfold runApp
    rw [outputs_bind, locksOf_append, hsend, ih]
    rfl
  | clientRequest sid data cb k ih =>
    unfold runApp requestsOf
    rw [outputs_bind, locksOf_append, clientRequest_locks huse, ih, locksAround_append]

/-! ### The treatment of a message -/

/-- A handler of the stack does not touch the mutex, and one of the application through the requests of
its code. -/
theorem handler_locks (huse : MutexUse cfg) {service : Service W}
    (hfound : findService cfg (d.byte 0) = some service) (t : Sys W) :
    locksOf ((service.handler d).outputs t) =
      locksAround (match cfg.userServices.find? fun entry => entry.sid = d.byte 0 with
        | none => []
        | some entry => requestsOf cfg (entry.handler d) t) := by
  unfold findService at hfound
  split at hfound
  next entry hentry =>
    obtain rfl := Option.some.inj hfound
    rw [hentry]
    exact runApp_locks huse _ t
  next hnone =>
    have hpath := coreServices_path d service (List.mem_of_find?_eq_some hfound)
    rw [hnone]
    exact (hpath.worked t).lockFree

/-- Around the handler nothing touches the mutex. -/
theorem executeHandler_locks (cfg : Config W) (service : Service W) (t : Sys W) :
    locksOf ((executeHandler cfg service d).outputs t) = locksOf ((service.handler d).outputs t) := by
  have hbyte (u : Sys W) : locksOf ((byteAt d 0).outputs u) = [] :=
    faults_lockFree (s := u) (t := u) fun _ => byteAt_faults u
  have hnrc (sid nrc : UInt8) (u : Sys W) : locksOf ((sendNrc cfg sid nrc).outputs u) = [] :=
    sendNrc_lockFree sid nrc u
  unfold executeHandler
  rw [outputs_bind, outputs_bind, outputs_onlyIf, locksOf_append, locksOf_append]
  split_ifs
  · simp only [outputs_bind, locksOf_append, hbyte, hnrc]
    exact List.append_nil _
  · exact List.append_nil _

theorem handleRequest_locks (huse : MutexUse cfg) (hne : d.bytes ≠ []) (s : Sys W) :
    locksOf ((handleRequest cfg d).outputs (entered cfg s)) = locksAround (handlerRequests cfg d s) := by
  have hleads := handleRequest_leads cfg (entered cfg s) hne
  unfold handlerRequests reached
  cases hfail : firstFailing cfg (entered cfg s) d with
  | none =>
    rw [hfail] at hleads
    obtain ⟨service, hfound, -, houtputs⟩ := hleads
    have hgate : Gated (entered cfg s)
        ((safetyGate cfg (d.byte 0) d).outputs (flagged service d (entered cfg s)))
        (atHandler cfg service d (entered cfg s)) := safetyGate_gated _
    have hfree : locksOf (.dispatch d.bytes ::
        (safetyGate cfg (d.byte 0) d).outputs (flagged service d (entered cfg s))) = [] :=
      hgate.lockFree
    rw [houtputs, locksOf_append, hfree, executeHandler_locks, handler_locks huse hfound, hfound]
    cases cfg.userServices.find? fun entry => entry.sid = d.byte 0 with
    | none => rfl
    | some entry => rfl
  | some check =>
    rw [hfail] at hleads
    obtain ⟨es, w, hgated, -, -, houtputs⟩ := hleads
    have hfree : locksOf (.dispatch d.bytes :: es) = [] := hgated.lockFree
    rw [houtputs, locksOf_append, hfree, reject_lockFree _ _ w]
    rfl

theorem takeAnswer_locks (huse : MutexUse cfg) (d : Sdu) (s : Sys W) :
    locksOf ((takeAnswer cfg d).outputs (arrived cfg s)) = locksAround (callbackRequests cfg d s) := by
  have hcb : (arrived cfg s).ctx.clientCb = s.ctx.clientCb := by rw [arrived_ctx]
  rw [takeAnswer_outputs, runResponseCb_outputs, hcb]
  unfold callbackRequests
  cases s.ctx.clientCb with
  | none => rfl
  | some cb => exact runApp_locks huse _ _

theorem treatment_locks (huse : MutexUse cfg) (s : Sys W) (hne : d.bytes ≠ []) :
    locksOf ((treatment cfg s.ctx d).outputs (arrived cfg s)) =
      locksAround (nestedRequests cfg s (.inputSdu (.bytes d))) := by
  have hmessage : (d.bytes = [] ∨ s.ctx.p2MsgPending = true) ↔ s.ctx.p2MsgPending = true :=
    or_iff_right hne
  unfold treatment nestedRequests
  simp only [hmessage]
  split_ifs
  · unfold busyAnswer
    split_ifs
    · rfl
    · exact reject_lockFree _ _ _
  · exact takeAnswer_locks huse d s
  · exact handleRequest_locks huse hne s

/-! ### The calls -/

theorem finishProcess_locks (huse : MutexUse cfg) (now : UInt32) (s : Sys W) :
    locksOf ((finishProcess cfg now).outputs s) = [.mutexUnlock] := by
  obtain ⟨es, t, hsched, -, houtputs⟩ := finishProcess_parts cfg now s
  rw [houtputs, locksOf_append, hsched.lockFree, mutexUnlock_locks huse]
  rfl

/-- Behind the S3 timer `uds_process` gives the mutex back, unless it is at the limit. -/
theorem answerInTime_locks (huse : MutexUse cfg) (c : Ctx) (now : UInt32) (s : Sys W) :
    locksOf ((answerInTime cfg c now).outputs s) =
      if deadlinePassed c now && rcrrpExhausted cfg c then [] else [.mutexUnlock] := by
  have hnrc (nrc : UInt8) (s : Sys W) : locksOf ((sendNrc cfg c.pendingSid nrc).outputs s) = [] :=
    sendNrc_lockFree _ _ s
  unfold answerInTime
  cases deadlinePassed c now with
  | false => exact finishProcess_locks huse now s
  | true =>
    cases rcrrpExhausted cfg c with
    | true =>
      rw [if_pos rfl, if_pos rfl, outputs_bind, locksOf_append, hnrc]
      rfl
    | false =>
      rw [if_pos rfl, if_neg Bool.false_ne_true, outputs_bind, locksOf_append, hnrc]
      exact finishProcess_locks huse now _

theorem udsProcess_locks (huse : MutexUse cfg) (s : Sys W) :
    locksOf ((udsProcess cfg).outputs s) =
      .mutexLock :: if limitHit cfg s then [] else [.mutexUnlock] := by
  obtain ⟨-, pre, hpre, houtputs⟩ := udsProcess_parts cfg s
  have hticks : LockFree s pre s := ticks_lockFree hpre
  rw [houtputs, locksOf_append, locksOf_append, mutexLock_locks huse, hticks,
    answerInTime_locks huse]
  rfl

/-- A call without the limit takes the mutex once around what the application does inside it, or not
at all; at the limit it does not give it back. -/
theorem step_locks (huse : MutexUse cfg) (s : Sys W) (op : Op W) :
    (Disciplined cfg s op ∧ Releases cfg s op) ∨
      (¬ Disciplined cfg s op ∧ ∃ rest, locksOf (step cfg s op).2 = .mutexLock :: rest ∧
        (rest = [] ∨ ∃ more, rest = .mutexLock :: more)) := by
  have hquiet (hlimit : ¬ HitsLimit cfg s op) (hnone : nestedRequests cfg s op = [])
      (hlocks : locksOf (step cfg s op).2 = []) :
      Disciplined cfg s op ∧ Releases cfg s op := ⟨⟨hlimit, hnone⟩, Or.inl hlocks⟩
  cases op with
  | inputSdu data =>
    rcases data.empty_or_message with hnone | ⟨d, rfl, hne⟩
    · left
      refine ⟨⟨id, ?_⟩, Or.inr ?_⟩
      · cases data with
        | null len => rfl
        | bytes d => exact if_pos (Or.inl (hnone d rfl))
      · rw [(step_ignored cfg s hnone).2, locksOf_append, mutexLock_locks huse,
          mutexUnlock_locks huse]
        rfl
    · have hlocks : locksOf (step cfg s (.inputSdu (.bytes d))).2 =
          .mutexLock :: (locksAround (nestedRequests cfg s (.inputSdu (.bytes d))) ++
            [.mutexUnlock]) := by
        rw [(step_treats cfg s hne).outputs, locksOf_append, locksOf_append, locksOf_append,
          mutexLock_locks huse, mutexUnlock_locks huse, treatment_locks huse s hne]
        rfl
      cases hnested : nestedRequests cfg s (.inputSdu (.bytes d)) with
      | nil =>
        rw [hnested] at hlocks
        exact Or.inl ⟨⟨id, hnested⟩, Or.inr hlocks⟩
      | cons r rs =>
        rw [hnested] at hlocks
        refine Or.inr ⟨fun h => ?_, _, hlocks, Or.inr ⟨_, rfl⟩⟩
        exact List.cons_ne_nil r rs (hnested.symm.trans h.2)
  | process =>
    have hlocks : locksOf (step cfg s .process).2 = _ := udsProcess_locks huse s
    by_cases hlimit : limitHit cfg s = true
    · rw [if_pos hlimit] at hlocks
      exact Or.inr ⟨fun h => h.1 hlimit, [], hlocks, Or.inl rfl⟩
    · rw [if_neg hlimit] at hlocks
      exact Or.inl ⟨⟨hlimit, rfl⟩, Or.inr hlocks⟩
  | clientRequest sid data cb =>
    have hdrop : locksOf (step cfg s (.clientRequest sid data cb)).2 =
        locksAround (requestOf cfg sid data cb s) :=
      (congrArg locksOf (List.append_nil _)).trans (clientRequest_locks huse sid data cb s)
    refine Or.inl ⟨⟨id, rfl⟩, ?_⟩
    unfold Releases
    rw [hdrop]
    unfold requestOf
    split_ifs
    · exact Or.inr rfl
    · exact Or.inl rfl
  | fill off bytes => exact Or.inl (hquiet id rfl rfl)
  | sendResponse len =>
    refine Or.inl (hquiet id rfl ?_)
    exact lockFree_composable.discard (fun t => (sendResponse_worked cfg len t).lockFree) s
  | sendNrc sid nrc => exact Or.inl (hquiet id rfl (reject_lockFree sid nrc s))
  | elapse f => exact Or.inl (hquiet id rfl rfl)

/-! ### Runs -/

theorem alternating_pair {calls : List Call} :
    Alternating (.mutexLock :: .mutexUnlock :: calls) ↔ Alternating calls := by
  constructor
  · rintro (_ | h)
    exact h
  · exact .pair

/-- The calls of the mutex start with a lock. -/
theorem trace_starts_locked (huse : MutexUse cfg) (s : Sys W) (ops : List (Op W)) :
    locksOf (trace (step cfg) s ops) = [] ∨
      ∃ rest, locksOf (trace (step cfg) s ops) = .mutexLock :: rest := by
  induction ops generalizing s with
  | nil => exact Or.inl rfl
  | cons op ops ih =>
    rw [trace_cons, locksOf_append]
    rcases step_locks huse s op with ⟨-, hnone | hpair⟩ | ⟨-, rest, hlocks, -⟩
    · rw [hnone]
      exact ih _
    · rw [hpair]
      exact Or.inr ⟨_, rfl⟩
    · rw [hlocks]
      exact Or.inr ⟨_, rfl⟩

/-- A call that is not disciplined does not give the mutex back before it is asked for again. -/
theorem undisciplined_not_alternating (huse : MutexUse cfg) {s : Sys W} {op : Op W}
    {rest : List Call} (ops : List (Op W)) (hlocks : locksOf (step cfg s op).2 = .mutexLock :: rest)
    (hrest : rest = [] ∨ ∃ more, rest = .mutexLock :: more) :
    ¬ Alternating (locksOf (trace (step cfg) s (op :: ops))) := by
  rw [trace_cons, locksOf_append, hlocks]
  intro h
  rcases hrest with rfl | ⟨more, rfl⟩
  · rcases trace_starts_locked huse (step cfg s op).1 ops with hnone | ⟨later, hlater⟩
    · rw [hnone] at h
      cases h
    · rw [hlater] at h
      cases h
  · cases h

/-- Lock discipline. Each call that takes the mutex releases it once, and along a run lock and
unlock alternate, exactly as long as `uds_process` does not reach the response-pending limit and the
application makes no request while the stack holds the mutex. -/
theorem lock_discipline_iff (cfg : Config W) (huse : MutexUse cfg) (s : Sys W)
    (ops : List (Op W)) :
    (∀ t op, Releases cfg t op ↔ Disciplined cfg t op) ∧
      (Alternating (locksOf (trace (step cfg) s ops)) ↔ Along (step cfg) (Disciplined cfg) s ops) := by
  constructor
  · intro t op
    rcases step_locks huse t op with ⟨hgood, hreleases⟩ | ⟨hbad, rest, hlocks, hrest⟩
    · exact iff_of_true hreleases hgood
    · refine iff_of_false (fun h => ?_) hbad
      unfold Releases at h
      rw [hlocks] at h
      rcases hrest with rfl | ⟨more, rfl⟩
      · exact absurd h (by decide)
      · rcases h with h | h
        · cases h
        · cases h
  · induction ops generalizing s with
    | nil => exact iff_of_true .nil trivial
    | cons op ops ih =>
      rw [along_cons]
      rcases step_locks huse s op with ⟨hgood, hreleases⟩ | ⟨hbad, rest, hlocks, hrest⟩
      · rw [trace_cons, locksOf_append, and_iff_right hgood, ← ih]
        rcases hreleases with hnone | hpair
        · rw [hnone, List.nil_append]
        · rw [hpair, List.cons_append, List.cons_append, List.nil_append, alternating_pair]
      · exact iff_of_false (undisciplined_not_alternating huse ops hlocks hrest) fun h => hbad h.1

/-- A service that the application answers later, with one response-pending answer at most. -/
def mutexConfig : Config UInt32 :=
  { clockConfig with
    isSet := fun f => f = .fnMutexLock ∨ f = .fnMutexUnlock
    rcrrpLimit := 1
    userServices :=
      [{ sid := 0x31, minLen := 1, sessionMask := 0xFF, securityMask := 0,
         handler := fun _ => .done udsPending, subMask := none }] }

theorem mutexConfig_use : MutexUse mutexConfig where
  lock := by decide
  unlock := by decide

def mutexStart : Sys UInt32 := (udsInit mutexConfig).final powerOn

theorem firstTick_disciplined :
    (∀ t op, Releases mutexConfig t op ↔ Disciplined mutexConfig t op) ∧
      (Alternating (locksOf (trace (step mutexConfig) mutexStart
          [.inputSdu (.bytes slowRequest), .process])) ↔
        Along (step mutexConfig) (Disciplined mutexConfig) mutexStart
          [.inputSdu (.bytes slowRequest), .process]) :=
  lock_discipline_iff mutexConfig mutexConfig_use mutexStart _

/-- A slow request, the one response-pending answer that is allowed, and the limit. -/
def limitRun : List (Op UInt32) :=
  [.inputSdu (.bytes slowRequest), .elapse (· + 5000), .process, .elapse (· + 5000), .process]

/-- At the limit `uds_process` returns with the mutex held, and the next call asks for it
again. -/
theorem limit_keeps_mutex :
    let locks := locksOf (trace (step mutexConfig) mutexStart (limitRun ++ [.process]))
    locks = [.mutexLock, .mutexUnlock, .mutexLock, .mutexUnlock, .mutexLock, .mutexLock,
      .mutexUnlock] ∧ ¬ Alternating locks := by
  have hlocks : locksOf (trace (step mutexConfig) mutexStart (limitRun ++ [.process])) =
      [.mutexLock, .mutexUnlock, .mutexLock, .mutexUnlock, .mutexLock, .mutexLock,
        .mutexUnlock] := by decide
  intro locks
  refine ⟨hlocks, fun h => ?_⟩
  rw [show locks = _ from hlocks, alternating_pair, alternating_pair] at h
  cases h

end UdsLib.Core
