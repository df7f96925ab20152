import UdsLib.Core.Api

/-! The three ways of a message that is not empty: it meets a request in progress, it answers
a request of the client, or it is dispatched to a service. -/
namespace UdsLib.Core
open Bytes Machine Prog

variable {W : Type} {cfg : Config W}

/-- What `uds_input_sdu` itself calls: the clock and the mutex. -/
def Event.isAround : Event → Bool
  | .time _ => true
  | .call .mutexLock _ => true
  | .call .mutexUnlock _ => true
  | _ => false

/-- What holds of the clock and the mutex calls holds of every event around a message. -/
theorem around_forall {P : Event → Prop} {es : List Event} (h : es.all Event.isAround = true)
    (htime : ∀ t, P (.time t)) (hlock : ∀ ret, P (.call .mutexLock ret))
    (hunlock : ∀ ret, P (.call .mutexUnlock ret)) : ∀ e ∈ es, P e := by
  intro e he
  have hround := List.all_eq_true.mp h e he
  cases e with
  | time t => exact htime t
  | call c ret =>
    cases c with
    | mutexLock => exact hlock ret
    | mutexUnlock => exact hunlock ret
    | _ => exact absurd hround Bool.false_ne_true
  | _ => exact absurd hround Bool.false_ne_true

/-- `uds_input_sdu` takes the message for the answer to the request of the client. -/
def takesAsAnswer (c : Ctx) (d : Sdu) : Prop :=
  c.pendingSid ≠ 0 ∧ answersRequest c.pendingSid d = true

instance (c : Ctx) (d : Sdu) : Decidable (takesAsAnswer c d) :=
  inferInstanceAs (Decidable (_ ∧ _))

/-- The state in which a message that has just arrived is looked at. -/
def received (cfg : Config W) (s : Sys W) : Sys W :=
  { (getTime cfg).final s with ctx := { s.ctx with lastMsgTime := (getTime cfg).value s } }

/-- The state in which a message is looked at, the mutex taken. -/
def arrived (cfg : Config W) (s : Sys W) : Sys W := received cfg ((mutexLock cfg).final s)

/-- The context and the clock are set for a request that is about to be dispatched. -/
def newRequest (cfg : Config W) (t : Sys W) : Sys W :=
  { (getTime cfg).final t with
    ctx :=
      { t.ctx with
        p2TimerStart := (getTime cfg).value t, p2MsgPending := false, p2StarActive := false,
        rcrrpCount := 0 } }

/-- The state in which `handle_request` is entered. -/
def entered (cfg : Config W) (s : Sys W) : Sys W := newRequest cfg (arrived cfg s)

/-- The world is all that changes, and the events are those of `uds_input_sdu` itself. -/
def Around (s : Sys W) (es : List Event) (t : Sys W) : Prop :=
  t = { s with world := t.world } ∧ es.all Event.isAround = true

theorem around_composable : Composable (Around (W := W)) where
  refl _ := ⟨rfl, rfl⟩
  trans h hnext := by
    refine ⟨?_, by rw [List.all_append, h.2, hnext.2]; rfl⟩
    rw [hnext.1, h.1]

theorem mutexLock_around (cfg : Config W) : Keeps Around (mutexLock cfg) := by
  refine Keeps.ite (fun _ => ?_) fun _ _ => ⟨rfl, rfl⟩
  exact around_composable.bind (fun _ => ⟨rfl, rfl⟩) fun _ _ => ⟨rfl, rfl⟩

theorem mutexUnlock_around (cfg : Config W) : Keeps Around (mutexUnlock cfg) := by
  refine Keeps.ite (fun _ => ?_) fun _ _ => ⟨rfl, rfl⟩
  exact around_composable.bind (fun _ => ⟨rfl, rfl⟩) fun _ _ => ⟨rfl, rfl⟩

theorem mutexLock_ctx (cfg : Config W) (s : Sys W) : ((mutexLock cfg).final s).ctx = s.ctx := by
  rw [(mutexLock_around cfg s).1]

theorem mutexUnlock_ctx (cfg : Config W) (s : Sys W) : ((mutexUnlock cfg).final s).ctx = s.ctx := by
  rw [(mutexUnlock_around cfg s).1]

/-- A message that has arrived has left its time in the context. -/
theorem arrived_ctx (cfg : Config W) (s : Sys W) :
    (arrived cfg s).ctx = { s.ctx with lastMsgTime := (arrived cfg s).ctx.lastMsgTime } := by
  unfold arrived received
  rw [mutexLock_ctx]

/-- A request is dispatched in the context of its arrival, with the exchange of messages reset. -/
theorem entered_ctx (cfg : Config W) (s : Sys W) :
    (entered cfg s).ctx =
      { s.ctx with
        lastMsgTime := (entered cfg s).ctx.lastMsgTime,
        p2TimerStart := (entered cfg s).ctx.p2TimerStart, p2MsgPending := false,
        p2StarActive := false, rcrrpCount := 0 } := by
  unfold entered newRequest arrived received
  rw [mutexLock_ctx]

/-- A call without a message does nothing but lock and unlock. -/
theorem step_ignored (cfg : Config W) (s : Sys W) {data : Buf}
    (h : ∀ d, data = .bytes d → d.bytes = []) :
    (step cfg s (.inputSdu data)).1 = (mutexUnlock cfg).final ((mutexLock cfg).final s) ∧
      (step cfg s (.inputSdu data)).2 = (mutexLock cfg).outputs s ++
        (mutexUnlock cfg).outputs ((mutexLock cfg).final s) := by
  cases data with
  | null len => exact ⟨rfl, rfl⟩
  | bytes d =>
    have hnone : ¬ d.bytes ≠ [] := not_not_intro (h d rfl)
    simp only [step, Op.prog, inputSdu, final_bind, outputs_bind, final_onlyIf, outputs_onlyIf,
      if_neg hnone]
    exact ⟨trivial, rfl⟩

/-! ### The treatment of a message -/

/-- What `uds_input_sdu` does with a message while a request is in progress. -/
def busyAnswer (cfg : Config W) (d : Sdu) : M W Unit :=
  if suppressedTesterPresent d then pure () else reject cfg (d.byte 0) nrcBusyRepeatRequest

/-- What `uds_input_sdu` does with an answer to the request of the client. -/
def takeAnswer (cfg : Config W) (d : Sdu) : M W Unit := do
  runResponseCb cfg d
  setCtx fun c => { c with pendingSid := 0 }

theorem reject_outputs (cfg : Config W) (sid nrc : UInt8) (s : Sys W) :
    (reject cfg sid nrc).outputs s = (sendNrc cfg sid nrc).outputs s := List.append_nil _

theorem takeAnswer_outputs (cfg : Config W) (d : Sdu) (s : Sys W) :
    (takeAnswer cfg d).outputs s = (runResponseCb cfg d).outputs s := List.append_nil _

/-- What `uds_input_sdu` does with a request. -/
def startRequest (cfg : Config W) (d : Sdu) : M W Unit := do
  let now ← getTime cfg
  setCtx fun c =>
    { c with p2TimerStart := now, p2MsgPending := false, p2StarActive := false, rcrrpCount := 0 }
  handleRequest cfg d

/-- What `uds_input_sdu` does with a message in the context `c`. -/
def treatment (cfg : Config W) (c : Ctx) (d : Sdu) : M W Unit :=
  if c.p2MsgPending then busyAnswer cfg d
  else if takesAsAnswer c d then takeAnswer cfg d
  else startRequest cfg d

/-- Behind the clock, `uds_input_sdu` is the treatment of its message. -/
theorem inputMessage_parts (cfg : Config W) (s : Sys W) {d : Sdu} (hne : d.bytes ≠ []) :
    (inputMessage cfg d).final s = (treatment cfg s.ctx d).final (received cfg s) ∧
      (inputMessage cfg d).outputs s = (getTime cfg).outputs s ++
        (treatment cfg s.ctx d).outputs (received cfg s) := by
  have hpos : 0 < d.bytes.length := List.length_pos_iff.mpr hne
  have hstart : (setCtx fun c => { c with lastMsgTime := (getTime cfg).value s }).final
      ((getTime cfg).final s) = received cfg s := rfl
  unfold inputMessage treatment
  rw [final_byteAt_bind, outputs_byteAt_bind _ _ _ _ hpos]
  rw [final_bind, final_bind, outputs_bind, outputs_bind, hstart]
  rw [final_getCtx_bind, outputs_getCtx_bind]
  by_cases hp : s.ctx.p2MsgPending = true
  · have hp' : (received cfg s).ctx.p2MsgPending = true := hp
    rw [if_pos hp, if_pos hp']
    unfold busyAnswer
    by_cases hquiet : suppressedTesterPresent d = true
    · rw [if_pos hquiet]
      exact ⟨rfl, rfl⟩
    · rw [if_neg hquiet]
      exact ⟨rfl, rfl⟩
  have hp' : ¬ (received cfg s).ctx.p2MsgPending = true := hp
  rw [if_neg hp, if_neg hp']
  by_cases hans : takesAsAnswer s.ctx d
  · have hans' : (received cfg s).ctx.pendingSid ≠ 0 ∧
      answersRequest (received cfg s).ctx.pendingSid d = true := hans
    rw [if_pos hans, if_pos hans']
    unfold takeAnswer
    refine ⟨rfl, ?_⟩
    simp only [outputs_bind, outputs_setCtx, outputs_pure, List.append_nil, List.nil_append]
  · have hans' : ¬ ((received cfg s).ctx.pendingSid ≠ 0 ∧
      answersRequest (received cfg s).ctx.pendingSid d = true) := hans
    rw [if_neg hans, if_neg hans']
    exact ⟨rfl, rfl⟩

/-- A call whose message is treated by `m` once it has arrived: it locks, looks at the clock,
runs `m` and unlocks. -/
structure Treats (cfg : Config W) (s : Sys W) (d : Sdu) (m : M W Unit) : Prop where
  final : (step cfg s (.inputSdu (.bytes d))).1 = (mutexUnlock cfg).final (m.final (arrived cfg s))
  outputs : (step cfg s (.inputSdu (.bytes d))).2 = (mutexLock cfg).outputs s ++
    ((getTime cfg).outputs ((mutexLock cfg).final s) ++
      (m.outputs (arrived cfg s) ++ (mutexUnlock cfg).outputs (m.final (arrived cfg s))))

theorem step_treats (cfg : Config W) (s : Sys W) {d : Sdu} (hne : d.bytes ≠ []) :
    Treats cfg s d (treatment cfg s.ctx d) := by
  obtain ⟨hfinal, houtputs⟩ := inputMessage_parts cfg ((mutexLock cfg).final s) hne
  rw [mutexLock_ctx] at hfinal houtputs
  constructor
  · simp only [step, Op.prog, inputSdu, final_bind, final_onlyIf, if_pos hne, hfinal]
    rfl
  · simp only [step, Op.prog, inputSdu, outputs_bind, final_onlyIf, outputs_onlyIf, if_pos hne,
      hfinal, houtputs, List.append_assoc]
    rfl

theorem step_busy (cfg : Config W) {s : Sys W} {d : Sdu} (hp : s.ctx.p2MsgPending = true)
    (hne : d.bytes ≠ []) : Treats cfg s d (busyAnswer cfg d) := by
  have h := step_treats cfg s hne
  unfold treatment at h
  rwa [if_pos hp] at h

theorem step_answered (cfg : Config W) {s : Sys W} {d : Sdu} (hp : s.ctx.p2MsgPending = false)
    (hans : takesAsAnswer s.ctx d) (hne : d.bytes ≠ []) : Treats cfg s d (takeAnswer cfg d) := by
  have h := step_treats cfg s hne
  unfold treatment at h
  rwa [if_neg (Bool.eq_false_iff.mp hp), if_pos hans] at h

theorem step_started (cfg : Config W) {s : Sys W} {d : Sdu} (hp : s.ctx.p2MsgPending = false)
    (hans : ¬ takesAsAnswer s.ctx d) (hne : d.bytes ≠ []) :
    Treats cfg s d (startRequest cfg d) := by
  have h := step_treats cfg s hne
  unfold treatment at h
  rwa [if_neg (Bool.eq_false_iff.mp hp), if_neg hans] at h

theorem startRequest_final (cfg : Config W) (s : Sys W) (d : Sdu) :
    (startRequest cfg d).final (arrived cfg s) = (handleRequest cfg d).final (entered cfg s) := rfl

theorem startRequest_outputs (cfg : Config W) (s : Sys W) (d : Sdu) :
    (startRequest cfg d).outputs (arrived cfg s) =
      (getTime cfg).outputs (arrived cfg s) ++ (handleRequest cfg d).outputs (entered cfg s) := rfl

/-- A call that dispatches its message does nothing around the dispatch but lock, look at the
clock and unlock. -/
theorem step_dispatched (cfg : Config W) {s : Sys W} {d : Sdu} (hp : s.ctx.p2MsgPending = false)
    (hans : ¬ takesAsAnswer s.ctx d) (hne : d.bytes ≠ []) :
    let r := step cfg s (.inputSdu (.bytes d))
    Around ((handleRequest cfg d).final (entered cfg s)) [] r.1 ∧
      ∃ before after : List Event, before.all Event.isAround = true ∧
        after.all Event.isAround = true ∧
        r.2 = before ++ ((handleRequest cfg d).outputs (entered cfg s) ++ after) := by
  intro r
  have h := step_started cfg hp hans hne
  constructor
  · rw [show r.1 = _ from h.final, startRequest_final]
    exact ⟨(mutexUnlock_around cfg _).1, rfl⟩
  · refine ⟨(mutexLock cfg).outputs s ++
      ((getTime cfg).outputs ((mutexLock cfg).final s) ++ (getTime cfg).outputs (arrived cfg s)),
      (mutexUnlock cfg).outputs ((handleRequest cfg d).final (entered cfg s)), ?_,
      (mutexUnlock_around cfg _).2, ?_⟩
    · rw [List.all_append, (mutexLock_around cfg s).2]
      rfl
    · rw [show r.2 = _ from h.outputs, startRequest_outputs, startRequest_final]
      simp only [List.append_assoc]

end UdsLib.Core
