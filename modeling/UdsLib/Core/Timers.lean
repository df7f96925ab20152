import Mathlib.Tactic.IntervalCases
import UdsLib.Core.Registry
import UdsLib.Core.Serving
import UdsLib.Services.LateLength

/-! The timers of the periodic slots. Requests leave the timer of a slot in use alone, and a call of
`uds_process` sends for the slots that are due and sets their timers. -/
namespace UdsLib.Core
open Bytes Machine Prog Services

variable {W : Type} {cfg : Config W} {d : Sdu} {s t : Sys W} {es : List Event} {i : Fin 8}

/-- The id of a message that is sent for the scheduler. -/
def Event.periodicId? : Event → Option UInt8
  | .tpSend .periodic (id :: _) _ => some id
  | _ => none

/-- The ids that are sent, in order. -/
def idsSent (es : List Event) : List UInt8 := es.filterMap Event.periodicId?

/-- A periodic read always returns 1 to 8 bytes. -/
def ReadsData (cfg : Config W) : Prop :=
  ∀ c id w, 0 < (cfg.app c (.periodicRead id 8) w).1.ret ∧ (cfg.app c (.periodicRead id 8) w).1.ret ≤ 8

/-- `uds_process` comes to the scheduler at this time, and the slot is due. -/
def Due (c : Ctx) (now : UInt32) (i : Fin 8) : Prop := c.periodicIds i ≠ 0 ∧ now ≥ c.periodicTimers i

instance (c : Ctx) (now : UInt32) (i : Fin 8) : Decidable (Due c now i) :=
  inferInstanceAs (Decidable (_ ∧ _))

/-- The context after the slots of a list were worked off at the time `now`. -/
def rescheduled (c : Ctx) (now : UInt32) (is : List (Fin 8)) : Ctx :=
  { c with
    periodicTimers := fun j =>
      if j ∈ is ∧ Due c now j then now + intervalOf (c.periodicRates j) else c.periodicTimers j }

/-! ### Requests -/

theorem spared_timers (h : Spared s es t) : t.ctx.periodicTimers = s.ctx.periodicTimers :=
  congrArg Diagnostic.periodicTimers h.diagnostic

/-- A handler of another service than the periodic read sets no timer. -/
def TimersKept (sid : UInt8) (s : Sys W) (_ : List Event) (t : Sys W) : Prop :=
  sid = sidReadByPerId ∨ t.ctx.periodicTimers = s.ctx.periodicTimers

theorem timersKept_composable {sid : UInt8} : Composable (TimersKept (W := W) sid) where
  refl _ := .inr rfl
  trans h hnext := h.elim .inl fun hs => hnext.imp_right fun ht => ht.trans hs

theorem Deed.timers {sid : UInt8} {α : Type} {m : M W α} (hm : Deed cfg d sid α m) :
    Keeps (TimersKept sid) m := by
  have hR : Composable (TimersKept (W := W) sid) := timersKept_composable
  cases hm with
  | reads f => exact hR.refl
  | setCtx hg => exact fun s => hg.timers.imp_right fun h => h s.ctx
  | sessionRefused entry hsid =>
    intro s
    rw [sessionRefused_final]
    exact .inr rfl
  | securityRefused entry hsid =>
    intro s
    rw [securityRefused_final]
    exact .inr rfl
  | sendNrc nrc => exact fun s => .inr (spared_timers (sendNrc_spared cfg sid nrc s))
  | sendResponse len => exact fun s => .inr (spared_timers (sendResponse_spared len s))
  | _ => exact fun _ => .inr rfl

theorem periodicAccepted_timers (s : Sys W) :
    ((periodicAccepted cfg).final s).ctx.periodicTimers = s.ctx.periodicTimers := by
  have hspared : Keeps Spared (periodicAccepted cfg) :=
    spared_composable.bind (writeTx_spared 0 _) fun _ => sendResponse_spared 1
  exact spared_timers (hspared s)

theorem stopIds_timers (is : List ℕ) (s : Sys W) :
    ((stopIds cfg d is).final s).ctx.periodicTimers = s.ctx.periodicTimers := by
  induction is generalizing s with
  | nil => exact periodicAccepted_timers s
  | cons k is ih =>
    have hrun (g : Ctx → Ctx) : (setCtx g >>= fun _ => stopIds cfg d is).final s =
        (stopIds cfg d is).final { s with ctx := g s.ctx } := rfl
    have hstop : (stopId (d.byte k) s.ctx).periodicTimers = s.ctx.periodicTimers :=
      stopId_keeps (f := Ctx.periodicTimers) (d.byte k) (fun _ _ => rfl) s.ctx
    rw [stopIds, final_byteAt_bind, hrun, ih, hstop]

/-- The loop that starts ids sets timers of free slots only. -/
theorem startIds_timers (mode : UInt8) (is : List ℕ) (s : Sys W) (hused : s.ctx.periodicIds i ≠ 0) :
    ((startIds cfg d mode is).final s).ctx.periodicTimers i = s.ctx.periodicTimers i := by
  induction is generalizing s with
  | nil => exact congrFun (periodicAccepted_timers s) i
  | cons k is ih =>
    rw [startIds, final_byteAt_bind, final_getCtx_bind]
    cases hslot : slotOf s.ctx (d.byte k) with
    | some j =>
      exact ih { s with ctx := { s.ctx with
        periodicRates := Function.update s.ctx.periodicRates j mode } } hused
    | none =>
      dsimp only
      by_cases hfull : s.ctx.periodicCount ≥ 8
      · rw [if_pos hfull]
        exact congrFun (spared_timers (sendNrc_spared cfg sidReadByPerId nrcResponseTooLong s)) i
      · rw [if_neg hfull]
        cases hfree : slotOf s.ctx 0 with
        | none => exact ih s hused
        | some j =>
          have hfound : s.ctx.slots.find 0 = some j := hfree
          have hzero : s.ctx.periodicIds j = 0 := Slots.find_some hfound
          have hij : i ≠ j := by
            rintro rfl
            exact hused hzero
          have hused' : Function.update s.ctx.periodicIds j (d.byte k) i ≠ 0 := by
            rw [Function.update_of_ne hij]
            exact hused
          have hrest := ih { s with
            world := (cfg.getTimeMs s.world).2
            ctx := { s.ctx with
              periodicIds := Function.update s.ctx.periodicIds j (d.byte k)
              periodicRates := Function.update s.ctx.periodicRates j mode
              periodicTimers := Function.update s.ctx.periodicTimers j (cfg.getTimeMs s.world).1
              periodicCount := s.ctx.periodicCount + 1 } } hused'
          exact hrest.trans (Function.update_of_ne hij _ _)

theorem periodicRead_timers (s : Sys W) (hused : s.ctx.periodicIds i ≠ 0) :
    ((handlePeriodicRead cfg d).final s).ctx.periodicTimers i = s.ctx.periodicTimers i := by
  unfold handlePeriodicRead
  rw [final_ite]
  by_cases hlen : d.len < 2
  · rw [if_pos hlen]
    exact congrFun (spared_timers (sendNrc_spared cfg sidReadByPerId nrcIncorrectLength s)) i
  rw [if_neg hlen, final_byteAt_bind]
  dsimp only
  by_cases hstop : d.byte 1 &&& 0x0F = 0x04
  · rw [if_pos hstop, final_ite]
    by_cases hall : d.len = 2
    · rw [if_pos hall]
      exact congrFun (periodicAccepted_timers _) i
    · rw [if_neg hall]
      exact congrFun (stopIds_timers _ s) i
  · rw [if_neg hstop, final_ite]
    by_cases hmode : d.byte 1 &&& 0x0F < 0x01 ∨ d.byte 1 &&& 0x0F > 0x03
    · rw [if_pos hmode]
      exact congrFun (spared_timers (sendNrc_spared cfg sidReadByPerId nrcRequestOutOfRange s)) i
    · rw [if_neg hmode]
      exact startIds_timers _ _ s hused

theorem handler_timers {service : Service W} (hfound : findService cfg (d.byte 0) = some service)
    (hlen : service.minLen.toNat ≤ d.bytes.length) (s : Sys W) (hused : s.ctx.periodicIds i ≠ 0) :
    ((service.handler d).final s).ctx.periodicTimers i = s.ctx.periodicTimers i := by
  rcases (findService_iff _ _).mp hfound with ⟨_, entry, _, -, -, -, rfl⟩ | ⟨-, hcore, -⟩
  · exact congrFun (spared_timers (runApp_spared cfg (entry.handler d) s)) i
  · have hkept := (coreServices_deeds service hcore hlen).keeps timersKept_composable
      (fun _ _ => Deed.timers) s
    rcases hkept with hsid | hkept
    · have hperiodic : (coreServices cfg).find? (fun entry => entry.sid = sidReadByPerId) = some service :=
        (find?_sid coreServices_nodup service).mpr ⟨hcore, hsid⟩
      obtain rfl := Option.some.inj hperiodic
      exact periodicRead_timers s hused
    · exact congrFun hkept i

/-- A request leaves the timer of a slot in use alone. -/
theorem handleRequest_timers (hne : d.bytes ≠ []) (s : Sys W) (hused : s.ctx.periodicIds i ≠ 0) :
    ((handleRequest cfg d).final s).ctx.periodicTimers i = s.ctx.periodicTimers i := by
  have hleads := handleRequest_leads cfg s hne
  cases hfail : firstFailing cfg s d with
  | none =>
    rw [hfail] at hleads
    obtain ⟨service, hfound, hfinal, -⟩ := hleads
    obtain ⟨es, -, htail⟩ := executeHandler_parts cfg service d (atHandler cfg service d s)
    have hids : (atHandler cfg service d s).ctx.periodicIds i ≠ 0 := by
      rw [atHandler_ctx]
      exact hused
    have htimers : (atHandler cfg service d s).ctx.periodicTimers = s.ctx.periodicTimers := by
      rw [atHandler_ctx]
      rfl
    have hhandler := handler_timers hfound (passed_length hfail hfound) _ hids
    rw [hfinal, spared_timers htail, hhandler, htimers]
  | some check =>
    rw [hfail] at hleads
    obtain ⟨es, t, hgate, -, hfinal, -⟩ := hleads
    have hkept : t.ctx.periodicTimers = s.ctx.periodicTimers :=
      congrArg Diagnostic.periodicTimers hgate.diagnostic.1
    rw [hfinal, spared_timers (reject_spared cfg (d.byte 0) check.nrc t), hkept]

theorem arrived_diagnostic (cfg : Config W) (s : Sys W) :
    (arrived cfg s).ctx.diagnostic = s.ctx.diagnostic := by
  rw [arrived_ctx]
  rfl

/-- Only `uds_process` sets the timer of a slot in use. -/
theorem step_timers (op : Op W) (hop : op ≠ .process) (hused : s.ctx.periodicIds i ≠ 0) :
    (step cfg s op).1.ctx.periodicTimers i = s.ctx.periodicTimers i := by
  cases op with
  | inputSdu buf =>
    rcases buf.empty_or_message with hnone | ⟨d, rfl, hne⟩
    · rw [(step_ignored cfg s hnone).1, mutexUnlock_ctx, mutexLock_ctx]
    · have harrived : (arrived cfg s).ctx.periodicTimers = s.ctx.periodicTimers :=
        congrArg Diagnostic.periodicTimers (arrived_diagnostic cfg s)
      rw [← harrived, (step_treats cfg s hne).final, mutexUnlock_ctx]
      unfold treatment
      split_ifs with hp hans
      · unfold busyAnswer
        split_ifs
        · rfl
        · exact congrFun (spared_timers (reject_spared cfg (d.byte 0) nrcBusyRepeatRequest _)) i
      · have hcallback : Keeps Spared (runResponseCb cfg d) := runResponseCb_spared d
        exact congrFun (spared_timers (hcallback (arrived cfg s))) i
      · have hids : (entered cfg s).ctx.periodicIds = s.ctx.periodicIds :=
          congrArg Diagnostic.periodicIds (entered_diagnostic cfg s)
        have hused' : (entered cfg s).ctx.periodicIds i ≠ 0 := by
          rw [hids]
          exact hused
        exact handleRequest_timers hne (entered cfg s) hused'
  | process => exact absurd rfl hop
  | clientRequest sid buf cb => exact congrFun (spared_timers (clientRequest_spared sid buf cb s)) i
  | fill off bytes => rfl
  | sendResponse len => exact congrFun (spared_timers (sendResponse_spared len s)) i
  | sendNrc sid nrc => exact congrFun (spared_timers (sendNrc_spared cfg sid nrc s)) i
  | elapse f => rfl

/-! ### The scheduler -/

theorem idsSent_append (es fs : List Event) : idsSent (es ++ fs) = idsSent es ++ idsSent fs :=
  List.filterMap_append ..

theorem Serves.idsSent (h : Serves s es t) : idsSent es = [] := by
  apply List.filterMap_eq_nil_iff.mpr
  intro e he
  have hserving := h e he
  cases e with
  | tpSend origin data ret =>
    cases origin with
    | periodic => exact absurd hserving Bool.false_ne_true
    | _ => rfl
  | _ => rfl

/-- A message that is not empty starts with the id. -/
theorem sendPeriodic_run (id : UInt8) {reply : Reply} (hpos : 0 < reply.ret) (hle : reply.ret ≤ 8)
    (s : Sys W) : ((sendPeriodic cfg id reply).final s).ctx = s.ctx ∧
      idsSent ((sendPeriodic cfg id reply).outputs s) = [id] := by
  have hlen : 0 < (lenOf (reply.ret + 1)).toNat := by
    generalize reply.ret = ret at hpos hle
    interval_cases ret <;> decide
  obtain ⟨n, hn⟩ := Nat.exists_eq_succ_of_ne_zero hlen.ne'
  have hlong : ¬ reply.ret > 8 := Int.not_lt.mpr hle
  have hwrite (off : ℕ) (bs : List UInt8) (u : Sys W) : idsSent ((writeTx cfg off bs).outputs u) = [] := by
    have hserves : Serves u ((writeTx cfg off bs).outputs u) u := faults_serves fun _ => writeTx_faults u
    exact hserves.idsSent
  have hsent {u : Sys W} (hu : u.tx 0 = id) :
      idsSent ((tpSend cfg .periodic (n + 1)).outputs u) = [id] := by
    have hdata : slice u.tx 0 (n + 1) = id :: slice u.tx 1 n := by
      rw [slice_succ, hu]
    exact congrArg (fun data => idsSent [.tpSend .periodic data _]) hdata
  unfold sendPeriodic
  rw [hn]
  constructor
  · simp only [final_bind, final_onlyIf, if_neg hlong]
    rfl
  · simp only [outputs_bind, outputs_onlyIf, final_onlyIf, if_neg hlong, idsSent_append, hwrite,
      List.nil_append, outputs_pure, List.append_nil]
    apply hsent
    change blit (blit s.tx 0 [id]) 1 (slice (fun k => reply.out.getD k 0) 0 reply.ret.toNat) 0 = id
    rw [blit_outside _ _ _ _ (.inl Nat.zero_lt_one)]
    exact blit_inside s.tx 0 [id] 0 Nat.zero_lt_one

theorem rescheduled_due {c : Ctx} {now : UInt32} (h : Due c now i) :
    rescheduled c now [i] =
      { c with
        periodicTimers :=
          Function.update c.periodicTimers i (now + intervalOf (c.periodicRates i)) } := by
  unfold rescheduled
  congr 1
  funext j
  by_cases hj : j = i
  · subst hj
    simp [h]
  · simp [hj]

theorem rescheduled_early {c : Ctx} {now : UInt32} (h : ¬ Due c now i) : rescheduled c now [i] = c := by
  unfold rescheduled
  congr 1
  funext j
  by_cases hj : j = i
  · subst hj
    simp [h]
  · simp [hj]

/-- A slot that is due sends its id and is due again after the interval of its rate. -/
theorem schedule_run (hread : ReadsData cfg) (now : UInt32) (i : Fin 8) (s : Sys W) :
    ((schedule cfg now i).final s).ctx = rescheduled s.ctx now [i] ∧
      idsSent ((schedule cfg now i).outputs s) =
        if Due s.ctx now i then [s.ctx.periodicIds i] else [] := by
  rw [schedule_eq, final_getCtx_bind, outputs_getCtx_bind, final_onlyIf, outputs_onlyIf]
  by_cases hdue : Due s.ctx now i
  · have hdue' : s.ctx.periodicIds i ≠ 0 ∧ now ≥ s.ctx.periodicTimers i := hdue
    obtain ⟨hpos, hle⟩ := hread s.ctx (s.ctx.periodicIds i) s.world
    let call := invoke cfg (.periodicRead (s.ctx.periodicIds i) 8)
    have hpos' : (call.value s).ret > 0 := hpos
    let send := sendPeriodic cfg (s.ctx.periodicIds i) (call.value s)
    have hctx : (send.final (call.final s)).ctx = s.ctx := (sendPeriodic_run _ hpos hle _).1
    have hids : idsSent (send.outputs (call.final s)) = [s.ctx.periodicIds i] :=
      (sendPeriodic_run _ hpos hle _).2
    have hcall : idsSent (call.outputs s) = [] := rfl
    rw [if_pos hdue', if_pos hdue', if_pos hdue]
    constructor
    · rw [final_bind, final_bind, final_onlyIf, if_pos hpos', rescheduled_due hdue]
      exact congrArg (fun c : Ctx =>
        { c with
          periodicTimers :=
            Function.update c.periodicTimers i (now + intervalOf (s.ctx.periodicRates i)) }) hctx
    · rw [outputs_bind, outputs_bind, outputs_onlyIf, if_pos hpos', outputs_setCtx, List.append_nil,
        idsSent_append, hcall, List.nil_append]
      exact hids
  · have hdue' : ¬ (s.ctx.periodicIds i ≠ 0 ∧ now ≥ s.ctx.periodicTimers i) := hdue
    rw [if_neg hdue', if_neg hdue', if_neg hdue, rescheduled_early hdue]
    exact ⟨rfl, rfl⟩

theorem due_rescheduled {c : Ctx} {now : UInt32} {is : List (Fin 8)} {j : Fin 8} (hj : j ∉ is) :
    Due (rescheduled c now is) now j ↔ Due c now j := by
  simp [Due, rescheduled, hj]

theorem rescheduled_cons {c : Ctx} {now : UInt32} {is : List (Fin 8)} (hi : i ∉ is) :
    rescheduled (rescheduled c now [i]) now is = rescheduled c now (i :: is) := by
  unfold rescheduled
  congr 1
  funext j
  by_cases hj : j = i
  · subst hj
    simp [hi]
  · simp [hj, Due]

/-- The scheduler sends the ids of the slots that are due, in the order of the slots. -/
theorem scheduleAll_run (hread : ReadsData cfg) (now : UInt32) {is : List (Fin 8)} (his : is.Nodup)
    (s : Sys W) :
    ((scheduleAll cfg now is).final s).ctx = rescheduled s.ctx now is ∧
      idsSent ((scheduleAll cfg now is).outputs s) =
        (is.filter fun j => Due s.ctx now j).map s.ctx.periodicIds := by
  induction is generalizing s with
  | nil =>
    constructor
    · simp [scheduleAll, rescheduled]
    · rfl
  | cons i is ih =>
    obtain ⟨hi, his⟩ := List.nodup_cons.mp his
    obtain ⟨hctx, hids⟩ := schedule_run hread now i s
    obtain ⟨hctx', hids'⟩ := ih his ((schedule cfg now i).final s)
    have hdue : (is.filter fun j => Due (rescheduled s.ctx now [i]) now j) =
        is.filter fun j => Due s.ctx now j := by
      apply List.filter_congr
      intro j hj
      have hne : j ∉ [i] := by
        intro hji
        exact hi (List.mem_singleton.mp hji ▸ hj)
      simp only [due_rescheduled hne]
    rw [hctx] at hctx' hids'
    unfold scheduleAll
    constructor
    · rw [final_bind, hctx', rescheduled_cons hi]
    · rw [outputs_bind, idsSent_append, hids, hids', hdue, List.filter_cons]
      have hsame : (rescheduled s.ctx now [i]).periodicIds = s.ctx.periodicIds := rfl
      rw [hsame]
      by_cases h : Due s.ctx now i
      · simp [h]
      · simp [h]

/-- The slots and their timers are the same. -/
structure SameSlots (c c' : Ctx) : Prop where
  ids : c'.periodicIds = c.periodicIds
  rates : c'.periodicRates = c.periodicRates
  timers : c'.periodicTimers = c.periodicTimers
  count : c'.periodicCount = c.periodicCount

theorem SameSlots.of_diagnostic {c c' : Ctx} (h : c'.diagnostic = c.diagnostic) : SameSlots c c' where
  ids := congrArg Diagnostic.periodicIds h
  rates := congrArg Diagnostic.periodicRates h
  timers := congrArg Diagnostic.periodicTimers h
  count := congrArg Diagnostic.periodicCount h

theorem SameSlots.due_iff {c c' : Ctx} (h : SameSlots c c') (now : UInt32) (j : Fin 8) :
    Due c' now j ↔ Due c now j := by
  unfold Due
  rw [h.ids, h.timers]

/-- The slots that are due, if the scheduler is at work. -/
def dueSlots (c : Ctx) (now : UInt32) (works : Bool) : List (Fin 8) :=
  (List.finRange 8).filter fun j => works ∧ c.periodicCount > 0 ∧ Due c now j

/-- What a part of `uds_process` does that comes to the scheduler, if it does: it sends for the slots that
are due and sets their timers. -/
structure Sends (now : UInt32) (works : Bool) (c : Ctx) (es : List Event) (c' : Ctx) : Prop where
  timers : ∀ j, c'.periodicTimers j =
    if j ∈ dueSlots c now works then now + intervalOf (c.periodicRates j) else c.periodicTimers j
  sent : idsSent es = (dueSlots c now works).map c.periodicIds

theorem SameSlots.dueSlots_eq {c c' : Ctx} (h : SameSlots c c') (now : UInt32) (works : Bool) :
    dueSlots c' now works = dueSlots c now works := by
  unfold dueSlots
  simp only [h.due_iff, h.count]

/-- What comes before the scheduler does not matter. -/
theorem Sends.after {now : UInt32} {works : Bool} {c c' c'' : Ctx} {es fs : List Event}
    (hsame : SameSlots c c') (hes : idsSent es = []) (h : Sends now works c' fs c'') :
    Sends now works c (es ++ fs) c'' := by
  constructor
  · intro j
    rw [h.timers, hsame.dueSlots_eq, hsame.rates, hsame.timers]
  · rw [idsSent_append, hes, h.sent, hsame.dueSlots_eq, hsame.ids]
    rfl

theorem finishProcess_sends (hread : ReadsData cfg) (now : UInt32) (s : Sys W) :
    Sends now true s.ctx ((finishProcess cfg now).outputs s) ((finishProcess cfg now).final s).ctx := by
  have hfinish : finishProcess cfg now = (getCtx >>= fun ctx =>
      onlyIf (ctx.periodicCount > 0) (scheduleAll cfg now (List.finRange 8)) >>= fun _ =>
        mutexUnlock cfg) := rfl
  have hunlock (u : Sys W) : idsSent ((mutexUnlock cfg).outputs u) = [] := (mutexUnlock_serves u).idsSent
  obtain ⟨hctx, hids⟩ := scheduleAll_run hread now (List.nodup_finRange 8) s
  rw [hfinish, final_getCtx_bind, outputs_getCtx_bind, final_bind, mutexUnlock_ctx, outputs_bind,
    final_onlyIf, outputs_onlyIf]
  by_cases hcount : s.ctx.periodicCount > 0
  · rw [if_pos hcount, if_pos hcount, hctx]
    constructor
    · intro j
      simp [rescheduled, dueSlots, hcount]
    · rw [idsSent_append, hids, hunlock, List.append_nil]
      simp [dueSlots, hcount]
  · rw [if_neg hcount, if_neg hcount]
    constructor
    · intro j
      simp [dueSlots, hcount]
    · rw [List.nil_append, hunlock]
      simp [dueSlots, hcount]

/-- Nothing is due where the scheduler is not reached. -/
theorem Sends.skipped {now : UInt32} {c c' : Ctx} {es : List Event} (hsame : SameSlots c c')
    (hes : idsSent es = []) : Sends now false c es c' := by
  constructor
  · intro j
    rw [hsame.timers]
    simp [dueSlots]
  · rw [hes]
    simp [dueSlots]

theorem answerInTime_sends (hread : ReadsData cfg) (c : Ctx) (now : UInt32) (s : Sys W) :
    Sends now (!(deadlinePassed c now && rcrrpExhausted cfg c)) s.ctx
      ((answerInTime cfg c now).outputs s) ((answerInTime cfg c now).final s).ctx := by
  have hnrc (nrc : UInt8) : SameSlots s.ctx ((sendNrc cfg c.pendingSid nrc).final s).ctx ∧
      idsSent ((sendNrc cfg c.pendingSid nrc).outputs s) = [] := by
    constructor
    · exact .of_diagnostic (sendNrc_diagnostic c.pendingSid nrc s)
    · exact (sendNrc_serves c.pendingSid nrc s).idsSent
  unfold answerInTime
  by_cases hdead : deadlinePassed c now = true
  · rw [if_pos hdead, hdead]
    by_cases hlimit : rcrrpExhausted cfg c = true
    · obtain ⟨hsame, hes⟩ := hnrc nrcConditionsNotCorrect
      rw [if_pos hlimit, hlimit, outputs_bind, outputs_setCtx, List.append_nil]
      apply Sends.skipped _ hes
      exact ⟨hsame.ids, hsame.rates, hsame.timers, hsame.count⟩
    · obtain ⟨hsame, hes⟩ := hnrc nrcResponsePending
      rw [if_neg hlimit, Bool.eq_false_iff.mpr hlimit, outputs_bind, final_bind]
      generalize (sendNrc cfg c.pendingSid nrcResponsePending).final s = u at *
      let again : Sys W :=
        { u with ctx := { u.ctx with
          rcrrpCount := u.ctx.rcrrpCount + 1, p2StarActive := true, p2TimerStart := now } }
      have hagain : SameSlots s.ctx again.ctx := ⟨hsame.ids, hsame.rates, hsame.timers, hsame.count⟩
      exact (finishProcess_sends hread now again).after hagain hes
  · rw [if_neg hdead, Bool.eq_false_iff.mpr hdead]
    exact finishProcess_sends hread now s

/-- `uds_process` comes to the scheduler: it does not give up a request. -/
def schedules (cfg : Config W) (s : Sys W) : Bool :=
  !(deadlinePassed s.ctx (processTime cfg s) && rcrrpExhausted cfg s.ctx)

/-- `uds_process` sends for the slots that are due and sets their timers. -/
theorem process_sends (hread : ReadsData cfg) (s : Sys W) :
    Sends (processTime cfg s) (schedules cfg s) s.ctx (step cfg s .process).2
      (step cfg s .process).1.ctx := by
  let now := processTime cfg s
  obtain ⟨hfinal, houtputs⟩ := udsProcess_run cfg s
  have hr : (step cfg s .process).1 = (answerInTime cfg s.ctx now).final (ticked cfg s) := hfinal
  have hes : (step cfg s .process).2 = ((mutexLock cfg).outputs s ++ (.time now :: s3Events cfg s)) ++
      (answerInTime cfg s.ctx now).outputs (ticked cfg s) := by
    rw [List.append_assoc]
    exact houtputs
  have hs3 : Serves s (s3Events cfg s) s := ticks_serve (checkS3_parts cfg _ _).2
  have hticks : Serves s (.time now :: s3Events cfg s) s := List.forall_mem_cons.mpr ⟨rfl, hs3⟩
  have hbefore : idsSent ((mutexLock cfg).outputs s ++ (.time now :: s3Events cfg s)) = [] := by
    rw [idsSent_append, (mutexLock_serves s).idsSent, hticks.idsSent]
    rfl
  have hsame : SameSlots s.ctx (ticked cfg s).ctx := by
    rw [ticked_ctx]
    split_ifs
    · exact ⟨rfl, rfl, rfl, rfl⟩
    · exact ⟨rfl, rfl, rfl, rfl⟩
  rw [hr, hes]
  exact (answerInTime_sends hread s.ctx now (ticked cfg s)).after hsame hbefore

end UdsLib.Core
