import UdsLib.Services.Composition

/-! Which positive responses are withheld. The suppression flag belongs to the context, not to
the request: a request with sub-functions overwrites it, a positive answer spends it, and
whatever leaves it set decides over the next service without sub-functions. -/
namespace UdsLib.Core
open Bytes Machine Prog Services

variable {W : Type} {cfg : Config W}

/-- The verdict on a positive response: `true` if it was withheld, `false` if it was handed to
`fn_tp_send`. -/
def Event.verdict? : Event → Option Bool
  | .withheld => some true
  | .tpSend .response _ _ => some false
  | _ => none

def firstVerdict (es : List Event) : Option Bool := es.findSome? Event.verdict?

/-- Neither a verdict nor the entry of a request or of a handler. -/
def Event.isQuiet (e : Event) : Bool := e.verdict?.isNone && !e.isDispatch && !e.isHandler

/-- The first verdict is `b`; as long as there is none, the flag stands at `b`. -/
def Settled (b : Bool) (es : List Event) (s : Sys W) : Prop :=
  (firstVerdict es).elim (s.ctx.suppressPosResp = b) (· = b)

/-- From a flag that stands at `b`, the first verdict is `b`. -/
def Obeys (b : Bool) (s : Sys W) (es : List Event) (t : Sys W) : Prop :=
  s.ctx.suppressPosResp = b → Settled b es t

/-- The flag is left alone and all events are quiet. -/
def Quiet (s : Sys W) (es : List Event) (t : Sys W) : Prop :=
  t.ctx.suppressPosResp = s.ctx.suppressPosResp ∧ es.all Event.isQuiet = true

/-- No request and no handler was entered. -/
def NoDispatch (_ : Sys W) (es : List Event) (_ : Sys W) : Prop :=
  (es.all fun e => !e.isDispatch && !e.isHandler) = true

theorem Settled.append {b : Bool} {es fs : List Event} {t u : Sys W} (h : Settled b es t)
    (hnext : Obeys b t fs u) : Settled b (es ++ fs) u := by
  unfold Settled firstVerdict at *
  rw [List.findSome?_append]
  cases hv : es.findSome? Event.verdict? with
  | none =>
    rw [hv] at h
    rw [Option.none_or]
    exact hnext h
  | some v =>
    rw [hv] at h
    exact h

theorem Quiet.no_verdict {s t : Sys W} {es : List Event} (h : Quiet s es t) :
    firstVerdict es = none := by
  apply List.findSome?_eq_none_iff.mpr
  intro e he
  have hq := List.all_eq_true.mp h.2 e he
  simp only [Event.isQuiet, Bool.and_eq_true, Option.isNone_iff_eq_none] at hq
  exact hq.1.1

theorem Quiet.obeys {s t : Sys W} {es : List Event} (h : Quiet s es t) (b : Bool) :
    Obeys b s es t := by
  intro hs
  unfold Settled
  rw [h.no_verdict]
  exact h.1.trans hs

theorem Quiet.noDispatch {s t : Sys W} {es : List Event} (h : Quiet s es t) :
    NoDispatch s es t := by
  apply List.all_eq_true.mpr
  intro e he
  have hq := List.all_eq_true.mp h.2 e he
  simp only [Event.isQuiet, Bool.and_eq_true] at hq ⊢
  exact ⟨hq.1.2, hq.2⟩

theorem obeys_composable (b : Bool) : Composable (Obeys (W := W) b) where
  refl _ hs := hs
  trans h hnext hs := (h hs).append hnext

theorem quiet_composable : Composable (Quiet (W := W)) where
  refl _ := ⟨rfl, rfl⟩
  trans h hnext := ⟨hnext.1.trans h.1, by rw [List.all_append, h.2, hnext.2]; rfl⟩

theorem noDispatch_composable : Composable (NoDispatch (W := W)) where
  refl _ := rfl
  trans h hnext := by
    unfold NoDispatch at *
    rw [List.all_append, h, hnext]
    rfl

theorem CtxWrite.suppressPosResp {f : Ctx → Ctx} (h : CtxWrite f) (c : Ctx) :
    (f c).suppressPosResp = c.suppressPosResp := by
  cases h with
  | stopId id =>
    unfold Services.stopId
    induction List.finRange 8 generalizing c with
    | nil => rfl
    | cons j js ih =>
      rw [List.foldl_cons, ih]
      split_ifs <;> rfl
  | _ => rfl

/-- `uds_send_response` is the only action whose outcome depends on the flag. -/
theorem sendResponse_obeys (b : Bool) (len : UInt16) :
    Keeps (Obeys b) (Core.sendResponse cfg len) := by
  intro s hs
  unfold Core.sendResponse
  simp only [final_ite, outputs_ite]
  split_ifs with hlen
  · exact hs
  · cases b with
    | true =>
      simp only [outputs_bind, final_bind, getCtx, setCtx, value_reads, final_modify, final_reads,
        hs, if_true]
      exact rfl
    | false =>
      simp only [outputs_bind, final_bind, getCtx, setCtx, value_reads, final_modify, final_reads,
        hs]
      exact rfl

theorem sendResponse_noDispatch (len : UInt16) :
    Keeps NoDispatch (Core.sendResponse cfg len) := by
  intro s
  unfold Core.sendResponse
  simp only [outputs_ite, outputs_bind]
  split_ifs <;> rfl

theorem faults_quiet {es : List Event} (h : ∀ e ∈ es, ∃ f, e = .fault f) :
    es.all Event.isQuiet = true := by
  apply List.all_eq_true.mpr
  exact faults_forall h fun _ => rfl

theorem byteAt_quiet (d : Sdu) (i : ℕ) : Keeps (Quiet (W := W)) (byteAt d i) :=
  fun s => ⟨rfl, faults_quiet fun _ => byteAt_faults s⟩

/-- A condition `B` for suppressing that a program meets only where the flag is to stand at
`true`. -/
def Lawful (B : Prop) {α : Type} (m : M W α) : Prop :=
  (∀ b : Bool, (B → b = true) → Keeps (Obeys b) m) ∧ Keeps NoDispatch m

theorem lawful_of_quiet {B : Prop} {α : Type} {m : M W α} (h : Keeps Quiet m) : Lawful B m :=
  ⟨fun b _ s => (h s).obeys b, fun s => (h s).noDispatch⟩

theorem Action.lawful {B : Prop} {α : Type} {m : M W α} (h : Action cfg B α m) :
    Lawful B m := by
  cases h with
  | sendResponse len => exact ⟨fun b _ => sendResponse_obeys b len, sendResponse_noDispatch len⟩
  | setSuppress hB => exact ⟨fun b hb _ _ => (hb hB).symm, fun _ => rfl⟩
  | withhold hB => exact ⟨fun b hb _ _ => (hb hB).symm, fun _ => rfl⟩
  | reads f => exact lawful_of_quiet fun _ => ⟨rfl, rfl⟩
  | outside f hf => exact lawful_of_quiet fun s => ⟨congrArg _ (hf s), rfl⟩
  | setCtx hf => exact lawful_of_quiet fun s => ⟨hf.suppressPosResp s.ctx, rfl⟩
  | getTime => exact lawful_of_quiet fun _ => ⟨rfl, rfl⟩
  | invoke c => exact lawful_of_quiet fun _ => ⟨rfl, rfl⟩
  | byteAt d i => exact lawful_of_quiet (byteAt_quiet d i)
  | bytesAt d off n => exact lawful_of_quiet fun s => ⟨rfl, faults_quiet fun _ => bytesAt_faults s⟩
  | writeTx off bs => exact lawful_of_quiet fun s => ⟨rfl, faults_quiet fun _ => writeTx_faults s⟩
  | fault f => exact lawful_of_quiet fun _ => ⟨rfl, rfl⟩
  | requested sid ret => exact lawful_of_quiet fun _ => ⟨rfl, rfl⟩
  | responseCb cb sid data => exact lawful_of_quiet fun _ => ⟨rfl, rfl⟩
  | @tpSend origin h len =>
    refine lawful_of_quiet fun _ => ⟨rfl, ?_⟩
    cases origin with
    | response => exact absurd rfl h
    | _ => rfl

theorem Steps.obeys {B : Prop} {α : Type} {m : M W α} (h : Steps cfg B m) {b : Bool}
    (hb : B → b = true) : Keeps (Obeys b) m :=
  h.keeps (obeys_composable b) fun _ _ ha => ha.lawful.1 b hb

theorem Steps.noDispatch {B : Prop} {α : Type} {m : M W α} (h : Steps cfg B m) :
    Keeps NoDispatch m :=
  h.keeps noDispatch_composable fun _ _ ha => ha.lawful.2

/-! ### A dispatched request -/

/-- The flag that a dispatched request works under: its own bit 7 if its service has
sub-functions, and else whatever flag it finds. -/
def flagFor (service : Service W) (d : Sdu) (found : Bool) : Bool :=
  if service.subMask.isSome then decide (SuppressBit d) else found

/-- If a handler was entered, the first verdict is what `β` makes of the flag before. -/
def Judged (β : Bool → Bool) (s : Sys W) (es : List Event) (t : Sys W) : Prop :=
  (∃ sid, Event.handler sid ∈ es) → Settled (β s.ctx.suppressPosResp) es t

theorem NoDispatch.judged {s t : Sys W} {es : List Event} (h : NoDispatch s es t)
    (β : Bool → Bool) : Judged β s es t := by
  rintro ⟨sid, hsid⟩
  have := List.all_eq_true.mp h _ hsid
  simp [Event.isHandler] at this

theorem Quiet.then_judged {β : Bool → Bool} {s t u : Sys W} {es fs : List Event}
    (h : Quiet s es t) (hnext : Judged β t fs u) : Judged β s (es ++ fs) u := by
  rintro ⟨sid, hsid⟩
  have hfs : Event.handler sid ∈ fs := by
    rcases List.mem_append.mp hsid with he | hf
    · have := List.all_eq_true.mp h.2 _ he
      simp [Event.isQuiet, Event.isHandler] at this
    · exact hf
  have hsettled := hnext ⟨sid, hfs⟩
  rw [h.1] at hsettled
  unfold Settled firstVerdict at *
  rwa [List.findSome?_append, show es.findSome? Event.verdict? = none from h.no_verdict,
    Option.none_or]

theorem Judged.then_quiet {β : Bool → Bool} {s t u : Sys W} {es fs : List Event}
    (h : Judged β s es t) (hnext : Quiet t fs u) : Judged β s (es ++ fs) u := by
  rintro ⟨sid, hsid⟩
  have hes : Event.handler sid ∈ es := by
    rcases List.mem_append.mp hsid with he | hf
    · exact he
    · have := List.all_eq_true.mp hnext.2 _ hf
      simp [Event.isQuiet, Event.isHandler] at this
  exact (h ⟨sid, hes⟩).append (hnext.obeys _)

theorem executeHandler_obeys {service : Service W} {d : Sdu} {B : Prop} {b : Bool}
    (hservice : Steps cfg B (service.handler d)) (hb : B → b = true) :
    Keeps (Obeys b) (executeHandler cfg service d) := by
  unfold executeHandler
  refine (obeys_composable b).bind (fun s hs => hs) fun _ => ?_
  refine Steps.obeys (.bind hservice fun _ => Steps.optional fun _ => ?_) hb
  refine Steps.byte <| .bind (Steps.sendNrc _ _) fun _ => Steps.write .startPending ?_
  exact Steps.first .getTime fun _ => .act (.setCtx (.pendingSince _ _))

theorem handleChecked_obeys {service : Service W} {d : Sdu} {B : Prop} {b : Bool} (sid : UInt8)
    (hservice : Steps cfg B (service.handler d)) (hb : B → b = true) :
    Keeps (Obeys b) (handleChecked cfg service sid d) := by
  have hreject (nrc : UInt8) : Keeps (Obeys b) (reject cfg sid nrc) :=
    Steps.obeys (Steps.reject sid nrc) hb
  have hctx : Keeps (Obeys b) (getCtx (W := W)) := fun _ hs => hs
  have hgate : Keeps (Obeys b) (safetyGate cfg sid d) := Steps.obeys (Steps.safetyGate sid d) hb
  unfold handleChecked
  refine Keeps.ite (fun _ => hreject _) fun _ => ?_
  refine (obeys_composable b).bind hctx fun _ => Keeps.ite (fun _ => hreject _) fun _ => ?_
  refine (obeys_composable b).bind hgate fun _ => Keeps.ite (fun _ => hreject _) fun _ => ?_
  exact executeHandler_obeys hservice hb

theorem Keeps.judged_bind {β : Bool → Bool} {α γ : Type} {m : M W α} {f : α → M W γ}
    (hm : Keeps Quiet m) (hf : ∀ s, Keeps (Judged β) (f (m.value s))) :
    Keeps (Judged β) (m >>= f) :=
  fun s => (hm s).then_judged (hf s _)

theorem getCtx_quiet : Keeps (Quiet (W := W)) getCtx := fun _ => ⟨rfl, rfl⟩

theorem handleFound_judged {d : Sdu} {service : Service W} (sid : UInt8)
    (hsteps : Steps cfg (service.subMask.isSome = true ∧ SuppressBit d) (service.handler d)) :
    Keeps (Judged (flagFor service d)) (handleFound cfg service sid d) := by
  have hreject (nrc : UInt8) : Keeps (Judged (flagFor service d)) (reject cfg sid nrc) :=
    fun s => ((Steps.reject (B := True) sid nrc).noDispatch s).judged _
  unfold handleFound
  refine Keeps.ite (fun hsub => ?_) fun hsub => ?_
  · refine Keeps.ite (fun _ => hreject _) fun _ => Keeps.judged_bind (byteAt_quiet d 1) fun _ => ?_
    refine Keeps.ite (fun _ => hreject _) fun _ s _ => ?_
    have hflag : flagFor service d s.ctx.suppressPosResp = decide (SuppressBit d) := if_pos hsub
    rw [hflag]
    exact handleChecked_obeys sid hsteps (fun h => decide_eq_true h.2) _ rfl
  · intro s _
    have hflag : flagFor service d s.ctx.suppressPosResp = s.ctx.suppressPosResp := if_neg hsub
    rw [hflag]
    exact handleChecked_obeys sid hsteps (fun h => absurd h.1 hsub) s rfl

theorem judged_dispatch {β : Bool → Bool} {α : Type} {m : M W α} (bytes : List UInt8)
    (hm : Keeps (Judged β) m) : Keeps (Judged β) (emit (.dispatch bytes) >>= fun _ => m) := by
  rintro s ⟨sid, hsid⟩
  exact hm s ⟨sid, by simpa using hsid⟩

/-- Once a request is at the handler of its service, `flagFor` decides over its response. -/
theorem handleRequest_judged {d : Sdu} {service : Service W}
    (hservice : findService cfg (d.byte 0) = some service) :
    Keeps (Judged (flagFor service d)) (handleRequest cfg d) := by
  have hreject (nrc : UInt8) : Keeps (Judged (flagFor service d)) (reject cfg (d.byte 0) nrc) :=
    fun s => ((Steps.reject (B := True) _ nrc).noDispatch s).judged _
  unfold handleRequest
  refine judged_dispatch _ (Keeps.judged_bind (byteAt_quiet d 0) fun s => ?_)
  rw [show (byteAt d 0).value s = d.byte 0 from rfl, hservice]
  refine Keeps.judged_bind getCtx_quiet fun _ => Keeps.ite (fun _ => hreject _) fun _ => ?_
  exact handleFound_judged _ (service_steps hservice d)

theorem setCtx_quiet {f : Ctx → Ctx} (h : CtxWrite f) : Keeps (Quiet (W := W)) (setCtx f) :=
  fun s => ⟨h.suppressPosResp s.ctx, rfl⟩

theorem getTime_quiet : Keeps Quiet (getTime cfg) := fun _ => ⟨rfl, rfl⟩

theorem mutex_quiet (c : Callback) (call : Call) :
    Keeps Quiet (onlyIf (cfg.isSet c) (invokeVoid cfg call)) := by
  refine Keeps.ite (fun _ => ?_) fun _ _ => ⟨rfl, rfl⟩
  exact quiet_composable.bind (fun _ => ⟨rfl, rfl⟩) fun _ _ => ⟨rfl, rfl⟩

theorem inputMessage_judged {d : Sdu} {service : Service W}
    (hservice : findService cfg (d.byte 0) = some service) :
    Keeps (Judged (flagFor service d)) (inputMessage cfg d) := by
  have hnone {m : M W Unit} (h : Steps cfg True m) : Keeps (Judged (flagFor service d)) m :=
    fun s => (h.noDispatch s).judged _
  unfold inputMessage
  refine Keeps.judged_bind (byteAt_quiet d 0) fun _ => Keeps.judged_bind getTime_quiet fun _ => ?_
  refine Keeps.judged_bind (setCtx_quiet (.received _)) fun _ => ?_
  refine Keeps.judged_bind getCtx_quiet fun _ => Keeps.ite (fun _ => ?_) fun _ => ?_
  · exact hnone (.ite (fun _ => .pure ()) fun _ => Steps.reject _ _)
  refine Keeps.ite (fun _ => ?_) fun _ => ?_
  · exact hnone (.bind (Steps.runResponseCb d) fun _ => Steps.write .answered (.pure ()))
  · refine Keeps.judged_bind getTime_quiet fun _ => ?_
    exact Keeps.judged_bind (setCtx_quiet (.newRequest _)) fun _ => handleRequest_judged hservice

/-- If `uds_input_sdu` brings a request to the handler of its service, `flagFor` decides over
the response. -/
theorem inputSdu_judged {d : Sdu} {service : Service W}
    (hservice : findService cfg (d.byte 0) = some service) :
    Keeps (Judged (flagFor service d)) (inputSdu cfg (.bytes d)) := by
  unfold inputSdu
  refine Keeps.judged_bind (mutex_quiet _ _) fun _ s => ?_
  refine Judged.then_quiet ?_ (mutex_quiet .fnMutexUnlock .mutexUnlock _)
  exact Keeps.ite (fun _ => inputMessage_judged hservice)
    (fun _ t => (show NoDispatch t [] t from rfl).judged _) _

/-! ### The calls after it -/

/-- Unless a request is dispatched, the first verdict is the flag. -/
def ObeysBetween (b : Bool) (s : Sys W) (es : List Event) (t : Sys W) : Prop :=
  (∀ bytes, Event.dispatch bytes ∉ es) → Obeys b s es t

theorem obeysBetween_composable (b : Bool) : Composable (ObeysBetween (W := W) b) where
  refl _ _ hs := hs
  trans h hnext hes hs := by
    have hleft := h (fun bytes hm => hes bytes (List.mem_append_left _ hm)) hs
    exact hleft.append (hnext fun bytes hm => hes bytes (List.mem_append_right _ hm))

theorem Steps.between {B : Prop} {α : Type} {m : M W α} (h : Steps cfg B m) {b : Bool}
    (hb : B → b = true) : Keeps (ObeysBetween b) m :=
  fun s _ => h.obeys hb s

theorem handleRequest_between (b : Bool) (d : Sdu) :
    Keeps (ObeysBetween b) (handleRequest cfg d) :=
  fun _ hnone => absurd (List.mem_cons_self ..) (hnone d.bytes)

theorem inputMessage_between (b : Bool) (d : Sdu) :
    Keeps (ObeysBetween b) (inputMessage cfg d) := by
  have hR := obeysBetween_composable (W := W) b
  have hsteps {α : Type} {m : M W α} (h : Steps cfg False m) : Keeps (ObeysBetween b) m :=
    h.between False.elim
  unfold inputMessage
  refine hR.bind (hsteps (.act (.byteAt d 0))) fun _ => ?_
  refine hR.bind (hsteps (.act .getTime)) fun _ => ?_
  refine hR.bind (hsteps (.act (.setCtx (.received _)))) fun _ => ?_
  refine hR.bind (hsteps (.act (.reads _))) fun _ => Keeps.ite (fun _ => ?_) fun _ => ?_
  · exact hsteps (.ite (fun _ => .pure ()) fun _ => Steps.reject _ _)
  refine Keeps.ite (fun _ => ?_) fun _ => ?_
  · exact hsteps (.bind (Steps.runResponseCb d) fun _ => Steps.write .answered (.pure ()))
  · refine hR.bind (hsteps (.act .getTime)) fun _ => ?_
    exact hR.bind (hsteps (.act (.setCtx (.newRequest _)))) fun _ => handleRequest_between b d

theorem op_between (b : Bool) (op : Op W) : Keeps (ObeysBetween b) (op.prog cfg) := by
  have hR := obeysBetween_composable (W := W) b
  have hsteps {m : M W Unit} (h : Steps cfg False m) : Keeps (ObeysBetween b) m :=
    h.between False.elim
  cases op with
  | inputSdu data =>
    refine hR.bind (hsteps Steps.mutexLock) fun _ => ?_
    cases data with
    | null len => exact hsteps Steps.mutexUnlock
    | bytes d =>
      refine hR.bind (Keeps.ite (fun _ => inputMessage_between b d) fun _ => ?_) fun _ => ?_
      · exact hsteps (.pure ())
      · exact hsteps Steps.mutexUnlock
  | process => exact hsteps Steps.udsProcess
  | clientRequest sid data cb => exact hsteps (.bind (Steps.clientRequest _ _ _) fun _ => .pure ())
  | fill off bytes => exact hsteps (.act (.outside _ fun _ => rfl))
  | sendResponse len => exact hsteps (Steps.first (.sendResponse len) fun _ => .pure ())
  | sendNrc sid nrc => exact hsteps (.bind (Steps.sendNrc _ _) fun _ => .pure ())
  | elapse f => exact hsteps (.act (.outside _ fun _ => rfl))

theorem later_settled {b : Bool} {es : List Event} {s : Sys W} {later : List (Op W)}
    (h : Settled b es s)
    (hlater : ∀ bytes, Event.dispatch bytes ∉ trace (step cfg) s later) :
    Settled b (es ++ trace (step cfg) s later) (exec (step cfg) s later) := by
  apply h.append
  exact run_keeps (obeysBetween_composable b) (fun t op _ => op_between b op t)
    (Along.trivial s later) hlater

/-- Suppression is per request exactly for the services with sub-functions, and for the others
when the flag is clear: for every history of calls, a request that reaches its handler, and any
calls after it that dispatch no other request, the first verdict on a positive response is the
one that the request asks for if and only if its service has sub-functions or
`suppress_pos_resp` was clear before. -/
theorem suppression_per_request_iff (cfg : Config W) (s₀ : Sys W) (history : List (Op W))
    (d : Sdu) (service : Service W) (later : List (Op W)) (withheld : Bool)
    (hservice : findService cfg (d.byte 0) = some service)
    (hrun : let s := exec (step cfg) s₀ history
      ∃ sid, Event.handler sid ∈ (step cfg s (.inputSdu (.bytes d))).2)
    (hlater : let s := exec (step cfg) s₀ history
      ∀ bytes, Event.dispatch bytes ∉
        trace (step cfg) (step cfg s (.inputSdu (.bytes d))).1 later)
    (hverdict : let s := exec (step cfg) s₀ history
      firstVerdict (trace (step cfg) s (.inputSdu (.bytes d) :: later)) = some withheld) :
    (withheld = true ↔ service.subMask.isSome = true ∧ SuppressBit d) ↔
      (service.subMask.isSome = true ∨
        (exec (step cfg) s₀ history).ctx.suppressPosResp = false) := by
  dsimp only at hrun hlater hverdict
  generalize exec (step cfg) s₀ history = s at *
  have hhandled : Settled (flagFor service d s.ctx.suppressPosResp)
      (step cfg s (.inputSdu (.bytes d))).2 (step cfg s (.inputSdu (.bytes d))).1 :=
    inputSdu_judged hservice s hrun
  have hall := later_settled hhandled hlater
  have hv : withheld = flagFor service d s.ctx.suppressPosResp := by
    unfold Settled at hall
    rw [← trace_cons, hverdict] at hall
    exact hall
  rw [hv]
  unfold flagFor
  cases service.subMask.isSome with
  | true => simp
  | false => simp

/-- A stored DID of one byte. -/
def oneDidConfig : Config Unit :=
  { plainConfig with
    didTable :=
      [{ id := 0xF190, size := 1, sessionMask := 0, securityMask := 0, read := false,
         write := false, storage := some 0 }] }

def silentReset : Sdu := ⟨[0x11, 0x81], by decide⟩

def readVin : Sdu := ⟨[sidReadDataById, 0xF1, 0x90], by decide⟩

theorem first_read_sent :
    (false = true ↔ (none : Option (List UInt8)).isSome = true ∧ SuppressBit readVin) ↔
      ((none : Option (List UInt8)).isSome = true ∨
        (booted oneDidConfig).ctx.suppressPosResp = false) :=
  suppression_per_request_iff oneDidConfig (booted oneDidConfig) [] readVin
    (coreService sidReadDataById 3 (handleReadDataById oneDidConfig) none) [] false rfl
    ⟨0x22, by decide⟩ (fun _ => List.not_mem_nil) (by decide)

/-- After a suppressed reset, which leaves the flag set, the response of a read is withheld. -/
theorem read_withheld_after_reset :
    let s := exec (step oneDidConfig) (booted oneDidConfig) [.inputSdu (.bytes silentReset)]
    (findService oneDidConfig (readVin.byte 0)).map (fun service => service.subMask.isSome) =
        some false ∧
      Event.handler 0x22 ∈ (step oneDidConfig s (.inputSdu (.bytes readVin))).2 ∧
      firstVerdict (step oneDidConfig s (.inputSdu (.bytes readVin))).2 = some true := by
  decide

end UdsLib.Core
