import UdsLib.Core.Footprint

/-! The state of the application moves only where the stack calls out. What the clock, the callbacks,
`fn_tp_send` and the application's own code keep of it, every call of the public interface keeps. -/
namespace UdsLib.Core
open Bytes Machine Prog Services

variable {W : Type} {cfg : Config W} {d : Sdu} {R : W → List Event → W → Prop}

/-- The events inside the stack, which leave the state of the application alone, but for those that
open the treatment of a message. -/
def Event.isInside : Event → Bool
  | .call _ _ => false
  | .time _ => false
  | .tpSend _ _ _ => false
  | .dispatch _ => false
  | .responseCb _ _ _ => false
  | _ => true

/-- What opens the treatment of a message: it is dispatched, or taken for a response. -/
inductive Opening (d : Sdu) : List Event → Prop where
  | none : Opening d []
  | dispatch (hne : d.bytes ≠ []) : Opening d [.dispatch d.bytes]
  | response (hne : d.bytes ≠ []) (cb : ℕ) :
      Opening d [.responseCb cb (d.byte 0) (d.slice 1 (d.bytes.length - 1))]

/-- The states of the application are related, whatever becomes of the stack's own. -/
def Traced (R : W → List Event → W → Prop) (s : Sys W) (es : List Event) (t : Sys W) : Prop :=
  R s.world es t.world

/-- The same around the opening of a message. -/
def Opened (R : W → List Event → W → Prop) (d : Sdu) (s : Sys W) (es : List Event) (t : Sys W) :
    Prop :=
  ∃ pre opening post w, es = pre ++ (opening ++ post) ∧ R s.world pre w ∧ Opening d opening ∧
    R w post t.world

/-- A relation between states of the application, with the events in between, that every way out
of the stack keeps. -/
structure WorldRule (cfg : Config W) (R : W → List Event → W → Prop) : Prop where
  refl : ∀ w, R w [] w
  trans : ∀ {w es v fs u}, R w es v → R v fs u → R w (es ++ fs) u
  inside : ∀ w e, e.isInside = true → R w [e] w
  time : ∀ w, R w [.time (cfg.getTimeMs w).1] (cfg.getTimeMs w).2
  call : ∀ c call w, R w [.call call (cfg.app c call w).1.ret] (cfg.app c call w).2
  send : ∀ c origin data w, data.length < 65536 →
    R w [.tpSend origin data (cfg.fnTpSend c data w).1] (cfg.fnTpSend c data w).2

/-- The application's own code, the user services and the client callbacks, keeps the relation. -/
structure WorldCode (cfg : Config W) (R : W → List Event → W → Prop) : Prop extends
    WorldRule cfg R where
  user : ∀ entry ∈ cfg.userServices, ∀ d, Keeps (Traced R) (runApp cfg (entry.handler d))
  response : ∀ cb sid data, Keeps (Traced R) (runApp cfg (cfg.responseCb cb sid data))

namespace WorldRule

variable (h : WorldRule cfg R)
include h

theorem composable : Composable (Traced R) where
  refl s := h.refl s.world
  trans hs ht := h.trans hs ht

/-- Only events inside the stack in between. -/
theorem insides {s t : Sys W} {es : List Event} (hworld : t.world = s.world)
    (hes : ∀ e ∈ es, e.isInside = true) : Traced R s es t := by
  unfold Traced
  rw [hworld]
  induction es with
  | nil => exact h.refl _
  | cons e es ih =>
    obtain ⟨he, hes⟩ := List.forall_mem_cons.mp hes
    exact h.trans (h.inside _ e he) (ih hes)

theorem faults {s t : Sys W} {es : List Event} (hworld : t.world = s.world)
    (hes : ∀ e ∈ es, ∃ f, e = .fault f) : Traced R s es t :=
  h.insides hworld (faults_forall hes fun _ => rfl)

theorem emit {e : Event} (he : e.isInside = true) : Keeps (Traced R) (emit e : M W Unit) := fun s =>
  h.inside s.world e he

theorem optional {c : Prop} [Decidable c] {m : M W Unit} (hm : Keeps (Traced R) m) :
    Keeps (Traced R) (onlyIf c m) :=
  Keeps.ite (fun _ => hm) fun _ => h.composable.refl

theorem setCtx (g : Ctx → Ctx) : Keeps (Traced R) (setCtx g) := fun s => h.refl s.world

theorem byteAt (i : ℕ) : Keeps (Traced R) (byteAt d i) := fun s =>
  h.faults rfl fun _ => byteAt_faults s

theorem writeTx (off : ℕ) (bs : List UInt8) : Keeps (Traced R) (writeTx cfg off bs) := fun s =>
  h.faults rfl fun _ => writeTx_faults s

theorem getTime : Keeps (Traced R) (getTime cfg) := fun s => h.time s.world

theorem invoke (c : Call) : Keeps (Traced R) (invoke cfg c) := fun s => h.call s.ctx c s.world

theorem invokeVoid (c : Call) : Keeps (Traced R) (invokeVoid cfg c) := h.composable.discard (h.invoke c)

theorem internalLog (level : UInt8) (msg : String) : Keeps (Traced R) (internalLog cfg level msg) :=
  h.optional (h.invokeVoid _)

theorem mutexLock : Keeps (Traced R) (mutexLock cfg) := h.optional (h.invokeVoid _)

theorem mutexUnlock : Keeps (Traced R) (mutexUnlock cfg) := h.optional (h.invokeVoid _)

theorem tpSend (origin : Origin) {len : ℕ} (hlen : len < 65536) :
    Keeps (Traced R) (tpSend cfg origin len) := by
  intro s
  apply h.send s.ctx origin (slice s.tx 0 len) s.world
  rwa [slice_length]

theorem sendNrc (sid nrc : UInt8) : Keeps (Traced R) (sendNrc cfg sid nrc) := by
  have hR := h.composable
  unfold Core.sendNrc
  apply Keeps.ite
  · exact fun _ => hR.refl
  intro _
  apply keeps_ctx
  intro c
  apply hR.bind (h.optional (h.setCtx _))
  intro _
  apply hR.bind (h.writeTx _ _)
  exact fun _ => h.tpSend _ (by decide)

theorem reject (sid nrc : UInt8) : Keeps (Traced R) (reject cfg sid nrc) :=
  h.composable.discard (h.sendNrc sid nrc)

theorem sendResponse (len : UInt16) : Keeps (Traced R) (sendResponse cfg len) := by
  have hR := h.composable
  unfold Core.sendResponse
  apply Keeps.ite
  · exact fun _ => hR.refl
  intro _
  apply hR.bind (h.setCtx _)
  intro _
  apply keeps_ctx
  intro c
  apply Keeps.ite
  · intro _
    apply hR.bind (h.setCtx _)
    intro _
    apply hR.bind
    · exact h.emit rfl
    · exact fun _ => hR.refl
  · intro _
    apply hR.bind (h.setCtx _)
    exact fun _ => h.tpSend _ len.toNat_lt

theorem clientRequest (sid : UInt8) (data : Buf) (cb : Option ℕ) :
    Keeps (Traced R) (clientRequest cfg sid data cb) := by
  have hR := h.composable
  have hbody : Keeps (Traced R) (requestBody cfg sid data cb) := by
    unfold requestBody
    apply Keeps.ite
    · exact fun _ => hR.refl
    intro _
    apply Keeps.ite
    · exact fun _ => hR.refl
    intro hfits
    have hlen := cfg.txBufferSize.toNat_lt
    apply hR.bind h.mutexLock
    intro _
    apply hR.bind (h.setCtx _)
    intro _
    apply hR.bind (h.writeTx _ _)
    intro _
    apply hR.bind (h.writeTx _ _)
    intro _
    apply hR.bind (h.tpSend _ (by omega))
    exact fun _ => hR.bind h.mutexUnlock fun _ => hR.refl
  apply hR.bind hbody
  intro _
  apply hR.bind
  · exact h.emit rfl
  · exact fun _ => hR.refl

theorem safetyGate (sid : UInt8) : Keeps (Traced R) (safetyGate cfg sid d) :=
  Keeps.ite (fun _ => h.composable.refl) fun _ =>
    h.composable.bind (h.invoke _) fun _ => h.composable.refl

theorem maskAdmits (shift mask : UInt32) : Keeps (Traced R) (maskAdmits shift mask) :=
  h.composable.bind (h.optional (h.emit rfl)) fun _ => h.composable.refl

/-- The handlers of the core services. -/
theorem deed {sid : UInt8} {α : Type} {m : M W α} (hm : Deed cfg d sid α m) :
    Keeps (Traced R) m := by
  have hR := h.composable
  cases hm with
  | reads f => exact hR.refl
  | getTime => exact h.getTime
  | byteAt hi => exact h.byteAt _
  | bytesAt hn => exact fun s => h.faults rfl fun _ => bytesAt_faults s
  | invoke hcall => exact h.invoke _
  | sessionRefused entry hsid =>
    apply Keeps.ite
    · exact fun _ => hR.refl
    · exact fun _ => keeps_ctx fun c => hR.bind (h.maskAdmits _ _) fun _ => hR.refl
  | securityRefused entry hsid =>
    apply Keeps.ite
    · exact fun _ => hR.refl
    · exact fun _ => keeps_ctx fun c => hR.bind (h.maskAdmits _ _) fun _ => hR.refl
  | writeTx off bs => exact h.writeTx off bs
  | setCtx hg => exact h.setCtx _
  | writeMem addr bs => exact fun s => h.refl s.world
  | sendNrc nrc => exact h.sendNrc _ nrc
  | sendResponse len => exact h.sendResponse len
  | withhold => exact h.emit rfl

theorem schedule (now : UInt32) (i : Fin 8) : Keeps (Traced R) (schedule cfg now i) := by
  have hR := h.composable
  unfold Core.schedule
  apply keeps_ctx
  intro c
  apply h.optional
  apply hR.bind (h.invoke _)
  intro _
  apply hR.bind
  · apply h.optional
    apply hR.bind (h.optional (h.emit rfl))
    intro _
    apply hR.bind (h.writeTx _ _)
    intro _
    apply hR.bind (h.writeTx _ _)
    exact fun _ => hR.discard (h.tpSend _ (lenOf _).toNat_lt)
  · exact fun _ => h.setCtx _

theorem scheduleAll (now : UInt32) (is : List (Fin 8)) :
    Keeps (Traced R) (scheduleAll cfg now is) := by
  induction is with
  | nil => exact h.composable.refl
  | cons i is ih => exact h.composable.bind (h.schedule now i) fun _ => ih

theorem udsProcess : Keeps (Traced R) (udsProcess cfg) := by
  have hR := h.composable
  have hfinish (now : UInt32) : Keeps (Traced R) (finishProcess cfg now) :=
    keeps_ctx fun c => hR.bind (h.optional (h.scheduleAll now _)) fun _ => h.mutexUnlock
  unfold Core.udsProcess
  apply hR.bind h.mutexLock
  intro _
  apply hR.bind h.getTime
  intro _
  apply hR.bind
  · exact keeps_ctx fun c => h.optional (hR.bind (h.setCtx _) fun _ => h.internalLog _ _)
  intro _
  apply keeps_ctx
  intro c
  apply Keeps.ite
  · intro _
    apply Keeps.ite
    · exact fun _ => hR.bind (h.sendNrc _ _) fun _ => hR.bind (h.setCtx _) fun _ => hR.refl
    · exact fun _ => hR.bind (h.sendNrc _ _) fun _ => hR.bind (h.setCtx _) fun _ => hfinish _
  · exact fun _ => hfinish _

end WorldRule

namespace WorldCode

variable (h : WorldCode cfg R)
include h

theorem handler {service : Service W} {sid : UInt8} (hfound : findService cfg sid = some service)
    (hlen : service.minLen.toNat ≤ d.bytes.length) : Keeps (Traced R) (service.handler d) := by
  unfold findService at hfound
  split at hfound
  next entry hentry =>
    obtain rfl := Option.some.inj hfound
    exact h.user entry (List.mem_of_find?_eq_some hentry) d
  next =>
    have hdeeds := coreServices_deeds service (List.mem_of_find?_eq_some hfound) hlen
    exact hdeeds.keeps h.composable fun _ _ => h.deed

theorem executeHandler {service : Service W} (hservice : Keeps (Traced R) (service.handler d)) :
    Keeps (Traced R) (executeHandler cfg service d) := by
  have hR := h.composable
  unfold Core.executeHandler
  apply hR.bind
  · exact h.emit rfl
  intro _
  apply hR.bind hservice
  intro _
  apply h.optional
  apply hR.bind (h.byteAt 0)
  intro _
  apply hR.bind (h.sendNrc _ _)
  intro _
  apply hR.bind (h.setCtx _)
  intro _
  exact hR.bind h.getTime fun _ => h.setCtx _

theorem handleChecked {service : Service W} {sid : UInt8}
    (hfound : findService cfg sid = some service) :
    Keeps (Traced R) (handleChecked cfg service sid d) := by
  have hR := h.composable
  unfold Core.handleChecked
  apply Keeps.ite
  · exact fun _ => h.reject _ _
  intro hlong
  have hlen : service.minLen.toNat ≤ d.bytes.length := by
    rw [len_lt_iff] at hlong
    exact Nat.not_lt.mp hlong
  apply keeps_ctx
  intro c
  apply Keeps.ite
  · exact fun _ => h.reject _ _
  intro _
  apply hR.bind (h.safetyGate _)
  intro _
  apply Keeps.ite
  · exact fun _ => h.reject _ _
  · exact fun _ => h.executeHandler (h.handler hfound hlen)

theorem before {α β : Type} {m : M W α} {f : α → M W β} (hm : Keeps (Traced R) m)
    (hf : ∀ s, Keeps (Opened R d) (f (m.value s))) : Keeps (Opened R d) (m >>= f) := by
  intro s
  obtain ⟨pre, opening, post, w, hes, hpre, hopening, hpost⟩ := hf s (m.final s)
  refine ⟨m.outputs s ++ pre, opening, post, w, ?_, h.trans (hm s) hpre, hopening, hpost⟩
  rw [outputs_bind, hes, List.append_assoc]

theorem after {α β : Type} {m : M W α} {f : α → M W β} (hm : Keeps (Opened R d) m)
    (hf : ∀ a, Keeps (Traced R) (f a)) : Keeps (Opened R d) (m >>= f) := by
  intro s
  obtain ⟨pre, opening, post, w, hes, hpre, hopening, hpost⟩ := hm s
  refine ⟨pre, opening, post ++ (f (m.value s)).outputs (m.final s), w, ?_, hpre, hopening,
    h.trans hpost (hf _ _)⟩
  rw [outputs_bind, hes]
  simp only [List.append_assoc]

theorem unopened {α : Type} {m : M W α} (hm : Keeps (Traced R) m) : Keeps (Opened R d) m := fun s =>
  ⟨m.outputs s, [], [], _, (List.append_nil _).symm, hm s, .none, h.refl _⟩

/-- The event that opens the treatment stands in front of it. -/
theorem opens {e : Event} {m : M W Unit} (he : Opening d [e]) (hm : Keeps (Traced R) m) :
    Keeps (Opened R d) (emit e >>= fun _ => m) := fun s =>
  ⟨[], [e], m.outputs s, s.world, rfl, h.refl _, he, hm s⟩

theorem handleRequest (hne : d.bytes ≠ []) : Keeps (Opened R d) (handleRequest cfg d) := by
  have hR := h.composable
  apply h.opens (.dispatch hne)
  apply hR.bind (h.byteAt 0)
  intro t
  split
  next service hfound =>
    apply keeps_ctx
    intro c
    apply Keeps.ite
    · exact fun _ => h.reject _ _
    intro _
    unfold handleFound
    apply Keeps.ite
    · intro _
      apply Keeps.ite
      · exact fun _ => h.reject _ _
      intro _
      apply hR.bind (h.byteAt 1)
      intro _
      apply Keeps.ite
      · exact fun _ => h.reject _ _
      · exact fun _ => hR.bind (h.setCtx _) fun _ => h.handleChecked hfound
    · exact fun _ => h.handleChecked hfound
  next => exact h.reject _ _

theorem runResponseCb (hne : d.bytes ≠ []) : Keeps (Opened R d) (runResponseCb cfg d) := by
  have hR := h.composable
  unfold Core.runResponseCb
  apply h.before (m := getCtx) hR.refl
  intro s
  split
  · exact h.unopened hR.refl
  next cb hcb =>
    apply h.opens (.response hne cb)
    exact hR.bind (h.response _ _ _) fun _ => h.setCtx _

theorem inputMessage (hne : d.bytes ≠ []) : Keeps (Opened R d) (inputMessage cfg d) := by
  have hR := h.composable
  unfold Core.inputMessage
  apply h.before (h.byteAt 0)
  intro _
  apply h.before h.getTime
  intro _
  apply h.before (h.setCtx _)
  intro _
  apply h.before (m := getCtx) hR.refl
  intro _
  apply Keeps.ite
  · exact fun _ => h.unopened (Keeps.ite (fun _ => hR.refl) fun _ => h.reject _ _)
  intro _
  apply Keeps.ite
  · exact fun _ => h.after (h.runResponseCb hne) fun _ => hR.bind (h.setCtx _) fun _ => hR.refl
  · intro _
    apply h.before h.getTime
    intro _
    exact h.before (h.setCtx _) fun _ => h.handleRequest hne

/-- A message is opened at most once, and the relation holds in front of the opening and behind. -/
theorem inputSdu (d : Sdu) (s : Sys W) :
    Opened R d s (step cfg s (.inputSdu (.bytes d))).2 (step cfg s (.inputSdu (.bytes d))).1 := by
  have hR := h.composable
  have hmessage : Keeps (Opened R d) (onlyIf (d.bytes ≠ []) (Core.inputMessage cfg d)) :=
    Keeps.ite h.inputMessage fun _ => h.unopened hR.refl
  suffices hkeeps : Keeps (Opened R d) (Core.inputSdu cfg (.bytes d)) from hkeeps s
  apply h.before h.mutexLock
  intro _
  exact h.after hmessage fun _ => h.mutexUnlock

/-- A call that brings no message keeps the relation. -/
theorem call_keeps (op : Op W) (hop : ∀ d, op ≠ .inputSdu (.bytes d))
    (helapse : ∀ f, op = .elapse f → ∀ w, R w [] (f w)) (s : Sys W) :
    R s.world (step cfg s op).2 (step cfg s op).1.world := by
  have hR := h.composable
  suffices hkeeps : Keeps (Traced R) (op.prog cfg) from hkeeps s
  cases op with
  | inputSdu data =>
    cases data with
    | null len => exact hR.bind h.mutexLock fun _ => h.mutexUnlock
    | bytes d => exact absurd rfl (hop d)
  | process => exact h.udsProcess
  | clientRequest sid data cb => exact hR.discard (h.clientRequest sid data cb)
  | fill off bytes => exact hR.refl
  | sendResponse len => exact hR.discard (h.sendResponse len)
  | sendNrc sid nrc => exact hR.discard (h.sendNrc sid nrc)
  | elapse f => exact fun s => helapse f rfl s.world

/-- What every call of the public interface does to the state of the application, where an opening
makes no difference. -/
theorem step_keeps (hopening : ∀ d w opening, Opening d opening → R w opening w) (op : Op W)
    (helapse : ∀ f, op = .elapse f → ∀ w, R w [] (f w)) (s : Sys W) :
    R s.world (step cfg s op).2 (step cfg s op).1.world := by
  by_cases hop : ∀ d, op ≠ .inputSdu (.bytes d)
  · exact h.call_keeps op hop helapse s
  · obtain ⟨d, hd⟩ := not_forall.mp hop
    obtain rfl := not_not.mp hd
    obtain ⟨pre, opening, post, w, hes, hpre, hopen, hpost⟩ := h.inputSdu d s
    rw [hes]
    exact h.trans hpre (h.trans (hopening d w opening hopen) hpost)

end WorldCode

end UdsLib.Core
