import UdsLib.Core.Footprint

/-! What the stack leaves alone while it serves requests: no response callback runs, and nothing is sent
for the periodic scheduler. -/
namespace UdsLib.Core
open Bytes Machine Prog Services

variable {W : Type} {cfg : Config W} {d : Sdu} {s t : Sys W} {es fs : List Event}

/-- An event that is neither a response callback nor a message of the scheduler. -/
def Event.isServing : Event → Bool
  | .responseCb _ _ _ => false
  | .tpSend .periodic _ _ => false
  | _ => true

/-- All events are of that kind. -/
def Serves (_ : Sys W) (es : List Event) (_ : Sys W) : Prop := ∀ e ∈ es, e.isServing = true

theorem serves_composable : Composable (Serves (W := W)) where
  refl _ := nofun
  trans h hnext := List.forall_mem_append.mpr ⟨h, hnext⟩

theorem Serves.single {e : Event} (he : e.isServing = true) : Serves s [e] t :=
  List.forall_mem_singleton.mpr he

theorem Worked.serves (h : Worked s es t) : Serves s es t := by
  intro e he
  have hwork := h.events e he
  cases e with
  | tpSend origin data ret =>
    cases origin with
    | periodic => exact absurd hwork Bool.false_ne_true
    | _ => rfl
  | responseCb cb sid data => exact absurd hwork Bool.false_ne_true
  | _ => rfl

theorem around_serves (h : es.all Event.isAround = true) : Serves s es t :=
  around_forall h (fun _ => rfl) (fun _ => rfl) fun _ => rfl

theorem faults_serves (h : ∀ e ∈ es, ∃ f, e = .fault f) : Serves s es t := faults_forall h fun _ => rfl

theorem Gated.serves (h : Gated s es t) : Serves s es t := h.forall fun _ _ _ => rfl

theorem ticks_serve (h : ∀ e ∈ es, e.isTick = true) : Serves s es t := by
  intro e he
  have htick := h e he
  cases e with
  | tpSend origin data ret => exact absurd htick Bool.false_ne_true
  | responseCb cb sid data => exact absurd htick Bool.false_ne_true
  | _ => rfl

theorem mutexLock_serves : Keeps Serves (mutexLock cfg) := fun s => around_serves (mutexLock_around cfg s).2

theorem mutexUnlock_serves : Keeps Serves (mutexUnlock cfg) :=
  fun s => around_serves (mutexUnlock_around cfg s).2

theorem sendNrc_serves (sid nrc : UInt8) : Keeps Serves (sendNrc cfg sid nrc) :=
  fun s => (sendNrc_worked cfg sid nrc s).serves

theorem sendResponse_serves (len : UInt16) : Keeps Serves (sendResponse cfg len) :=
  fun s => (sendResponse_worked cfg len s).serves

theorem reject_serves (sid nrc : UInt8) : Keeps Serves (reject cfg sid nrc) :=
  serves_composable.discard (sendNrc_serves sid nrc)

theorem clientRequest_serves (sid : UInt8) (data : Buf) (cb : Option ℕ) :
    Keeps Serves (clientRequest cfg sid data cb) := by
  have hR : Composable (Serves (W := W)) := serves_composable
  have hwrite (off : ℕ) (bs : List UInt8) : Keeps Serves (writeTx cfg off bs) :=
    fun s => faults_serves fun _ => writeTx_faults s
  have hset : Keeps Serves (setCtx fun c => { c with pendingSid := sid, clientCb := cb } : M W Unit) :=
    fun _ => nofun
  have hsend (len : ℕ) : Keeps Serves (tpSend cfg .request len) := fun _ => .single rfl
  have hbody : Keeps Serves (requestBody cfg sid data cb) := by
    unfold requestBody
    apply Keeps.ite
    · exact fun _ => hR.refl
    intro _
    apply Keeps.ite
    · exact fun _ => hR.refl
    intro _
    apply hR.bind mutexLock_serves
    intro _
    apply hR.bind hset
    intro _
    apply hR.bind (hwrite 0 [sid])
    intro _
    apply hR.bind (hwrite 1 data.content)
    intro _
    apply hR.bind (hsend _)
    exact fun _ => hR.bind mutexUnlock_serves fun _ => hR.refl
  apply hR.bind hbody
  intro _
  apply hR.bind
  · exact fun _ => .single rfl
  · exact fun _ => hR.refl

theorem runApp_serves (p : AppProg W) : Keeps Serves (runApp cfg p) := by
  have hR : Composable (Serves (W := W)) := serves_composable
  induction p with
  | done res => exact hR.refl
  | look k ih => exact hR.bind hR.refl fun _ => ih _ _
  | put w k ih => exact hR.bind (fun _ => nofun) fun _ => ih
  | fill off bytes k ih => exact hR.bind (fun _ => nofun) fun _ => ih
  | sendResponse len k ih => exact hR.bind (sendResponse_serves len) fun _ => ih _
  | sendNrc sid nrc k ih => exact hR.bind (sendNrc_serves sid nrc) fun _ => ih _
  | clientRequest sid data cb k ih => exact hR.bind (clientRequest_serves sid data cb) fun _ => ih _

/-! ### Messages -/

theorem handler_serves {service : Service W} (hfound : findService cfg (d.byte 0) = some service) :
    Keeps Serves (service.handler d) := by
  rcases (findService_iff _ _).mp hfound with ⟨_, entry, _, -, -, -, rfl⟩ | ⟨-, hcore, -⟩
  · exact runApp_serves (entry.handler d)
  · exact fun s => ((coreServices_path d service hcore).worked s).serves

theorem executeHandler_serves {service : Service W} (hfound : findService cfg (d.byte 0) = some service) :
    Keeps Serves (executeHandler cfg service d) := by
  intro s
  have hR : Composable (Serves (W := W)) := serves_composable
  have hsplit : ∃ post, (executeHandler cfg service d).outputs s =
        .handler service.sid :: ((service.handler d).outputs s ++ post) ∧
      Serves ((service.handler d).final s) post ((executeHandler cfg service d).final s) := by
    apply executeHandler_split hR
    · exact fun s => faults_serves fun _ => byteAt_faults s
    · exact fun sid => sendNrc_serves sid _
    · exact fun _ => .single rfl
    · exact fun _ => nofun
    · exact fun _ _ _ => nofun
  obtain ⟨post, houtputs, hpost⟩ := hsplit
  rw [houtputs]
  exact List.forall_mem_cons.mpr ⟨rfl, List.forall_mem_append.mpr ⟨handler_serves hfound s, hpost⟩⟩

theorem handleRequest_serves (hne : d.bytes ≠ []) : Keeps Serves (handleRequest cfg d) := by
  intro s
  have hleads := handleRequest_leads cfg s hne
  cases hfail : firstFailing cfg s d with
  | none =>
    rw [hfail] at hleads
    obtain ⟨service, hfound, -, houtputs⟩ := hleads
    have hgate : Gated s _ (atHandler cfg service d s) := safetyGate_gated _
    have hgate' : Serves s ((safetyGate cfg (d.byte 0) d).outputs (flagged service d s)) s := hgate.serves
    rw [houtputs]
    exact List.forall_mem_cons.mpr ⟨rfl, List.forall_mem_append.mpr
      ⟨hgate', executeHandler_serves hfound _⟩⟩
  | some check =>
    rw [hfail] at hleads
    obtain ⟨es, t, hgate, -, -, houtputs⟩ := hleads
    rw [houtputs]
    exact List.forall_mem_cons.mpr ⟨rfl, List.forall_mem_append.mpr
      ⟨hgate.serves, reject_serves _ check.nrc t⟩⟩

theorem startRequest_serves (hne : d.bytes ≠ []) : Keeps Serves (startRequest cfg d) := by
  have hR : Composable (Serves (W := W)) := serves_composable
  apply hR.bind
  · exact fun _ => .single rfl
  intro _
  apply hR.bind
  · exact fun _ => nofun
  · exact fun _ => handleRequest_serves hne

theorem busyAnswer_serves : Keeps Serves (busyAnswer cfg d) :=
  Keeps.ite (fun _ => serves_composable.refl) fun _ => reject_serves _ _

/-- What holds of the treatment of a message holds of the call, if it holds of all that serves. -/
theorem Treats.forall {P : Event → Prop} {m : M W Unit} (h : Treats cfg s d m)
    (hserving : ∀ e, e.isServing = true → P e) (hm : ∀ e ∈ m.outputs (arrived cfg s), P e) :
    ∀ e ∈ (step cfg s (.inputSdu (.bytes d))).2, P e := by
  have hlock : Keeps Serves (mutexLock cfg) := mutexLock_serves
  have htime : Serves s ((getTime cfg).outputs ((mutexLock cfg).final s)) s := .single rfl
  have hunlock : Keeps Serves (mutexUnlock cfg) := mutexUnlock_serves
  rw [h.outputs]
  simp only [List.forall_mem_append]
  exact ⟨fun e he => hserving e (hlock s e he), fun e he => hserving e (htime e he), hm,
    fun e he => hserving e (hunlock _ e he)⟩

/-- A call without a message. -/
theorem ignored_serves {data : Buf} (hnone : ∀ d, data = .bytes d → d.bytes = []) :
    Serves s (step cfg s (.inputSdu data)).2 t := by
  rw [(step_ignored cfg s hnone).2]
  exact List.forall_mem_append.mpr ⟨mutexLock_serves s, mutexUnlock_serves _⟩

/-- A message that is not taken for a response. -/
theorem step_serves (h : ¬ (s.ctx.p2MsgPending = false ∧ takesAsAnswer s.ctx d)) (hne : d.bytes ≠ []) :
    Serves s (step cfg s (.inputSdu (.bytes d))).2 (step cfg s (.inputSdu (.bytes d))).1 := by
  cases hp : s.ctx.p2MsgPending with
  | true => exact (step_busy cfg hp hne).forall (fun _ => id) (busyAnswer_serves _)
  | false =>
    have hans : ¬ takesAsAnswer s.ctx d := fun hans => h ⟨hp, hans⟩
    exact (step_started cfg hp hans hne).forall (fun _ => id) (startRequest_serves hne _)

end UdsLib.Core
