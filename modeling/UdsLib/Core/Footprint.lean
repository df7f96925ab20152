import UdsLib.Core.Roles
import UdsLib.Services.Deeds

/-! What a call of the public interface does, seen from the handlers of the core services: it is
the work of one handler with little around it, or the timers of `uds_process`, or neither. -/
namespace UdsLib.Core
open Bytes Machine Prog Services

variable {W : Type} {cfg : Config W} {d : Sdu} {s t u : Sys W} {es fs : List Event}

/-- The fields of the context that handlers work on. -/
structure Store where
  activeSession : UInt8
  securityLevel : UInt8
  commState : UInt8
  flashSequence : UInt8
  securityDelayEnd : UInt32
  securityAttempts : UInt8
  periodicIds : Fin 8 → UInt8
  periodicRates : Fin 8 → UInt8
  periodicCount : UInt8

def Ctx.store (c : Ctx) : Store where
  activeSession := c.activeSession
  securityLevel := c.securityLevel
  commState := c.commState
  flashSequence := c.flashSequence
  securityDelayEnd := c.securityDelayEnd
  securityAttempts := c.securityAttempts
  periodicIds := c.periodicIds
  periodicRates := c.periodicRates
  periodicCount := c.periodicCount

/-- The calls that are made around the handlers for a message. -/
def Call.isSurround (d : Sdu) (c : Call) : Prop :=
  c.isLock = true ∨ (∃ level msg, c = .log level msg) ∨
    ∃ sid, c = .isSafe sid (d.slice 0 d.bytes.length)

/-- The events around the handlers for a message. -/
def Surround (cfg : Config W) (d : Sdu) : Event → Prop
  | .call c _ => Configured cfg c ∧ c.isSurround d
  | .responseCb _ _ data => data = d.slice 1 (d.bytes.length - 1)
  | .fault _ => False
  | _ => True

/-- Nothing changes that handlers work on, and the events are those around them. -/
structure Outside (cfg : Config W) (d : Sdu) (s : Sys W) (es : List Event) (t : Sys W) :
    Prop where
  store : t.ctx.store = s.ctx.store
  events : ∀ e ∈ es, Surround cfg d e

/-- The events of the handler of the service `sid` on the request `d`. -/
def OfHandler (cfg : Config W) (d : Sdu) (sid : UInt8) : Event → Prop
  | .time _ => True
  | .withheld => True
  | .tpSend origin _ _ => origin = .response ∨ origin = .nrc
  | .call c _ => Allowed cfg d sid c
  | .fault (.txWrite _) => True
  | .fault (.shift _) => TestsMasks sid
  | _ => False

/-- What a handler of the service `sid` can do: its events are those of its service, and what
belongs to other services stays. -/
structure Work (cfg : Config W) (d : Sdu) (sid : UInt8) (s : Sys W) (es : List Event)
    (t : Sys W) : Prop where
  events : ∀ e ∈ es, OfHandler cfg d sid e
  pair : MayPair sid ∨ t.ctx.pair = s.ctx.pair
  transfer : MovesBlocks sid ∨ t.ctx.flashSequence = s.ctx.flashSequence
  lockout : sid = sidSecurityAccess ∨ t.ctx.securityDelayEnd = s.ctx.securityDelayEnd ∧
    t.ctx.securityAttempts = s.ctx.securityAttempts
  registry : sid = sidReadByPerId ∨ t.ctx.periodicIds = s.ctx.periodicIds ∧
    t.ctx.periodicCount = s.ctx.periodicCount

/-- The empty message. -/
def noMessage : Sdu := ⟨[], by decide⟩

/-- The message that an operation brings. -/
def Op.sdu : Op W → Sdu
  | .inputSdu (.bytes d) => d
  | _ => noMessage

/-- The events of `uds_process`: the scheduler is at work only while an id is registered. -/
def OfProcess (cfg : Config W) (s : Sys W) (e : Event) : Prop :=
  Surround cfg noMessage e ∨ (∃ i, s.ctx.periodicIds i ≠ 0) ∧ e.isPeriodic = true

/-- The handler of a core service runs on the message, from the state `u` to the state `v`. No user
service stands in its place. -/
structure Runs (cfg : Config W) (s : Sys W) (d : Sdu) (service : Service W) (u v : Sys W)
    (es : List Event) : Prop where
  core : service ∈ coreServices cfg
  own : ∀ entry ∈ cfg.userServices, entry.sid ≠ d.byte 0
  sid : service.sid = d.byte 0
  reached : reached cfg d s = some service
  nonempty : d.bytes ≠ []
  idle : s.ctx.p2MsgPending = false
  request : ¬ takesAsAnswer s.ctx d
  length : service.minLen.toNat ≤ d.bytes.length
  start : u = atHandler cfg service d (entered cfg s)
  final : v = (service.handler d).final u
  outputs : es = (service.handler d).outputs u
  work : Work cfg d service.sid u es v

/-- What a call does to what handlers work on. -/
inductive Footprint (cfg : Config W) (s : Sys W) (op : Op W) (es : List Event) (t : Sys W) :
    Prop where
  | outside (h : Outside cfg op.sdu s es t)
  | process (hop : op = .process)
      (hstore : t.ctx.store = s.ctx.store ∨ s3Passed s.ctx (processTime cfg s) ∧
        t.ctx.store =
          { s.ctx.store with activeSession := sessionIdDefault, securityLevel := 0 })
      (hevents : ∀ e ∈ es, OfProcess cfg s e)
  | handler (d : Sdu) (service : Service W) (pre mid post : List Event) (u v : Sys W)
      (hop : op = .inputSdu (.bytes d)) (hruns : Runs cfg s d service u v mid)
      (hes : es = pre ++ (mid ++ post)) (hpre : Outside cfg d s pre u)
      (hpost : Outside cfg d v post t)

/-! ### Around the handlers -/

theorem outside_composable : Composable (Outside cfg d) where
  refl _ := ⟨rfl, nofun⟩
  trans h hnext := by
    constructor
    · exact hnext.store.trans h.store
    · exact List.forall_mem_append.mpr ⟨h.events, hnext.events⟩

theorem Outside.single {e : Event} (hstore : t.ctx.store = s.ctx.store) (he : Surround cfg d e) :
    Outside cfg d s [e] t :=
  ⟨hstore, fun _ hx => List.mem_singleton.mp hx ▸ he⟩

theorem setCtx_outside {g : Ctx → Ctx} (hg : ∀ c, (g c).store = c.store) :
    Keeps (Outside cfg d) (setCtx g) :=
  fun s => ⟨hg s.ctx, nofun⟩

theorem writeTx_outside {off : ℕ} {bs : List UInt8}
    (hfits : bs = [] ∨ off + bs.length ≤ cfg.txBufferSize.toNat) :
    Keeps (Outside cfg d) (writeTx cfg off bs) := by
  intro s
  have houtputs : (writeTx cfg off bs).outputs s = [] := if_pos hfits
  rw [houtputs]
  exact ⟨rfl, nofun⟩

theorem optional_outside {p : Prop} [Decidable p] {m : M W Unit}
    (hm : p → Keeps (Outside cfg d) m) : Keeps (Outside cfg d) (onlyIf p m) :=
  Keeps.ite hm fun _ => outside_composable.refl

theorem keeps_ctx {α : Type} {R : Sys W → List Event → Sys W → Prop} {f : Ctx → M W α}
    (hf : ∀ c, Keeps R (f c)) : Keeps R (getCtx >>= f) :=
  fun s => hf s.ctx s

theorem callVoid_outside {call : Call} (hset : Configured cfg call) (hcall : call.isSurround d) :
    Keeps (Outside cfg d) (invokeVoid cfg call) :=
  outside_composable.discard fun _ => .single rfl ⟨hset, hcall⟩

theorem internalLog_outside (level : UInt8) (msg : String) :
    Keeps (Outside cfg d) (internalLog cfg level msg) :=
  optional_outside fun h => callVoid_outside h.1 (.inr (.inl ⟨level, msg, rfl⟩))

theorem mutexLock_outside : Keeps (Outside cfg d) (mutexLock cfg) :=
  optional_outside fun h => callVoid_outside h (.inl rfl)

theorem mutexUnlock_outside : Keeps (Outside cfg d) (mutexUnlock cfg) :=
  optional_outside fun h => callVoid_outside h (.inl rfl)

theorem safetyGate_outside (sid : UInt8) : Keeps (Outside cfg d) (safetyGate cfg sid d) := by
  have hR : Composable (Outside cfg d) := outside_composable
  apply Keeps.ite
  · exact fun _ => hR.refl
  · intro hset
    apply hR.bind
    · exact fun s => .single rfl ⟨not_not.mp hset, .inr (.inr ⟨sid, rfl⟩)⟩
    · exact fun _ => hR.refl

theorem sendNrc_outside (sid nrc : UInt8) : Keeps (Outside cfg d) (sendNrc cfg sid nrc) := by
  have hR : Composable (Outside cfg d) := outside_composable
  unfold sendNrc
  apply Keeps.ite
  · exact fun _ => hR.refl
  intro hfits
  have hroom : 3 ≤ cfg.txBufferSize.toNat :=
    UInt16.le_iff_toNat_le.mp (UInt16.not_lt.mp hfits)
  apply keeps_ctx
  intro c
  apply hR.bind
  · exact optional_outside fun _ => setCtx_outside fun _ => rfl
  intro _
  apply hR.bind (writeTx_outside (.inr hroom))
  exact fun _ s => .single rfl trivial

theorem reject_outside (sid nrc : UInt8) : Keeps (Outside cfg d) (reject cfg sid nrc) :=
  outside_composable.discard (sendNrc_outside sid nrc)

theorem sendResponse_outside (len : UInt16) : Keeps (Outside cfg d) (sendResponse cfg len) := by
  apply sendResponse_keeps
  · exact outside_composable.refl
  · exact fun _ => .single rfl trivial
  · exact fun _ _ _ => .single rfl trivial

/-- The copy of a client request fits, because its length is checked. -/
theorem clientRequest_outside (sid : UInt8) (data : Buf) (cb : Option ℕ) :
    Keeps (Outside cfg d) (clientRequest cfg sid data cb) := by
  have hR : Composable (Outside cfg d) := outside_composable
  have hbody : Keeps (Outside cfg d) (requestBody cfg sid data cb) := by
    unfold requestBody
    apply Keeps.ite
    · exact fun _ => hR.refl
    intro _
    apply Keeps.ite
    · exact fun _ => hR.refl
    intro hfits
    have hcopy : data.content = [] ∨ 1 + data.content.length ≤ cfg.txBufferSize.toNat := by
      cases data with
      | null len => exact .inl rfl
      | bytes message =>
        right
        have hlen : (Buf.bytes message).len.toNat = message.bytes.length := message.len_toNat
        rw [hlen] at hfits
        change 1 + message.bytes.length ≤ cfg.txBufferSize.toNat
        omega
    apply hR.bind mutexLock_outside
    intro _
    apply hR.bind
    · exact setCtx_outside fun _ => rfl
    intro _
    apply hR.bind (writeTx_outside (.inr (by simp; omega)))
    intro _
    apply hR.bind (writeTx_outside hcopy)
    intro _
    apply hR.bind
    · exact fun _ => .single rfl trivial
    · exact fun _ => hR.bind mutexUnlock_outside fun _ => hR.refl
  apply hR.bind hbody
  intro _
  apply hR.bind
  · exact fun _ => .single rfl trivial
  · exact fun _ => hR.refl

theorem runApp_outside (p : AppProg W) : Keeps (Outside cfg d) (runApp cfg p) := by
  have hR : Composable (Outside cfg d) := outside_composable
  induction p with
  | done res => exact hR.refl
  | look k ih => exact hR.bind hR.refl fun _ => ih _ _
  | put w k ih => exact hR.bind (fun _ => ⟨rfl, nofun⟩) fun _ => ih
  | fill off bytes k ih => exact hR.bind (fun _ => ⟨rfl, nofun⟩) fun _ => ih
  | sendResponse len k ih => exact hR.bind (sendResponse_outside len) fun _ => ih _
  | sendNrc sid nrc k ih => exact hR.bind (sendNrc_outside sid nrc) fun _ => ih _
  | clientRequest sid data cb k ih =>
    exact hR.bind (clientRequest_outside sid data cb) fun _ => ih _

theorem takeAnswer_outside : Keeps (Outside cfg d) (takeAnswer cfg d) := by
  have hR : Composable (Outside cfg d) := outside_composable
  apply hR.bind
  · unfold runResponseCb
    apply keeps_ctx
    intro _
    split
    · exact hR.refl
    apply hR.bind
    · exact fun _ => .single rfl rfl
    · exact fun _ => hR.bind (runApp_outside _) fun _ => setCtx_outside fun _ => rfl
  · exact fun _ => setCtx_outside fun _ => rfl

theorem busyAnswer_outside : Keeps (Outside cfg d) (busyAnswer cfg d) :=
  Keeps.ite (fun _ => outside_composable.refl) fun _ => reject_outside _ _

/-- `execute_handler` is the handler with little around it. -/
theorem executeHandler_outside (cfg : Config W) (service : Service W) (hne : d.bytes ≠ []) (s : Sys W) :
    ∃ post, (executeHandler cfg service d).outputs s =
        .handler service.sid :: ((service.handler d).outputs s ++ post) ∧
      Outside cfg d ((service.handler d).final s) post
        ((executeHandler cfg service d).final s) := by
  have hR : Composable (Outside cfg d) := outside_composable
  have hbyte : Keeps (Outside cfg d) (byteAt d 0) := by
    intro t
    have houtputs : (byteAt d 0).outputs t = [] := if_pos (List.length_pos_iff.mpr hne)
    rw [houtputs]
    exact hR.refl t
  apply executeHandler_split hR hbyte
  · exact fun _ => sendNrc_outside _ _
  · exact fun _ => .single rfl trivial
  · exact setCtx_outside fun _ => rfl
  · exact fun _ _ => setCtx_outside fun _ => rfl

/-! ### The handlers -/

variable {sid : UInt8}

theorem work_composable : Composable (Work cfg d sid) where
  refl _ := ⟨nofun, .inr rfl, .inr rfl, .inr ⟨rfl, rfl⟩, .inr ⟨rfl, rfl⟩⟩
  trans h hnext := by
    constructor
    · exact List.forall_mem_append.mpr ⟨h.events, hnext.events⟩
    · exact h.pair.elim .inl fun hs => hnext.pair.imp_right fun ht => ht.trans hs
    · exact h.transfer.elim .inl fun hs => hnext.transfer.imp_right fun ht => ht.trans hs
    · exact h.lockout.elim .inl fun hs =>
        hnext.lockout.imp_right fun ht => ⟨ht.1.trans hs.1, ht.2.trans hs.2⟩
    · exact h.registry.elim .inl fun hs =>
        hnext.registry.imp_right fun ht => ⟨ht.1.trans hs.1, ht.2.trans hs.2⟩

theorem Work.same (hstore : t.ctx.store = s.ctx.store) (hes : ∀ e ∈ es, OfHandler cfg d sid e) :
    Work cfg d sid s es t where
  events := hes
  pair := .inr (congrArg (fun m : Store => (m.activeSession, m.securityLevel)) hstore)
  transfer := .inr (congrArg Store.flashSequence hstore)
  lockout := .inr ⟨congrArg Store.securityDelayEnd hstore, congrArg Store.securityAttempts hstore⟩
  registry := .inr ⟨congrArg Store.periodicIds hstore, congrArg Store.periodicCount hstore⟩

theorem Work.single {e : Event} (hstore : t.ctx.store = s.ctx.store)
    (he : OfHandler cfg d sid e) : Work cfg d sid s [e] t :=
  .same hstore fun _ hx => List.mem_singleton.mp hx ▸ he

/-- What is sent by a handler is what goes out around it. -/
theorem Outside.work (h : Outside cfg d s es t) (hw : ∀ e ∈ es, e.isWork = true)
    (hcall : ∀ c ret, .call c ret ∉ es) : Work cfg d sid s es t := by
  apply Work.same h.store
  intro e he
  have hevent := hw e he
  cases e with
  | time now => trivial
  | withheld => trivial
  | fault f => exact absurd (h.events _ he) not_false
  | call c ret => exact absurd he (hcall c ret)
  | tpSend origin data ret =>
    cases origin with
    | response => exact .inl rfl
    | nrc => exact .inr rfl
    | _ => exact absurd hevent Bool.false_ne_true
  | _ => exact absurd hevent Bool.false_ne_true

theorem sendNrc_work (nrc : UInt8) : Keeps (Work cfg d sid) (sendNrc cfg sid nrc) := by
  intro s
  apply (sendNrc_outside sid nrc s).work (sendNrc_worked cfg sid nrc s).events
  intro c ret he
  obtain ⟨faults, hfaults, ret', houtputs⟩ := sendNrc_outputs cfg sid nrc s
  rw [houtputs] at he
  split_ifs at he
  · rcases List.mem_append.mp he with hfault | hsent
    · obtain ⟨f, hf⟩ := hfaults _ hfault
      cases hf
    · cases List.mem_singleton.mp hsent
  · cases he

theorem sendResponse_work (len : UInt16) : Keeps (Work cfg d sid) (sendResponse cfg len) := by
  intro s
  apply (sendResponse_outside len s).work (sendResponse_worked cfg len s).events
  have hkept : Keeps (fun _ es _ => ∀ c ret, .call c ret ∉ es) (sendResponse cfg len) := by
    apply sendResponse_keeps
    · exact fun _ _ _ => List.not_mem_nil
    · intro s c ret he
      cases List.mem_singleton.mp he
    · intro s _ w c ret he
      cases List.mem_singleton.mp he
  intro c ret he
  exact absurd he (hkept s c ret)

theorem maskAdmits_work (hsid : TestsMasks sid) (shift mask : UInt32) :
    Keeps (Work cfg d sid) (maskAdmits shift mask) := by
  have hR : Composable (Work cfg d sid) := work_composable
  apply hR.bind
  · exact Keeps.ite (fun _ _ => .single rfl hsid) fun _ => hR.refl
  · exact fun _ => hR.refl

theorem sessionRefused_work (hsid : TestsMasks sid) (entry : DidEntry) :
    Keeps (Work cfg d sid) (sessionRefused entry) := by
  have hR : Composable (Work cfg d sid) := work_composable
  apply Keeps.ite
  · exact fun _ => hR.refl
  · intro _
    apply keeps_ctx
    intro c
    apply hR.bind (maskAdmits_work hsid _ _)
    exact fun _ => hR.refl

theorem securityRefused_work (hsid : TestsMasks sid) (entry : DidEntry) :
    Keeps (Work cfg d sid) (securityRefused entry) := by
  have hR : Composable (Work cfg d sid) := work_composable
  apply Keeps.ite
  · exact fun _ => hR.refl
  · intro _
    apply keeps_ctx
    intro c
    apply hR.bind (maskAdmits_work hsid _ _)
    exact fun _ => hR.refl

theorem Deed.work {α : Type} {m : M W α} (hm : Deed cfg d sid α m) :
    Keeps (Work cfg d sid) m := by
  have hR : Composable (Work cfg d sid) := work_composable
  cases hm with
  | reads f => exact hR.refl
  | getTime => exact fun s => .single rfl trivial
  | byteAt hi =>
    intro s
    rw [show (byteAt d _).outputs s = [] from if_pos hi]
    exact hR.refl s
  | bytesAt hn =>
    intro s
    rw [show (bytesAt d _ _).outputs s = [] from if_pos hn]
    exact hR.refl s
  | invoke hcall => exact fun s => .single rfl hcall
  | sessionRefused entry hsid => exact sessionRefused_work hsid entry
  | securityRefused entry hsid => exact securityRefused_work hsid entry
  | writeTx off bs =>
    intro s
    refine Work.same rfl fun e he => ?_
    unfold writeTx outputs at he
    split_ifs at he
    · cases he
    · rw [List.mem_singleton.mp he]
      trivial
  | setCtx hg =>
    intro s
    constructor
    · exact nofun
    · exact hg.pair.imp_right fun h => h s.ctx
    · exact hg.transfer.imp_right fun h => h s.ctx
    · exact hg.lockout.imp_right fun h => h s.ctx
    · exact hg.registry.imp_right fun h => h s.ctx
  | writeMem addr bs => exact fun s => .same rfl nofun
  | sendNrc nrc => exact sendNrc_work nrc
  | sendResponse len => exact sendResponse_work len
  | withhold => exact fun s => .single rfl trivial

theorem service_work {service : Service W} (hcore : service ∈ coreServices cfg)
    (hlen : service.minLen.toNat ≤ d.bytes.length) :
    Keeps (Work cfg d service.sid) (service.handler d) :=
  (coreServices_deeds service hcore hlen).keeps work_composable fun _ _ => Deed.work

/-! ### The calls -/

theorem arrived_outside (cfg : Config W) (d : Sdu) (s : Sys W) :
    Outside cfg d s ((mutexLock cfg).outputs s ++
      (getTime cfg).outputs ((mutexLock cfg).final s)) (arrived cfg s) := by
  have htime : Outside cfg d ((mutexLock cfg).final s)
      ((getTime cfg).outputs ((mutexLock cfg).final s)) (arrived cfg s) := .single rfl trivial
  exact outside_composable.trans (mutexLock_outside s) htime

/-- A message whose treatment leaves alone what handlers work on. -/
theorem Treats.outside {m : M W Unit} (h : Treats cfg s d m) (hm : Keeps (Outside cfg d) m) :
    Outside cfg d s (step cfg s (.inputSdu (.bytes d))).2
      (step cfg s (.inputSdu (.bytes d))).1 := by
  have hR : Composable (Outside cfg d) := outside_composable
  have hall := hR.trans (arrived_outside cfg d s)
    (hR.trans (hm (arrived cfg s)) (mutexUnlock_outside (m.final (arrived cfg s))))
  rw [h.final, h.outputs]
  simpa only [List.append_assoc] using hall

theorem OfGate.outside (hes : OfGate cfg d es) (hgated : Gated s es t) : Outside cfg d s es t := by
  constructor
  · rw [hgated.1]
    rfl
  · intro e he
    obtain ⟨u, hu⟩ := hes e he
    exact (safetyGate_outside (d.byte 0) u).events e hu

/-- The start of a request, up to the dispatch. -/
theorem entered_outside (cfg : Config W) (d : Sdu) (s : Sys W) :
    Outside cfg d s ((mutexLock cfg).outputs s ++ ((getTime cfg).outputs ((mutexLock cfg).final s) ++
      ((getTime cfg).outputs (arrived cfg s) ++ [.dispatch d.bytes]))) (entered cfg s) := by
  have hR : Composable (Outside cfg d) := outside_composable
  have htime : Outside cfg d (arrived cfg s) ((getTime cfg).outputs (arrived cfg s))
      (entered cfg s) := .single rfl trivial
  have hdispatch : Outside cfg d (entered cfg s) [.dispatch d.bytes] (entered cfg s) :=
    .single rfl trivial
  have hall := hR.trans (arrived_outside cfg d s) (hR.trans htime hdispatch)
  rwa [List.append_assoc] at hall

/-- A request that passes all checks runs the handler of its service, with little around it. -/
theorem step_reached {service : Service W} (hidle : s.ctx.p2MsgPending = false)
    (hans : ¬ takesAsAnswer s.ctx d) (hne : d.bytes ≠ [])
    (hfail : firstFailing cfg (entered cfg s) d = none)
    (hfound : findService cfg (d.byte 0) = some service) :
    let v := atHandler cfg service d (entered cfg s)
    let r := step cfg s (.inputSdu (.bytes d))
    ∃ pre post, r.2 = pre ++ ((service.handler d).outputs v ++ post) ∧
      Outside cfg d s pre v ∧ Outside cfg d ((service.handler d).final v) post r.1 := by
  intro v r
  have hR : Composable (Outside cfg d) := outside_composable
  have htreats := step_started cfg hidle hans hne
  have hleads := handleRequest_leads cfg (entered cfg s) hne
  rw [hfail] at hleads
  obtain ⟨service', hfound', hend, hevents⟩ := hleads
  obtain rfl := Option.some.inj (hfound.symm.trans hfound')
  obtain ⟨post, hrun, hpost⟩ := executeHandler_outside cfg service hne v
  have hfinal : r.1 = (mutexUnlock cfg).final ((executeHandler cfg service d).final v) :=
    htreats.final.trans (congrArg (mutexUnlock cfg).final hend)
  have houtputs : r.2 = _ := htreats.outputs
  rw [startRequest_outputs, startRequest_final] at houtputs
  have hgate : Outside cfg d (entered cfg s)
      ((safetyGate cfg (d.byte 0) d).outputs (flagged service d (entered cfg s))) v := by
    have hkept : Outside cfg d (flagged service d (entered cfg s)) _ _ :=
      safetyGate_outside (d.byte 0) _
    exact ⟨hkept.store, hkept.events⟩
  have hentry : Outside cfg d v [.handler service.sid] v := .single rfl trivial
  have hunlock : Outside cfg d ((executeHandler cfg service d).final v) _ _ :=
    mutexUnlock_outside _
  have hpre := hR.trans (entered_outside cfg d s) (hR.trans hgate hentry)
  have hlast := hR.trans hpost hunlock
  rw [← hfinal] at hlast
  refine ⟨_, _, ?_, hpre, hlast⟩
  rw [houtputs, hevents, hrun, hend]
  simp only [List.append_assoc, List.cons_append, List.nil_append]
  rfl

theorem Runs.found {service : Service W} {v : Sys W} {sid : UInt8}
    (h : Runs cfg s d service u v es) (hsid : service.sid = sid) :
    (coreServices cfg).find? (fun entry => entry.sid = sid) = some service :=
  (find?_sid coreServices_nodup service).mpr ⟨h.core, hsid⟩

/-- The call whose handler runs. -/
theorem Runs.split {service : Service W} {v : Sys W} (h : Runs cfg s d service u v es) :
    let r := step cfg s (.inputSdu (.bytes d))
    ∃ pre post, r.2 = pre ++ (es ++ post) ∧ Outside cfg d s pre u ∧ Outside cfg d v post r.1 := by
  have hreached := h.reached
  unfold Core.reached at hreached
  cases hfail : firstFailing cfg (entered cfg s) d with
  | some check =>
    rw [hfail] at hreached
    cases hreached
  | none =>
    rw [hfail] at hreached
    rw [h.final, h.outputs, h.start]
    exact step_reached h.idle h.request h.nonempty hfail hreached

theorem passed_length {service : Service W} (hfail : firstFailing cfg t d = none)
    (hfound : findService cfg (d.byte 0) = some service) : service.minLen.toNat ≤ d.bytes.length := by
  obtain ⟨found, hchosen, hpasses⟩ := (firstFailing_none_iff t).mp hfail
  have hsame : found = service :=
    Option.some.inj (((findService_iff _ _).mpr hchosen).symm.trans hfound)
  exact of_decide_eq_true (hsame ▸ hpasses .length)

/-- A request that reaches a core service has its handler run. -/
theorem Runs.of_reached {service : Service W} (hidle : s.ctx.p2MsgPending = false)
    (hans : ¬ takesAsAnswer s.ctx d) (hne : d.bytes ≠ [])
    (hreached : Core.reached cfg d s = some service) (hcore : service ∈ coreServices cfg)
    (hown : ∀ entry ∈ cfg.userServices, entry.sid ≠ d.byte 0) (hsid : service.sid = d.byte 0) :
    let v := atHandler cfg service d (entered cfg s)
    Runs cfg s d service v ((service.handler d).final v) ((service.handler d).outputs v) := by
  intro v
  have hlength : service.minLen.toNat ≤ d.bytes.length := by
    have hfound := hreached
    unfold Core.reached at hfound
    cases hfail : firstFailing cfg (entered cfg s) d with
    | some check =>
      rw [hfail] at hfound
      cases hfound
    | none =>
      rw [hfail] at hfound
      exact passed_length hfail hfound
  exact ⟨hcore, hown, hsid, hreached, hne, hidle, hans, hlength, rfl, rfl, rfl,
    service_work hcore hlength v⟩

/-- A request is dispatched. -/
theorem step_started_footprint (hidle : s.ctx.p2MsgPending = false)
    (hans : ¬ takesAsAnswer s.ctx d) (hne : d.bytes ≠ []) :
    let r := step cfg s (.inputSdu (.bytes d))
    Footprint cfg s (.inputSdu (.bytes d)) r.2 r.1 := by
  intro r
  have hR : Composable (Outside cfg d) := outside_composable
  have hleads := handleRequest_leads cfg (entered cfg s) hne
  cases hfail : firstFailing cfg (entered cfg s) d with
  | some check =>
    rw [hfail] at hleads
    obtain ⟨es, w, hgated, hgate, hend, hevents⟩ := hleads
    have htreats := step_started cfg hidle hans hne
    have hfinal : r.1 = (mutexUnlock cfg).final ((reject cfg (d.byte 0) check.nrc).final w) :=
      htreats.final.trans (congrArg (mutexUnlock cfg).final hend)
    have houtputs : r.2 = _ := htreats.outputs
    rw [startRequest_outputs, startRequest_final] at houtputs
    have hreject : Outside cfg d w _ _ := reject_outside (d.byte 0) check.nrc w
    have hunlock : Outside cfg d ((reject cfg (d.byte 0) check.nrc).final w) _ _ :=
      mutexUnlock_outside _
    have hall := hR.trans (entered_outside cfg d s) (hR.trans (hgate.outside hgated)
      (hR.trans hreject hunlock))
    rw [houtputs, hevents, hend, hfinal]
    simp only [List.append_assoc, List.cons_append, List.nil_append] at hall ⊢
    exact .outside hall
  | none =>
    rw [hfail] at hleads
    obtain ⟨service, hfound, -, -⟩ := hleads
    obtain ⟨pre, post, hes, hpre, hlast⟩ := step_reached hidle hans hne hfail hfound
    let v := atHandler cfg service d (entered cfg s)
    have hr2 : r.2 = pre ++ ((service.handler d).outputs v ++ post) := hes
    rcases (findService_iff _ _).mp hfound with ⟨_, entry, _, -, -, -, rfl⟩ | ⟨hown, hcore, hsid⟩
    · have hmid : Keeps (Outside cfg d) ((userService cfg entry).handler d) := runApp_outside _
      rw [hr2]
      exact .outside (hR.trans hpre (hR.trans (hmid v) hlast))
    · have hreached : reached cfg d s = some service := by
        unfold reached
        rw [hfail]
        exact hfound
      exact .handler d service pre _ post _ _ rfl
        (.of_reached hidle hans hne hreached hcore hown hsid) hr2 hpre hlast

theorem Scheduled.store (h : Scheduled s es t) : t.ctx.store = s.ctx.store := by
  rw [h.ctx]
  rfl

/-- Without a registered id the scheduler does nothing. -/
theorem scheduleAll_idle (now : UInt32) (is : List (Fin 8)) (h : ∀ i, s.ctx.periodicIds i = 0) :
    (scheduleAll cfg now is).final s = s ∧ (scheduleAll cfg now is).outputs s = [] := by
  induction is with
  | nil => exact ⟨rfl, rfl⟩
  | cons i is ih =>
    have hslot : ¬ (s.ctx.periodicIds i ≠ 0 ∧ now ≥ s.ctx.periodicTimers i) := fun hi => hi.1 (h i)
    have hfinal : (schedule cfg now i).final s = s := by
      unfold schedule
      rw [final_getCtx_bind, final_onlyIf, if_neg hslot]
    have houtputs : (schedule cfg now i).outputs s = [] := by
      unfold schedule
      rw [outputs_getCtx_bind, outputs_onlyIf, if_neg hslot]
    unfold scheduleAll
    rw [final_bind, outputs_bind, hfinal, houtputs]
    exact ih

/-- What the end of `uds_process` does. -/
theorem finishProcess_footprint (cfg : Config W) (now : UInt32) (s : Sys W) :
    ((finishProcess cfg now).final s).ctx.store = s.ctx.store ∧
      ∀ e ∈ (finishProcess cfg now).outputs s, OfProcess cfg s e := by
  let sched := onlyIf (s.ctx.periodicCount > 0) (scheduleAll cfg now (List.finRange 8))
  have hlast : Outside cfg noMessage (sched.final s) _ _ := mutexUnlock_outside _
  have hsched : (sched.final s).ctx.store = s.ctx.store ∧
      ∀ e ∈ sched.outputs s, OfProcess cfg s e := by
    unfold sched
    rw [final_onlyIf, outputs_onlyIf]
    split_ifs
    · have hloop : Keeps Scheduled (scheduleAll cfg now (List.finRange 8)) :=
        scheduleAll_scheduled now _
      have hslots := hloop s
      refine ⟨hslots.store, fun e he => .inr ⟨?_, hslots.events e he⟩⟩
      by_contra hnone
      push Not at hnone
      rw [(scheduleAll_idle now _ hnone).2] at he
      cases he
    · exact ⟨rfl, nofun⟩
  constructor
  · exact hlast.store.trans hsched.1
  · change ∀ e ∈ sched.outputs s ++ (mutexUnlock cfg).outputs (sched.final s), _
    refine List.forall_mem_append.mpr ⟨hsched.2, fun e he => ?_⟩
    exact .inl (hlast.events e he)

theorem OfProcess.of_ids {e : Event} (h : t.ctx.periodicIds = s.ctx.periodicIds)
    (he : OfProcess cfg t e) : OfProcess cfg s e := by
  unfold OfProcess at *
  rwa [h] at he

/-- The part of `uds_process` behind the S3 timer. -/
theorem answerInTime_footprint (cfg : Config W) (c : Ctx) (now : UInt32) (s : Sys W) :
    ((answerInTime cfg c now).final s).ctx.store = s.ctx.store ∧
      ∀ e ∈ (answerInTime cfg c now).outputs s, OfProcess cfg s e := by
  have hnrc (nrc : UInt8) : Outside cfg noMessage s _ _ := sendNrc_outside c.pendingSid nrc s
  unfold answerInTime
  split_ifs
  · constructor
    · exact (hnrc nrcConditionsNotCorrect).store
    · intro e he
      rw [outputs_bind, outputs_setCtx, List.append_nil] at he
      exact .inl ((hnrc nrcConditionsNotCorrect).events e he)
  · have hsent := hnrc nrcResponsePending
    generalize hagain : (setCtx fun c =>
      { c with rcrrpCount := c.rcrrpCount + 1, p2StarActive := true, p2TimerStart := now } : M W Unit)
      = again
    have hstore (u : Sys W) : (again.final u).ctx.store = u.ctx.store := by
      rw [← hagain]
      rfl
    have hsilent (u : Sys W) : again.outputs u = [] := by
      rw [← hagain]
      rfl
    have hkept := (hstore _).trans hsent.store
    rw [final_bind, outputs_bind, final_bind, outputs_bind, hsilent, List.nil_append]
    generalize (sendNrc cfg c.pendingSid nrcResponsePending).final s = u at *
    obtain ⟨hend, hevents⟩ := finishProcess_footprint cfg now (again.final u)
    constructor
    · exact hend.trans hkept
    · refine List.forall_mem_append.mpr ⟨fun e he => ?_, fun e he => ?_⟩
      · exact .inl (hsent.events e he)
      · exact (hevents e he).of_ids (congrArg Store.periodicIds hkept)
  · exact finishProcess_footprint cfg now s

theorem ticked_store (cfg : Config W) (s : Sys W) : (ticked cfg s).ctx.store = s.ctx.store ∨
    s3Passed s.ctx (processTime cfg s) ∧ (ticked cfg s).ctx.store =
      { s.ctx.store with activeSession := sessionIdDefault, securityLevel := 0 } := by
  rw [ticked_ctx]
  split_ifs with h
  · exact .inr ⟨h, rfl⟩
  · exact .inl rfl

theorem s3Events_surround (cfg : Config W) (s : Sys W) :
    ∀ e ∈ s3Events cfg s, Surround cfg noMessage e := by
  unfold s3Events checkS3
  rw [outputs_getCtx_bind, outputs_onlyIf]
  split_ifs
  · exact (internalLog_outside _ _ _).events
  · exact nofun

theorem process_footprint (cfg : Config W) (s : Sys W) :
    Footprint cfg s .process (step cfg s .process).2 (step cfg s .process).1 := by
  obtain ⟨hfinal, houtputs⟩ := udsProcess_run cfg s
  obtain ⟨hstore, hevents⟩ :=
    answerInTime_footprint cfg s.ctx (processTime cfg s) (ticked cfg s)
  have hids : (ticked cfg s).ctx.periodicIds = s.ctx.periodicIds := by
    rw [ticked_ctx]
    split_ifs <;> rfl
  refine .process rfl ?_ ?_
  · change ((udsProcess cfg).final s).ctx.store = _ ∨ _ ∧ ((udsProcess cfg).final s).ctx.store = _
    rw [hfinal, hstore]
    exact ticked_store cfg s
  · change ∀ e ∈ (udsProcess cfg).outputs s, _
    rw [houtputs]
    refine List.forall_mem_append.mpr ⟨fun e he => ?_, List.forall_mem_cons.mpr ⟨?_, ?_⟩⟩
    · exact .inl ((mutexLock_outside s).events e he)
    · exact .inl trivial
    · refine List.forall_mem_append.mpr ⟨fun e he => ?_, fun e he => ?_⟩
      · exact .inl (s3Events_surround cfg s e he)
      · exact (hevents e he).of_ids hids

/-- What any call does. -/
theorem step_footprint (cfg : Config W) (s : Sys W) (op : Op W) :
    Footprint cfg s op (step cfg s op).2 (step cfg s op).1 := by
  have hR : Composable (Outside cfg op.sdu) := outside_composable
  cases op with
  | inputSdu data =>
    rcases data.empty_or_message with hnone | ⟨d, rfl, hne⟩
    · obtain ⟨hfinal, houtputs⟩ := step_ignored cfg s hnone
      rw [hfinal, houtputs]
      exact .outside (hR.trans (mutexLock_outside s) (mutexUnlock_outside _))
    · by_cases hp : s.ctx.p2MsgPending = true
      · exact .outside ((step_busy cfg hp hne).outside busyAnswer_outside)
      have hidle : s.ctx.p2MsgPending = false := Bool.eq_false_iff.mpr hp
      by_cases hans : takesAsAnswer s.ctx d
      · exact .outside ((step_answered cfg hidle hans hne).outside takeAnswer_outside)
      · exact step_started_footprint hidle hans hne
  | process => exact process_footprint cfg s
  | clientRequest sid data cb =>
    exact .outside (hR.discard (clientRequest_outside sid data cb) s)
  | fill off bytes => exact .outside ⟨rfl, nofun⟩
  | sendResponse len => exact .outside (hR.discard (sendResponse_outside len) s)
  | sendNrc sid nrc => exact .outside (hR.discard (sendNrc_outside sid nrc) s)
  | elapse f => exact .outside ⟨rfl, nofun⟩

end UdsLib.Core
