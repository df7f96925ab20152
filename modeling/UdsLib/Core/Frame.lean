import UdsLib.Core.Path

/-! What the public calls and the application's own code leave alone: the state that belongs to
accepted requests, and the memory of the DIDs. -/
namespace UdsLib.Core
open Bytes Machine Prog

variable {W : Type} {cfg : Config W}

/-- An event outside the handlers of the stack. -/
def Event.isOuter : Event → Bool
  | .call c _ => c.isLock
  | .dispatch _ => false
  | .handler _ => false
  | _ => true

/-- Nothing changes that a request may change, and no handler of the stack is at work. -/
structure Spared (s : Sys W) (es : List Event) (t : Sys W) : Prop where
  diagnostic : t.ctx.diagnostic = s.ctx.diagnostic
  mem : t.mem = s.mem
  events : ∀ e ∈ es, e.isOuter = true

theorem spared_composable : Composable (Spared (W := W)) where
  refl _ := ⟨rfl, rfl, nofun⟩
  trans h hnext := by
    constructor
    · exact hnext.diagnostic.trans h.diagnostic
    · exact hnext.mem.trans h.mem
    · exact List.forall_mem_append.mpr ⟨h.events, hnext.events⟩

theorem Spared.single {s t : Sys W} {e : Event} (hdiag : t.ctx.diagnostic = s.ctx.diagnostic)
    (hmem : t.mem = s.mem) (he : e.isOuter = true) : Spared s [e] t :=
  ⟨hdiag, hmem, fun _ hx => List.mem_singleton.mp hx ▸ he⟩

theorem setCtx_spared {g : Ctx → Ctx} (hg : ∀ c, (g c).diagnostic = c.diagnostic) :
    Keeps (Spared (W := W)) (setCtx g) :=
  fun s => ⟨hg s.ctx, rfl, nofun⟩

theorem tpSend_spared (origin : Origin) (len : ℕ) : Keeps Spared (tpSend cfg origin len) :=
  fun _ => .single rfl rfl rfl

theorem writeTx_spared (off : ℕ) (bs : List UInt8) : Keeps Spared (writeTx cfg off bs) := by
  intro s
  refine ⟨rfl, rfl, fun e he => ?_⟩
  obtain ⟨f, rfl⟩ := writeTx_faults s he
  rfl

theorem onlyIf_spared {p : Prop} [Decidable p] {m : M W Unit} (hm : Keeps Spared m) :
    Keeps Spared (onlyIf p m) :=
  Keeps.ite (fun _ => hm) fun _ => spared_composable.refl

theorem mutex_spared {call : Call} (hcall : call.isLock = true) :
    Keeps Spared (invokeVoid cfg call) :=
  spared_composable.bind (fun _ => .single rfl rfl hcall) fun _ => spared_composable.refl

theorem sendNrc_spared (cfg : Config W) (sid nrc : UInt8) : Keeps Spared (sendNrc cfg sid nrc) := by
  have hR := spared_composable (W := W)
  unfold sendNrc
  refine Keeps.ite (fun _ => hR.refl) fun _ => hR.bind hR.refl fun _ => ?_
  refine hR.bind (onlyIf_spared (setCtx_spared fun _ => rfl)) fun _ => ?_
  exact hR.bind (writeTx_spared _ _) fun _ => tpSend_spared _ _

theorem reject_spared (cfg : Config W) (sid nrc : UInt8) : Keeps Spared (reject cfg sid nrc) :=
  spared_composable.bind (sendNrc_spared cfg sid nrc) fun _ => spared_composable.refl

theorem sendResponse_spared (len : UInt16) : Keeps Spared (sendResponse cfg len) := by
  apply sendResponse_keeps
  · exact spared_composable.refl
  · exact fun _ => .single rfl rfl rfl
  · exact fun _ _ _ => .single rfl rfl rfl

theorem clientRequest_spared (sid : UInt8) (data : Buf) (cb : Option ℕ) :
    Keeps Spared (clientRequest cfg sid data cb) := by
  have hR := spared_composable (W := W)
  have hbody : Keeps Spared (requestBody cfg sid data cb) := by
    unfold requestBody
    refine Keeps.ite (fun _ => hR.refl) fun _ => Keeps.ite (fun _ => hR.refl) fun _ => ?_
    refine hR.bind (onlyIf_spared (mutex_spared rfl)) fun _ => ?_
    refine hR.bind (setCtx_spared fun _ => rfl) fun _ => hR.bind (writeTx_spared _ _) fun _ => ?_
    refine hR.bind (writeTx_spared _ _) fun _ => hR.bind (tpSend_spared _ _) fun _ => ?_
    exact hR.bind (onlyIf_spared (mutex_spared rfl)) fun _ => hR.refl
  exact hR.bind hbody fun _ => hR.bind (fun _ => .single rfl rfl rfl) fun _ => hR.refl

theorem runApp_spared (cfg : Config W) (p : AppProg W) : Keeps Spared (runApp cfg p) := by
  have hR := spared_composable (W := W)
  induction p with
  | done res => exact hR.refl
  | look k ih => exact hR.bind hR.refl fun _ => ih _ _
  | put w k ih => exact hR.bind (fun _ => ⟨rfl, rfl, nofun⟩) fun _ => ih
  | fill off bytes k ih => exact hR.bind (fun _ => ⟨rfl, rfl, nofun⟩) fun _ => ih
  | sendResponse len k ih => exact hR.bind (sendResponse_spared len) fun _ => ih _
  | sendNrc sid nrc k ih => exact hR.bind (sendNrc_spared cfg sid nrc) fun _ => ih _
  | clientRequest sid data cb k ih => exact hR.bind (clientRequest_spared sid data cb) fun _ => ih _

theorem runResponseCb_spared (d : Sdu) : Keeps Spared (runResponseCb cfg d) := by
  have hR := spared_composable (W := W)
  unfold runResponseCb
  refine hR.bind hR.refl fun s => ?_
  split
  · exact hR.refl
  · refine hR.bind (fun _ => .single rfl rfl rfl) fun _ => hR.bind (runApp_spared cfg _) fun _ => ?_
    exact setCtx_spared fun _ => rfl

/-- `execute_handler` is the handler and a tail that is no handler's work. -/
theorem executeHandler_parts (cfg : Config W) (service : Service W) (d : Sdu) (s : Sys W) :
    ∃ es, (executeHandler cfg service d).outputs s =
        .handler service.sid :: ((service.handler d).outputs s ++ es) ∧
      Spared ((service.handler d).final s) es ((executeHandler cfg service d).final s) := by
  have hbyte : Keeps (Spared (W := W)) (byteAt d 0) := by
    intro t
    refine ⟨rfl, rfl, fun e he => ?_⟩
    obtain ⟨f, rfl⟩ := byteAt_faults t he
    rfl
  apply executeHandler_split spared_composable hbyte
  · exact fun _ => sendNrc_spared cfg _ _
  · exact fun _ => .single rfl rfl rfl
  · exact setCtx_spared fun _ => rfl
  · exact fun _ _ => setCtx_spared fun _ => rfl

/-! ### What a handler of the stack can do to the exchange of messages -/

/-- An event between the entry of a handler and its return. -/
def Event.isWork : Event → Bool
  | .time _ => true
  | .fault _ => true
  | .withheld => true
  | .call c _ => !c.isLock
  | .tpSend .response _ _ => true
  | .tpSend .nrc _ _ => true
  | _ => false

/-- A request in progress may end but not begin, and the client's side is left alone. -/
structure Worked (s : Sys W) (es : List Event) (t : Sys W) : Prop where
  sid : t.ctx.pendingSid = s.ctx.pendingSid
  callback : t.ctx.clientCb = s.ctx.clientCb
  pending : t.ctx.p2MsgPending = true → s.ctx.p2MsgPending = true
  events : ∀ e ∈ es, e.isWork = true

theorem worked_composable : Composable (Worked (W := W)) where
  refl _ := ⟨rfl, rfl, id, nofun⟩
  trans h hnext := by
    constructor
    · exact hnext.sid.trans h.sid
    · exact hnext.callback.trans h.callback
    · exact fun hp => h.pending (hnext.pending hp)
    · exact List.forall_mem_append.mpr ⟨h.events, hnext.events⟩

theorem faults_worked {s t : Sys W} {es : List Event} (hctx : t.ctx = s.ctx)
    (h : ∀ e ∈ es, ∃ f, e = .fault f) : Worked s es t := by
  refine ⟨by rw [hctx], by rw [hctx], by rw [hctx]; exact id, ?_⟩
  exact faults_forall h fun _ => rfl

theorem sendNrc_worked (cfg : Config W) (sid nrc : UInt8) :
    Keeps Worked (sendNrc cfg sid nrc) := by
  intro s
  obtain ⟨faults, hfaults, ret, houtputs⟩ := sendNrc_outputs cfg sid nrc s
  have hctx := sendNrc_ctx cfg sid nrc s
  have hevents : ∀ e ∈ (sendNrc cfg sid nrc).outputs s, e.isWork = true := by
    rw [houtputs]
    split_ifs
    · intro e he
      rcases List.mem_append.mp he with hfault | hsent
      · obtain ⟨f, rfl⟩ := hfaults e hfault
        rfl
      · rw [List.mem_singleton.mp hsent]
        rfl
    · exact nofun
  split_ifs at hctx
  · refine ⟨by rw [hctx], by rw [hctx], fun hp => ?_, hevents⟩
    rw [hctx] at hp
    exact absurd hp Bool.false_ne_true
  · exact ⟨by rw [hctx], by rw [hctx], by rw [hctx]; exact id, hevents⟩

theorem sendResponse_worked (cfg : Config W) (len : UInt16) :
    Keeps Worked (sendResponse cfg len) := by
  apply sendResponse_keeps
  · exact worked_composable.refl
  · exact fun _ => ⟨rfl, rfl, fun hp => absurd hp Bool.false_ne_true,
      List.forall_mem_singleton.mpr rfl⟩
  · exact fun _ _ _ => ⟨rfl, rfl, fun hp => absurd hp Bool.false_ne_true,
      List.forall_mem_singleton.mpr rfl⟩

theorem Looked.worked {P B : Prop} {s t : Sys W} {es : List Event} (h : Looked P B s es t) :
    Worked s es t := by
  have hconv := h.conversation
  constructor
  · exact congrArg Conversation.pendingSid hconv
  · exact congrArg Conversation.clientCb hconv
  · rw [show t.ctx.p2MsgPending = s.ctx.p2MsgPending from
      congrArg Conversation.p2MsgPending hconv]
    exact id
  · intro e he
    have hlook := h.events e he
    cases e with
    | time now => rfl
    | fault f => rfl
    | call c ret => exact hlook
    | _ => exact absurd hlook Bool.false_ne_true

theorem Path.worked {sid : UInt8} {P B K : Prop} {c h : Bool} {m : M W ℤ}
    (hm : Path cfg sid P B K c h m) : Keeps Worked m := by
  have hR := worked_composable (W := W)
  induction hm with
  | refuse nrc hc => exact sendNrc_worked cfg _ _
  | send hlen => exact sendResponse_worked cfg _
  | sendThen hlen hk hv =>
    exact hR.bind (sendResponse_worked cfg _) fun s t => (Look.composed (hk _) t).worked
  | withhold hB => exact fun s => ⟨rfl, rfl, id, fun e he => List.mem_singleton.mp he ▸ rfl⟩
  | look hm hf ih => exact hR.bind (fun s => (Look.composed hm s).worked) ih
  | head bs hf ih => exact hR.bind (fun s => faults_worked rfl fun e => writeTx_faults s) fun _ => ih
  | commit hg hconv hpair hf ih =>
    apply hR.bind _ fun _ => ih
    intro s
    have hsame := hconv s.ctx
    refine ⟨congrArg Conversation.pendingSid hsame, congrArg Conversation.clientCb hsame, ?_, nofun⟩
    exact fun hp => (congrArg Conversation.p2MsgPending hsame).symm.trans hp
  | store addr bs hf ih => exact hR.bind (fun s => ⟨rfl, rfl, id, nofun⟩) fun _ => ih

end UdsLib.Core
