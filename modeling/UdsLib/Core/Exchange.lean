import UdsLib.Core.Roles

/-! What handlers, of the stack or of the application, can do to the fields of the context that belong
to the exchange of messages: they answer, and the application may ask. A relation that survives both
survives every handler. -/
namespace UdsLib.Core
open Bytes Machine Prog Services

variable {W : Type} {cfg : Config W} {s t : Sys W} {es : List Event} {R : Ctx → Ctx → Prop}

/-- A relation on contexts that survives what handlers do to the exchange of messages. -/
structure Handling (R : Ctx → Ctx → Prop) : Prop where
  same : ∀ c c', c'.conversation = { c.conversation with suppressPosResp := c'.suppressPosResp } →
    R c c'
  trans : ∀ a b c, R a b → R b c → R a c
  refused : ∀ c, R c { c with p2MsgPending := false }
  answered : ∀ c flag, R c { c with p2MsgPending := false, suppressPosResp := flag, rcrrpCount := 0 }
  asked : ∀ c sid cb, R c { c with pendingSid := sid, clientCb := cb }

/-- The contexts before and after are related. -/
def Follows (R : Ctx → Ctx → Prop) (s : Sys W) (_ : List Event) (t : Sys W) : Prop := R s.ctx t.ctx

theorem Handling.of_conversation (hR : Handling R) {c c' : Ctx}
    (h : c'.conversation = c.conversation) : R c c' := by
  have hflag : c'.suppressPosResp = c.suppressPosResp := congrArg Conversation.suppressPosResp h
  apply hR.same
  rw [h, hflag]
  rfl

theorem Handling.of_eq (hR : Handling R) {c c' : Ctx} (h : c' = c) : R c c' :=
  hR.of_conversation (congrArg Ctx.conversation h)

theorem follows_composable (hR : Handling R) : Composable (Follows (W := W) R) where
  refl _ := hR.of_eq rfl
  trans h hnext := hR.trans _ _ _ h hnext

theorem sendNrc_follows (hR : Handling R) (sid nrc : UInt8) : Keeps (Follows R) (sendNrc cfg sid nrc) := by
  intro s
  have hctx := sendNrc_ctx cfg sid nrc s
  unfold Follows
  rw [hctx]
  split_ifs
  · exact hR.refused s.ctx
  · exact hR.of_eq rfl

theorem sendResponse_follows (hR : Handling R) (len : UInt16) :
    Keeps (Follows R) (sendResponse cfg len) := by
  apply sendResponse_keeps
  · exact fun _ => hR.of_eq rfl
  · exact fun s => hR.answered s.ctx false
  · exact fun s _ _ => hR.answered s.ctx s.ctx.suppressPosResp

theorem clientRequest_follows (hR : Handling R) (sid : UInt8) (data : Buf) (cb : Option ℕ) :
    Keeps (Follows R) (clientRequest cfg sid data cb) := by
  intro s
  have hctx := clientRequest_ctx cfg sid data cb s
  unfold Follows
  rw [hctx]
  split_ifs
  · exact hR.asked s.ctx sid cb
  · exact hR.of_eq rfl

theorem runApp_follows (hR : Handling R) (p : AppProg W) : Keeps (Follows R) (runApp cfg p) := by
  have hfollows := follows_composable (W := W) hR
  have hkeep {g : Sys W → Sys W} (hg : ∀ s, (g s).ctx = s.ctx) :
      Keeps (Follows (W := W) R) (modify g) := fun s => hR.of_eq (hg s)
  induction p with
  | done res => exact hfollows.refl
  | look k ih => exact hfollows.bind hfollows.refl fun _ => ih _ _
  | put w k ih => exact hfollows.bind (hkeep fun _ => rfl) fun _ => ih
  | fill off bytes k ih => exact hfollows.bind (hkeep fun _ => rfl) fun _ => ih
  | sendResponse len k ih => exact hfollows.bind (sendResponse_follows hR len) fun _ => ih _
  | sendNrc sid nrc k ih => exact hfollows.bind (sendNrc_follows hR sid nrc) fun _ => ih _
  | clientRequest sid data cb k ih =>
    exact hfollows.bind (clientRequest_follows hR sid data cb) fun _ => ih _

theorem Looked.follows {P B : Prop} (hR : Handling R) (h : Looked P B s es t) : Follows R s es t :=
  hR.same _ _ h.conversation

theorem Path.follows {sid : UInt8} {P B K : Prop} {c h : Bool} {m : M W ℤ} (hR : Handling R)
    (hm : Path cfg sid P B K c h m) : Keeps (Follows R) m := by
  have hfollows := follows_composable (W := W) hR
  induction hm with
  | refuse nrc hK => exact sendNrc_follows hR _ _
  | send hlen => exact sendResponse_follows hR _
  | sendThen hlen hk hv =>
    exact hfollows.bind (sendResponse_follows hR _) fun s t => (Look.composed (hk _) t).follows hR
  | withhold hB => exact fun _ => hR.of_eq rfl
  | look hm hf ih => exact hfollows.bind (fun s => (Look.composed hm s).follows hR) ih
  | head bs hf ih => exact hfollows.bind (fun _ => hR.of_eq rfl) fun _ => ih
  | commit hg hconv hpair hf ih =>
    apply hfollows.bind _ fun _ => ih
    exact fun s => hR.of_conversation (hconv s.ctx)
  | store addr bs hf ih => exact hfollows.bind (fun _ => hR.of_eq rfl) fun _ => ih

/-- Every handler keeps the relation. -/
theorem handler_follows (hR : Handling R) {service : Service W} {sid : UInt8}
    (hfound : findService cfg sid = some service) (d : Sdu) :
    Keeps (Follows R) (service.handler d) := by
  unfold findService at hfound
  cases huser : cfg.userServices.find? fun entry => entry.sid = sid with
  | some entry =>
    rw [huser] at hfound
    obtain rfl := Option.some.inj hfound
    exact runApp_follows hR _
  | none =>
    rw [huser] at hfound
    exact (coreServices_path d service (List.mem_of_find?_eq_some hfound)).follows hR

/-- So does the callback of the client with what follows it. -/
theorem takeAnswer_follows (hR : Handling R) (d : Sdu) : Keeps (Follows R) (takeAnswer cfg d) := by
  have hfollows := follows_composable (W := W) hR
  have hdone : Keeps (Follows (W := W) R) (setCtx fun c => { c with clientCb := none }) :=
    fun s => hR.asked s.ctx s.ctx.pendingSid none
  have hanswered : Keeps (Follows (W := W) R) (setCtx fun c => { c with pendingSid := 0 }) :=
    fun s => hR.asked s.ctx 0 s.ctx.clientCb
  have hctx : Keeps (Follows (W := W) R) getCtx := hfollows.refl
  have hcallback : Keeps (Follows R) (runResponseCb cfg d) := by
    unfold runResponseCb
    apply hfollows.bind hctx
    intro _
    split
    · exact hfollows.refl
    · apply hfollows.bind (fun _ => hR.of_eq rfl)
      intro _
      exact hfollows.bind (runApp_follows hR _) fun _ => hdone
  exact hfollows.bind hcallback fun _ => hanswered

end UdsLib.Core
