import UdsLib.Core.Composition

/-! What a handler can do between its entry and its answer, said once for all of them: it looks
around, it writes to the part of the context that belongs to accepted requests, and it ends in
one answer. -/
namespace UdsLib.Core
open Bytes Machine Prog Services

variable {W : Type} {cfg : Config W} {sid : UInt8} {P B K : Prop} {c h : Bool}

/-- The fields of the context that belong to the exchange of messages. -/
structure Conversation where
  lastMsgTime : UInt32
  p2TimerStart : UInt32
  p2MsgPending : Bool
  p2StarActive : Bool
  clientCb : Option ℕ
  pendingSid : UInt8
  suppressPosResp : Bool
  p2Ms : UInt16
  p2StarMs : UInt32
  rcrrpCount : UInt16

def Ctx.conversation (c : Ctx) : Conversation where
  lastMsgTime := c.lastMsgTime
  p2TimerStart := c.p2TimerStart
  p2MsgPending := c.p2MsgPending
  p2StarActive := c.p2StarActive
  clientCb := c.clientCb
  pendingSid := c.pendingSid
  suppressPosResp := c.suppressPosResp
  p2Ms := c.p2Ms
  p2StarMs := c.p2StarMs
  rcrrpCount := c.rcrrpCount

/-- The fields of the context that a request may change only if it is accepted. -/
structure Diagnostic where
  activeSession : UInt8
  securityLevel : UInt8
  commState : UInt8
  flashSequence : UInt8
  periodicIds : Fin 8 → UInt8
  periodicRates : Fin 8 → UInt8
  periodicTimers : Fin 8 → UInt32
  periodicCount : UInt8

def Ctx.diagnostic (c : Ctx) : Diagnostic where
  activeSession := c.activeSession
  securityLevel := c.securityLevel
  commState := c.commState
  flashSequence := c.flashSequence
  periodicIds := c.periodicIds
  periodicRates := c.periodicRates
  periodicTimers := c.periodicTimers
  periodicCount := c.periodicCount

/-- The session and the security level, which `fn_nvm_save` stores. -/
def Ctx.pair (c : Ctx) : UInt8 × UInt8 := (c.activeSession, c.securityLevel)

/-- The room that a callback is given to fill. -/
def Call.room? : Call → Option Room
  | .securitySeed _ room => some room
  | .dtcRead _ room => some room
  | .auth _ _ room => some room
  | .routineControl _ _ _ room => some room
  | .memRead _ _ room => some room
  | .ioControl _ _ _ room => some room
  | .didRead _ room => some room
  | _ => none

/-- The calls that belong to the public functions, not to a handler. -/
def Call.isLock : Call → Bool
  | .mutexLock => true
  | .mutexUnlock => true
  | _ => false

/-- The calls that go with a write to the session or the security level. -/
def Call.isPair : Call → Bool
  | .nvmSave _ => true
  | .securityKey _ _ => true
  | _ => false

/-- The transmit buffer holds at least 10 bytes, and a callback reports at most as many bytes
as it was given room for. -/
structure Contract (cfg : Config W) : Prop where
  buffer : 10 ≤ cfg.txBufferSize.toNat
  written : ∀ ctx call w room, call.room? = some room → (cfg.app ctx call w).1.ret ≤ room.cap

/-- The actions that leave alone what a request may change. Those of the session and the
security level are there under `P`, and suppression under `B`. -/
inductive Look (cfg : Config W) (P B : Prop) : (α : Type) → M W α → Prop where
  | reads {α : Type} (f : Sys W → α) : Look cfg P B α (Prog.reads f)
  | getTime : Look cfg P B UInt32 (Core.getTime cfg)
  | invoke {call : Call} (hlock : call.isLock = false) (hpair : call.isPair = true → P) :
      Look cfg P B Reply (Core.invoke cfg call)
  | byteAt (d : Sdu) (i : ℕ) : Look cfg P B UInt8 (Core.byteAt d i)
  | bytesAt (d : Sdu) (off n : ℕ) : Look cfg P B (List UInt8) (Core.bytesAt d off n)
  | fault (f : Fault) : Look cfg P B Unit (emit (.fault f))
  | fill {off : ℕ} (hoff : 0 < off) (bs : List UInt8) :
      Look cfg P B Unit (Core.writeTx cfg off bs)
  | note {g : Ctx → Ctx} (hg : CtxWrite g) (hdiag : ∀ c, (g c).diagnostic = c.diagnostic)
      (hconv : ∀ c, (g c).conversation = c.conversation) : Look cfg P B Unit (setCtx g)
  | setSuppress (hB : B) : Look cfg P B Unit Services.setSuppress

/-- The ways of a handler of the service `sid` to its answer. Before it, `committed` tells
whether the handler has written what a request may change, and `headed` whether the first byte
of the response is in place. `K` is the condition for refusing after such a write. -/
inductive Path (cfg : Config W) (sid : UInt8) (P B K : Prop) :
    (committed headed : Bool) → M W ℤ → Prop where
  | refuse {c h : Bool} (nrc : UInt8) (hK : c = true → K) :
      Path cfg sid P B K c h (sendNrc cfg sid nrc)
  | send {c : Bool} {len : UInt16}
      (hlen : Contract cfg → 1 ≤ len.toNat ∧ len ≤ cfg.txBufferSize) :
      Path cfg sid P B K c true (sendResponse cfg len)
  | sendThen {c : Bool} {len : UInt16} {k : ℤ → M W ℤ}
      (hlen : Contract cfg → 1 ≤ len.toNat ∧ len ≤ cfg.txBufferSize)
      (hk : ∀ r, Composed (Look cfg P B) (k r)) (hv : ∀ r s, (k r).value s = udsOk) :
      Path cfg sid P B K c true (sendResponse cfg len >>= k)
  | withhold {c h : Bool} (hB : B) : Path cfg sid P B K c h returnSuppressed
  | look {c h : Bool} {α : Type} {m : M W α} {f : α → M W ℤ} (hm : Composed (Look cfg P B) m)
      (hf : ∀ s, Path cfg sid P B K c h (f (m.value s))) : Path cfg sid P B K c h (m >>= f)
  | head {c h : Bool} (bs : List UInt8) {f : Unit → M W ℤ}
      (hf : Path cfg sid P B K c true (f ())) :
      Path cfg sid P B K c h (writeTx cfg 0 ((sid + responseOffset) :: bs) >>= f)
  | commit {c h : Bool} {g : Ctx → Ctx} {f : Unit → M W ℤ} (hg : CtxWrite g)
      (hconv : ∀ c, (g c).conversation = c.conversation) (hpair : (∀ c, (g c).pair = c.pair) ∨ P)
      (hf : Path cfg sid P B K true h (f ())) : Path cfg sid P B K c h (setCtx g >>= f)
  | store {c h : Bool} (addr : ℕ) (bs : List UInt8) {f : Unit → M W ℤ}
      (hf : Path cfg sid P B K true h (f ())) :
      Path cfg sid P B K c h (writeMem addr bs >>= f)

namespace Look

theorem action {α : Type} {m : M W α} (hm : Look cfg P B α m) : Action cfg B α m := by
  cases hm with
  | reads f => exact .reads f
  | getTime => exact .getTime
  | invoke hlock hpair => exact .invoke _
  | byteAt d i => exact .byteAt d i
  | bytesAt d off n => exact .bytesAt d off n
  | fault f => exact .fault f
  | fill hoff bs => exact .writeTx _ bs
  | note hg hdiag hconv => exact .setCtx hg
  | setSuppress hB => exact .setSuppress hB

theorem optional {p : Prop} [Decidable p] {m : M W Unit} (hm : p → Composed (Look cfg P B) m) :
    Composed (Look cfg P B) (onlyIf p m) :=
  .ite hm fun _ => .pure ()

theorem call {call : Call} (hlock : call.isLock = false) (hpair : call.isPair = true → P) :
    Composed (Look cfg P B) (invokeVoid cfg call) :=
  .bind (.act (.invoke hlock hpair)) fun _ => .pure ()

theorem log (level : UInt8) (msg : String) :
    Composed (Look cfg P B) (internalLog cfg level msg) :=
  optional fun _ => call rfl fun hp => absurd hp Bool.false_ne_true

theorem safetyGate (sid : UInt8) (d : Sdu) : Composed (Look cfg P B) (safetyGate cfg sid d) := by
  refine .ite (fun _ => .pure _) fun _ => .bind (.act (.invoke rfl ?_)) fun _ => .pure _
  exact fun hp => absurd hp Bool.false_ne_true

theorem readBe (d : Sdu) (off n : ℕ) : Composed (Look cfg P B) (readBe d off n) := by
  induction n with
  | zero => exact .pure 0
  | succ n ih => exact .bind ih fun _ => .bind (.act (.byteAt _ _)) fun _ => .pure _

theorem parseAddrLen (d : Sdu) (off : ℕ) (len : UInt16) (format : UInt8) :
    Composed (Look cfg P B) (parseAddrLen d off len format) := by
  unfold Core.parseAddrLen
  refine .ite (fun _ => .pure _) fun _ => .ite (fun _ => .pure _) fun _ => ?_
  exact .bind (readBe _ _ _) fun _ => .bind (readBe _ _ _) fun _ => .pure _

end Look

namespace Path

theorem byte {d : Sdu} {i : ℕ} {f : UInt8 → M W ℤ} (hf : Path cfg sid P B K c h (f (d.byte i))) :
    Path cfg sid P B K c h (byteAt d i >>= f) :=
  .look (.act (.byteAt d i)) fun _ => hf

theorem ctx {f : Ctx → M W ℤ} (hf : ∀ ctx, Path cfg sid P B K c h (f ctx)) :
    Path cfg sid P B K c h (getCtx >>= f) :=
  .look (.act (.reads _)) fun _ => hf _

theorem time {f : UInt32 → M W ℤ} (hf : ∀ now, Path cfg sid P B K c h (f now)) :
    Path cfg sid P B K c h (getTime cfg >>= f) :=
  .look (.act .getTime) fun _ => hf _

theorem ite {p : Prop} [Decidable p] {m n : M W ℤ} (hm : p → Path cfg sid P B K c h m)
    (hn : ¬ p → Path cfg sid P B K c h n) : Path cfg sid P B K c h (if p then m else n) := by
  split_ifs with hp
  · exact hm hp
  · exact hn hp

/-- A check that refuses goes on where it does not apply. -/
theorem check {p : Prop} [Decidable p] {nrc : UInt8} {n : M W ℤ}
    (hn : ¬ p → Path cfg sid P B K false h n) :
    Path cfg sid P B K false h (if p then sendNrc cfg sid nrc else n) :=
  ite (fun _ => .refuse nrc fun hc => absurd hc Bool.false_ne_true) hn

theorem deny (nrc : UInt8) : Path cfg sid P B K false h (sendNrc cfg sid nrc) :=
  .refuse nrc fun hc => absurd hc Bool.false_ne_true

/-- A positive response with its head. -/
theorem respond {bs : List UInt8} {len : UInt16}
    (hlen : Contract cfg → 1 ≤ len.toNat ∧ len ≤ cfg.txBufferSize) :
    Path cfg sid P B K c h
      (writeTx cfg 0 ((sid + responseOffset) :: bs) >>= fun _ => sendResponse cfg len) :=
  .head bs (.send hlen)

/-- Every contract leaves room for 10 bytes. -/
theorem short_fits {len : UInt16} (hlen : 1 ≤ len.toNat ∧ len.toNat ≤ 10) :
    Contract cfg → 1 ≤ len.toNat ∧ len ≤ cfg.txBufferSize := by
  intro hcontract
  have := hcontract.buffer
  exact ⟨hlen.1, UInt16.le_iff_toNat_le.mpr (by omega)⟩

/-- A positive response of at most 10 bytes. -/
theorem reply {bs : List UInt8} {len : UInt16} (hlen : 1 ≤ len.toNat ∧ len.toNat ≤ 10) :
    Path cfg sid P B K c h
      (writeTx cfg 0 ((sid + responseOffset) :: bs) >>= fun _ => sendResponse cfg len) :=
  respond (short_fits hlen)

theorem call {call : Call} {f : Reply → M W ℤ} (hlock : call.isLock = false)
    (hpair : call.isPair = true → P) (hf : ∀ reply, Path cfg sid P B K c h (f reply)) :
    Path cfg sid P B K c h (invoke cfg call >>= f) :=
  .look (.act (.invoke hlock hpair)) fun _ => hf _

theorem mayCommit {p : Prop} [Decidable p] {g : Ctx → Ctx} {f : Unit → M W ℤ} (hg : CtxWrite g)
    (hconv : ∀ c, (g c).conversation = c.conversation) (hpair : (∀ c, (g c).pair = c.pair) ∨ P)
    (hf : ∀ c, Path cfg sid P B K c h (f ())) :
    Path cfg sid P B K c h (onlyIf p (setCtx g) >>= f) := by
  unfold onlyIf
  rw [Prog.ite_then]
  exact ite (fun _ => .commit hg hconv hpair (hf true)) fun _ => hf c

/-- A callback that fills a room behind the head goes on with a count that fits it. -/
theorem callOut {call : Call} {off cap : ℕ} {f : ℤ → M W ℤ}
    (hroom : call.room? = some ⟨off, cap⟩) (hoff : 0 < off) (hlock : call.isLock = false)
    (hpair : call.isPair = true → P)
    (hf : ∀ n : ℤ, (Contract cfg → n ≤ cap) → Path cfg sid P B K c h (f n)) :
    Path cfg sid P B K c h (invokeOut cfg call off >>= f) := by
  refine .look (.bind (.act (.invoke hlock hpair)) fun _ => ?_) fun s => ?_
  · exact .bind (.act (.fill hoff _)) fun _ => .pure _
  · exact hf _ fun hcontract => hcontract.written _ _ _ _ hroom

theorem steps {m : M W ℤ} (hm : Path cfg sid P B K c h m) : Steps cfg B m := by
  induction hm with
  | refuse nrc hK => exact Steps.sendNrc _ _
  | send hlen => exact .act (.sendResponse _)
  | sendThen hlen hk hv => exact .bind (.act (.sendResponse _)) fun _ => (hk _).mono Look.action
  | withhold hB => exact .bind (.act (.withhold hB)) fun _ => .pure _
  | look hm hf ih => exact .bind (hm.mono Look.action) ih
  | head bs hf ih => exact .bind (.act (.writeTx _ _)) fun _ => ih
  | commit hg hconv hpair hf ih => exact .bind (.act (.setCtx hg)) fun _ => ih
  | store addr bs hf ih => exact .bind (.act (.outside _ fun _ => rfl)) fun _ => ih

end Path

/-! ### What a look leaves alone -/

/-- An event of a handler before its answer. -/
def Event.isLook : Event → Bool
  | .time _ => true
  | .fault _ => true
  | .call c _ => !c.isLock
  | _ => false

/-- A call that goes with a write to the session or the security level. -/
def Event.isPair : Event → Bool
  | .call c _ => c.isPair
  | _ => false

/-- Nothing changes that a request may change, the first byte of the transmit buffer stays, the
suppression flag moves only towards `B`, and the calls are those of a handler. -/
structure Looked (P B : Prop) (s : Sys W) (es : List Event) (t : Sys W) : Prop where
  diagnostic : t.ctx.diagnostic = s.ctx.diagnostic
  mem : t.mem = s.mem
  head : t.tx 0 = s.tx 0
  conversation : t.ctx.conversation =
    { s.ctx.conversation with suppressPosResp := t.ctx.suppressPosResp }
  flag : (s.ctx.suppressPosResp = true ↔ B) → (t.ctx.suppressPosResp = true ↔ B)
  events : ∀ e ∈ es, e.isLook = true
  pair : ∀ e ∈ es, e.isPair = true → P

theorem looked_composable : Composable (Looked (W := W) P B) where
  refl s := ⟨rfl, rfl, rfl, rfl, id, nofun, nofun⟩
  trans h hnext := by
    constructor
    · exact hnext.diagnostic.trans h.diagnostic
    · exact hnext.mem.trans h.mem
    · exact hnext.head.trans h.head
    · rw [hnext.conversation, h.conversation]
    · exact fun hs => hnext.flag (h.flag hs)
    · exact List.forall_mem_append.mpr ⟨h.events, hnext.events⟩
    · exact List.forall_mem_append.mpr ⟨h.pair, hnext.pair⟩

/-- Events of one kind that leave the state alone. -/
theorem looked_faults {s : Sys W} {es : List Event} (h : ∀ e ∈ es, ∃ f, e = .fault f) :
    Looked P B s es s := by
  refine ⟨rfl, rfl, rfl, rfl, id, ?_, ?_⟩
  · exact faults_forall h fun _ => rfl
  · exact faults_forall h fun _ hp => absurd hp Bool.false_ne_true

theorem Look.looked {α : Type} {m : M W α} (hm : Look cfg P B α m) : Keeps (Looked P B) m := by
  cases hm with
  | reads f => exact fun s => looked_composable.refl s
  | getTime =>
    refine fun s => ⟨rfl, rfl, rfl, rfl, id, fun e he => ?_, fun e he => ?_⟩
    · obtain rfl := List.mem_singleton.mp he
      rfl
    · obtain rfl := List.mem_singleton.mp he
      exact fun hp => absurd hp Bool.false_ne_true
  | @invoke call hlock hpair =>
    refine fun s => ⟨rfl, rfl, rfl, rfl, id, fun e he => ?_, fun e he => ?_⟩
    · obtain rfl := List.mem_singleton.mp he
      exact congrArg not hlock
    · obtain rfl := List.mem_singleton.mp he
      exact hpair
  | byteAt d i => exact fun s => looked_faults fun e => byteAt_faults s
  | bytesAt d off n => exact fun s => looked_faults fun e => bytesAt_faults s
  | fault f => exact fun s => looked_faults fun e he => ⟨f, List.mem_singleton.mp he⟩
  | @fill off hoff bs =>
    intro s
    have hfaults : ∀ e ∈ (writeTx cfg off bs).outputs s, ∃ f, e = .fault f :=
      fun _ => writeTx_faults s
    have hevents : Looked P B s _ s := looked_faults hfaults
    exact ⟨rfl, rfl, blit_outside _ _ _ _ (Or.inl hoff), rfl, id, hevents.events, hevents.pair⟩
  | note hg hdiag hconv =>
    intro s
    have hflag := congrArg Conversation.suppressPosResp (hconv s.ctx)
    have hsame (b : Bool) (hb : s.ctx.suppressPosResp = b) :
        s.ctx.conversation = { s.ctx.conversation with suppressPosResp := b } := hb ▸ rfl
    refine ⟨hdiag _, rfl, rfl, ?_, fun hs => ?_, nofun, nofun⟩
    · exact (hconv s.ctx).trans (hsame _ hflag.symm)
    · exact (iff_of_eq (congrArg (· = true) hflag)).trans hs
  | setSuppress hB =>
    exact fun s => ⟨rfl, rfl, rfl, rfl, fun _ => ⟨fun _ => hB, fun _ => rfl⟩, nofun, nofun⟩

theorem Look.composed {α : Type} {m : M W α} (hm : Composed (Look cfg P B) m) :
    Keeps (Looked P B) m :=
  hm.keeps looked_composable fun _ _ => Look.looked

/-! ### Results -/

theorem sendNrc_nonpos (hsend : ∀ c data w, (cfg.fnTpSend c data w).1 ≤ 0) (sid nrc : UInt8)
    (s : Sys W) : (sendNrc cfg sid nrc).value s ≤ 0 := by
  unfold sendNrc
  by_cases hfits : cfg.txBufferSize < 3
  · rw [if_pos hfits]
    exact (by decide : udsErrBufferTooSmall ≤ 0)
  · rw [if_neg hfits]
    exact hsend _ _ _

theorem sendResponse_nonpos (hsend : ∀ c data w, (cfg.fnTpSend c data w).1 ≤ 0) (len : UInt16)
    (s : Sys W) : (sendResponse cfg len).value s ≤ 0 := by
  by_cases hlen : len ≤ cfg.txBufferSize
  · unfold value
    cases hflag : s.ctx.suppressPosResp with
    | true => exact Int.le_of_eq (congrArg Prod.fst (sendResponse_suppressed hlen hflag))
    | false =>
      rw [sendResponse_sends hlen hflag]
      exact hsend _ _ _
  · unfold sendResponse
    rw [if_pos (UInt16.not_le.mp hlen)]
    exact (by decide : udsErrBufferTooSmall ≤ 0)

/-- However a handler comes to its answer, it returns no positive value. -/
theorem Path.nonpos {sid : UInt8} {P B K : Prop} {c h : Bool} {m : M W ℤ}
    (hm : Path cfg sid P B K c h m) (hsend : ∀ c data w, (cfg.fnTpSend c data w).1 ≤ 0) (s : Sys W) :
    m.value s ≤ 0 := by
  induction hm generalizing s with
  | refuse nrc hK => exact sendNrc_nonpos hsend _ _ _
  | send hlen => exact sendResponse_nonpos hsend _ _
  | sendThen hlen hk hv => exact Int.le_of_eq (hv _ _)
  | withhold hB => exact Int.le_refl 0
  | look hm hf ih => exact ih _ _
  | head bs hf ih => exact ih _
  | commit hg hconv hpair hf ih => exact ih _
  | store addr bs hf ih => exact ih _

end UdsLib.Core
