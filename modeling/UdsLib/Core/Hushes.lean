import UdsLib.Core.Frame
import UdsLib.Core.Gate
import UdsLib.Machine.Twin

/-! Two requests side by side that differ in bit 7 of the sub-function byte. Their runs are alike but
for the positive response, which the second does not send; every action of a handler that does not
look at the bit keeps them so. -/
namespace UdsLib.Core
open Bytes Machine Prog Services

variable {W : Type} {cfg : Config W} {α β : Type}

/-- The request with bit 7 of its sub-function byte clear. -/
def loud (d : Sdu) : Sdu :=
  ⟨d.bytes.set 1 (d.byte 1 &&& 0x7F), by simpa using d.length_lt⟩

/-- The request with bit 7 of its sub-function byte set. -/
def quiet (d : Sdu) : Sdu :=
  ⟨d.bytes.set 1 (d.byte 1 ||| 0x80), by simpa using d.length_lt⟩

/-- A call of the application with its arguments, less the request that `fn_is_safe` is handed
as it came. -/
def Event.called? : Event → Option Call
  | .call (.isSafe sid _) _ => some (.isSafe sid ⟨0, 0, []⟩)
  | .call c _ => some c
  | _ => none

def callsOf (es : List Event) : List Call := es.filterMap Event.called?

/-- A call of `fn_tp_send`: what kind of message, and its bytes. -/
def Event.message? : Event → Option (Origin × List UInt8)
  | .tpSend origin data _ => some (origin, data)
  | _ => none

def messagesOf (es : List Event) : List (Origin × List UInt8) := es.filterMap Event.message?

/-- The contexts agree but for the suppression flag, which the first run leaves down. -/
def SameButFlag (u v : Sys W) : Prop :=
  u.ctx = { v.ctx with suppressPosResp := false } ∧ v.mem = u.mem

/-- The calls are the same, and the messages are those that are not a positive response. -/
def Muted (es fs : List Event) : Prop :=
  callsOf fs = callsOf es ∧
    messagesOf fs = (messagesOf es).filter fun message => message.1 ≠ .response

/-- The second run differs from the first in the positive response, which it does not send. -/
structure OnlySilenced (first second : Sys W × List Event) : Prop where
  same : SameButFlag first.1 second.1
  muted : Muted first.2 second.2

/-- The application does not look at bit 7 of the request: its callbacks not at the flag that
the dispatcher takes from it, `fn_is_safe` not at the bit. `fn_tp_send` returns 0 on success and
a negative error code on failure. -/
structure IgnoresBit (cfg : Config W) (d : Sdu) : Prop where
  flag : ∀ ctx call w b, cfg.app { ctx with suppressPosResp := b } call w = cfg.app ctx call w
  gate : ∀ ctx w,
    cfg.app ctx (.isSafe (d.byte 0) ((quiet d).slice 0 (quiet d).bytes.length)) w =
      cfg.app ctx (.isSafe (d.byte 0) ((loud d).slice 0 (loud d).bytes.length)) w
  send : ∀ ctx data w, (cfg.fnTpSend ctx data w).1 ≤ 0

/-! ### The two forms of a request -/

/-- Two requests of at least two bytes that differ in bit 7 of the sub-function byte. -/
structure Forms (l q : Sdu) : Prop where
  length : q.bytes.length = l.bytes.length
  rest : ∀ i, i ≠ 1 → q.byte i = l.byte i
  slices : ∀ off n, 2 ≤ off → q.slice off n = l.slice off n
  sub : q.byte 1 &&& 0x7F = l.byte 1 &&& 0x7F
  down : l.byte 1 &&& 0x80 = 0
  up : q.byte 1 &&& 0x80 ≠ 0

theorem byte_set_ne {d : Sdu} {v : UInt8} {h : (d.bytes.set 1 v).length < 65536} {i : ℕ}
    (hi : i ≠ 1) : (Sdu.mk (d.bytes.set 1 v) h).byte i = d.byte i := by
  unfold Sdu.byte
  rw [List.getD_eq_getElem?_getD, List.getD_eq_getElem?_getD, List.getElem?_set_ne hi.symm]

theorem byte_set_self {d : Sdu} {v : UInt8} {h : (d.bytes.set 1 v).length < 65536}
    (hd : 2 ≤ d.bytes.length) : (Sdu.mk (d.bytes.set 1 v) h).byte 1 = v := by
  unfold Sdu.byte
  rw [List.getD_eq_getElem?_getD, List.getElem?_set_self (by omega), Option.getD_some]

theorem slice_set {d : Sdu} {v : UInt8} {h : (d.bytes.set 1 v).length < 65536} {off : ℕ} (n : ℕ)
    (hoff : 2 ≤ off) : (Sdu.mk (d.bytes.set 1 v) h).slice off n = d.slice off n := by
  unfold Sdu.slice
  rw [List.drop_set_of_lt (by omega)]

theorem or_and_distrib (a b m : UInt8) : (a ||| b) &&& m = a &&& m ||| b &&& m := by
  apply UInt8.toBitVec_inj.mp
  ext i hi
  simp [Bool.and_or_distrib_right]

theorem forms {d : Sdu} (hd : 2 ≤ d.bytes.length) : Forms (loud d) (quiet d) := by
  constructor
  · simp [loud, quiet]
  · intro i hi
    rw [loud, quiet, byte_set_ne hi, byte_set_ne hi]
  · intro off n hoff
    rw [loud, quiet, slice_set n hoff, slice_set n hoff]
  · rw [loud, quiet, byte_set_self hd, byte_set_self hd, or_and_distrib, UInt8.and_assoc,
      UInt8.and_self]
    exact UInt8.or_zero
  · rw [loud, byte_set_self hd, UInt8.and_assoc]
    exact UInt8.and_zero
  · rw [quiet, byte_set_self hd, or_and_distrib]
    exact fun h => absurd (UInt8.or_eq_zero_iff.mp h).2 (by decide)

/-! ### Two runs side by side -/

theorem callsOf_append (es fs : List Event) : callsOf (es ++ fs) = callsOf es ++ callsOf fs :=
  List.filterMap_append ..

theorem messagesOf_append (es fs : List Event) :
    messagesOf (es ++ fs) = messagesOf es ++ messagesOf fs :=
  List.filterMap_append ..

theorem muted_congruence : Congruence Muted where
  nil := ⟨rfl, rfl⟩
  append h h' := by
    constructor
    · rw [callsOf_append, callsOf_append, h.1, h'.1]
    · rw [messagesOf_append, messagesOf_append, List.filter_append, h.2, h'.2]

theorem faults_unheard {es : List Event} (h : ∀ e ∈ es, ∃ f, e = .fault f) :
    callsOf es = [] ∧ messagesOf es = [] := by
  constructor
  all_goals
    apply List.filterMap_eq_nil_iff.mpr
    exact faults_forall h fun _ => rfl

theorem muted_faults {es fs : List Event} (hes : ∀ e ∈ es, ∃ f, e = .fault f)
    (hfs : ∀ e ∈ fs, ∃ f, e = .fault f) : Muted es fs := by
  obtain ⟨hcalls, hmessages⟩ := faults_unheard hes
  obtain ⟨hcalls', hmessages'⟩ := faults_unheard hfs
  constructor
  · rw [hcalls, hcalls']
  · rw [hmessages, hmessages']
    rfl

theorem muted_call (call : Call) (ret ret' : ℤ) : Muted [.call call ret] [.call call ret'] := by
  cases call <;> exact ⟨rfl, rfl⟩

/-- The second state has the flag up, and besides only the transmit buffers differ. No request
is in progress in either. -/
structure Alike (u v : Sys W) : Prop where
  down : u.ctx.suppressPosResp = false
  idle : u.ctx.p2MsgPending = false
  count : u.ctx.rcrrpCount = 0
  ctx : v.ctx = { u.ctx with suppressPosResp := true }
  mem : v.mem = u.mem
  world : v.world = u.world

/-- Neither handler asks for more time, and their ends agree. -/
def Finished (x : ℤ) (u : Sys W) (y : ℤ) (v : Sys W) : Prop :=
  x ≠ udsPending ∧ y ≠ udsPending ∧ SameButFlag u v

/-- From states alike, the handlers differ in the positive response alone. -/
def Hushes (m n : M W ℤ) : Prop := ∀ u v, Alike u v → Twin Muted m n u v Finished

/-- From states alike, the actions do the same and give results related by `S`. -/
def Agrees (S : α → β → Prop) (m : M W α) (n : M W β) : Prop :=
  ∀ u v, Alike u v → Twin Muted m n u v fun a u' b v' => S a b ∧ Alike u' v'

theorem Alike.same {u v : Sys W} (h : Alike u v) : SameButFlag u v := by
  have hdown := h.down
  refine ⟨?_, h.mem⟩
  rw [h.ctx, ← hdown]

theorem nonpos_ne_pending {x : ℤ} (h : x ≤ 0) : x ≠ udsPending :=
  fun hx => absurd (hx ▸ h) (by decide)

theorem udsOk_ne_pending : udsOk ≠ udsPending := by decide

theorem tooSmall_ne_pending : udsErrBufferTooSmall ≠ udsPending := by decide

theorem messagesOf_sendNrc (cfg : Config W) (sid nrc : UInt8) (s : Sys W) :
    callsOf ((sendNrc cfg sid nrc).outputs s) = [] ∧ messagesOf ((sendNrc cfg sid nrc).outputs s) =
      if 3 ≤ cfg.txBufferSize then [(.nrc, [nrcServiceNotSuppInSess, sid, nrc])] else [] := by
  obtain ⟨faults, hfaults, ret, houtputs⟩ := sendNrc_outputs cfg sid nrc s
  have hnone := faults_unheard hfaults
  rw [houtputs]
  split_ifs
  · rw [callsOf_append, messagesOf_append, hnone.1, hnone.2]
    exact ⟨rfl, rfl⟩
  · exact ⟨rfl, rfl⟩

theorem sendResponse_calls (len : UInt16) (s : Sys W) :
    callsOf ((sendResponse cfg len).outputs s) = [] := by
  unfold sendResponse
  rw [outputs_ite]
  split_ifs
  · rfl
  · rw [outputs_bind, outputs_getCtx_bind, outputs_ite]
    split_ifs <;> rfl

/-- The negative answer is the same in both runs. -/
theorem sendNrc_same (cfg : Config W) {u v : Sys W} (h : SameButFlag u v) (sid nrc : UInt8) :
    Muted ((sendNrc cfg sid nrc).outputs u) ((sendNrc cfg sid nrc).outputs v) ∧
      SameButFlag ((sendNrc cfg sid nrc).final u) ((sendNrc cfg sid nrc).final v) := by
  obtain ⟨hcalls, hmessages⟩ := messagesOf_sendNrc cfg sid nrc u
  obtain ⟨hcalls', hmessages'⟩ := messagesOf_sendNrc cfg sid nrc v
  have hsid : u.ctx.pendingSid = v.ctx.pendingSid := by rw [h.1]
  refine ⟨⟨hcalls'.trans hcalls.symm, ?_⟩, ?_, ?_⟩
  · rw [hmessages, hmessages']
    split_ifs <;> rfl
  · rw [sendNrc_ctx, sendNrc_ctx, hsid, h.1]
    split_ifs <;> rfl
  · rw [(sendNrc_spared cfg sid nrc u).mem, (sendNrc_spared cfg sid nrc v).mem, h.2]

namespace Hushes

variable {m n : M W ℤ} {f : α → M W ℤ} {g : β → M W ℤ} {d l q : Sdu}

theorem look {S : α → β → Prop} {m : M W α} {n : M W β} (hm : Agrees S m n)
    (hf : ∀ a b, S a b → Hushes (f a) (g b)) : Hushes (m >>= f) (n >>= g) :=
  fun u v h => muted_congruence.bind (hm u v h) fun _ u' _ v' hab => hf _ _ hab.1 u' v' hab.2

theorem ite {c c' : Prop} [Decidable c] [Decidable c'] {m' n' : M W ℤ} (hiff : c ↔ c')
    (hm : c → Hushes m n) (hn : ¬ c → Hushes m' n') :
    Hushes (if c then m else m') (if c' then n else n') :=
  fun u v h => .ite hiff (fun hc => hm hc u v h) fun hc => hn hc u v h

theorem refuse (hcfg : IgnoresBit cfg d) (sid nrc : UInt8) :
    Hushes (sendNrc cfg sid nrc) (sendNrc cfg sid nrc) := by
  intro u v h
  obtain ⟨hmuted, hsame⟩ := sendNrc_same cfg h.same sid nrc
  have hne (s : Sys W) := nonpos_ne_pending (sendNrc_nonpos hcfg.send sid nrc s)
  exact ⟨hmuted, hne u, hne v, hsame⟩

/-- A check that refuses is made in both runs. -/
theorem check (hcfg : IgnoresBit cfg d) {sid nrc : UInt8} {c : Prop}
    [Decidable c] (hn : ¬ c → Hushes m n) :
    Hushes (if c then sendNrc cfg sid nrc else m) (if c then sendNrc cfg sid nrc else n) :=
  ite Iff.rfl (fun _ => refuse hcfg sid nrc) hn

theorem send (hcfg : IgnoresBit cfg d) (len : UInt16) :
    Hushes (sendResponse cfg len) (sendResponse cfg len) := by
  intro u v h
  by_cases hlen : len ≤ cfg.txBufferSize
  · have hup : v.ctx.suppressPosResp = true := by rw [h.ctx]
    have hle := nonpos_ne_pending (hcfg.send { u.ctx with p2MsgPending := false, rcrrpCount := 0 }
      (slice u.tx 0 len.toNat) u.world)
    have hdown := h.down
    constructor
    · unfold outputs
      rw [sendResponse_sends hlen h.down, sendResponse_suppressed hlen hup]
      exact ⟨rfl, rfl⟩
    · unfold value final
      rw [sendResponse_sends hlen h.down, sendResponse_suppressed hlen hup]
      refine ⟨hle, udsOk_ne_pending, ?_, h.mem⟩
      rw [h.ctx, ← hdown]
      rfl
  · unfold sendResponse
    rw [if_pos (UInt16.not_le.mp hlen)]
    exact ⟨⟨rfl, rfl⟩, tooSmall_ne_pending, tooSmall_ne_pending, h.same⟩

/-- Where the first run answers, the second may return at once. -/
theorem withhold (hcfg : IgnoresBit cfg d) {off : ℕ}
    {bs : List UInt8} (len : UInt16) :
    Hushes (writeTx cfg off bs >>= fun _ => sendResponse cfg len) returnSuppressed := by
  intro u v h
  have hwritten : Muted ((writeTx cfg off bs).outputs u) [] :=
    muted_faults (fun e he => writeTx_faults u he) nofun
  apply muted_congruence.bind_left (f := fun _ => sendResponse cfg len) hwritten
  have hafter : Alike ((writeTx cfg off bs).final u) v :=
    ⟨h.down, h.idle, h.count, h.ctx, h.mem, h.world⟩
  generalize (writeTx cfg off bs).final u = u' at hafter
  by_cases hlen : len ≤ cfg.txBufferSize
  · have hle := nonpos_ne_pending (hcfg.send { u'.ctx with p2MsgPending := false, rcrrpCount := 0 }
      (slice u'.tx 0 len.toNat) u'.world)
    have hidle := hafter.idle
    have hcount := hafter.count
    constructor
    · unfold outputs
      rw [sendResponse_sends hlen hafter.down]
      exact ⟨rfl, rfl⟩
    · unfold value final
      rw [sendResponse_sends hlen hafter.down]
      refine ⟨hle, udsOk_ne_pending, Eq.trans ?_ hafter.same.1, hafter.mem⟩
      change { u'.ctx with p2MsgPending := false, rcrrpCount := 0 } = u'.ctx
      rw [← hidle, ← hcount]
  · unfold sendResponse
    rw [if_pos (UInt16.not_le.mp hlen)]
    exact ⟨⟨rfl, rfl⟩, tooSmall_ne_pending, udsOk_ne_pending, hafter.same⟩

theorem pause {f g : Unit → M W ℤ} {m n : M W Unit} (hm : Agrees (fun _ _ => True) m n)
    (hf : Hushes (f ()) (g ())) : Hushes (m >>= f) (n >>= g) :=
  look hm fun _ _ _ => hf

theorem time {f g : UInt32 → M W ℤ} (hf : ∀ now, Hushes (f now) (g now)) :
    Hushes (getTime cfg >>= f) (getTime cfg >>= g) := by
  apply look (S := Eq)
  · intro u v h
    have hsame : cfg.getTimeMs v.world = cfg.getTimeMs u.world := by rw [h.world]
    have hnow := congrArg Prod.fst hsame
    have hworld := congrArg Prod.snd hsame
    exact ⟨⟨rfl, rfl⟩, hnow.symm, h.down, h.idle, h.count, h.ctx, h.mem, hworld⟩
  · rintro now _ rfl
    exact hf now

theorem ctx {f g : Ctx → M W ℤ}
    (hf : ∀ c, Hushes (f c) (g { c with suppressPosResp := true })) :
    Hushes (getCtx >>= f) (getCtx >>= g) := by
  apply look (S := fun c c' => c' = { c with suppressPosResp := true })
  · exact fun u v h => ⟨⟨rfl, rfl⟩, h.ctx, h⟩
  · rintro c _ rfl
    exact hf c

theorem byte {f g : UInt8 → M W ℤ} {i : ℕ} (hf : Hushes (f (l.byte i)) (g (q.byte i))) :
    Hushes (byteAt l i >>= f) (byteAt q i >>= g) := by
  apply look (S := fun b b' => b = l.byte i ∧ b' = q.byte i)
  · exact fun u v h => ⟨muted_faults (fun _ => byteAt_faults u) fun _ => byteAt_faults v,
      ⟨rfl, rfl⟩, h⟩
  · rintro _ _ ⟨rfl, rfl⟩
    exact hf

theorem write {f g : Unit → M W ℤ} {off : ℕ} {bs bs' : List UInt8} (hf : Hushes (f ()) (g ())) :
    Hushes (writeTx cfg off bs >>= f) (writeTx cfg off bs' >>= g) := by
  apply pause _ hf
  intro u v h
  refine ⟨muted_faults (fun _ => writeTx_faults u) fun _ => writeTx_faults v, trivial, ?_⟩
  exact ⟨h.down, h.idle, h.count, h.ctx, h.mem, h.world⟩

theorem assigned {w : Ctx → Ctx} (hconv : ∀ c, (w c).conversation = c.conversation)
    (hw : ∀ c b, w { c with suppressPosResp := b } = { w c with suppressPosResp := b }) :
    Agrees (W := W) (fun _ _ => True) (setCtx w) (setCtx w) := by
  intro u v h
  have hkept := hconv u.ctx
  refine ⟨⟨rfl, rfl⟩, trivial, ?_, ?_, ?_, ?_, h.mem, h.world⟩
  · exact (congrArg Conversation.suppressPosResp hkept).trans h.down
  · exact (congrArg Conversation.p2MsgPending hkept).trans h.idle
  · exact (congrArg Conversation.rcrrpCount hkept).trans h.count
  · exact (congrArg w h.ctx).trans (hw _ _)

theorem assign {f g : Unit → M W ℤ} {w : Ctx → Ctx}
    (hconv : ∀ c, (w c).conversation = c.conversation)
    (hw : ∀ c b, w { c with suppressPosResp := b } = { w c with suppressPosResp := b })
    (hf : Hushes (f ()) (g ())) : Hushes (setCtx w >>= f) (setCtx w >>= g) :=
  pause (assigned hconv hw) hf

/-- The flag is up already in the second run. -/
theorem suppress {f g : Unit → M W ℤ} {c c' : Prop} [Decidable c] [Decidable c'] (hc : ¬ c)
    (hc' : c') (hf : Hushes (f ()) (g ())) :
    Hushes (onlyIf c setSuppress >>= f) (onlyIf c' setSuppress >>= g) := by
  apply pause _ hf
  intro u v h
  unfold onlyIf
  rw [if_neg hc, if_pos hc']
  refine ⟨⟨rfl, rfl⟩, trivial, h.down, h.idle, h.count, ?_, h.mem, h.world⟩
  change { v.ctx with suppressPosResp := true } = _
  rw [h.ctx]
  rfl

theorem called {call : Call}
    (hcfg : IgnoresBit cfg d) :
    Agrees Eq (invoke cfg call) (invoke cfg call) := by
  intro u v h
  have hsame : cfg.app v.ctx call v.world = cfg.app u.ctx call u.world := by
    rw [h.ctx, h.world, hcfg.flag]
  have hreply := congrArg Prod.fst hsame
  have hworld := congrArg Prod.snd hsame
  exact ⟨muted_call _ _ _, hreply.symm, h.down, h.idle, h.count, h.ctx, h.mem, hworld⟩

theorem call {f g : Reply → M W ℤ} {call : Call}
    (hcfg : IgnoresBit cfg d)
    (hf : ∀ reply, Hushes (f reply) (g reply)) :
    Hushes (invoke cfg call >>= f) (invoke cfg call >>= g) := by
  apply look (called hcfg)
  rintro reply _ rfl
  exact hf reply

theorem voidCall
    (hcfg : IgnoresBit cfg d)
    (call : Call) : Agrees (fun _ _ => True) (invokeVoid cfg call) (invokeVoid cfg call) := by
  intro u v h
  apply muted_congruence.bind (called hcfg u v h)
  exact fun _ _ _ _ hnext => muted_congruence.pure ⟨trivial, hnext.2⟩

theorem callOut {f g : ℤ → M W ℤ} {call : Call} {off : ℕ}
    (hcfg : IgnoresBit cfg d)
    (hf : ∀ n, Hushes (f n) (g n)) :
    Hushes (invokeOut cfg call off >>= f) (invokeOut cfg call off >>= g) := by
  have hparts (k : ℤ → M W ℤ) : invokeOut cfg call off >>= k =
      invoke cfg call >>= fun reply => writeTx cfg off reply.out >>= fun _ => k reply.ret := by
    unfold invokeOut
    simp only [then_then]
    rfl
  rw [hparts, hparts]
  exact Hushes.call hcfg fun reply => write (hf reply.ret)

theorem optional {f g : Unit → M W ℤ} {c : Prop} [Decidable c] {m n : M W Unit}
    (hm : c → Agrees (fun _ _ => True) m n) (hf : Hushes (f ()) (g ())) :
    Hushes (onlyIf c m >>= f) (onlyIf c n >>= g) := by
  apply pause _ hf
  exact fun u v h => .ite Iff.rfl (fun hc => hm hc u v h) fun _ => ⟨⟨rfl, rfl⟩, trivial, h⟩

end Hushes
end UdsLib.Core
