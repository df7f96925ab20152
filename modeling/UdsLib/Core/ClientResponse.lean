import UdsLib.Core.Budget
import UdsLib.Core.Interference

/-! What becomes of the responses to a client request. The callback is run once, and the first message
that is taken for a response uses it up, also one that says the response is pending. -/
namespace UdsLib.Core
open Bytes Machine Prog Services

variable {W : Type} {cfg : Config W} {d : Sdu} {s t : Sys W} {es : List Event} {sid : UInt8}
  {callback : Option ℕ} {ops : List (Op W)}

/-- The response to a request for `sid` is pending. -/
def pendingResponse (sid : UInt8) : Sdu where
  bytes := [nrcServiceNotSuppInSess, sid, nrcResponsePending]
  length_lt := by simp

/-- The response that ends a request for `sid`. -/
def IsFinal (sid : UInt8) (d : Sdu) : Prop :=
  d.bytes.head? = some (sid + responseOffset) ∨
    ∃ nrc, nrc ≠ nrcResponsePending ∧ d.bytes = [nrcServiceNotSuppInSess, sid, nrc]

/-- The calls while a client request for `sid` is open: the server says that the response is pending,
and nothing else arrives or is asked for. -/
def Awaits (sid : UInt8) : Op W → Prop
  | .inputSdu data => data = .bytes (pendingResponse sid)
  | .clientRequest _ _ _ => False
  | _ => True

/-- The callback with this message, and what the application does in it. -/
def callbackRun (cfg : Config W) (cb : ℕ) (d : Sdu) (t : Sys W) : List Event :=
  let data := d.slice 1 (d.bytes.length - 1)
  .responseCb cb (d.byte 0) data :: (runApp cfg (cfg.responseCb cb (d.byte 0) data)).outputs t

/-- The message is neither dispatched nor answered. Between the calls of the clock and of the mutex a
callback runs at most. -/
def LeftAlone (cfg : Config W) (d : Sdu) (es : List Event) : Prop :=
  ∃ before during after, es = before ++ (during ++ after) ∧ before.all Event.isAround = true ∧
    after.all Event.isAround = true ∧ (during = [] ∨ ∃ cb t, during = callbackRun cfg cb d t)

/-- No message is dispatched or answered. -/
def LeavesAlone (cfg : Config W) (s : Sys W) : Op W → Prop
  | .inputSdu (.bytes d) => LeftAlone cfg d (step cfg s (.inputSdu (.bytes d))).2
  | _ => True

/-- Behind the calls `ops` the response `d` is given to the callback, and none of the messages is
dispatched or answered. -/
structure GetsResponse (cfg : Config W) (callback : Option ℕ) (s : Sys W) (ops : List (Op W)) (d : Sdu) :
    Prop where
  alone : Along (step cfg) (LeavesAlone cfg) s (ops ++ [.inputSdu (.bytes d)])
  delivered : ∀ cb, callback = some cb →
    .responseCb cb (d.byte 0) (d.slice 1 (d.bytes.length - 1)) ∈
      (step cfg (exec (step cfg) s ops) (.inputSdu (.bytes d))).2

/-- The message meets a request in progress and is dropped without an answer. -/
def Dropped (cfg : Config W) (s : Sys W) (d : Sdu) : Prop :=
  s.ctx.p2MsgPending = true ∧ (suppressedTesterPresent d = true ∨ cfg.txBufferSize < 3)

/-- A message is dropped. -/
def Drops (cfg : Config W) (s : Sys W) : Op W → Prop
  | .inputSdu (.bytes d) => Dropped cfg s d
  | _ => True

/-- The stack knows the message for the response to a request for `sid`. -/
def Recognised (sid : UInt8) (d : Sdu) : Prop :=
  sid ≠ 0 ∧ (sid &&& responseOffset = 0 ∨ IsNegative sid d)

instance (sid : UInt8) (d : Sdu) : Decidable (Recognised sid d) :=
  inferInstanceAs (Decidable (_ ∧ _))

/-- No message that says the response is pending comes through, and the response is recognised on an
idle context. Without a callback it may as well be dropped. -/
structure OnlyFinal (cfg : Config W) (sid : UInt8) (callback : Option ℕ) (s : Sys W)
    (ops : List (Op W)) (d : Sdu) : Prop where
  before : Along (step cfg) (Drops cfg) s ops
  final :
    let t := exec (step cfg) s ops
    t.ctx.p2MsgPending = false ∧ Recognised sid d ∨ Dropped cfg t d ∧ callback = none

/-! ### One message -/

theorem IsFinal.nonempty (h : IsFinal sid d) : d.bytes ≠ [] := by
  intro hnil
  rcases h with hpositive | ⟨nrc, -, hnegative⟩
  · rw [hnil] at hpositive
    cases hpositive
  · rw [hnil] at hnegative
    cases hnegative

theorem around_not_mem {e : Event} (hes : es.all Event.isAround = true) (he : e.isAround = false) :
    e ∉ es := by
  intro hmem
  cases he.symm.trans (List.all_eq_true.mp hes e hmem)

/-- A message is not left alone if the stack does something else than to run a callback. -/
theorem LeftAlone.not_mem (h : LeftAlone cfg d es) {e : Event} (he : e.isAround = false)
    (hcallback : ∀ cb t, callbackRun cfg cb d t ⊆ es → e ∉ callbackRun cfg cb d t) : e ∉ es := by
  obtain ⟨before, during, after, rfl, hbefore, hafter, hduring⟩ := h
  intro hmem
  rcases List.mem_append.mp hmem with hmem | hmem
  · exact around_not_mem hbefore he hmem
  · rcases List.mem_append.mp hmem with hmem | hmem
    · rcases hduring with rfl | ⟨cb, t, rfl⟩
      · cases hmem
      · apply hcallback cb t _ hmem
        exact fun e he => List.mem_append_right _ (List.mem_append_left _ he)
    · exact around_not_mem hafter he hmem

theorem dispatched_not_alone (h : .dispatch d.bytes ∈ es) : ¬ LeftAlone cfg d es := by
  intro halone
  refine halone.not_mem rfl (fun cb t _ hmem => ?_) h
  rcases List.mem_cons.mp hmem with hcb | hmem
  · cases hcb
  · let app := cfg.responseCb cb (d.byte 0) (d.slice 1 (d.bytes.length - 1))
    have hsteps : Steps cfg True (runApp cfg app) := Steps.runApp app
    exact absurd (List.all_eq_true.mp (hsteps.noDispatch t) _ hmem) Bool.false_ne_true

theorem Treats.leftAlone {m : M W Unit} (h : Treats cfg s d m)
    (hm : m.outputs (arrived cfg s) = [] ∨ ∃ cb t, m.outputs (arrived cfg s) = callbackRun cfg cb d t) :
    LeftAlone cfg d (step cfg s (.inputSdu (.bytes d))).2 := by
  rw [h.outputs, ← List.append_assoc]
  refine ⟨_, _, _, rfl, ?_, (mutexUnlock_around cfg _).2, hm⟩
  rw [List.all_append, (mutexLock_around cfg s).2]
  rfl

theorem busyAnswer_outputs (h : Dropped cfg s d) (u : Sys W) : (busyAnswer cfg d).outputs u = [] := by
  unfold busyAnswer
  split_ifs with htester
  · rfl
  · have hsmall : ¬ 3 ≤ cfg.txBufferSize := UInt16.not_le.mpr (h.2.resolve_left htester)
    obtain ⟨faults, -, ret, houtputs⟩ := sendNrc_outputs cfg (d.byte 0) nrcBusyRepeatRequest u
    unfold reject
    rw [outputs_bind, houtputs, if_neg hsmall]
    rfl

theorem busyAnswer_silent (u : Sys W) {cb : ℕ} {sid : UInt8} {data : Slice} :
    .responseCb cb sid data ∉ (busyAnswer cfg d).outputs u := by
  unfold busyAnswer
  split_ifs with htester
  · exact List.not_mem_nil
  · intro hmem
    have hnrc : .responseCb cb sid data ∈ (sendNrc cfg (d.byte 0) nrcBusyRepeatRequest).outputs u := by
      unfold reject at hmem
      rw [outputs_bind] at hmem
      exact (List.mem_append.mp hmem).resolve_right List.not_mem_nil
    exact absurd ((sendNrc_worked cfg _ _ u).events _ hnrc) Bool.false_ne_true

theorem step_busy_silent (hp : s.ctx.p2MsgPending = true) (hne : d.bytes ≠ []) {cb : ℕ} {sid : UInt8}
    {data : Slice} : .responseCb cb sid data ∉ (step cfg s (.inputSdu (.bytes d))).2 := by
  rw [(step_busy cfg hp hne).outputs]
  simp only [List.mem_append, not_or]
  have htime : .responseCb cb sid data ∉ (getTime cfg).outputs ((mutexLock cfg).final s) :=
    around_not_mem rfl rfl
  exact ⟨around_not_mem (mutexLock_around cfg s).2 rfl, htime, busyAnswer_silent _,
    around_not_mem (mutexUnlock_around cfg _).2 rfl⟩

/-- On a busy context a message is left alone just if it is dropped. -/
theorem busy_alone_iff (hp : s.ctx.p2MsgPending = true) (hne : d.bytes ≠ []) :
    LeftAlone cfg d (step cfg s (.inputSdu (.bytes d))).2 ↔ Dropped cfg s d := by
  have htreats := step_busy cfg hp hne
  constructor
  · intro halone
    by_contra hanswered
    have hloud : ¬ suppressedTesterPresent d = true := fun htester => hanswered ⟨hp, .inl htester⟩
    have hfits : 3 ≤ cfg.txBufferSize := UInt16.not_lt.mp fun hsmall => hanswered ⟨hp, .inr hsmall⟩
    obtain ⟨faults, -, ret, hsent⟩ :=
      sendNrc_outputs cfg (d.byte 0) nrcBusyRepeatRequest (arrived cfg s)
    have hbusy : .tpSend .nrc [nrcServiceNotSuppInSess, d.byte 0, nrcBusyRepeatRequest] ret ∈
        (busyAnswer cfg d).outputs (arrived cfg s) := by
      unfold busyAnswer reject
      rw [if_neg hloud, outputs_bind, hsent, if_pos hfits]
      exact List.mem_append_left _ (List.mem_append_right _ (List.mem_singleton_self _))
    have hmem : .tpSend .nrc [nrcServiceNotSuppInSess, d.byte 0, nrcBusyRepeatRequest] ret ∈
        (step cfg s (.inputSdu (.bytes d))).2 := by
      rw [htreats.outputs]
      exact List.mem_append_right _ (List.mem_append_right _ (List.mem_append_left _ hbusy))
    refine halone.not_mem rfl (fun cb t hsub _ => ?_) hmem
    exact step_busy_silent hp hne (hsub List.mem_cons_self)
  · intro hdropped
    exact htreats.leftAlone (.inl (busyAnswer_outputs hdropped _))

/-- On an idle context a message is left alone just if it is taken for a response. -/
theorem idle_alone_iff (hidle : s.ctx.p2MsgPending = false) (hne : d.bytes ≠ []) :
    LeftAlone cfg d (step cfg s (.inputSdu (.bytes d))).2 ↔ takesAsAnswer s.ctx d := by
  constructor
  · intro halone
    by_contra hans
    exact dispatched_not_alone (step_dispatch hidle hans hne) halone
  · intro hans
    apply (step_answered cfg hidle hans hne).leftAlone
    rw [takeAnswer_outputs, runResponseCb_outputs]
    cases (arrived cfg s).ctx.clientCb with
    | none => exact .inl rfl
    | some cb => exact .inr ⟨cb, _, rfl⟩

/-! ### The request -/

/-- The client request is open: no response has been taken for it. -/
structure Outstanding (sid : UInt8) (callback : Option ℕ) (c : Ctx) : Prop where
  sid : c.pendingSid = sid
  callback : c.clientCb = callback

/-- No client request is open, and no request is in progress. -/
structure Closed (c : Ctx) : Prop where
  sid : c.pendingSid = 0
  idle : c.p2MsgPending = false

/-- The client's side is kept, and nothing is started. -/
structure Keeping (c c' : Ctx) : Prop where
  sid : c'.pendingSid = c.pendingSid
  callback : c'.clientCb = c.clientCb
  starts : NoStart c c'

theorem Worked.keeping (h : Worked s es t) : Keeping s.ctx t.ctx := ⟨h.sid, h.callback, h.pending⟩

theorem keeping_of_conversation {c c' : Ctx} (h : c'.conversation = c.conversation) : Keeping c c' where
  sid := congrArg Conversation.pendingSid h
  callback := congrArg Conversation.clientCb h
  starts := (congrArg Conversation.p2MsgPending h).symm.trans

theorem Keeping.trans {a b c : Ctx} (h : Keeping a b) (hnext : Keeping b c) : Keeping a c where
  sid := hnext.sid.trans h.sid
  callback := hnext.callback.trans h.callback
  starts hp := h.starts (hnext.starts hp)

theorem udsProcess_keeping (cfg : Config W) (s : Sys W) :
    Keeping s.ctx ((udsProcess cfg).final s).ctx := by
  have hnrc (nrc : UInt8) : Keeping s.ctx ((sendNrc cfg s.ctx.pendingSid nrc).final (ticked cfg s)).ctx :=
    (keeping_of_conversation (ticked_conversation cfg s)).trans (sendNrc_worked cfg _ nrc _).keeping
  have hfinish (u : Sys W) : Keeping u.ctx ((finishProcess cfg (processTime cfg s)).final u).ctx :=
    keeping_of_conversation (finishProcess_quiet cfg _ u).2
  rw [(udsProcess_parts cfg s).1]
  unfold answerInTime
  split_ifs with hdead hlimit
  · apply (hnrc nrcConditionsNotCorrect).trans
    exact ⟨rfl, rfl, id⟩
  · apply (hnrc nrcResponsePending).trans
    rw [final_bind, final_bind, final_setCtx]
    apply Keeping.trans _ (hfinish _)
    exact ⟨rfl, rfl, id⟩
  · exact (keeping_of_conversation (ticked_conversation cfg s)).trans (hfinish _)

/-- The calls between the messages keep the client's side. -/
theorem step_keeping (op : Op W) (hop : Awaits sid op) (hnone : ∀ data, op ≠ .inputSdu data) :
    Keeping s.ctx (step cfg s op).1.ctx := by
  cases op with
  | inputSdu data => exact absurd rfl (hnone data)
  | clientRequest sid data cb => exact absurd hop not_false
  | process => exact udsProcess_keeping cfg s
  | fill off bytes => exact keeping_of_conversation rfl
  | sendResponse len => exact (sendResponse_worked cfg len s).keeping
  | sendNrc sid nrc => exact (sendNrc_worked cfg sid nrc s).keeping
  | elapse f => exact keeping_of_conversation rfl

theorem Outstanding.kept {c c' : Ctx} (h : Outstanding sid callback c) (hkeeping : Keeping c c') :
    Outstanding sid callback c' :=
  ⟨hkeeping.sid.trans h.sid, hkeeping.callback.trans h.callback⟩

theorem Closed.kept {c c' : Ctx} (h : Closed c) (hkeeping : Keeping c c') : Closed c' where
  sid := hkeeping.sid.trans h.sid
  idle := by
    apply Bool.eq_false_iff.mpr
    intro hp
    cases h.idle.symm.trans (hkeeping.starts hp)

theorem closed_not_taken {c : Ctx} (h : Closed c) (d : Sdu) : ¬ takesAsAnswer c d :=
  fun hans => hans.1 h.sid

/-- A message that is taken for a response closes the request. -/
theorem taken_closes (hidle : s.ctx.p2MsgPending = false) (hans : takesAsAnswer s.ctx d)
    (hne : d.bytes ≠ []) : Closed (step cfg s (.inputSdu (.bytes d))).1.ctx := by
  constructor
  · rw [(step_answered cfg hidle hans hne).final, mutexUnlock_ctx]
    rfl
  · apply undeferred_starts_nothing hne hidle
    exact fun hdefers => hdefers.request hans

/-- A busy context keeps the client's side when a message is dropped. -/
theorem dropped_keeping (h : Dropped cfg s d) (hne : d.bytes ≠ []) :
    Keeping s.ctx (step cfg s (.inputSdu (.bytes d))).1.ctx := by
  have harrived : Keeping s.ctx (arrived cfg s).ctx := by
    rw [arrived_ctx]
    exact ⟨rfl, rfl, id⟩
  rw [(step_busy cfg h.1 hne).final, mutexUnlock_ctx]
  unfold busyAnswer
  split_ifs
  · exact harrived
  · exact harrived.trans (sendNrc_worked cfg _ _ _).keeping

/-! ### The responses -/

theorem pendingResponse_nonempty (sid : UInt8) : (pendingResponse sid).bytes ≠ [] :=
  List.cons_ne_nil _ _

theorem IsFinal.cases (h : IsFinal sid d) : d.byte 0 = sid + responseOffset ∨ IsNegative sid d := by
  rcases h with hpositive | ⟨nrc, -, hnegative⟩
  · left
    unfold Sdu.byte
    rw [List.getD_eq_getElem?_getD, ← List.head?_eq_getElem?, hpositive]
    rfl
  · right
    unfold IsNegative Sdu.byte
    rw [hnegative]
    exact ⟨rfl, Nat.le_succ 2, rfl⟩

theorem bit_of_add_eq_or (h : sid + responseOffset = sid ||| responseOffset) :
    sid &&& responseOffset = 0 := by
  have hbits : ∀ x : BitVec 8, x + 0x40#8 = x ||| 0x40#8 → x &&& 0x40#8 = 0#8 := by decide
  exact UInt8.toBitVec_inj.mp (hbits sid.toBitVec (congrArg UInt8.toBitVec h))

/-- With bit 6 set in its SID, a request is answered by its own SID only. -/
theorem answersRequest_final (h : IsFinal sid d) :
    answersRequest sid d = true ↔ sid &&& responseOffset = 0 ∨ IsNegative sid d := by
  constructor
  · intro hans
    rcases h.cases with hpositive | hnegative
    · rcases of_decide_eq_true hans with hsame | hnegative
      · exact .inl (bit_of_add_eq_or (hpositive.symm.trans hsame))
      · exact .inr hnegative
    · exact .inr hnegative
  · intro hsid
    exact (answersRequest_iff hsid).mpr h.cases

/-- The open request takes the final response just if the stack knows it. -/
theorem Outstanding.takes_iff {c : Ctx} (h : Outstanding sid callback c) (hfinal : IsFinal sid d) :
    takesAsAnswer c d ↔ Recognised sid d := by
  unfold takesAsAnswer Recognised
  rw [h.sid, answersRequest_final hfinal]

/-! ### Runs -/

/-- Once the request is closed, the next message is not left alone. -/
theorem closed_not_alone (hops : ∀ op ∈ ops, Awaits sid op) (hne : d.bytes ≠ []) (h : Closed s.ctx) :
    ¬ Along (step cfg) (LeavesAlone cfg) s (ops ++ [.inputSdu (.bytes d)]) := by
  have hanswers {t : Sys W} {d : Sdu} (ht : Closed t.ctx) (hne : d.bytes ≠ []) :
      ¬ LeavesAlone cfg t (.inputSdu (.bytes d)) :=
    fun halone => closed_not_taken ht d ((idle_alone_iff ht.idle hne).mp halone)
  induction ops generalizing s with
  | nil => exact fun halong => hanswers h hne halong.1
  | cons op ops ih =>
    obtain ⟨hop, hrest⟩ := List.forall_mem_cons.mp hops
    rintro ⟨hhead, htail⟩
    by_cases hinput : ∃ data, op = .inputSdu data
    · obtain ⟨data, rfl⟩ := hinput
      obtain rfl : data = .bytes (pendingResponse sid) := hop
      exact hanswers h (pendingResponse_nonempty sid) hhead
    · have hnone : ∀ data, op ≠ .inputSdu data := fun data heq => hinput ⟨data, heq⟩
      exact ih hrest (h.kept (step_keeping op hop hnone)) htail

/-- The final response of an open request. -/
theorem outstanding_final_iff (hfinal : IsFinal sid d) (h : Outstanding sid callback s.ctx) :
    GetsResponse cfg callback s [] d ↔ OnlyFinal cfg sid callback s [] d := by
  have hne := hfinal.nonempty
  cases hp : s.ctx.p2MsgPending with
  | false =>
    have htakes := h.takes_iff hfinal
    constructor
    · intro hgets
      have hans := (idle_alone_iff hp hne).mp hgets.alone.1
      exact ⟨trivial, .inl ⟨hp, htakes.mp hans⟩⟩
    · intro honly
      have hknown : Recognised sid d := by
        rcases honly.final with ⟨-, hknown⟩ | ⟨hdropped, -⟩
        · exact hknown
        · cases hp.symm.trans hdropped.1
      have hans := htakes.mpr hknown
      refine ⟨⟨(idle_alone_iff hp hne).mpr hans, trivial⟩, fun cb hcb => ?_⟩
      exact step_calls_back hp hans hne (h.callback.trans hcb)
  | true =>
    constructor
    · intro hgets
      refine ⟨trivial, .inr ⟨(busy_alone_iff hp hne).mp hgets.alone.1, ?_⟩⟩
      cases hcb : callback with
      | none => rfl
      | some cb => exact absurd (hgets.delivered cb hcb) (step_busy_silent hp hne)
    · intro honly
      rcases honly.final with ⟨hidle, -⟩ | ⟨hdropped, rfl⟩
      · cases hp.symm.trans hidle
      · exact ⟨⟨(busy_alone_iff hp hne).mpr hdropped, trivial⟩, nofun⟩

/-- What is behind a call that changes nothing for the client. -/
theorem gets_cons {op : Op W} (hop : LeavesAlone cfg s op) :
    GetsResponse cfg callback s (op :: ops) d ↔
      GetsResponse cfg callback (step cfg s op).1 ops d :=
  ⟨fun h => ⟨h.alone.2, h.delivered⟩, fun h => ⟨⟨hop, h.alone⟩, h.delivered⟩⟩

theorem only_cons {op : Op W} (hop : Drops cfg s op) :
    OnlyFinal cfg sid callback s (op :: ops) d ↔
      OnlyFinal cfg sid callback (step cfg s op).1 ops d :=
  ⟨fun h => ⟨h.before.2, h.final⟩, fun h => ⟨⟨hop, h.before⟩, h.final⟩⟩

/-- A message that says the response is pending closes an open request, or it is answered, unless it is
dropped. -/
theorem pending_lost (hops : ∀ op ∈ ops, Awaits sid op) (hne : d.bytes ≠ [])
    (hthrough : ¬ Dropped cfg s (pendingResponse sid)) :
    ¬ Along (step cfg) (LeavesAlone cfg) s
      (.inputSdu (.bytes (pendingResponse sid)) :: (ops ++ [.inputSdu (.bytes d)])) := by
  rintro ⟨halone, hrest⟩
  have hpending := pendingResponse_nonempty sid
  cases hp : s.ctx.p2MsgPending with
  | false =>
    have hans := (idle_alone_iff hp hpending).mp halone
    exact closed_not_alone hops hne (taken_closes hp hans hpending) hrest
  | true => exact hthrough ((busy_alone_iff hp hpending).mp halone)

theorem outstanding_iff (hops : ∀ op ∈ ops, Awaits sid op) (hfinal : IsFinal sid d)
    (h : Outstanding sid callback s.ctx) :
    GetsResponse cfg callback s ops d ↔ OnlyFinal cfg sid callback s ops d := by
  induction ops generalizing s with
  | nil => exact outstanding_final_iff hfinal h
  | cons op ops ih =>
    obtain ⟨hop, hrest⟩ := List.forall_mem_cons.mp hops
    by_cases hinput : ∃ data, op = .inputSdu data
    · obtain ⟨data, rfl⟩ := hinput
      obtain rfl : data = .bytes (pendingResponse sid) := hop
      have hne := pendingResponse_nonempty sid
      by_cases hdropped : Dropped cfg s (pendingResponse sid)
      · have halone : LeavesAlone cfg s (.inputSdu (.bytes (pendingResponse sid))) :=
          (busy_alone_iff hdropped.1 hne).mpr hdropped
        have hdrops : Drops cfg s (.inputSdu (.bytes (pendingResponse sid))) := hdropped
        rw [gets_cons halone, only_cons hdrops]
        exact ih hrest (h.kept (dropped_keeping hdropped hne))
      · constructor
        · exact fun hgets => absurd hgets.alone (pending_lost hrest hfinal.nonempty hdropped)
        · exact fun honly => absurd honly.before.1 hdropped
    · have hnone : ∀ data, op ≠ .inputSdu data := fun data heq => hinput ⟨data, heq⟩
      have hstep : Outstanding sid callback (step cfg s op).1.ctx := h.kept (step_keeping op hop hnone)
      have halone : LeavesAlone cfg s op ∧ Drops cfg s op := by
        cases op with
        | inputSdu data => exact absurd rfl (hnone data)
        | _ => exact ⟨trivial, trivial⟩
      rw [gets_cons halone.1, only_cons halone.2]
      exact ih hrest hstep

theorem accepted_taken {data : Buf} (h : (clientRequest cfg sid data callback).value s = udsOk) :
    takesRequest cfg data := by
  have hvalue : (requestBody cfg sid data callback).value s = udsOk := h
  unfold requestBody at hvalue
  by_cases hnull : data.len > 0 ∧ data.isNull
  · rw [if_pos hnull] at hvalue
    exact absurd hvalue (by decide : udsErrInvalidArg ≠ udsOk)
  · by_cases hlong : data.len.toNat + 1 > cfg.txBufferSize.toNat
    · rw [if_neg hnull, if_pos hlong] at hvalue
      exact absurd hvalue (by decide : udsErrBufferTooSmall ≠ udsOk)
    · exact ⟨hnull, hlong⟩

/-- The final response to an accepted client request comes to its callback, and no message is
dispatched or answered, just if no message that says the response is pending comes through before it
and the stack knows it for the response. -/
theorem final_response_iff (cfg : Config W) (s : Sys W) (sid : UInt8) (data : Buf)
    (callback : Option ℕ) (haccepted : (clientRequest cfg sid data callback).value s = udsOk)
    (ops : List (Op W)) (hops : ∀ op ∈ ops, Awaits sid op) (d : Sdu) (hfinal : IsFinal sid d) :
    let t := (step cfg s (.clientRequest sid data callback)).1
    GetsResponse cfg callback t ops d ↔ OnlyFinal cfg sid callback t ops d := by
  intro t
  apply outstanding_iff hops hfinal
  have hctx : t.ctx = { s.ctx with pendingSid := sid, clientCb := callback } :=
    (clientRequest_ctx cfg sid data callback s).trans (if_pos (accepted_taken haccepted))
  rw [hctx]
  exact ⟨rfl, rfl⟩

/-- The VIN is asked for and comes after a call of `uds_process`. -/
theorem vin_response_delivered :
    let t := (step plainConfig (booted plainConfig) (.clientRequest 0x22 (.null 0) (some 0))).1
    GetsResponse plainConfig (some 0) t [.process] vinResponse := by
  have hops : ∀ op ∈ [Op.process (W := Unit)], Awaits 0x22 op := by simp [Awaits]
  apply (final_response_iff plainConfig (booted plainConfig) 0x22 (.null 0) (some 0) (by decide)
    [.process] hops vinResponse (.inl (by decide))).mpr
  exact ⟨by simp [Drops], .inl (by decide)⟩

/-- The server needs more time for the VIN and says so. That uses up the callback, and the VIN is taken
for a request. -/
theorem pending_response_ends :
    let t := (step plainConfig (booted plainConfig) (.clientRequest 0x22 (.null 0) (some 0))).1
    let ops : List (Op Unit) := [.inputSdu (.bytes (pendingResponse 0x22))]
    (clientRequest plainConfig 0x22 (.null 0) (some 0)).value (booted plainConfig) = udsOk ∧
      (∀ op ∈ ops, Awaits 0x22 op) ∧ IsFinal 0x22 vinResponse ∧
      (¬ GetsResponse plainConfig (some 0) t ops vinResponse) ∧
      sentOf (trace (step plainConfig) t (ops ++ [.inputSdu (.bytes vinResponse)])) =
        [[0x7F, 0x62, 0x11]] := by
  refine ⟨by decide, by simp [Awaits], .inl (by decide), fun hgets => ?_, by decide⟩
  exact absurd (hgets.delivered 0 rfl) (by decide)

end UdsLib.Core
