import UdsLib.Core.Locking
import UdsLib.Core.Responses

/-! The two conversations side by side: under which steps neither disturbs the other. -/
namespace UdsLib.Core
open Bytes Machine Prog

variable {W : Type} {cfg : Config W} {d : Sdu} {s : Sys W} {h : Roles}

/-- No client request for another SID came to its send since the handler of the server's request
returned `UDS_PENDING`. -/
def KeepsServerSid (h : Roles) : Prop :=
  h.writer = .server ∨ ∃ ret, h.writer = .client h.server ret

/-- The request is the last writer of `pending_sid`, and the message is what the stack expects in
response to it. -/
structure Awaited (h : Roles) (d : Sdu) (r : Request) : Prop where
  last : h.unanswered.head? = some r
  writer : h.writer = .client r.sid udsOk
  known : r.sid ≠ 0
  expected : r.sid &&& responseOffset = 0 ∨ IsNegative r.sid d

/-- The step keeps the two conversations apart. At a deadline and at the application's final
negative response, no client request for another SID has been sent since the server's request
became pending. The response to a client request arrives when no request of the server is pending
and neither side has written `pending_sid` since. -/
def Separate (cfg : Config W) (p : Sys W × Roles) : Op W → Prop
  | .process => deadlinePassed p.1.ctx (processTime cfg p.1) = true → KeepsServerSid p.2
  | .sendNrc sid nrc => p.1.ctx.p2MsgPending = true → sid = p.2.server →
      nrc ≠ nrcResponsePending → 3 ≤ cfg.txBufferSize ∧ KeepsServerSid p.2
  | .inputSdu (.bytes d) => d.bytes ≠ [] → ∀ r ∈ p.2.unanswered, r.callback ≠ none →
      IsResponse r.sid d → p.1.ctx.p2MsgPending = false ∧ Awaited p.2 d r
  | _ => True

/-- The step serves both conversations: what `uds_process` answers names the request of the server
that is pending, a final negative response to that request ends it, and the response to a client
request that is not answered reaches its callback. -/
def Undisturbing (cfg : Config W) (p : Sys W × Roles) : Op W → Prop
  | .process => ∀ data ret, .tpSend .nrc data ret ∈ (step cfg p.1 .process).2 →
      p.1.ctx.p2MsgPending = true ∧
        ∃ nrc, data = [nrcServiceNotSuppInSess, p.2.server, nrc]
  | .sendNrc sid nrc => p.1.ctx.p2MsgPending = true → sid = p.2.server →
      nrc ≠ nrcResponsePending → (step cfg p.1 (.sendNrc sid nrc)).1.ctx.p2MsgPending = false
  | .inputSdu (.bytes d) => d.bytes ≠ [] → ∀ r ∈ p.2.unanswered, ∀ cb, r.callback = some cb →
      IsResponse r.sid d → .responseCb cb (d.byte 0) (d.slice 1 (d.bytes.length - 1)) ∈
        (step cfg p.1 (.inputSdu (.bytes d))).2
  | _ => True

theorem Tracks.server_sid {c : Ctx} (hc : Tracks c h) (hkeeps : KeepsServerSid h) :
    c.pendingSid = h.server := by
  unfold Tracks at hc
  rcases hkeeps with hwriter | ⟨ret, hwriter⟩
  · rw [hwriter] at hc
    exact hc
  · rw [hwriter] at hc
    exact hc.1

/-! ### The deadline -/

theorem sendNrc_names {sid nrc : UInt8} {data : List UInt8} {ret : ℤ}
    (he : .tpSend .nrc data ret ∈ (sendNrc cfg sid nrc).outputs s) :
    data = [nrcServiceNotSuppInSess, sid, nrc] := by
  have hsent : data ∈ sentOf ((sendNrc cfg sid nrc).outputs s) :=
    List.mem_filterMap.mpr ⟨_, he, rfl⟩
  rw [sendNrc_sent] at hsent
  split_ifs at hsent
  · exact List.mem_singleton.mp hsent
  · cases hsent

theorem around_not_nrc {es : List Event} (hes : es.all Event.isAround = true) {data : List UInt8}
    {ret : ℤ} : .tpSend .nrc data ret ∉ es :=
  fun he => absurd (List.all_eq_true.mp hes _ he) Bool.false_ne_true

theorem finishProcess_not_nrc (now : UInt32) {data : List UInt8} {ret : ℤ} :
    .tpSend .nrc data ret ∉ (finishProcess cfg now).outputs s := by
  obtain ⟨es, t, hsched, -, houtputs⟩ := finishProcess_parts cfg now s
  rw [houtputs, List.mem_append]
  rintro (he | he)
  · exact absurd (hsched.events _ he) Bool.false_ne_true
  · exact around_not_nrc (mutexUnlock_around cfg t).2 he

/-- A negative response of `uds_process` goes out at a deadline and names `pending_sid`. -/
theorem udsProcess_names {data : List UInt8} {ret : ℤ}
    (he : .tpSend .nrc data ret ∈ (udsProcess cfg).outputs s) :
    deadlinePassed s.ctx (processTime cfg s) = true ∧
      ∃ nrc, data = [nrcServiceNotSuppInSess, s.ctx.pendingSid, nrc] := by
  obtain ⟨-, pre, hpre, houtputs⟩ := udsProcess_parts cfg s
  rw [houtputs, List.mem_append, List.mem_append] at he
  rcases he with he | he | he
  · exact absurd he (around_not_nrc (mutexLock_around cfg s).2)
  · exact absurd (hpre _ he) Bool.false_ne_true
  · unfold answerInTime at he
    split_ifs at he with hdead hlimit
    · rw [outputs_bind, List.mem_append] at he
      rcases he with he | he
      · exact ⟨hdead, _, sendNrc_names he⟩
      · cases he
    · rw [outputs_bind, List.mem_append] at he
      rcases he with he | he
      · exact ⟨hdead, _, sendNrc_names he⟩
      · exact absurd he (finishProcess_not_nrc _)
    · exact absurd he (finishProcess_not_nrc _)

/-! ### The response -/

theorem step_calls_back {cb : ℕ} (hidle : s.ctx.p2MsgPending = false)
    (hans : takesAsAnswer s.ctx d) (hne : d.bytes ≠ []) (hcb : s.ctx.clientCb = some cb) :
    .responseCb cb (d.byte 0) (d.slice 1 (d.bytes.length - 1)) ∈
      (step cfg s (.inputSdu (.bytes d))).2 := by
  have harrived : (arrived cfg s).ctx.clientCb = some cb := by
    rw [arrived_ctx]
    exact hcb
  have hcalled : .responseCb cb (d.byte 0) (d.slice 1 (d.bytes.length - 1)) ∈
      (takeAnswer cfg d).outputs (arrived cfg s) := by
    rw [takeAnswer_outputs, runResponseCb_outputs, harrived]
    exact List.mem_cons_self
  rw [(step_answered cfg hidle hans hne).outputs]
  apply List.mem_append_right
  apply List.mem_append_right
  exact List.mem_append_left _ hcalled

/-- A client request whose response is awaited is the one in the context. -/
theorem Awaited.taken {c : Ctx} {r : Request} (hr : Awaited h d r) (hc : Tracks c h)
    (hresponse : IsResponse r.sid d) : takesAsAnswer c d ∧ c.clientCb = r.callback := by
  unfold Tracks at hc
  rw [hr.writer] at hc
  obtain ⟨hsid, hhead⟩ := hc
  have hsame : r = ⟨r.sid, c.clientCb, udsOk⟩ := Option.some.inj (hr.last.symm.trans (hhead rfl))
  constructor
  · unfold takesAsAnswer
    rw [hsid]
    exact ⟨hr.known, (answersRequest_iff hr.expected).mpr hresponse⟩
  · rw [hsame]

theorem separate_undisturbing {p : Sys W × Roles} {op : Op W} (hp : Tracks p.1.ctx p.2)
    (hsep : Separate cfg p op) : Undisturbing cfg p op := by
  cases op with
  | process =>
    intro data ret he
    obtain ⟨hdead, nrc, hdata⟩ := udsProcess_names he
    have hpending : p.1.ctx.p2MsgPending = true := by
      unfold deadlinePassed at hdead
      exact (of_decide_eq_true hdead).1
    rw [hp.server_sid (hsep hdead)] at hdata
    exact ⟨hpending, nrc, hdata⟩
  | sendNrc sid nrc =>
    intro hpending hsid hfinal
    obtain ⟨hfits, hkeeps⟩ := hsep hpending hsid hfinal
    have hends : 3 ≤ cfg.txBufferSize ∧ nrc ≠ nrcResponsePending ∧ sid = p.1.ctx.pendingSid :=
      ⟨hfits, hfinal, hsid.trans (hp.server_sid hkeeps).symm⟩
    have hctx : (step cfg p.1 (.sendNrc sid nrc)).1.ctx = { p.1.ctx with p2MsgPending := false } :=
      (sendNrc_ctx cfg sid nrc p.1).trans (if_pos hends)
    rw [hctx]
  | inputSdu data =>
    cases data with
    | null len => trivial
    | bytes d =>
      intro hne r hr cb hcb hresponse
      have hsome : r.callback ≠ none := by
        rw [hcb]
        exact Option.some_ne_none cb
      obtain ⟨hidle, hawaited⟩ := hsep hne r hr hsome hresponse
      obtain ⟨hans, hcallback⟩ := hawaited.taken hp hresponse
      exact step_calls_back hidle hans hne (hcallback.trans hcb)
  | _ => trivial

/-- The roles do not interfere. In a run from `uds_init` in which every step keeps the two
conversations apart, every step serves both. -/
theorem roles_undisturbed (cfg : Config W) (b : Sys W) (ops : List (Op W))
    (hrun : Along (stepRoles cfg) (Separate cfg) ((udsInit cfg).final b, .start) ops) :
    Along (stepRoles cfg) (Undisturbing cfg) ((udsInit cfg).final b, .start) ops := by
  apply hrun.of_invariant (I := fun p => Tracks p.1.ctx p.2)
  · intro p op hp
    exact step_tracks op hp
  · intro p op hp hsep
    exact separate_undisturbing hp hsep
  · exact udsInit_pendingSid cfg b

/-- A service `0x31` that the application answers later, and a clock. -/
def slowClock : Config UInt32 :=
  { clockConfig with
    userServices :=
      [{ sid := 0x31, minLen := 1, sessionMask := 0xFF, securityMask := 0,
         handler := fun _ => .done udsPending, subMask := none }] }

/-- The slow request is answered before the client asks for the VIN. -/
def oneAfterTheOther : List (Op UInt32) :=
  [.inputSdu (.bytes slowRequest), .elapse (· + 5000), .process, .sendNrc 0x31 0x22,
    .clientRequest 0x22 (.null 0) (some 0), .inputSdu (.bytes vinResponse)]

theorem oneAfterTheOther_undisturbed :
    Along (stepRoles slowClock) (Undisturbing slowClock) ((udsInit slowClock).final powerOn, .start)
      oneAfterTheOther := by
  apply roles_undisturbed
  refine ⟨fun _ => nofun, trivial, fun _ => Or.inl (by decide),
    fun _ _ _ => ⟨by decide, Or.inl (by decide)⟩, trivial, fun _ r hr _ _ => ?_, trivial⟩
  obtain rfl := List.mem_singleton.mp hr
  exact ⟨by decide, rfl, rfl, by decide, Or.inl (by decide)⟩

/-- The client asks for the VIN while the slow request is pending. -/
def oneIntoTheOther : List (Op UInt32) :=
  [.inputSdu (.bytes slowRequest), .clientRequest 0x22 (.null 0) (some 0), .elapse (· + 5000),
    .process, .sendNrc 0x31 0x22, .inputSdu (.bytes vinResponse)]

/-- The deadline of the slow request is answered with the SID of the client request, the final
negative response leaves the slow request pending, and the response to the client is refused as
busy. -/
theorem oneIntoTheOther_interferes :
    let s := (udsInit slowClock).final powerOn
    (¬ Along (stepRoles slowClock) (Undisturbing slowClock) (s, .start) oneIntoTheOther) ∧
      sentOf (trace (step slowClock) s oneIntoTheOther) =
        [[0x7F, 0x31, 0x78], [0x22], [0x7F, 0x22, 0x78], [0x7F, 0x31, 0x22], [0x7F, 0x62, 0x21]] ∧
      (exec (step slowClock) s oneIntoTheOther).ctx.p2MsgPending = true := by
  refine ⟨fun hrun => ?_, by decide, by decide⟩
  obtain ⟨-, -, -, hprocess, -⟩ := hrun
  obtain ⟨-, nrc, hdata⟩ := hprocess [0x7F, 0x22, 0x78] 0 (by decide)
  cases hdata

end UdsLib.Core
