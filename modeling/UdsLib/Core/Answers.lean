import UdsLib.Core.Callbacks
import UdsLib.Core.Priority
import UdsLib.Core.Room

/-! What becomes of a request: the stack refuses it around the handlers, with one NRC, or the handler
of a service runs and all that is said about the request is said there. -/
namespace UdsLib.Core
open Bytes Machine Prog Services

variable {W : Type} {cfg : Config W} {d : Sdu} {s t u : Sys W} {es fs : List Event}

/-- The NRC with which the stack refuses a request around the handlers: another request is in
progress, or the request fails a check of the dispatcher. -/
def refusalOf (cfg : Config W) (s : Sys W) (d : Sdu) : Option UInt8 :=
  if s.ctx.p2MsgPending then some nrcBusyRepeatRequest
  else (firstFailing cfg (entered cfg s) d).map Check.nrc

/-- The message is neither taken for an answer nor passed over while a request is in progress. -/
structure IsRequest (s : Sys W) (d : Sdu) : Prop where
  nonempty : d.bytes ≠ []
  unanswering : ¬ takesAsAnswer s.ctx d
  loud : suppressedTesterPresent d = false

/-- An event around the handlers that sends nothing. -/
def Unsent (cfg : Config W) (d : Sdu) (e : Event) : Prop := Surround cfg d e ∧ e.sent? = none

/-- An event around the handlers that sends nothing but NRC 0x78. -/
def Deferring (cfg : Config W) (d : Sdu) (e : Event) : Prop :=
  Surround cfg d e ∧ ∀ data ∈ e.sent?, 3 ≤ cfg.txBufferSize ∧ e.isNrc = true ∧
    ∃ sid, data = [nrcServiceNotSuppInSess, sid, nrcResponsePending]

/-- A positive response was sent. -/
def PositiveAnswer (es : List Event) : Prop := ∃ data ret, .tpSend .response data ret ∈ es

/-! ### Requests -/

/-- A message whose first byte has bit 6 clear answers no request of the client: the responses of
all services have it set. -/
theorem isRequest_of_bit (s : Sys W) (hzero : d.byte 0 ≠ 0) (hbit : d.byte 0 &&& 0x40 = 0)
    (htester : d.byte 0 ≠ sidTesterPresent) : IsRequest s d := by
  have hresponse (sid : UInt8) : (sid ||| responseOffset) &&& 0x40 = 0x40 := by
    apply UInt8.toBitVec_inj.mp
    ext i
    simp only [UInt8.toBitVec_and, UInt8.toBitVec_or, BitVec.getElem_and, BitVec.getElem_or]
    cases (responseOffset : UInt8).toBitVec[i] with
    | _ => grind
  constructor
  · intro hnil
    apply hzero
    rw [Sdu.byte, hnil]
    rfl
  · rintro ⟨-, hans⟩
    unfold answersRequest at hans
    rcases of_decide_eq_true hans with hpos | ⟨hneg, -⟩
    · rw [hpos, hresponse] at hbit
      exact absurd hbit (by decide)
    · rw [hneg] at hbit
      exact absurd hbit (by decide)
  · unfold suppressedTesterPresent
    exact decide_eq_false fun h => htester h.1

/-- What `uds_send_nrc` puts out. -/
theorem sendNrc_event {sid nrc : UInt8} {e : Event} (he : e ∈ (sendNrc cfg sid nrc).outputs s) :
    (∃ f, e = .fault f) ∨ 3 ≤ cfg.txBufferSize ∧
      ∃ ret, e = .tpSend .nrc [nrcServiceNotSuppInSess, sid, nrc] ret := by
  obtain ⟨faults, hfaults, ret, houtputs⟩ := sendNrc_outputs cfg sid nrc s
  rw [houtputs] at he
  split_ifs at he with htx
  · rcases List.mem_append.mp he with hfault | hsent
    · exact .inl (hfaults e hfault)
    · exact .inr ⟨htx, ret, List.mem_singleton.mp hsent⟩
  · cases he

theorem sendNrc_no_response {sid nrc : UInt8} (data : List UInt8) (ret : ℤ) :
    .tpSend .response data ret ∉ (sendNrc cfg sid nrc).outputs s := by
  intro he
  rcases sendNrc_event he with ⟨f, hf⟩ | ⟨-, ret', hsent⟩
  · cases hf
  · cases hsent

theorem sendNrc_not_withheld {sid nrc : UInt8} : .withheld ∉ (sendNrc cfg sid nrc).outputs s := by
  intro he
  rcases sendNrc_event he with ⟨f, hf⟩ | ⟨-, ret', hsent⟩
  · cases hf
  · cases hsent

/-- What a positive response puts out whose bytes have just been written. -/
theorem respond_answer (cfg : Config W) {bs : List UInt8} {len : UInt16} (hlen : bs.length = len.toNat)
    (s : Sys W) :
    let es := (writeTx cfg 0 bs >>= fun _ => sendResponse cfg len).outputs s
    ∃ faults ret, (∀ e ∈ faults, ∃ f, e = .fault f) ∧ es = faults ++
      if len ≤ cfg.txBufferSize then
        if s.ctx.suppressPosResp = true then [.withheld] else [.tpSend .response bs ret]
      else [] := by
  intro es
  have hwritten : slice (blit s.tx 0 bs) 0 len.toNat = bs := by
    rw [← hlen]
    exact slice_blit_self s.tx 0 bs
  refine ⟨(writeTx cfg 0 bs).outputs s,
    (cfg.fnTpSend { s.ctx with p2MsgPending := false, rcrrpCount := 0 } bs s.world).1,
    fun e => writeTx_faults s, ?_⟩
  change (writeTx cfg 0 bs).outputs s ++
    (sendResponse cfg len).outputs ((writeTx cfg 0 bs).final s) = _
  apply congrArg
  by_cases hfits : len ≤ cfg.txBufferSize
  · rw [if_pos hfits]
    unfold outputs
    cases hf : s.ctx.suppressPosResp with
    | true =>
      have hf' : ((writeTx cfg 0 bs).final s).ctx.suppressPosResp = true := hf
      rw [sendResponse_suppressed hfits hf']
      rfl
    | false =>
      have hf' : ((writeTx cfg 0 bs).final s).ctx.suppressPosResp = false := hf
      rw [sendResponse_sends hfits hf']
      unfold tpSend
      dsimp only
      rw [show slice ((writeTx cfg 0 bs).final s).tx 0 len.toNat = bs from hwritten]
      rfl
  · rw [if_neg hfits]
    unfold sendResponse
    rw [if_pos (UInt16.not_le.mp hfits)]
    rfl

theorem unsent_around (hes : es.all Event.isAround = true) (hout : ∀ e ∈ es, Surround cfg d e) :
    ∀ e ∈ es, Unsent cfg d e := by
  intro e he
  have hnone : e.sent? = none :=
    around_forall (P := fun e => e.sent? = none) hes (fun _ => rfl) (fun _ => rfl) (fun _ => rfl) e he
  exact ⟨hout e he, hnone⟩

theorem mutexLock_unsent (s : Sys W) : ∀ e ∈ (mutexLock cfg).outputs s, Unsent cfg d e :=
  unsent_around (mutexLock_around cfg s).2 (mutexLock_outside s).events

theorem mutexUnlock_unsent (s : Sys W) : ∀ e ∈ (mutexUnlock cfg).outputs s, Unsent cfg d e :=
  unsent_around (mutexUnlock_around cfg s).2 (mutexUnlock_outside s).events

/-- What comes in front of the treatment of a message. -/
theorem arrival_unsent (s : Sys W) :
    ∀ e ∈ (mutexLock cfg).outputs s ++ (getTime cfg).outputs ((mutexLock cfg).final s),
      Unsent cfg d e := by
  refine List.forall_mem_append.mpr ⟨mutexLock_unsent s, ?_⟩
  exact List.forall_mem_singleton.mpr ⟨trivial, rfl⟩

/-- What comes in front of the checks of the dispatcher. -/
theorem entered_unsent (s : Sys W) :
    ∀ e ∈ (mutexLock cfg).outputs s ++ ((getTime cfg).outputs ((mutexLock cfg).final s) ++
      ((getTime cfg).outputs (arrived cfg s) ++ [.dispatch d.bytes])), Unsent cfg d e := by
  intro e he
  simp only [List.mem_append, List.mem_singleton] at he
  rcases he with hlock | htime | htime | rfl
  · exact mutexLock_unsent s e hlock
  · obtain rfl := List.mem_singleton.mp htime
    exact ⟨trivial, rfl⟩
  · obtain rfl := List.mem_singleton.mp htime
    exact ⟨trivial, rfl⟩
  · exact ⟨trivial, rfl⟩

theorem gate_unsent (hgate : OfGate cfg d es) (hgated : Gated s es t) :
    ∀ e ∈ es, Unsent cfg d e := by
  intro e he
  have hnone : e.sent? = none :=
    hgated.forall (P := fun e => e.sent? = none) (fun _ _ _ => rfl) e he
  exact ⟨(hgate.outside hgated).events e he, hnone⟩

/-- A refusal goes out with the NRC, and nothing else is sent. -/
theorem step_refused {nrc : UInt8} (hreq : IsRequest s d) (h : refusalOf cfg s d = some nrc) :
    ∃ pre t post, (step cfg s (.inputSdu (.bytes d))).2 =
        pre ++ ((sendNrc cfg (d.byte 0) nrc).outputs t ++ post) ∧
      (∀ e ∈ pre, Unsent cfg d e) ∧ ∀ e ∈ post, Unsent cfg d e := by
  unfold refusalOf at h
  by_cases hp : s.ctx.p2MsgPending = true
  · rw [if_pos hp] at h
    obtain rfl := Option.some.inj h
    have houtputs := (step_busy cfg hp hreq.nonempty).outputs
    have hbusy : busyAnswer cfg d = reject cfg (d.byte 0) nrcBusyRepeatRequest :=
      if_neg (Bool.eq_false_iff.mp hreq.loud)
    rw [hbusy, reject_outputs, ← List.append_assoc] at houtputs
    exact ⟨_, _, _, houtputs, arrival_unsent s, mutexUnlock_unsent _⟩
  · rw [if_neg hp] at h
    obtain ⟨check, hfail, rfl⟩ := Option.map_eq_some_iff.mp h
    have htreats := step_started cfg (Bool.eq_false_iff.mpr hp) hreq.unanswering hreq.nonempty
    have hleads := handleRequest_leads cfg (entered cfg s) hreq.nonempty
    rw [hfail] at hleads
    obtain ⟨es, w, hgated, hgate, -, hevents⟩ := hleads
    have houtputs := htreats.outputs
    rw [startRequest_outputs, hevents, reject_outputs] at houtputs
    refine ⟨((mutexLock cfg).outputs s ++ ((getTime cfg).outputs ((mutexLock cfg).final s) ++
      ((getTime cfg).outputs (arrived cfg s) ++ [.dispatch d.bytes]))) ++ es, w,
      (mutexUnlock cfg).outputs ((startRequest cfg d).final (arrived cfg s)), ?_, ?_,
      mutexUnlock_unsent _⟩
    · rw [houtputs]
      simp only [List.append_assoc, List.cons_append, List.nil_append]
    · exact List.forall_mem_append.mpr ⟨entered_unsent s, gate_unsent hgate hgated⟩

/-- A request that is not refused is served, by a core service if no user service stands in its
place. -/
theorem served_of_unrefused (hreq : IsRequest s d)
    (hown : ∀ entry ∈ cfg.userServices, entry.sid ≠ d.byte 0) (h : refusalOf cfg s d = none) :
    ∃ service u, servedBy cfg s d = some (service, u) := by
  unfold refusalOf at h
  by_cases hp : s.ctx.p2MsgPending = true
  · rw [if_pos hp] at h
    cases h
  · rw [if_neg hp] at h
    have hpass := Option.map_eq_none_iff.mp h
    obtain ⟨service, hchosen, -⟩ := (firstFailing_none_iff _).mp hpass
    have hreached : reached cfg d s = some service := by
      unfold reached
      rw [hpass]
      exact (findService_iff _ _).mpr hchosen
    refine ⟨service, atHandler cfg service d (entered cfg s), ?_⟩
    unfold servedBy
    rw [if_pos ⟨hreq.nonempty, Bool.eq_false_iff.mpr hp, hreq.unanswering, hown⟩, hreached]
    rfl

/-- A request that is refused is not served. -/
theorem unserved_of_refused {nrc : UInt8} (h : refusalOf cfg s d = some nrc) :
    servedBy cfg s d = none := by
  unfold servedBy
  split_ifs with hchecks
  · unfold refusalOf at h
    rw [if_neg (Bool.eq_false_iff.mp hchecks.2.1)] at h
    obtain ⟨check, hfail, -⟩ := Option.map_eq_some_iff.mp h
    unfold reached
    rw [hfail]
    rfl
  · rfl

/-- What `execute_handler` does behind the handler. -/
theorem executeHandler_deferring (cfg : Config W) (service : Service W) (hne : d.bytes ≠ []) (s : Sys W) :
    ∃ post, (executeHandler cfg service d).outputs s =
        .handler service.sid :: ((service.handler d).outputs s ++ post) ∧
      Outside cfg d ((service.handler d).final s) post ((executeHandler cfg service d).final s) ∧
      ∀ e ∈ post, Deferring cfg d e := by
  have hR : Composable (fun (s : Sys W) es t => Outside cfg d s es t ∧ ∀ e ∈ es, Deferring cfg d e) := by
    constructor
    · exact fun s => ⟨outside_composable.refl s, nofun⟩
    · rintro _ _ _ _ _ ⟨hout, hes⟩ ⟨hout', hfs⟩
      exact ⟨outside_composable.trans hout hout', List.forall_mem_append.mpr ⟨hes, hfs⟩⟩
  apply executeHandler_split hR
  · intro t
    have houtputs : (byteAt d 0).outputs t = [] := if_pos (List.length_pos_iff.mpr hne)
    rw [houtputs]
    exact hR.refl t
  · intro sid t
    have hout : Outside cfg d t _ _ := sendNrc_outside sid nrcResponsePending t
    refine ⟨hout, fun e he => ⟨hout.events e he, fun data hdata => ?_⟩⟩
    rcases sendNrc_event he with ⟨f, rfl⟩ | ⟨htx, ret, rfl⟩
    · cases hdata
    · exact ⟨htx, rfl, sid, (Option.some.inj hdata).symm⟩
  · exact fun _ => ⟨.single rfl trivial, List.forall_mem_singleton.mpr ⟨trivial, nofun⟩⟩
  · exact fun _ => ⟨⟨rfl, nofun⟩, nofun⟩
  · exact fun _ _ _ => ⟨⟨rfl, nofun⟩, nofun⟩

/-- A request that is served runs the handler, and around it nothing is sent but NRC 0x78. -/
theorem step_served {service : Service W} (h : servedBy cfg s d = some (service, u)) :
    let r := step cfg s (.inputSdu (.bytes d))
    ∃ pre post, r.2 = pre ++ ((service.handler d).outputs u ++ post) ∧
      Outside cfg d s pre u ∧ (∀ e ∈ pre, Unsent cfg d e) ∧
      Outside cfg d ((service.handler d).final u) post r.1 ∧ ∀ e ∈ post, Deferring cfg d e := by
  intro r
  have hruns := servedBy_runs h
  have htreats := step_started cfg hruns.idle hruns.request hruns.nonempty
  have hleads := handleRequest_leads cfg (entered cfg s) hruns.nonempty
  have hreached := hruns.reached
  unfold Core.reached at hreached
  cases hfail : firstFailing cfg (entered cfg s) d with
  | some check =>
    rw [hfail] at hreached
    cases hreached
  | none =>
    rw [hfail] at hleads hreached
    obtain ⟨found, hfound, hend, hevents⟩ := hleads
    obtain rfl := Option.some.inj (hreached.symm.trans hfound)
    rw [← hruns.start] at hend hevents
    obtain ⟨post, hrun, hpost, hdefer⟩ := executeHandler_deferring cfg service hruns.nonempty u
    generalize hgate : (safetyGate cfg (d.byte 0) d).outputs (flagged service d (entered cfg s)) = gate
      at hevents
    have hgated : Gated (entered cfg s) gate u := by
      rw [← hgate, hruns.start]
      exact safetyGate_gated _
    have hofgate : OfGate cfg d gate := fun e he => ⟨_, hgate ▸ he⟩
    have hfinal : r.1 = (mutexUnlock cfg).final ((executeHandler cfg service d).final u) :=
      htreats.final.trans (congrArg (mutexUnlock cfg).final hend)
    have hlast : (startRequest cfg d).final (arrived cfg s) =
        (executeHandler cfg service d).final u := hend
    have houtputs : r.2 = _ := htreats.outputs
    rw [startRequest_outputs, hevents, hrun, hlast] at houtputs
    have hR : Composable (Outside cfg d) := outside_composable
    have hopening := hR.trans (entered_outside cfg d s) (hR.trans (hofgate.outside hgated)
      (.single (e := .handler service.sid) rfl trivial))
    have hclosing : Outside cfg d ((executeHandler cfg service d).final u) _ _ := mutexUnlock_outside _
    have hrest := hR.trans hpost hclosing
    rw [← hfinal] at hrest
    refine ⟨_, _, ?_, hopening, ?_, hrest, ?_⟩
    · rw [houtputs]
      simp only [List.append_assoc, List.cons_append, List.nil_append]
    · refine List.forall_mem_append.mpr ⟨entered_unsent s, List.forall_mem_append.mpr ⟨?_, ?_⟩⟩
      · exact gate_unsent hofgate hgated
      · exact List.forall_mem_singleton.mpr ⟨trivial, rfl⟩
    · refine List.forall_mem_append.mpr ⟨hdefer, fun e he => ?_⟩
      have hunsent : Unsent cfg d e := mutexUnlock_unsent _ e he
      obtain ⟨hsurround, hnone⟩ := hunsent
      refine ⟨hsurround, fun data hdata => ?_⟩
      rw [hnone] at hdata
      cases hdata

/-! ### Negative responses -/

theorem Declined.before {sid : UInt8} (h : Declined sid es)
    (hfs : ∀ data ret, .tpSend .response data ret ∉ fs) : Declined sid (es ++ fs) := by
  obtain ⟨nrc, ret, hsent⟩ := h.negative
  constructor
  · exact ⟨nrc, ret, List.mem_append_left _ hsent⟩
  · intro data ret' he
    rcases List.mem_append.mp he with hfirst | hlater
    · exact h.noPositive data ret' hfirst
    · exact hfs data ret' hlater

/-- Where a negative response does not fit, the handlers send none. -/
theorem Deed.no_nrc {α : Type} {sid : UInt8} {m : M W α} (htx : ¬ 3 ≤ cfg.txBufferSize)
    (hm : Deed cfg d sid α m) : Keeps (fun _ es _ => ∀ e ∈ es, e.isNrc = false) m := by
  intro s
  cases hm with
  | sendNrc nrc =>
    obtain ⟨faults, -, ret, houtputs⟩ := sendNrc_outputs cfg sid nrc s
    rw [houtputs, if_neg htx]
    exact nofun
  | sendResponse len => exact sendResponse_no_nrc len s
  | byteAt hi => exact faults_no_nrc fun _ => byteAt_faults s
  | bytesAt hn => exact faults_no_nrc fun _ => bytesAt_faults s
  | writeTx off bs => exact faults_no_nrc fun _ => writeTx_faults s
  | sessionRefused entry hsid =>
    have hlook : Composed (Look cfg True True) (sessionRefused entry) := sessionRefused_look entry
    exact (Look.composed hlook s).no_nrc
  | securityRefused entry hsid =>
    have hlook : Composed (Look cfg True True) (securityRefused entry) := securityRefused_look entry
    exact (Look.composed hlook s).no_nrc
  | getTime => exact List.forall_mem_singleton.mpr rfl
  | invoke hcall => exact List.forall_mem_singleton.mpr rfl
  | withhold => exact List.forall_mem_singleton.mpr rfl
  | _ => exact nofun

theorem noNrc_composable :
    Composable (fun (_ : Sys W) (es : List Event) (_ : Sys W) => ∀ e ∈ es, e.isNrc = false) where
  refl _ := nofun
  trans h hnext := List.forall_mem_append.mpr ⟨h, hnext⟩

theorem Unsent.no_nrc {e : Event} (h : Unsent cfg d e) : e.isNrc = false := by
  cases e with
  | tpSend origin data ret => cases h.2
  | _ => rfl

theorem Deferring.no_response {e : Event} (h : Deferring cfg d e) (data : List UInt8) (ret : ℤ) :
    e ≠ .tpSend .response data ret := by
  rintro rfl
  obtain ⟨-, hnrc, -⟩ := h.2 data rfl
  exact absurd hnrc Bool.false_ne_true

theorem Unsent.no_response {e : Event} (h : Unsent cfg d e) (data : List UInt8) (ret : ℤ) :
    e ≠ .tpSend .response data ret := by
  rintro rfl
  cases h.2

theorem Deferring.nrc_room {e : Event} (h : Deferring cfg d e) (he : e.isNrc = true) :
    3 ≤ cfg.txBufferSize := by
  cases e with
  | tpSend origin data ret => exact (h.2 data rfl).1
  | _ => cases he

/-- A negative response to a request needs the room for it, unless a user service serves it. -/
theorem request_nrc_room (hreq : IsRequest s d)
    (hown : ∀ entry ∈ cfg.userServices, entry.sid ≠ d.byte 0) {e : Event}
    (he : e ∈ (step cfg s (.inputSdu (.bytes d))).2) (hnrc : e.isNrc = true) :
    3 ≤ cfg.txBufferSize := by
  have haround (hun : Unsent cfg d e) : 3 ≤ cfg.txBufferSize := by
    rw [hun.no_nrc] at hnrc
    cases hnrc
  cases href : refusalOf cfg s d with
  | some refusal =>
    obtain ⟨pre, t, post, hes, hpre, hpost⟩ := step_refused hreq href
    rw [hes, List.mem_append, List.mem_append] at he
    rcases he with he | he | he
    · exact haround (hpre e he)
    · rcases sendNrc_event he with ⟨f, rfl⟩ | ⟨htx, -⟩
      · cases hnrc
      · exact htx
    · exact haround (hpost e he)
  | none =>
    obtain ⟨service, u, hserved⟩ := served_of_unrefused hreq hown href
    obtain ⟨pre, post, hes, -, hpre, -, hpost⟩ := step_served hserved
    rw [hes, List.mem_append, List.mem_append] at he
    rcases he with he | he | he
    · exact haround (hpre e he)
    · by_contra htx
      have hruns := servedBy_runs hserved
      have hdeeds := coreServices_deeds service hruns.core hruns.length
      have hnone := hdeeds.keeps noNrc_composable (fun _ _ => Deed.no_nrc htx) u e he
      rw [hnone] at hnrc
      cases hnrc
    · exact (hpost e he).nrc_room hnrc

/-- A request that the stack refuses around the handlers is declined, where the buffer has room. -/
theorem refused_declined {nrc : UInt8} (hreq : IsRequest s d) (htx : 3 ≤ cfg.txBufferSize)
    (h : refusalOf cfg s d = some nrc) :
    Declined (d.byte 0) (step cfg s (.inputSdu (.bytes d))).2 := by
  obtain ⟨pre, t, post, hes, hpre, hpost⟩ := step_refused hreq h
  rw [hes]
  apply Declined.after _ fun data ret he => (hpre _ he).no_response data ret rfl
  exact (refuses_nrc htx nrc t).before fun data ret he => (hpost _ he).no_response data ret rfl

/-- A request that a handler declines is declined. -/
theorem served_declined {service : Service W} (hserved : servedBy cfg s d = some (service, u))
    (h : Declined (d.byte 0) ((service.handler d).outputs u)) :
    Declined (d.byte 0) (step cfg s (.inputSdu (.bytes d))).2 := by
  obtain ⟨pre, post, hes, -, hpre, -, hpost⟩ := step_served hserved
  rw [hes]
  apply Declined.after _ fun data ret he => (hpre _ he).no_response data ret rfl
  exact h.before fun data ret he => (hpost _ he).no_response data ret rfl

/-! ### One answer -/

theorem Looked.no_send {P B : Prop} (h : Looked P B s es t) (origin : Origin) (data : List UInt8)
    (ret : ℤ) : .tpSend origin data ret ∉ es :=
  fun he => absurd (h.events _ he) Bool.false_ne_true

/-- A handler that answers negatively does not answer positively. -/
theorem Path.one_answer {sid : UInt8} {P B K : Prop} {c h : Bool} {m : M W ℤ}
    (hm : Path cfg sid P B K c h m) (s : Sys W) : (∀ e ∈ m.outputs s, e.isNrc = false) ∨
      ∀ data ret, .tpSend .response data ret ∉ m.outputs s := by
  induction hm generalizing s with
  | refuse nrc hK => exact .inr sendNrc_no_response
  | send hlen => exact .inl (sendResponse_no_nrc _ s)
  | sendThen hlen hk hv =>
    left
    rw [outputs_bind]
    exact List.forall_mem_append.mpr ⟨sendResponse_no_nrc _ s, (Look.composed (hk _) _).no_nrc⟩
  | withhold hB => exact .inl (List.forall_mem_singleton.mpr rfl)
  | look hm hf ih =>
    have hlook := Look.composed hm s
    rcases ih s _ with hnone | hnone
    · left
      rw [outputs_bind]
      exact List.forall_mem_append.mpr ⟨hlook.no_nrc, hnone⟩
    · right
      intro data ret he
      exact (List.mem_append.mp he).elim (hlook.no_send _ data ret) (hnone data ret)
  | head bs hf ih =>
    have hfaults : ∀ e ∈ (writeTx cfg 0 ((sid + responseOffset) :: bs)).outputs s,
        ∃ f, e = .fault f := fun _ => writeTx_faults s
    rcases ih ((writeTx cfg 0 _).final s) with hnone | hnone
    · left
      rw [outputs_bind]
      exact List.forall_mem_append.mpr ⟨faults_no_nrc hfaults, hnone⟩
    · right
      intro data ret he
      rcases List.mem_append.mp he with he | he
      · obtain ⟨f, hf⟩ := hfaults _ he
        cases hf
      · exact hnone data ret he
  | commit hg hconv hpair hf ih => exact ih _
  | store addr bs hf ih => exact ih _

/-- The response comes from the handler. -/
theorem positive_served (hreq : IsRequest s d)
    (hown : ∀ entry ∈ cfg.userServices, entry.sid ≠ d.byte 0)
    (h : PositiveAnswer (step cfg s (.inputSdu (.bytes d))).2) :
    ∃ service u, servedBy cfg s d = some (service, u) ∧
      PositiveAnswer ((service.handler d).outputs u) := by
  obtain ⟨data, ret, hsent⟩ := h
  cases href : refusalOf cfg s d with
  | some nrc =>
    obtain ⟨pre, t, post, hes, hpre, hpost⟩ := step_refused hreq href
    rw [hes, List.mem_append, List.mem_append] at hsent
    rcases hsent with he | he | he
    · exact absurd rfl ((hpre _ he).no_response data ret)
    · exact absurd he (sendNrc_no_response data ret)
    · exact absurd rfl ((hpost _ he).no_response data ret)
  | none =>
    obtain ⟨service, u, hserved⟩ := served_of_unrefused hreq hown href
    obtain ⟨pre, post, hes, -, hpre, -, hpost⟩ := step_served hserved
    rw [hes, List.mem_append, List.mem_append] at hsent
    rcases hsent with he | he | he
    · exact absurd rfl ((hpre _ he).no_response data ret)
    · exact ⟨service, u, hserved, data, ret, he⟩
    · exact absurd rfl ((hpost _ he).no_response data ret)

end UdsLib.Core
