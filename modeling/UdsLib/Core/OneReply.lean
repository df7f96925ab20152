import UdsLib.Core.Gate

/-! Every request is answered once: with one negative response, with one positive response, or,
where bit 7 asks for silence and the outcome is positive, with none. -/
namespace UdsLib.Core
open Bytes Machine Prog Services

variable {W : Type} {cfg : Config W} {sid : UInt8} {silent : Prop} {s : Sys W}

/-- What a request for the service `sid` comes to, if `silent` tells whether a positive response
is to be withheld. -/
inductive Outcome (sid : UInt8) (silent : Prop) (es : List Event) : Prop where
  | refused (nrc : UInt8) (hsent : sentOf es = [[nrcServiceNotSuppInSess, sid, nrc]])
      (hnot : Event.withheld ∉ es)
  | answered (rest : List UInt8) (hloud : ¬ silent)
      (hsent : sentOf es = [(sid + responseOffset) :: rest]) (hnot : Event.withheld ∉ es)
  | silenced (hsilent : silent) (hsent : sentOf es = []) (hpos : Event.withheld ∈ es)

/-- The request asks for no positive response, and its service has sub-functions. -/
def Silenced (cfg : Config W) (d : Sdu) : Prop :=
  ∃ service, findService cfg (d.byte 0) = some service ∧ service.subMask.isSome = true ∧
    SuppressBit d

/-- Nothing was sent or withheld. -/
def Unanswered (es : List Event) : Prop := sentOf es = [] ∧ Event.withheld ∉ es

theorem Unanswered.append {es fs : List Event} (h : Unanswered es) (hnext : Unanswered fs) :
    Unanswered (es ++ fs) := by
  constructor
  · rw [sentOf_append, h.1, hnext.1]
    rfl
  · rw [List.mem_append]
    exact not_or.mpr ⟨h.2, hnext.2⟩

theorem unanswered_nil : Unanswered [] := ⟨rfl, List.not_mem_nil⟩

theorem unanswered_of_forall {es : List Event}
    (h : ∀ e ∈ es, e.sent? = none ∧ e ≠ .withheld) : Unanswered es := by
  constructor
  · exact List.filterMap_eq_nil_iff.mpr fun e he => (h e he).1
  · exact fun he => (h _ he).2 rfl

theorem Outcome.between {before es after : List Event} (hbefore : Unanswered before)
    (h : Outcome sid silent es) (hafter : Unanswered after) :
    Outcome sid silent (before ++ (es ++ after)) := by
  have hsent : sentOf (before ++ (es ++ after)) = sentOf es := by
    rw [sentOf_append, sentOf_append, hbefore.1, hafter.1, List.nil_append, List.append_nil]
  have hmem : Event.withheld ∈ before ++ (es ++ after) ↔ Event.withheld ∈ es := by
    simp [hbefore.2, hafter.2]
  cases h with
  | refused nrc h hnot => exact .refused nrc (hsent.trans h) (mt hmem.mp hnot)
  | answered rest hloud h hnot => exact .answered rest hloud (hsent.trans h) (mt hmem.mp hnot)
  | silenced hsilent h hpos => exact .silenced hsilent (hsent.trans h) (hmem.mpr hpos)

theorem Outcome.after {before es : List Event} (hbefore : Unanswered before)
    (h : Outcome sid silent es) : Outcome sid silent (before ++ es) := by
  simpa using h.between hbefore unanswered_nil

/-! ### The two answers -/

theorem sendNrc_refused (htx : 3 ≤ cfg.txBufferSize) (sid nrc : UInt8) (s : Sys W) :
    Outcome sid silent ((sendNrc cfg sid nrc).outputs s) := by
  refine .refused nrc ?_ ?_
  · rw [sendNrc_sent, if_pos htx]
  · obtain ⟨faults, hfaults, ret, houtputs⟩ := sendNrc_outputs cfg sid nrc s
    rw [houtputs, if_pos htx, List.mem_append]
    rintro (he | he)
    · obtain ⟨f, hf⟩ := hfaults _ he
      cases hf
    · cases List.mem_singleton.mp he

theorem sendNrc_value (htx : 3 ≤ cfg.txBufferSize)
    (hsend : ∀ ctx data w, (cfg.fnTpSend ctx data w).1 = 0) (sid nrc : UInt8) (s : Sys W) :
    (sendNrc cfg sid nrc).value s = 0 := by
  unfold sendNrc
  rw [if_neg (UInt16.not_lt.mpr htx)]
  exact hsend _ _ _

/-- A positive response with its head in place. -/
theorem sendResponse_outcome {len : UInt16} (hpos : 1 ≤ len.toNat) (hlen : len ≤ cfg.txBufferSize)
    (hsend : ∀ ctx data w, (cfg.fnTpSend ctx data w).1 = 0)
    (hflag : s.ctx.suppressPosResp = true ↔ silent) (hhead : s.tx 0 = sid + responseOffset) :
    Outcome sid silent ((sendResponse cfg len).outputs s) ∧ (sendResponse cfg len).value s = 0 := by
  cases hf : s.ctx.suppressPosResp with
  | true =>
    unfold outputs value
    rw [sendResponse_suppressed hlen hf]
    exact ⟨.silenced (hflag.mp hf) rfl (List.mem_singleton.mpr rfl), rfl⟩
  | false =>
    have hloud : ¬ silent := fun h => absurd (hflag.mpr h) (Bool.eq_false_iff.mp hf)
    have hdata : slice s.tx 0 len.toNat =
        (sid + responseOffset) :: slice s.tx 1 (len.toNat - 1) := by
      obtain ⟨n, hn⟩ := Nat.exists_eq_add_of_le hpos
      rw [hn, slice_add, Nat.add_sub_cancel_left, ← hhead]
      rfl
    unfold outputs value
    rw [sendResponse_sends hlen hf]
    refine ⟨.answered (slice s.tx 1 (len.toNat - 1)) hloud ?_ ?_, hsend _ _ _⟩
    · exact congrArg (fun data => [data]) hdata
    · exact fun hmem => nomatch List.mem_singleton.mp hmem

/-! ### A handler's way to its answer -/

theorem Looked.unanswered {P B : Prop} {s t : Sys W} {es : List Event} (h : Looked P B s es t) :
    Unanswered es := by
  apply unanswered_of_forall
  intro e he
  have hlook := h.events e he
  cases e with
  | tpSend origin data ret => exact absurd hlook Bool.false_ne_true
  | withheld => exact absurd hlook Bool.false_ne_true
  | _ => exact ⟨rfl, nofun⟩

/-- A handler that starts with the flag its request asks for comes to one answer, and reports
success. -/
theorem Path.outcome {P B K : Prop} {c h : Bool} {m : M W ℤ} (hm : Path cfg sid P B K c h m)
    (hcontract : Contract cfg) (hsend : ∀ ctx data w, (cfg.fnTpSend ctx data w).1 = 0)
    (s : Sys W) (hflag : s.ctx.suppressPosResp = true ↔ B)
    (hhead : h = true → s.tx 0 = sid + responseOffset) :
    Outcome sid B (m.outputs s) ∧ m.value s = 0 := by
  have htx : 3 ≤ cfg.txBufferSize := by
    have := hcontract.buffer
    exact UInt16.le_iff_toNat_le.mpr (Nat.le_trans (by decide) this)
  induction hm generalizing s with
  | refuse nrc hK => exact ⟨sendNrc_refused htx _ _ _, sendNrc_value htx hsend _ _ _⟩
  | send hlen =>
    exact sendResponse_outcome (hlen hcontract).1 (hlen hcontract).2 hsend hflag (hhead rfl)
  | sendThen hlen hk hv =>
    obtain ⟨houtcome, -⟩ :=
      sendResponse_outcome (hlen hcontract).1 (hlen hcontract).2 hsend hflag (hhead rfl)
    refine ⟨?_, hv _ _⟩
    rw [outputs_bind]
    exact houtcome.between unanswered_nil (Look.composed (hk _) _).unanswered
  | withhold hB => exact ⟨.silenced hB rfl (List.mem_singleton.mpr rfl), rfl⟩
  | @look c h α m f hm hf ih =>
    have hlook := Look.composed hm s
    have hnext := ih s (m.final s) (hlook.flag hflag) fun hh => hlook.head.trans (hhead hh)
    refine ⟨?_, hnext.2⟩
    rw [outputs_bind]
    exact hnext.1.after hlook.unanswered
  | @head c h bs f hf ih =>
    have hfaults : ∀ e ∈ (writeTx cfg 0 ((sid + responseOffset) :: bs)).outputs s,
        ∃ f, e = .fault f := fun _ => writeTx_faults s
    have hfirst : blit s.tx 0 ((sid + responseOffset) :: bs) (0 + 0) = sid + responseOffset :=
      blit_inside _ _ _ _ (Nat.succ_pos _)
    have hnext := ih ((writeTx cfg 0 ((sid + responseOffset) :: bs)).final s) hflag fun _ => hfirst
    have hquiet : Looked P B s _ s := looked_faults hfaults
    refine ⟨?_, hnext.2⟩
    rw [outputs_bind]
    exact hnext.1.after hquiet.unanswered
  | @commit c h g f hg hconv hpair hf ih =>
    have hsame : (g s.ctx).suppressPosResp = s.ctx.suppressPosResp :=
      congrArg Conversation.suppressPosResp (hconv s.ctx)
    exact ih ((setCtx g).final s) ((iff_of_eq (congrArg (· = true) hsame)).trans hflag) hhead
  | @store c h addr bs f hf ih => exact ih ((writeMem addr bs).final s) hflag hhead

/-! ### A request on an idle context -/

theorem around_unanswered {es : List Event} (h : es.all Event.isAround = true) :
    Unanswered es := by
  refine ⟨around_sent h, fun he => ?_⟩
  exact absurd (List.all_eq_true.mp h _ he) Bool.false_ne_true

theorem Gated.unanswered {t : Sys W} {es : List Event} (h : Gated s es t) : Unanswered es := by
  refine ⟨h.sent, fun he => ?_⟩
  obtain ⟨sid, data, ret, hcall⟩ := h.2 _ he
  cases hcall

theorem Outcome.cons {e : Event} {es : List Event} (hsent : e.sent? = none) (hne : e ≠ .withheld)
    (h : Outcome sid silent es) : Outcome sid silent (e :: es) := by
  have he : Unanswered [e] := unanswered_of_forall fun x hx => by
    obtain rfl := List.mem_singleton.mp hx
    exact ⟨hsent, hne⟩
  exact h.after he

/-- The flag under which the handler of a request starts. -/
theorem atHandler_flag (cfg : Config W) (service : Service W) (d : Sdu) {t : Sys W}
    (hflag : t.ctx.suppressPosResp = false) :
    (atHandler cfg service d t).ctx.suppressPosResp = true ↔
      service.subMask.isSome = true ∧ SuppressBit d := by
  rw [atHandler_ctx]
  unfold flagged flagFor
  cases service.subMask.isSome with
  | true => simp
  | false => simp [hflag]

/-- The handler of a core service reports success, so that nothing follows it. -/
theorem executeHandler_outcome {service : Service W} {d : Sdu} {t : Sys W}
    (hservice : service ∈ coreServices cfg) (hcontract : Contract cfg)
    (hsend : ∀ ctx data w, (cfg.fnTpSend ctx data w).1 = 0)
    (hflag : t.ctx.suppressPosResp = true ↔ service.subMask.isSome = true ∧ SuppressBit d) :
    Outcome service.sid (service.subMask.isSome = true ∧ SuppressBit d)
      ((executeHandler cfg service d).outputs t) := by
  obtain ⟨houtcome, hvalue⟩ :=
    (coreServices_path d service hservice).outcome hcontract hsend t hflag nofun
  have hdone : ¬ (service.handler d).value t = udsPending := by
    rw [hvalue]
    decide
  rw [(executeHandler_done cfg service d hdone).2]
  exact houtcome.cons rfl nofun

/-- Exactly one reply. On an idle context without user services, with a transport that accepts
every message and callbacks that keep to the room they are given, a request comes to one
negative response, or to one positive response, or, if it asks for silence, to none. -/
theorem exactly_one_reply (cfg : Config W) (s : Sys W) (d : Sdu) (hidle : Idle s.ctx)
    (hflag : s.ctx.suppressPosResp = false) (husers : cfg.userServices = [])
    (hcontract : Contract cfg) (hsend : ∀ ctx data w, (cfg.fnTpSend ctx data w).1 = 0)
    (hne : d.bytes ≠ []) :
    Outcome (d.byte 0) (Silenced cfg d) (step cfg s (.inputSdu (.bytes d))).2 := by
  have htx : 3 ≤ cfg.txBufferSize := by
    have := hcontract.buffer
    exact UInt16.le_iff_toNat_le.mpr (Nat.le_trans (by decide) this)
  obtain ⟨-, before, after, hbefore, hafter, houtputs⟩ :=
    step_dispatched cfg hidle.notPending (hidle.not_answer d) hne
  rw [houtputs]
  apply Outcome.between (around_unanswered hbefore) _ (around_unanswered hafter)
  have hleads := handleRequest_leads cfg (entered cfg s) hne
  cases hfail : firstFailing cfg (entered cfg s) d with
  | some check =>
    rw [hfail] at hleads
    obtain ⟨es, w, hgated, -, -, hevents⟩ := hleads
    rw [hevents]
    refine (Outcome.after hgated.unanswered ?_).cons rfl nofun
    rw [reject_outputs]
    exact sendNrc_refused htx _ _ _
  | none =>
    rw [hfail] at hleads
    obtain ⟨service, hfound, -, hevents⟩ := hleads
    have hcore : service ∈ coreServices cfg ∧ service.sid = d.byte 0 := by
      rcases (findService_iff _ _).mp hfound with ⟨_, entry, _, hsplit, -⟩ | h
      · rw [husers] at hsplit
        exact absurd hsplit (by simp)
      · exact h.2
    have hentered : (entered cfg s).ctx.suppressPosResp = false := by
      rw [entered_ctx]
      exact hflag
    have hsilent : Silenced cfg d ↔ service.subMask.isSome = true ∧ SuppressBit d := by
      constructor
      · rintro ⟨other, hother, hsub⟩
        obtain rfl := Option.some.inj (hother.symm.trans hfound)
        exact hsub
      · exact fun hsub => ⟨service, hfound, hsub⟩
    have houtcome := executeHandler_outcome hcore.1 hcontract hsend
      (atHandler_flag cfg service d hentered)
    rw [hcore.2] at houtcome
    rw [hevents, hsilent]
    exact (houtcome.after (safetyGate_gated _).unanswered).cons rfl nofun

/-- A silent reset without a reset callback. -/
theorem silentReset_outcome :
    Outcome 0x11 (Silenced plainConfig silentReset)
      (step plainConfig (booted plainConfig) (.inputSdu (.bytes silentReset))).2 :=
  exactly_one_reply plainConfig (booted plainConfig) silentReset ⟨by decide, by decide⟩ (by decide)
    rfl ⟨by decide, fun _ _ _ _ _ => Int.natCast_nonneg _⟩ (fun _ _ _ => rfl) (by decide)

end UdsLib.Core
