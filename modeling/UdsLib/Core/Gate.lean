import Mathlib.Data.Nat.Bitwise
import UdsLib.Core.Arrival
import UdsLib.Core.Suppression

/-! The gate in front of the handlers: which service a request is for, which checks it has to
pass, and that the first check it fails decides its answer. -/
namespace UdsLib.Core
open Bytes Machine Prog Services

variable {W : Type} {cfg : Config W} {d : Sdu} {service : Service W}

/-- The checks of `handle_request`. -/
inductive Check where
  | service
  | session
  | presence
  | support
  | length
  | security
  | safety
  deriving DecidableEq, Repr

/-- The checks in the order in which they are made. -/
def checks : List Check :=
  [.service, .session, .presence, .support, .length, .security, .safety]

/-- The NRC of a request that fails the check. -/
def Check.nrc : Check → UInt8
  | .service => nrcServiceNotSupported
  | .session => nrcServiceNotSuppInSess
  | .presence => nrcIncorrectLength
  | .support => nrcSubfunctionNotSupported
  | .length => nrcIncorrectLength
  | .security => nrcSecurityAccessDenied
  | .safety => nrcConditionsNotCorrect

/-- The service for a SID: the first user entry with it, or else the core entry with it. -/
def Chosen (cfg : Config W) (sid : UInt8) (service : Service W) : Prop :=
  (∃ before entry after, cfg.userServices = before ++ entry :: after ∧
      (∀ other ∈ before, other.sid ≠ sid) ∧ entry.sid = sid ∧ service = userService cfg entry) ∨
    (∀ entry ∈ cfg.userServices, entry.sid ≠ sid) ∧ service ∈ coreServices cfg ∧
      service.sid = sid

/-- The bit of a session in a session mask. -/
def sessionPosition (session : UInt8) : Option ℕ :=
  if session = sessionIdDefault then some 0
  else if session = sessionIdExtended then some 1
  else if session = sessionIdProgramming then some 2
  else none

/-- The sub-function of a request, without bit 7. -/
def subFunction (d : Sdu) : ℕ := (d.byte 1 &&& 0x7F).toNat

/-- The state with the suppression flag that the request asks for. -/
def flagged (service : Service W) (d : Sdu) (t : Sys W) : Sys W :=
  { t with ctx := { t.ctx with suppressPosResp := flagFor service d t.ctx.suppressPosResp } }

/-- A request for this service passes the check. -/
def Check.passes (cfg : Config W) (t : Sys W) (service : Service W) (d : Sdu) : Check → Bool
  | .service => true
  | .session => (sessionPosition t.ctx.activeSession).any service.sessionMask.toNat.testBit
  | .presence => service.subMask.isNone || decide (2 ≤ d.bytes.length)
  | .support => service.subMask.all fun mask =>
      (mask.getD (subFunction d / 8) 0).toNat.testBit (subFunction d % 8)
  | .length => decide (service.minLen.toNat ≤ d.bytes.length)
  | .security => decide (service.securityMask.toNat ≤ t.ctx.securityLevel.toNat)
  | .safety => !cfg.isSet .fnIsSafe ||
      let u := flagged service d t
      decide ((cfg.app u.ctx (.isSafe (d.byte 0) (d.slice 0 d.bytes.length)) u.world).1.ret ≠ 0)

/-- The first check that a request fails. -/
def firstFailing (cfg : Config W) (t : Sys W) (d : Sdu) : Option Check :=
  match findService cfg (d.byte 0) with
  | none => some .service
  | some service => checks.find? fun check => !check.passes cfg t service d

/-- The state in which the handler of the service is entered. -/
def atHandler (cfg : Config W) (service : Service W) (d : Sdu) (t : Sys W) : Sys W :=
  (safetyGate cfg (d.byte 0) d).final (flagged service d t)

/-- No asynchronous request is in progress and no answer to the client is awaited. -/
structure Idle (c : Ctx) : Prop where
  notPending : c.p2MsgPending = false
  noSid : c.pendingSid = 0

/-- A handler, or a callback other than the mutex and `fn_is_safe`, was called. -/
def Event.isService : Event → Bool
  | .handler _ => true
  | .responseCb _ _ _ => true
  | .call .mutexLock _ => false
  | .call .mutexUnlock _ => false
  | .call (.isSafe _ _) _ => false
  | .call _ _ => true
  | _ => false

/-- The request was answered with this NRC and nothing else happened. -/
structure Rejected (s : Sys W) (sid nrc : UInt8) (r : Sys W × List Event) : Prop where
  sent : sentOf r.2 = [[nrcServiceNotSuppInSess, sid, nrc]]
  noService : r.2.any Event.isService = false
  unchanged : r.1.ctx.diagnostic = s.ctx.diagnostic

/-- The handler of the service ran from the state `u`, and no other handler or callback. -/
def Handled (service : Service W) (d : Sdu) (u : Sys W) (es : List Event) : Prop :=
  ∃ before after : List Event,
    es = before ++ .handler service.sid :: ((service.handler d).outputs u ++ after) ∧
      before.any Event.isService = false ∧ after.any Event.isService = false

/-! ### The choice of the service -/

theorem find?_sid {H : Type} {sid : UInt8} {entries : List (ServiceEntry H)}
    (hnodup : (entries.map ServiceEntry.sid).Nodup) (entry : ServiceEntry H) :
    entries.find? (fun e => e.sid = sid) = some entry ↔ entry ∈ entries ∧ entry.sid = sid := by
  constructor
  · intro h
    exact ⟨List.mem_of_find?_eq_some h, by simpa using List.find?_some h⟩
  · rintro ⟨hmem, hsid⟩
    induction entries with
    | nil => cases hmem
    | cons e entries ih =>
      obtain ⟨hfirst, hrest⟩ := List.nodup_cons.mp hnodup
      rcases List.mem_cons.mp hmem with rfl | htail
      · rw [List.find?_cons_of_pos (by simpa using hsid)]
      · have hother : ¬ e.sid = sid := by
          intro he
          exact hfirst (he ▸ hsid ▸ List.mem_map_of_mem htail)
        rw [List.find?_cons_of_neg (by simpa using hother)]
        exact ih hrest htail

theorem coreServices_sids : (coreServices cfg).map ServiceEntry.sid =
    [0x10, 0x11, 0x14, 0x19, 0x22, 0x23, 0x27, 0x28, 0x29, 0x2E, 0x31, 0x34, 0x36, 0x37, 0x3D, 0x3E,
      0x85, 0x2A, 0x2F, 0x35] :=
  rfl

theorem coreServices_nodup : ((coreServices cfg).map ServiceEntry.sid).Nodup := by
  rw [coreServices_sids]
  decide

theorem coreServices_sid_ne : ∀ service ∈ coreServices cfg, service.sid ≠ 0 := by
  intro service hservice hzero
  have hmem := coreServices_sids ▸ List.mem_map_of_mem hservice
  rw [hzero] at hmem
  exact absurd hmem (by decide)

theorem Chosen.sid_eq {sid : UInt8} (h : Chosen cfg sid service) : service.sid = sid := by
  rcases h with ⟨_, entry, _, -, -, hsid, rfl⟩ | ⟨-, -, hsid⟩
  · exact hsid
  · exact hsid

theorem findService_iff (sid : UInt8) (service : Service W) :
    findService cfg sid = some service ↔ Chosen cfg sid service := by
  unfold findService Chosen
  cases huser : cfg.userServices.find? fun entry => entry.sid = sid with
  | none =>
    have hnone : ∀ entry ∈ cfg.userServices, entry.sid ≠ sid := by
      simpa [List.find?_eq_none] using huser
    rw [find?_sid coreServices_nodup]
    constructor
    · intro h
      exact Or.inr ⟨hnone, h⟩
    · rintro (⟨before, entry, after, hsplit, -, hsid, -⟩ | h)
      · exact absurd hsid (hnone entry (hsplit ▸ by simp))
      · exact h.2
  | some entry =>
    obtain ⟨hsid, before, after, hsplit, hbefore⟩ := List.find?_eq_some_iff_append.mp huser
    have hsid' : entry.sid = sid := by simpa using hsid
    constructor
    · intro h
      have hbefore' : ∀ other ∈ before, other.sid ≠ sid := by simpa using hbefore
      exact Or.inl ⟨before, entry, after, hsplit, hbefore', hsid', (Option.some.inj h).symm⟩
    · rintro (⟨before', entry', after', hsplit', hbefore', hentry', rfl⟩ | h)
      · have hfirst : cfg.userServices.find? (fun e => e.sid = sid) = some entry' := by
          apply List.find?_eq_some_iff_append.mpr
          exact ⟨by simpa using hentry', before', after', hsplit', by simpa using hbefore'⟩
        rw [huser] at hfirst
        rw [Option.some.inj hfirst]
      · exact absurd hsid' (h.1 entry (hsplit ▸ by simp))

/-- Without a user entry for the SID the service is a core service. -/
theorem Chosen.core {sid : UInt8} (h : Chosen cfg sid service)
    (hcore : ∀ entry ∈ cfg.userServices, entry.sid ≠ sid) : service ∈ coreServices cfg := by
  rcases h with ⟨_, entry, _, hsplit, -, hsid, -⟩ | ⟨-, hmem, -⟩
  · exact absurd hsid (hcore entry (hsplit ▸ List.mem_append_right _ (List.mem_cons_self ..)))
  · exact hmem

/-! ### The checks of the code -/

theorem and_ne_zero_iff {a m : UInt8} {k : ℕ} (h : m.toNat = 2 ^ k) :
    a &&& m ≠ 0 ↔ a.toNat.testBit k = true := by
  rw [Ne, ← UInt8.toNat_inj, UInt8.toNat_and, h, Nat.and_two_pow]
  cases a.toNat.testBit k <;> simp

theorem sessionSupported_iff (cfg : Config W) (service : Service W) (d : Sdu) (t : Sys W) :
    isSessionSupported t.ctx service = Check.session.passes cfg t service d := by
  unfold isSessionSupported Check.passes getSessionBit sessionPosition
  split_ifs with h1 h2 h3 h4
  · exact Bool.eq_iff_iff.mpr (by simpa using and_ne_zero_iff (k := 0) rfl)
  · exact absurd (h2.symm.trans h3) (by decide)
  · exact Bool.eq_iff_iff.mpr (by simpa using and_ne_zero_iff (k := 2) rfl)
  · exact Bool.eq_iff_iff.mpr (by simpa using and_ne_zero_iff (k := 1) rfl)
  · simp

theorem subfunctionSupported_iff (cfg : Config W) (service : Service W) (d : Sdu) (t : Sys W) :
    isSubfunctionSupported service (d.byte 1 &&& 0x7F) = Check.support.passes cfg t service d := by
  have hbit (sub : UInt8) : ((1 : UInt8) <<< (sub &&& 7)).toNat = 2 ^ (sub.toNat % 8) := by
    have h7 : sub.toNat &&& (7 : UInt8).toNat = sub.toNat % 8 :=
      Nat.and_two_pow_sub_one_eq_mod _ 3
    have hlt : 2 ^ (sub.toNat % 8) < 2 ^ 8 :=
      Nat.pow_lt_pow_right (by decide) (Nat.mod_lt _ (by decide))
    rw [UInt8.toNat_shiftLeft, UInt8.toNat_and, h7, Nat.mod_mod, Nat.shiftLeft_eq]
    simpa using hlt
  have hbyte (sub : UInt8) : (sub >>> 3).toNat = sub.toNat / 8 := by
    rw [UInt8.toNat_shiftRight, Nat.shiftRight_eq_div_pow]
    rfl
  unfold isSubfunctionSupported Check.passes subFunction
  cases service.subMask with
  | none => rfl
  | some mask =>
    rw [Option.all_some, Bool.eq_iff_iff, decide_eq_true_iff, and_ne_zero_iff (hbit _), hbyte]

theorem length_lt_iff (cfg : Config W) (service : Service W) (d : Sdu) (t : Sys W) :
    d.len < service.minLen ↔ ¬ Check.length.passes cfg t service d = true := by
  rw [UInt16.lt_iff_toNat_lt, d.len_toNat]
  simp [Check.passes]

theorem security_gt_iff (cfg : Config W) (service : Service W) (d : Sdu) (t : Sys W) :
    service.securityMask > t.ctx.securityLevel.toUInt16 ↔
      ¬ Check.security.passes cfg t service d = true := by
  rw [gt_iff_lt, UInt16.lt_iff_toNat_lt, UInt8.toNat_toUInt16]
  simp [Check.passes]

theorem safetyGate_value (cfg : Config W) (service : Service W) (d : Sdu) (t : Sys W) :
    (safetyGate cfg (d.byte 0) d).value (flagged service d t) =
      Check.safety.passes cfg t service d := by
  unfold safetyGate Check.passes
  cases h : cfg.isSet .fnIsSafe with
  | true =>
    rw [if_neg (by simp), value_bind, value_pure, Bool.not_true, Bool.false_or]
    rfl
  | false =>
    rw [if_pos (by simp)]
    simp

/-! ### The dispatch -/

/-- From `s` the program `m` puts out `es` and goes on as `n` does from `t`. -/
def Leads (m : M W Unit) (s : Sys W) (es : List Event) (n : M W Unit) (t : Sys W) : Prop :=
  m.final s = n.final t ∧ m.outputs s = es ++ n.outputs t

/-- The suppression flag and the world are all that changes, and the events are calls of
`fn_is_safe`. -/
def Gated (s : Sys W) (es : List Event) (t : Sys W) : Prop :=
  t = { s with
    ctx := { s.ctx with suppressPosResp := t.ctx.suppressPosResp }, world := t.world } ∧
    ∀ e ∈ es, ∃ sid data ret, e = .call (.isSafe sid data) ret

/-- Events that the safety gate puts out for the request. -/
def OfGate (cfg : Config W) (d : Sdu) (es : List Event) : Prop :=
  ∀ e ∈ es, ∃ u, e ∈ (safetyGate cfg (d.byte 0) d).outputs u

theorem safetyGate_gated (t : Sys W) :
    Gated t ((safetyGate cfg (d.byte 0) d).outputs (flagged service d t))
      (atHandler cfg service d t) := by
  unfold atHandler safetyGate
  rw [outputs_ite, final_ite]
  split_ifs
  · refine ⟨rfl, fun e he => ?_⟩
    obtain rfl := List.mem_singleton.mp he
    exact ⟨_, _, _, rfl⟩
  · exact ⟨rfl, fun e he => absurd he List.not_mem_nil⟩

theorem atHandler_ctx (t : Sys W) :
    (atHandler cfg service d t).ctx = (flagged service d t).ctx := by
  unfold atHandler safetyGate
  rw [final_ite]
  split_ifs <;> rfl

/-- Behind the sub-function checks, the first check that fails of the other three decides. -/
theorem handleChecked_leads (cfg : Config W) (service : Service W) (d : Sdu) (t : Sys W) :
    let u := flagged service d t
    let v := atHandler cfg service d t
    let gate := (safetyGate cfg (d.byte 0) d).outputs u
    match [Check.length, .security, .safety].find? fun c => !c.passes cfg t service d with
    | none => Leads (handleChecked cfg service (d.byte 0) d) u gate (executeHandler cfg service d) v
    | some check => ∃ es w, Gated t es w ∧ OfGate cfg d es ∧
        Leads (handleChecked cfg service (d.byte 0) d) u es (reject cfg (d.byte 0) check.nrc) w := by
  intro u v gate
  have hstart : Gated t [] u := ⟨rfl, fun e he => absurd he List.not_mem_nil⟩
  have hlength := length_lt_iff cfg service d t
  have hsecurity := security_gt_iff cfg service d t
  have hsafety := safetyGate_value cfg service d t
  unfold handleChecked Leads
  by_cases h1 : Check.length.passes cfg t service d = true
  · rw [if_neg (by rw [hlength]; simpa using h1), final_getCtx_bind, outputs_getCtx_bind]
    by_cases h2 : Check.security.passes cfg t service d = true
    · have hlevel : ¬ service.securityMask > u.ctx.securityLevel.toUInt16 := fun h =>
        hsecurity.mp h h2
      rw [if_neg hlevel, final_bind, outputs_bind, hsafety]
      by_cases h3 : Check.safety.passes cfg t service d = true
      · simp only [List.find?_cons, h1, h2, h3]
        exact ⟨rfl, rfl⟩
      · simp only [List.find?_cons, h1, h2, h3]
        exact ⟨gate, v, safetyGate_gated t, fun e he => ⟨u, he⟩, rfl, rfl⟩
    · have hlevel : service.securityMask > u.ctx.securityLevel.toUInt16 := hsecurity.mpr h2
      rw [if_pos hlevel]
      simp only [List.find?_cons, h1, h2]
      exact ⟨[], u, hstart, nofun, rfl, rfl⟩
  · rw [if_pos (hlength.mpr h1)]
    simp only [List.find?_cons, h1]
    exact ⟨[], u, hstart, nofun, rfl, rfl⟩

/-- Behind the session check, the first check that fails of the others decides. -/
theorem handleFound_leads (cfg : Config W) (service : Service W) (d : Sdu) (t : Sys W) :
    let gate := (safetyGate cfg (d.byte 0) d).outputs (flagged service d t)
    let rest := [Check.presence, .support, .length, .security, .safety]
    match rest.find? fun c => !c.passes cfg t service d with
    | none => Leads (handleFound cfg service (d.byte 0) d) t gate (executeHandler cfg service d)
        (atHandler cfg service d t)
    | some check => ∃ es w, Gated t es w ∧ OfGate cfg d es ∧
        Leads (handleFound cfg service (d.byte 0) d) t es (reject cfg (d.byte 0) check.nrc) w := by
  intro gate rest
  have hchecked := handleChecked_leads cfg service d t
  have hsupport := subfunctionSupported_iff cfg service d t
  have hstart : Gated t [] t := ⟨rfl, fun e he => absurd he List.not_mem_nil⟩
  by_cases hsub : service.subMask.isSome = true
  · have hsome : service.subMask.isNone = false := by simpa using hsub
    unfold handleFound
    rw [if_pos hsub]
    by_cases h1 : Check.presence.passes cfg t service d = true
    · have hlen : 2 ≤ d.bytes.length := by simpa [Check.passes, hsome] using h1
      have hlen' : ¬ d.len < 2 := by
        rw [UInt16.lt_iff_toNat_lt, d.len_toNat]
        exact Nat.not_lt.mpr hlen
      rw [if_neg hlen']
      unfold Leads
      rw [final_byteAt_bind, outputs_byteAt_bind _ _ _ _ hlen, hsupport]
      by_cases h2 : Check.support.passes cfg t service d = true
      · have hflag : (setCtx fun c => { c with
            suppressPosResp := decide (d.byte 1 &&& 0x80 ≠ 0) }).final t = flagged service d t := by
          unfold flagged flagFor
          rw [if_pos hsub]
          rfl
        rw [if_neg (not_not_intro h2), final_bind, outputs_bind, hflag]
        simp only [rest, List.find?_cons, h1, h2]
        exact hchecked
      · rw [if_pos h2]
        simp only [rest, List.find?_cons, h1, h2]
        exact ⟨[], t, hstart, nofun, rfl, rfl⟩
    · have hlen : d.len < 2 := by
        rw [UInt16.lt_iff_toNat_lt, d.len_toNat]
        simpa [Check.passes, hsome] using h1
      rw [if_pos hlen]
      simp only [rest, List.find?_cons, h1]
      exact ⟨[], t, hstart, nofun, rfl, rfl⟩
  · have hnone : service.subMask = none := by simpa using hsub
    have h1 : Check.presence.passes cfg t service d = true := by simp [Check.passes, hnone]
    have h2 : Check.support.passes cfg t service d = true := by simp [Check.passes, hnone]
    have hflag : flagged service d t = t := by
      unfold flagged flagFor
      rw [if_neg hsub]
    have hfound : handleFound cfg service (d.byte 0) d = handleChecked cfg service (d.byte 0) d := by
      unfold handleFound
      rw [if_neg hsub]
    rw [hflag] at hchecked
    rw [hfound]
    simp only [rest, List.find?_cons, h1, h2, gate, hflag]
    exact hchecked

/-- `handle_request` in one sentence: the first check that fails decides the answer, and if
there is none the handler of the service runs. -/
theorem handleRequest_leads (cfg : Config W) (t : Sys W) (hne : d.bytes ≠ []) :
    match firstFailing cfg t d with
    | none => ∃ service, findService cfg (d.byte 0) = some service ∧
        Leads (handleRequest cfg d) t
          (.dispatch d.bytes :: (safetyGate cfg (d.byte 0) d).outputs (flagged service d t))
          (executeHandler cfg service d) (atHandler cfg service d t)
    | some check => ∃ es w, Gated t es w ∧ OfGate cfg d es ∧ Leads (handleRequest cfg d) t
        (.dispatch d.bytes :: es) (reject cfg (d.byte 0) check.nrc) w := by
  have hstart : Gated t [] t := ⟨rfl, fun e he => absurd he List.not_mem_nil⟩
  have hpos : 0 < d.bytes.length := List.length_pos_iff.mpr hne
  unfold firstFailing handleRequest Leads
  rw [final_bind, outputs_bind, final_byteAt_bind, outputs_byteAt_bind _ _ _ _ hpos]
  cases hfind : findService cfg (d.byte 0) with
  | none => exact ⟨[], t, hstart, nofun, rfl, rfl⟩
  | some service =>
    have hfound := handleFound_leads cfg service d t
    have hsession := sessionSupported_iff cfg service d t
    have h0 : Check.service.passes cfg t service d = true := rfl
    rw [final_emit, final_getCtx_bind, outputs_getCtx_bind, hsession]
    by_cases h1 : Check.session.passes cfg t service d = true
    · have hrest : checks.find? (fun c => !c.passes cfg t service d) =
          [Check.presence, .support, .length, .security, .safety].find?
            fun c => !c.passes cfg t service d := by
        rw [checks, List.find?_cons_of_neg (by simp [h0]), List.find?_cons_of_neg (by simp [h1])]
      rw [if_neg (not_not_intro h1)]
      dsimp only at hfound ⊢
      rw [hrest]
      split at hfound
      next =>
        exact ⟨service, rfl, hfound.1, congrArg _ hfound.2⟩
      next check _ =>
        obtain ⟨es, w, hgated, hgate, hfinal, houtputs⟩ := hfound
        exact ⟨es, w, hgated, hgate, hfinal, congrArg _ houtputs⟩
    · rw [if_pos h1]
      simp only [checks, List.find?_cons, h0, h1]
      exact ⟨[], t, hstart, nofun, rfl, rfl⟩

theorem firstFailing_none_iff (t : Sys W) : firstFailing cfg t d = none ↔
    ∃ service, Chosen cfg (d.byte 0) service ∧
      ∀ check : Check, check.passes cfg t service d = true := by
  have hall (service : Service W) : (checks.find? fun c => !c.passes cfg t service d) = none ↔
      ∀ check : Check, check.passes cfg t service d = true := by
    rw [List.find?_eq_none]
    constructor
    · intro h check
      have hmem : check ∈ checks := by cases check <;> decide
      simpa using h check hmem
    · intro h check _
      simp [h check]
  simp only [← findService_iff]
  unfold firstFailing
  cases findService cfg (d.byte 0) with
  | none => simp
  | some service => simp [hall]

theorem around_noService {es : List Event} (h : es.all Event.isAround = true) :
    es.any Event.isService = false := by
  apply List.any_eq_false.mpr
  exact around_forall h (fun _ => Bool.false_ne_true) (fun _ => Bool.false_ne_true)
    fun _ => Bool.false_ne_true

/-- What holds of the call of `fn_is_safe` holds of every event of the gate. -/
theorem Gated.forall {P : Event → Prop} {s t : Sys W} {es : List Event} (h : Gated s es t)
    (hcall : ∀ sid data ret, P (.call (.isSafe sid data) ret)) : ∀ e ∈ es, P e := by
  intro e he
  obtain ⟨sid, data, ret, rfl⟩ := h.2 e he
  exact hcall sid data ret

theorem Gated.noService {s t : Sys W} {es : List Event} (h : Gated s es t) :
    es.any Event.isService = false := by
  apply List.any_eq_false.mpr
  exact h.forall fun _ _ _ => Bool.false_ne_true

theorem faults_noService {es : List Event} (h : ∀ e ∈ es, ∃ f, e = .fault f) :
    es.any Event.isService = false := by
  apply List.any_eq_false.mpr
  exact faults_forall h fun _ => Bool.false_ne_true

theorem sendNrc_noService (sid nrc : UInt8) (s : Sys W) :
    ((sendNrc cfg sid nrc).outputs s).any Event.isService = false := by
  obtain ⟨faults, hfaults, ret, houtputs⟩ := sendNrc_outputs cfg sid nrc s
  rw [houtputs]
  split_ifs
  · rw [List.any_append, faults_noService hfaults]
    rfl
  · rfl

theorem around_sent {es : List Event} (h : es.all Event.isAround = true) : sentOf es = [] := by
  apply List.filterMap_eq_nil_iff.mpr
  exact around_forall h (fun _ => rfl) (fun _ => rfl) fun _ => rfl

theorem Gated.sent {s t : Sys W} {es : List Event} (h : Gated s es t) : sentOf es = [] := by
  apply List.filterMap_eq_nil_iff.mpr
  exact h.forall fun _ _ _ => rfl

theorem sendNrc_diagnostic (sid nrc : UInt8) (s : Sys W) :
    ((sendNrc cfg sid nrc).final s).ctx.diagnostic = s.ctx.diagnostic := by
  rw [sendNrc_ctx]
  split_ifs <;> rfl

theorem Idle.not_answer {c : Ctx} (h : Idle c) (d : Sdu) : ¬ takesAsAnswer c d :=
  fun hans => hans.1 h.noSid

/-- The rest of `execute_handler` calls neither a handler nor a callback. -/
theorem executeHandler_outputs (cfg : Config W) (service : Service W) (d : Sdu) (t : Sys W) :
    ∃ after : List Event, after.any Event.isService = false ∧
      (executeHandler cfg service d).outputs t =
        .handler service.sid :: ((service.handler d).outputs t ++ after) := by
  have hR : Composable (fun (_ : Sys W) (es : List Event) (_ : Sys W) =>
      es.any Event.isService = false) := by
    constructor
    · exact fun _ => rfl
    · intro _ es _ fs _ hes hfs
      rw [List.any_append, hes, hfs]
      rfl
  have hsplit : ∃ after : List Event, (executeHandler cfg service d).outputs t =
      .handler service.sid :: ((service.handler d).outputs t ++ after) ∧
        after.any Event.isService = false := by
    apply executeHandler_split hR
    · exact fun s => faults_noService fun _ => byteAt_faults s
    · exact fun _ s => sendNrc_noService _ _ s
    · exact fun _ => rfl
    · exact fun _ => rfl
    · exact fun _ _ _ => rfl
  obtain ⟨after, hrun, hafter⟩ := hsplit
  exact ⟨after, hafter, hrun⟩

theorem entered_diagnostic (cfg : Config W) (s : Sys W) :
    (entered cfg s).ctx.diagnostic = s.ctx.diagnostic := by
  rw [entered_ctx]
  rfl

/-- What `uds_input_sdu` does with a request that fails a check. -/
theorem step_rejected {s : Sys W} {check : Check} (hidle : Idle s.ctx)
    (htx : 3 ≤ cfg.txBufferSize) (hne : d.bytes ≠ [])
    (hfail : firstFailing cfg (entered cfg s) d = some check) :
    Rejected s (d.byte 0) check.nrc (step cfg s (.inputSdu (.bytes d))) := by
  obtain ⟨hfinal, before, after, hbefore, hafter, houtputs⟩ :=
    step_dispatched cfg hidle.notPending (hidle.not_answer d) hne
  have hleads := handleRequest_leads cfg (entered cfg s) hne
  rw [hfail] at hleads
  obtain ⟨es, w, hgated, -, hlast, hevents⟩ := hleads
  rw [hevents, reject_outputs] at houtputs
  constructor
  · have hcons : sentOf (.dispatch d.bytes :: es) = sentOf es := rfl
    rw [houtputs, sentOf_append, sentOf_append, sentOf_append, around_sent hbefore,
      around_sent hafter, hcons, hgated.sent, sendNrc_sent, if_pos htx]
    rfl
  · have hcons : (Event.dispatch d.bytes :: es).any Event.isService = es.any Event.isService := rfl
    rw [houtputs, List.any_append, List.any_append, List.any_append, around_noService hbefore,
      around_noService hafter, hcons, hgated.noService, sendNrc_noService]
    rfl
  · have hkept : w.ctx.diagnostic = (entered cfg s).ctx.diagnostic := by
      rw [hgated.1]
      rfl
    rw [hfinal.1, hlast]
    exact (sendNrc_diagnostic _ _ w).trans (hkept.trans (entered_diagnostic cfg s))

/-- What `uds_input_sdu` does with a request that passes all checks. -/
theorem step_handled {s : Sys W} (hidle : Idle s.ctx) (hne : d.bytes ≠ [])
    (hchosen : Chosen cfg (d.byte 0) service)
    (hpass : ∀ check : Check, check.passes cfg (entered cfg s) service d = true) :
    Handled service d (atHandler cfg service d (entered cfg s))
      (step cfg s (.inputSdu (.bytes d))).2 := by
  obtain ⟨-, before, after, hbefore, hafter, houtputs⟩ :=
    step_dispatched cfg hidle.notPending (hidle.not_answer d) hne
  have hleads := handleRequest_leads cfg (entered cfg s) hne
  rw [firstFailing_none_iff (entered cfg s) |>.mpr ⟨service, hchosen, hpass⟩] at hleads
  obtain ⟨found, hfound, -, hevents⟩ := hleads
  obtain rfl := Option.some.inj (hfound.symm.trans ((findService_iff _ _).mpr hchosen))
  obtain ⟨rest, hrest, hrun⟩ := executeHandler_outputs cfg found d
    (atHandler cfg found d (entered cfg s))
  generalize hgate : (safetyGate cfg (d.byte 0) d).outputs
    (flagged found d (entered cfg s)) = gate at hevents
  have hgated : gate.any Event.isService = false := hgate ▸ (safetyGate_gated _).noService
  refine ⟨before ++ .dispatch d.bytes :: gate, rest ++ after, ?_, ?_, ?_⟩
  · rw [houtputs, hevents, hrun]
    simp only [List.append_assoc, List.cons_append]
  · rw [List.any_append, around_noService hbefore, List.any_cons, hgated]
    rfl
  · rw [List.any_append, hrest, around_noService hafter]
    rfl

/-- The dispatcher's gate. On an idle context a request runs a handler if and only if it passes
all checks. The handler is then that of the first user entry with its SID, or else of the core
entry. A request that fails a check is answered with the NRC of the first one it fails. -/
theorem dispatcher_gate (cfg : Config W) (s : Sys W) (d : Sdu) (hidle : Idle s.ctx)
    (htx : 3 ≤ cfg.txBufferSize) (hne : d.bytes ≠ []) :
    let t := entered cfg s
    let r := step cfg s (.inputSdu (.bytes d))
    ((∃ sid, Event.handler sid ∈ r.2) ↔ ∃ service, Chosen cfg (d.byte 0) service ∧
        ∀ check : Check, check.passes cfg t service d = true) ∧
      (∀ service, Chosen cfg (d.byte 0) service →
        (∀ check : Check, check.passes cfg t service d = true) →
        Handled service d (atHandler cfg service d t) r.2) ∧
      ∀ check, firstFailing cfg t d = some check → Rejected s (d.byte 0) check.nrc r := by
  intro t r
  refine ⟨?_, fun service => step_handled hidle hne, fun check => step_rejected hidle htx hne⟩
  constructor
  · rintro ⟨sid, hsid⟩
    apply (firstFailing_none_iff t).mp
    by_contra hfail
    obtain ⟨check, hcheck⟩ := Option.ne_none_iff_exists'.mp hfail
    have hnone := List.any_eq_false.mp (step_rejected hidle htx hne hcheck).noService _ hsid
    exact hnone rfl
  · rintro ⟨service, hchosen, hpass⟩
    obtain ⟨before, after, hevents, -⟩ := step_handled (s := s) hidle hne hchosen hpass
    refine ⟨service.sid, ?_⟩
    rw [show r.2 = _ from hevents]
    simp

/-- An application that holds no request for safe. -/
def wary : Config Unit := { plainConfig with isSet := fun c => c = .fnIsSafe }

/-- The request to clear all trouble codes. -/
def clearEmissions : Sdu := ⟨[0x14, 0xFF, 0xFF, 0x33], by decide⟩

/-- It passes all checks but the last one. -/
theorem clearEmissions_rejected :
    Rejected (booted wary) 0x14 nrcConditionsNotCorrect
      (step wary (booted wary) (.inputSdu (.bytes clearEmissions))) :=
  (dispatcher_gate wary (booted wary) clearEmissions ⟨by decide, by decide⟩ (by decide) (by decide)).2.2
    .safety (by decide)

end UdsLib.Core
