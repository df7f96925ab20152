import Mathlib.Data.List.Find
import UdsLib.Core.Atomicity
import UdsLib.Services.LateLength

/-! The priority of a length error over the safety gate. The dispatcher checks the length of a
request before it asks `fn_is_safe`, but only against a constant of the service: what the
handlers check themselves comes too late. -/
namespace UdsLib.Core
open Bytes Machine Prog Services

variable {W : Type} {cfg : Config W} {d : Sdu} {s : Sys W}

/-- The same configuration with an `fn_is_safe` that answers `v`. -/
def withVerdict (cfg : Config W) (v : Bool) : Config W :=
  { cfg with
    isSet := fun callback => callback = .fnIsSafe || cfg.isSet callback
    app := fun ctx call w =>
      match call with
      | .isSafe _ _ => (⟨if v then 1 else 0, []⟩, (cfg.app ctx call w).2)
      | _ => cfg.app ctx call w }

/-- A request that is answered with NRC 0x13 if `fn_is_safe` consents is answered so as well if
it objects. -/
def LengthFirst (cfg : Config W) (s : Sys W) (d : Sdu) : Prop :=
  LengthError (d.byte 0) (step (withVerdict cfg true) s (.inputSdu (.bytes d))).2 →
    LengthError (d.byte 0) (step (withVerdict cfg false) s (.inputSdu (.bytes d))).2

/-- The request passes all checks of the dispatcher, and its handler finds a length error. -/
def FoundLate (cfg : Config W) (s : Sys W) (d : Sdu) : Prop :=
  ∃ service, findService cfg (d.byte 0) = some service ∧
    (∀ check : Check, check.passes cfg (entered cfg s) service d = true) ∧
    LateLength cfg (atHandler cfg service d (entered cfg s)) d service.sid

/-! ### The two verdicts -/

/-- What the dispatcher looks at in a service. -/
def outline (service : Service W) : ServiceEntry Unit where
  sid := service.sid
  minLen := service.minLen
  sessionMask := service.sessionMask
  securityMask := service.securityMask
  handler := ()
  subMask := service.subMask

theorem findService_outline (hcore : ∀ entry ∈ cfg.userServices, entry.sid ≠ d.byte 0) :
    (findService cfg (d.byte 0)).map outline =
      ((coreServices cfg).map outline).find? fun entry => entry.sid = d.byte 0 := by
  have huser : (cfg.userServices.find? fun entry => entry.sid = d.byte 0) = none := by
    simpa [List.find?_eq_none] using hcore
  unfold findService
  rw [huser, List.find?_map]
  rfl

/-- The checks before the last are the same whatever the verdict. -/
theorem passes_verdict {a : Service W} {b : Service W} (hab : outline a = outline b)
    {check : Check} (hcheck : check ≠ .safety) (t : Sys W) :
    check.passes (withVerdict cfg true) t a d = check.passes (withVerdict cfg false) t b d := by
  obtain ⟨-, hmin, hsession, hsecurity, -, hsub⟩ := ServiceEntry.mk.inj hab
  cases check with
  | safety => exact absurd rfl hcheck
  | service => rfl
  | _ => simp only [Check.passes, hmin, hsession, hsecurity, hsub]

theorem passes_safety (v : Bool) (service : Service W) (t : Sys W) :
    Check.safety.passes (withVerdict cfg v) t service d = v := by
  unfold Check.passes withVerdict
  cases v <;> simp

/-- The table of the core services looks the same in every configuration. -/
theorem coreServices_outline (cfg other : Config W) :
    (coreServices cfg).map outline = (coreServices other).map outline := by
  simp only [coreServices, coreService, outline, List.map_cons, List.map_nil]

/-- Under both verdicts a request is for services that look alike to the dispatcher. -/
theorem found_alike (hcore : ∀ entry ∈ cfg.userServices, entry.sid ≠ d.byte 0) :
    (findService (withVerdict cfg true) (d.byte 0)).map outline =
      (findService (withVerdict cfg false) (d.byte 0)).map outline := by
  have htrue : (findService (withVerdict cfg true) (d.byte 0)).map outline = _ :=
    findService_outline hcore
  have hfalse : (findService (withVerdict cfg false) (d.byte 0)).map outline = _ :=
    findService_outline hcore
  rw [htrue, hfalse, coreServices_outline (withVerdict cfg true) (withVerdict cfg false)]

/-- An objection comes after all other checks. -/
theorem firstFailing_verdict (hcore : ∀ entry ∈ cfg.userServices, entry.sid ≠ d.byte 0)
    (t : Sys W) : firstFailing (withVerdict cfg false) t d =
      (firstFailing (withVerdict cfg true) t d).or (some .safety) := by
  have halike := found_alike hcore
  unfold firstFailing
  cases htrue : findService (withVerdict cfg true) (d.byte 0) with
  | none =>
    rw [htrue] at halike
    rw [Option.map_eq_none_iff.mp halike.symm]
    rfl
  | some a =>
    rw [htrue] at halike
    obtain ⟨b, hfalse, hab⟩ := Option.map_eq_some_iff.mp halike.symm
    rw [hfalse]
    have hfirst : [Check.service, .session, .presence, .support, .length, .security].find?
          (fun check => !check.passes (withVerdict cfg false) t b d) =
        [Check.service, .session, .presence, .support, .length, .security].find?
          fun check => !check.passes (withVerdict cfg true) t a d := by
      apply List.find?_congr
      intro check hmem
      have hcheck : check ≠ .safety := by
        rintro rfl
        exact absurd hmem (by decide)
      exact congrArg not (passes_verdict hab.symm hcheck t).symm
    have hchecks : checks =
        [Check.service, .session, .presence, .support, .length, .security] ++ [.safety] := rfl
    simp only [hchecks, List.find?_append, hfirst, List.find?_singleton, passes_safety]
    generalize [Check.service, .session, .presence, .support, .length, .security].find?
      (fun check => !check.passes (withVerdict cfg true) t a d) = found
    cases found <;> rfl

/-! ### What is answered -/

theorem around_not_lengthError {sid : UInt8} {es : List Event} (h : es.all Event.isAround = true) :
    ¬ LengthError sid es := by
  rintro ⟨ret, hmem⟩
  exact absurd (List.all_eq_true.mp h _ hmem) Bool.false_ne_true

theorem Gated.not_lengthError {sid : UInt8} {s t : Sys W} {es : List Event} (h : Gated s es t) :
    ¬ LengthError sid es := by
  rintro ⟨ret, hmem⟩
  obtain ⟨_, _, _, hcall⟩ := h.2 _ hmem
  exact nomatch hcall

/-- A request that fails a check is answered with the NRC of the check. -/
theorem rejected_lengthError (cfg : Config W) {check : Check} (hidle : Idle s.ctx) (hne : d.bytes ≠ [])
    (hfail : firstFailing cfg (entered cfg s) d = some check) :
    LengthError (d.byte 0) (step cfg s (.inputSdu (.bytes d))).2 ↔
      3 ≤ cfg.txBufferSize ∧ check.nrc = nrcIncorrectLength := by
  obtain ⟨-, before, after, hbefore, hafter, houtputs⟩ :=
    step_dispatched cfg hidle.notPending (hidle.not_answer d) hne
  have hleads := handleRequest_leads cfg (entered cfg s) hne
  rw [hfail] at hleads
  obtain ⟨es, w, hgated, -, -, hevents⟩ := hleads
  have hdispatch : ¬ LengthError (d.byte 0) (.dispatch d.bytes :: es) := by
    rintro ⟨ret, hmem⟩
    exact hgated.not_lengthError ⟨ret, (List.mem_cons.mp hmem).resolve_left nofun⟩
  rw [houtputs, hevents, reject_outputs, lengthError_append, lengthError_append, lengthError_append,
    or_iff_right (around_not_lengthError hbefore), or_iff_left (around_not_lengthError hafter),
    or_iff_right hdispatch]
  by_cases htx : 3 ≤ cfg.txBufferSize
  · exact (says_refuse htx).trans (and_iff_right htx).symm
  · obtain ⟨faults, -, ret, hnone⟩ := sendNrc_outputs cfg (d.byte 0) check.nrc w
    rw [hnone, if_neg htx]
    exact iff_of_false (not_lengthError nofun) fun h => htx h.1

theorem lengthError_negative {sid : UInt8} {es : List Event} (h : LengthError sid es) :
    NegativeAnswer es := by
  obtain ⟨ret, hmem⟩ := h
  exact ⟨sid, nrcIncorrectLength, ret, hmem, by decide⟩

/-- What follows a handler that asks for more time is not a length error. -/
theorem executeHandler_lengthError {sid : UInt8} (service : Service W) (t : Sys W) :
    LengthError sid ((executeHandler cfg service d).outputs t) ↔
      LengthError sid ((service.handler d).outputs t) := by
  obtain ⟨es, hrun, -, -, hcalm⟩ := executeHandler_tail cfg service d t
  have hentry : ¬ LengthError sid [.handler service.sid] := single_not_lengthError fun _ _ => nofun
  rw [hrun, ← List.singleton_append, lengthError_append, lengthError_append, or_iff_right hentry]
  exact or_iff_left fun h => hcalm (lengthError_negative h)

/-- A request that passes all checks is answered by the handler. -/
theorem handled_lengthError (cfg : Config W) {service : Service W} (hidle : Idle s.ctx)
    (hne : d.bytes ≠ [])
    (hfound : findService cfg (d.byte 0) = some service)
    (hpass : firstFailing cfg (entered cfg s) d = none) :
    LengthError (d.byte 0) (step cfg s (.inputSdu (.bytes d))).2 ↔
      LengthError (d.byte 0)
        ((service.handler d).outputs (atHandler cfg service d (entered cfg s))) := by
  obtain ⟨-, before, after, hbefore, hafter, houtputs⟩ :=
    step_dispatched cfg hidle.notPending (hidle.not_answer d) hne
  have hleads := handleRequest_leads cfg (entered cfg s) hne
  rw [hpass] at hleads
  obtain ⟨found, hsame, -, hevents⟩ := hleads
  obtain rfl := Option.some.inj (hsame.symm.trans hfound)
  have hgated : Gated (entered cfg s) ((safetyGate cfg (d.byte 0) d).outputs
    (flagged found d (entered cfg s))) _ := safetyGate_gated _
  have hdispatch : ¬ LengthError (d.byte 0) (.dispatch d.bytes ::
      (safetyGate cfg (d.byte 0) d).outputs (flagged found d (entered cfg s))) := by
    rintro ⟨ret, hmem⟩
    exact hgated.not_lengthError ⟨ret, (List.mem_cons.mp hmem).resolve_left nofun⟩
  rw [houtputs, hevents, lengthError_append, lengthError_append, lengthError_append,
    or_iff_right (around_not_lengthError hbefore), or_iff_left (around_not_lengthError hafter),
    or_iff_right hdispatch]
  exact executeHandler_lengthError _ _

/-- The handler of a core service answers so where it finds the error late. -/
theorem core_lengthError {service : Service W} {u : Sys W} (hservice : service ∈ coreServices cfg)
    (hlen : service.minLen.toNat ≤ d.bytes.length)
    (hup : service.subMask.isSome = true → d.byte 1 &&& 0x80 ≠ 0 → u.ctx.suppressPosResp = true) :
    LengthError service.sid ((service.handler d).outputs u) ↔
      3 ≤ cfg.txBufferSize ∧ LateLength cfg u d service.sid := by
  by_cases htx : 3 ≤ cfg.txBufferSize
  · exact (handler_lengthError htx service hservice hlen hup).trans (and_iff_right htx).symm
  · refine iff_of_false (fun h => ?_) fun h => htx h.1
    exact (coreServices_path d service hservice).no_negativeAnswer htx u (lengthError_negative h)

/-- A length error goes before an objection of `fn_is_safe`, unless the handler finds it. -/
theorem length_first_iff (cfg : Config W) (s : Sys W) (d : Sdu) (hidle : Idle s.ctx)
    (hcore : ∀ entry ∈ cfg.userServices, entry.sid ≠ d.byte 0) :
    LengthFirst cfg s d ↔
      ¬ (3 ≤ cfg.txBufferSize ∧ FoundLate (withVerdict cfg true) s d) := by
  by_cases hne : d.bytes = []
  · have hquiet : ¬ LengthError (d.byte 0)
        (step (withVerdict cfg true) s (.inputSdu (.bytes d))).2 := by
      have hempty : ∀ e : Sdu, Buf.bytes d = .bytes e → e.bytes = [] := by
        rintro _ ⟨⟩
        exact hne
      rw [(step_ignored _ s hempty).2, lengthError_append,
        or_iff_left (around_not_lengthError (mutexUnlock_around _ _).2)]
      exact around_not_lengthError (mutexLock_around _ _).2
    refine iff_of_true (fun h => absurd h hquiet) ?_
    rintro ⟨-, service, hfound, -⟩
    have hchosen := (findService_iff _ _).mp hfound
    have hzero : d.byte 0 = 0 := by
      rw [Sdu.byte, hne]
      rfl
    exact coreServices_sid_ne service (hchosen.core hcore) (hchosen.sid_eq.trans hzero)
  have hverdict := firstFailing_verdict hcore (entered cfg s)
  cases hpass : firstFailing (withVerdict cfg true) (entered cfg s) d with
  | some check =>
    rw [hpass] at hverdict
    have htrue := rejected_lengthError (withVerdict cfg true) hidle hne hpass
    have hfalse := rejected_lengthError (withVerdict cfg false) hidle hne hverdict
    refine iff_of_true (fun h => hfalse.mpr (htrue.mp h)) ?_
    rintro ⟨-, service, hfound, hchecks, -⟩
    have hnone := (firstFailing_none_iff _).mpr ⟨service, (findService_iff _ _).mp hfound, hchecks⟩
    cases hnone.symm.trans hpass
  | none =>
    rw [hpass] at hverdict
    have hfalse : ¬ LengthError (d.byte 0)
        (step (withVerdict cfg false) s (.inputSdu (.bytes d))).2 := by
      rw [rejected_lengthError (withVerdict cfg false) hidle hne hverdict]
      exact fun h => absurd h.2 (by decide)
    obtain ⟨service, hchosen, hchecks⟩ := (firstFailing_none_iff _).mp hpass
    have hfound := (findService_iff _ _).mpr hchosen
    have hup : service.subMask.isSome = true → d.byte 1 &&& 0x80 ≠ 0 →
        (atHandler (withVerdict cfg true) service d (entered cfg s)).ctx.suppressPosResp = true := by
      intro hmask hbit
      rw [atHandler_ctx]
      unfold flagged flagFor
      rw [if_pos hmask]
      exact decide_eq_true hbit
    have hlate := core_lengthError (hchosen.core hcore) (of_decide_eq_true (hchecks .length)) hup
    rw [hchosen.sid_eq] at hlate
    have htrue := (handled_lengthError (withVerdict cfg true) hidle hne hfound hpass).trans hlate
    constructor
    · rintro h ⟨htx, found, hsame, -, hfoundLate⟩
      obtain rfl := Option.some.inj (hsame.symm.trans hfound)
      rw [hchosen.sid_eq] at hfoundLate
      exact hfalse (h (htrue.mpr ⟨htx, hfoundLate⟩))
    · intro h hsaid
      obtain ⟨htx, hfoundLate⟩ := htrue.mp hsaid
      refine absurd ⟨htx, service, hfound, hchecks, ?_⟩ h
      rw [hchosen.sid_eq]
      exact hfoundLate

/-- Clear all DTCs, too short by a byte. -/
def shortClear : Sdu := ⟨[0x14, 0xFF, 0xFF], by decide⟩

/-- The dispatcher finds this length error itself. -/
theorem shortClear_first : LengthFirst plainConfig (booted plainConfig) shortClear := by
  apply (length_first_iff plainConfig (booted plainConfig) shortClear ⟨by decide, by decide⟩
    nofun).mpr
  rintro ⟨-, service, hfound, hchecks, -⟩
  have hnone := (firstFailing_none_iff _).mpr ⟨service, (findService_iff _ _).mp hfound, hchecks⟩
  exact absurd hnone (by decide)

/-- Communication control without its communication type. -/
def shortControl : Sdu := ⟨[0x28, 0x00], by decide⟩

/-- If the gate objects, the answer is NRC 0x22. -/
theorem shortControl_not_first : Idle (booted plainConfig).ctx ∧
    ¬ LengthFirst plainConfig (booted plainConfig) shortControl ∧
    sentOf (step (withVerdict plainConfig false) (booted plainConfig)
      (.inputSdu (.bytes shortControl))).2 = [[0x7F, 0x28, 0x22]] := by
  have htrue : Event.tpSend .nrc [0x7F, 0x28, 0x13] 0 ∈ (step (withVerdict plainConfig true)
      (booted plainConfig) (.inputSdu (.bytes shortControl))).2 := by decide
  have hfalse : sentOf (step (withVerdict plainConfig false) (booted plainConfig)
      (.inputSdu (.bytes shortControl))).2 = [[0x7F, 0x28, 0x22]] := by decide
  refine ⟨⟨by decide, by decide⟩, fun h => ?_, hfalse⟩
  obtain ⟨ret, hmem⟩ := h ⟨0, htrue⟩
  have hsent : [0x7F, 0x28, 0x13] ∈ sentOf (step (withVerdict plainConfig false)
      (booted plainConfig) (.inputSdu (.bytes shortControl))).2 :=
    List.mem_filterMap.mpr ⟨_, hmem, rfl⟩
  rw [hfalse] at hsent
  exact absurd hsent (by decide)

end UdsLib.Core
