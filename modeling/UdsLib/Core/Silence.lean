import UdsLib.Services.Hushes

/-! Bit 7 of the sub-function byte: what a request with the bit does differs from what the same
request without it does in the positive response alone, unless the handler forgets to mask the
byte. -/
namespace UdsLib.Core
open Bytes Machine Prog Services

variable {W : Type} {cfg : Config W}

/-- The request reaches `fn_routine_control`. -/
def ReachesRoutine (cfg : Config W) (s : Sys W) (d : Sdu) : Prop :=
  d.byte 0 = sidRoutineControl ∧ cfg.isSet .fnRoutineControl = true ∧
    firstFailing cfg (entered cfg s) d = none

/-! ### The dispatch -/

section Dispatch

variable {d : Sdu} {service : Service W} {u v : Sys W}

theorem byteAt_twin {l q : Sdu} {i : ℕ} : Twin Muted (byteAt l i) (byteAt q i) u v
    fun a u' b v' => a = l.byte i ∧ b = q.byte i ∧ u = u' ∧ v = v' :=
  ⟨muted_faults (fun _ => byteAt_faults u) fun _ => byteAt_faults v, rfl, rfl, rfl, rfl⟩

theorem reject_twin (h : SameButFlag u v) (sid nrc : UInt8) :
    Twin Muted (reject cfg sid nrc) (reject cfg sid nrc) u v fun _ u' _ v' => SameButFlag u' v' := by
  obtain ⟨hmuted, hsame⟩ := sendNrc_same cfg h sid nrc
  exact muted_congruence.bind_at hmuted (muted_congruence.pure hsame)

theorem executeHandler_twin (h : Hushes (service.handler (loud d)) (service.handler (quiet d)))
    (halike : Alike u v) : Twin Muted (executeHandler cfg service (loud d))
      (executeHandler cfg service (quiet d)) u v fun _ u' _ v' => SameButFlag u' v' := by
  unfold executeHandler
  refine muted_congruence.bind_at (s := u) (t := v) ⟨rfl, rfl⟩ ?_
  apply muted_congruence.bind (h u v halike)
  rintro x u' y v' ⟨hx, hy, hsame⟩
  unfold onlyIf
  rw [if_neg hx, if_neg hy]
  exact muted_congruence.pure hsame

theorem safetyGate_twin (hcfg : IgnoresBit cfg d) (h : Alike u v) :
    Twin Muted (safetyGate cfg (d.byte 0) (loud d)) (safetyGate cfg (d.byte 0) (quiet d)) u v
      fun a u' b v' => b = a ∧ a = (safetyGate cfg (d.byte 0) (loud d)).value u ∧ Alike u' v' := by
  unfold safetyGate
  by_cases hset : cfg.isSet .fnIsSafe = true
  · have hset' : ¬ ¬ cfg.isSet .fnIsSafe = true := not_not_intro hset
    have hsame : cfg.app v.ctx (.isSafe (d.byte 0) ((quiet d).slice 0 (quiet d).bytes.length))
          v.world =
        cfg.app u.ctx (.isSafe (d.byte 0) ((loud d).slice 0 (loud d).bytes.length)) u.world := by
      rw [h.ctx, h.world, hcfg.flag, hcfg.gate]
    have hreply := congrArg Prod.fst hsame
    have hworld := congrArg Prod.snd hsame
    rw [if_neg hset', if_neg hset']
    refine ⟨⟨rfl, rfl⟩, ?_, rfl, h.down, h.idle, h.count, h.ctx, h.mem, hworld⟩
    exact congrArg (fun reply : Reply => decide (reply.ret ≠ 0)) hreply
  · rw [if_pos hset, if_pos hset]
    exact muted_congruence.pure ⟨rfl, rfl, h⟩

/-- Behind the sub-function checks, both requests meet the same checks. -/
theorem handleChecked_twin (hcfg : IgnoresBit cfg d) (hlq : Forms (loud d) (quiet d))
    (h : Alike u v)
    (hrun : ¬ (loud d).len < service.minLen →
      ¬ service.securityMask > u.ctx.securityLevel.toUInt16 →
      (safetyGate cfg (d.byte 0) (loud d)).value u = true →
      Hushes (service.handler (loud d)) (service.handler (quiet d))) :
    Twin Muted (handleChecked cfg service (d.byte 0) (loud d))
      (handleChecked cfg service (d.byte 0) (quiet d)) u v fun _ u' _ v' => SameButFlag u' v' := by
  have hlevel : u.ctx.securityLevel = v.ctx.securityLevel := by rw [h.ctx]
  have hdenied := congrArg (fun level : UInt8 => service.securityMask > level.toUInt16) hlevel
  unfold handleChecked
  rw [Hushes.len_eq hlq]
  apply Twin.ite Iff.rfl
  · exact fun _ => reject_twin h.same _ _
  intro hlength
  refine muted_congruence.bind_at (s := u) (t := v) ⟨rfl, rfl⟩ ?_
  apply Twin.ite (iff_of_eq hdenied)
  · exact fun _ => reject_twin h.same _ _
  intro hsecurity
  apply muted_congruence.bind (safetyGate_twin hcfg h)
  rintro a u' _ v' ⟨rfl, hvalue, halike⟩
  apply Twin.ite Iff.rfl
  · exact fun _ => reject_twin halike.same _ _
  · intro hsafe
    exact executeHandler_twin (hrun hlength hsecurity (hvalue ▸ not_not.mp hsafe)) halike

/-- Behind the session check, both requests meet the same checks. -/
theorem handleFound_twin {t : Sys W} (hcfg : IgnoresBit cfg d)
    (hflag : t.ctx.suppressPosResp = false) (hidle : t.ctx.p2MsgPending = false)
    (hcount : t.ctx.rcrrpCount = 0) (hmask : service.subMask.isSome = true)
    (hrun : 2 ≤ d.bytes.length →
      isSubfunctionSupported service ((loud d).byte 1 &&& 0x7F) = true →
      ¬ (loud d).len < service.minLen → ¬ service.securityMask > t.ctx.securityLevel.toUInt16 →
      (safetyGate cfg (d.byte 0) (loud d)).value (flagged service (loud d) t) = true →
      Hushes (service.handler (loud d)) (service.handler (quiet d))) :
    Twin Muted (handleFound cfg service (d.byte 0) (loud d))
      (handleFound cfg service (d.byte 0) (quiet d)) t t fun _ u _ v => SameButFlag u v := by
  have hstart : SameButFlag t t := ⟨by rw [← hflag], rfl⟩
  have hlength : (quiet d).len = (loud d).len := by simp [Sdu.len, loud, quiet]
  unfold handleFound
  rw [if_pos hmask, if_pos hmask, hlength]
  apply Twin.ite Iff.rfl
  · exact fun _ => reject_twin hstart _ _
  intro hshort
  have hlen : 2 ≤ d.bytes.length := by
    have hlong : ¬ (loud d).bytes.length < 2 := by simpa [UInt16.lt_iff_toNat_lt] using hshort
    have hsame : (loud d).bytes.length = d.bytes.length := by simp [loud]
    omega
  have hlq := forms hlen
  apply muted_congruence.bind byteAt_twin
  rintro _ _ _ _ ⟨rfl, rfl, rfl, rfl⟩
  rw [hlq.sub]
  apply Twin.ite Iff.rfl
  · exact fun _ => reject_twin hstart _ _
  intro hsupport
  have hdown : decide ((loud d).byte 1 &&& 0x80 ≠ 0) = false := decide_eq_false (not_not_intro hlq.down)
  have hup : decide ((quiet d).byte 1 &&& 0x80 ≠ 0) = true := decide_eq_true hlq.up
  have hflagged : flagged service (loud d) t =
      { t with ctx := { t.ctx with suppressPosResp := false } } := by
    unfold flagged flagFor
    rw [if_pos hmask, show decide (SuppressBit (loud d)) = false from hdown]
  rw [hdown, hup]
  refine muted_congruence.bind_at (s := t) (t := t) ⟨rfl, rfl⟩ ?_
  refine handleChecked_twin hcfg hlq ?_ ?_
  · exact ⟨rfl, hidle, hcount, rfl, rfl, rfl⟩
  · intro hmin hsecurity hsafe
    exact hrun hlen (not_not.mp hsupport) hmin hsecurity (hflagged ▸ hsafe)

/-- Both forms of a request meet the same checks, and the same handler. -/
theorem handleRequest_twin {t : Sys W} (hcfg : IgnoresBit cfg d)
    (hflag : t.ctx.suppressPosResp = false) (hidle : t.ctx.p2MsgPending = false)
    (hcount : t.ctx.rcrrpCount = 0)
    (hfound : findService cfg (d.byte 0) = some service) (hmask : service.subMask.isSome = true)
    (hrun : 2 ≤ d.bytes.length → firstFailing cfg t (loud d) = none →
      Hushes (service.handler (loud d)) (service.handler (quiet d))) :
    Twin Muted (handleRequest cfg (loud d)) (handleRequest cfg (quiet d)) t t
      fun _ u _ v => SameButFlag u v := by
  have hsid : (loud d).byte 0 = d.byte 0 := byte_set_ne (by decide)
  have hsid' : (quiet d).byte 0 = d.byte 0 := byte_set_ne (by decide)
  have hstart : SameButFlag t t := ⟨by rw [← hflag], rfl⟩
  unfold handleRequest
  refine muted_congruence.bind_at (s := t) (t := t) ⟨rfl, rfl⟩ ?_
  apply muted_congruence.bind byteAt_twin
  rintro _ _ _ _ ⟨rfl, rfl, rfl, rfl⟩
  rw [hsid, hsid', hfound]
  refine muted_congruence.bind_at (s := t) (t := t) ⟨rfl, rfl⟩ ?_
  apply Twin.ite Iff.rfl
  · exact fun _ => reject_twin hstart _ _
  intro hsession
  apply handleFound_twin hcfg hflag hidle hcount hmask
  intro hlen hsupport hlength hsecurity hsafe
  apply hrun hlen
  apply (firstFailing_none_iff t).mpr
  refine ⟨service, (findService_iff _ _).mp (hsid ▸ hfound), fun check => ?_⟩
  cases check with
  | service => rfl
  | session =>
    rw [← sessionSupported_iff]
    exact not_not.mp hsession
  | presence => simpa [Check.passes, loud] using Or.inr hlen
  | support =>
    rw [← subfunctionSupported_iff]
    exact hsupport
  | length => exact not_not.mp fun h => hlength ((length_lt_iff cfg service _ t).mpr h)
  | security => exact not_not.mp fun h => hsecurity ((security_gt_iff cfg service (loud d) t).mpr h)
  | safety =>
    rw [← safetyGate_value, hsid]
    exact hsafe

/-- A pass of one form is a pass of the other. -/
theorem passes_quiet {t : Sys W} (hcfg : IgnoresBit cfg d) (hlq : Forms (loud d) (quiet d))
    (check : Check) :
    check.passes cfg t service (quiet d) = check.passes cfg t service (loud d) := by
  have hsid : (loud d).byte 0 = d.byte 0 := byte_set_ne (by decide)
  have hsid' : (quiet d).byte 0 = d.byte 0 := byte_set_ne (by decide)
  cases check with
  | support =>
    unfold Check.passes subFunction
    rw [hlq.sub]
  | presence | length =>
    unfold Check.passes
    rw [hlq.length]
  | safety =>
    have hloud := hcfg.flag t.ctx (.isSafe (d.byte 0) ((loud d).slice 0 (loud d).bytes.length))
      t.world (flagFor service (loud d) t.ctx.suppressPosResp)
    have hquiet := hcfg.flag t.ctx (.isSafe (d.byte 0) ((quiet d).slice 0 (quiet d).bytes.length))
      t.world (flagFor service (quiet d) t.ctx.suppressPosResp)
    unfold Check.passes flagged
    dsimp only
    rw [hsid, hsid', hloud, hquiet, hcfg.gate]
  | _ => rfl

end Dispatch

/-! ### The defect -/

/-- With its callback set, the handler of `0x31` calls it with the byte as it came. -/
theorem routineControl_calls {d : Sdu} (hset : cfg.isSet .fnRoutineControl = true)
    (hlen : 4 ≤ d.bytes.length) (u : Sys W) : ∃ id data room,
    callsOf ((handleRoutineControl cfg d).outputs u) = [.routineControl (d.byte 1) id data room] := by
  have hlong : ¬ d.len < 4 := by simpa [UInt16.lt_iff_toNat_lt] using hlen
  unfold handleRoutineControl
  rw [if_neg hlong, outputs_byteAt_bind _ _ _ _ (by omega), outputs_byteAt_bind _ _ _ _ (by omega),
    outputs_byteAt_bind _ _ _ _ (by omega), if_neg (not_not_intro hset)]
  refine ⟨(d.byte 2).toUInt16 <<< 8 ||| (d.byte 3).toUInt16, d.slice 4 (d.len - 4).toNat,
    ⟨4, (cfg.txBufferSize - 4).toNat⟩, ?_⟩
  extract_lets maxPayload
  have hanswer (n : ℤ) (t : Sys W) : callsOf ((if n < 0 then
      sendNrc cfg sidRoutineControl (nrcOf n) else do
        writeTx cfg 0 [sidRoutineControl + responseOffset, d.byte 1, d.byte 2, d.byte 3]
        sendResponse cfg (lenOf n + 4)).outputs t) = [] := by
    rw [outputs_ite]
    split_ifs
    · exact (messagesOf_sendNrc cfg _ _ t).1
    · rw [outputs_bind, callsOf_append, (faults_unheard fun _ => writeTx_faults _).1]
      exact sendResponse_calls _ _
  rw [outputs_bind, callsOf_append, hanswer, List.append_nil]
  unfold invokeOut
  rw [outputs_bind, callsOf_append, outputs_bind, callsOf_append,
    (faults_unheard fun _ => writeTx_faults _).1]
  rfl

/-! ### The whole call -/

theorem around_messages {es : List Event} (h : es.all Event.isAround = true) :
    messagesOf es = [] := by
  apply List.filterMap_eq_nil_iff.mpr
  exact around_forall h (fun _ => rfl) (fun _ => rfl) fun _ => rfl

theorem around_muted {es : List Event} (h : es.all Event.isAround = true) : Muted es es := by
  constructor
  · rfl
  · rw [around_messages h]
    rfl

theorem mutexUnlock_muted (u v : Sys W) :
    Muted ((mutexUnlock cfg).outputs u) ((mutexUnlock cfg).outputs v) := by
  unfold mutexUnlock
  rw [outputs_onlyIf, outputs_onlyIf]
  split_ifs
  · exact muted_call _ _ _
  · exact muted_congruence.nil

/-- What two dispatched requests do, the calls that bring them do. -/
theorem step_silenced {s : Sys W} {l q : Sdu} (hidle : Idle s.ctx) (hl : l.bytes ≠ [])
    (hq : q.bytes ≠ [])
    (h : Twin Muted (handleRequest cfg l) (handleRequest cfg q) (entered cfg s) (entered cfg s)
      fun _ u _ v => SameButFlag u v) :
    OnlySilenced (step cfg s (.inputSdu (.bytes l))) (step cfg s (.inputSdu (.bytes q))) := by
  have hloud := step_started cfg hidle.notPending (hidle.not_answer l) hl
  have hquiet := step_started cfg hidle.notPending (hidle.not_answer q) hq
  constructor
  · rw [hloud.final, hquiet.final, startRequest_final, startRequest_final]
    constructor
    · rw [mutexUnlock_ctx, mutexUnlock_ctx]
      exact h.ends.1
    · have hmem (t : Sys W) : ((mutexUnlock cfg).final t).mem = t.mem := by
        rw [(mutexUnlock_around cfg t).1]
      rw [hmem, hmem]
      exact h.ends.2
  · rw [hloud.outputs, hquiet.outputs, startRequest_outputs, startRequest_outputs, startRequest_final,
      startRequest_final]
    apply muted_congruence.append (around_muted (mutexLock_around cfg s).2)
    apply muted_congruence.append (around_muted rfl)
    apply muted_congruence.append _ (mutexUnlock_muted _ _)
    exact muted_congruence.append (around_muted rfl) h.outputs

theorem routine_not_around {es : List Event} (h : es.any Event.isService = false) {type : UInt8}
    {id : UInt16} {data : Slice} {room : Room} : Call.routineControl type id data room ∉ callsOf es := by
  intro hmem
  obtain ⟨e, he, hcalled⟩ := List.mem_filterMap.mp hmem
  have hnone := List.any_eq_false.mp h e he
  unfold Event.called? at hcalled
  split at hcalled
  · cases hcalled
  · obtain rfl := Option.some.inj hcalled
    exact hnone rfl
  · cases hcalled

/-- A request that reaches `fn_routine_control` calls it once, with the byte as it came. -/
theorem step_routine {s : Sys W} {d : Sdu} (hidle : Idle s.ctx) (hlen : 4 ≤ d.bytes.length)
    (hset : cfg.isSet .fnRoutineControl = true)
    (hchosen : Chosen cfg (d.byte 0) (coreService sidRoutineControl 4 (handleRoutineControl cfg)
      (some maskSub31)))
    (hpass : ∀ check : Check, check.passes cfg (entered cfg s) (coreService sidRoutineControl 4
      (handleRoutineControl cfg) (some maskSub31)) d = true) :
    (∃ id data room, Call.routineControl (d.byte 1) id data room ∈
        callsOf (step cfg s (.inputSdu (.bytes d))).2) ∧
      ∀ type id data room, Call.routineControl type id data room ∈
        callsOf (step cfg s (.inputSdu (.bytes d))).2 → type = d.byte 1 := by
  have hne : d.bytes ≠ [] := List.length_pos_iff.mp (by omega)
  obtain ⟨before, after, hevents, hbefore, hafter⟩ := step_handled hidle hne hchosen hpass
  obtain ⟨id, data, room, hcalls⟩ := routineControl_calls hset hlen (atHandler cfg
    (coreService sidRoutineControl 4 (handleRoutineControl cfg) (some maskSub31)) d (entered cfg s))
  have hall : callsOf (step cfg s (.inputSdu (.bytes d))).2 =
      callsOf before ++ (.routineControl (d.byte 1) id data room :: callsOf after) := by
    rw [hevents, callsOf_append]
    refine congrArg _ ?_
    change callsOf (_ ++ after) = _
    rw [callsOf_append]
    exact congrArg (· ++ callsOf after) hcalls
  rw [hall]
  constructor
  · exact ⟨id, data, room, List.mem_append_right _ (List.mem_cons_self ..)⟩
  · intro type id' data' room' hmem
    rcases List.mem_append.mp hmem with hfirst | hrest
    · exact absurd hfirst (routine_not_around hbefore)
    · rcases List.mem_cons.mp hrest with hsame | hlast
      · exact (Call.routineControl.inj hsame).1
      · exact absurd hlast (routine_not_around hafter)

/-- Bit 7 only silences a request for a core service with sub-functions, unless the request
reaches `fn_routine_control`, which is told the byte with the bit. -/
theorem bit_seven_silences_iff (cfg : Config W) (s : Sys W) (d : Sdu) (service : Service W)
    (hidle : Idle s.ctx) (hflag : s.ctx.suppressPosResp = false)
    (hcore : service ∈ coreServices cfg) (hmask : service.subMask.isSome = true)
    (hfound : findService cfg (d.byte 0) = some service) (hcfg : IgnoresBit cfg d) :
    OnlySilenced (step cfg s (.inputSdu (.bytes (loud d))))
        (step cfg s (.inputSdu (.bytes (quiet d)))) ↔ ¬ ReachesRoutine cfg s (loud d) := by
  have hsid : service.sid = d.byte 0 := ((findService_iff _ _).mp hfound).sid_eq
  have hne : d.bytes ≠ [] := by
    intro hnil
    apply coreServices_sid_ne service hcore
    rw [hsid, Sdu.byte, hnil]
    rfl
  have hentered : (entered cfg s).ctx.suppressPosResp = false := by
    rw [entered_ctx]
    exact hflag
  constructor
  · rintro h ⟨hroutine, hset, hnone⟩
    have hfirst : (loud d).byte 0 = d.byte 0 := byte_set_ne (by decide)
    have hfirst' : (quiet d).byte 0 = d.byte 0 := byte_set_ne (by decide)
    have hfind : (coreServices cfg).find? (fun e => e.sid = sidRoutineControl) = some service :=
      (find?_sid coreServices_nodup service).mpr ⟨hcore, hsid.trans (hfirst.symm.trans hroutine)⟩
    obtain rfl := Option.some.inj hfind
    obtain ⟨found, hchosen, hpass⟩ := (firstFailing_none_iff _).mp hnone
    rw [hfirst] at hchosen
    obtain rfl := Option.some.inj (((findService_iff _ _).mpr hchosen).symm.trans hfound)
    have hlen : 4 ≤ (loud d).bytes.length := of_decide_eq_true (hpass .length)
    have hlen' : 4 ≤ (quiet d).bytes.length := by simpa [loud, quiet] using hlen
    have hlq : Forms (loud d) (quiet d) := forms (by simp [loud] at hlen; omega)
    have hpass' (check : Check) := (passes_quiet hcfg hlq check).trans (hpass check)
    obtain ⟨⟨id, data, room, hcalled⟩, -⟩ :=
      step_routine hidle hlen hset (hfirst.symm ▸ hchosen) hpass
    obtain ⟨-, honly⟩ := step_routine hidle hlen' hset (hfirst'.symm ▸ hchosen) hpass'
    have hsame := honly _ _ _ _ (h.muted.1 ▸ hcalled)
    exact hlq.up (hsame ▸ hlq.down)
  · intro hnot
    apply step_silenced hidle (by simpa [loud] using hne) (by simpa [quiet] using hne)
    apply handleRequest_twin hcfg hentered rfl rfl hfound hmask
    intro hlen hnone
    apply Hushes.handler hcfg (forms hlen) service hcore hmask
    intro hroutine
    apply Bool.eq_false_iff.mpr
    intro hset
    have hfirst : (loud d).byte 0 = d.byte 0 := byte_set_ne (by decide)
    exact hnot ⟨hfirst.trans (hsid.symm.trans hroutine), hset, hnone⟩

theorem plainConfig_ignoresBit (d : Sdu) : IgnoresBit plainConfig d :=
  ⟨fun _ _ _ _ => rfl, fun _ _ => rfl, fun _ _ _ => le_rfl⟩

/-- ECU reset: hard reset. -/
def hardReset : Sdu := ⟨[0x11, 0x01], by decide⟩

theorem hardReset_silenced : OnlySilenced
    (step plainConfig (booted plainConfig) (.inputSdu (.bytes (loud hardReset))))
    (step plainConfig (booted plainConfig) (.inputSdu (.bytes (quiet hardReset)))) := by
  apply (bit_seven_silences_iff plainConfig (booted plainConfig) hardReset
    (coreService sidEcuReset 2 (handleEcuReset plainConfig) (some maskSub11))
    ⟨by decide, by decide⟩ (by decide) (by simp [coreServices]) rfl rfl
    (plainConfig_ignoresBit _)).mpr
  exact fun h => absurd h.1 (by decide)

/-- An application with routines. -/
def routineConfig : Config Unit := { plainConfig with isSet := fun c => c = .fnRoutineControl }

/-- Routine control: start routine `0x0203`. -/
def startRoutine : Sdu := ⟨[0x31, 0x01, 0x02, 0x03], by decide⟩

/-- With bit 7, the application is told to run sub-function `0x81`. -/
theorem startRoutine_not_silenced : Idle (booted routineConfig).ctx ∧
    (booted routineConfig).ctx.suppressPosResp = false ∧ IgnoresBit routineConfig startRoutine ∧
    ¬ OnlySilenced
      (step routineConfig (booted routineConfig) (.inputSdu (.bytes (loud startRoutine))))
      (step routineConfig (booted routineConfig) (.inputSdu (.bytes (quiet startRoutine)))) := by
  refine ⟨⟨by decide, by decide⟩, by decide, ?_, ?_⟩
  · exact ⟨fun _ _ _ _ => rfl, fun _ _ => rfl, fun _ _ _ => le_rfl⟩
  · exact fun h => absurd h.muted.1 (by decide)

end UdsLib.Core
