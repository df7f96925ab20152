import UdsLib.Core.Answers
import UdsLib.Core.Budget
import UdsLib.Core.Sessions
import UdsLib.Services.DidRead

/-! Read requests for several DIDs on an idle context. They are answered once, as the reference says. -/
namespace UdsLib.Core
open Bytes Machine Prog Services

variable {W : Type} {cfg : Config W} {d : Sdu} {s u : Sys W} {service : Service W} {data : List UInt8}

/-- The gate lets the request pass. -/
def GatePasses (cfg : Config W) (s : Sys W) (d : Sdu) : Prop :=
  (safetyGate cfg (d.byte 0) d).value (entered cfg s) = true

/-- The state behind the gate, in which the handler of the request starts. -/
def behindGate (cfg : Config W) (s : Sys W) (d : Sdu) : Sys W :=
  (safetyGate cfg (d.byte 0) d).final (entered cfg s)

/-- No request is in progress, no response is awaited and none is suppressed, in a session that exists. -/
structure Ready (c : Ctx) : Prop where
  idle : Idle c
  heard : c.suppressPosResp = false
  known : Known c.activeSession

/-- `fn_tp_send` returns 0 or a negative error code, a negative response fits into the buffer, and the
application puts no service of its own in the place of `sid`. -/
structure PlainApp (cfg : Config W) (sid : UInt8) : Prop where
  room : 3 ≤ cfg.txBufferSize
  send : ∀ c data w, (cfg.fnTpSend c data w).1 ≤ 0
  core : ∀ entry ∈ cfg.userServices, entry.sid ≠ sid

/-! ### The way to the handler -/

theorem coreServices_unlocked : ∀ service ∈ coreServices cfg, service.securityMask = 0 := by
  unfold coreServices coreService
  simp

theorem flagged_plain (hsub : service.subMask = none) (t : Sys W) : flagged service d t = t := by
  unfold flagged flagFor
  rw [hsub]
  rfl

/-- A request for a core service without sub-functions reaches its handler in every session that
exists. -/
theorem served_plain (hcore : service ∈ coreServices cfg) (hsid : service.sid = d.byte 0)
    (hsub : service.subMask = none) (hlen : service.minLen.toNat ≤ d.bytes.length)
    (hne : d.bytes ≠ []) (hidle : Idle s.ctx) (hknown : Known s.ctx.activeSession)
    (hown : ∀ entry ∈ cfg.userServices, entry.sid ≠ d.byte 0) (hgate : GatePasses cfg s d) :
    servedBy cfg s d = some (service, behindGate cfg s d) := by
  have hchosen : Chosen cfg (d.byte 0) service := .inr ⟨hown, hcore, hsid⟩
  have hstart : atHandler cfg service d (entered cfg s) = behindGate cfg s d := by
    unfold atHandler
    rw [flagged_plain hsub]
    rfl
  have hpass : ∀ check : Check, check.passes cfg (entered cfg s) service d = true := by
    intro check
    cases check with
    | service => rfl
    | session =>
      change (sessionPosition _).any service.sessionMask.toNat.testBit = true
      rw [coreServices_open service hcore, entered_ctx]
      rcases hknown with h | h | h
      · rw [h]
        rfl
      · rw [h]
        rfl
      · rw [h]
        rfl
    | presence =>
      unfold Check.passes
      rw [hsub]
      rfl
    | support =>
      unfold Check.passes
      rw [hsub]
      rfl
    | length => exact decide_eq_true hlen
    | security =>
      unfold Check.passes
      rw [coreServices_unlocked service hcore]
      exact decide_eq_true (Nat.zero_le _)
    | safety =>
      unfold Check.passes
      rw [flagged_plain hsub]
      unfold GatePasses safetyGate at hgate
      cases hset : cfg.isSet .fnIsSafe with
      | false => rfl
      | true =>
        rw [if_neg (not_not_intro hset)] at hgate
        exact hgate
  have hreached : reached cfg d s = some service := by
    unfold reached
    rw [(firstFailing_none_iff _).mpr ⟨service, hchosen, hpass⟩]
    exact (findService_iff _ _).mpr hchosen
  unfold servedBy
  rw [if_pos ⟨hne, hidle.notPending, hidle.not_answer d, hown⟩, hreached, ← hstart]
  rfl

/-- A handler that is done sends all that is sent, and what it leaves stays. -/
theorem step_done (h : servedBy cfg s d = some (service, u))
    (hdone : (service.handler d).value u ≠ udsPending) :
    let r := step cfg s (.inputSdu (.bytes d))
    sentOf r.2 = sentOf ((service.handler d).outputs u) ∧
      r.1.ctx = ((service.handler d).final u).ctx ∧ r.1.mem = ((service.handler d).final u).mem := by
  intro r
  have hruns := servedBy_runs h
  have hleads := handleRequest_leads cfg (entered cfg s) hruns.nonempty
  have hreached := hruns.reached
  obtain ⟨hfinal, before, after, hbefore, hafter, houtputs⟩ :=
    step_dispatched cfg hruns.idle hruns.request hruns.nonempty
  unfold reached at hreached
  cases hfail : firstFailing cfg (entered cfg s) d with
  | some check =>
    rw [hfail] at hreached
    cases hreached
  | none =>
    rw [hfail] at hleads hreached
    obtain ⟨found, hfound, hend, hevents⟩ := hleads
    obtain rfl := Option.some.inj (hreached.symm.trans hfound)
    rw [← hruns.start] at hend hevents
    obtain ⟨hstay, hrun⟩ := executeHandler_done cfg service d hdone
    have hlast : (handleRequest cfg d).final (entered cfg s) = (service.handler d).final u :=
      hend.trans hstay
    have hgated : Gated (entered cfg s) _ (atHandler cfg service d (entered cfg s)) :=
      safetyGate_gated _
    have hopening (es : List Event) : sentOf (.dispatch d.bytes :: es) = sentOf es := rfl
    have hhandler (es : List Event) : sentOf (.handler service.sid :: es) = sentOf es := rfl
    have hctx : r.1.ctx = ((service.handler d).final u).ctx := by
      rw [show r.1 = _ from hfinal.1, hlast]
    have hmem : r.1.mem = ((service.handler d).final u).mem := by
      rw [show r.1 = _ from hfinal.1, hlast]
    refine ⟨?_, hctx, hmem⟩
    rw [show r.2 = _ from houtputs, hevents, hrun, sentOf_append, sentOf_append, sentOf_append,
      around_sent hbefore, around_sent hafter, hopening, hgated.sent, hhandler]
    exact List.append_nil _

/-- What the handler replies is all that is sent. -/
theorem step_replies (h : servedBy cfg s d = some (service, u))
    (hreplies : Replies (service.handler d) u data) :
    sentOf (step cfg s (.inputSdu (.bytes d))).2 = [data] :=
  (step_done h hreplies.done).1.trans hreplies.sent

/-! ### Reading -/

theorem behindGate_ctx (cfg : Config W) (s : Sys W) (d : Sdu) :
    (behindGate cfg s d).ctx = (entered cfg s).ctx := by
  unfold behindGate safetyGate
  split_ifs <;> rfl

theorem behindGate_mem (cfg : Config W) (s : Sys W) (d : Sdu) : (behindGate cfg s d).mem = s.mem := by
  have hgate : (behindGate cfg s d).mem = (entered cfg s).mem := by
    unfold behindGate safetyGate
    split_ifs <;> rfl
  exact hgate.trans (entered_mem cfg s)

theorem reads_byte {dids : List UInt16} (h : Reads d dids) : d.byte 0 = sidReadDataById := by
  unfold Sdu.byte
  rw [h]
  rfl

/-- A read request for DIDs is served. -/
theorem read_served {dids : List UInt16} (hreads : Reads d dids) (hsome : dids ≠ [])
    (hidle : Idle s.ctx) (hknown : Known s.ctx.activeSession)
    (happ : ∀ entry ∈ cfg.userServices, entry.sid ≠ sidReadDataById) (hgate : GatePasses cfg s d) :
    servedBy cfg s d =
      some (coreService sidReadDataById 3 (handleReadDataById cfg) none, behindGate cfg s d) := by
  have hcore : coreService sidReadDataById 3 (handleReadDataById cfg) none ∈ coreServices cfg := by
    simp [coreServices]
  have hcount := List.length_pos_iff.mpr hsome
  have hlen : 3 ≤ d.bytes.length := by
    rw [hreads.length]
    omega
  have hne : d.bytes ≠ [] := List.ne_nil_of_length_pos (by omega)
  exact served_plain hcore (reads_byte hreads).symm rfl hlen hne hidle hknown
    (reads_byte hreads ▸ happ) hgate

/-- A request for several DIDs, on an idle context whose session exists, is answered with one message:
the DIDs in the order of the request, each with what it holds now, or the NRC of the first DID that
fails. -/
theorem multi_did_read (cfg : Config W) (happ : PlainApp cfg sidReadDataById) (hfill : FillsExactly cfg)
    (s : Sys W) (hready : Ready s.ctx) (d : Sdu) (dids : List UInt16) (hreads : Reads d dids)
    (hsome : dids ≠ []) (hgate : GatePasses cfg s d) :
    let u := behindGate cfg s d
    sentOf (step cfg s (.inputSdu (.bytes d))).2 =
      [readReply (readAll cfg u.ctx u.mem dids 1 u.world)] := by
  intro u
  have hflag : u.ctx.suppressPosResp = false := by
    rw [behindGate_ctx, entered_ctx]
    exact hready.heard
  have hserved := read_served hreads hsome hready.idle hready.known happ.core hgate
  exact step_replies hserved (readDataById_replies happ.room happ.send hfill hflag hreads)

/-- A DID in a storage of two bytes and one behind a callback that fills in `0x55`. -/
def didConfig : Config Unit :=
  { plainConfig with
    app := fun _ call w =>
      match call with
      | .didRead _ room => (⟨0, List.replicate room.cap 0x55⟩, w)
      | _ => (⟨0, []⟩, w)
    didTable :=
      [{ id := 0xF190, size := 2, sessionMask := 0, securityMask := 0, read := false, write := false,
         storage := some 0 },
        { id := 0x0102, size := 1, sessionMask := 0, securityMask := 0, read := true, write := false,
          storage := none }] }

theorem didConfig_plain (sid : UInt8) : PlainApp didConfig sid := ⟨by decide, fun _ _ _ => le_rfl, nofun⟩

theorem didConfig_fills : FillsExactly didConfig := fun _ _ _ _ _ _ => .inr List.length_replicate

/-- The first DID is asked for twice. -/
def threeDids : Sdu := ⟨[0x22, 0xF1, 0x90, 0x01, 0x02, 0xF1, 0x90], by decide⟩

theorem threeDids_read : sentOf (step didConfig (booted didConfig) (.inputSdu (.bytes threeDids))).2 =
    [[0x62, 0xF1, 0x90, 0, 0, 0x01, 0x02, 0x55, 0xF1, 0x90, 0, 0]] := by
  have hready : Ready (booted didConfig).ctx := ⟨⟨by decide, by decide⟩, by decide, by decide⟩
  have hreads : Reads threeDids [0xF190, 0x0102, 0xF190] := by
    unfold Reads
    decide
  have hread := multi_did_read didConfig (didConfig_plain _) didConfig_fills _ hready threeDids _ hreads
    (by decide) rfl
  exact hread.trans (by decide)

/-- The memory holds the session 7. -/
def strayDids : Config Unit :=
  { didConfig with
    isSet := fun f => f = .fnNvmLoad
    app := fun _ call w =>
      match call with
      | .nvmLoad _ => (⟨2, [7, 0]⟩, w)
      | .didRead _ room => (⟨0, List.replicate room.cap 0x55⟩, w)
      | _ => (⟨0, []⟩, w) }

/-- In a session that does not exist, a DID that is open to all sessions cannot be read. -/
theorem strayDids_not_read :
    let s := booted strayDids
    let u := behindGate strayDids s threeDids
    PlainApp strayDids sidReadDataById ∧ FillsExactly strayDids ∧ Idle s.ctx ∧
      s.ctx.suppressPosResp = false ∧ Reads threeDids [0xF190, 0x0102, 0xF190] ∧
      GatePasses strayDids s threeDids ∧
      readAll strayDids u.ctx u.mem [0xF190, 0x0102, 0xF190] 1 u.world =
        .ok [0xF1, 0x90, 0, 0, 0x01, 0x02, 0x55, 0xF1, 0x90, 0, 0] ∧
      sentOf (step strayDids s (.inputSdu (.bytes threeDids))).2 = [[0x7F, 0x22, 0x7F]] := by
  refine ⟨⟨by decide, fun _ _ _ => le_rfl, nofun⟩, fun _ _ _ _ _ _ => .inr List.length_replicate,
    ⟨by decide, by decide⟩, by decide, ?_, rfl, ?_, by decide⟩
  · unfold Reads
    decide
  · rfl

end UdsLib.Core
