import UdsLib.Core.Footprint
import UdsLib.Core.Persistence

/-! The active session is one of the three that exist, as long as `uds_init` does not restore
another one, and a request for one of the three is then never shut out. -/
namespace UdsLib.Core
open Bytes Machine Prog Services

variable {W : Type} {cfg : Config W} {d : Sdu} {s t : Sys W} {es : List Event}

def Known (session : UInt8) : Prop :=
  session = sessionIdDefault ∨ session = sessionIdProgramming ∨ session = sessionIdExtended

instance (session : UInt8) : Decidable (Known session) := inferInstanceAs (Decidable (_ ∨ _))

/-- `uds_init` finds a session in the memory that does not exist. -/
def RestoresUnknown (cfg : Config W) (b : Sys W) : Prop :=
  Restored cfg b ∧ ¬ Known ((nvmReply cfg b).out.getD 0 0)

/-- Session control is answered with NRC 0x7F. -/
def ShutOut (es : List Event) : Prop :=
  [nrcServiceNotSuppInSess, sidSessionControl, nrcServiceNotSuppInSess] ∈ sentOf es

instance (es : List Event) : Decidable (ShutOut es) := inferInstanceAs (Decidable (_ ∈ _))

/-- A request for one of the three sessions is not answered with NRC 0x7F. A user service that
stands in for session control is not asked. -/
def LetsIn (cfg : Config W) (s : Sys W) : Op W → Prop
  | .inputSdu (.bytes d) => (∀ entry ∈ cfg.userServices, entry.sid ≠ sidSessionControl) →
      d.byte 0 = sidSessionControl → NamesSession d →
        ¬ ShutOut (step cfg s (.inputSdu (.bytes d))).2
  | _ => True

/-- In every state of the run the session is known, and no request for a session is shut out. -/
structure SessionsKnown (cfg : Config W) (s : Sys W) (ops : List (Op W)) : Prop where
  known : Always (step cfg) (fun t => Known t.ctx.activeSession) s ops
  letsIn : Along (step cfg) (LetsIn cfg) s ops

/-! ### The session -/

/-- A known session is followed by a known one. -/
def StaysKnown (s : Sys W) (_ : List Event) (t : Sys W) : Prop :=
  Known s.ctx.activeSession → Known t.ctx.activeSession

theorem staysKnown_composable : Composable (StaysKnown (W := W)) where
  refl _ := id
  trans h hnext := hnext ∘ h

theorem CtxWrite.known {g : Ctx → Ctx} (hg : CtxWrite g) {c : Ctx} (h : Known c.activeSession) :
    Known (g c).activeSession := by
  cases hg with
  | session sub hsub => exact hsub
  | sessionTimeout => exact .inl rfl
  | stopId id =>
    have hkept : (Services.stopId id c).activeSession = c.activeSession :=
      stopId_keeps (f := Ctx.activeSession) id (fun _ _ => rfl) c
    rw [hkept]
    exact h
  | _ => exact h

theorem Action.known {B : Prop} {α : Type} {m : M W α} (hm : Action cfg B α m) :
    Keeps StaysKnown m := by
  intro s h
  cases hm with
  | outside f hf =>
    rw [final_modify, hf]
    exact h
  | setCtx hg => exact hg.known h
  | sendResponse len =>
    have hout : Outside cfg noMessage s _ _ := sendResponse_outside len s
    have hkept : ((Core.sendResponse cfg len).final s).ctx.activeSession = s.ctx.activeSession :=
      congrArg Store.activeSession hout.store
    rw [hkept]
    exact h
  | _ => exact h

theorem service_known {service : Service W} (h : service ∈ coreServices cfg) (d : Sdu) :
    Keeps StaysKnown (service.handler d) :=
  (coreServices_path d service h).steps.keeps staysKnown_composable fun _ _ => Action.known

theorem step_known (cfg : Config W) (s : Sys W) (op : Op W) (h : Known s.ctx.activeSession) :
    Known (step cfg s op).1.ctx.activeSession := by
  have hkept {u v : Sys W} (hstore : v.ctx.store = u.ctx.store)
      (hu : Known u.ctx.activeSession) : Known v.ctx.activeSession := by
    rw [show v.ctx.activeSession = _ from congrArg Store.activeSession hstore]
    exact hu
  cases step_footprint cfg s op with
  | outside hout => exact hkept hout.store h
  | process hop hstore hevents =>
    rcases hstore with hstore | ⟨-, hstore⟩
    · exact hkept hstore h
    · left
      exact congrArg Store.activeSession hstore
  | handler d service pre mid post u v hop hruns hes hpre hpost =>
    apply hkept hpost.store
    rw [hruns.final]
    exact service_known hruns.core d u (hkept hpre.store h)

/-! ### The answer to a request for a session -/

/-- NRC 0x7F is not the answer. -/
def Open (_ : Sys W) (es : List Event) (_ : Sys W) : Prop := ¬ ShutOut es

theorem not_shutOut_append {fs : List Event} (h : ¬ ShutOut es) (hnext : ¬ ShutOut fs) :
    ¬ ShutOut (es ++ fs) := by
  unfold ShutOut at *
  rw [sentOf_append, List.mem_append]
  exact not_or.mpr ⟨h, hnext⟩

theorem open_composable : Composable (Open (W := W)) where
  refl _ := List.not_mem_nil
  trans h hnext := not_shutOut_append h hnext

theorem Open.silent (h : sentOf es = []) : Open s es t := by
  unfold Open ShutOut
  rw [h]
  exact List.not_mem_nil

theorem optional_open {p : Prop} [Decidable p] {m : M W Unit} (hm : Keeps Open m) :
    Keeps Open (onlyIf p m) :=
  Keeps.ite (fun _ => hm) fun _ => open_composable.refl

theorem byteAt_open (i : ℕ) : Keeps (Open (W := W)) (byteAt d i) :=
  fun s => .silent (sentOf_faults fun _ => byteAt_faults s)

theorem writeTx_open (off : ℕ) (bs : List UInt8) : Keeps Open (writeTx cfg off bs) :=
  fun s => .silent (sentOf_faults fun _ => writeTx_faults s)

theorem callVoid_open (call : Call) : Keeps Open (invokeVoid cfg call) := fun _ => .silent rfl

theorem sendNrc_open (sid : UInt8) {nrc : UInt8} (h : nrc ≠ nrcServiceNotSuppInSess) :
    Keeps Open (sendNrc cfg sid nrc) := by
  intro s
  unfold Open ShutOut
  rw [sendNrc_sent]
  split_ifs
  · intro hmem
    have hsame := List.mem_singleton.mp hmem
    simp only [List.cons.injEq] at hsame
    exact h hsame.2.2.1.symm
  · exact List.not_mem_nil

/-- A response of another length is not the answer. -/
theorem sendResponse_open {len : UInt16} (hlen : len.toNat ≠ 3) :
    Keeps Open (sendResponse cfg len) := by
  have hother {data : List UInt8} (hdata : data.length = len.toNat) :
      [nrcServiceNotSuppInSess, sidSessionControl, nrcServiceNotSuppInSess] ∉ [data] := by
    intro hmem
    have hsame := List.mem_singleton.mp hmem
    apply hlen
    rw [← hdata, ← hsame]
    rfl
  apply sendResponse_keeps
  · exact open_composable.refl
  · exact fun _ => .silent rfl
  · exact fun _ _ _ => hother (by simp)

theorem sessionControl_open : Keeps Open (handleSessionControl cfg d) := by
  have hR : Composable (Open (W := W)) := open_composable
  apply hR.bind (byteAt_open 1)
  intro _
  apply Keeps.ite
  · exact fun _ => sendNrc_open _ (by decide)
  intro _
  apply keeps_ctx
  intro _
  apply hR.bind
  · exact optional_open fun _ => .silent rfl
  intro _
  apply hR.bind
  · exact fun _ => .silent rfl
  intro _
  apply hR.bind (writeTx_open _ _)
  intro _
  apply hR.bind (sendResponse_open (by decide))
  intro _
  apply keeps_ctx
  intro _
  apply hR.bind
  · exact optional_open (callVoid_open _)
  · exact fun _ => hR.refl

theorem coreServices_open : ∀ service ∈ coreServices cfg, service.sessionMask = 0xFF := by
  unfold coreServices coreService
  simp

/-- A request that is dispatched to session control in a known session is not shut out. -/
theorem handleRequest_open (hcore : ∀ entry ∈ cfg.userServices, entry.sid ≠ sidSessionControl)
    (hd : d.byte 0 = sidSessionControl) (hne : d.bytes ≠ []) {t : Sys W}
    (ht : Known t.ctx.activeSession) : ¬ ShutOut ((handleRequest cfg d).outputs t) := by
  have hR : Composable (Open (W := W)) := open_composable
  have hdispatch {u : Sys W} : Open u [.dispatch d.bytes] u := .silent rfl
  have hleads := handleRequest_leads cfg t hne
  cases hfail : firstFailing cfg t d with
  | some check =>
    rw [hfail] at hleads
    obtain ⟨es, w, hgated, -, -, hevents⟩ := hleads
    have hnrc : check.nrc ≠ nrcServiceNotSuppInSess := by
      cases check with
      | session =>
        unfold firstFailing at hfail
        split at hfail
        · cases hfail
        next service hfound =>
          have hservice := ((findService_iff _ _).mp hfound).core (hd ▸ hcore)
          have hpasses : Check.session.passes cfg t service d = true := by
            change (sessionPosition t.ctx.activeSession).any service.sessionMask.toNat.testBit = true
            rw [coreServices_open service hservice]
            rcases ht with h | h | h
            · rw [h]
              rfl
            · rw [h]
              rfl
            · rw [h]
              rfl
          have hfails := List.find?_some hfail
          rw [hpasses] at hfails
          exact absurd hfails Bool.false_ne_true
      | _ => exact nofun
    have hreject : Keeps Open (reject cfg (d.byte 0) check.nrc) :=
      hR.discard (sendNrc_open _ hnrc)
    rw [hevents]
    have hgate : Open t es w := .silent hgated.sent
    exact hR.trans (hR.trans hdispatch hgate) (hreject w)
  | none =>
    rw [hfail] at hleads
    obtain ⟨service, hfound, -, hevents⟩ := hleads
    have hchosen := (findService_iff _ _).mp hfound
    have hservice : service.handler = handleSessionControl cfg := by
      have hmem := hchosen.core (hd ▸ hcore)
      have hfirst := (find?_sid coreServices_nodup service).mpr ⟨hmem, hchosen.sid_eq.trans hd⟩
      obtain rfl := Option.some.inj hfirst
      rfl
    have hrun : Keeps Open (executeHandler cfg service d) := by
      apply hR.bind
      · exact fun _ => .silent rfl
      intro _
      apply hR.bind
      · rw [hservice]
        exact sessionControl_open
      intro _
      apply optional_open
      apply hR.bind (byteAt_open 0)
      intro _
      apply hR.bind (sendNrc_open _ (by decide))
      intro _
      apply hR.bind
      · exact fun _ => .silent rfl
      intro _
      apply hR.bind
      · exact fun _ => .silent rfl
      · exact fun _ _ => .silent rfl
    rw [hevents]
    have hgate : Open t ((safetyGate cfg (d.byte 0) d).outputs (flagged service d t))
        (atHandler cfg service d t) := .silent (safetyGate_gated t).sent
    exact hR.trans (hR.trans hdispatch hgate) (hrun _)

/-- A request for a session does not look like an answer to the client. -/
theorem not_answer_of_session (hd : d.byte 0 = sidSessionControl) (c : Ctx) :
    ¬ takesAsAnswer c d := by
  rintro ⟨-, hans⟩
  unfold answersRequest at hans
  rw [hd, decide_eq_true_iff] at hans
  rcases hans with h | ⟨h, -⟩
  · have hbit : ((0x10 : UInt8).toNat).testBit 6 = ((c.pendingSid ||| 0x40).toNat).testBit 6 :=
      congrArg (fun v : UInt8 => v.toNat.testBit 6) h
    have hset : ((0x40 : UInt8).toNat).testBit 6 = true := by decide
    rw [UInt8.toNat_or, Nat.testBit_or, hset, Bool.or_true] at hbit
    exact absurd hbit (by decide)
  · exact absurd h (by decide)

theorem step_letsIn (op : Op W) (h : Known s.ctx.activeSession) : LetsIn cfg s op := by
  cases op with
  | inputSdu data =>
    cases data with
    | null len => trivial
    | bytes d =>
      intro hcore hd _
      have hR : Composable (Open (W := W)) := open_composable
      have hne : d.bytes ≠ [] := by
        intro hnil
        unfold Sdu.byte at hd
        rw [hnil] at hd
        exact absurd hd (by decide)
      have hlock : Keeps Open (mutexLock cfg) := optional_open (callVoid_open _)
      have hunlock : Keeps Open (mutexUnlock cfg) := optional_open (callVoid_open _)
      have htime : Keeps Open (getTime cfg) := fun _ => .silent rfl
      have hall {m : M W Unit} (htreats : Treats cfg s d m)
          (hm : ¬ ShutOut (m.outputs (arrived cfg s))) :
          ¬ ShutOut (step cfg s (.inputSdu (.bytes d))).2 := by
        rw [htreats.outputs]
        apply not_shutOut_append (hlock s)
        apply not_shutOut_append (htime _)
        exact not_shutOut_append hm (hunlock _)
      cases hp : s.ctx.p2MsgPending with
      | true =>
        apply hall (step_busy cfg hp hne)
        have hbusy : Keeps Open (busyAnswer cfg d) :=
          Keeps.ite (fun _ => hR.refl) fun _ => hR.discard (sendNrc_open _ (by decide))
        exact hbusy _
      | false =>
        have hans := not_answer_of_session hd s.ctx
        apply hall (step_started cfg hp hans hne)
        have hentered : Known (entered cfg s).ctx.activeSession := by
          rw [entered_ctx]
          exact h
        exact not_shutOut_append (htime (arrived cfg s)) (handleRequest_open hcore hd hne hentered)
  | _ => trivial

/-! ### The run -/

theorem udsInit_session (cfg : Config W) (b : Sys W) :
    Known ((udsInit cfg).final b).ctx.activeSession ↔ ¬ RestoresUnknown cfg b := by
  unfold RestoresUnknown
  rw [(udsInit_parts cfg b).1]
  by_cases hrestored : Restored cfg b
  · rw [if_pos hrestored, not_and, not_not]
    exact ⟨fun h _ => h, fun h => h hrestored⟩
  · rw [if_neg hrestored]
    exact iff_of_true (.inl rfl) fun h => hrestored h.1

/-- The session is always one of the known ones, and no request for a session is shut out, in
exactly the runs from a `uds_init` that does not restore an unknown one. -/
theorem sessions_known_iff (cfg : Config W) (b : Sys W) (ops : List (Op W)) :
    SessionsKnown cfg ((udsInit cfg).final b) ops ↔ ¬ RestoresUnknown cfg b := by
  rw [← udsInit_session]
  constructor
  · intro h
    exact h.known [] List.nil_prefix
  · intro hstart
    constructor
    · intro pre _
      exact exec_invariant (C := fun _ _ => True) (fun t op ht _ => step_known cfg t op ht) hstart
        (Along.trivial _ pre)
    · exact Along.of_invariant (fun t op ht => step_known cfg t op ht)
        (fun t op ht _ => step_letsIn op ht) hstart (Along.trivial _ ops)

/-- The memory holds the session 7. -/
def strayConfig : Config UInt32 :=
  { clockConfig with
    isSet := fun f => f = .fnNvmLoad
    app := fun _ _ w => (⟨2, [7, 0]⟩, w) }

/-- A request for the default session, too, is shut out from it. -/
theorem strayConfig_shut_out :
    let s := (udsInit strayConfig).final powerOn
    let request : Sdu := ⟨[0x10, 0x01], by decide⟩
    ¬ SessionsKnown strayConfig s [.inputSdu (.bytes request)] ∧
      ¬ Known s.ctx.activeSession ∧
      sentOf (step strayConfig s (.inputSdu (.bytes request))).2 = [[0x7F, 0x10, 0x7F]] := by
  refine ⟨fun h => ?_, by decide, by decide⟩
  exact absurd (h.known [] List.nil_prefix) (by decide)

end UdsLib.Core
