import UdsLib.Core.Gate
import UdsLib.Core.Process

/-! What a call does to the session and the security level. It leaves them alone, the S3 timer
takes both back, a session request changes the session, or a key raises the level. -/
namespace UdsLib.Core
open Bytes Machine Prog Services

variable {W : Type} {cfg : Config W} {d : Sdu} {s t u : Sys W} {es fs : List Event}
  {p q : UInt8 × UInt8} {saved saved' : List (UInt8 × UInt8)} {keys keys' : List UInt8}

/-- The session and the level handed to `fn_nvm_save`. -/
def Event.saved? : Event → Option (UInt8 × UInt8)
  | .call (.nvmSave [session, level]) _ => some (session, level)
  | _ => none

/-- The level of a key that `fn_security_key` accepted. -/
def Event.keyLevel? : Event → Option UInt8
  | .call (.securityKey level _) ret => if ret = 0 then some level else none
  | _ => none

/-- The pairs handed to `fn_nvm_save`, in order. -/
def savedOf (es : List Event) : List (UInt8 × UInt8) := es.filterMap Event.saved?

/-- The levels of the accepted keys, in order. -/
def keysOf (es : List Event) : List UInt8 := es.filterMap Event.keyLevel?

/-- What is handed to `fn_nvm_save`, if it is there, when the pair is `p`. -/
def stored (cfg : Config W) (p : UInt8 × UInt8) : List (UInt8 × UInt8) :=
  if cfg.isSet .fnNvmSave then [p] else []

/-- The request names one of the three sessions. -/
def NamesSession (d : Sdu) : Prop :=
  let sub := d.byte 1 &&& 0x7F
  sub = sessionIdDefault ∨ sub = sessionIdProgramming ∨ sub = sessionIdExtended

/-- The session and the level after a request for a session. -/
def openSession (d : Sdu) (p : UInt8 × UInt8) : UInt8 × UInt8 :=
  let sub := d.byte 1 &&& 0x7F
  (sub, if p.1 ≠ sub ∨ sub = sessionIdDefault then 0 else p.2)

/-- The S3 timer has run out when `uds_process` looks at the clock. -/
def TimesOut (cfg : Config W) (s : Sys W) : Op W → Prop
  | .process => s.ctx.activeSession ≠ sessionIdDefault ∧
      (getTime cfg).value ((mutexLock cfg).final s) - s.ctx.lastMsgTime > 5000
  | _ => False

/-- The handler of session control ran on a request for one of the three sessions. -/
def SessionAccepted (es : List Event) (d : Sdu) : Prop :=
  d.byte 0 = sidSessionControl ∧ NamesSession d ∧ Event.handler sidSessionControl ∈ es

/-- At the end the pair is `p`; on the way these pairs were saved and these keys accepted, and
no handler was entered. -/
structure PairDone (p : UInt8 × UInt8) (saved : List (UInt8 × UInt8)) (keys : List UInt8)
    (es : List Event) (t : Sys W) : Prop where
  pair : t.ctx.pair = p
  saved : savedOf es = saved
  keys : keysOf es = keys
  inside : es.any Event.isHandler = false

/-- The pair is left alone, nothing is saved and no key is accepted. -/
def PairKept (s : Sys W) (es : List Event) (t : Sys W) : Prop := PairDone s.ctx.pair [] [] es t

/-- What a call does to the pair. The last field of the first case is about the core handler of
session control: a user service may stand in its place. -/
inductive PairStep (cfg : Config W) (s : Sys W) (op : Op W) (es : List Event) (t : Sys W) :
    Prop where
  | kept (hpair : t.ctx.pair = s.ctx.pair) (hsaved : savedOf es = []) (hkeys : keysOf es = [])
      (htime : ¬ TimesOut cfg s op)
      (hsession : (∀ entry ∈ cfg.userServices, entry.sid ≠ sidSessionControl) →
        ∀ d, op = .inputSdu (.bytes d) → ¬ SessionAccepted es d)
  | timedOut (htime : TimesOut cfg s op) (hpair : t.ctx.pair = (sessionIdDefault, 0))
      (hsaved : savedOf es = []) (hkeys : keysOf es = [])
  | session (d : Sdu) (hop : op = .inputSdu (.bytes d)) (hsid : d.byte 0 = sidSessionControl)
      (hpair : t.ctx.pair = openSession d s.ctx.pair)
      (hsaved : savedOf es = stored cfg t.ctx.pair) (hkeys : keysOf es = [])
  | key (d : Sdu) (level : UInt8) (hop : op = .inputSdu (.bytes d))
      (hsid : d.byte 0 = sidSecurityAccess) (hlevel : subFunction d = 2 * level.toNat)
      (hpair : t.ctx.pair = (s.ctx.activeSession, level))
      (hsaved : savedOf es = stored cfg t.ctx.pair) (hkeys : keysOf es = [level])

/-! ### Following the pair -/

theorem savedOf_append (es fs : List Event) : savedOf (es ++ fs) = savedOf es ++ savedOf fs :=
  List.filterMap_append ..

theorem keysOf_append (es fs : List Event) : keysOf (es ++ fs) = keysOf es ++ keysOf fs :=
  List.filterMap_append ..

theorem PairDone.then (h : PairDone p saved keys es t) (hnext : PairDone q saved' keys' fs u) :
    PairDone q (saved ++ saved') (keys ++ keys') (es ++ fs) u := by
  constructor
  · exact hnext.pair
  · rw [savedOf_append, h.saved, hnext.saved]
  · rw [keysOf_append, h.keys, hnext.keys]
  · rw [List.any_append, h.inside, hnext.inside]
    rfl

theorem PairKept.then (h : PairKept s es t) (hnext : PairDone q saved' keys' fs u) :
    PairDone q saved' keys' (es ++ fs) u :=
  PairDone.then h hnext

theorem PairDone.thenKept (h : PairDone p saved keys es t) (hnext : PairKept t fs u) :
    PairDone p saved keys (es ++ fs) u := by
  have hdone := PairDone.then h hnext
  rwa [List.append_nil, List.append_nil, h.pair] at hdone

theorem pairKept_composable : Composable (PairKept (W := W)) where
  refl _ := ⟨rfl, rfl, rfl, rfl⟩
  trans h hnext := h.thenKept hnext

/-- Neither a save, nor an accepted key, nor the entry of a handler. -/
def Event.isPlain (e : Event) : Bool :=
  e.saved?.isNone && e.keyLevel?.isNone && !e.isHandler

theorem PairKept.of_plain (hpair : t.ctx.pair = s.ctx.pair) (h : ∀ e ∈ es, e.isPlain = true) :
    PairKept s es t := by
  have hparts (e : Event) (he : e ∈ es) :
      e.saved? = none ∧ e.keyLevel? = none ∧ e.isHandler = false := by
    have hplain := h e he
    simp only [Event.isPlain, Bool.and_eq_true, Option.isNone_iff_eq_none,
      Bool.not_eq_true'] at hplain
    exact ⟨hplain.1.1, hplain.1.2, hplain.2⟩
  constructor
  · exact hpair
  · exact List.filterMap_eq_nil_iff.mpr fun e he => (hparts e he).1
  · exact List.filterMap_eq_nil_iff.mpr fun e he => (hparts e he).2.1
  · exact List.any_eq_false.mpr fun e he => Bool.eq_false_iff.mp (hparts e he).2.2

theorem pair_of_diagnostic (h : t.ctx.diagnostic = s.ctx.diagnostic) : t.ctx.pair = s.ctx.pair :=
  congrArg (fun g : Diagnostic => (g.activeSession, g.securityLevel)) h

theorem Spared.kept (h : Spared s es t) : PairKept s es t := by
  apply PairKept.of_plain (pair_of_diagnostic h.diagnostic)
  intro e he
  have houter := h.events e he
  cases e with
  | call c ret =>
    cases c with
    | mutexLock => rfl
    | mutexUnlock => rfl
    | _ => exact absurd houter Bool.false_ne_true
  | handler sid => exact absurd houter Bool.false_ne_true
  | _ => rfl

theorem Looked.kept {P B : Prop} (h : Looked P B s es t) (hP : ¬ P) : PairKept s es t := by
  apply PairKept.of_plain (pair_of_diagnostic h.diagnostic)
  intro e he
  have hlook := h.events e he
  have hpair : e.isPair = false := Bool.eq_false_iff.mpr fun hp => hP (h.pair e he hp)
  cases e with
  | call c ret =>
    cases c with
    | nvmSave state => exact absurd hpair nofun
    | securityKey level key => exact absurd hpair nofun
    | _ => rfl
  | handler sid => exact absurd hlook Bool.false_ne_true
  | _ => rfl

theorem Around.kept (h : Around s es t) : PairKept s es t := by
  apply PairKept.of_plain
  · rw [h.1]
  exact around_forall h.2 (fun _ => rfl) (fun _ => rfl) fun _ => rfl

theorem Gated.kept (h : Gated s es t) : PairKept s es t := by
  apply PairKept.of_plain
  · rw [h.1]
    rfl
  exact h.forall fun _ _ _ => rfl

theorem faults_kept (hpair : t.ctx.pair = s.ctx.pair) (h : ∀ e ∈ es, ∃ f, e = .fault f) :
    PairKept s es t := by
  apply PairKept.of_plain hpair
  exact faults_forall h fun _ => rfl

/-- A handler that belongs to neither the session nor the level leaves the pair alone. -/
theorem Path.kept {sid : UInt8} {P B K : Prop} {c h : Bool} {m : M W ℤ}
    (hm : Path cfg sid P B K c h m) (hP : ¬ P) : Keeps PairKept m := by
  have hR := pairKept_composable (W := W)
  induction hm with
  | refuse nrc hc => exact fun s => (sendNrc_spared cfg sid nrc s).kept
  | send hlen => exact fun s => (sendResponse_spared _ s).kept
  | sendThen hlen hk hv =>
    apply hR.bind fun s => (sendResponse_spared _ s).kept
    exact fun s t => (Look.composed (hk _) t).kept hP
  | withhold hB => exact fun s => PairKept.of_plain rfl fun e he => List.mem_singleton.mp he ▸ rfl
  | look hm hf ih => exact hR.bind (fun s => (Look.composed hm s).kept hP) ih
  | head bs hf ih => exact hR.bind (fun s => faults_kept rfl fun e => writeTx_faults s) fun _ => ih
  | commit hg hconv hpair hf ih =>
    apply hR.bind _ fun _ => ih
    exact fun s => PairKept.of_plain (hpair.resolve_right hP s.ctx) nofun
  | store addr bs hf ih => exact hR.bind (fun s => PairKept.of_plain rfl nofun) fun _ => ih

/-! ### The handlers that change it -/

/-- What comes behind a program is told the pair that it ends with. -/
theorem PairDone.bind {α β : Type} {m : M W α} {f : α → M W β}
    (hm : PairDone p saved keys (m.outputs s) (m.final s))
    (hf : ∀ t, t.ctx.pair = p →
      PairDone q saved' keys' ((f (m.value s)).outputs t) ((f (m.value s)).final t)) :
    PairDone q (saved ++ saved') (keys ++ keys') ((m >>= f).outputs s) ((m >>= f).final s) :=
  hm.then (hf _ hm.pair)

/-- A program that leaves the pair alone goes in front. -/
theorem PairKept.bind {α β : Type} {m : M W α} {f : α → M W β} (hm : Keeps PairKept m)
    (hs : s.ctx.pair = p) (hf : ∀ t, t.ctx.pair = p →
      PairDone q saved' keys' ((f (m.value s)).outputs t) ((f (m.value s)).final t)) :
    PairDone q saved' keys' ((m >>= f).outputs s) ((m >>= f).final s) :=
  (hm s).then (hf _ ((hm s).pair.trans hs))

theorem byteAt_kept (i : ℕ) : Keeps (PairKept (W := W)) (byteAt d i) :=
  fun s => faults_kept rfl fun _ => byteAt_faults s

theorem sendNrc_kept (cfg : Config W) (sid nrc : UInt8) : Keeps PairKept (sendNrc cfg sid nrc) :=
  fun s => (sendNrc_spared cfg sid nrc s).kept

/-- A positive response. -/
theorem respond_kept (bs : List UInt8) (len : UInt16) :
    Keeps PairKept (writeTx cfg 0 bs >>= fun _ => sendResponse cfg len) := by
  apply pairKept_composable.bind fun s => (writeTx_spared 0 bs s).kept
  exact fun _ s => (sendResponse_spared len s).kept

/-- The pair is handed to `fn_nvm_save` as it stands, and the rest leaves it alone. -/
theorem save_stores {f : Unit → M W ℤ} (hs : s.ctx.pair = p) (hf : Keeps PairKept (f ())) :
    let m := getCtx >>= fun ctx => onlyIf (cfg.isSet .fnNvmSave)
      (invokeVoid cfg (.nvmSave [ctx.activeSession, ctx.securityLevel])) >>= f
    PairDone p (stored cfg p) [] (m.outputs s) (m.final s) := by
  subst hs
  let save := onlyIf (cfg.isSet .fnNvmSave)
    (invokeVoid cfg (.nvmSave [s.ctx.activeSession, s.ctx.securityLevel]))
  have hsave : PairDone s.ctx.pair (stored cfg s.ctx.pair) [] (save.outputs s) (save.final s) := by
    unfold stored
    dsimp only [save, onlyIf]
    split_ifs
    · exact ⟨rfl, rfl, rfl, rfl⟩
    · exact ⟨rfl, rfl, rfl, rfl⟩
  exact hsave.thenKept (hf _)

/-- A request for another value than the three sessions is refused. -/
theorem sessionControl_kept (h : ¬ NamesSession d) :
    Keeps PairKept (handleSessionControl cfg d) := by
  unfold handleSessionControl
  apply pairKept_composable.bind (byteAt_kept 1)
  intro s
  have hrefuse : d.byte 1 &&& 0x7F ≠ sessionIdDefault ∧ d.byte 1 &&& 0x7F ≠ sessionIdProgramming ∧
      d.byte 1 &&& 0x7F ≠ sessionIdExtended := by
    unfold NamesSession at h
    tauto
  dsimp only
  rw [show (byteAt d 1).value s = d.byte 1 from rfl, if_pos hrefuse]
  exact sendNrc_kept cfg _ _

/-- A request for one of the three sessions is followed by a save. -/
theorem sessionControl_opens (cfg : Config W) (h : NamesSession d) (s : Sys W) :
    PairDone (openSession d s.ctx.pair) (stored cfg (openSession d s.ctx.pair)) []
      ((handleSessionControl cfg d).outputs s) ((handleSessionControl cfg d).final s) := by
  have hadmit : ¬ (d.byte 1 &&& 0x7F ≠ sessionIdDefault ∧
      d.byte 1 &&& 0x7F ≠ sessionIdProgramming ∧ d.byte 1 &&& 0x7F ≠ sessionIdExtended) := by
    unfold NamesSession at h
    tauto
  have hrelock (t : Sys W) (ht : t.ctx.pair = s.ctx.pair) (c : Prop) [Decidable c] :
      let relock := onlyIf c (setCtx fun ctx => { ctx with securityLevel := 0 })
      PairDone (s.ctx.pair.1, if c then 0 else s.ctx.pair.2) [] [] (relock.outputs t)
        (relock.final t) := by
    dsimp only [onlyIf]
    rw [← ht]
    split_ifs
    · exact ⟨rfl, rfl, rfl, rfl⟩
    · exact ⟨rfl, rfl, rfl, rfl⟩
  unfold handleSessionControl
  apply PairKept.bind (byteAt_kept 1) rfl
  intro t ht
  dsimp only
  rw [show (byteAt d 1).value s = d.byte 1 from rfl, if_neg hadmit, outputs_getCtx_bind,
    final_getCtx_bind]
  apply (hrelock t ht _).bind
  intro u hu
  have hopen : ((setCtx fun c => { c with activeSession := d.byte 1 &&& 0x7F }).final u).ctx.pair =
      openSession d s.ctx.pair := by
    unfold openSession
    rw [← ht] at hu ⊢
    exact congrArg (fun q : UInt8 × UInt8 => (d.byte 1 &&& 0x7F, q.2)) hu
  apply PairDone.bind (p := openSession d s.ctx.pair) ⟨hopen, rfl, rfl, rfl⟩
  intro v hv
  apply PairKept.bind (fun t => (writeTx_spared _ _ t).kept) hv
  intro v hv
  apply PairKept.bind (fun t => (sendResponse_spared _ t).kept) hv
  intro v hv
  exact save_stores hv fun t => pairKept_composable.refl t

/-- What the handler of security access does to the pair: nothing, or it accepts a key for half
of the sub-function and saves. -/
def KeyEffect (cfg : Config W) (d : Sdu) (s : Sys W) (es : List Event) (t : Sys W) : Prop :=
  PairKept s es t ∨ ∃ level : UInt8, subFunction d = 2 * level.toNat ∧
    PairDone (s.ctx.activeSession, level) (stored cfg (s.ctx.activeSession, level)) [level] es t

theorem KeyEffect.bind {α : Type} {m : M W α} {f : α → M W ℤ} (hm : Keeps PairKept m)
    (hf : ∀ t, KeyEffect cfg d t ((f (m.value s)).outputs t) ((f (m.value s)).final t)) :
    KeyEffect cfg d s ((m >>= f).outputs s) ((m >>= f).final s) := by
  have hsession : (m.final s).ctx.activeSession = s.ctx.activeSession :=
    congrArg Prod.fst (hm s).pair
  rcases hf (m.final s) with hkept | ⟨level, hlevel, hdone⟩
  · exact Or.inl (pairKept_composable.bind_at (hm s) hkept)
  · rw [hsession] at hdone
    exact Or.inr ⟨level, hlevel, (hm s).then hdone⟩

theorem KeyEffect.ite {c : Prop} [Decidable c] {m n : M W ℤ}
    (hm : c → KeyEffect cfg d s (m.outputs s) (m.final s))
    (hn : ¬ c → KeyEffect cfg d s (n.outputs s) (n.final s)) :
    KeyEffect cfg d s ((if c then m else n).outputs s) ((if c then m else n).final s) := by
  split_ifs with h
  · exact hm h
  · exact hn h

theorem requestSeed_kept (subRaw : UInt8) : Keeps PairKept (requestSeed cfg subRaw) :=
  (requestSeed_path (P := False) (B := False) (K := False) (h := false) subRaw).kept not_false

theorem keyRejected_kept (now : UInt32) (res : ℤ) : Keeps PairKept (keyRejected cfg now res) :=
  (keyRejected_path (P := False) (B := False) (K := False) (h := false) now res).kept not_false

/-- An accepted key takes the level of its sub-function and is followed by a save. -/
theorem keyAccepted_done (cfg : Config W) (subRaw : UInt8) (s : Sys W) :
    let p := (s.ctx.activeSession, (subRaw &&& 0x7F) / 2)
    PairDone p (stored cfg p) [] ((keyAccepted cfg subRaw).outputs s)
      ((keyAccepted cfg subRaw).final s) := by
  intro p
  let write : M W Unit := setCtx fun c =>
    { c with securityAttempts := 0, securityLevel := (subRaw &&& 0x7F) / 2 }
  have hwrite : PairDone p [] [] (write.outputs s) (write.final s) := ⟨rfl, rfl, rfl, rfl⟩
  exact hwrite.bind fun t ht => save_stores ht (respond_kept _ _)

theorem sendKey_effect (now : UInt32) (heven : ¬ (d.byte 1 &&& 0x7F) % 2 ≠ 0) (s : Sys W) :
    KeyEffect cfg d s ((sendKey cfg d now (d.byte 1)).outputs s)
      ((sendKey cfg d now (d.byte 1)).final s) := by
  unfold sendKey
  apply KeyEffect.ite
  · exact fun _ => Or.inl (sendNrc_kept cfg _ _ s)
  intro _
  let key := Call.securityKey ((d.byte 1 &&& 0x7F) / 2) (d.slice 2 (d.len - 2).toNat)
  by_cases hret : ((invoke cfg key).value s).ret = 0
  · right
    refine ⟨(d.byte 1 &&& 0x7F) / 2, ?_, ?_⟩
    · have hmod : (d.byte 1 &&& 0x7F).toNat % 2 = 0 := by
        simpa using congrArg UInt8.toNat (not_not.mp heven)
      have hdiv : ((d.byte 1 &&& 0x7F) / 2).toNat = (d.byte 1 &&& 0x7F).toNat / 2 :=
        UInt8.toNat_div _ _
      unfold subFunction
      omega
    · have hkey : PairDone s.ctx.pair [] [(d.byte 1 &&& 0x7F) / 2] ((invoke cfg key).outputs s)
          ((invoke cfg key).final s) := by
        refine ⟨rfl, rfl, ?_, rfl⟩
        exact congrArg Option.toList (if_pos hret)
      have hdone := hkey.then (keyAccepted_done cfg (d.byte 1) ((invoke cfg key).final s))
      rw [outputs_bind, final_bind, if_pos hret]
      exact hdone
  · left
    have hkey : PairKept s ((invoke cfg key).outputs s) ((invoke cfg key).final s) :=
      ⟨rfl, rfl, congrArg Option.toList (if_neg hret), rfl⟩
    rw [outputs_bind, final_bind, if_neg hret]
    exact pairKept_composable.trans hkey (keyRejected_kept now _ _)

theorem securityAccess_effect (cfg : Config W) (d : Sdu) (s : Sys W) :
    KeyEffect cfg d s ((handleSecurityAccess cfg d).outputs s)
      ((handleSecurityAccess cfg d).final s) := by
  unfold handleSecurityAccess
  apply KeyEffect.ite
  · exact fun _ => Or.inl (sendNrc_kept cfg _ _ s)
  intro _
  apply KeyEffect.bind fun _ => ⟨rfl, rfl, rfl, rfl⟩
  intro t
  apply KeyEffect.bind fun _ => ⟨rfl, rfl, rfl, rfl⟩
  intro t
  apply KeyEffect.ite
  · exact fun _ => Or.inl (sendNrc_kept cfg _ _ t)
  intro _
  apply KeyEffect.bind fun _ => ⟨rfl, rfl, rfl, rfl⟩
  intro t
  apply KeyEffect.bind (byteAt_kept 1)
  intro u
  apply KeyEffect.ite
  · exact fun _ => Or.inl (requestSeed_kept _ u)
  · exact fun heven => sendKey_effect _ heven u

/-! ### The calls -/

/-- What the handler of a core service does to the pair. -/
inductive HandlerEffect (cfg : Config W) (d : Sdu) (sid : UInt8) (s : Sys W) (es : List Event)
    (t : Sys W) : Prop where
  | kept (h : PairKept s es t) (hsession : sid = sidSessionControl → ¬ NamesSession d)
  | session (hsid : sid = sidSessionControl)
      (h : PairDone (openSession d s.ctx.pair) (stored cfg (openSession d s.ctx.pair)) [] es t)
  | key (level : UInt8) (hsid : sid = sidSecurityAccess) (hlevel : subFunction d = 2 * level.toNat)
      (h : PairDone (s.ctx.activeSession, level) (stored cfg (s.ctx.activeSession, level)) [level]
        es t)

theorem handler_effect {service : Service W} (h : service ∈ coreServices cfg) (d : Sdu)
    (s : Sys W) :
    HandlerEffect cfg d service.sid s ((service.handler d).outputs s)
      ((service.handler d).final s) := by
  by_cases hpair : MayPair service.sid
  · rcases hpair with hsid | hsid
    · have hservice : coreService sidSessionControl 2 (handleSessionControl cfg) (some maskSub10) =
          service := by
        have hfind := (find?_sid coreServices_nodup service).mpr ⟨h, hsid⟩
        exact Option.some.inj hfind
      subst hservice
      by_cases hsub : NamesSession d
      · exact .session rfl (sessionControl_opens cfg hsub s)
      · exact .kept (sessionControl_kept hsub s) fun _ => hsub
    · have hservice : coreService sidSecurityAccess 2 (handleSecurityAccess cfg) (some maskSub27) =
          service := by
        have hfind := (find?_sid coreServices_nodup service).mpr ⟨h, hsid⟩
        exact Option.some.inj hfind
      subst hservice
      rcases securityAccess_effect cfg d s with hkept | ⟨level, hlevel, hdone⟩
      · exact .kept hkept nofun
      · exact .key level rfl hlevel hdone
  · exact .kept ((coreServices_path d service h).kept hpair s) fun hsid => absurd (Or.inl hsid) hpair

theorem no_handler {es : List Event} (h : es.any Event.isHandler = false) (sid : UInt8) :
    Event.handler sid ∉ es :=
  fun he => List.any_eq_false.mp h _ he rfl

/-- A call that leaves the pair alone and enters no handler. -/
theorem PairStep.of_kept {op : Op W} (h : PairKept s es t) (htime : ¬ TimesOut cfg s op) :
    PairStep cfg s op es t :=
  .kept h.pair h.saved h.keys htime fun _ _ _ haccept => no_handler h.inside _ haccept.2.2

theorem arrived_pair (cfg : Config W) (s : Sys W) : (arrived cfg s).ctx.pair = s.ctx.pair := by
  rw [arrived_ctx]
  rfl

/-- What treats a message in between may be told the pair of the call. -/
theorem Treats.kept {m : M W Unit} (h : Treats cfg s d m) (hm : Keeps PairKept m) :
    PairKept s (step cfg s (.inputSdu (.bytes d))).2 (step cfg s (.inputSdu (.bytes d))).1 := by
  have hR := pairKept_composable (W := W)
  have hlock : PairKept s ((mutexLock cfg).outputs s) s := by
    have hkept := (mutexLock_around cfg s).kept
    exact ⟨rfl, hkept.saved, hkept.keys, hkept.inside⟩
  have hfirst : PairKept s ((getTime cfg).outputs ((mutexLock cfg).final s)) (arrived cfg s) :=
    ⟨arrived_pair cfg s, rfl, rfl, rfl⟩
  have hlast := (mutexUnlock_around cfg (m.final (arrived cfg s))).kept
  rw [h.outputs, h.final]
  exact hR.trans hlock (hR.trans hfirst (hR.trans (hm (arrived cfg s)) hlast))

theorem busyAnswer_kept (cfg : Config W) (d : Sdu) : Keeps PairKept (busyAnswer cfg d) :=
  Keeps.ite (fun _ => pairKept_composable.refl) fun _ s => (reject_spared cfg _ _ s).kept

theorem takeAnswer_kept (cfg : Config W) (d : Sdu) : Keeps PairKept (takeAnswer cfg d) := by
  apply pairKept_composable.bind fun s => (runResponseCb_spared d s).kept
  exact fun _ _ => ⟨rfl, rfl, rfl, rfl⟩

/-- The handler of a core service, with what is around it. -/
theorem PairStep.of_handler {service : Service W} {pre post : List Event} {v : Sys W}
    (hsid : service.sid = d.byte 0) (hpre : PairKept s pre u)
    (hmid : HandlerEffect cfg d service.sid u es v) (hpost : PairKept v post t) :
    PairStep cfg s (.inputSdu (.bytes d)) (pre ++ .handler service.sid :: (es ++ post)) t := by
  have hsaved : savedOf (pre ++ .handler service.sid :: (es ++ post)) = savedOf es := by
    rw [savedOf_append, hpre.saved]
    change savedOf (es ++ post) = savedOf es
    rw [savedOf_append, hpost.saved, List.append_nil]
  have hkeys : keysOf (pre ++ .handler service.sid :: (es ++ post)) = keysOf es := by
    rw [keysOf_append, hpre.keys]
    change keysOf (es ++ post) = keysOf es
    rw [keysOf_append, hpost.keys, List.append_nil]
  have hsession : u.ctx.activeSession = s.ctx.activeSession := congrArg Prod.fst hpre.pair
  have hpair := hpre.pair
  cases hmid with
  | kept h hnames =>
    refine .kept ?_ (hsaved.trans h.saved) (hkeys.trans h.keys) id ?_
    · exact hpost.pair.trans (h.pair.trans hpair)
    · rintro - d' hop ⟨hsid', hsub, -⟩
      cases hop
      exact hnames (hsid.trans hsid') hsub
  | session hsid' h =>
    rw [hpair] at h
    have ht : t.ctx.pair = openSession d s.ctx.pair := hpost.pair.trans h.pair
    refine .session d rfl (hsid.symm.trans hsid') ht ?_ (hkeys.trans h.keys)
    rw [hsaved, h.saved, ht]
  | key level hsid' hlevel h =>
    rw [hsession] at h
    have ht : t.ctx.pair = (s.ctx.activeSession, level) := hpost.pair.trans h.pair
    refine .key d level rfl (hsid.symm.trans hsid') hlevel ht ?_ (hkeys.trans h.keys)
    rw [hsaved, h.saved, ht]

/-- The handler of a user service, with what is around it. -/
theorem PairStep.of_user {entry : ServiceEntry (Sdu → AppProg W)} {pre post : List Event}
    {v : Sys W} (hentry : entry ∈ cfg.userServices) (hsid : entry.sid = d.byte 0)
    (hpre : PairKept s pre u) (hmid : PairKept u es v) (hpost : PairKept v post t) :
    PairStep cfg s (.inputSdu (.bytes d)) (pre ++ .handler entry.sid :: (es ++ post)) t := by
  have hrest := pairKept_composable.trans hmid hpost
  refine .kept ?_ ?_ ?_ id ?_
  · exact hrest.pair.trans hpre.pair
  · rw [savedOf_append, hpre.saved]
    exact hrest.saved
  · rw [keysOf_append, hpre.keys]
    exact hrest.keys
  · rintro hcore d' hop ⟨hsid', -, -⟩
    cases hop
    exact hcore entry hentry (hsid.trans hsid')

/-- What a dispatched request does to the pair. -/
theorem step_dispatched_pair (hp : s.ctx.p2MsgPending = false) (hans : ¬ takesAsAnswer s.ctx d)
    (hne : d.bytes ≠ []) :
    let r := step cfg s (.inputSdu (.bytes d))
    PairStep cfg s (.inputSdu (.bytes d)) r.2 r.1 := by
  intro r
  have hR := pairKept_composable (W := W)
  obtain ⟨hfinal, before, after, hbefore, hafter, houtputs⟩ := step_dispatched cfg hp hans hne
  have hround : PairKept s before s := Around.kept ⟨rfl, hbefore⟩
  have hleads := handleRequest_leads cfg (entered cfg s) hne
  have hentered := pair_of_diagnostic (entered_diagnostic cfg s)
  have hfirst : PairKept s (before ++ [.dispatch d.bytes]) (entered cfg s) :=
    hR.trans hround ⟨hentered, rfl, rfl, rfl⟩
  have hlast : PairKept ((handleRequest cfg d).final (entered cfg s)) after r.1 :=
    Around.kept ⟨hfinal.1, hafter⟩
  rw [show r.2 = _ from houtputs]
  cases hfail : firstFailing cfg (entered cfg s) d with
  | some check =>
    rw [hfail] at hleads
    obtain ⟨es, w, hgated, -, hend, hevents⟩ := hleads
    have hreject := (reject_spared cfg (d.byte 0) check.nrc w).kept
    rw [hend] at hlast
    have hall := hR.trans hfirst (hR.trans hgated.kept (hR.trans hreject hlast))
    rw [hevents]
    apply PairStep.of_kept _ id
    simpa only [List.append_assoc, List.cons_append, List.nil_append] using hall
  | none =>
    rw [hfail] at hleads
    obtain ⟨service, hfound, hend, hevents⟩ := hleads
    obtain ⟨tail, hrun, htail⟩ :=
      executeHandler_parts cfg service d (atHandler cfg service d (entered cfg s))
    have hgated : PairKept (entered cfg s) _ (atHandler cfg service d (entered cfg s)) :=
      (safetyGate_gated _).kept
    rw [hend] at hlast
    have hpre := hR.trans hfirst hgated
    have hpost := hR.trans htail.kept hlast
    rw [hevents, hrun]
    rcases (findService_iff _ _).mp hfound with
      ⟨first, entry, last, hsplit, -, hsid, rfl⟩ | ⟨-, hmember, hsid⟩
    · have hentry : entry ∈ cfg.userServices := hsplit ▸ by simp
      have hmid := (runApp_spared cfg (entry.handler d)
        (atHandler cfg (userService cfg entry) d (entered cfg s))).kept
      have hstep := PairStep.of_user hentry hsid hpre hmid hpost
      simp only [List.append_assoc, List.cons_append, List.nil_append] at hstep ⊢
      exact hstep
    · have hmid := handler_effect hmember d (atHandler cfg service d (entered cfg s))
      have hstep := PairStep.of_handler hsid hpre hmid hpost
      simpa only [List.append_assoc, List.cons_append, List.nil_append] using hstep

theorem ticks_plain {e : Event} (h : e.isTick = true) : e.isPlain = true := by
  cases e with
  | call c ret =>
    cases c with
    | log level msg => rfl
    | _ => exact absurd h Bool.false_ne_true
  | time now => rfl
  | _ => exact absurd h Bool.false_ne_true

theorem Scheduled.kept (h : Scheduled s es t) : PairKept s es t := by
  apply PairKept.of_plain
  · rw [h.ctx]
    rfl
  intro e he
  have hperiodic := h.events e he
  cases e with
  | call c ret =>
    cases c with
    | periodicRead id len => rfl
    | _ => exact absurd hperiodic Bool.false_ne_true
  | handler sid => exact absurd hperiodic Bool.false_ne_true
  | _ => rfl

theorem finishProcess_kept (now : UInt32) : Keeps PairKept (finishProcess cfg now) := by
  intro s
  obtain ⟨es, t, hsched, hfinal, houtputs⟩ := finishProcess_parts cfg now s
  rw [hfinal, houtputs]
  exact pairKept_composable.trans hsched.kept (mutexUnlock_around cfg t).kept

theorem answerInTime_kept (cfg : Config W) (c : Ctx) (now : UInt32) : Keeps PairKept (answerInTime cfg c now) := by
  have hR := pairKept_composable (W := W)
  unfold answerInTime
  refine Keeps.ite (fun _ => Keeps.ite (fun _ => ?_) fun _ => ?_) fun _ => finishProcess_kept now
  · exact hR.bind (sendNrc_kept cfg _ _) fun _ _ => ⟨rfl, rfl, rfl, rfl⟩
  · apply hR.bind (sendNrc_kept cfg _ _)
    intro _
    exact hR.bind (fun _ => ⟨rfl, rfl, rfl, rfl⟩) fun _ => finishProcess_kept now

/-- What `uds_process` does to the pair: the S3 timer is all that touches it. -/
theorem step_process_pair (cfg : Config W) (s : Sys W) :
    PairStep cfg s .process (step cfg s .process).2 (step cfg s .process).1 := by
  obtain ⟨hfinal, pre, hpre, houtputs⟩ := udsProcess_parts cfg s
  have hlock := (mutexLock_around cfg s).kept
  have hticks : PairKept s pre s := PairKept.of_plain rfl fun e he => ticks_plain (hpre e he)
  have hrest := answerInTime_kept cfg s.ctx (processTime cfg s) (ticked cfg s)
  have hsaved : savedOf (step cfg s .process).2 = [] := by
    change savedOf ((udsProcess cfg).outputs s) = []
    rw [houtputs, savedOf_append, savedOf_append, hlock.saved, hticks.saved, hrest.saved]
    rfl
  have hkeys : keysOf (step cfg s .process).2 = [] := by
    change keysOf ((udsProcess cfg).outputs s) = []
    rw [houtputs, keysOf_append, keysOf_append, hlock.keys, hticks.keys, hrest.keys]
    rfl
  have hpair : (step cfg s .process).1.ctx.pair = (ticked cfg s).ctx.pair := by
    change ((udsProcess cfg).final s).ctx.pair = _
    rw [hfinal]
    exact hrest.pair
  rw [ticked_ctx] at hpair
  by_cases htime : s3Passed s.ctx (processTime cfg s)
  · rw [if_pos htime] at hpair
    exact .timedOut htime hpair hsaved hkeys
  · rw [if_neg htime] at hpair
    exact .kept hpair hsaved hkeys htime fun _ d hop => nomatch hop

/-- What any call does to the pair. -/
theorem step_pair (cfg : Config W) (s : Sys W) (op : Op W) :
    PairStep cfg s op (step cfg s op).2 (step cfg s op).1 := by
  have hR := pairKept_composable (W := W)
  cases op with
  | inputSdu data =>
    rcases data.empty_or_message with hnone | ⟨d, rfl, hne⟩
    · obtain ⟨hfinal, houtputs⟩ := step_ignored cfg s hnone
      rw [hfinal, houtputs]
      exact .of_kept (hR.trans (mutexLock_around cfg s).kept (mutexUnlock_around cfg _).kept) id
    · by_cases hp : s.ctx.p2MsgPending = true
      · exact .of_kept ((step_busy cfg hp hne).kept (busyAnswer_kept cfg d)) id
      have hp' : s.ctx.p2MsgPending = false := Bool.eq_false_iff.mpr hp
      by_cases hans : takesAsAnswer s.ctx d
      · exact .of_kept ((step_answered cfg hp' hans hne).kept (takeAnswer_kept cfg d)) id
      · exact step_dispatched_pair hp' hans hne
  | process => exact step_process_pair cfg s
  | clientRequest sid data cb =>
    refine .of_kept ?_ id
    exact hR.discard (fun t => (clientRequest_spared sid data cb t).kept) s
  | fill off bytes => exact .of_kept ⟨rfl, rfl, rfl, rfl⟩ id
  | sendResponse len =>
    refine .of_kept ?_ id
    exact hR.discard (fun t => (sendResponse_spared len t).kept) s
  | sendNrc sid nrc =>
    exact .of_kept (hR.discard (sendNrc_kept cfg sid nrc) s) id
  | elapse f => exact .of_kept ⟨rfl, rfl, rfl, rfl⟩ id

end UdsLib.Core
