import UdsLib.Core.RequestBounds
import UdsLib.Services.LateLength

/-! The delay and the counter of security access. The handler turns a request off while the delay
runs, or asks for a seed, or has a key evaluated and counts it. -/
namespace UdsLib.Core
open Bytes

variable {W : Type}

/-- The result of a key that the application was asked about. -/
def Event.keyResult? : Event → Option ℤ
  | .call (.securityKey _ _) ret => some ret
  | _ => none

/-- The result of a question to the application about a seed or a key. -/
def Event.reply? : Event → Option ℤ
  | .call (.securitySeed _ _) ret => some ret
  | .call (.securityKey _ _) ret => some ret
  | _ => none

/-- The service and the NRC of a negative answer. -/
def Event.refusal? : Event → Option (UInt8 × UInt8)
  | .tpSend .nrc [_, sid, nrc] _ => some (sid, nrc)
  | _ => none

/-- The results of the keys that the application was asked about, in order. -/
def keyResults (es : List Event) : List ℤ := es.filterMap Event.keyResult?

/-- The results of the questions about a seed or a key, in order. -/
def repliesOf (es : List Event) : List ℤ := es.filterMap Event.reply?

/-- The negative answers that go out, in order. -/
def refusalsOf (es : List Event) : List (UInt8 × UInt8) := es.filterMap Event.refusal?

/-- The failed keys since the last accepted one, behind `n` and these events. -/
def failuresAfter (n : ℕ) (es : List Event) : ℕ :=
  (keyResults es).foldl (fun n ret => if ret = 0 then 0 else n + 1) n

/-- The end of the delay, and the counter of failed keys. -/
def Ctx.lockout (c : Ctx) : UInt32 × UInt8 := (c.securityDelayEnd, c.securityAttempts)

theorem keyResults_append (es fs : List Event) :
    keyResults (es ++ fs) = keyResults es ++ keyResults fs :=
  List.filterMap_append ..

theorem refusalsOf_append (es fs : List Event) :
    refusalsOf (es ++ fs) = refusalsOf es ++ refusalsOf fs :=
  List.filterMap_append ..

end UdsLib.Core

namespace UdsLib.Services
open Bytes Machine Prog UdsLib.Core

variable {W : Type} {cfg : Config W} {d : Sdu} {s t u : Sys W} {es fs : List Event} {P : Prop}

/-- The length of a lockout. -/
def delayOf (cfg : Config W) : UInt32 :=
  if cfg.securityDelayMs ≠ 0 then cfg.securityDelayMs else 10000

/-- The delay runs at the time `now`. -/
def Locked (c : Ctx) (now : UInt32) : Prop := c.securityDelayEnd ≠ 0 ∧ now < c.securityDelayEnd

instance (c : Ctx) (now : UInt32) : Decidable (Locked c now) :=
  inferInstanceAs (Decidable (_ ∧ _))

/-- The end of the delay and the counter behind a key with the result `ret`, evaluated at the time
`now` after `attempts` counted failures. -/
def afterKey (cfg : Config W) (now : UInt32) (attempts : UInt8) (ret : ℤ) : UInt32 × UInt8 :=
  if ret = 0 then (0, 0)
  else if maxAttempts cfg ≤ attempts + 1 then (now + delayOf cfg, attempts + 1)
  else (0, attempts + 1)

/-- The NRC for a failed key. -/
def failedKeyNrc (cfg : Config W) (attempts : UInt8) (ret : ℤ) : UInt8 :=
  if maxAttempts cfg ≤ attempts + 1 then nrcExceededAttempts
  else if ret < 0 then nrcOf ret else nrcInvalidKey

/-- A negative answer with NRC 0x37 passes a result of the application on. -/
def PassedOn (es : List Event) : Prop :=
  (sidSecurityAccess, nrcRequiredTimeDelay) ∈ refusalsOf es →
    ∃ ret ∈ repliesOf es, nrcOf ret = nrcRequiredTimeDelay

instance (es : List Event) : Decidable (PassedOn es) := inferInstanceAs (Decidable (_ → _))

/-- What the handler does when no delay runs. -/
structure Served (lockout : UInt32 × UInt8) (keys : List ℤ) (es : List Event) (t : Sys W) :
    Prop where
  lockout : t.ctx.lockout = lockout
  keys : keyResults es = keys
  passed : PassedOn es

/-- What the handler of security access does at the time `now`. -/
inductive Access (cfg : Config W) (now : UInt32) (s : Sys W) (es : List Event) (t : Sys W) :
    Prop where
  | locked (hlocked : Locked s.ctx now) (hstate : t.ctx.lockout = s.ctx.lockout)
      (hreply : repliesOf es = []) (hkeys : keyResults es = [])
      (hanswer : refusalsOf es =
        if 3 ≤ cfg.txBufferSize then [(sidSecurityAccess, nrcRequiredTimeDelay)] else [])
  | noKey (hopen : ¬ Locked s.ctx now) (h : Served (0, s.ctx.securityAttempts) [] es t)
  | key (ret : ℤ) (hopen : ¬ Locked s.ctx now)
      (h : Served (afterKey cfg now s.ctx.securityAttempts ret) [ret] es t)
      (hanswer : ret ≠ 0 → refusalsOf es =
        if 3 ≤ cfg.txBufferSize then
          [(sidSecurityAccess, failedKeyNrc cfg s.ctx.securityAttempts ret)] else [])

/-- The delay and the counter stay, no key is evaluated, and NRC 0x37 is only sent under `P`. -/
structure Aside (P : Prop) (s : Sys W) (es : List Event) (t : Sys W) : Prop where
  lockout : t.ctx.lockout = s.ctx.lockout
  events : ∀ e ∈ es, e.keyResult? = none ∧
    (e.refusal? = some (sidSecurityAccess, nrcRequiredTimeDelay) → P)

theorem aside_composable : Composable (Aside (W := W) P) where
  refl _ := ⟨rfl, nofun⟩
  trans h hnext := by
    constructor
    · exact hnext.lockout.trans h.lockout
    · exact List.forall_mem_append.mpr ⟨h.events, hnext.events⟩

theorem Aside.single {e : Event} (hlockout : t.ctx.lockout = s.ctx.lockout)
    (hkey : e.keyResult? = none) (hrefusal : e.refusal? = none) : Aside P s [e] t := by
  refine ⟨hlockout, fun _ hx => ?_⟩
  rw [List.mem_singleton.mp hx, hrefusal]
  exact ⟨hkey, nofun⟩

theorem Aside.faults (hlockout : t.ctx.lockout = s.ctx.lockout)
    (hes : ∀ e ∈ es, ∃ f, e = .fault f) : Aside P s es t := by
  refine ⟨hlockout, ?_⟩
  exact faults_forall hes fun _ => ⟨rfl, nofun⟩

theorem Aside.keys (h : Aside P s es t) : keyResults es = [] :=
  List.filterMap_eq_nil_iff.mpr fun e he => (h.events e he).1

theorem Aside.refused (h : Aside P s es t)
    (hsent : (sidSecurityAccess, nrcRequiredTimeDelay) ∈ refusalsOf es) : P := by
  obtain ⟨e, he, hsome⟩ := List.mem_filterMap.mp hsent
  exact (h.events e he).2 hsome

theorem Aside.served (h : Aside False s es t) : Served s.ctx.lockout [] es t where
  lockout := h.lockout
  keys := h.keys
  passed hsent := (h.refused hsent).elim

/-- The handler asks the application, and goes on with its result. -/
theorem Served.of_call {call : Call} (ret : ℤ) (hreply : (Event.call call ret).reply? = some ret)
    (h : Aside (nrcOf ret = nrcRequiredTimeDelay) s es t) :
    Served s.ctx.lockout (Event.keyResult? (.call call ret)).toList (.call call ret :: es) t where
  lockout := h.lockout
  keys := by
    change keyResults ([.call call ret] ++ es) = _
    rw [keyResults_append, h.keys, List.append_nil]
    rfl
  passed hsent := by
    refine ⟨ret, List.mem_filterMap.mpr ⟨_, List.mem_cons_self, hreply⟩, ?_⟩
    exact h.refused hsent

theorem Aside.served_then {lockout : UInt32 × UInt8} {keys : List ℤ} (h : Aside False s es t)
    (hnext : Served lockout keys fs u) : Served lockout keys (es ++ fs) u where
  lockout := hnext.lockout
  keys := by
    rw [keyResults_append, h.keys]
    exact hnext.keys
  passed hsent := by
    rw [refusalsOf_append] at hsent
    rcases List.mem_append.mp hsent with hfirst | hlast
    · exact (h.refused hfirst).elim
    · obtain ⟨ret, hret, hnrc⟩ := hnext.passed hlast
      refine ⟨ret, ?_, hnrc⟩
      unfold repliesOf
      rw [List.filterMap_append]
      exact List.mem_append_right _ hret

/-! ### The actions -/

theorem sendNrc_refusals (sid nrc : UInt8) (s : Sys W) :
    refusalsOf ((sendNrc cfg sid nrc).outputs s) =
      if 3 ≤ cfg.txBufferSize then [(sid, nrc)] else [] := by
  obtain ⟨faults, hfaults, ret, houtputs⟩ := sendNrc_outputs cfg sid nrc s
  have hnone : refusalsOf faults = [] := by
    apply List.filterMap_eq_nil_iff.mpr
    intro e he
    obtain ⟨f, rfl⟩ := hfaults e he
    rfl
  rw [houtputs]
  split_ifs
  · rw [refusalsOf_append, hnone]
    rfl
  · rfl

theorem sendNrc_lockout (sid nrc : UInt8) (s : Sys W) :
    ((sendNrc cfg sid nrc).final s).ctx.lockout = s.ctx.lockout := by
  rw [sendNrc_ctx]
  split_ifs
  · rfl
  · rfl

theorem sendNrc_calls (sid nrc : UInt8) (s : Sys W) :
    ∀ e ∈ (sendNrc cfg sid nrc).outputs s, e.keyResult? = none ∧ e.reply? = none := by
  intro e he
  obtain ⟨faults, hfaults, ret, houtputs⟩ := sendNrc_outputs cfg sid nrc s
  rw [houtputs] at he
  split_ifs at he
  · rcases List.mem_append.mp he with hfault | hsent
    · obtain ⟨f, rfl⟩ := hfaults e hfault
      exact ⟨rfl, rfl⟩
    · rw [List.mem_singleton.mp hsent]
      exact ⟨rfl, rfl⟩
  · cases he

theorem sendNrc_aside {nrc : UInt8} (hnrc : nrc = nrcRequiredTimeDelay → P) :
    Keeps (Aside P) (sendNrc cfg sidSecurityAccess nrc) := by
  intro s
  refine ⟨sendNrc_lockout _ _ s, fun e he => ⟨(sendNrc_calls _ _ s e he).1, fun hsome => ?_⟩⟩
  have hsent := List.mem_filterMap.mpr ⟨e, he, hsome⟩
  change _ ∈ refusalsOf _ at hsent
  rw [sendNrc_refusals] at hsent
  split_ifs at hsent
  · exact hnrc (Prod.mk.inj (List.mem_singleton.mp hsent)).2.symm
  · cases hsent

/-- A missing callback is answered with another NRC. -/
theorem refused_aside :
    Keeps (Aside P) (sendNrc cfg sidSecurityAccess nrcConditionsNotCorrect) :=
  sendNrc_aside fun h => absurd h (by decide)

theorem sendResponse_aside (len : UInt16) : Keeps (Aside P) (sendResponse cfg len) := by
  apply sendResponse_keeps
  · exact aside_composable.refl
  · exact fun _ => .single rfl rfl rfl
  · exact fun _ _ _ => .single rfl rfl rfl

theorem writeTx_aside (off : ℕ) (bs : List UInt8) : Keeps (Aside P) (writeTx cfg off bs) :=
  fun s => .faults rfl fun _ => writeTx_faults s

theorem respond_aside (bs : List UInt8) (len : UInt16) :
    Keeps (Aside P) (writeTx cfg 0 bs >>= fun _ => sendResponse cfg len) :=
  aside_composable.bind (writeTx_aside 0 bs) fun _ => sendResponse_aside len

/-! ### The handler -/

theorem requestSeed_served (subRaw : UInt8) (s : Sys W) :
    Served s.ctx.lockout [] ((requestSeed cfg subRaw).outputs s)
      ((requestSeed cfg subRaw).final s) := by
  have hR : Composable (Aside (W := W) False) := aside_composable
  by_cases hset : cfg.isSet .fnSecuritySeed = true
  · unfold requestSeed
    rw [if_neg (not_not_intro hset), outputs_bind, final_bind]
    refine Aside.served_then (writeTx_aside _ _ s) ?_
    set v := (writeTx cfg 0 _).final s
    set call := Call.securitySeed _ _
    set reply := (invoke cfg call).value v
    have hrest : Keeps (Aside (nrcOf reply.ret = nrcRequiredTimeDelay))
        (writeTx cfg 2 reply.out >>= fun _ =>
          if reply.ret < 0 then sendNrc cfg sidSecurityAccess (nrcOf reply.ret)
          else sendResponse cfg (lenOf reply.ret + 2)) := by
      apply aside_composable.bind (writeTx_aside _ _)
      intro _
      apply Keeps.ite
      · exact fun _ => sendNrc_aside id
      · exact fun _ => sendResponse_aside _
    have hserved : Served _ _ (.call call reply.ret :: _) _ :=
      .of_call reply.ret rfl (hrest ((invoke cfg call).final v))
    dsimp only
    unfold invokeOut
    simp only [then_then, pure_then]
    exact hserved
  · unfold requestSeed
    rw [if_pos hset]
    exact (refused_aside s).served

theorem keyAccepted_lockout (cfg : Config W) (subRaw : UInt8) (s : Sys W) :
    let t : Sys W := { s with ctx :=
      { s.ctx with securityAttempts := 0, securityLevel := (subRaw &&& 0x7F) / 2 } }
    Aside P t ((keyAccepted cfg subRaw).outputs s) ((keyAccepted cfg subRaw).final s) := by
  intro t
  have hR : Composable (Aside (W := W) P) := aside_composable
  have hrest : Keeps (Aside P) (getCtx >>= fun ctx => do
      onlyIf (cfg.isSet .fnNvmSave) do
        invokeVoid cfg (.nvmSave [ctx.activeSession, ctx.securityLevel])
      writeTx cfg 0 [sidSecurityAccess + responseOffset, subRaw]
      sendResponse cfg 2) := by
    apply keeps_ctx
    intro c
    apply hR.bind
    · apply Keeps.ite
      · intro _
        apply hR.discard
        exact fun _ => .single rfl rfl rfl
      · exact fun _ => hR.refl
    · exact fun _ => respond_aside _ 2
  exact hrest t

/-- The context with a failed key counted. -/
def counted (c : Ctx) : Ctx := { c with securityAttempts := c.securityAttempts + 1 }

/-- A rejected key is counted, and at the limit the delay starts. -/
theorem keyRejected_run (cfg : Config W) (now : UInt32) (ret : ℤ) (s : Sys W) :
    keyRejected cfg now ret s =
      sendNrc cfg sidSecurityAccess (failedKeyNrc cfg s.ctx.securityAttempts ret)
        { s with ctx :=
          if maxAttempts cfg ≤ s.ctx.securityAttempts + 1 then
            { counted s.ctx with securityDelayEnd := now + delayOf cfg }
          else counted s.ctx } := by
  have hcounted : keyRejected cfg now ret s =
      (if maxAttempts cfg ≤ s.ctx.securityAttempts + 1 then do
        setCtx fun c => { c with securityDelayEnd := now + delayOf cfg }
        sendNrc cfg sidSecurityAccess nrcExceededAttempts
      else sendNrc cfg sidSecurityAccess (if ret < 0 then nrcOf ret else nrcInvalidKey) : M W ℤ)
        { s with ctx := counted s.ctx } := rfl
  rw [hcounted]
  unfold failedKeyNrc
  by_cases hlimit : maxAttempts cfg ≤ s.ctx.securityAttempts + 1
  · rw [if_pos hlimit, if_pos hlimit, if_pos hlimit]
    rfl
  · rw [if_neg hlimit, if_neg hlimit, if_neg hlimit]

theorem keyRejected_lockout {now : UInt32} {ret : ℤ} (hret : ret ≠ 0)
    (hdelay : s.ctx.securityDelayEnd = 0) :
    ((keyRejected cfg now ret).final s).ctx.lockout =
      afterKey cfg now s.ctx.securityAttempts ret := by
  unfold final afterKey
  rw [keyRejected_run, if_neg hret]
  refine (sendNrc_lockout _ _ _).trans ?_
  dsimp only
  split_ifs
  · rfl
  · exact congrArg (·, s.ctx.securityAttempts + 1) hdelay

theorem failedKeyNrc_delay {attempts : UInt8} {ret : ℤ}
    (h : failedKeyNrc cfg attempts ret = nrcRequiredTimeDelay) :
    nrcOf ret = nrcRequiredTimeDelay := by
  unfold failedKeyNrc at h
  split_ifs at h
  · exact absurd h (by decide)
  · exact h
  · exact absurd h (by decide)

theorem keyRejected_events (cfg : Config W) (now : UInt32) (ret : ℤ) (s : Sys W) :
    ∀ e ∈ (keyRejected cfg now ret).outputs s, e.keyResult? = none ∧
      (e.refusal? = some (sidSecurityAccess, nrcRequiredTimeDelay) →
        nrcOf ret = nrcRequiredTimeDelay) := by
  unfold outputs
  rw [keyRejected_run]
  exact (sendNrc_aside failedKeyNrc_delay _).events

theorem keyRejected_refusals (now : UInt32) (ret : ℤ) (s : Sys W) :
    refusalsOf ((keyRejected cfg now ret).outputs s) =
      if 3 ≤ cfg.txBufferSize then
        [(sidSecurityAccess, failedKeyNrc cfg s.ctx.securityAttempts ret)] else [] := by
  unfold outputs
  rw [keyRejected_run]
  exact sendNrc_refusals _ _ _

/-- The key that a request brings. -/
def keyCall (d : Sdu) (subRaw : UInt8) : Call :=
  .securityKey ((subRaw &&& 0x7F) / 2) (d.slice 2 (d.len - 2).toNat)

/-- A key is evaluated, and the handler goes on with the result. -/
theorem sendKey_run (hset : cfg.isSet .fnSecurityKey = true) (d : Sdu) (now : UInt32)
    (subRaw : UInt8) (u : Sys W) :
    let ret := resultOf cfg u (keyCall d subRaw)
    let v := (invoke cfg (keyCall d subRaw)).final u
    let next := if ret = 0 then keyAccepted cfg subRaw else keyRejected cfg now ret
    (sendKey cfg d now subRaw).outputs u = .call (keyCall d subRaw) ret :: next.outputs v ∧
      (sendKey cfg d now subRaw).final u = next.final v := by
  intro ret v next
  unfold sendKey
  rw [if_neg (not_not_intro hset)]
  exact ⟨rfl, rfl⟩

theorem sendKey_access {now : UInt32} (hopen : ¬ Locked s.ctx now) (d : Sdu) (subRaw : UInt8)
    (hu : u.ctx.lockout = (0, s.ctx.securityAttempts)) :
    Access cfg now s ((sendKey cfg d now subRaw).outputs u)
      ((sendKey cfg d now subRaw).final u) := by
  have hdelay : u.ctx.securityDelayEnd = 0 := congrArg Prod.fst hu
  have hcount : u.ctx.securityAttempts = s.ctx.securityAttempts := congrArg Prod.snd hu
  by_cases hset : cfg.isSet .fnSecurityKey = true
  · obtain ⟨houtputs, hfinal⟩ := sendKey_run hset d now subRaw u
    rw [houtputs, hfinal]
    set ret := resultOf cfg u (keyCall d subRaw)
    set v := (invoke cfg (keyCall d subRaw)).final u
    have hv : v.ctx = u.ctx := rfl
    by_cases hret : ret = 0
    · rw [if_pos hret]
      have hserved : Served _ _ (.call (keyCall d subRaw) ret :: _) _ :=
        .of_call ret rfl (keyAccepted_lockout cfg subRaw v)
      refine .key ret hopen ⟨?_, hserved.keys, hserved.passed⟩ fun hne => absurd hret hne
      unfold afterKey
      rw [if_pos hret, hserved.lockout]
      exact congrArg (·, 0) hdelay
    · rw [if_neg hret]
      have hstate : ((keyRejected cfg now ret).final v).ctx.lockout = _ :=
        keyRejected_lockout hret hdelay
      have hafter : Aside _ ((keyRejected cfg now ret).final v) _ _ :=
        ⟨rfl, keyRejected_events cfg now ret v⟩
      have hserved : Served _ _ (.call (keyCall d subRaw) ret :: _) _ := .of_call ret rfl hafter
      rw [hv, hcount] at hstate
      have hanswer : refusalsOf ((keyRejected cfg now ret).outputs v) = _ :=
        keyRejected_refusals now ret v
      rw [hv, hcount] at hanswer
      exact .key ret hopen ⟨hstate, hserved.keys, hserved.passed⟩ fun _ => hanswer
  · unfold sendKey
    rw [if_pos hset]
    have hserved : Served _ _ ((sendNrc cfg _ _).outputs u) _ := (refused_aside u).served
    rw [hu] at hserved
    exact .noKey hopen hserved

theorem Access.after_time {now time : UInt32} (h : Access cfg now s es t) :
    Access cfg now s (.time time :: es) t := by
  have htime : Aside False s [.time time] s := .single rfl rfl rfl
  cases h with
  | locked hlocked hstate hreply hkeys hanswer =>
    exact .locked hlocked hstate hreply hkeys hanswer
  | noKey hopen h => exact .noKey hopen (htime.served_then h)
  | key ret hopen h hanswer => exact .key ret hopen (htime.served_then h) hanswer

/-- The handler of security access, by what it finds. -/
theorem securityAccess_access (hlen : 2 ≤ d.bytes.length) (s : Sys W) :
    Access cfg ((getTime cfg).value s) s ((handleSecurityAccess cfg d).outputs s)
      ((handleSecurityAccess cfg d).final s) := by
  let now := (getTime cfg).value s
  let t := (getTime cfg).final s
  let check : M W ℤ := do
    let subRaw ← byteAt d 1
    if (subRaw &&& 0x7F) % 2 ≠ 0 then
      return ← requestSeed cfg subRaw
    sendKey cfg d now subRaw
  let rest : M W ℤ := if Locked s.ctx now then sendNrc cfg sidSecurityAccess nrcRequiredTimeDelay
    else setCtx (fun c => { c with securityDelayEnd := 0 }) >>= fun _ => check
  have houtputs : (handleSecurityAccess cfg d).outputs s = .time now :: rest.outputs t := by
    unfold handleSecurityAccess
    rw [if_neg (not_len_lt (n := 2) hlen)]
    rfl
  have hfinal : (handleSecurityAccess cfg d).final s = rest.final t := by
    unfold handleSecurityAccess
    rw [if_neg (not_len_lt (n := 2) hlen)]
    rfl
  rw [houtputs, hfinal]
  apply Access.after_time
  unfold rest
  by_cases hlocked : Locked s.ctx now
  · rw [if_pos hlocked]
    have hcalls : ∀ e ∈ (sendNrc cfg _ _).outputs t, _ :=
      sendNrc_calls sidSecurityAccess nrcRequiredTimeDelay t
    apply Access.locked hlocked
    · exact sendNrc_lockout _ _ t
    · exact List.filterMap_eq_nil_iff.mpr fun e he => (hcalls e he).2
    · exact List.filterMap_eq_nil_iff.mpr fun e he => (hcalls e he).1
    · exact sendNrc_refusals _ _ t
  · rw [if_neg hlocked]
    let u : Sys W := { t with ctx := { t.ctx with securityDelayEnd := 0 } }
    let serve : M W ℤ := if (d.byte 1 &&& 0x7F) % 2 ≠ 0 then requestSeed cfg (d.byte 1)
      else sendKey cfg d now (d.byte 1)
    have hcheck : check u = serve u := byteAt_then hlen _ u
    change Access cfg now s (check u).2.2 (check u).2.1
    rw [hcheck]
    unfold serve
    split_ifs
    · exact .noKey hlocked (requestSeed_served (d.byte 1) u)
    · exact sendKey_access hlocked d (d.byte 1) rfl

end UdsLib.Services
