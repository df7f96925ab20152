import UdsLib.Core.BlockOrder
import UdsLib.Services.Lockout

/-! The bound on guessing keys. The byte `security_attempts` counts the keys that failed since the
last accepted one, up to wrap-around, and a key that fails while the byte is at the limit starts a
lockout. -/
namespace UdsLib.Core
open Bytes Machine Prog Services

variable {W : Type} {cfg : Config W} {d : Sdu} {s t u : Sys W} {es fs : List Event} {op : Op W} {n : ℕ}

/-- The request that a call brings to the handler of security access, and the state in which the
handler starts. -/
def accessOf (cfg : Config W) (s : Sys W) : Op W → Option (Sdu × Sys W)
  | .inputSdu (.bytes d) =>
    if d.byte 0 = sidSecurityAccess ∧ s.ctx.p2MsgPending = false ∧ ¬ takesAsAnswer s.ctx d ∧
        ∀ entry ∈ cfg.userServices, entry.sid ≠ sidSecurityAccess then
      (reached cfg d s).map fun service => (d, atHandler cfg service d (entered cfg s))
    else none
  | _ => none

/-- The time that the handler of security access reads in a call. -/
def accessTime (cfg : Config W) (s : Sys W) (op : Op W) : Option UInt32 :=
  (accessOf cfg s op).map fun access => (getTime cfg).value access.2

/-- A key fails. -/
def KeyFails (es : List Event) : Prop := ∃ ret ∈ keyResults es, ret ≠ 0

instance (es : List Event) : Decidable (KeyFails es) := inferInstanceAs (Decidable (∃ _ ∈ _, _))

/-- A handler that ends in `t` has had a key evaluated that failed, and starts a lockout at the time
`now`. -/
structure LocksOut (cfg : Config W) (now : UInt32) (es : List Event) (t : Sys W) : Prop where
  failed : KeyFails es
  limit : maxAttempts cfg ≤ t.ctx.securityAttempts
  delay : t.ctx.securityDelayEnd = now + delayOf cfg
  answer : (sidSecurityAccess, nrcExceededAttempts) ∈ refusalsOf es

instance (now : UInt32) (es : List Event) (t : Sys W) : Decidable (LocksOut cfg now es t) :=
  decidable_of_iff
    (KeyFails es ∧ maxAttempts cfg ≤ t.ctx.securityAttempts ∧
      t.ctx.securityDelayEnd = now + delayOf cfg ∧
        (sidSecurityAccess, nrcExceededAttempts) ∈ refusalsOf es)
    ⟨fun ⟨hfailed, hlimit, hdelay, hanswer⟩ => ⟨hfailed, hlimit, hdelay, hanswer⟩,
      fun h => ⟨h.failed, h.limit, h.delay, h.answer⟩⟩

/-- The call starts a lockout. -/
def StartsLockout (cfg : Config W) (s : Sys W) (op : Op W) : Prop :=
  ∃ access ∈ accessOf cfg s op, LocksOut cfg ((getTime cfg).value access.2)
    ((handleSecurityAccess cfg access.1).outputs access.2)
    ((handleSecurityAccess cfg access.1).final access.2)

instance (s : Sys W) (op : Op W) : Decidable (StartsLockout cfg s op) :=
  inferInstanceAs (Decidable (∃ _ ∈ _, _))

/-- Behind as many failures as the limit says, a key that fails starts a lockout. -/
def Bounded (cfg : Config W) (n : ℕ) (s : Sys W) (op : Op W) : Prop :=
  (maxAttempts cfg).toNat ≤ n → KeyFails (step cfg s op).2 → StartsLockout cfg s op

/-- The byte that counts one more failure than `n` is at the limit, and the answer has room. -/
def AtLimit (cfg : Config W) (n : ℕ) : Prop :=
  (maxAttempts cfg).toNat ≤ (n + 1) % 256 ∧ 3 ≤ cfg.txBufferSize

/-- The condition for a call. -/
def CountsUp (cfg : Config W) (n : ℕ) (s : Sys W) (op : Op W) : Prop :=
  (maxAttempts cfg).toNat ≤ n → KeyFails (step cfg s op).2 → AtLimit cfg n

/-- The stack with the failed keys since the last accepted one. -/
def countingKeys (cfg : Config W) : Sys W × ℕ → Op W → (Sys W × ℕ) × List Event :=
  recorded (step cfg) fun n s op => failuresAfter n (step cfg s op).2

/-! ### A call -/

theorem reached_chosen {service : Service W} (h : reached cfg d s = some service) :
    Chosen cfg (d.byte 0) service := by
  unfold reached at h
  split at h
  · exact (findService_iff _ _).mp h
  · cases h

theorem Chosen.of_core {sid : UInt8} {service : Service W} (h : Chosen cfg sid service)
    (hown : ∀ entry ∈ cfg.userServices, entry.sid ≠ sid) :
    service ∈ coreServices cfg ∧ service.sid = sid := by
  rcases h with ⟨before, entry, after, hsplit, -, hsid, -⟩ | ⟨-, hcore⟩
  · exact absurd hsid (hown entry (hsplit ▸ by simp))
  · exact hcore

theorem accessOf_runs (h : accessOf cfg s op = some (d, u)) : op = .inputSdu (.bytes d) ∧
    Runs cfg s d (coreService sidSecurityAccess 2 (handleSecurityAccess cfg) (some maskSub27)) u
      ((handleSecurityAccess cfg d).final u) ((handleSecurityAccess cfg d).outputs u) := by
  unfold accessOf at h
  split at h
  next d' =>
    split_ifs at h with hchecks
    obtain ⟨hsid, hidle, hans, hown⟩ := hchecks
    obtain ⟨service, hreached, hpair⟩ := Option.map_eq_some_iff.mp h
    obtain ⟨rfl, rfl⟩ := Prod.mk.inj hpair
    have hne : d'.bytes ≠ [] := by
      intro hnil
      unfold Sdu.byte at hsid
      rw [hnil] at hsid
      exact absurd hsid (by decide)
    rw [← hsid] at hown
    have hchosen := reached_chosen hreached
    obtain ⟨hcore, hserved⟩ := hchosen.of_core hown
    have hruns := Runs.of_reached hidle hans hne hreached hcore hown hserved
    obtain rfl := Option.some.inj (hruns.found (hserved.trans hsid))
    exact ⟨rfl, hruns⟩
  next => cases h

theorem Runs.accessOf {service : Service W} {v : Sys W} (h : Runs cfg s d service u v es)
    (hsid : service.sid = sidSecurityAccess) :
    Core.accessOf cfg s (.inputSdu (.bytes d)) = some (d, u) := by
  have hbyte : d.byte 0 = sidSecurityAccess := h.sid.symm.trans hsid
  have hown := h.own
  rw [hbyte] at hown
  unfold Core.accessOf
  dsimp only
  rw [if_pos ⟨hbyte, h.idle, h.request, hown⟩, h.reached, h.start]
  rfl

/-- What a call does to the delay and the counter. -/
inductive LockoutStep (cfg : Config W) (s : Sys W) (op : Op W) (es : List Event) (t : Sys W) :
    Prop where
  | aside (hnone : accessOf cfg s op = none) (hstate : t.ctx.lockout = s.ctx.lockout)
      (hkeys : keyResults es = [])
  | access (d : Sdu) (u : Sys W) (haccess : accessOf cfg s op = some (d, u))
      (hstart : u.ctx.lockout = s.ctx.lockout)
      (h : Access cfg ((getTime cfg).value u) u ((handleSecurityAccess cfg d).outputs u)
        ((handleSecurityAccess cfg d).final u))
      (hstate : t.ctx.lockout = ((handleSecurityAccess cfg d).final u).ctx.lockout)
      (hkeys : keyResults es = keyResults ((handleSecurityAccess cfg d).outputs u))
      (hmem : ∀ e ∈ (handleSecurityAccess cfg d).outputs u, e ∈ es)

theorem keyResults_none (h : ∀ e ∈ es, e.keyResult? = none) : keyResults es = [] :=
  List.filterMap_eq_nil_iff.mpr h

theorem Surround.keyResult {e : Event} (he : Surround cfg d e) : e.keyResult? = none := by
  cases e with
  | call c ret =>
    rcases he.2 with hlock | ⟨level, msg, rfl⟩ | ⟨sid, rfl⟩
    · cases c with
      | securityKey level key => exact absurd hlock Bool.false_ne_true
      | _ => rfl
    · rfl
    · rfl
  | _ => rfl

theorem Outside.lockout (h : Outside cfg d s es t) : t.ctx.lockout = s.ctx.lockout :=
  congrArg (fun m : Store => (m.securityDelayEnd, m.securityAttempts)) h.store

theorem Outside.keyResults (h : Outside cfg d s es t) : Core.keyResults es = [] :=
  keyResults_none fun e he => (h.events e he).keyResult

theorem OfHandler.keyResult {sid : UInt8} {e : Event} (hsid : sid ≠ sidSecurityAccess)
    (h : OfHandler cfg d sid e) : e.keyResult? = none := by
  cases e with
  | call c ret =>
    cases c with
    | securityKey level key =>
      rcases Allowed.service h with hservice | hshared
      · exact absurd (Option.some.inj hservice).symm hsid
      · exact absurd hshared Bool.false_ne_true
    | _ => rfl
  | _ => rfl

theorem OfProcess.keyResult {e : Event} (h : OfProcess cfg s e) : e.keyResult? = none := by
  rcases h with hsurround | ⟨-, hperiodic⟩
  · exact hsurround.keyResult
  · cases e with
    | call c ret =>
      cases c with
      | securityKey level key => exact absurd hperiodic Bool.false_ne_true
      | _ => rfl
    | _ => rfl

theorem step_lockout (cfg : Config W) (s : Sys W) (op : Op W) :
    LockoutStep cfg s op (step cfg s op).2 (step cfg s op).1 := by
  cases haccess : accessOf cfg s op with
  | some access =>
    obtain ⟨d, u⟩ := access
    obtain ⟨rfl, hruns⟩ := accessOf_runs haccess
    obtain ⟨pre, post, hes, hpre, hpost⟩ := hruns.split
    refine .access d u haccess hpre.lockout (securityAccess_access hruns.length u) hpost.lockout ?_ ?_
    · rw [hes, keyResults_append, keyResults_append, hpre.keyResults, hpost.keyResults,
        List.nil_append, List.append_nil]
    · intro e he
      rw [hes]
      exact List.mem_append_right _ (List.mem_append_left _ he)
  | none =>
    cases step_footprint cfg s op with
    | outside h => exact .aside haccess h.lockout h.keyResults
    | process hop hstore hevents =>
      refine .aside haccess ?_ (keyResults_none fun e he => (hevents e he).keyResult)
      rcases hstore with hstore | ⟨-, hstore⟩
      · exact congrArg (fun m : Store => (m.securityDelayEnd, m.securityAttempts)) hstore
      · exact congrArg (fun m : Store => (m.securityDelayEnd, m.securityAttempts)) hstore
    | handler d service pre mid post u v hop hruns hes hpre hpost =>
      have hsid : service.sid ≠ sidSecurityAccess := by
        intro hsid
        rw [hop, hruns.accessOf hsid] at haccess
        cases haccess
      have hmid : v.ctx.lockout = u.ctx.lockout := by
        obtain ⟨hdelay, hcount⟩ := hruns.work.lockout.resolve_left hsid
        exact Prod.ext hdelay hcount
      refine .aside haccess (hpost.lockout.trans (hmid.trans hpre.lockout)) ?_
      rw [hes, keyResults_append, keyResults_append, hpre.keyResults, hpost.keyResults,
        keyResults_none fun e he => (hruns.work.events e he).keyResult hsid]
      rfl

/-- The byte and the number of failed keys agree. -/
def FailuresCounted (n : ℕ) (s : Sys W) : Prop := s.ctx.securityAttempts.toNat = n % 256

theorem attempts_succ {attempts : UInt8} (h : attempts.toNat = n % 256) :
    (attempts + 1).toNat = (n + 1) % 256 := by
  have hone : (1 : UInt8).toNat = 1 := rfl
  rw [UInt8.toNat_add, h]
  omega

theorem afterKey_attempts (cfg : Config W) (now : UInt32) (attempts : UInt8) (ret : ℤ) :
    (afterKey cfg now attempts ret).2 = if ret = 0 then 0 else attempts + 1 := by
  unfold afterKey
  split_ifs
  · rfl
  · rfl
  · rfl

/-- One call counts the keys that fail in it. -/
theorem step_counts (cfg : Config W) (op : Op W) (hs : FailuresCounted n s) :
    FailuresCounted (failuresAfter n (step cfg s op).2) (step cfg s op).1 := by
  have hnone (c : Ctx) {es : List Event} (hkeys : keyResults es = [])
      (hc : c.securityAttempts = s.ctx.securityAttempts) :
      c.securityAttempts.toNat = failuresAfter n es % 256 := by
    unfold failuresAfter
    rw [hkeys, hc]
    exact hs
  cases step_lockout cfg s op with
  | aside _ hstate hkeys => exact hnone _ hkeys (congrArg Prod.snd hstate)
  | access d u haccess hstart h hend hkeys _ =>
    have hcount : u.ctx.securityAttempts = s.ctx.securityAttempts := congrArg Prod.snd hstart
    cases h with
    | locked _ hstate _ hquiet _ =>
      exact hnone _ (hkeys.trans hquiet) (congrArg Prod.snd ((hend.trans hstate).trans hstart))
    | noKey _ h =>
      exact hnone _ (hkeys.trans h.keys) ((congrArg Prod.snd (hend.trans h.lockout)).trans hcount)
    | key ret _ h _ =>
      have hafter : (step cfg s op).1.ctx.securityAttempts =
          if ret = 0 then 0 else s.ctx.securityAttempts + 1 := by
        rw [← hcount]
        exact (congrArg Prod.snd (hend.trans h.lockout)).trans (afterKey_attempts _ _ _ _)
      unfold FailuresCounted failuresAfter
      rw [hafter, hkeys, h.keys]
      change _ = (if ret = 0 then 0 else n + 1) % 256
      split_ifs
      · rfl
      · exact attempts_succ hs

/-- The key that the handler had evaluated is the one that failed. -/
theorem access_failed {now : UInt32} (h : Access cfg now s es t) (hfails : KeyFails es) :
    ∃ ret, ret ≠ 0 ∧ t.ctx.lockout = afterKey cfg now s.ctx.securityAttempts ret ∧
      refusalsOf es = if 3 ≤ cfg.txBufferSize then
        [(sidSecurityAccess, failedKeyNrc cfg s.ctx.securityAttempts ret)] else [] := by
  obtain ⟨ret, hret, hne⟩ := hfails
  cases h with
  | locked _ _ _ hkeys _ =>
    rw [hkeys] at hret
    cases hret
  | noKey _ h =>
    rw [h.keys] at hret
    cases hret
  | key ret' _ h hanswer =>
    rw [h.keys, List.mem_singleton] at hret
    subst hret
    exact ⟨ret, hne, h.lockout, hanswer hne⟩

theorem access_locksOut_iff {now : UInt32} (h : Access cfg now s es t) (hfails : KeyFails es) :
    LocksOut cfg now es t ↔
      maxAttempts cfg ≤ s.ctx.securityAttempts + 1 ∧ 3 ≤ cfg.txBufferSize := by
  obtain ⟨ret, hne, hlockout, hanswer⟩ := access_failed h hfails
  have hcount : t.ctx.securityAttempts = s.ctx.securityAttempts + 1 := by
    have hsnd := (congrArg Prod.snd hlockout).trans (afterKey_attempts _ _ _ _)
    rwa [if_neg hne] at hsnd
  constructor
  · intro hlocks
    have hlimit := hlocks.limit
    rw [hcount] at hlimit
    refine ⟨hlimit, ?_⟩
    by_contra htx
    have hsent := hlocks.answer
    rw [hanswer, if_neg htx] at hsent
    cases hsent
  · rintro ⟨hlimit, htx⟩
    constructor
    · exact hfails
    · rwa [hcount]
    · have hfst := congrArg Prod.fst hlockout
      unfold afterKey at hfst
      rwa [if_neg hne, if_pos hlimit] at hfst
    · rw [hanswer, if_pos htx]
      unfold failedKeyNrc
      rw [if_pos hlimit]
      exact List.mem_singleton.mpr rfl

/-- A key that fails starts a lockout exactly at the limit. -/
theorem startsLockout_iff (hs : FailuresCounted n s) (hfails : KeyFails (step cfg s op).2) :
    StartsLockout cfg s op ↔ AtLimit cfg n := by
  cases step_lockout cfg s op with
  | aside _ _ hkeys =>
    obtain ⟨ret, hret, -⟩ := hfails
    rw [hkeys] at hret
    cases hret
  | access d u haccess hstart h _ hkeys _ =>
    unfold KeyFails at hfails
    rw [hkeys] at hfails
    have hcount : u.ctx.securityAttempts = s.ctx.securityAttempts := congrArg Prod.snd hstart
    have hstarts : StartsLockout cfg s op ↔ LocksOut cfg ((getTime cfg).value u)
        ((handleSecurityAccess cfg d).outputs u) ((handleSecurityAccess cfg d).final u) := by
      unfold StartsLockout
      rw [haccess]
      simp
    rw [hstarts, access_locksOut_iff h hfails, hcount, UInt8.le_iff_toNat_le, attempts_succ hs]
    rfl

/-! ### The run -/

/-- A call evaluates at most one key. -/
theorem step_one_key (cfg : Config W) (s : Sys W) (op : Op W) :
    (keyResults (step cfg s op).2).length ≤ 1 := by
  cases step_lockout cfg s op with
  | aside _ _ hkeys =>
    rw [hkeys]
    exact Nat.zero_le 1
  | access d u _ _ h _ hkeys _ =>
    rw [hkeys]
    cases h with
    | locked _ _ _ hquiet _ =>
      rw [hquiet]
      exact Nat.zero_le 1
    | noKey _ h =>
      rw [h.keys]
      exact Nat.zero_le 1
    | key ret _ h _ =>
      rw [h.keys]
      exact Nat.le_refl 1

/-- What a lockout starts with. -/
theorem StartsLockout.parts (h : StartsLockout cfg s op) : KeyFails (step cfg s op).2 ∧
    maxAttempts cfg ≤ (step cfg s op).1.ctx.securityAttempts := by
  obtain ⟨access, haccess, hlocks⟩ := h
  cases step_lockout cfg s op with
  | aside hnone _ _ =>
    rw [hnone] at haccess
    cases haccess
  | access d u hfound _ _ hend hkeys _ =>
    rw [hfound] at haccess
    obtain rfl := Option.some.inj haccess
    constructor
    · unfold KeyFails
      rw [hkeys]
      exact hlocks.failed
    · have hsame : (step cfg s op).1.ctx.securityAttempts =
          ((handleSecurityAccess cfg d).final u).ctx.securityAttempts := congrArg Prod.snd hend
      rw [hsame]
      exact hlocks.limit

/-- A lockout leaves as many failures behind as the limit says. -/
theorem StartsLockout.failures (h : StartsLockout cfg s op) (hs : FailuresCounted n s) :
    (maxAttempts cfg).toNat ≤ failuresAfter n (step cfg s op).2 := by
  have hcounts := step_counts cfg op hs
  have hlimit := UInt8.le_iff_toNat_le.mp h.parts.2
  unfold FailuresCounted at hcounts
  omega

/-- Calls on the way from one lockout to the next. -/
structure BetweenLockouts (cfg : Config W) (s : Sys W) (first : Op W) (mid : List (Op W))
    (last : Op W) : Prop where
  starts : StartsLockout cfg s first
  quiet : Along (step cfg) (fun t op => ¬ StartsLockout cfg t op) (step cfg s first).1 mid
  ends : StartsLockout cfg (exec (step cfg) (step cfg s first).1 mid) last
  noSuccess : ∀ ret ∈ keyResults (trace (step cfg) (step cfg s first).1 (mid ++ [last])), ret ≠ 0

/-- Behind as many failures as the limit says, a stretch without a success and without a lockout has no
key evaluated. -/
theorem no_key_evaluated {ops : List (Op W)} (hs : FailuresCounted n s)
    (hn : (maxAttempts cfg).toNat ≤ n)
    (hcounts : Along (countingKeys cfg) (fun p op => CountsUp cfg p.2 p.1 op) (s, n) ops)
    (hquiet : Along (step cfg) (fun t op => ¬ StartsLockout cfg t op) s ops)
    (hfail : ∀ ret ∈ keyResults (trace (step cfg) s ops), ret ≠ 0) :
    keyResults (trace (step cfg) s ops) = [] := by
  induction ops generalizing s with
  | nil => rfl
  | cons op ops ih =>
    rw [trace_cons, keyResults_append] at hfail ⊢
    obtain ⟨hop, hrest⟩ := hcounts
    obtain ⟨hnot, hlater⟩ := hquiet
    have hnone : keyResults (step cfg s op).2 = [] := by
      apply List.eq_nil_iff_forall_not_mem.mpr
      intro ret hret
      have hfails : KeyFails (step cfg s op).2 :=
        ⟨ret, hret, hfail ret (List.mem_append_left _ hret)⟩
      exact hnot ((startsLockout_iff hs hfails).mpr (hop hn hfails))
    have hsame : failuresAfter n (step cfg s op).2 = n := by
      unfold failuresAfter
      rw [hnone]
      rfl
    have hnext := step_counts cfg op hs
    change Along _ _ ((step cfg s op).1, failuresAfter n (step cfg s op).2) ops at hrest
    rw [hsame] at hnext hrest
    rw [hnone, List.nil_append]
    exact ih hnext hrest hlater fun ret hret => hfail ret (List.mem_append_right _ hret)

/-- From one lockout to the next one key is evaluated. -/
theorem one_key_between {first last : Op W} {mid : List (Op W)} (hs : FailuresCounted n s)
    (hcounts : Along (countingKeys cfg) (fun p op => CountsUp cfg p.2 p.1 op)
      ((step cfg s first).1, failuresAfter n (step cfg s first).2) mid)
    (h : BetweenLockouts cfg s first mid last) :
    (keyResults (trace (step cfg) (step cfg s first).1 (mid ++ [last]))).length = 1 := by
  have hfail := h.noSuccess
  have hfirst := step_counts cfg first hs
  have hlimit := h.starts.failures hs
  rw [trace_append, keyResults_append] at hfail ⊢
  have hmid := no_key_evaluated hfirst hlimit hcounts h.quiet
    fun ret hret => hfail ret (List.mem_append_left _ hret)
  rw [hmid, List.nil_append, trace_cons, trace_nil, List.append_nil]
  obtain ⟨ret, hret, -⟩ := h.ends.parts.1
  have hone := step_one_key cfg (exec (step cfg) (step cfg s first).1 mid) last
  have hpos := List.length_pos_of_mem hret
  omega

/-- Brute-force bound. From `uds_init` on, a run keeps the bound exactly if every key that fails
behind as many failures as the limit says finds the byte at the limit, and then one key is evaluated
from one lockout to the next. -/
theorem brute_force_bound_iff (cfg : Config W) (b : Sys W) (ops : List (Op W)) :
    let start := (udsInit cfg).final b
    let KeepsCount := Along (countingKeys cfg) (fun p op => CountsUp cfg p.2 p.1 op) (start, 0) ops
    (Along (countingKeys cfg) (fun p op => Bounded cfg p.2 p.1 op) (start, 0) ops ↔ KeepsCount) ∧
      (KeepsCount → ∀ before first mid last after,
        ops = before ++ first :: (mid ++ last :: after) →
          let s := exec (step cfg) start before
          BetweenLockouts cfg s first mid last →
            (keyResults (trace (step cfg) (step cfg s first).1 (mid ++ [last]))).length = 1) := by
  intro start KeepsCount
  have hstart : FailuresCounted 0 start := by
    unfold FailuresCounted
    rw [(udsInit_parts cfg b).1]
    split_ifs
    · rfl
    · rfl
  let I : Sys W × ℕ → Prop := fun p => FailuresCounted p.2 p.1
  have hstep (p : Sys W × ℕ) (op : Op W) (hp : I p) : I (countingKeys cfg p op).1 :=
    step_counts cfg op hp
  have hiff (p : Sys W × ℕ) (op : Op W) (hp : I p) :
      Bounded cfg p.2 p.1 op ↔ CountsUp cfg p.2 p.1 op :=
    forall_congr' fun _ => forall_congr' fun hfails => startsLockout_iff hp hfails
  constructor
  · exact along_congr (I := I) (fun p op hp _ => hstep p op hp) hiff hstart
  · intro hkeeps before first mid last after hops s hbetween
    unfold KeepsCount at hkeeps
    rw [hops, along_append, along_cons, along_append] at hkeeps
    obtain ⟨-, -, hmid, -⟩ := hkeeps
    set p := exec (countingKeys cfg) (start, 0) before
    have hp : p.1 = s := (recorded_run _ start 0 before).1
    have hcounted : FailuresCounted p.2 s := by
      rw [← hp]
      exact exec_invariant (I := I) (C := fun _ _ => True) (fun p op hp _ => hstep p op hp) hstart
        (Along.trivial _ _)
    have hmid' : Along (countingKeys cfg) (fun p op => CountsUp cfg p.2 p.1 op)
        ((step cfg s first).1, failuresAfter p.2 (step cfg s first).2) mid := by
      rw [← hp]
      exact hmid
    exact one_key_between hcounted hmid' hbetween

/-- Every key is wrong, and the limit is 255. -/
def guessConfig : Config UInt32 :=
  { clockConfig with
    isSet := fun f => f = .fnSecurityKey
    app := fun _ _ w => (⟨1, []⟩, w)
    securityMaxAttempts := 255
    securityDelayMs := 10 }

/-- A wrong key. -/
def wrongKey : Op UInt32 := .inputSdu (.bytes ⟨[sidSecurityAccess, 0x02, 0xAB], by decide⟩)

/-- The keys up to the lockout, and the time until its end. -/
def guesses : List (Op UInt32) := List.replicate 255 wrongKey ++ [.elapse fun w => w + 20]

/-- The byte wraps: behind 255 failures another one is answered with NRC 0x35, and no delay runs. -/
theorem guess_unbounded :
    let start := ((udsInit guessConfig).final powerOn, 0)
    let p := exec (countingKeys guessConfig) start guesses
    sentOf (step guessConfig p.1 wrongKey).2 = [[0x7F, 0x27, 0x35]] ∧
      (step guessConfig p.1 wrongKey).1.ctx.lockout = (0, 0) ∧
        ¬ Along (countingKeys guessConfig) (fun p op => Bounded guessConfig p.2 p.1 op) start
          (guesses ++ [wrongKey]) := by
  intro start p
  have hlast : (p.2 = 255 ∧ keyResults (step guessConfig p.1 wrongKey).2 = [1]) ∧
      sentOf (step guessConfig p.1 wrongKey).2 = [[0x7F, 0x27, 0x35]] ∧
        (step guessConfig p.1 wrongKey).1.ctx.lockout = (0, 0) := by
    decide +kernel
  obtain ⟨⟨hcount, hkeys⟩, hsent, hlockout⟩ := hlast
  refine ⟨hsent, hlockout, ?_⟩
  rw [along_append, along_cons]
  rintro ⟨-, hbounded, -⟩
  have hfails : KeyFails (step guessConfig p.1 wrongKey).2 :=
    ⟨1, hkeys ▸ List.mem_singleton.mpr rfl, by decide⟩
  have hstarts := hbounded (by rw [hcount]; decide) hfails
  have hlimit := hstarts.parts.2
  generalize (step guessConfig p.1 wrongKey).1.ctx = c at hlockout hlimit
  have hzero : c.securityAttempts = 0 := congrArg Prod.snd hlockout
  rw [hzero] at hlimit
  exact absurd hlimit (by decide)

end UdsLib.Core
