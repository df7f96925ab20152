import UdsLib.Core.Persistence

/-! Where a security level comes from: from a key that the application accepted for it, with
nothing since then that takes a level back. -/
namespace UdsLib.Core
open Bytes Machine Prog

variable {W : Type} {cfg : Config W}

/-- The call brings a key for the level `level`, which the application accepts. -/
def KeyAccepted (cfg : Config W) (level : UInt8) (s : Sys W) (op : Op W) : Prop :=
  ∃ d key, op = .inputSdu (.bytes d) ∧ d.byte 0 = sidSecurityAccess ∧
    subFunction d = 2 * level.toNat ∧
    Event.call (.securityKey level key) 0 ∈ (step cfg s op).2

/-- The call is an accepted session request that changes the session or asks for the default
session. -/
def SessionReset (cfg : Config W) (s : Sys W) (op : Op W) : Prop :=
  ∃ d, op = .inputSdu (.bytes d) ∧ SessionAccepted (step cfg s op).2 d ∧
    ((step cfg s op).1.ctx.activeSession ≠ s.ctx.activeSession ∨
      subFunction d = sessionIdDefault.toNat)

/-- The call takes no level back and accepts no key for another level than `level`. -/
structure Undisturbed (cfg : Config W) (level : UInt8) (s : Sys W) (op : Op W) : Prop where
  inTime : ¬ TimesOut cfg s op
  sameSession : ¬ SessionReset cfg s op
  noOtherKey : ∀ other, other ≠ level → ¬ KeyAccepted cfg other s op

theorem mem_keysOf {level : UInt8} {es : List Event} :
    level ∈ keysOf es ↔ ∃ key, Event.call (.securityKey level key) 0 ∈ es := by
  unfold keysOf
  rw [List.mem_filterMap]
  constructor
  · rintro ⟨e, he, hlevel⟩
    unfold Event.keyLevel? at hlevel
    split at hlevel
    next level' key ret =>
      split_ifs at hlevel with hret
      obtain rfl := Option.some.inj hlevel
      exact ⟨key, hret ▸ he⟩
    next => cases hlevel
  · rintro ⟨key, he⟩
    exact ⟨_, he, rfl⟩

/-- A call into a level accepts its key, or finds the level and leaves it undisturbed. -/
theorem step_origin (hcore : ∀ entry ∈ cfg.userServices, entry.sid ≠ sidSessionControl)
    {level : UInt8} (hlevel : level ≠ 0) (s : Sys W) (op : Op W)
    (h : (step cfg s op).1.ctx.securityLevel = level) :
    KeyAccepted cfg level s op ∨ (s.ctx.securityLevel = level ∧ Undisturbed cfg level s op) := by
  have hother {keys : List UInt8} (hkeys : keysOf (step cfg s op).2 = keys) (other : UInt8)
      (hkey : KeyAccepted cfg other s op) : other ∈ keys := by
    obtain ⟨d, key, -, -, -, hcall⟩ := hkey
    exact hkeys ▸ mem_keysOf.mpr ⟨key, hcall⟩
  cases step_pair cfg s op with
  | kept hpair hsaved hkeys htime hsession =>
    right
    have hsame : (step cfg s op).1.ctx.activeSession = s.ctx.activeSession :=
      congrArg Prod.fst hpair
    refine ⟨(congrArg Prod.snd hpair).symm.trans h, htime, ?_, fun other _ hkey => ?_⟩
    · rintro ⟨d, hop, haccept, -⟩
      exact hsession hcore d hop haccept
    · exact nomatch hother hkeys other hkey
  | timedOut htime hpair hsaved hkeys =>
    exact absurd (h.symm.trans (congrArg Prod.snd hpair)) hlevel
  | session d hop hsid hpair hsaved hkeys =>
    right
    have hlevel' : (step cfg s op).1.ctx.securityLevel = (openSession d s.ctx.pair).2 :=
      congrArg Prod.snd hpair
    have hsession' : (step cfg s op).1.ctx.activeSession = d.byte 1 &&& 0x7F :=
      congrArg Prod.fst hpair
    have hkeep : ¬ (s.ctx.activeSession ≠ d.byte 1 &&& 0x7F ∨
        d.byte 1 &&& 0x7F = sessionIdDefault) := by
      intro hreset
      apply hlevel
      rw [← h, hlevel']
      exact if_pos hreset
    have hfound : s.ctx.securityLevel = level := by
      rw [← h, hlevel']
      exact (if_neg hkeep).symm
    refine ⟨hfound, ?_, ?_, fun other _ hkey => nomatch hother hkeys other hkey⟩
    · subst hop
      exact id
    · rintro ⟨d', hop', -, hreset⟩
      rw [hop] at hop'
      cases hop'
      apply hkeep
      rcases hreset with hchange | hdefault
      · left
        rw [hsession'] at hchange
        exact hchange.symm
      · exact Or.inr (UInt8.toNat_inj.mp hdefault)
  | key d level' hop hsid hsub hpair hsaved hkeys =>
    left
    have hsame : level' = level := (congrArg Prod.snd hpair).symm.trans h
    subst hsame
    obtain ⟨key, hcall⟩ := mem_keysOf.mp (hkeys ▸ List.mem_singleton.mpr rfl : level' ∈ keysOf _)
    exact ⟨d, key, hop, hsid, hsub, hcall⟩

/-- A start without a restored pair is locked. -/
theorem udsInit_locked {b : Sys W} (h : Event.call (.nvmLoad 2) 2 ∉ (udsInit cfg).outputs b) :
    ((udsInit cfg).final b).ctx.securityLevel = 0 := by
  obtain ⟨hfinal, hload⟩ := udsInit_parts cfg b
  have hnone : ¬ Restored cfg b := by
    rintro ⟨hset, hret⟩
    exact h (hret ▸ hload hset)
  rw [hfinal, if_neg hnone]
  rfl

/-- Security level provenance. From a start without a restored pair, a level above 0 goes back
to a call that brought its key and had it accepted. Since then the S3 timer has not run out, no
accepted session request has changed the session or asked for the default session, and no key
for another level was accepted. -/
theorem security_level_provenance (cfg : Config W) (b : Sys W) (ops : List (Op W)) (level : UInt8)
    (hfresh : Event.call (.nvmLoad 2) 2 ∉ (udsInit cfg).outputs b)
    (hcore : ∀ entry ∈ cfg.userServices, entry.sid ≠ sidSessionControl)
    (hlevel : 0 < level)
    (hreached : (exec (step cfg) ((udsInit cfg).final b) ops).ctx.securityLevel = level) :
    ∃ before op after, ops = before ++ op :: after ∧
      KeyAccepted cfg level (exec (step cfg) ((udsInit cfg).final b) before) op ∧
      Along (step cfg) (Undisturbed cfg level)
        (step cfg (exec (step cfg) ((udsInit cfg).final b) before) op).1 after := by
  have hne : level ≠ 0 := by
    rintro rfl
    exact absurd hlevel (by decide)
  have hstart : ¬ ((udsInit cfg).final b).ctx.securityLevel = level := by
    rw [udsInit_locked hfresh]
    exact hne.symm
  exact origin (P := fun s => s.ctx.securityLevel = level) (step_origin hcore hne) hstart hreached

/-- A key callback that accepts every key. -/
def keyConfig : Config Unit := { plainConfig with isSet := fun f => f = .fnSecurityKey }

def firstKey : Sdu := ⟨[0x27, 0x02, 0xAB], by decide⟩

theorem firstKey_provenance : ∃ before op after,
    [Op.inputSdu (.bytes firstKey), .process] = before ++ op :: after ∧
      KeyAccepted keyConfig 1 (exec (step keyConfig) (booted keyConfig) before) op ∧
      Along (step keyConfig) (Undisturbed keyConfig 1)
        (step keyConfig (exec (step keyConfig) (booted keyConfig) before) op).1 after :=
  security_level_provenance keyConfig ⟨Ctx.zero, fun _ => 0, fun _ => 0, ()⟩
    [.inputSdu (.bytes firstKey), .process] 1 (by decide) nofun (by decide) (by decide)

end UdsLib.Core
