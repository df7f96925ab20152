import UdsLib.Core.Attempts
import Mathlib.Logic.Lemmas

/-! How long a lockout lasts. The end of the delay is stored as a time of the 32-bit clock and compared
with it as a number, so the comparison is right only while the clock does not wrap on the way. -/
namespace UdsLib.Core
open Bytes Machine Prog Services

variable {W : Type} {cfg : Config W} {d : Sdu} {s u v : Sys W} {es : List Event} {op : Op W}
  {start now : UInt32}

/-- What is known of a lockout on the way: whether a request came at its end or later, and whether it
is over because another lockout or half a turn of the clock followed. -/
structure Watch where
  expired : Bool
  ended : Bool
  deriving DecidableEq

/-- The time since `start`. -/
def elapsed (start now : UInt32) : ℕ := (now - start).toNat

/-- Half a turn of the clock. -/
def halfTurn : ℕ := 2 ^ 31

/-- The watch on the lockout that began at `start`, behind a call. -/
def watch (cfg : Config W) (start : UInt32) (w : Watch) (s : Sys W) (op : Op W) : Watch :=
  match accessTime cfg s op with
  | none => w
  | some now =>
    { expired := w.expired || decide ((delayOf cfg).toNat ≤ elapsed start now)
      ended := w.ended || decide (halfTurn ≤ elapsed start now) || decide (StartsLockout cfg s op) }

/-- The stack with a watch on the lockout that began at `start`. -/
def watching (cfg : Config W) (start : UInt32) :
    Sys W × Watch → Op W → (Sys W × Watch) × List Event :=
  recorded (step cfg) (watch cfg start)

/-- The request is answered with NRC 0x37, and the application is not asked. -/
def TurnedOff (es : List Event) : Prop :=
  (sidSecurityAccess, nrcRequiredTimeDelay) ∈ refusalsOf es ∧ repliesOf es = []

instance (es : List Event) : Decidable (TurnedOff es) := inferInstanceAs (Decidable (_ ∧ _))

/-- While the lockout is watched, a request before its end is turned off, and NRC 0x37 goes out from
its end on only where the application chooses it. -/
def Lasts (cfg : Config W) (start : UInt32) (p : Sys W × Watch) (op : Op W) : Prop :=
  ∀ access ∈ accessOf cfg p.1 op, p.2.ended = false →
    let time := elapsed start ((getTime cfg).value access.2)
    let es := (handleSecurityAccess cfg access.1).outputs access.2
    time < halfTurn →
      (time < (delayOf cfg).toNat → TurnedOff es) ∧ ((delayOf cfg).toNat ≤ time → PassedOn es)

instance (p : Sys W × Watch) (op : Op W) : Decidable (Lasts cfg start p op) :=
  inferInstanceAs (Decidable (∀ _ ∈ _, _ → _ → _))

/-- The clock reaches `time` and the end of the delay in the same turn. -/
def SameTurn (cfg : Config W) (start : UInt32) (time : ℕ) : Prop :=
  (start.toNat + time) / 2 ^ 32 = (start.toNat + (delayOf cfg).toNat) / 2 ^ 32

instance (time : ℕ) : Decidable (SameTurn cfg start time) := inferInstanceAs (Decidable (_ = _))

/-- The condition for a request: the clock wraps neither or both times, or the delay has been found to
be over before. -/
def InTurn (cfg : Config W) (start : UInt32) (p : Sys W × Watch) (op : Op W) : Prop :=
  ∀ access ∈ accessOf cfg p.1 op, p.2.ended = false →
    let time := elapsed start ((getTime cfg).value access.2)
    time < halfTurn →
      if time < (delayOf cfg).toNat then
        3 ≤ cfg.txBufferSize ∧ p.2.expired = false ∧ SameTurn cfg start time
      else ¬ 3 ≤ cfg.txBufferSize ∨ p.2.expired = true ∨ SameTurn cfg start time

instance (p : Sys W × Watch) (op : Op W) : Decidable (InTurn cfg start p op) :=
  inferInstanceAs (Decidable (∀ _ ∈ _, _ → _ → _))

/-! ### The clock -/

/-- Two times less than half a turn behind `start` are compared rightly exactly in the same turn. -/
theorem wrapped_lt_iff {start time delay : ℕ} (htime : time < 2 ^ 31) (hdelay : delay < 2 ^ 31) :
    ((start + time) % 2 ^ 32 < (start + delay) % 2 ^ 32 ↔ time < delay) ↔
      (start + time) / 2 ^ 32 = (start + delay) / 2 ^ 32 := by
  omega

theorem now_toNat (start now : UInt32) :
    now.toNat = (start.toNat + elapsed start now) % 2 ^ 32 := by
  have hsum : start + (now - start) = now := by
    rw [UInt32.add_comm, UInt32.sub_add_cancel]
  have htoNat := congrArg UInt32.toNat hsum
  rw [UInt32.toNat_add] at htoNat
  exact htoNat.symm

theorem locked_iff (c : Ctx) (now : UInt32) : Locked c now ↔ now < c.securityDelayEnd := by
  constructor
  · exact fun h => h.2
  · intro h
    refine ⟨fun hzero => ?_, h⟩
    rw [hzero] at h
    exact absurd h (UInt32.not_lt.mpr (UInt32.zero_le))

/-- With the end of the delay as it was set, the handler finds the delay running when it does exactly
in the same turn. -/
theorem locked_right_iff {c : Ctx} (hend : c.securityDelayEnd = start + delayOf cfg)
    (hdelay : (delayOf cfg).toNat < halfTurn) (htime : elapsed start now < halfTurn) :
    (Locked c now ↔ elapsed start now < (delayOf cfg).toNat) ↔
      SameTurn cfg start (elapsed start now) := by
  rw [locked_iff, hend, UInt32.lt_iff_toNat_lt, UInt32.toNat_add, now_toNat start now]
  exact wrapped_lt_iff htime hdelay

/-! ### A request -/

theorem access_turnedOff_iff (h : Access cfg now u es v) :
    TurnedOff es ↔ Locked u.ctx now ∧ 3 ≤ cfg.txBufferSize := by
  have hopen (hnot : ¬ Locked u.ctx now) (hpassed : PassedOn es) :
      TurnedOff es ↔ Locked u.ctx now ∧ 3 ≤ cfg.txBufferSize := by
    refine iff_of_false ?_ fun h => hnot h.1
    rintro ⟨hsent, hnone⟩
    obtain ⟨ret, hret, -⟩ := hpassed hsent
    rw [hnone] at hret
    cases hret
  cases h with
  | locked hlocked _ hreply _ hanswer =>
    unfold TurnedOff
    rw [hanswer]
    split_ifs with htx
    · exact iff_of_true ⟨List.mem_singleton.mpr rfl, hreply⟩ ⟨hlocked, htx⟩
    · exact iff_of_false (fun h => absurd h.1 (List.not_mem_nil)) fun h => htx h.2
  | noKey hnot h => exact hopen hnot h.passed
  | key ret hnot h _ => exact hopen hnot h.passed

theorem access_passedOn_iff (h : Access cfg now u es v) :
    PassedOn es ↔ ¬ Locked u.ctx now ∨ ¬ 3 ≤ cfg.txBufferSize := by
  cases h with
  | locked hlocked _ hreply _ hanswer =>
    unfold PassedOn
    rw [hanswer, hreply]
    split_ifs with htx
    · refine iff_of_false (fun h => ?_) fun h => h.elim (· hlocked) (· htx)
      obtain ⟨ret, hret, -⟩ := h (List.mem_singleton.mpr rfl)
      cases hret
    · exact iff_of_true nofun (.inr htx)
  | noKey hnot h => exact iff_of_true h.passed (.inl hnot)
  | key ret hnot h _ => exact iff_of_true h.passed (.inl hnot)

/-- The end of the delay is as it was set and no request has found the delay over, or one has. -/
def EndKnown (cfg : Config W) (start : UInt32) (expired : Bool) (c : Ctx) : Prop :=
  if expired then c.securityDelayEnd = 0 else c.securityDelayEnd = start + delayOf cfg

/-- The handler finds the delay running exactly if no request has found it over and the end of the
delay is read rightly. -/
theorem locked_known_iff {c : Ctx} {expired : Bool} (hend : EndKnown cfg start expired c)
    (hdelay : (delayOf cfg).toNat < halfTurn) (htime : elapsed start now < halfTurn) :
    Locked c now ↔ expired = false ∧
      (elapsed start now < (delayOf cfg).toNat ↔ SameTurn cfg start (elapsed start now)) := by
  unfold EndKnown at hend
  cases expired with
  | true =>
    refine iff_of_false (fun h => h.1 hend) fun h => Bool.false_ne_true h.1.symm
  | false =>
    have hright := iff_assoc.mp (locked_right_iff hend hdelay htime)
    rw [hright, eq_self_iff_true, true_and]

/-- What a request is to be answered with, and the condition for it. -/
theorem request_iff {expired : Bool} (h : Access cfg now u es v)
    (hend : ¬ 3 ≤ cfg.txBufferSize ∨ EndKnown cfg start expired u.ctx)
    (hdelay : (delayOf cfg).toNat < halfTurn) (htime : elapsed start now < halfTurn) :
    ((elapsed start now < (delayOf cfg).toNat → TurnedOff es) ∧
      ((delayOf cfg).toNat ≤ elapsed start now → PassedOn es)) ↔
    if elapsed start now < (delayOf cfg).toNat then
      3 ≤ cfg.txBufferSize ∧ expired = false ∧ SameTurn cfg start (elapsed start now)
    else ¬ 3 ≤ cfg.txBufferSize ∨ expired = true ∨ SameTurn cfg start (elapsed start now) := by
  have hlocked : 3 ≤ cfg.txBufferSize → (Locked u.ctx now ↔ expired = false ∧
      (elapsed start now < (delayOf cfg).toNat ↔ SameTurn cfg start (elapsed start now))) :=
    fun htx => locked_known_iff (hend.resolve_left (not_not_intro htx)) hdelay htime
  have hexpired : expired = true ↔ ¬ expired = false := by
    rw [Bool.not_eq_false]
  rw [access_turnedOff_iff h, access_passedOn_iff h, ← Nat.not_lt, hexpired]
  generalize Locked u.ctx now = Locks at hlocked ⊢
  generalize SameTurn cfg start (elapsed start now) = Same at hlocked ⊢
  split_ifs with hearly
  · simp only [hearly, forall_true_left, not_true, IsEmpty.forall_iff, and_true, true_iff] at hlocked ⊢
    rw [and_comm]
    exact and_congr_right hlocked
  · simp only [hearly, IsEmpty.forall_iff, not_false_iff, forall_true_left, true_and, false_iff] at hlocked ⊢
    by_cases htx : 3 ≤ cfg.txBufferSize
    · simp only [hlocked htx, htx, not_true, or_false, false_or, not_and_or, not_not]
    · simp only [htx, not_false_iff, or_true, true_or]

/-! ### The run -/

/-- What is known of the lockout on the way. -/
def Watched (cfg : Config W) (start : UInt32) (p : Sys W × Watch) : Prop :=
  p.2.ended = true ∨ ¬ 3 ≤ cfg.txBufferSize ∨ EndKnown cfg start p.2.expired p.1.ctx

theorem EndKnown.congr {expired : Bool} {c c' : Ctx} (h : EndKnown cfg start expired c)
    (hc : c'.lockout = c.lockout) : EndKnown cfg start expired c' := by
  have hsame : c'.securityDelayEnd = c.securityDelayEnd := congrArg Prod.fst hc
  unfold EndKnown
  rw [hsame]
  exact h

theorem lasts_iff {p : Sys W × Watch} (hdelay : (delayOf cfg).toNat < halfTurn)
    (hp : Watched cfg start p) : Lasts cfg start p op ↔ InTurn cfg start p op := by
  unfold Lasts InTurn
  refine forall_congr' fun access => forall_congr' fun haccess => forall_congr' fun hover => ?_
  refine forall_congr' fun htime => ?_
  cases step_lockout cfg p.1 op with
  | aside hnone _ _ =>
    rw [hnone] at haccess
    cases haccess
  | access d u hfound hstart h _ _ _ =>
    rw [hfound] at haccess
    obtain rfl := Option.some.inj haccess
    have hend : ¬ 3 ≤ cfg.txBufferSize ∨ EndKnown cfg start p.2.expired u.ctx :=
      (hp.resolve_left (Bool.eq_false_iff.mp hover)).imp_right (EndKnown.congr · hstart)
    exact request_iff h hend hdelay htime

/-- A request that does not find the delay running leaves none behind, if it starts no lockout. -/
theorem access_end (h : Access cfg now u es v) (hopen : ¬ Locked u.ctx now)
    (htx : 3 ≤ cfg.txBufferSize) (hno : ¬ LocksOut cfg now es v) :
    v.ctx.securityDelayEnd = 0 := by
  have hall := h
  cases h with
  | locked hlocked _ _ _ _ => exact absurd hlocked hopen
  | noKey _ h => exact congrArg Prod.fst h.lockout
  | key ret _ h _ =>
    have hfst : v.ctx.securityDelayEnd = (afterKey cfg now u.ctx.securityAttempts ret).1 :=
      congrArg Prod.fst h.lockout
    rw [hfst]
    unfold afterKey
    split_ifs with hret hlimit
    · rfl
    · have hfails : KeyFails es := ⟨ret, h.keys ▸ List.mem_singleton.mpr rfl, hret⟩
      exact absurd ((access_locksOut_iff hall hfails).mpr ⟨hlimit, htx⟩) hno
    · rfl

/-- A request under the condition leaves behind what is known. -/
theorem request_known {expired : Bool} (h : Access cfg now u es v)
    (hend : EndKnown cfg start expired u.ctx) (hdelay : (delayOf cfg).toNat < halfTurn)
    (htime : elapsed start now < halfTurn) (htx : 3 ≤ cfg.txBufferSize)
    (hno : ¬ LocksOut cfg now es v)
    (hturn : if elapsed start now < (delayOf cfg).toNat then
        3 ≤ cfg.txBufferSize ∧ expired = false ∧ SameTurn cfg start (elapsed start now)
      else ¬ 3 ≤ cfg.txBufferSize ∨ expired = true ∨ SameTurn cfg start (elapsed start now)) :
    EndKnown cfg start (expired || decide ((delayOf cfg).toNat ≤ elapsed start now)) v.ctx := by
  have hlocked := locked_known_iff hend hdelay htime
  by_cases hearly : elapsed start now < (delayOf cfg).toNat
  · rw [if_pos hearly] at hturn
    obtain ⟨-, hfresh, hsame⟩ := hturn
    have hruns : Locked u.ctx now := hlocked.mpr ⟨hfresh, iff_of_true hearly hsame⟩
    rw [decide_eq_false (Nat.not_le.mpr hearly), Bool.or_false]
    cases h with
    | locked _ hstate _ _ _ => exact hend.congr hstate
    | noKey hopen _ => exact absurd hruns hopen
    | key _ hopen _ _ => exact absurd hruns hopen
  · rw [if_neg hearly] at hturn
    have hopen : ¬ Locked u.ctx now := by
      intro hruns
      obtain ⟨hfresh, hiff⟩ := hlocked.mp hruns
      rcases hturn with hroom | hexpired | hsame
      · exact hroom htx
      · exact Bool.false_ne_true (hfresh.symm.trans hexpired)
      · exact hearly (hiff.mpr hsame)
    rw [decide_eq_true (Nat.not_lt.mp hearly), Bool.or_true]
    exact access_end h hopen htx hno

theorem watched_step {p : Sys W × Watch} (hdelay : (delayOf cfg).toNat < halfTurn)
    (hp : Watched cfg start p) (hturn : InTurn cfg start p op) :
    Watched cfg start (watching cfg start p op).1 := by
  change Watched cfg start ((step cfg p.1 op).1, watch cfg start p.2 p.1 op)
  cases step_lockout cfg p.1 op with
  | aside hnone hstate _ =>
    have hwatch : watch cfg start p.2 p.1 op = p.2 := by
      unfold watch accessTime
      rw [hnone]
      rfl
    rw [hwatch]
    exact hp.imp_right fun h => h.imp_right (EndKnown.congr · hstate)
  | access d u hfound hstart h hstate _ _ =>
    have hwatch : watch cfg start p.2 p.1 op =
        { expired := p.2.expired ||
            decide ((delayOf cfg).toNat ≤ elapsed start ((getTime cfg).value u))
          ended := p.2.ended || decide (halfTurn ≤ elapsed start ((getTime cfg).value u)) ||
            decide (StartsLockout cfg p.1 op) } := by
      unfold watch accessTime
      rw [hfound]
      rfl
    rw [hwatch]
    by_cases htx : 3 ≤ cfg.txBufferSize
    · unfold Watched
      by_cases hover : (p.2.ended || decide (halfTurn ≤ elapsed start ((getTime cfg).value u)) ||
          decide (StartsLockout cfg p.1 op)) = true
      · exact .inl hover
      simp only [Bool.or_eq_true, decide_eq_true_eq, not_or] at hover
      obtain ⟨⟨hwatched, hhalf⟩, hnone⟩ := hover
      have hknown : EndKnown cfg start p.2.expired u.ctx :=
        ((hp.resolve_left hwatched).resolve_left (not_not_intro htx)).congr hstart
      have hcond := hturn _ hfound (Bool.eq_false_iff.mpr hwatched) (Nat.not_le.mp hhalf)
      have hafter := request_known h hknown hdelay (Nat.not_le.mp hhalf) htx
        (fun hlocks => hnone ⟨_, hfound, hlocks⟩) hcond
      exact .inr (.inr (hafter.congr hstate))
    · exact .inr (.inl htx)

theorem StartsLockout.delay (h : StartsLockout cfg s op) (htime : accessTime cfg s op = some start) :
    (step cfg s op).1.ctx.securityDelayEnd = start + delayOf cfg := by
  obtain ⟨access, haccess, hlocks⟩ := h
  unfold accessTime at htime
  rw [haccess] at htime
  have hstart := Option.some.inj htime
  cases step_lockout cfg s op with
  | aside hnone _ _ =>
    rw [hnone] at haccess
    cases haccess
  | access d u hfound _ _ hend _ _ =>
    rw [hfound] at haccess
    obtain rfl := Option.some.inj haccess
    have hsame : (step cfg s op).1.ctx.securityDelayEnd =
        ((handleSecurityAccess cfg d).final u).ctx.securityDelayEnd := congrArg Prod.fst hend
    rw [hsame, hlocks.delay]
    exact congrArg (· + delayOf cfg) hstart

/-- How long a lockout lasts. After a call that starts a lockout at the time `start`, with a delay of
less than half a turn of the clock, every request of a run finds the delay as it is to be exactly if
the run meets the condition. -/
theorem lockout_lasts_iff (cfg : Config W) (s : Sys W) (op : Op W) (start : UInt32)
    (htime : accessTime cfg s op = some start) (hstarts : StartsLockout cfg s op)
    (hdelay : (delayOf cfg).toNat < halfTurn) (ops : List (Op W)) :
    let p : Sys W × Watch := ((step cfg s op).1, ⟨false, false⟩)
    Along (watching cfg start) (Lasts cfg start) p ops ↔
      Along (watching cfg start) (InTurn cfg start) p ops := by
  intro p
  have hp : Watched cfg start p := .inr (.inr (hstarts.delay htime))
  have hiff (q : Sys W × Watch) (op : Op W) (hq : Watched cfg start q) :
      InTurn cfg start q op ↔ Lasts cfg start q op := (lasts_iff hdelay hq).symm
  exact (along_congr (fun _ _ => watched_step hdelay) hiff hp).symm

/-- Every key is wrong, and the first one starts a lockout of 10 ms. -/
def lockConfig : Config UInt32 := { guessConfig with securityMaxAttempts := 1 }

/-- The stack at the time `start`. -/
def bootedAt (start : UInt32) : Sys UInt32 :=
  exec (step lockConfig) ((udsInit lockConfig).final powerOn) [.elapse fun _ => start]

/-- Wrong keys 5 ms and 10 ms after the lockout. -/
def laterKeys : List (Op UInt32) :=
  [.elapse fun w => w + 5, wrongKey, .elapse fun w => w + 5, wrongKey]

theorem laterKeys_lockout :
    let locked := (step lockConfig (bootedAt 100) wrongKey).1
    sentOf (trace (step lockConfig) locked laterKeys) = [[0x7F, 0x27, 0x37], [0x7F, 0x27, 0x36]] ∧
      Along (watching lockConfig 100) (Lasts lockConfig 100) (locked, ⟨false, false⟩) laterKeys := by
  intro locked
  constructor
  · decide
  · exact (lockout_lasts_iff lockConfig (bootedAt 100) wrongKey 100 (by decide) (by decide)
      (by decide) laterKeys).mpr (by decide)

/-- Around the wrap of the clock a lockout is open at once, or it comes back long after its end. -/
theorem wrapped_lockout :
    let start : UInt32 := 0xFFFFFFFB
    let long : UInt32 := 0x90000000
    let after (time : UInt32) := (step lockConfig (bootedAt time) wrongKey).1
    let late : List (Op UInt32) := [.elapse fun w => w + 0x70000000, wrongKey]
    sentOf (step lockConfig (after start) wrongKey).2 = [[0x7F, 0x27, 0x36]] ∧
      ¬ Along (watching lockConfig start) (Lasts lockConfig start) (after start, ⟨false, false⟩)
        [wrongKey] ∧
      sentOf (trace (step lockConfig) (after long) late) = [[0x7F, 0x27, 0x37]] ∧
      ¬ Along (watching lockConfig long) (Lasts lockConfig long) (after long, ⟨false, false⟩) late := by
  decide

end UdsLib.Core
