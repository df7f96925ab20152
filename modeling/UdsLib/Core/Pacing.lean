import UdsLib.Core.Lockout
import UdsLib.Core.Timers

/-! The pace of the periodic messages. A slot holds the time of its next message as a time of the 32-bit
clock, which the scheduler compares with the clock as a number, so the pace is right only while the clock
does not wrap between a message and the next one. -/
namespace UdsLib.Core
open Bytes Machine Prog Services

variable {W : Type} {cfg : Config W} {s : Sys W} {clock : W → ℕ} {i : Fin 8}

/-- What is known of the id in a slot: when it was sent last since it is registered with its rate, and when
`uds_process` was called last. -/
structure Beat where
  sent : Option ℕ
  seen : ℕ
  deriving DecidableEq

/-- The time of a call of `uds_process`, in ms. -/
def processMs (cfg : Config W) (clock : W → ℕ) (s : Sys W) : ℕ := clock ((mutexLock cfg).final s).world

/-- The interval of a slot, in ms. -/
def intervalMs (c : Ctx) (i : Fin 8) : ℕ := (intervalOf (c.periodicRates i)).toNat

/-- The history of a slot behind a call. -/
def beat (cfg : Config W) (clock : W → ℕ) (i : Fin 8) (h : Beat) (s : Sys W) (op : Op W) : Beat :=
  let r := step cfg s op
  match op with
  | .process =>
    { sent := if s.ctx.periodicIds i ∈ idsSent r.2 then some (processMs cfg clock s) else h.sent
      seen := processMs cfg clock s }
  | _ =>
    { h with
      sent :=
        if r.1.ctx.periodicIds i = s.ctx.periodicIds i ∧ r.1.ctx.periodicRates i = s.ctx.periodicRates i
          then h.sent else none }

/-- The stack with the history of a slot. -/
abbrev pacing (cfg : Config W) (clock : W → ℕ) (i : Fin 8) :
    Sys W × Beat → Op W → (Sys W × Beat) × List Event :=
  recorded (step cfg) (beat cfg clock i)

/-- The clock does not go back between the calls of `uds_process`. -/
def Advances (cfg : Config W) (clock : W → ℕ) (p : Sys W × Beat) : Op W → Prop
  | .process => p.2.seen ≤ processMs cfg clock p.1
  | _ => True

/-- A call of `uds_process` with nothing pending sends the id of the slot at most once, not before its
interval is over since it was sent last, and then at the latest for half a turn of the clock. -/
def Paced (cfg : Config W) (clock : W → ℕ) (i : Fin 8) (p : Sys W × Beat) : Op W → Prop
  | .process => p.1.ctx.p2MsgPending = false →
    let id := p.1.ctx.periodicIds i
    let ids := idsSent (step cfg p.1 .process).2
    let now := processMs cfg clock p.1
    ids.count id ≤ 1 ∧ ∀ last ∈ p.2.sent,
      (id ∈ ids → last + intervalMs p.1.ctx i ≤ now) ∧
        (last + intervalMs p.1.ctx i ≤ now → now < last + halfTurn → id ∈ ids)
  | _ => True

/-- The condition for a call: within half a turn of the clock since the last message, the call is in the
turn in which the interval is over, and the count of ids is not 0 where the message is due. -/
def InPhase (cfg : Config W) (clock : W → ℕ) (i : Fin 8) (p : Sys W × Beat) : Op W → Prop
  | .process => p.1.ctx.p2MsgPending = false → ∀ last ∈ p.2.sent,
    let due := last + intervalMs p.1.ctx i
    let now := processMs cfg clock p.1
    now < last + halfTurn →
      if p.1.ctx.periodicCount = 0 then now < due else now / 2 ^ 32 = due / 2 ^ 32
  | _ => True

instance (p : Sys W × Beat) : (op : Op W) → Decidable (Advances cfg clock p op)
  | .process => inferInstanceAs (Decidable (_ ≤ _))
  | .inputSdu _ | .clientRequest _ _ _ | .fill _ _ | .sendResponse _ | .sendNrc _ _ | .elapse _ =>
    isTrue trivial

instance (p : Sys W × Beat) : (op : Op W) → Decidable (InPhase cfg clock i p op)
  | .process => inferInstanceAs (Decidable (_ → ∀ _ ∈ _, _ → _))
  | .inputSdu _ | .clientRequest _ _ _ | .fill _ _ | .sendResponse _ | .sendNrc _ _ | .elapse _ =>
    isTrue trivial

/-! ### One call -/

theorem mem_dueSlots {c : Ctx} {now : UInt32} {works : Bool} :
    i ∈ dueSlots c now works ↔ works = true ∧ c.periodicCount > 0 ∧ Due c now i := by
  simp [dueSlots]

/-- The id of a slot is sent for that slot only. -/
theorem id_sent_iff {c : Ctx} {now : UInt32} {works : Bool} (hdistinct : c.slots.Distinct) :
    c.periodicIds i ∈ (dueSlots c now works).map c.periodicIds ↔ i ∈ dueSlots c now works := by
  constructor
  · intro h
    obtain ⟨j, hj, hid⟩ := List.mem_map.mp h
    have hused : c.periodicIds j ≠ 0 := (mem_dueSlots.mp hj).2.2.1
    have hsame : j = i := hdistinct j i hused hid
    rwa [hsame] at hj
  · exact List.mem_map_of_mem

theorem sent_once {c : Ctx} {now : UInt32} {works : Bool} (hdistinct : c.slots.Distinct) (id : UInt8) :
    ((dueSlots c now works).map c.periodicIds).count id ≤ 1 := by
  have hslots : (dueSlots c now works).Nodup := (List.nodup_finRange 8).filter _
  have hids : ((dueSlots c now works).map c.periodicIds).Nodup := by
    apply hslots.map_on
    intro j hj k _ hjk
    exact hdistinct j k (mem_dueSlots.mp hj).2.2.1 hjk
  exact List.nodup_iff_count_le_one.mp hids id

theorem process_slots (cfg : Config W) (s : Sys W) :
    (step cfg s .process).1.ctx.slots = s.ctx.slots := by
  let slots (r : Store) : Slots := ⟨r.periodicIds, r.periodicRates, r.periodicCount⟩
  cases step_footprint cfg s .process with
  | outside h => exact outside_slots h
  | process hop hstore hevents =>
    rcases hstore with hstore | ⟨-, hstore⟩
    · exact congrArg slots hstore
    · exact congrArg slots hstore
  | handler d service pre mid post u v hop => cases hop

theorem interval_le (c : Ctx) (i : Fin 8) : intervalMs c i ≤ 1000 := by
  unfold intervalMs intervalOf
  split_ifs
  · decide
  · decide
  · decide

/-! ### The history -/

/-- The timer of a slot stands at the end of the interval since its last message. -/
structure Timed (i : Fin 8) (p : Sys W × Beat) : Prop where
  distinct : p.1.ctx.slots.Distinct
  seen : ∀ last ∈ p.2.sent, last ≤ p.2.seen
  used : ∀ last ∈ p.2.sent, p.1.ctx.periodicIds i ≠ 0
  timer : ∀ last ∈ p.2.sent, p.1.ctx.periodicTimers i =
    UInt32.ofNat last + intervalOf (p.1.ctx.periodicRates i)

/-- The clock shows the low 32 bits of the time. -/
def ShowsTime (cfg : Config W) (clock : W → ℕ) : Prop :=
  ∀ w, (cfg.getTimeMs w).1 = UInt32.ofNat (clock w)

theorem processTime_eq (hclock : ShowsTime cfg clock) (s : Sys W) :
    processTime cfg s = UInt32.ofNat (processMs cfg clock s) :=
  hclock ((mutexLock cfg).final s).world

theorem timed_process (hclock : ShowsTime cfg clock) (hread : ReadsData cfg) {p : Sys W × Beat}
    (hp : Timed i p) (hadvances : Advances cfg clock p .process) :
    Timed i (pacing cfg clock i p .process).1 := by
  have hsends := process_sends hread p.1
  have hslots := process_slots cfg p.1
  have hids : (step cfg p.1 .process).1.ctx.periodicIds = p.1.ctx.periodicIds := congrArg Slots.ids hslots
  have hrates : (step cfg p.1 .process).1.ctx.periodicRates = p.1.ctx.periodicRates :=
    congrArg Slots.rates hslots
  have hdistinct : (step cfg p.1 .process).1.ctx.slots.Distinct := by
    rw [hslots]
    exact hp.distinct
  have htimer := hsends.timers i
  have hsent : p.1.ctx.periodicIds i ∈ idsSent (step cfg p.1 .process).2 ↔
      i ∈ dueSlots p.1.ctx (processTime cfg p.1) (schedules cfg p.1) := by
    rw [hsends.sent]
    exact id_sent_iff hp.distinct
  change Timed i ((step cfg p.1 .process).1, beat cfg clock i p.2 p.1 .process)
  unfold beat
  dsimp only
  by_cases hi : p.1.ctx.periodicIds i ∈ idsSent (step cfg p.1 .process).2
  · rw [if_pos hi]
    rw [if_pos (hsent.mp hi), processTime_eq hclock] at htimer
    have hused : p.1.ctx.periodicIds i ≠ 0 := (mem_dueSlots.mp (hsent.mp hi)).2.2.1
    constructor
    · exact hdistinct
    · intro last hlast
      exact (Option.some.inj hlast).ge
    · intro last hlast
      rw [hids]
      exact hused
    · intro last hlast
      rw [← Option.some.inj hlast, hrates]
      exact htimer
  · rw [if_neg hi]
    rw [if_neg fun hdue => hi (hsent.mpr hdue)] at htimer
    constructor
    · exact hdistinct
    · exact fun last hlast => (hp.seen last hlast).trans hadvances
    · intro last hlast
      rw [hids]
      exact hp.used last hlast
    · intro last hlast
      rw [htimer, hrates]
      exact hp.timer last hlast

theorem timed_step (hclock : ShowsTime cfg clock) (hread : ReadsData cfg) {p : Sys W × Beat} (op : Op W)
    (hp : Timed i p) (hadvances : Advances cfg clock p op) : Timed i (pacing cfg clock i p op).1 := by
  by_cases hop : op = .process
  · subst hop
    exact timed_process hclock hread hp hadvances
  · have hbeat : beat cfg clock i p.2 p.1 op =
        { p.2 with sent :=
            if (step cfg p.1 op).1.ctx.periodicIds i = p.1.ctx.periodicIds i ∧
                (step cfg p.1 op).1.ctx.periodicRates i = p.1.ctx.periodicRates i
              then p.2.sent else none } := by
      cases op with
      | process => exact absurd rfl hop
      | _ => rfl
    have hdistinct : (step cfg p.1 op).1.ctx.slots.Distinct := step_distinct op hp.distinct
    change Timed i ((step cfg p.1 op).1, beat cfg clock i p.2 p.1 op)
    rw [hbeat]
    split_ifs with hsame
    · constructor
      · exact hdistinct
      · exact hp.seen
      · intro last hlast
        rw [hsame.1]
        exact hp.used last hlast
      · intro last hlast
        have hkept : (step cfg p.1 op).1.ctx.periodicTimers i = p.1.ctx.periodicTimers i :=
          step_timers op hop (hp.used last hlast)
        rw [hkept, hsame.2]
        exact hp.timer last hlast
    · exact ⟨hdistinct, nofun, nofun, nofun⟩

/-! ### The pace -/

/-- The comparison of the scheduler, in ms. -/
theorem due_iff (hclock : ShowsTime cfg clock) {p : Sys W × Beat} (hp : Timed i p) {last : ℕ}
    (hlast : last ∈ p.2.sent) : Due p.1.ctx (processTime cfg p.1) i ↔
      (last + intervalMs p.1.ctx i) % 2 ^ 32 ≤ processMs cfg clock p.1 % 2 ^ 32 := by
  have hused := hp.used last hlast
  unfold Due
  rw [and_iff_right hused, hp.timer last hlast, processTime_eq hclock, ge_iff_le, UInt32.le_iff_toNat_le,
    UInt32.toNat_add, UInt32.toNat_ofNat', UInt32.toNat_ofNat']
  unfold intervalMs
  rw [Nat.mod_add_mod]

/-- The comparison tells rightly whether the interval is over exactly in the turn in which it is. Where
nothing is counted, nothing is sent. -/
theorem turn_iff {last now interval : ℕ} {none : Prop} [Decidable none] (hle : last ≤ now)
    (hinterval : interval ≤ 1000) :
    let sent := true = true ∧ ¬ none ∧ (last + interval) % 2 ^ 32 ≤ now % 2 ^ 32
    ((sent → last + interval ≤ now) ∧ (last + interval ≤ now → now < last + halfTurn → sent)) ↔
      (now < last + halfTurn →
        if none then now < last + interval else now / 2 ^ 32 = (last + interval) / 2 ^ 32) := by
  obtain ⟨time, rfl⟩ := Nat.exists_eq_add_of_le hle
  have hhalf : halfTurn = 2 ^ 31 := rfl
  by_cases hnone : none
  · simp only [hnone, not_true, false_and, and_false, false_imp_iff, true_and, if_true, imp_false]
    omega
  · simp only [hnone, not_false_iff, true_and, if_false]
    by_cases hturn : time < 2 ^ 31
    · have hdelay : interval < 2 ^ 31 := by omega
      rw [← wrapped_lt_iff hturn hdelay]
      generalize (last + time) % 2 ^ 32 = low
      generalize (last + interval) % 2 ^ 32 = due
      omega
    · omega

/-- A call is right exactly if it is in phase. -/
theorem paced_iff (hclock : ShowsTime cfg clock) (hread : ReadsData cfg) {p : Sys W × Beat} (op : Op W)
    (hp : Timed i p) (hadvances : Advances cfg clock p op) :
    Paced cfg clock i p op ↔ InPhase cfg clock i p op := by
  cases op with
  | process =>
    apply imp_congr_right
    intro hidle
    have hreaches : schedules cfg p.1 = true := by simp [schedules, deadlinePassed, hidle]
    have hsends := (process_sends hread p.1).sent
    rw [hreaches] at hsends
    rw [hsends, and_iff_right (sent_once hp.distinct _)]
    apply forall₂_congr
    intro last hlast
    have hcount : p.1.ctx.periodicCount > 0 ↔ ¬ p.1.ctx.periodicCount = 0 := UInt8.pos_iff_ne_zero
    have hle : last ≤ processMs cfg clock p.1 := (hp.seen last hlast).trans hadvances
    rw [id_sent_iff hp.distinct, mem_dueSlots, due_iff hclock hp hlast, hcount]
    exact turn_iff hle (interval_le p.1.ctx i)
  | _ => exact Iff.rfl

/-- The pace of the periodic messages. From every reachable state, for every slot and every run in which the
clock does not go back and a periodic read returns 1 to 8 bytes, the id of the slot is sent at the pace of
its rate exactly if every call is in phase. -/
theorem periodic_pace_iff (cfg : Config W) (clock : W → ℕ) (hclock : ShowsTime cfg clock)
    (hread : ReadsData cfg) (b : Sys W) (pre ops : List (Op W)) (i : Fin 8) :
    let start := (exec (step cfg) ((udsInit cfg).final b) pre, Beat.mk none 0)
    Along (pacing cfg clock i) (Advances cfg clock) start ops →
      (Along (pacing cfg clock i) (Paced cfg clock i) start ops ↔
        Along (pacing cfg clock i) (InPhase cfg clock i) start ops) := by
  intro start hadvances
  have hstart : Timed i start := ⟨run_distinct cfg b pre, nofun, nofun, nofun⟩
  apply along_congr_under _ _ hstart hadvances
  · exact fun p op hp hop _ => timed_step hclock hread op hp hop
  · exact fun p op hp hop => paced_iff hclock hread op hp hop

/-- A clock that the application sets, and periodic data of two bytes. -/
def beatConfig : Config ℕ where
  getTimeMs w := (UInt32.ofNat w, w)
  fnTpSend _ _ w := (0, w)
  isSet callback := callback = .fnPeriodicRead
  app _ _ w := (⟨2, [0xAA, 0xBB]⟩, w)
  responseCb _ _ _ := .done 0
  p2Ms := 50
  p2StarMs := 5000
  txBufferSize := 64
  strictCompliance := false
  logLevel := 0
  securityDelayMs := 0
  securityMaxAttempts := 0
  rcrrpLimit := 0
  transferAcceptLastBlockReplay := false
  didTable := []
  userServices := []
  p2ServerMax := 50
  p2StarServerMax := 5000

/-- The id 0xE1 is started at the fast rate and sent at the time `time`. -/
def beating (time : ℕ) : Sys ℕ :=
  exec (step beatConfig) ((udsInit beatConfig).final ⟨Ctx.zero, fun _ => 0, fun _ => 0, time⟩)
    [.inputSdu (.bytes startE1)]

/-- Calls of `uds_process` now, after 99 ms and after another 1 ms. -/
def ticks : List (Op ℕ) := [.process, .elapse fun w => w + 99, .process, .elapse fun w => w + 1, .process]

theorem ticks_paced :
    sentOf (trace (step beatConfig) (beating 1000) ticks) = [[0xE1, 0xAA, 0xBB], [0xE1, 0xAA, 0xBB]] ∧
      Along (pacing beatConfig id 0) (Paced beatConfig id 0) (beating 1000, ⟨none, 0⟩) ticks := by
  have hread : ReadsData beatConfig := by
    intro _ _ _
    exact ⟨two_pos, Int.ofNat_le.mpr (by decide : 2 ≤ 8)⟩
  constructor
  · decide
  · exact (periodic_pace_iff beatConfig id (fun _ => rfl) hread
      ⟨Ctx.zero, fun _ => 0, fun _ => 0, 1000⟩ [.inputSdu (.bytes startE1)] ticks 0 (by decide)).mpr
      (by decide)

/-- Around the wrap of the clock the id is sent at every call, or not at all. -/
theorem wrapped_pace :
    let early := beating (2 ^ 32 - 64)
    let late := beating (2 ^ 32 - 200)
    let often : List (Op ℕ) :=
      [.process, .elapse fun w => w + 1, .process, .elapse fun w => w + 1, .process]
    let seldom : List (Op ℕ) := [.process, .elapse fun w => w + 300, .process]
    sentOf (trace (step beatConfig) early often) =
        [[0xE1, 0xAA, 0xBB], [0xE1, 0xAA, 0xBB], [0xE1, 0xAA, 0xBB]] ∧
      (¬ Along (pacing beatConfig id 0) (Paced beatConfig id 0) (early, ⟨none, 0⟩) often) ∧
      sentOf (trace (step beatConfig) late seldom) = [[0xE1, 0xAA, 0xBB]] ∧
      ¬ Along (pacing beatConfig id 0) (Paced beatConfig id 0) (late, ⟨none, 0⟩) seldom := by
  intro early late often seldom
  refine ⟨by decide, fun h => ?_, by decide, fun h => ?_⟩
  · have hsoon := (h.2.2.1 (by decide)).2 (2 ^ 32 - 64) (by decide)
    exact absurd (hsoon.1 (by decide)) (by decide)
  · have hlong := (h.2.2.1 (by decide)).2 (2 ^ 32 - 200) (by decide)
    exact absurd (hlong.2 (by decide) (by decide)) (by decide)

end UdsLib.Core
