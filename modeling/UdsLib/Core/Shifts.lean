import UdsLib.Core.Sessions
import UdsLib.Core.Provenance
import UdsLib.Services.LateLength

/-! The mask tests of the DIDs shift by the session and by the security level. The level comes from
the sub-function of a key, which reaches to 63, and the shifted value has 32 bits. -/
namespace UdsLib.Core
open Bytes Machine Prog Services

variable {W : Type} {cfg : Config W} {d : Sdu} {sid : UInt8} {s t : Sys W} {es : List Event}

/-- The amounts by which the mask tests shift are below the width of the shifted value. -/
structure ShiftsFit (c : Ctx) : Prop where
  session : c.activeSession.toUInt32 - 1 < 32
  level : c.securityLevel.toUInt32 < 32

/-- No mask test is undefined. -/
def ShiftsDefined (es : List Event) : Prop := ∀ n, .fault (.shift n) ∉ es

/-- In every state of the run a DID request finds amounts to shift by that fit, and no mask test of
the run is undefined. -/
structure MasksDefined (cfg : Config W) (s : Sys W) (ops : List (Op W)) : Prop where
  fit : Always (step cfg) (fun t => ShiftsFit t.ctx) s ops
  defined : Along (step cfg) (fun t op => ShiftsDefined (step cfg t op).2) s ops

/-- The call brings no accepted key for a level that is 32 or above. -/
def LowKeys (cfg : Config W) (s : Sys W) (op : Op W) : Prop :=
  ∀ level, 32 ≤ level → ¬ KeyAccepted cfg level s op

/-- The session is known and the level below 32. -/
structure PairInRange (c : Ctx) : Prop where
  session : Known c.activeSession
  level : c.securityLevel < 32

theorem level_fits_iff (level : UInt8) : level.toUInt32 < 32 ↔ level < 32 := by
  rw [UInt32.lt_iff_toNat_lt, UInt8.lt_iff_toNat_lt, UInt8.toNat_toUInt32]
  rfl

theorem PairInRange.fits {c : Ctx} (h : PairInRange c) : ShiftsFit c := by
  constructor
  · rcases h.session with hs | hs | hs
    · rw [hs]
      decide
    · rw [hs]
      decide
    · rw [hs]
      decide
  · exact (level_fits_iff _).mpr h.level

/-! ### The events -/

theorem ShiftsDefined.append {fs : List Event} (h : ShiftsDefined es) (hnext : ShiftsDefined fs) :
    ShiftsDefined (es ++ fs) := by
  intro n he
  rcases List.mem_append.mp he with he | he
  · exact h n he
  · exact hnext n he

/-- No mask test is made. -/
def Shiftless (_ : Sys W) (es : List Event) (_ : Sys W) : Prop := ShiftsDefined es

theorem shiftless_composable : Composable (Shiftless (W := W)) where
  refl _ := nofun
  trans h hnext := ShiftsDefined.append h hnext

theorem Shiftless.single {e : Event} (he : ∀ n, e ≠ .fault (.shift n)) : Shiftless s [e] t :=
  fun n hmem => he n (List.mem_singleton.mp hmem).symm

theorem Outside.shiftless (h : Outside cfg d s es t) : Shiftless s es t :=
  fun _ he => h.events _ he

theorem writeTx_shiftless (off : ℕ) (bs : List UInt8) : Keeps Shiftless (writeTx cfg off bs) := by
  intro s n he
  unfold writeTx outputs at he
  split_ifs at he
  · cases he
  · cases List.mem_singleton.mp he

theorem schedule_shiftless (now : UInt32) (i : Fin 8) : Keeps Shiftless (schedule cfg now i) := by
  have hR : Composable (Shiftless (W := W)) := shiftless_composable
  apply keeps_ctx
  intro c
  apply Keeps.ite
  · intro _
    apply hR.bind
    · exact fun _ => .single nofun
    intro u
    apply hR.bind
    · apply Keeps.ite
      · intro _
        apply hR.bind
        · exact Keeps.ite (fun _ _ => .single nofun) fun _ => hR.refl
        intro _
        apply hR.bind (writeTx_shiftless _ _)
        intro _
        apply hR.bind (writeTx_shiftless _ _)
        intro _
        apply hR.bind
        · exact fun _ => .single nofun
        · exact fun _ => hR.refl
      · exact fun _ => hR.refl
    · exact fun _ _ => nofun
  · exact fun _ => hR.refl

theorem scheduleAll_shiftless (now : UInt32) (is : List (Fin 8)) :
    Keeps Shiftless (scheduleAll cfg now is) := by
  induction is with
  | nil => exact shiftless_composable.refl
  | cons i is ih => exact shiftless_composable.bind (schedule_shiftless now i) fun _ => ih

theorem udsProcess_shiftless : Keeps Shiftless (udsProcess cfg) := by
  have hR : Composable (Shiftless (W := W)) := shiftless_composable
  have hlog : Keeps Shiftless
      (internalLog cfg logInfo "S3 Timeout: Reverted to Default Session") :=
    fun s => (internalLog_outside (d := noMessage) _ _ s).shiftless
  have hnrc (sid nrc : UInt8) : Keeps Shiftless (sendNrc cfg sid nrc) :=
    fun s => (sendNrc_outside (d := noMessage) sid nrc s).shiftless
  have hset (g : Ctx → Ctx) : Keeps (Shiftless (W := W)) (setCtx g) := fun _ => nofun
  have hend (now : UInt32) : Keeps Shiftless (finishProcess cfg now) := by
    apply keeps_ctx
    intro _
    apply hR.bind
    · exact Keeps.ite (fun _ => scheduleAll_shiftless now _) fun _ => hR.refl
    · exact fun _ s => (mutexUnlock_outside (d := noMessage) s).shiftless
  apply hR.bind
  · exact fun s => (mutexLock_outside (d := noMessage) s).shiftless
  intro _
  apply hR.bind
  · exact fun _ => .single nofun
  intro _
  apply hR.bind
  · apply keeps_ctx
    intro _
    exact Keeps.ite (fun _ => hR.bind (hset _) fun _ => hlog) fun _ => hR.refl
  intro _
  apply keeps_ctx
  intro _
  apply Keeps.ite
  · intro _
    apply Keeps.ite
    · intro _
      apply hR.bind (hnrc _ _)
      intro _
      exact hR.bind (hset _) fun _ => hR.refl
    · intro _
      apply hR.bind (hnrc _ _)
      intro _
      exact hR.bind (hset _) fun _ => hend _
  · exact fun _ => hend _

/-! ### The handlers -/

/-- Where the amounts fit they stay, and the mask tests are defined. -/
def StaysFit (s : Sys W) (es : List Event) (t : Sys W) : Prop :=
  ShiftsFit s.ctx → t.ctx.pair = s.ctx.pair ∧ ShiftsDefined es

theorem ShiftsFit.of_pair {c c' : Ctx} (h : ShiftsFit c) (hpair : c'.pair = c.pair) :
    ShiftsFit c' := by
  have hsession : c'.activeSession = c.activeSession := congrArg Prod.fst hpair
  have hlevel : c'.securityLevel = c.securityLevel := congrArg Prod.snd hpair
  constructor
  · rw [hsession]
    exact h.session
  · rw [hlevel]
    exact h.level

theorem staysFit_composable : Composable (StaysFit (W := W)) where
  refl _ _ := ⟨rfl, nofun⟩
  trans h hnext hfit := by
    obtain ⟨hpair, hdefined⟩ := h hfit
    obtain ⟨hpair', hdefined'⟩ := hnext (hfit.of_pair hpair)
    exact ⟨hpair'.trans hpair, hdefined.append hdefined'⟩

theorem StaysFit.of_shiftless (hpair : t.ctx.pair = s.ctx.pair) (h : Shiftless s es t) :
    StaysFit s es t :=
  fun _ => ⟨hpair, h⟩

/-- A mask test by an amount that fits is defined. -/
theorem maskAdmits_defined {shift mask : UInt32} (h : shift < 32) :
    ShiftsDefined ((maskAdmits shift mask).outputs s) := by
  unfold maskAdmits
  rw [outputs_bind, outputs_onlyIf, if_neg (UInt32.not_le.mpr h)]
  exact nofun

/-- What reads the context and keeps the state, with events that are defined where the amounts
fit. -/
theorem StaysFit.of_look {α : Type} {m : M W α} (hfinal : ∀ s, m.final s = s)
    (hm : ∀ s : Sys W, ShiftsFit s.ctx → ShiftsDefined (m.outputs s)) : Keeps StaysFit m := by
  intro s hfit
  rw [hfinal]
  exact ⟨rfl, hm s hfit⟩

theorem sessionRefused_fit (entry : DidEntry) :
    Keeps (StaysFit (W := W)) (sessionRefused entry) := by
  apply StaysFit.of_look (sessionRefused_final entry)
  intro s hfit
  unfold sessionRefused
  rw [outputs_ite]
  split_ifs
  · exact nofun
  · exact ShiftsDefined.append nofun (.append (maskAdmits_defined hfit.session) nofun)

theorem securityRefused_fit (entry : DidEntry) :
    Keeps (StaysFit (W := W)) (securityRefused entry) := by
  apply StaysFit.of_look (securityRefused_final entry)
  intro s hfit
  unfold securityRefused
  rw [outputs_ite]
  split_ifs
  · exact nofun
  · exact ShiftsDefined.append nofun (.append (maskAdmits_defined hfit.level) nofun)

theorem Deed.fit {α : Type} {m : M W α} (hsid : ¬ MayPair sid) (hm : Deed cfg d sid α m) :
    Keeps StaysFit m := by
  have hfault (f : Fault) (hf : ∀ n, f ≠ .shift n) {u v : Sys W} : Shiftless u [.fault f] v :=
    .single fun n he => hf n (Event.fault.inj he)
  cases hm with
  | sessionRefused entry => exact sessionRefused_fit entry
  | securityRefused entry => exact securityRefused_fit entry
  | setCtx hg => exact fun s => .of_shiftless (hg.pair.resolve_left hsid s.ctx) nofun
  | writeTx off bs => exact fun s => .of_shiftless rfl (writeTx_shiftless off bs s)
  | byteAt hi =>
    intro s
    rw [show (Core.byteAt d _).outputs s = [] from if_pos hi]
    exact .of_shiftless rfl nofun
  | bytesAt hn =>
    intro s
    rw [show (Core.bytesAt d _ _).outputs s = [] from if_pos hn]
    exact .of_shiftless rfl nofun
  | reads f => exact fun _ => .of_shiftless rfl nofun
  | getTime => exact fun _ => .of_shiftless rfl (.single nofun)
  | invoke hcall => exact fun _ => .of_shiftless rfl (.single nofun)
  | writeMem addr bs => exact fun _ => .of_shiftless rfl nofun
  | withhold => exact fun _ => .of_shiftless rfl (.single nofun)
  | sendNrc nrc =>
    intro s
    have hout : Outside cfg d s _ _ := sendNrc_outside sid nrc s
    apply StaysFit.of_shiftless _ hout.shiftless
    exact congrArg (fun m : Store => (m.activeSession, m.securityLevel)) hout.store
  | sendResponse len =>
    intro s
    have hout : Outside cfg d s _ _ := sendResponse_outside len s
    apply StaysFit.of_shiftless _ hout.shiftless
    exact congrArg (fun m : Store => (m.activeSession, m.securityLevel)) hout.store

/-- The services that test masks change neither the session nor the level. -/
theorem testsMasks_not_mayPair (h : TestsMasks sid) : ¬ MayPair sid := by
  unfold MayPair
  rcases h with rfl | rfl | rfl
  · decide
  · decide
  · decide

theorem handler_defined {service : Service W} {u v : Sys W} (h : Runs cfg s d service u v es)
    (hfit : ShiftsFit u.ctx) : ShiftsDefined es := by
  by_cases htests : TestsMasks service.sid
  · have hkept : Keeps StaysFit (service.handler d) :=
      (coreServices_deeds service h.core h.length).keeps staysFit_composable
        fun _ _ => Deed.fit (testsMasks_not_mayPair htests)
    rw [h.outputs]
    exact (hkept u hfit).2
  · intro n he
    exact htests (h.work.events _ he)

/-! ### The run -/

theorem step_defined (op : Op W) (hfit : ShiftsFit s.ctx) : ShiftsDefined (step cfg s op).2 := by
  cases step_footprint cfg s op with
  | outside h => exact h.shiftless
  | process hop =>
    rw [hop]
    exact udsProcess_shiftless s
  | handler d service pre mid post u v hop hruns hes hpre hpost =>
    rw [hes]
    have hpair : u.ctx.pair = s.ctx.pair :=
      congrArg (fun m : Store => (m.activeSession, m.securityLevel)) hpre.store
    have hmid : ShiftsDefined mid := handler_defined hruns (hfit.of_pair hpair)
    exact ShiftsDefined.append hpre.shiftless (hmid.append hpost.shiftless)

theorem keyAccepted_of_keys {op : Op W} {level : UInt8} (hop : op = .inputSdu (.bytes d))
    (hsid : d.byte 0 = sidSecurityAccess) (hsub : subFunction d = 2 * level.toNat)
    (hkeys : keysOf (step cfg s op).2 = [level]) : KeyAccepted cfg level s op := by
  have hmem : level ∈ keysOf (step cfg s op).2 := hkeys ▸ List.mem_singleton.mpr rfl
  obtain ⟨key, hcall⟩ := mem_keysOf.mp hmem
  exact ⟨d, key, hop, hsid, hsub, hcall⟩

/-- A call that brings no accepted key for a high level keeps the pair in its range. -/
theorem step_inRange {op : Op W} (h : PairInRange s.ctx) (hlow : LowKeys cfg s op) :
    PairInRange (step cfg s op).1.ctx := by
  constructor
  · exact step_known cfg s op h.session
  cases step_pair cfg s op with
  | kept hpair =>
    rw [show (step cfg s op).1.ctx.securityLevel = _ from congrArg Prod.snd hpair]
    exact h.level
  | timedOut htime hpair =>
    rw [show (step cfg s op).1.ctx.securityLevel = _ from congrArg Prod.snd hpair]
    decide
  | session d hop hsid hpair =>
    have hlevel : (step cfg s op).1.ctx.securityLevel = (openSession d s.ctx.pair).2 :=
      congrArg Prod.snd hpair
    rw [hlevel]
    by_cases hreset : s.ctx.activeSession ≠ d.byte 1 &&& 0x7F ∨ d.byte 1 &&& 0x7F = sessionIdDefault
    · rw [show (openSession d s.ctx.pair).2 = 0 from if_pos hreset]
      decide
    · rw [show (openSession d s.ctx.pair).2 = _ from if_neg hreset]
      exact h.level
  | key d level hop hsid hsub hpair hsaved hkeys =>
    rw [show (step cfg s op).1.ctx.securityLevel = _ from congrArg Prod.snd hpair]
    have haccepted := keyAccepted_of_keys hop hsid hsub hkeys
    exact UInt8.not_le.mp fun hhigh => hlow level hhigh haccepted

/-- An accepted key for a high level leaves a level that does not fit. -/
theorem step_breaks {op : Op W} (hhigh : ¬ LowKeys cfg s op) :
    ¬ ShiftsFit (step cfg s op).1.ctx := by
  unfold LowKeys at hhigh
  push Not at hhigh
  obtain ⟨level, hlevel, d, key, hop, hsid, hsub, hcall⟩ := hhigh
  have hmem : level ∈ keysOf (step cfg s op).2 := mem_keysOf.mpr ⟨key, hcall⟩
  cases step_pair cfg s op with
  | kept _ _ hkeys => exact absurd hmem (hkeys ▸ List.not_mem_nil)
  | timedOut _ _ _ hkeys => exact absurd hmem (hkeys ▸ List.not_mem_nil)
  | session _ _ _ _ _ hkeys => exact absurd hmem (hkeys ▸ List.not_mem_nil)
  | key _ level' _ _ _ hpair _ hkeys =>
    rw [hkeys] at hmem
    obtain rfl := List.mem_singleton.mp hmem
    intro hfit
    have hlow := (level_fits_iff _).mp hfit.level
    rw [show (step cfg s op).1.ctx.securityLevel = _ from congrArg Prod.snd hpair] at hlow
    exact UInt8.not_le.mpr hlow hlevel

/-- The mask tests of the DIDs are well defined in exactly the runs, from a start without a restored
pair, in which no key for a level of 32 or above is accepted. -/
theorem did_masks_defined_iff (cfg : Config W) (b : Sys W) (ops : List (Op W))
    (hfresh : ¬ Restored cfg b) :
    MasksDefined cfg ((udsInit cfg).final b) ops ↔
      Along (step cfg) (LowKeys cfg) ((udsInit cfg).final b) ops := by
  have hstart : PairInRange ((udsInit cfg).final b).ctx := by
    rw [(udsInit_parts cfg b).1, if_neg hfresh]
    exact ⟨.inl rfl, (by decide : (0 : UInt8) < 32)⟩
  have halways : Always (step cfg) (fun t => ShiftsFit t.ctx) ((udsInit cfg).final b) ops ↔
      Along (step cfg) (LowKeys cfg) ((udsInit cfg).final b) ops :=
    always_iff_along (I := fun t : Sys W => PairInRange t.ctx) (fun _ h => h.fits)
      (fun _ _ h => step_inRange h) (fun _ _ _ => step_breaks) hstart
  constructor
  · intro h
    exact halways.mp h.fit
  · intro h
    refine ⟨halways.mpr h, ?_⟩
    generalize (udsInit cfg).final b = s at *
    clear halways
    induction ops generalizing s with
    | nil => trivial
    | cons op ops ih =>
      constructor
      · exact step_defined op hstart.fits
      · exact ih _ (step_inRange hstart h.1) h.2

/-- A DID with masks, beside a key callback that accepts every key. -/
def maskConfig : Config Unit :=
  { keyConfig with
    didTable :=
      [{ id := 0xF190, size := 1, sessionMask := 0x01, securityMask := 0x0002, read := false,
         write := false, storage := some 0 }] }

/-- A read of the DID. -/
def maskRequest : Sdu := readVin

theorem firstKey_masks_defined :
    let ops := [.inputSdu (.bytes firstKey), .inputSdu (.bytes maskRequest)]
    sentOf (trace (step maskConfig) (booted maskConfig) ops) = [[0x67, 0x02], [0x62, 0xF1, 0x90, 0]] ∧
      MasksDefined maskConfig (booted maskConfig) ops := by
  intro ops
  constructor
  · decide
  apply (did_masks_defined_iff maskConfig ⟨Ctx.zero, fun _ => 0, fun _ => 0, ()⟩ ops nofun).mpr
  refine ⟨?_, ?_, trivial⟩
  · rintro level hhigh ⟨d, key, hop, -, hsub, -⟩
    cases hop
    have hlevel : level.toNat = 1 := by
      have htwo : subFunction firstKey = 2 := by decide
      omega
    exact absurd (UInt8.le_iff_toNat_le.mp hhigh) (by rw [hlevel]; decide)
  · rintro level - ⟨d, key, hop, hsid, -⟩
    cases hop
    exact absurd hsid (by decide)

/-- A key for the level 32 is accepted, and the mask test of the next read shifts by 32. -/
theorem highKey_undefined :
    let request : Sdu := ⟨[0x27, 0x40, 0xAB], by decide⟩
    let ops := [.inputSdu (.bytes request), .inputSdu (.bytes maskRequest)]
    ¬ MasksDefined maskConfig (booted maskConfig) ops ∧
      .fault (.shift 32) ∈ trace (step maskConfig) (booted maskConfig) ops := by
  intro request ops
  constructor
  · intro h
    have hfit := h.fit [.inputSdu (.bytes request)] (by simp [ops])
    exact absurd hfit.level (by decide)
  · decide

end UdsLib.Core
