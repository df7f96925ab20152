import UdsLib.Core.Answers
import UdsLib.Core.Persistence
import UdsLib.Core.Slots

/-! The registry of periodic ids over whole runs: when its count stays right, and whether a request that
is answered positively has registered what it asks for. -/
namespace UdsLib.Core
open Bytes Machine Prog Services

variable {W : Type} {cfg : Config W} {d : Sdu} {s t u : Sys W} {es fs : List Event}

/-- The ids that a request for the periodic read lists, and the mode in front of them. -/
def periodicIdsOf (d : Sdu) : List UInt8 := d.bytes.drop 2

def periodicModeOf (d : Sdu) : UInt8 := d.byte 1 &&& 0x0F

/-- A request to stop ids counts no free slot down, or a multiple of 256 of them. -/
def StopsCounted (cfg : Config W) (s : Sys W) (op : Op W) : Prop :=
  ∀ d, op = .inputSdu (.bytes d) → (servedBy cfg s d).isSome = true → d.byte 0 = sidReadByPerId →
    periodicModeOf d = 0x04 → s.ctx.slots.miscounts (periodicIdsOf d) % 256 = 0

/-- The pairs are those that the request asks for: the ids with the rate and all others as before, less the
ids, or none. -/
def RegistersAsked (d : Sdu) (r r' : Slots) : Prop :=
  r'.registered =
    if periodicModeOf d = 0x04 then
      if periodicIdsOf d = [] then ∅ else {p | p ∈ r.registered ∧ p.1 ∉ periodicIdsOf d}
    else started (periodicIdsOf d) (periodicModeOf d) r.registered

/-! ### The handler -/

/-- The slot loop that stops an id, over some of the slots. -/
theorem stopLoop_slots (id : UInt8) (js : List (Fin 8)) (hjs : js.Nodup) (c : Ctx) :
    (js.foldl (fun c j => if c.periodicIds j = id then
      { c with periodicIds := Function.update c.periodicIds j 0, periodicCount := c.periodicCount - 1 }
      else c) c).slots =
    { ids := fun k => if k ∈ js ∧ c.periodicIds k = id then 0 else c.periodicIds k
      rates := c.periodicRates
      count := c.periodicCount - UInt8.ofNat (js.countP fun j => c.periodicIds j = id) } := by
  induction js generalizing c with
  | nil => simp [Ctx.slots]
  | cons j js ih =>
    obtain ⟨hj, hjs⟩ := List.nodup_cons.mp hjs
    rw [List.foldl_cons]
    by_cases hid : c.periodicIds j = id
    · have hsame (k : Fin 8) (hk : k ∈ js) : Function.update c.periodicIds j 0 k = c.periodicIds k :=
        Function.update_of_ne (fun h : k = j => hj (h ▸ hk)) _ _
      have hcount : (js.countP fun k => Function.update c.periodicIds j 0 k = id) =
          js.countP fun k => c.periodicIds k = id :=
        List.countP_congr fun k hk => by rw [hsame k hk]
      rw [if_pos hid, ih hjs, List.countP_cons_of_pos (by simpa using hid)]
      dsimp only
      rw [hcount]
      congr 1
      · funext k
        by_cases hkj : k = j
        · subst hkj
          simp [hj, hid]
        · simp [hkj]
      · have hone : UInt8.ofNat ((js.countP fun k => c.periodicIds k = id) + 1) =
            UInt8.ofNat (js.countP fun k => c.periodicIds k = id) + 1 := UInt8.ofNat_add ..
        rw [hone]
        grind
    · rw [if_neg hid, ih hjs, List.countP_cons_of_neg (by simpa using hid)]
      congr 1
      funext k
      by_cases hkj : k = j
      · subst hkj
        simp [hid]
      · simp [hkj]

theorem stopId_slots (id : UInt8) (c : Ctx) : (stopId id c).slots = c.slots.stop id := by
  have hcard : ((List.finRange 8).countP fun j => c.periodicIds j = id) =
      (Finset.univ.filter fun j => c.slots.ids j = id).card := by
    rw [List.countP_eq_length_filter]
    rfl
  have hloop := stopLoop_slots id (List.finRange 8) (List.nodup_finRange 8) c
  rw [hcard] at hloop
  simp only [List.mem_finRange, true_and] at hloop
  exact hloop

theorem spared_slots (h : Spared s es t) : t.ctx.slots = s.ctx.slots :=
  congrArg (fun g : Diagnostic => Slots.mk g.periodicIds g.periodicRates g.periodicCount) h.diagnostic

theorem outside_slots (h : Outside cfg d s es t) : t.ctx.slots = s.ctx.slots :=
  congrArg (fun g : Store => Slots.mk g.periodicIds g.periodicRates g.periodicCount) h.store

theorem periodicAccepted_slots (s : Sys W) : ((periodicAccepted cfg).final s).ctx.slots = s.ctx.slots := by
  have hspared : Keeps Spared (periodicAccepted cfg) :=
    spared_composable.bind (writeTx_spared 0 _) fun _ => sendResponse_spared 1
  exact spared_slots (hspared s)

theorem stopIds_slots (is : List ℕ) (s : Sys W) :
    ((stopIds cfg d is).final s).ctx.slots = (is.map d.byte).foldl Slots.stop s.ctx.slots := by
  induction is generalizing s with
  | nil => exact periodicAccepted_slots s
  | cons i is ih =>
    have hrun (g : Ctx → Ctx) : (setCtx g >>= fun _ => stopIds cfg d is).final s =
        (stopIds cfg d is).final { s with ctx := g s.ctx } := rfl
    rw [stopIds, final_byteAt_bind, hrun, ih, stopId_slots, List.map_cons, List.foldl_cons]

theorem startIds_slots (mode : UInt8) (is : List ℕ) (s : Sys W) :
    ((startIds cfg d mode is).final s).ctx.slots = s.ctx.slots.startAll mode (is.map d.byte) := by
  induction is generalizing s with
  | nil => exact periodicAccepted_slots s
  | cons i is ih =>
    rw [List.map_cons, Slots.startAll]
    by_cases hplace : s.ctx.slots.find (d.byte i) = none ∧ s.ctx.slots.count ≥ 8
    · have hslot : slotOf s.ctx (d.byte i) = none := hplace.1
      have hfinal : (startIds cfg d mode (i :: is)).final s =
          (sendNrc cfg sidReadByPerId nrcResponseTooLong).final s := by
        rw [startIds, final_byteAt_bind, final_getCtx_bind, hslot]
        exact congrArg (fun m => Prog.final m s) (if_pos hplace.2)
      rw [if_pos hplace, hfinal]
      exact spared_slots (sendNrc_spared cfg sidReadByPerId nrcResponseTooLong s)
    · obtain ⟨t, hpass⟩ := startIds_passes cfg mode i is hplace
      rw [if_neg hplace, hpass.final, ih, hpass.slots]

/-- The handler of the periodic read does to the slots what `Slots.request` says. -/
theorem periodicRead_slots (hlen : 2 ≤ d.bytes.length) (s : Sys W) :
    ((handlePeriodicRead cfg d).final s).ctx.slots =
      s.ctx.slots.request (periodicModeOf d) (periodicIdsOf d) := by
  have htwo : d.len = 2 ↔ periodicIdsOf d = [] := by
    have hdrop : periodicIdsOf d = [] ↔ d.bytes.length ≤ 2 := List.drop_eq_nil_iff
    rw [hdrop, ← UInt16.toNat_inj, d.len_toNat]
    change d.bytes.length = 2 ↔ _
    omega
  unfold handlePeriodicRead Slots.request
  rw [if_neg (not_len_lt (n := 2) hlen), final_byteAt_bind]
  change (Prog.final (if periodicModeOf d = 0x04 then _ else _) s).ctx.slots = _
  by_cases hstop : periodicModeOf d = 0x04
  · rw [if_pos hstop, if_pos hstop]
    by_cases hall : periodicIdsOf d = []
    · rw [if_pos hall]
      refine (congrArg (fun m => (Prog.final m s).ctx.slots) (if_pos (htwo.mpr hall))).trans ?_
      exact periodicAccepted_slots _
    · rw [if_neg hall]
      refine (congrArg (fun m => (Prog.final m s).ctx.slots) (if_neg fun h => hall (htwo.mp h))).trans ?_
      rw [stopIds_slots, listed_ids]
      rfl
  · rw [if_neg hstop, if_neg hstop]
    by_cases hmode : periodicModeOf d < 0x01 ∨ periodicModeOf d > 0x03
    · rw [if_pos hmode]
      refine (congrArg (fun m => (Prog.final m s).ctx.slots) (if_pos hmode)).trans ?_
      exact spared_slots (sendNrc_spared cfg sidReadByPerId nrcRequestOutOfRange s)
    · rw [if_neg hmode]
      refine (congrArg (fun m => (Prog.final m s).ctx.slots) (if_neg hmode)).trans ?_
      change ((startIds cfg d (periodicModeOf d) _).final s).ctx.slots = _
      rw [startIds_slots, listed_ids]
      rfl

/-! ### Calls -/

theorem servedBy_periodic {service : Service W} (h : servedBy cfg s d = some (service, u))
    (hsid : d.byte 0 = sidReadByPerId) :
    service = coreService sidReadByPerId 2 (handlePeriodicRead cfg) (some maskSub2A) := by
  have hruns := servedBy_runs h
  exact (Option.some.inj (hruns.found (hruns.sid.trans hsid))).symm

/-- A request for the periodic read that is served leaves the slots of `Slots.request`. -/
theorem step_periodic (hserved : (servedBy cfg s d).isSome = true) (hsid : d.byte 0 = sidReadByPerId) :
    (step cfg s (.inputSdu (.bytes d))).1.ctx.slots =
      s.ctx.slots.request (periodicModeOf d) (periodicIdsOf d) := by
  obtain ⟨⟨service, u⟩, hserved⟩ := Option.isSome_iff_exists.mp hserved
  obtain rfl := servedBy_periodic hserved hsid
  have hlen : 2 ≤ d.bytes.length := (servedBy_runs hserved).length
  obtain ⟨pre, post, -, hpre, -, hpost, -⟩ := step_served hserved
  have hhandler : ((handlePeriodicRead cfg d).final u).ctx.slots =
      u.ctx.slots.request (periodicModeOf d) (periodicIdsOf d) := periodicRead_slots hlen u
  rw [outside_slots hpost]
  change ((handlePeriodicRead cfg d).final u).ctx.slots = _
  rw [hhandler, outside_slots hpre]

/-- No other call changes the ids or their count. -/
theorem step_registry (op : Op W)
    (hother : ∀ d, op = .inputSdu (.bytes d) → (servedBy cfg s d).isSome = true →
      d.byte 0 ≠ sidReadByPerId) :
    (step cfg s op).1.ctx.periodicIds = s.ctx.periodicIds ∧
      (step cfg s op).1.ctx.periodicCount = s.ctx.periodicCount := by
  cases step_footprint cfg s op with
  | outside h =>
    exact ⟨congrArg Store.periodicIds h.store, congrArg Store.periodicCount h.store⟩
  | process hop hstore hevents =>
    rcases hstore with hstore | ⟨-, hstore⟩
    · exact ⟨congrArg Store.periodicIds hstore, congrArg Store.periodicCount hstore⟩
    · exact ⟨congrArg Store.periodicIds hstore, congrArg Store.periodicCount hstore⟩
  | handler d service pre mid post u v hop hruns hes hpre hpost =>
    have hsid : service.sid ≠ sidReadByPerId := by
      rw [hruns.sid]
      exact hother d hop (Option.isSome_iff_exists.mpr ⟨_, hruns.servedBy⟩)
    obtain ⟨hids, hcount⟩ := hruns.work.registry.resolve_left hsid
    have hpre' := hpre.store
    have hpost' := hpost.store
    constructor
    · exact (congrArg Store.periodicIds hpost').trans (hids.trans (congrArg Store.periodicIds hpre'))
    · exact (congrArg Store.periodicCount hpost').trans
        (hcount.trans (congrArg Store.periodicCount hpre'))

theorem step_distinct (op : Op W) (hs : s.ctx.slots.Distinct) : (step cfg s op).1.ctx.slots.Distinct := by
  by_cases h : ∃ d, op = .inputSdu (.bytes d) ∧ (servedBy cfg s d).isSome = true ∧
      d.byte 0 = sidReadByPerId
  · obtain ⟨d, rfl, hserved, hsid⟩ := h
    rw [step_periodic hserved hsid]
    exact Slots.request_distinct hs _ _
  · have hids := (step_registry op fun d hop hserved hsid => h ⟨d, hop, hserved, hsid⟩).1
    have hsame : (step cfg s op).1.ctx.slots.ids = s.ctx.slots.ids := hids
    unfold Slots.Distinct
    rw [hsame]
    exact hs

/-- A call keeps the registry consistent exactly if it counts no free slot down. -/
theorem step_consistent_iff (op : Op W) (hs : s.ctx.slots.Consistent) :
    (step cfg s op).1.ctx.slots.Consistent ↔ StopsCounted cfg s op := by
  by_cases h : ∃ d, op = .inputSdu (.bytes d) ∧ (servedBy cfg s d).isSome = true ∧
      d.byte 0 = sidReadByPerId
  · obtain ⟨d, rfl, hserved, hsid⟩ := h
    rw [step_periodic hserved hsid, Slots.request_consistent_iff hs]
    constructor
    · rintro hcounted d' hop - - hmode
      cases hop
      exact hcounted hmode
    · exact fun hcounted => hcounted d rfl hserved hsid
  · obtain ⟨hids, hcount⟩ := step_registry op fun d hop hserved hsid => h ⟨d, hop, hserved, hsid⟩
    have hsame : (step cfg s op).1.ctx.slots.ids = s.ctx.slots.ids := hids
    have hsame' : (step cfg s op).1.ctx.slots.count = s.ctx.slots.count := hcount
    apply iff_of_true
    · constructor
      · rw [hsame', hs.counted, Slots.taken, Slots.taken, hsame]
      · exact step_distinct op hs.distinct
    · exact fun d hop hserved hsid _ => absurd ⟨d, hop, hserved, hsid⟩ h

theorem udsInit_slots (cfg : Config W) (b : Sys W) :
    ((udsInit cfg).final b).ctx.slots = ⟨fun _ => 0, fun _ => 0, 0⟩ := by
  rw [(udsInit_parts cfg b).1]
  split_ifs <;> rfl

theorem udsInit_consistent (cfg : Config W) (b : Sys W) :
    ((udsInit cfg).final b).ctx.slots.Consistent := by
  rw [udsInit_slots]
  constructor
  · simp [Slots.taken]
  · exact fun i j hi => absurd rfl hi

/-! ### Runs -/

/-- In every run from `uds_init` the count is the number of slots in use and the ids in use are distinct,
exactly if no request to stop ids counts free slots down. -/
theorem registry_consistent_iff (cfg : Config W) (b : Sys W) (ops : List (Op W)) :
    Always (step cfg) (fun s => s.ctx.slots.Consistent) ((udsInit cfg).final b) ops ↔
      Along (step cfg) (StopsCounted cfg) ((udsInit cfg).final b) ops := by
  refine always_iff_along (I := fun s : Sys W => s.ctx.slots.Consistent) (fun _ hs => hs) ?_ ?_
    (udsInit_consistent cfg b)
  · exact fun s op hs hcounted => (step_consistent_iff op hs).mpr hcounted
  · exact fun s op hs hmiscounts => mt (step_consistent_iff op hs).mp hmiscounts

/-- The ids in use stay distinct in any run. -/
theorem run_distinct (cfg : Config W) (b : Sys W) (ops : List (Op W)) :
    (exec (step cfg) ((udsInit cfg).final b) ops).ctx.slots.Distinct :=
  exec_invariant (I := fun s : Sys W => s.ctx.slots.Distinct) (C := fun _ _ => True)
    (fun _ op hs _ => step_distinct op hs) (udsInit_consistent cfg b).distinct (Along.trivial _ ops)

/-- The request to stop the id 0 of an empty registry. -/
def stopZero : Op Unit := .inputSdu (.bytes ⟨[0x2A, 0x04, 0x00], by decide⟩)

/-- The count goes from 0 to 248. -/
theorem stop_zero_miscounts :
    (step plainConfig (booted plainConfig) stopZero).1.ctx.periodicCount = 248 ∧
      ¬ (step plainConfig (booted plainConfig) stopZero).1.ctx.slots.Consistent := by
  have hcount : (step plainConfig (booted plainConfig) stopZero).1.ctx.slots.count = 248 := by decide
  refine ⟨hcount, fun h => ?_⟩
  have htaken := h.counted
  have hle := Slots.taken_le (step plainConfig (booted plainConfig) stopZero).1.ctx.slots
  rw [hcount] at htaken
  have hnumber : (248 : UInt8).toNat = 248 := rfl
  omega

/-! ### Positive answers -/

/-- A response that the loop sends comes behind the first id, if that one is not refused. -/
theorem startIds_response {mode : UInt8} {i : ℕ} {is : List ℕ} {data : List UInt8} {ret : ℤ}
    (h : .tpSend .response data ret ∈ (startIds cfg d mode (i :: is)).outputs s) :
    ¬ (s.ctx.slots.find (d.byte i) = none ∧ s.ctx.slots.count ≥ 8) ∧
      ∃ t : Sys W, t.ctx.slots = s.ctx.slots.start mode (d.byte i) ∧
        .tpSend .response data ret ∈ (startIds cfg d mode is).outputs t := by
  have hslot : slotOf s.ctx (d.byte i) = s.ctx.slots.find (d.byte i) := rfl
  rw [startIds, outputs_byteAt_then, outputs_getCtx_bind, hslot] at h
  have hrest := (List.mem_append.mp h).resolve_left fun he => by
    obtain ⟨f, hf⟩ := byteAt_faults s he
    cases hf
  cases hfind : s.ctx.slots.find (d.byte i) with
  | some j =>
    rw [hfind] at hrest
    refine ⟨fun hfull => Option.some_ne_none j hfull.1, { s with ctx := { s.ctx with
      periodicRates := Function.update s.ctx.periodicRates j mode } }, ?_, hrest⟩
    rw [Slots.start_found mode hfind]
    rfl
  | none =>
    rw [hfind] at hrest
    by_cases hfull : s.ctx.periodicCount ≥ 8
    · dsimp only at hrest
      rw [if_pos hfull] at hrest
      exact absurd hrest (sendNrc_no_response data ret)
    · refine ⟨fun h => hfull h.2, ?_⟩
      dsimp only at hrest
      rw [if_neg hfull] at hrest
      have hfree' : slotOf s.ctx 0 = s.ctx.slots.find 0 := rfl
      cases hfree : s.ctx.slots.find 0 with
      | none =>
        rw [hfree', hfree] at hrest
        exact ⟨s, (Slots.start_full mode hfind hfree).symm, hrest⟩
      | some j =>
        rw [hfree', hfree] at hrest
        refine ⟨{ s with
          world := (cfg.getTimeMs s.world).2
          ctx := { s.ctx with
            periodicIds := Function.update s.ctx.periodicIds j (d.byte i)
            periodicRates := Function.update s.ctx.periodicRates j mode
            periodicTimers := Function.update s.ctx.periodicTimers j (cfg.getTimeMs s.world).1
            periodicCount := s.ctx.periodicCount + 1 } }, ?_, ?_⟩
        · rw [Slots.start_placed mode hfind hfree]
          rfl
        · rcases List.mem_cons.mp hrest with htime | hrest
          · cases htime
          · exact hrest

/-- The loop sends its response only if it refuses no id. -/
theorem startIds_placed {mode : UInt8} {is : List ℕ}
    (h : PositiveAnswer ((startIds cfg d mode is).outputs s)) :
    refusedAt mode (is.map d.byte) s.ctx.slots = none := by
  obtain ⟨data, ret, h⟩ := h
  induction is generalizing s with
  | nil => rfl
  | cons i is ih =>
    obtain ⟨hplace, t, hslots, hrest⟩ := startIds_response h
    rw [List.map_cons, refusedAt, if_neg hplace, ← hslots]
    exact ih hrest

theorem periodicRead_positive (hlen : 2 ≤ d.bytes.length)
    (h : PositiveAnswer ((handlePeriodicRead cfg d).outputs s)) :
    periodicModeOf d = 0x04 ∨ ¬ (periodicModeOf d < 0x01 ∨ periodicModeOf d > 0x03) ∧
      refusedAt (periodicModeOf d) (periodicIdsOf d) s.ctx.slots = none := by
  by_cases hstop : periodicModeOf d = 0x04
  · exact .inl hstop
  right
  obtain ⟨data, ret, hsent⟩ := h
  unfold handlePeriodicRead at hsent
  rw [if_neg (not_len_lt (n := 2) hlen), outputs_byteAt_bind _ _ _ _ hlen] at hsent
  have hstop' : ¬ d.byte 1 &&& 0x0F = 0x04 := hstop
  dsimp only at hsent
  rw [if_neg hstop'] at hsent
  by_cases hmode : periodicModeOf d < 0x01 ∨ periodicModeOf d > 0x03
  · have hmode' : d.byte 1 &&& 0x0F < 0x01 ∨ d.byte 1 &&& 0x0F > 0x03 := hmode
    rw [if_pos hmode'] at hsent
    exact absurd hsent (sendNrc_no_response data ret)
  · have hmode' : ¬ (d.byte 1 &&& 0x0F < 0x01 ∨ d.byte 1 &&& 0x0F > 0x03) := hmode
    rw [if_neg hmode'] at hsent
    refine ⟨hmode, ?_⟩
    have hplaced := startIds_placed ⟨data, ret, hsent⟩
    rw [listed_ids] at hplaced
    exact hplaced

theorem Slots.request_registers_iff {r : Slots} (hr : r.Distinct)
    (hplaced : periodicModeOf d = 0x04 ∨ ¬ (periodicModeOf d < 0x01 ∨ periodicModeOf d > 0x03) ∧
      refusedAt (periodicModeOf d) (periodicIdsOf d) r = none) :
    RegistersAsked d r (r.request (periodicModeOf d) (periodicIdsOf d)) ↔
      periodicModeOf d = 0x04 ∨ 0 ∉ periodicIdsOf d ∧ r.Fits (periodicIdsOf d) := by
  unfold RegistersAsked Slots.request
  by_cases hstop : periodicModeOf d = 0x04
  · simp only [if_pos hstop]
    refine iff_of_true ?_ (.inl hstop)
    by_cases hall : periodicIdsOf d = []
    · simp only [if_pos hall]
      exact Slots.clear_registered r
    · simp only [if_neg hall]
      exact Slots.stopAll_registered r (periodicIdsOf d)
  · obtain ⟨hmode, hplaced⟩ := hplaced.resolve_left hstop
    simp only [if_neg hmode, hstop, false_or]
    exact Slots.startAll_registered_iff hr hplaced

/-- In every reachable state a request for the periodic read that is answered positively registers what it
asks for, exactly if it stops ids, or lists no 0 and no more new ids than there are free slots. -/
theorem periodic_request_registered_iff (cfg : Config W) (b : Sys W) (ops : List (Op W)) (d : Sdu)
    (hsid : d.byte 0 = sidReadByPerId) (hown : ∀ entry ∈ cfg.userServices, entry.sid ≠ d.byte 0) :
    let s := exec (step cfg) ((udsInit cfg).final b) ops
    let r := step cfg s (.inputSdu (.bytes d))
    PositiveAnswer r.2 →
      (RegistersAsked d s.ctx.slots r.1.ctx.slots ↔
        periodicModeOf d = 0x04 ∨ 0 ∉ periodicIdsOf d ∧ s.ctx.slots.Fits (periodicIdsOf d)) := by
  intro s r hpositive
  have hreq : IsRequest s d := by
    apply isRequest_of_bit s
    all_goals
      rw [hsid]
      decide
  obtain ⟨service, u, hserved, hanswer⟩ := positive_served hreq hown hpositive
  obtain rfl := servedBy_periodic hserved hsid
  have hsome : (servedBy cfg s d).isSome = true := by
    rw [hserved]
    rfl
  have hlen : 2 ≤ d.bytes.length := (servedBy_runs hserved).length
  obtain ⟨pre, post, -, hpre, -⟩ := step_served hserved
  have hplaced := periodicRead_positive hlen hanswer
  rw [outside_slots hpre] at hplaced
  have hslots : r.1.ctx.slots = _ := step_periodic hsome hsid
  rw [hslots]
  exact Slots.request_registers_iff (run_distinct cfg b ops) hplaced

/-- A request to start the id 0xE1 at the fast rate. -/
def startE1 : Sdu := ⟨[0x2A, 0x01, 0xE1], by decide⟩

theorem startE1_registers :
    RegistersAsked startE1 (booted plainConfig).ctx.slots
      (step plainConfig (booted plainConfig) (.inputSdu (.bytes startE1))).1.ctx.slots := by
  have hasked := periodic_request_registered_iff plainConfig ⟨Ctx.zero, fun _ => 0, fun _ => 0, ()⟩ []
    startE1 rfl nofun ⟨[0x6A], 0, by decide⟩
  exact hasked.mpr (.inr ⟨by decide, by decide⟩)

/-- A request to start the id 0. -/
def startZero : Sdu := ⟨[0x2A, 0x01, 0x00], by decide⟩

/-- It is answered positively, and nothing is registered. -/
theorem start_zero_unregistered :
    PositiveAnswer (step plainConfig (booted plainConfig) (.inputSdu (.bytes startZero))).2 ∧
      ¬ RegistersAsked startZero (booted plainConfig).ctx.slots
        (step plainConfig (booted plainConfig) (.inputSdu (.bytes startZero))).1.ctx.slots := by
  refine ⟨⟨[0x6A], 0, by decide⟩, fun h => ?_⟩
  have hpair : ((0 : UInt8), (0x01 : UInt8)) ∈ started [0] 0x01 (booted plainConfig).ctx.slots.registered := by
    simp [started]
  have hnone : _ = started [0] 0x01 (booted plainConfig).ctx.slots.registered := h
  rw [← hnone] at hpair
  exact hpair.1 rfl

end UdsLib.Core
