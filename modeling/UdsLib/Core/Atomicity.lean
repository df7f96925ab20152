import UdsLib.Core.Frame
import UdsLib.Core.Gate

/-! Whether a request that is answered with a negative response leaves everything as it was.
All handlers but one check before they write. The list of ids to start periodically is worked
off id by id, and an id that finds no place is refused after the ids before it were taken. -/
namespace UdsLib.Core
open Bytes Machine Prog Services

variable {W : Type} {cfg : Config W} {s : Sys W} {d : Sdu}

/-- A negative response other than NRC 0x78 was sent. -/
def NegativeAnswer (es : List Event) : Prop :=
  ∃ sid nrc ret, Event.tpSend .nrc [nrcServiceNotSuppInSess, sid, nrc] ret ∈ es ∧
    nrc ≠ nrcResponsePending

/-- If the request is answered with a negative response, it has changed nothing: neither what
only an accepted request may change nor the memory of the DIDs. -/
def Atomic (cfg : Config W) (s : Sys W) (d : Sdu) : Prop :=
  let r := step cfg s (.inputSdu (.bytes d))
  NegativeAnswer r.2 → r.1.ctx.diagnostic = s.ctx.diagnostic ∧ r.1.mem = s.mem

/-- The slots of the periodic scheduler, less their timers. -/
structure Slots where
  ids : Fin 8 → UInt8
  rates : Fin 8 → UInt8
  count : UInt8

def Ctx.slots (c : Ctx) : Slots := ⟨c.periodicIds, c.periodicRates, c.periodicCount⟩

/-- The first slot that holds an id; a free slot holds the id 0. -/
def Slots.find (r : Slots) (id : UInt8) : Option (Fin 8) :=
  (List.finRange 8).find? fun j => r.ids j = id

/-- The slots after an id that has a place was started. -/
def Slots.start (mode id : UInt8) (r : Slots) : Slots :=
  match r.find id with
  | some j => { r with rates := Function.update r.rates j mode }
  | none =>
    match r.find 0 with
    | some j =>
      { ids := Function.update r.ids j id
        rates := Function.update r.rates j mode
        count := r.count + 1 }
    | none => r

/-- The slots in front of the first id of the list that has no place: it is in no slot, and 8
ids are counted. -/
def refusedAt (mode : UInt8) : List UInt8 → Slots → Option Slots
  | [], _ => none
  | id :: ids, r =>
    if r.find id = none ∧ r.count ≥ 8 then some r else refusedAt mode ids (r.start mode id)

/-- A request that starts periodic ids passes all checks of the dispatcher, and the first id
without a place comes behind an id that took a slot or another rate. -/
structure PartialStart (cfg : Config W) (s : Sys W) (d : Sdu) : Prop where
  fits : 3 ≤ cfg.txBufferSize
  sid : d.byte 0 = sidReadByPerId
  core : ∀ entry ∈ cfg.userServices, entry.sid ≠ sidReadByPerId
  admitted : firstFailing cfg (entered cfg s) d = none
  mode : 1 ≤ d.byte 1 &&& 0x0F ∧ d.byte 1 &&& 0x0F ≤ 3
  behind : ∃ r, refusedAt (d.byte 1 &&& 0x0F) (d.bytes.drop 2) s.ctx.slots = some r ∧
    r ≠ s.ctx.slots

/-! ### Negative answers -/

theorem negativeAnswer_append {es fs : List Event} :
    NegativeAnswer (es ++ fs) ↔ NegativeAnswer es ∨ NegativeAnswer fs := by
  unfold NegativeAnswer
  constructor
  · rintro ⟨sid, nrc, ret, hmem, hnrc⟩
    rcases List.mem_append.mp hmem with h | h
    · exact Or.inl ⟨sid, nrc, ret, h, hnrc⟩
    · exact Or.inr ⟨sid, nrc, ret, h, hnrc⟩
  · rintro (⟨sid, nrc, ret, h, hnrc⟩ | ⟨sid, nrc, ret, h, hnrc⟩)
    · exact ⟨sid, nrc, ret, List.mem_append_left _ h, hnrc⟩
    · exact ⟨sid, nrc, ret, List.mem_append_right _ h, hnrc⟩

/-- The kind of event that answers negatively. -/
def Event.isNrc : Event → Bool
  | .tpSend .nrc _ _ => true
  | _ => false

theorem no_negativeAnswer {es : List Event} (h : ∀ e ∈ es, e.isNrc = false) :
    ¬ NegativeAnswer es := by
  rintro ⟨sid, nrc, ret, hmem, -⟩
  exact absurd (h _ hmem) nofun

theorem faults_no_nrc {es : List Event} (h : ∀ e ∈ es, ∃ f, e = .fault f) :
    ∀ e ∈ es, e.isNrc = false :=
  faults_forall h fun _ => rfl

theorem sendNrc_negative (htx : 3 ≤ cfg.txBufferSize) (sid : UInt8) {nrc : UInt8}
    (hnrc : nrc ≠ nrcResponsePending) (s : Sys W) :
    NegativeAnswer ((sendNrc cfg sid nrc).outputs s) := by
  obtain ⟨faults, -, ret, houtputs⟩ := sendNrc_outputs cfg sid nrc s
  rw [houtputs, if_pos htx]
  exact ⟨sid, nrc, ret, by simp, hnrc⟩

theorem sendNrc_pending_not_negative (sid : UInt8) (s : Sys W) :
    ¬ NegativeAnswer ((sendNrc cfg sid nrcResponsePending).outputs s) := by
  obtain ⟨faults, hfaults, ret, houtputs⟩ := sendNrc_outputs cfg sid nrcResponsePending s
  rw [houtputs]
  split_ifs
  · rw [negativeAnswer_append]
    rintro (h | ⟨sid', nrc, ret', hmem, hnrc⟩)
    · exact no_negativeAnswer (faults_no_nrc hfaults) h
    · have heq := List.mem_singleton.mp hmem
      simp only [Event.tpSend.injEq, List.cons.injEq] at heq
      exact hnrc heq.2.1.2.2.1
  · exact no_negativeAnswer nofun

theorem sendResponse_no_nrc (len : UInt16) (s : Sys W) :
    ∀ e ∈ (sendResponse cfg len).outputs s, e.isNrc = false := by
  have hkept : Keeps (fun _ es _ => ∀ e ∈ es, e.isNrc = false) (sendResponse cfg len) := by
    apply sendResponse_keeps
    · exact fun _ => nofun
    · exact fun _ => List.forall_mem_singleton.mpr rfl
    · exact fun _ _ _ => List.forall_mem_singleton.mpr rfl
  exact hkept s

theorem Looked.no_nrc {P B : Prop} {t : Sys W} {es : List Event} (h : Looked P B s es t) :
    ∀ e ∈ es, e.isNrc = false := by
  intro e he
  have hlook := h.events e he
  cases e with
  | tpSend origin data ret => exact absurd hlook Bool.false_ne_true
  | _ => rfl

/-! ### Handlers that check before they write -/

theorem Path.atomic {sid : UInt8} {P B K : Prop} {c h : Bool} {m : M W ℤ}
    (hm : Path cfg sid P B K c h m) (hK : ¬ K) (s : Sys W) (hneg : NegativeAnswer (m.outputs s)) :
    c = false ∧ (m.final s).ctx.diagnostic = s.ctx.diagnostic ∧ (m.final s).mem = s.mem := by
  induction hm generalizing s with
  | @refuse c h nrc hc =>
    have hspared := sendNrc_spared cfg sid nrc s
    exact ⟨Bool.eq_false_iff.mpr fun h => hK (hc h), hspared.diagnostic, hspared.mem⟩
  | send hlen => exact absurd hneg (no_negativeAnswer (sendResponse_no_nrc _ s))
  | sendThen hlen hk hv =>
    rcases negativeAnswer_append.mp hneg with h | h
    · exact absurd h (no_negativeAnswer (sendResponse_no_nrc _ s))
    · exact absurd h (no_negativeAnswer (Look.composed (hk _) _).no_nrc)
  | withhold hB => exact absurd hneg (no_negativeAnswer fun e he => List.mem_singleton.mp he ▸ rfl)
  | @look c h α m f hm hf ih =>
    have hlook := Look.composed hm s
    rcases negativeAnswer_append.mp hneg with hleft | hright
    · exact absurd hleft (no_negativeAnswer hlook.no_nrc)
    · obtain ⟨hc, hdiag, hmem⟩ := ih s (m.final s) hright
      exact ⟨hc, hdiag.trans hlook.diagnostic, hmem.trans hlook.mem⟩
  | @head c h bs f hf ih =>
    rcases negativeAnswer_append.mp hneg with hleft | hright
    · exact absurd hleft (no_negativeAnswer (faults_no_nrc fun _ => writeTx_faults s))
    · exact ih _ hright
  | @commit c h g f hg hconv hpair hf ih => exact absurd (ih _ hneg).1 nofun
  | @store c h addr bs f hf ih => exact absurd (ih _ hneg).1 nofun

/-- Where a negative response does not fit there is none. -/
theorem Path.no_negativeAnswer {sid : UInt8} {P B K : Prop} {c h : Bool} {m : M W ℤ}
    (hm : Path cfg sid P B K c h m) (htx : ¬ 3 ≤ cfg.txBufferSize) (s : Sys W) :
    ¬ NegativeAnswer (m.outputs s) := by
  induction hm generalizing s with
  | refuse nrc hc =>
    obtain ⟨faults, -, ret, houtputs⟩ := sendNrc_outputs cfg sid nrc s
    rw [houtputs, if_neg htx]
    exact Core.no_negativeAnswer nofun
  | send hlen => exact Core.no_negativeAnswer (sendResponse_no_nrc _ s)
  | sendThen hlen hk hv =>
    refine fun hneg => (negativeAnswer_append.mp hneg).elim ?_ ?_
    · exact Core.no_negativeAnswer (sendResponse_no_nrc _ s)
    · exact Core.no_negativeAnswer (Look.composed (hk _) _).no_nrc
  | withhold hB => exact Core.no_negativeAnswer fun e he => List.mem_singleton.mp he ▸ rfl
  | look hm hf ih =>
    refine fun hneg => (negativeAnswer_append.mp hneg).elim ?_ (ih s _)
    exact Core.no_negativeAnswer (Look.composed hm s).no_nrc
  | head bs hf ih =>
    refine fun hneg => (negativeAnswer_append.mp hneg).elim ?_ (ih _)
    exact Core.no_negativeAnswer (faults_no_nrc fun _ => writeTx_faults s)
  | commit hg hconv hpair hf ih => exact ih _
  | store addr bs hf ih => exact ih _

/-! ### The ids to start -/

theorem periodicAccepted_no_nrc (s : Sys W) : ¬ NegativeAnswer ((periodicAccepted cfg).outputs s) := by
  unfold periodicAccepted
  rw [outputs_bind, negativeAnswer_append]
  rintro (h | h)
  · exact no_negativeAnswer (faults_no_nrc fun _ => writeTx_faults s) h
  · exact no_negativeAnswer (sendResponse_no_nrc _ _) h

/-- What the loop over the ids has done when it refuses one: the slots are those in front of it,
and a timer moved only if the count went up. -/
structure Refused (s t : Sys W) (r : Slots) : Prop where
  diagnostic : t.ctx.diagnostic = { s.ctx.diagnostic with
    periodicIds := r.ids, periodicRates := r.rates, periodicCount := r.count
    periodicTimers := t.ctx.periodicTimers }
  mem : t.mem = s.mem
  timers : t.ctx.periodicTimers = s.ctx.periodicTimers ∨
    s.ctx.periodicCount.toNat < r.count.toNat
  counts : s.ctx.periodicCount.toNat ≤ r.count.toNat

/-- What the start of an id may do to the slots. -/
structure Started (s t : Sys W) : Prop where
  diagnostic : t.ctx.diagnostic = { s.ctx.diagnostic with
    periodicIds := t.ctx.periodicIds, periodicRates := t.ctx.periodicRates
    periodicCount := t.ctx.periodicCount, periodicTimers := t.ctx.periodicTimers }
  mem : t.mem = s.mem
  timers : t.ctx.periodicTimers = s.ctx.periodicTimers ∨
    s.ctx.periodicCount.toNat < t.ctx.periodicCount.toNat
  counts : s.ctx.periodicCount.toNat ≤ t.ctx.periodicCount.toNat

theorem Started.then {s t u : Sys W} {r : Slots} (h : Started s t) (hnext : Refused t u r) :
    Refused s u r := by
  constructor
  · rw [hnext.diagnostic, h.diagnostic]
  · exact hnext.mem.trans h.mem
  · have := hnext.counts
    rcases h.timers with hsame | hless
    · rcases hnext.timers with hsame' | hless'
      · exact Or.inl (hsame'.trans hsame)
      · exact Or.inr (Nat.lt_of_le_of_lt h.counts hless')
    · exact Or.inr (Nat.lt_of_lt_of_le hless this)
  · exact Nat.le_trans h.counts hnext.counts

/-- A pass of the loop that does not refuse: the rest of the list is worked off from `t`. -/
structure Pass (cfg : Config W) (d : Sdu) (mode : UInt8) (i : ℕ) (is : List ℕ) (s t : Sys W) :
    Prop where
  started : Started s t
  slots : t.ctx.slots = s.ctx.slots.start mode (d.byte i)
  final : (startIds cfg d mode (i :: is)).final s = (startIds cfg d mode is).final t
  outputs : ∃ es, (∀ e ∈ es, e.isNrc = false) ∧ (startIds cfg d mode (i :: is)).outputs s =
    (byteAt d i).outputs s ++ (es ++ (startIds cfg d mode is).outputs t)

theorem Pass.negative_iff {mode : UInt8} {i : ℕ} {is : List ℕ} {t : Sys W}
    (h : Pass cfg d mode i is s t) : NegativeAnswer ((startIds cfg d mode (i :: is)).outputs s) ↔
      NegativeAnswer ((startIds cfg d mode is).outputs t) := by
  obtain ⟨es, hes, houtputs⟩ := h.outputs
  have hbyte : ¬ NegativeAnswer ((byteAt d i).outputs s) :=
    no_negativeAnswer (faults_no_nrc fun _ => byteAt_faults s)
  rw [houtputs, negativeAnswer_append, negativeAnswer_append]
  simp [hbyte, no_negativeAnswer hes]

/-- An id that has a place is started. -/
theorem startIds_passes (cfg : Config W) (mode : UInt8) (i : ℕ) (is : List ℕ)
    (hplace : ¬ (s.ctx.slots.find (d.byte i) = none ∧ s.ctx.slots.count ≥ 8)) :
    ∃ t, Pass cfg d mode i is s t := by
  have hslot : slotOf s.ctx (d.byte i) = s.ctx.slots.find (d.byte i) := rfl
  cases hfind : s.ctx.slots.find (d.byte i) with
  | some j =>
    refine ⟨{ s with ctx := { s.ctx with
      periodicRates := Function.update s.ctx.periodicRates j mode } }, ?_, ?_, ?_, [], nofun, ?_⟩
    · exact ⟨rfl, rfl, Or.inl rfl, le_rfl⟩
    · unfold Slots.start
      rw [hfind]
      rfl
    · rw [startIds, final_byteAt_bind, final_getCtx_bind, hslot, hfind]
      rfl
    · rw [startIds, outputs_byteAt_then, outputs_getCtx_bind, hslot, hfind]
      rfl
  | none =>
    have hroom : ¬ s.ctx.periodicCount ≥ 8 := fun h => hplace ⟨hfind, h⟩
    have hfree' : slotOf s.ctx 0 = s.ctx.slots.find 0 := rfl
    cases hfree : s.ctx.slots.find 0 with
    | some j =>
      have hup : s.ctx.periodicCount.toNat < (s.ctx.periodicCount + 1).toNat := by
        have hlt := UInt8.lt_iff_toNat_lt.mp (UInt8.not_le.mp hroom)
        have height : (8 : UInt8).toNat = 8 := rfl
        have hone : (1 : UInt8).toNat = 1 := rfl
        rw [UInt8.toNat_add]
        omega
      refine ⟨{ s with
        world := (cfg.getTimeMs s.world).2
        ctx := { s.ctx with
          periodicIds := Function.update s.ctx.periodicIds j (d.byte i)
          periodicRates := Function.update s.ctx.periodicRates j mode
          periodicTimers := Function.update s.ctx.periodicTimers j (cfg.getTimeMs s.world).1
          periodicCount := s.ctx.periodicCount + 1 } }, ?_, ?_, ?_,
        [.time (cfg.getTimeMs s.world).1], fun e he => List.mem_singleton.mp he ▸ rfl, ?_⟩
      · exact ⟨rfl, rfl, Or.inr hup, hup.le⟩
      · unfold Slots.start
        rw [hfind, hfree]
        rfl
      · rw [startIds, final_byteAt_bind, final_getCtx_bind, hslot, hfind]
        refine (congrArg (fun m => Prog.final m s) (if_neg hroom)).trans ?_
        rw [hfree', hfree]
        rfl
      · rw [startIds, outputs_byteAt_then, outputs_getCtx_bind, hslot, hfind]
        refine congrArg (_ ++ ·) ((congrArg (fun m => Prog.outputs m s) (if_neg hroom)).trans ?_)
        rw [hfree', hfree]
        rfl
    | none =>
      refine ⟨s, ⟨rfl, rfl, Or.inl rfl, le_rfl⟩, ?_, ?_, [], nofun, ?_⟩
      · unfold Slots.start
        rw [hfind, hfree]
      · rw [startIds, final_byteAt_bind, final_getCtx_bind, hslot, hfind]
        refine (congrArg (fun m => Prog.final m s) (if_neg hroom)).trans ?_
        rw [hfree', hfree]
      · rw [startIds, outputs_byteAt_then, outputs_getCtx_bind, hslot, hfind]
        refine congrArg (_ ++ ·) ((congrArg (fun m => Prog.outputs m s) (if_neg hroom)).trans ?_)
        rw [hfree', hfree]
        rfl

/-- An id without a place is refused, and the slots are what they were in front of it. -/
theorem startIds_refuses (htx : 3 ≤ cfg.txBufferSize) (mode : UInt8) (i : ℕ) (is : List ℕ)
    (hfind : s.ctx.slots.find (d.byte i) = none) (hfull : s.ctx.slots.count ≥ 8) :
    NegativeAnswer ((startIds cfg d mode (i :: is)).outputs s) ∧
      Refused s ((startIds cfg d mode (i :: is)).final s) s.ctx.slots := by
  have hslot : slotOf s.ctx (d.byte i) = s.ctx.slots.find (d.byte i) := rfl
  have hfinal : (startIds cfg d mode (i :: is)).final s =
      (sendNrc cfg sidReadByPerId nrcResponseTooLong).final s := by
    rw [startIds, final_byteAt_bind, final_getCtx_bind, hslot, hfind]
    exact congrArg (fun m => Prog.final m s) (if_pos hfull)
  have houtputs : (startIds cfg d mode (i :: is)).outputs s = (byteAt d i).outputs s ++
      (sendNrc cfg sidReadByPerId nrcResponseTooLong).outputs s := by
    rw [startIds, outputs_byteAt_then, outputs_getCtx_bind, hslot, hfind]
    exact congrArg (fun m => _ ++ Prog.outputs m s) (if_pos hfull)
  have hspared : Spared s _ _ := sendNrc_spared cfg sidReadByPerId nrcResponseTooLong s
  have htimers : ((sendNrc cfg sidReadByPerId nrcResponseTooLong).final s).ctx.periodicTimers =
      s.ctx.periodicTimers := congrArg Diagnostic.periodicTimers hspared.diagnostic
  rw [hfinal, houtputs]
  constructor
  · exact negativeAnswer_append.mpr (Or.inr (sendNrc_negative htx _ (by decide) s))
  · refine ⟨?_, hspared.mem, Or.inl htimers, le_rfl⟩
    rw [hspared.diagnostic, htimers]
    rfl

/-- The loop refuses exactly where `refusedAt` says. -/
theorem startIds_refused (htx : 3 ≤ cfg.txBufferSize) (mode : UInt8) (is : List ℕ) (s : Sys W) :
    match refusedAt mode (is.map d.byte) s.ctx.slots with
    | none => ¬ NegativeAnswer ((startIds cfg d mode is).outputs s)
    | some r => NegativeAnswer ((startIds cfg d mode is).outputs s) ∧
        Refused s ((startIds cfg d mode is).final s) r := by
  induction is generalizing s with
  | nil => exact periodicAccepted_no_nrc s
  | cons i is ih =>
    rw [List.map_cons, refusedAt]
    by_cases hplace : s.ctx.slots.find (d.byte i) = none ∧ s.ctx.slots.count ≥ 8
    · rw [if_pos hplace]
      exact startIds_refuses htx mode i is hplace.1 hplace.2
    · obtain ⟨t, hpass⟩ := startIds_passes cfg mode i is hplace
      have hnext := ih t
      rw [if_neg hplace, ← hpass.slots, hpass.final, hpass.negative_iff]
      split at hnext
      next => exact hnext
      next => exact ⟨hnext.1, hpass.started.then hnext.2⟩

/-! ### The request as a whole -/

/-- Nothing changes that a request may change, and there is no negative answer. -/
def Calm (s : Sys W) (es : List Event) (t : Sys W) : Prop :=
  t.ctx.diagnostic = s.ctx.diagnostic ∧ t.mem = s.mem ∧ ¬ NegativeAnswer es

theorem calm_composable : Composable (Calm (W := W)) where
  refl _ := ⟨rfl, rfl, no_negativeAnswer nofun⟩
  trans h hnext := by
    refine ⟨hnext.1.trans h.1, hnext.2.1.trans h.2.1, ?_⟩
    rw [negativeAnswer_append]
    exact not_or.mpr ⟨h.2.2, hnext.2.2⟩

/-- What `execute_handler` does behind the handler is calm. -/
theorem executeHandler_tail (cfg : Config W) (service : Service W) (d : Sdu) (t : Sys W) :
    ∃ es, (executeHandler cfg service d).outputs t =
        .handler service.sid :: ((service.handler d).outputs t ++ es) ∧
      Calm ((service.handler d).final t) es ((executeHandler cfg service d).final t) := by
  have hctx {g : Ctx → Ctx} (hg : ∀ c, (g c).diagnostic = c.diagnostic) :
      Keeps (Calm (W := W)) (setCtx g) := fun s => ⟨hg s.ctx, rfl, no_negativeAnswer nofun⟩
  apply executeHandler_split calm_composable
  · exact fun s => ⟨rfl, rfl, no_negativeAnswer (faults_no_nrc fun _ => byteAt_faults s)⟩
  · intro sid s
    have hspared := sendNrc_spared cfg sid nrcResponsePending s
    exact ⟨hspared.diagnostic, hspared.mem, sendNrc_pending_not_negative sid s⟩
  · exact fun _ => ⟨rfl, rfl, no_negativeAnswer fun e he => List.mem_singleton.mp he ▸ rfl⟩
  · exact hctx fun _ => rfl
  · exact fun _ _ => hctx fun _ => rfl

theorem around_no_nrc {es : List Event} (h : es.all Event.isAround = true) :
    ∀ e ∈ es, e.isNrc = false :=
  around_forall h (fun _ => rfl) (fun _ => rfl) fun _ => rfl

theorem Gated.no_nrc {t : Sys W} {es : List Event} (h : Gated s es t) :
    ∀ e ∈ es, e.isNrc = false :=
  h.forall fun _ _ _ => rfl

theorem Gated.diagnostic {t : Sys W} {es : List Event} (h : Gated s es t) :
    t.ctx.diagnostic = s.ctx.diagnostic ∧ t.mem = s.mem := by
  rw [h.1]
  exact ⟨rfl, rfl⟩

theorem entered_mem (cfg : Config W) (s : Sys W) : (entered cfg s).mem = s.mem := by
  have hlock : ((mutexLock cfg).final s).mem = s.mem := by rw [(mutexLock_around cfg s).1]
  exact hlock

/-- On an idle context the dispatch decides whether a request is atomic. -/
theorem atomic_iff_dispatch (hidle : Idle s.ctx) (hne : d.bytes ≠ []) : Atomic cfg s d ↔
    (NegativeAnswer ((handleRequest cfg d).outputs (entered cfg s)) →
      ((handleRequest cfg d).final (entered cfg s)).ctx.diagnostic = s.ctx.diagnostic ∧
        ((handleRequest cfg d).final (entered cfg s)).mem = s.mem) := by
  obtain ⟨hfinal, before, after, hbefore, hafter, houtputs⟩ :=
    step_dispatched cfg hidle.notPending (hidle.not_answer d) hne
  have hneg : NegativeAnswer (step cfg s (.inputSdu (.bytes d))).2 ↔
      NegativeAnswer ((handleRequest cfg d).outputs (entered cfg s)) := by
    rw [houtputs, negativeAnswer_append, negativeAnswer_append]
    simp [no_negativeAnswer (around_no_nrc hbefore), no_negativeAnswer (around_no_nrc hafter)]
  unfold Atomic
  dsimp only
  rw [hneg, hfinal.1]

/-- A request that fails a check changes nothing. -/
theorem atomic_of_rejected {check : Check} (hidle : Idle s.ctx) (hne : d.bytes ≠ [])
    (hfail : firstFailing cfg (entered cfg s) d = some check) : Atomic cfg s d := by
  apply (atomic_iff_dispatch hidle hne).mpr
  intro _
  have hleads := handleRequest_leads cfg (entered cfg s) hne
  rw [hfail] at hleads
  obtain ⟨es, w, hgated, -, hlast, -⟩ := hleads
  have hspared := reject_spared cfg (d.byte 0) check.nrc w
  rw [hlast, hspared.diagnostic, hspared.mem, hgated.diagnostic.1, hgated.diagnostic.2]
  exact ⟨entered_diagnostic cfg s, entered_mem cfg s⟩

/-- For an admitted request the handler decides. -/
theorem atomic_iff_handler {service : Service W} (hidle : Idle s.ctx) (hne : d.bytes ≠ [])
    (hpass : firstFailing cfg (entered cfg s) d = none)
    (hservice : findService cfg (d.byte 0) = some service) :
    ∃ u : Sys W, u.ctx.diagnostic = s.ctx.diagnostic ∧ u.mem = s.mem ∧ (Atomic cfg s d ↔
      (NegativeAnswer ((service.handler d).outputs u) →
        ((service.handler d).final u).ctx.diagnostic = u.ctx.diagnostic ∧
          ((service.handler d).final u).mem = u.mem)) := by
  have hleads := handleRequest_leads cfg (entered cfg s) hne
  rw [hpass] at hleads
  obtain ⟨found, hfound, hfinal, houtputs⟩ := hleads
  obtain rfl := Option.some.inj (hfound.symm.trans hservice)
  have hgated : Gated (entered cfg s) _ (atHandler cfg found d (entered cfg s)) :=
    safetyGate_gated _
  obtain ⟨es, hrun, hdiag, hmem, hcalm⟩ :=
    executeHandler_tail cfg found d (atHandler cfg found d (entered cfg s))
  have hu := hgated.diagnostic.1.trans (entered_diagnostic cfg s)
  have hu' := hgated.diagnostic.2.trans (entered_mem cfg s)
  refine ⟨_, hu, hu', ?_⟩
  have hneg : NegativeAnswer ((handleRequest cfg d).outputs (entered cfg s)) ↔
      NegativeAnswer ((found.handler d).outputs (atHandler cfg found d (entered cfg s))) := by
    have hskip {e : Event} (he : e.isNrc = false) (es : List Event) :
        NegativeAnswer (e :: es) ↔ NegativeAnswer es := by
      have hnone : ¬ NegativeAnswer [e] :=
        no_negativeAnswer fun x hx => List.mem_singleton.mp hx ▸ he
      rw [← List.singleton_append, negativeAnswer_append]
      simp [hnone]
    rw [houtputs, hrun, List.cons_append, hskip rfl, negativeAnswer_append, hskip rfl,
      negativeAnswer_append]
    simp [no_negativeAnswer hgated.no_nrc, hcalm]
  rw [atomic_iff_dispatch hidle hne, hneg, hfinal, hdiag, hmem, hu, hu']

theorem listed_ids (d : Sdu) : (List.range' 2 (d.bytes.length - 2)).map d.byte = d.bytes.drop 2 := by
  apply List.ext_getElem
  · simp
  · intro i h1 h2
    have hlt : 2 + 1 * i < d.bytes.length := by
      rw [List.length_drop] at h2
      omega
    simp only [List.getElem_map, List.getElem_range', List.getElem_drop, Sdu.byte]
    rw [List.getD_eq_getElem _ _ hlt]
    simp only [Nat.one_mul]

/-- An admitted request for the periodic read with a mode from 1 to 3 reaches the loop. -/
theorem periodicRead_starts (cfg : Config W) (hlen : 2 ≤ d.bytes.length)
    (hmode : 1 ≤ d.byte 1 &&& 0x0F ∧ d.byte 1 &&& 0x0F ≤ 3) (u : Sys W) :
    (handlePeriodicRead cfg d).final u =
        (startIds cfg d (d.byte 1 &&& 0x0F) (List.range' 2 (d.bytes.length - 2))).final u ∧
      (handlePeriodicRead cfg d).outputs u =
        (startIds cfg d (d.byte 1 &&& 0x0F) (List.range' 2 (d.bytes.length - 2))).outputs u := by
  have hlen' : ¬ d.len < 2 := by
    rw [UInt16.lt_iff_toNat_lt, d.len_toNat]
    exact Nat.not_lt.mpr hlen
  have hstop : ¬ d.byte 1 &&& 0x0F = 4 := by
    intro h
    rw [h] at hmode
    exact absurd hmode.2 (by decide)
  have hrange : ¬ (d.byte 1 &&& 0x0F < 1 ∨ d.byte 1 &&& 0x0F > 3) :=
    not_or.mpr ⟨UInt8.not_lt.mpr hmode.1, UInt8.not_lt.mpr hmode.2⟩
  unfold handlePeriodicRead
  rw [if_neg hlen', final_byteAt_bind, outputs_byteAt_bind _ _ _ _ hlen]
  dsimp only
  rw [if_neg hstop, if_neg hrange]
  exact ⟨rfl, rfl⟩

/-- Among the requests that start periodic ids, those of `PartialStart` are the ones that a
negative response leaves half done. -/
theorem atomic_iff_behind (hidle : Idle s.ctx) (hne : d.bytes ≠ []) (htx : 3 ≤ cfg.txBufferSize)
    (hpass : firstFailing cfg (entered cfg s) d = none)
    (hservice : findService cfg (d.byte 0) =
      some (coreService sidReadByPerId 2 (handlePeriodicRead cfg) (some maskSub2A)))
    (hlen : 2 ≤ d.bytes.length) (hmode : 1 ≤ d.byte 1 &&& 0x0F ∧ d.byte 1 &&& 0x0F ≤ 3) :
    Atomic cfg s d ↔ ¬ ∃ r, refusedAt (d.byte 1 &&& 0x0F) (d.bytes.drop 2) s.ctx.slots = some r ∧
      r ≠ s.ctx.slots := by
  obtain ⟨u, hdiag, -, hatomic⟩ := atomic_iff_handler hidle hne hpass hservice
  obtain ⟨hfinal, houtputs⟩ := periodicRead_starts cfg hlen hmode u
  have hslots : u.ctx.slots = s.ctx.slots :=
    congrArg (fun g : Diagnostic => Slots.mk g.periodicIds g.periodicRates g.periodicCount) hdiag
  have hloop := startIds_refused (d := d) htx (d.byte 1 &&& 0x0F)
    (List.range' 2 (d.bytes.length - 2)) u
  rw [listed_ids, hslots] at hloop
  rw [hatomic]
  change (NegativeAnswer ((handlePeriodicRead cfg d).outputs u) →
    ((handlePeriodicRead cfg d).final u).ctx.diagnostic = _ ∧
      ((handlePeriodicRead cfg d).final u).mem = _) ↔ _
  rw [hfinal, houtputs]
  cases hr : refusedAt (d.byte 1 &&& 0x0F) (d.bytes.drop 2) s.ctx.slots with
  | none =>
    rw [hr] at hloop
    simp [hloop]
  | some r =>
    rw [hr] at hloop
    obtain ⟨hneg, hrefused⟩ := hloop
    constructor
    · rintro h ⟨r', hr', hne'⟩
      obtain rfl := Option.some.inj hr'
      apply hne'
      have hsame := (h hneg).1
      rw [hrefused.diagnostic] at hsame
      have hr : r = u.ctx.slots := congrArg
        (fun g : Diagnostic => Slots.mk g.periodicIds g.periodicRates g.periodicCount) hsame
      exact hr.trans hslots
    · intro h _
      have hkept : r = s.ctx.slots := by
        by_contra hne'
        exact h ⟨r, rfl, hne'⟩
      rw [← hslots] at hkept
      subst hkept
      have htimers := hrefused.timers.resolve_right (Nat.lt_irrefl _)
      refine ⟨?_, hrefused.mem⟩
      rw [hrefused.diagnostic, htimers]
      rfl

theorem atomic_of_empty (h : d.bytes = []) : Atomic cfg s d := by
  obtain ⟨-, houtputs⟩ := step_ignored cfg s fun d' (hd : Buf.bytes d = .bytes d') => by cases hd; exact h
  have hevents : ∀ e ∈ (step cfg s (.inputSdu (.bytes d))).2, e.isNrc = false := by
    rw [houtputs]
    apply around_no_nrc
    rw [List.all_append, (mutexLock_around cfg s).2, (mutexUnlock_around cfg _).2]
    rfl
  exact fun hneg => absurd hneg (no_negativeAnswer hevents)

/-- A negative answer changes nothing, unless it refuses an id to start periodically behind an
id that was taken. -/
theorem negative_answer_atomic_iff (cfg : Config W) (s : Sys W) (d : Sdu) (hidle : Idle s.ctx) :
    Atomic cfg s d ↔ ¬ PartialStart cfg s d := by
  by_cases hne : d.bytes = []
  · have hsid : ¬ d.byte 0 = sidReadByPerId := by
      unfold Sdu.byte
      rw [hne]
      decide
    exact iff_of_true (atomic_of_empty hne) fun h => hsid h.sid
  cases hpass : firstFailing cfg (entered cfg s) d with
  | some check =>
    refine iff_of_true (atomic_of_rejected hidle hne hpass) fun h => ?_
    exact nomatch hpass.symm.trans h.admitted
  | none =>
    obtain ⟨service, hchosen, hchecks⟩ := (firstFailing_none_iff _).mp hpass
    have hservice := (findService_iff _ _).mpr hchosen
    obtain ⟨u, hdiag, hmem, hatomic⟩ := atomic_iff_handler hidle hne hpass hservice
    rcases hchosen with ⟨before, entry, after, hsplit, -, hsid, rfl⟩ | ⟨hnone, hmember, hsid⟩
    · have hspared := runApp_spared cfg (entry.handler d) u
      refine iff_of_true (hatomic.mpr fun _ => ⟨hspared.diagnostic, hspared.mem⟩) fun h => ?_
      exact h.core entry (hsplit ▸ by simp) (hsid.trans h.sid)
    · have hpath := coreServices_path d service hmember
      by_cases hstarts : service.sid = sidReadByPerId ∧ 1 ≤ d.byte 1 &&& 0x0F ∧
          d.byte 1 &&& 0x0F ≤ 3
      · by_cases htx : 3 ≤ cfg.txBufferSize
        · have hfind : (coreServices cfg).find? (fun e => e.sid = sidReadByPerId) = some service :=
            (find?_sid coreServices_nodup service).mpr ⟨hmember, hstarts.1⟩
          obtain rfl := Option.some.inj hfind
          have hlen : 2 ≤ d.bytes.length := of_decide_eq_true (hchecks .length)
          rw [atomic_iff_behind hidle hne htx hpass hservice hlen hstarts.2]
          refine not_congr ⟨fun h => ?_, PartialStart.behind⟩
          exact ⟨htx, hsid.symm, fun entry he => hnone entry he ∘ (·.trans hsid), hpass, hstarts.2, h⟩
        · refine iff_of_true (hatomic.mpr fun hneg => ?_) fun h => htx h.fits
          exact absurd hneg (hpath.no_negativeAnswer htx u)
      · refine iff_of_true (hatomic.mpr fun hneg => (hpath.atomic hstarts u hneg).2) fun h => ?_
        exact hstarts ⟨hsid.trans h.sid, h.mode⟩

/-- A list of nine ids to start, with room for eight. -/
def nineIds : Sdu := ⟨[0x2A, 0x01, 1, 2, 3, 4, 5, 6, 7, 8, 9], by decide⟩

/-- The ninth id is refused, and the eight in front of it stay registered. -/
theorem nineIds_not_atomic :
    let r := step plainConfig (booted plainConfig) (.inputSdu (.bytes nineIds))
    sentOf r.2 = [[0x7F, 0x2A, 0x14]] ∧ (booted plainConfig).ctx.periodicCount = 0 ∧
      r.1.ctx.periodicCount = 8 ∧ ¬ Atomic plainConfig (booted plainConfig) nineIds := by
  have hsent : Event.tpSend .nrc [0x7F, 0x2A, 0x14] 0 ∈
      (step plainConfig (booted plainConfig) (.inputSdu (.bytes nineIds))).2 := by decide +kernel
  refine ⟨by decide +kernel, rfl, by decide +kernel, fun h => ?_⟩
  have hkept := congrArg Diagnostic.periodicCount (h ⟨0x2A, 0x14, 0, hsent, by decide⟩).1
  exact absurd hkept (by decide +kernel)

/-- A write to an id that nobody knows. -/
def unknownWrite : Sdu := ⟨[0x2E, 0xF1, 0x90, 0x01], by decide⟩

theorem unknownWrite_atomic :
    sentOf (step plainConfig (booted plainConfig) (.inputSdu (.bytes unknownWrite))).2 =
        [[0x7F, 0x2E, 0x31]] ∧ Atomic plainConfig (booted plainConfig) unknownWrite :=
  ⟨by decide +kernel, (negative_answer_atomic_iff plainConfig (booted plainConfig) unknownWrite
    ⟨by decide, by decide⟩).mpr fun h => absurd h.sid (by decide)⟩

end UdsLib.Core
