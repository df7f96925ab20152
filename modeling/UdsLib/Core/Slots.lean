import Mathlib.Data.Finset.Card
import Mathlib.Data.Fintype.Card
import UdsLib.Core.Atomicity

/-! The slots of the periodic scheduler as a table of ids and rates: what starting and stopping ids makes
of the registered pairs, and of the count beside them. -/
namespace UdsLib.Core
open Services

/-- The number of slots in use. -/
def Slots.taken (r : Slots) : ℕ := (Finset.univ.filter fun j => r.ids j ≠ 0).card

/-- An id in use is in one slot only. -/
def Slots.Distinct (r : Slots) : Prop := ∀ i j, r.ids i ≠ 0 → r.ids i = r.ids j → i = j

/-- The count is the number of slots in use, and the ids in use are distinct. -/
structure Slots.Consistent (r : Slots) : Prop where
  counted : r.count.toNat = r.taken
  distinct : r.Distinct

/-- The registered ids with their rates. -/
def Slots.registered (r : Slots) : Set (UInt8 × UInt8) :=
  {p | p.1 ≠ 0 ∧ ∃ j, r.ids j = p.1 ∧ r.rates j = p.2}

/-- The pairs after all ids of the list were given the rate. -/
def started (ids : List UInt8) (rate : UInt8) (pairs : Set (UInt8 × UInt8)) : Set (UInt8 × UInt8) :=
  {p | if p.1 ∈ ids then p.2 = rate else p ∈ pairs}

/-- The slots after an id was stopped. -/
def Slots.stop (r : Slots) (id : UInt8) : Slots where
  ids j := if r.ids j = id then 0 else r.ids j
  rates := r.rates
  count := r.count - UInt8.ofNat (Finset.univ.filter fun j => r.ids j = id).card

/-- The slots after all ids were stopped. -/
def Slots.clear (r : Slots) : Slots := { r with ids := fun _ => 0, count := 0 }

/-- The slots after a list of ids was worked off, up to the first one that has no place. -/
def Slots.startAll (mode : UInt8) : List UInt8 → Slots → Slots
  | [], r => r
  | id :: ids, r =>
    if r.find id = none ∧ r.count ≥ 8 then r else Slots.startAll mode ids (r.start mode id)

/-- The slots after a request for the periodic read with this mode and these ids. -/
def Slots.request (r : Slots) (mode : UInt8) (ids : List UInt8) : Slots :=
  if mode = 0x04 then
    if ids = [] then r.clear else ids.foldl Slots.stop r
  else if mode < 0x01 ∨ mode > 0x03 then r
  else r.startAll mode ids

/-- How often a list of ids to stop counts a slot down that is not in use. -/
def Slots.miscounts (r : Slots) : List UInt8 → ℕ
  | [] => 0
  | id :: ids => (if id = 0 then 8 - r.taken else 0) + (r.stop id).miscounts ids

/-- There is a slot for each listed id that is not registered. -/
def Slots.Fits (r : Slots) (ids : List UInt8) : Prop :=
  r.taken + (ids.toFinset.filter fun id => ∀ j, r.ids j ≠ id).card ≤ 8

instance (r : Slots) (ids : List UInt8) : Decidable (r.Fits ids) := inferInstanceAs (Decidable (_ ≤ _))

variable {r : Slots} {id mode : UInt8} {ids : List UInt8} {j : Fin 8}

/-! ### Slots -/

theorem Slots.taken_le (r : Slots) : r.taken ≤ 8 := (Finset.card_filter_le _ _).trans_eq (Fintype.card_fin 8)

theorem Slots.find_some (h : r.find id = some j) : r.ids j = id := by
  have hfound := List.find?_some h
  exact of_decide_eq_true hfound

theorem Slots.find_none_iff : r.find id = none ↔ ∀ j, r.ids j ≠ id := by
  unfold Slots.find
  simp

/-- A slot is free as long as not all are in use. -/
theorem Slots.free_iff : r.find 0 = none ↔ r.taken = 8 := by
  have hall := Finset.card_filter_eq_iff (s := (Finset.univ : Finset (Fin 8))) (p := fun j => r.ids j ≠ 0)
  rw [Finset.card_univ, Fintype.card_fin] at hall
  rw [Slots.find_none_iff, Slots.taken, hall]
  simp

/-- How far the count is behind the slots in use. -/
def Slots.drift (r : Slots) : UInt8 := UInt8.ofNat r.taken - r.count

theorem Slots.drift_eq_zero_iff : r.drift = 0 ↔ r.count.toNat = r.taken := by
  have hle := r.taken_le
  have htoNat : (UInt8.ofNat r.taken).toNat = r.taken := by
    rw [UInt8.toNat_ofNat']
    omega
  have hsub : UInt8.ofNat r.taken - r.count = 0 ↔ UInt8.ofNat r.taken = r.count := by grind
  rw [Slots.drift, hsub, ← UInt8.toNat_inj, htoNat]
  exact eq_comm

/-! ### Stopping -/

theorem Slots.stop_taken (hid : id ≠ 0) :
    (r.stop id).taken + (Finset.univ.filter fun j => r.ids j = id).card = r.taken := by
  have hsplit := Finset.card_filter_add_card_filter_not (s := Finset.univ.filter fun j => r.ids j ≠ 0)
    (fun j => r.ids j ≠ id)
  rw [Finset.filter_filter, Finset.filter_filter] at hsplit
  have hkept : (Finset.univ.filter fun j => r.ids j ≠ 0 ∧ r.ids j ≠ id) =
      Finset.univ.filter fun j => (r.stop id).ids j ≠ 0 := by
    ext j
    rw [Finset.mem_filter, Finset.mem_filter]
    simp only [Finset.mem_univ, true_and, Slots.stop]
    by_cases h : r.ids j = id
    · simp [h]
    · simp [h]
  have hgone : (Finset.univ.filter fun j => r.ids j ≠ 0 ∧ ¬ r.ids j ≠ id) =
      Finset.univ.filter fun j => r.ids j = id := by
    ext j
    simp only [Finset.mem_filter, Finset.mem_univ, true_and, not_not]
    exact and_iff_right_of_imp fun h => h ▸ hid
  rw [hkept, hgone] at hsplit
  exact hsplit

theorem Slots.stop_zero_ids (r : Slots) : (r.stop 0).ids = r.ids := by
  funext j
  simp only [Slots.stop]
  split_ifs with h
  · exact h.symm
  · rfl

theorem Slots.free_card (r : Slots) : (Finset.univ.filter fun j => r.ids j = 0).card = 8 - r.taken := by
  have hsplit := Finset.card_filter_add_card_filter_not (s := (Finset.univ : Finset (Fin 8)))
    (fun j => r.ids j = 0)
  rw [Finset.card_univ, Fintype.card_fin] at hsplit
  change _ + r.taken = 8 at hsplit
  omega

/-- Stopping an id moves the count with the slots, but for the id 0: it is in no slot in use, and each
free slot counts as one that holds it. -/
theorem Slots.stop_drift (r : Slots) (id : UInt8) :
    (r.stop id).drift = r.drift + UInt8.ofNat (if id = 0 then 8 - r.taken else 0) := by
  by_cases hid : id = 0
  · subst hid
    have htaken : (r.stop 0).taken = r.taken := by rw [Slots.taken, Slots.stop_zero_ids, Slots.taken]
    have hcount : (r.stop 0).count = r.count - UInt8.ofNat (8 - r.taken) := by
      rw [← Slots.free_card]
      rfl
    rw [if_pos rfl, Slots.drift, Slots.drift, htaken, hcount]
    grind
  · have htaken := Slots.stop_taken (r := r) hid
    have hcount : (r.stop id).count = r.count -
        UInt8.ofNat (Finset.univ.filter fun j => r.ids j = id).card := rfl
    have hsum : UInt8.ofNat (r.stop id).taken +
        UInt8.ofNat (Finset.univ.filter fun j => r.ids j = id).card = UInt8.ofNat r.taken := by
      rw [← UInt8.ofNat_add, htaken]
    have hzero : UInt8.ofNat 0 = 0 := rfl
    rw [if_neg hid, Slots.drift, Slots.drift, hcount, ← hsum, hzero]
    grind

theorem Slots.stop_distinct (hr : r.Distinct) (id : UInt8) : (r.stop id).Distinct := by
  intro i j hi hij
  simp only [Slots.stop] at hi hij
  by_cases hi' : r.ids i = id
  · rw [if_pos hi'] at hi
    exact absurd rfl hi
  · rw [if_neg hi'] at hi hij
    by_cases hj' : r.ids j = id
    · rw [if_pos hj'] at hij
      exact absurd hij hi
    · rw [if_neg hj'] at hij
      exact hr i j hi hij

theorem Slots.stopAll_drift (r : Slots) (ids : List UInt8) :
    (ids.foldl Slots.stop r).drift = r.drift + UInt8.ofNat (r.miscounts ids) := by
  induction ids generalizing r with
  | nil => exact (UInt8.add_zero _).symm
  | cons id ids ih =>
    rw [List.foldl_cons, ih, Slots.stop_drift, Slots.miscounts, UInt8.ofNat_add, UInt8.add_assoc]

theorem Slots.stopAll_distinct (hr : r.Distinct) (ids : List UInt8) :
    (ids.foldl Slots.stop r).Distinct := by
  induction ids generalizing r with
  | nil => exact hr
  | cons id ids ih => exact ih (Slots.stop_distinct hr id)

theorem Slots.stop_registered (r : Slots) (id : UInt8) :
    (r.stop id).registered = {p | p ∈ r.registered ∧ p.1 ≠ id} := by
  ext ⟨x, rate⟩
  simp only [Slots.registered, Slots.stop, Set.mem_ofPred_eq]
  constructor
  · rintro ⟨hx, j, hj, hrate⟩
    split_ifs at hj with h
    · exact absurd hj.symm hx
    · exact ⟨⟨hx, j, hj, hrate⟩, fun hid => h (hj.trans hid)⟩
  · rintro ⟨⟨hx, j, hj, hrate⟩, hid⟩
    refine ⟨hx, j, ?_, hrate⟩
    rw [if_neg fun h => hid (hj.symm.trans h)]
    exact hj

theorem Slots.stopAll_registered (r : Slots) (ids : List UInt8) :
    (ids.foldl Slots.stop r).registered = {p | p ∈ r.registered ∧ p.1 ∉ ids} := by
  induction ids generalizing r with
  | nil => simp
  | cons id ids ih =>
    rw [List.foldl_cons, ih, Slots.stop_registered]
    ext p
    simp [and_assoc]

theorem Slots.clear_registered (r : Slots) : r.clear.registered = ∅ := by
  ext p
  simp only [Slots.registered, Slots.clear, Set.mem_ofPred_eq, Set.mem_empty_iff_false, iff_false]
  rintro ⟨hp, j, hj, -⟩
  exact hp hj.symm

/-! ### Starting -/

theorem Slots.start_found (mode : UInt8) (h : r.find id = some j) :
    r.start mode id = { r with rates := Function.update r.rates j mode } := by
  unfold Slots.start
  rw [h]

theorem Slots.start_placed (mode : UInt8) (h : r.find id = none) (hfree : r.find 0 = some j) :
    r.start mode id =
      { ids := Function.update r.ids j id
        rates := Function.update r.rates j mode
        count := r.count + 1 } := by
  unfold Slots.start
  rw [h, hfree]

theorem Slots.start_full (mode : UInt8) (h : r.find id = none) (hfree : r.find 0 = none) :
    r.start mode id = r := by
  unfold Slots.start
  rw [h, hfree]

/-- An id that takes a slot is not 0: that one is in every free slot. -/
theorem Slots.placed_ne_zero (h : r.find id = none) (hfree : r.find 0 = some j) : id ≠ 0 := by
  rintro rfl
  rw [h] at hfree
  cases hfree

theorem Slots.update_taken (hfree : r.ids j = 0) (hid : id ≠ 0) :
    (Finset.univ.filter fun k => Function.update r.ids j id k ≠ 0).card = r.taken + 1 := by
  have hinsert : (Finset.univ.filter fun k => Function.update r.ids j id k ≠ 0) =
      insert j (Finset.univ.filter fun k => r.ids k ≠ 0) := by
    ext k
    rw [Finset.mem_insert, Finset.mem_filter, Finset.mem_filter]
    by_cases hk : k = j
    · subst hk
      simp [hid]
    · simp [hk]
  have hnew : j ∉ Finset.univ.filter fun k => r.ids k ≠ 0 := by simp [hfree]
  rw [hinsert, Finset.card_insert_of_notMem hnew, Slots.taken]

theorem Slots.start_drift (r : Slots) (mode id : UInt8) : (r.start mode id).drift = r.drift := by
  cases h : r.find id with
  | some j =>
    rw [Slots.start_found mode h]
    rfl
  | none =>
    cases hfree : r.find 0 with
    | some j =>
      have htaken := Slots.update_taken (Slots.find_some hfree) (Slots.placed_ne_zero h hfree)
      have hone : UInt8.ofNat (r.taken + 1) = UInt8.ofNat r.taken + 1 := UInt8.ofNat_add ..
      rw [Slots.start_placed mode h hfree, Slots.drift, Slots.taken, htaken, Slots.drift, hone]
      grind
    | none => rw [Slots.start_full mode h hfree]

theorem Slots.start_distinct (hr : r.Distinct) (mode id : UInt8) : (r.start mode id).Distinct := by
  cases h : r.find id with
  | some j =>
    rw [Slots.start_found mode h]
    exact hr
  | none =>
    have hnew := Slots.find_none_iff.mp h
    cases hfree : r.find 0 with
    | some j =>
      rw [Slots.start_placed mode h hfree]
      intro i k hi hik
      simp only [Function.update_apply] at hi hik
      by_cases hi' : i = j
      · rw [if_pos hi'] at hik
        by_cases hk' : k = j
        · rw [hi', hk']
        · rw [if_neg hk'] at hik
          exact absurd hik.symm (hnew k)
      · rw [if_neg hi'] at hi hik
        by_cases hk' : k = j
        · rw [if_pos hk'] at hik
          exact absurd hik (hnew i)
        · rw [if_neg hk'] at hik
          exact hr i k hi hik
    | none =>
      rw [Slots.start_full mode h hfree]
      exact hr

theorem Slots.startAll_drift (r : Slots) (mode : UInt8) (ids : List UInt8) :
    (r.startAll mode ids).drift = r.drift := by
  induction ids generalizing r with
  | nil => rfl
  | cons id ids ih =>
    rw [Slots.startAll]
    split_ifs
    · rfl
    · rw [ih, Slots.start_drift]

theorem Slots.startAll_distinct (hr : r.Distinct) (mode : UInt8) (ids : List UInt8) :
    (r.startAll mode ids).Distinct := by
  induction ids generalizing r with
  | nil => exact hr
  | cons id ids ih =>
    rw [Slots.startAll]
    split_ifs
    · exact hr
    · exact ih (Slots.start_distinct hr mode id)

/-- An id that has a slot, or finds a free one, is registered with the new rate. -/
theorem Slots.start_registered (hr : r.Distinct) (mode : UInt8) (hid : id ≠ 0)
    (hplace : r.find id ≠ none ∨ r.find 0 ≠ none) :
    (r.start mode id).registered = started [id] mode r.registered := by
  ext ⟨x, rate⟩
  simp only [started, List.mem_singleton, Set.mem_ofPred_eq]
  cases h : r.find id with
  | some j =>
    have hj := Slots.find_some h
    rw [Slots.start_found mode h]
    simp only [Slots.registered, Set.mem_ofPred_eq, Function.update_apply]
    by_cases hx : x = id
    · rw [if_pos hx]
      constructor
      · rintro ⟨-, k, hk, hrate⟩
        have hkj : k = j := hr k j (by rw [hk, hx]; exact hid) (by rw [hk, hx, hj])
        rw [if_pos hkj] at hrate
        exact hrate.symm
      · rintro rfl
        exact ⟨hx ▸ hid, j, hj.trans hx.symm, if_pos rfl⟩
    · rw [if_neg hx]
      have hother (k : Fin 8) (hk : r.ids k = x) : k ≠ j := by
        rintro rfl
        exact hx (hk.symm.trans hj)
      constructor
      · rintro ⟨hzero, k, hk, hrate⟩
        rw [if_neg (hother k hk)] at hrate
        exact ⟨hzero, k, hk, hrate⟩
      · rintro ⟨hzero, k, hk, hrate⟩
        exact ⟨hzero, k, hk, (if_neg (hother k hk)).trans hrate⟩
  | none =>
    have hnew := Slots.find_none_iff.mp h
    obtain ⟨j, hfree⟩ := Option.ne_none_iff_exists'.mp (hplace.resolve_left fun hne => hne h)
    have hj := Slots.find_some hfree
    rw [Slots.start_placed mode h hfree]
    simp only [Slots.registered, Set.mem_ofPred_eq, Function.update_apply]
    by_cases hx : x = id
    · rw [if_pos hx]
      constructor
      · rintro ⟨-, k, hk, hrate⟩
        by_cases hkj : k = j
        · rw [if_pos hkj] at hrate
          exact hrate.symm
        · rw [if_neg hkj] at hk
          exact absurd (hk.trans hx) (hnew k)
      · rintro rfl
        exact ⟨hx ▸ hid, j, (if_pos rfl).trans hx.symm, if_pos rfl⟩
    · rw [if_neg hx]
      constructor
      · rintro ⟨hzero, k, hk, hrate⟩
        by_cases hkj : k = j
        · rw [if_pos hkj] at hk
          exact absurd hk.symm hx
        · rw [if_neg hkj] at hk hrate
          exact ⟨hzero, k, hk, hrate⟩
      · rintro ⟨hzero, k, hk, hrate⟩
        have hkj : k ≠ j := by
          rintro rfl
          exact hzero (hk.symm.trans hj)
        exact ⟨hzero, k, (if_neg hkj).trans hk, (if_neg hkj).trans hrate⟩

/-- One id less to place: it has a slot, or takes one of those that are left. -/
theorem Slots.start_fits (mode : UInt8) (hid : id ≠ 0) (hzero : 0 ∉ ids) (hfits : r.Fits (id :: ids)) :
    (r.find id ≠ none ∨ r.find 0 ≠ none) ∧ (r.start mode id).Fits ids := by
  unfold Slots.Fits at hfits
  rw [List.toFinset_cons] at hfits
  cases h : r.find id with
  | some j =>
    refine ⟨.inl nofun, ?_⟩
    have hsub : (ids.toFinset.filter fun x => ∀ k, r.ids k ≠ x).card ≤
        ((insert id ids.toFinset).filter fun x => ∀ k, r.ids k ≠ x).card :=
      Finset.card_le_card (Finset.filter_subset_filter _ (Finset.subset_insert id ids.toFinset))
    rw [Slots.start_found mode h]
    change r.taken + (ids.toFinset.filter fun x => ∀ k, r.ids k ≠ x).card ≤ 8
    omega
  | none =>
    have hnew := Slots.find_none_iff.mp h
    have hmem : id ∈ (insert id ids.toFinset).filter fun x => ∀ k, r.ids k ≠ x := by
      rw [Finset.mem_filter]
      exact ⟨Finset.mem_insert_self id _, hnew⟩
    have hpos := Finset.card_pos.mpr ⟨id, hmem⟩
    cases hfree : r.find 0 with
    | none =>
      rw [Slots.free_iff.mp hfree] at hfits
      omega
    | some j =>
      refine ⟨.inr nofun, ?_⟩
      have hj := Slots.find_some hfree
      have htaken := Slots.update_taken hj hid
      have hsub : (ids.toFinset.filter fun x => ∀ k, Function.update r.ids j id k ≠ x) ⊆
          ((insert id ids.toFinset).filter fun x => ∀ k, r.ids k ≠ x).erase id := by
        intro x hx
        rw [Finset.mem_filter] at hx
        rw [Finset.mem_erase, Finset.mem_filter]
        refine ⟨fun hxid => hx.2 j ?_, Finset.mem_insert_of_mem hx.1, fun k hk => ?_⟩
        · rw [Function.update_self, hxid]
        · by_cases hkj : k = j
          · subst hkj
            rw [← hk, hj] at hx
            exact hzero (List.mem_toFinset.mp hx.1)
          · exact hx.2 k ((Function.update_of_ne hkj _ _).trans hk)
      have hle := Finset.card_le_card hsub
      rw [Finset.card_erase_of_mem hmem] at hle
      rw [Slots.start_placed mode h hfree]
      change (Finset.univ.filter fun k => Function.update r.ids j id k ≠ 0).card +
        (ids.toFinset.filter fun x => ∀ k, Function.update r.ids j id k ≠ x).card ≤ 8
      omega

theorem started_cons (id : UInt8) (ids : List UInt8) (rate : UInt8) (pairs : Set (UInt8 × UInt8)) :
    started ids rate (started [id] rate pairs) = started (id :: ids) rate pairs := by
  ext p
  simp only [started, Set.mem_ofPred_eq, List.mem_cons, List.not_mem_nil, or_false]
  by_cases hid : p.1 = id
  · simp [hid]
  · simp [hid]

theorem Slots.startAll_registered (hr : r.Distinct) (hzero : 0 ∉ ids) (hfits : r.Fits ids)
    (hplaced : refusedAt mode ids r = none) :
    (r.startAll mode ids).registered = started ids mode r.registered := by
  induction ids generalizing r with
  | nil =>
    ext p
    simp [started, Slots.startAll]
  | cons id ids ih =>
    rw [List.mem_cons, not_or] at hzero
    have hid : id ≠ 0 := fun h => hzero.1 h.symm
    rw [refusedAt] at hplaced
    split_ifs at hplaced with hfull
    obtain ⟨hplace, hfits'⟩ := Slots.start_fits mode hid hzero.2 hfits
    have hnext := ih (Slots.start_distinct hr mode id) hzero.2 hfits' hplaced
    rw [Slots.startAll, if_neg hfull, hnext, Slots.start_registered hr mode hid hplace, started_cons]

/-- Eight slots hold no more than eight ids. -/
theorem Slots.fits_of_registered {r' : Slots} (hr : r.Distinct)
    (h : r'.registered = started ids mode r.registered) : r.Fits ids := by
  have hnew : Disjoint ((Finset.univ.filter fun j => r.ids j ≠ 0).image r.ids)
      (ids.toFinset.filter fun id => ∀ j, r.ids j ≠ id) := by
    rw [Finset.disjoint_left]
    intro id hold hnew
    obtain ⟨j, -, hj⟩ := Finset.mem_image.mp hold
    exact (Finset.mem_filter.mp hnew).2 j hj
  have htaken : ((Finset.univ.filter fun j => r.ids j ≠ 0).image r.ids).card = r.taken := by
    apply Finset.card_image_of_injOn
    intro i hi j _ hij
    have hused := (Finset.mem_filter.mp (Finset.mem_coe.mp hi)).2
    exact hr i j hused hij
  have hheld : ((Finset.univ.filter fun j => r.ids j ≠ 0).image r.ids) ∪
      (ids.toFinset.filter fun id => ∀ j, r.ids j ≠ id) ⊆ Finset.univ.image r'.ids := by
    intro id hid
    have hpair : ∃ rate, (id, rate) ∈ started ids mode r.registered := by
      by_cases hlisted : id ∈ ids
      · exact ⟨mode, by simp [started, hlisted]⟩
      · rcases Finset.mem_union.mp hid with hold | hnew
        · obtain ⟨j, hj, hjid⟩ := Finset.mem_image.mp hold
          have hused := (Finset.mem_filter.mp hj).2
          refine ⟨r.rates j, ?_⟩
          simp only [started, Set.mem_ofPred_eq, if_neg hlisted]
          exact ⟨hjid ▸ hused, j, hjid, rfl⟩
        · exact absurd (List.mem_toFinset.mp (Finset.mem_filter.mp hnew).1) hlisted
    obtain ⟨rate, hrate⟩ := hpair
    rw [← h] at hrate
    obtain ⟨-, j, hj, -⟩ := hrate
    exact Finset.mem_image.mpr ⟨j, Finset.mem_univ j, hj⟩
  have hle := Finset.card_le_card hheld
  have himage : (Finset.univ.image r'.ids).card ≤ 8 := Finset.card_image_le
  rw [Finset.card_union_of_disjoint hnew, htaken] at hle
  exact hle.trans himage

/-- A list of ids of which none is refused is registered with its rate, exactly if 0 is not among them
and the free slots suffice for those that are new. -/
theorem Slots.startAll_registered_iff (hr : r.Distinct) (hplaced : refusedAt mode ids r = none) :
    (r.startAll mode ids).registered = started ids mode r.registered ↔ 0 ∉ ids ∧ r.Fits ids := by
  constructor
  · intro h
    have hzero : 0 ∉ ids := by
      intro hmem
      have hpair : ((0 : UInt8), mode) ∈ started ids mode r.registered := by simp [started, hmem]
      rw [← h] at hpair
      exact hpair.1 rfl
    exact ⟨hzero, Slots.fits_of_registered hr h⟩
  · rintro ⟨hzero, hfits⟩
    exact Slots.startAll_registered hr hzero hfits hplaced

/-! ### Requests -/

theorem Slots.request_distinct (hr : r.Distinct) (mode : UInt8) (ids : List UInt8) :
    (r.request mode ids).Distinct := by
  unfold Slots.request
  split_ifs
  · exact fun i j hi => absurd rfl hi
  · exact Slots.stopAll_distinct hr ids
  · exact hr
  · exact Slots.startAll_distinct hr mode ids

/-- A request keeps the registry consistent exactly if the free slots that it counts down are a multiple
of 256. -/
theorem Slots.request_consistent_iff (hr : r.Consistent) (mode : UInt8) (ids : List UInt8) :
    (r.request mode ids).Consistent ↔ mode = 0x04 → r.miscounts ids % 256 = 0 := by
  have hdrift := Slots.drift_eq_zero_iff.mpr hr.counted
  have hdistinct := Slots.request_distinct hr.distinct mode ids
  have hiff : (r.request mode ids).Consistent ↔ (r.request mode ids).drift = 0 := by
    rw [Slots.drift_eq_zero_iff]
    exact ⟨fun h => h.counted, fun h => ⟨h, hdistinct⟩⟩
  rw [hiff]
  unfold Slots.request
  by_cases hstop : mode = 0x04
  · rw [if_pos hstop]
    by_cases hall : ids = []
    · subst hall
      rw [if_pos rfl]
      have hclear : r.clear.drift = 0 := by
        simp [Slots.drift, Slots.clear, Slots.taken]
      simp [hclear, Slots.miscounts]
    · have hmod : UInt8.ofNat (r.miscounts ids) = 0 ↔ r.miscounts ids % 256 = 0 := by
        rw [← UInt8.toNat_inj, UInt8.toNat_ofNat']
        rfl
      rw [if_neg hall, Slots.stopAll_drift, hdrift, UInt8.zero_add, hmod]
      exact (imp_iff_right hstop).symm
  · rw [if_neg hstop]
    have hkept : (if mode < 0x01 ∨ mode > 0x03 then r else r.startAll mode ids).drift = 0 := by
      split_ifs
      · exact hdrift
      · rw [Slots.startAll_drift, hdrift]
    exact iff_of_true hkept fun h => absurd h hstop

end UdsLib.Core
