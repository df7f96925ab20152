import Mathlib.Data.List.GetD
import UdsLib.Isotp.BufferSafety
import UdsLib.Isotp.Delivery

/-! Reception against its specification: a reassembler that only knows the bytes each frame
contains. The code refines it on the frames that contain what their kind presupposes. -/
namespace UdsLib.Isotp
open Bytes Machine

/-! ### The specification -/

/-- The kind of a frame, by the high nibble of its first byte. -/
def kindOf : List UInt8 → Pci
  | [] => .other
  | b :: _ =>
    let pci := b &&& 0xF0
    if pci = 0x00 then .sf
    else if pci = 0x10 then .ff
    else if pci = 0x20 then .cf
    else if pci = 0x30 then .fc
    else .other

/-- The low nibble of the first byte: a Single Frame's length, a Consecutive Frame's number. -/
def lowNibble (frame : List UInt8) : ℕ := (frame.headD 0).toNat % 16

/-- The payload of a Single Frame that lies within the frame. -/
def sfPayload (frame : List UInt8) : Option (List UInt8) :=
  let escaped := (frame.getD 1 0).toNat
  if lowNibble frame ≠ 0 then
    if lowNibble frame ≤ (frame.drop 1).length then some ((frame.drop 1).take (lowNibble frame))
    else none
  else if escaped ≠ 0 ∧ escaped ≤ (frame.drop 2).length then some ((frame.drop 2).take escaped)
  else none

/-- The announced length of a First Frame. -/
def ffDl (frame : List UInt8) : ℕ := lowNibble frame * 256 + (frame.getD 1 0).toNat

/-- A message under reception: its announced length, the payload so far and the number of
the next Consecutive Frame. -/
structure Assembly where
  total : ℕ
  got : List UInt8
  next : ℕ
  deriving DecidableEq

/-- The reassembler: what a frame makes of the message under reception, and what it delivers. -/
def assemble (rxBufferSize : ℕ) (s : Option Assembly) (frame : List UInt8) :
    Option Assembly × List (List UInt8) :=
  match kindOf frame with
  | .sf => (none, (sfPayload frame).toList)
  | .ff =>
    if ffDl frame < 8 ∨ rxBufferSize < ffDl frame then (none, [])
    else (some { total := ffDl frame, got := frame.drop 2, next := 1 }, [])
  | .cf =>
    match s with
    | none => (none, [])
    | some a =>
      let got := a.got ++ frame.drop 1
      if lowNibble frame ≠ a.next then (none, [])
      else if a.total ≤ got.length then (none, [got.take a.total])
      else (some { a with got := got, next := (a.next + 1) % 16 }, [])
  | .fc | .other => (s, [])

/-- The Single Frame that ends `frames` carries `sdu`. -/
def FromSingle (frames : List (List UInt8)) (sdu : List UInt8) : Prop :=
  ∃ before frame, frames = before ++ [frame] ∧ kindOf frame = .sf ∧ sfPayload frame = some sdu

/-- The Consecutive Frames among `frames`. -/
def cfsOf (frames : List (List UInt8)) : List (List UInt8) :=
  frames.filter fun frame => kindOf frame = .cf

@[simp] theorem cfsOf_nil : cfsOf [] = [] := rfl

theorem cfsOf_snoc (frames : List (List UInt8)) (frame : List UInt8) :
    cfsOf (frames ++ [frame]) =
      if kindOf frame = .cf then cfsOf frames ++ [frame] else cfsOf frames := by
  unfold cfsOf
  split_ifs with h <;> simp [h]

/-- `cfs` are Consecutive Frames numbered 1, 2, ... mod 16. -/
def InSequence (cfs : List (List UInt8)) : Prop :=
  cfs.map lowNibble = (List.range cfs.length).map fun i => (i + 1) % 16

/-- Within `frames`, a First Frame and the Consecutive Frames after it, in sequence and not
interrupted by another Single Frame or First Frame, contain the `total` bytes of `sdu` first. -/
def FromSegments (frames : List (List UInt8)) (sdu : List UInt8) : Prop :=
  ∃ before ff rest, frames = before ++ ff :: rest ∧ kindOf ff = .ff ∧
    (∀ frame ∈ rest, kindOf frame ≠ .sf ∧ kindOf frame ≠ .ff) ∧
    InSequence (cfsOf rest) ∧
    ffDl ff ≤ (ff.drop 2 ++ (cfsOf rest).flatMap (·.drop 1)).length ∧
    sdu = (ff.drop 2 ++
      (cfsOf rest).flatMap (·.drop 1)).take (ffDl ff)

/-! ### What the specification delivers -/

/-- How the message under reception came out of the frames so far. -/
def AssemblyOf (frames : List (List UInt8)) : Option Assembly → Prop
  | none => True
  | some a => ∃ before ff rest, frames = before ++ ff :: rest ∧ kindOf ff = .ff ∧
      (∀ frame ∈ rest, kindOf frame ≠ .sf ∧ kindOf frame ≠ .ff) ∧
      InSequence (cfsOf rest) ∧ a.total = ffDl ff ∧
      a.got = ff.drop 2 ++ (cfsOf rest).flatMap (·.drop 1) ∧
      a.next = ((cfsOf rest).length + 1) % 16

theorem inSequence_snoc {cfs : List (List UInt8)} {frame : List UInt8} (h : InSequence cfs)
    (hnext : lowNibble frame = (cfs.length + 1) % 16) : InSequence (cfs ++ [frame]) := by
  unfold InSequence at h ⊢
  rw [List.map_append, h, List.length_append, List.length_singleton, List.range_succ,
    List.map_append, List.map_singleton, List.map_singleton, hnext]

/-- A frame that belongs to no message leaves the assembly alone. -/
theorem AssemblyOf.skip {frames : List (List UInt8)} {s : Option Assembly} {frame : List UInt8}
    (h : AssemblyOf frames s) (hsf : kindOf frame ≠ .sf) (hff : kindOf frame ≠ .ff)
    (hcf : kindOf frame ≠ .cf) : AssemblyOf (frames ++ [frame]) s := by
  cases s with
  | none => trivial
  | some a =>
    obtain ⟨before, ff, rest, rfl, hkind, hrest, hseq, htotal, hgot, hnext⟩ := h
    refine ⟨before, ff, rest ++ [frame], by simp, hkind, ?_, ?_⟩
    · intro g hg
      rcases List.mem_append.mp hg with hg | hg
      · exact hrest g hg
      · rw [List.mem_singleton.mp hg]
        exact ⟨hsf, hff⟩
    · rw [cfsOf_snoc, if_neg hcf]
      exact ⟨hseq, htotal, hgot, hnext⟩

theorem assemble_sound (rxBufferSize : ℕ) (frames : List (List UInt8)) (s : Option Assembly)
    (frame : List UInt8) (h : AssemblyOf frames s) :
    AssemblyOf (frames ++ [frame]) (assemble rxBufferSize s frame).1 ∧
      ∀ sdu ∈ (assemble rxBufferSize s frame).2,
        FromSingle (frames ++ [frame]) sdu ∨ FromSegments (frames ++ [frame]) sdu := by
  unfold assemble
  cases hkind : kindOf frame with
  | sf =>
    refine ⟨trivial, fun sdu hsdu => Or.inl ⟨frames, frame, rfl, hkind, ?_⟩⟩
    simpa using hsdu
  | ff =>
    dsimp only
    split_ifs with hbad
    · exact ⟨trivial, by simp⟩
    · refine ⟨⟨frames, frame, [], rfl, hkind, by simp, rfl, rfl, by simp, rfl⟩, by simp⟩
  | fc => exact ⟨h.skip (by simp [hkind]) (by simp [hkind]) (by simp [hkind]), by simp⟩
  | other => exact ⟨h.skip (by simp [hkind]) (by simp [hkind]) (by simp [hkind]), by simp⟩
  | cf =>
    cases s with
    | none => exact ⟨trivial, by simp⟩
    | some a =>
      obtain ⟨before, ff, rest, rfl, hff, hrest, hseq, htotal, hgot, hnext⟩ := h
      dsimp only
      have hlast : cfsOf (rest ++ [frame]) = cfsOf rest ++ [frame] := by
        rw [cfsOf_snoc, if_pos hkind]
      have hall : ∀ g ∈ rest ++ [frame], kindOf g ≠ .sf ∧ kindOf g ≠ .ff := by
        intro g hg
        rcases List.mem_append.mp hg with hg | hg
        · exact hrest g hg
        · rw [List.mem_singleton.mp hg, hkind]
          exact ⟨by decide, by decide⟩
      have hgot' : a.got ++ frame.drop 1 = ff.drop 2 ++
          (cfsOf (rest ++ [frame])).flatMap (·.drop 1) := by
        rw [hlast, List.flatMap_append, List.flatMap_singleton, hgot, List.append_assoc]
      have hseq' (hnum : lowNibble frame = a.next) : InSequence (cfsOf (rest ++ [frame])) := by
        rw [hlast]
        exact inSequence_snoc hseq (by rw [hnum, hnext])
      split_ifs with hnum hdone
      · exact ⟨trivial, by simp⟩
      · refine ⟨trivial, fun sdu hsdu => Or.inr ?_⟩
        refine ⟨before, ff, rest ++ [frame], by simp, hff, hall, hseq' (not_not.mp hnum), ?_, ?_⟩
        · rw [← hgot', ← htotal]
          exact hdone
        · rw [← hgot', ← htotal]
          exact List.mem_singleton.mp hsdu
      · refine ⟨⟨before, ff, rest ++ [frame], by simp, hff, hall, hseq' (not_not.mp hnum), htotal,
          hgot', ?_⟩, by simp⟩
        simp only [hlast, List.length_append, List.length_singleton, hnext]
        omega

/-- Everything a run of the reassembler delivers comes out of its frames. -/
theorem assemble_run_sound (rxBufferSize : ℕ) (seen frames : List (List UInt8))
    (s : Option Assembly) (h : AssemblyOf seen s) :
    ∀ sdu ∈ trace (assemble rxBufferSize) s frames, ∃ pre, pre <+: frames ∧
      (FromSingle (seen ++ pre) sdu ∨ FromSegments (seen ++ pre) sdu) := by
  induction frames generalizing seen s with
  | nil => simp
  | cons frame frames ih =>
    obtain ⟨hnext, hout⟩ := assemble_sound rxBufferSize seen s frame h
    intro sdu hsdu
    rw [trace_cons] at hsdu
    rcases List.mem_append.mp hsdu with hsdu | hsdu
    · exact ⟨[frame], ⟨frames, rfl⟩, hout sdu hsdu⟩
    · obtain ⟨pre, hpre, hfrom⟩ := ih (seen ++ [frame]) _ hnext sdu hsdu
      refine ⟨frame :: pre, List.cons_prefix_cons.mpr ⟨rfl, hpre⟩, ?_⟩
      rwa [List.append_assoc, List.singleton_append] at hfrom

/-! ### The code against the specification -/

/-- The frame contains what its kind presupposes: a first byte, a First Frame its header, and
one that will be accepted the eight bytes of a classic frame. -/
def Complete (rxBufferSize : UInt16) (f : RxFrame) : Prop :=
  1 ≤ f.len.toNat ∧ (pciOf f = .ff → 2 ≤ f.len.toNat ∧
    (8 ≤ (ffSduLen f).toNat → (ffSduLen f).toNat ≤ rxBufferSize.toNat → 8 ≤ f.len.toNat))

/-- The node is where the reassembler is. -/
def Follows (n : Node) : Option Assembly → Prop
  | none => n.iso.state ≠ .rxWaitCf
  | some a => n.iso.state = .rxWaitCf ∧ n.iso.msgLen.toNat = a.total ∧
      n.iso.bytesProcessed.toNat = a.got.length ∧ slice n.rxBuffer 0 a.got.length = a.got ∧
      n.iso.sn.toNat = a.next ∧ (a.got.length < a.total ∨ a.got.length < 256)

theorem bytes_length (f : RxFrame) : f.bytes.length = f.len.toNat := slice_length _ _ _

theorem bytes_drop (f : RxFrame) (k : ℕ) : f.bytes.drop k = slice f.data k (f.len.toNat - k) := by
  rw [RxFrame.bytes, drop_slice, Nat.zero_add]

theorem bytes_cons {f : RxFrame} (h : 1 ≤ f.len.toNat) :
    f.bytes = f.data 0 :: slice f.data 1 (f.len.toNat - 1) := by
  have hadd := slice_add f.data 0 1 (f.len.toNat - 1)
  rw [Nat.add_sub_cancel' h] at hadd
  rw [RxFrame.bytes, hadd]
  rfl

theorem kindOf_bytes {f : RxFrame} (h : 1 ≤ f.len.toNat) : kindOf f.bytes = pciOf f := by
  rw [bytes_cons h]
  rfl

theorem lowNibble_bytes {f : RxFrame} (h : 1 ≤ f.len.toNat) :
    lowNibble f.bytes = (f.data 0 &&& 0x0F).toNat := by
  rw [bytes_cons h, and_0F_toNat]
  rfl

theorem second_byte {f : RxFrame} (h : 2 ≤ f.len.toNat) : f.bytes.getD 1 0 = f.data 1 := by
  rw [List.getD_eq_getElem _ _ (by rw [bytes_length]; omega)]
  simp [RxFrame.bytes]

theorem second_byte_short {f : RxFrame} (h : ¬ 2 ≤ f.len.toNat) : f.bytes.getD 1 0 = 0 :=
  List.getD_eq_default _ _ (by rw [bytes_length]; omega)

theorem ffDl_bytes {f : RxFrame} (h : 2 ≤ f.len.toNat) : ffDl f.bytes = (ffSduLen f).toNat := by
  rw [ffDl, lowNibble_bytes (by omega), second_byte h, ffSduLen_toNat, and_0F_toNat]

/-- What `uds_rx_sf` delivers, in the memory behind the frame pointer. -/
theorem rxSf_sdus (n : Node) (f : RxFrame) :
    sdusOf (rxSf n f).2 =
      if f.data 0 &&& 0x0F = 0 then
        if (f.data 1).toNat ≠ 0 ∧ (f.data 1).toNat + 2 ≤ f.len.toNat then
          [slice f.data 2 (f.data 1).toNat] else []
      else
        if (f.data 0 &&& 0x0F).toNat + 1 ≤ f.len.toNat then
          [slice f.data 1 (f.data 0 &&& 0x0F).toNat] else [] := by
  have hzero : f.data 1 = 0 ↔ (f.data 1).toNat = 0 := by
    rw [← UInt8.toNat_inj]
    rfl
  unfold rxSf
  by_cases h0 : f.data 0 &&& 0x0F = 0
  · simp only [h0, if_true, true_and, hzero]
    split_ifs <;> first | rfl | omega
  · simp only [h0, if_false, false_and]
    split_ifs <;> first | rfl | omega

/-- `uds_rx_sf` delivers the payload that lies within the frame. -/
theorem rxSf_refines (n : Node) {f : RxFrame} (h : 1 ≤ f.len.toNat) :
    sdusOf (rxSf n f).2 = (sfPayload f.bytes).toList := by
  have hnib := lowNibble_bytes h
  have hzero : f.data 0 &&& 0x0F = 0 ↔ (f.data 0 &&& 0x0F).toNat = 0 := by
    rw [← UInt8.toNat_inj]
    rfl
  have htake : ∀ off k, k ≤ f.len.toNat - off → (f.bytes.drop off).take k = slice f.data off k := by
    intro off k hk
    rw [bytes_drop, take_slice, Nat.min_eq_right hk]
  have hdrop : ∀ off, (f.bytes.drop off).length = f.len.toNat - off := by
    intro off
    rw [List.length_drop, bytes_length]
  rw [rxSf_sdus, sfPayload, hnib, hdrop, hdrop]
  by_cases h0 : f.data 0 &&& 0x0F = 0
  · rw [if_pos h0, if_neg (not_not.mpr (hzero.mp h0))]
    by_cases h2 : 2 ≤ f.len.toNat
    · rw [second_byte h2]
      by_cases hfit : (f.data 1).toNat ≠ 0 ∧ (f.data 1).toNat ≤ f.len.toNat - 2
      · rw [if_pos ⟨hfit.1, by omega⟩, if_pos hfit, htake 2 _ hfit.2]
        rfl
      · rw [if_neg fun hc => hfit ⟨hc.1, by omega⟩, if_neg hfit]
        rfl
    · rw [second_byte_short h2, if_neg (by omega), if_neg fun hc => hc.1 rfl]
      rfl
  · rw [if_neg h0, if_pos fun hz => h0 (hzero.mpr hz)]
    by_cases hfit : (f.data 0 &&& 0x0F).toNat ≤ f.len.toNat - 1
    · rw [if_pos (by omega), if_pos hfit, htake 1 _ hfit]
      rfl
    · rw [if_neg (by omega), if_neg hfit]
      rfl

/-- `uds_rx_ff` opens the reception the specification opens. -/
theorem rxFf_refines (rxBufferSize : UInt16) (n : Node) {f : RxFrame} (ret : ℤ)
    (s : Option Assembly) (hc : Complete rxBufferSize f) (hkind : pciOf f = .ff) :
    Follows (rxFf rxBufferSize n f ret).1 (assemble rxBufferSize.toNat s f.bytes).1 ∧
      sdusOf (rxFf rxBufferSize n f ret).2 = (assemble rxBufferSize.toNat s f.bytes).2 := by
  obtain ⟨h1, hff⟩ := hc
  obtain ⟨h2, h8⟩ := hff hkind
  have hl := f.len.toNat_lt
  have hshort : ffSduLen f < 8 ↔ (ffSduLen f).toNat < 8 := by
    rw [UInt16.lt_iff_toNat_lt]
    rfl
  simp only [assemble, kindOf_bytes h1, hkind, ffDl_bytes h2, rxFf, hshort, UInt16.lt_iff_toNat_lt]
  by_cases hs : (ffSduLen f).toNat < 8
  · rw [if_pos hs, if_pos (Or.inl hs)]
    exact ⟨by simp [Follows], rfl⟩
  · rw [if_neg hs]
    by_cases hlarge : rxBufferSize.toNat < (ffSduLen f).toNat
    · rw [if_pos hlarge, if_pos (Or.inr hlarge)]
      exact ⟨by simp [Follows], rfl⟩
    · rw [if_neg hlarge, if_neg (not_or.mpr ⟨hs, hlarge⟩)]
      have h8 := h8 (by omega) (by omega)
      have hin : (dataInFf f.len).toNat = f.len.toNat - 2 := by
        rw [dataInFf_toNat]
        split_ifs <;> omega
      have hgot : f.bytes.drop 2 = slice f.data 2 (f.len.toNat - 2) := bytes_drop f 2
      refine ⟨⟨rfl, rfl, ?_, ?_, rfl, ?_⟩, ?_⟩
      · simp only [UInt8.toNat_toUInt16, hin, hgot, slice_length]
      · simp only [hin, hgot]
        exact slice_blit_self _ _ _
      · right
        rw [hgot, slice_length]
        omega
      · unfold tpSendFrame
        split_ifs <;> rfl

/-- What `uds_rx_cf` copies: the whole payload of the frame unless the message ends before. -/
theorem cfCopy_spec {n : Node} {f : RxFrame} {a : Assembly} (h1 : 1 ≤ f.len.toNat)
    (h : Follows n (some a)) :
    let toCopy := copyLen (n.iso.msgLen - n.iso.bytesProcessed) (f.len - 1)
    toCopy.toNat ≤ f.len.toNat - 1 ∧
      (a.total ≤ a.got.length + toCopy.toNat ↔ a.total ≤ a.got.length + (f.len.toNat - 1)) ∧
      (¬ a.total ≤ a.got.length + (f.len.toNat - 1) → toCopy.toNat = f.len.toNat - 1) ∧
      (n.iso.bytesProcessed + toCopy.toUInt16).toNat = a.got.length + toCopy.toNat := by
  intro toCopy
  obtain ⟨-, htotal, hgot, -, -, hroom⟩ := h
  have hm := n.iso.msgLen.toNat_lt
  have hl := f.len.toNat_lt
  have hcap : (f.len - 1).toNat = f.len.toNat - 1 :=
    UInt8.toNat_sub_of_le _ _ (by rw [UInt8.le_iff_toNat_le]; exact h1)
  have hcopy := copyLen_toNat (n.iso.msgLen - n.iso.bytesProcessed) (f.len - 1)
  rw [hcap] at hcopy
  change toCopy.toNat = _ at hcopy
  have hopen (hlt : a.got.length < a.total) :
      toCopy.toNat = min (a.total - a.got.length) (f.len.toNat - 1) := by
    rw [hcopy, sub_toNat (by omega), htotal, hgot]
  refine ⟨by omega, ?_, fun hmore => ?_, ?_⟩
  · -- An overfull First Frame leaves more collected than announced; then anything completes it.
    by_cases hlt : a.got.length < a.total
    · rw [hopen hlt]
      omega
    · omega
  · rw [hopen (by omega)]
    omega
  · rw [UInt16.toNat_add, UInt8.toNat_toUInt16, hgot]
    apply Nat.mod_eq_of_lt
    by_cases hlt : a.got.length < a.total
    · rw [hopen hlt]
      omega
    · omega

/-- `uds_rx_cf` adds the payload the frame contains, or completes the message. -/
theorem rxCf_refines (rxBufferSize : ℕ) (n : Node) {f : RxFrame} (s : Option Assembly)
    (h1 : 1 ≤ f.len.toNat) (hkind : pciOf f = .cf) (h : Follows n s) :
    Follows (rxCf n f).1 (assemble rxBufferSize s f.bytes).1 ∧
      sdusOf (rxCf n f).2 = (assemble rxBufferSize s f.bytes).2 := by
  cases s with
  | none =>
    have hidle : rxCf n f = (n, []) := if_pos h
    simp only [assemble, kindOf_bytes h1, hkind, hidle]
    exact ⟨h, rfl⟩
  | some a =>
    obtain ⟨hs, htotal, hgot, hbuf, hnext, hroom⟩ := h
    have hpay : f.bytes.drop 1 = slice f.data 1 (f.len.toNat - 1) := bytes_drop f 1
    have hpayLen : (f.bytes.drop 1).length = f.len.toNat - 1 := by rw [hpay, slice_length]
    have hnum : f.data 0 &&& 0x0F = n.iso.sn ↔ lowNibble f.bytes = a.next := by
      rw [lowNibble_bytes h1, ← hnext, UInt8.toNat_inj]
    obtain ⟨hcopy, hfits, hwhole, hadv⟩ := cfCopy_spec h1 ⟨hs, htotal, hgot, hbuf, hnext, hroom⟩
    simp only [assemble, kindOf_bytes h1, hkind, rxCf, if_neg (not_not.mpr hs)]
    generalize copyLen (n.iso.msgLen - n.iso.bytesProcessed) (f.len - 1) = toCopy at *
    have hmem : slice (blit n.rxBuffer a.got.length (slice f.data 1 toCopy.toNat)) 0
        (a.got.length + toCopy.toNat) = a.got ++ slice f.data 1 toCopy.toNat := by
      have happ := slice_blit_append n.rxBuffer a.got.length (slice f.data 1 toCopy.toNat)
      rwa [slice_length, hbuf] at happ
    have hdone : n.iso.bytesProcessed + toCopy.toUInt16 ≥ n.iso.msgLen ↔
        a.total ≤ (a.got ++ f.bytes.drop 1).length := by
      rw [ge_iff_le, UInt16.le_iff_toNat_le, hadv, htotal, hfits, List.length_append, hpayLen]
    simp only [ne_eq, hnum, hdone, hgot]
    by_cases hsn : lowNibble f.bytes = a.next
    · rw [if_neg (not_not.mpr hsn), if_neg (not_not.mpr hsn)]
      by_cases hfull : a.total ≤ (a.got ++ f.bytes.drop 1).length
      · rw [if_pos hfull, if_pos hfull]
        refine ⟨by simp [Follows], ?_⟩
        have hle : a.total ≤ a.got.length + toCopy.toNat := by
          rw [hfits, ← hpayLen, ← List.length_append]
          exact hfull
        have hchunk : slice f.data 1 toCopy.toNat = (f.bytes.drop 1).take toCopy.toNat := by
          rw [hpay, take_slice, Nat.min_eq_right (by omega)]
        have hsdu : slice (blit n.rxBuffer a.got.length (slice f.data 1 toCopy.toNat)) 0 a.total =
            (a.got ++ f.bytes.drop 1).take a.total := by
          calc
            _ = (slice (blit n.rxBuffer a.got.length (slice f.data 1 toCopy.toNat)) 0
                  (a.got.length + toCopy.toNat)).take a.total := by
              rw [take_slice, Nat.min_eq_right hle]
            _ = (a.got ++ (f.bytes.drop 1).take toCopy.toNat).take a.total := by rw [hmem, hchunk]
            _ = (a.got ++ f.bytes.drop 1).take a.total := by
              rw [← List.take_length_add_append, List.take_take, Nat.min_eq_left hle]
        rw [htotal, hsdu]
        rfl
      · rw [if_neg hfull, if_neg hfull]
        rw [List.length_append, hpayLen] at hfull
        have hcount := hwhole hfull
        rw [hcount, ← hpay] at hmem
        rw [hcount] at hadv
        refine ⟨⟨hs, htotal, ?_, ?_, ?_, ?_⟩, rfl⟩
        · rw [hadv, List.length_append, hpayLen]
        · rw [List.length_append, hpayLen, hcount, ← hpay]
          exact hmem
        · rw [and_0F_toNat, UInt8.toNat_add, hnext]
          show (a.next + 1) % 256 % 16 = (a.next + 1) % 16
          omega
        · left
          rw [List.length_append, hpayLen]
          exact Nat.lt_of_not_le hfull
    · rw [if_pos hsn, if_pos hsn]
      exact ⟨by simp [Follows], rfl⟩

/-! ### Runs -/

/-- The arrivals as calls of `uds_isotp_rx_callback`, each with what `can_send` would return. -/
def arrivalOps (arrivals : List (RxFrame × ℤ)) : List Op := arrivals.map fun a => .rx a.1 a.2

/-- The bytes that the frames for this node contain. -/
def heard (rxId : UInt32) (arrivals : List (RxFrame × ℤ)) : List (List UInt8) :=
  (arrivals.filter fun a => a.1.id = rxId).map fun a => a.1.bytes

/-- One frame for this node moves code and specification alike. -/
theorem rxCallback_refines (rxBufferSize : UInt16) (n : Node) (f : RxFrame) (ret : ℤ)
    (s : Option Assembly) (hid : f.id = n.iso.rxId) (hc : Complete rxBufferSize f)
    (h : Follows n s) :
    Follows (step rxBufferSize n (.rx f ret)).1 (assemble rxBufferSize.toNat s f.bytes).1 ∧
      sdusOf (step rxBufferSize n (.rx f ret)).2 = (assemble rxBufferSize.toNat s f.bytes).2 := by
  rw [step_rx rxBufferSize ret hid]
  cases hkind : pciOf f with
  | sf =>
    simp only [assemble, kindOf_bytes hc.1, hkind, rxSf_idle]
    exact ⟨by simp [Follows, Node.setState], rxSf_refines n hc.1⟩
  | ff => exact rxFf_refines rxBufferSize n ret s hc hkind
  | cf => exact rxCf_refines rxBufferSize.toNat n s hc.1 hkind h
  | fc =>
    simp only [assemble, kindOf_bytes hc.1, hkind]
    refine ⟨?_, rfl⟩
    cases s with
    | none =>
      simp only [Follows, rxFc] at h ⊢
      split_ifs
      · exact h
      · simp [ctsReceived]
      · exact h
    | some a =>
      have hidle : rxFc n f = n := if_pos (by simp [h.1])
      rwa [hidle]
  | other =>
    simp only [assemble, kindOf_bytes hc.1, hkind]
    exact ⟨h, rfl⟩

/-- Along a run of complete frames the code delivers what the specification delivers. -/
theorem arrivals_refine (rxBufferSize : UInt16) (n : Node) (arrivals : List (RxFrame × ℤ))
    (s : Option Assembly) (h : Follows n s)
    (hc : ∀ a ∈ arrivals, a.1.id = n.iso.rxId → Complete rxBufferSize a.1) :
    sdusOf (trace (step rxBufferSize) n (arrivalOps arrivals)) =
      trace (assemble rxBufferSize.toNat) s (heard n.iso.rxId arrivals) := by
  induction arrivals generalizing n s with
  | nil => rfl
  | cons a arrivals ih =>
    obtain ⟨f, ret⟩ := a
    obtain ⟨hcf, hrest⟩ := List.forall_mem_cons.mp hc
    have hrx := (step_ids rxBufferSize n (.rx f ret)).1
    show sdusOf (trace (step rxBufferSize) n (.rx f ret :: arrivalOps arrivals)) = _
    rw [trace_cons, sdusOf_append]
    by_cases hid : f.id = n.iso.rxId
    · obtain ⟨hnext, hout⟩ := rxCallback_refines rxBufferSize n f ret s hid (hcf hid) h
      have hheard : heard n.iso.rxId ((f, ret) :: arrivals) =
          f.bytes :: heard n.iso.rxId arrivals := by
        unfold heard
        rw [List.filter_cons_of_pos (by simpa using hid)]
        rfl
      rw [hheard, trace_cons, hout, ih _ _ hnext (by rwa [hrx]), hrx]
    · have hheard : heard n.iso.rxId ((f, ret) :: arrivals) = heard n.iso.rxId arrivals := by
        unfold heard
        rw [List.filter_cons_of_neg (by simpa using hid)]
      have hignored : step rxBufferSize n (.rx f ret) = (n, []) := if_pos hid
      rw [hheard, hignored, ih n s h hrest]
      rfl

/-- The two frames have the same identifier and contain the same bytes. -/
def SameContent (a b : RxFrame × ℤ) : Prop :=
  a.1.id = b.1.id ∧ a.1.len = b.1.len ∧ a.1.bytes = b.1.bytes

theorem heard_congr (rxId : UInt32) {as bs : List (RxFrame × ℤ)}
    (h : List.Forall₂ SameContent as bs) : heard rxId as = heard rxId bs := by
  unfold heard
  induction h with
  | nil => rfl
  | @cons a b as bs hab _ ih =>
    by_cases hid : a.1.id = rxId
    · rw [List.filter_cons_of_pos (by simpa using hid),
        List.filter_cons_of_pos (by simpa [← hab.1] using hid), List.map_cons, List.map_cons, ih,
        hab.2.2]
    · rw [List.filter_cons_of_neg (by simpa using hid),
        List.filter_cons_of_neg (by simpa [← hab.1] using hid), ih]

/-- Whether a frame is complete depends on its content alone. -/
theorem complete_congr {rxBufferSize : UInt16} {a b : RxFrame × ℤ} (h : SameContent a b)
    (hc : Complete rxBufferSize a.1) : Complete rxBufferSize b.1 := by
  obtain ⟨-, hlen, hbytes⟩ := h
  have h1 : 1 ≤ b.1.len.toNat := hlen ▸ hc.1
  refine ⟨h1, fun hkind => ?_⟩
  rw [← kindOf_bytes h1, ← hbytes, kindOf_bytes hc.1] at hkind
  obtain ⟨h2, h8⟩ := hc.2 hkind
  have h2' : 2 ≤ b.1.len.toNat := hlen ▸ h2
  rw [← ffDl_bytes h2', ← hbytes, ffDl_bytes h2, ← hlen]
  exact ⟨h2, h8⟩

theorem complete_of_sameContent {rxBufferSize : UInt16} {rxId : UInt32}
    {as bs : List (RxFrame × ℤ)} (h : List.Forall₂ SameContent as bs)
    (hc : ∀ a ∈ as, a.1.id = rxId → Complete rxBufferSize a.1) :
    ∀ b ∈ bs, b.1.id = rxId → Complete rxBufferSize b.1 := by
  induction h with
  | nil => simp
  | @cons a b as bs hab _ ih =>
    obtain ⟨ha, hrest⟩ := List.forall_mem_cons.mp hc
    refine List.forall_mem_cons.mpr ⟨fun hid => ?_, ih hrest⟩
    exact complete_congr hab (ha (hab.1.trans hid))

/-- Everything delivered is the payload of one Single Frame, or the announced part of what one
First Frame and the Consecutive Frames after it contain. -/
def Sound (rxId : UInt32) (arrivals : List (RxFrame × ℤ)) (sdus : List (List UInt8)) : Prop :=
  ∀ sdu ∈ sdus, ∃ pre, pre <+: heard rxId arrivals ∧ (FromSingle pre sdu ∨ FromSegments pre sdu)

/-- What the reception of `arrivals` by `n` delivers. -/
def delivered (rxBufferSize : UInt16) (n : Node) (arrivals : List (RxFrame × ℤ)) :
    List (List UInt8) :=
  sdusOf (trace (step rxBufferSize) n (arrivalOps arrivals))

/-- The reception delivers only what the frames contain, and no byte beyond a frame's length
has an influence on it. -/
def ReassemblesSoundly (rxBufferSize : UInt16) (n : Node) (arrivals : List (RxFrame × ℤ)) : Prop :=
  Sound n.iso.rxId arrivals (delivered rxBufferSize n arrivals) ∧
    ∀ arrivals', List.Forall₂ SameContent arrivals arrivals' →
      delivered rxBufferSize n arrivals' = delivered rxBufferSize n arrivals

/-- Every run of complete frames is reassembled soundly. -/
theorem reassembly_sound (rxBufferSize : UInt16) (n : Node) (arrivals : List (RxFrame × ℤ))
    (hstart : n.iso.state ≠ .rxWaitCf)
    (hc : ∀ a ∈ arrivals, a.1.id = n.iso.rxId → Complete rxBufferSize a.1) :
    ReassemblesSoundly rxBufferSize n arrivals := by
  have hnone : Follows n none := hstart
  constructor
  · rw [delivered, arrivals_refine rxBufferSize n arrivals none hnone hc]
    exact assemble_run_sound rxBufferSize.toNat [] _ none trivial
  · intro arrivals' hsame
    have hc' := complete_of_sameContent hsame hc
    rw [delivered, delivered, arrivals_refine rxBufferSize n arrivals none hnone hc,
      arrivals_refine rxBufferSize n arrivals' none hnone hc', heard_congr n.iso.rxId hsame]

/-- A First Frame of length `len` that announces eight bytes, and its Consecutive Frame, with
`stale` in memory behind each of them. -/
def eightArrivals (len : ℕ) (stale : UInt8) : List (RxFrame × ℤ) :=
  [(.ofBytes 2 ([0x10, 8, 1, 2, 3, 4, 5, 6].take len) fun _ => stale, 0),
    (.ofBytes 2 [0x21, 7, 8] fun _ => stale, 0)]

theorem eightArrivals_sound :
    ReassemblesSoundly 64 (tpIsotpInit zeroNode true 1 2) (eightArrivals 8 0xEE) := by
  refine reassembly_sound 64 (tpIsotpInit zeroNode true 1 2) (eightArrivals 8 0xEE) (by decide) ?_
  intro a ha _
  simp only [eightArrivals, List.mem_cons, List.not_mem_nil, or_false] at ha
  rcases ha with rfl | rfl
  · exact ⟨by decide, fun _ => ⟨by decide, fun _ _ => by decide⟩⟩
  · exact ⟨by decide, fun h => absurd h (by decide)⟩

/-- Of a First Frame with one payload byte the code takes six. -/
theorem short_ff_unsound :
    ¬ ReassemblesSoundly 64 (tpIsotpInit zeroNode true 1 2) (eightArrivals 3 0xEE) := by
  rintro ⟨-, hsame⟩
  have hcontent : List.Forall₂ SameContent (eightArrivals 3 0xEE) (eightArrivals 3 0xDD) :=
    .cons ⟨rfl, rfl, rfl⟩ (.cons ⟨rfl, rfl, rfl⟩ .nil)
  exact absurd (hsame _ hcontent) (by decide)

end UdsLib.Isotp
