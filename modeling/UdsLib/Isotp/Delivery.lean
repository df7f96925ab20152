import Mathlib.Data.List.Forall2
import Mathlib.Tactic.Common
import Mathlib.Tactic.IntervalCases
import UdsLib.Isotp.Segmentation

/-! The receiver on the frames of one message: whatever lies in memory behind each frame,
they deliver the message once and leave the receiver idle. -/
namespace UdsLib.Isotp
open Bytes Machine

/-- The frame lengths that CAN and CAN-FD can express. -/
def LegalLength (useCanFd : Bool) (k : ℕ) : Prop :=
  k ≤ 8 ∨ (useCanFd = true ∧ k ∈ [12, 16, 20, 24, 32, 48, 64])

theorem dlcAlign_spec (len : UInt8) (h : len.toNat ≤ 64) :
    len.toNat ≤ (dlcAlign len).toNat ∧ LegalLength true (dlcAlign len).toNat := by
  unfold dlcAlign
  simp only [UInt8.le_iff_toNat_le]
  split_ifs <;> simp_all [LegalLength]

theorem sendBuffer_eq (bytes : List UInt8) (dl : UInt8) (h : bytes.length ≤ dl.toNat)
    (h64 : dl.toNat ≤ 64) :
    sendBuffer bytes dl = bytes ++ List.replicate (dl.toNat - bytes.length) 0 := by
  rw [sendBuffer, List.take_append, List.take_of_length_le h, List.take_replicate]
  congr 2
  omega

theorem sendBuffer_length (bytes : List UInt8) (dl : UInt8) (h64 : dl.toNat ≤ 64) :
    (sendBuffer bytes dl).length = dl.toNat := by
  simp only [sendBuffer, List.length_take, List.length_append, List.length_replicate]
  omega

theorem legalLength_le {useCanFd : Bool} {k : ℕ} (h : LegalLength useCanFd k) : k ≤ 64 := by
  rcases h with h | ⟨-, h⟩
  · omega
  · simp only [List.mem_cons, List.not_mem_nil, or_false] at h
    omega

/-! ### The shape of the frames -/

theorem cfFrame_shape (useCanFd : Bool) (sn : UInt8) (payload : List UInt8)
    (h : payload.length ≤ (maxCfPayload useCanFd).toNat) :
    ∃ pad, cfFrame useCanFd sn payload = (0x20 ||| sn) :: payload ++ pad ∧
      LegalLength useCanFd (cfFrame useCanFd sn payload).length ∧
      (payload.length = (maxCfPayload useCanFd).toNat → pad = []) := by
  cases useCanFd with
  | false =>
    have h7 : payload.length ≤ 7 := h
    have heq := sendBuffer_eq ((0x20 ||| sn) :: payload) 8
      (by rw [List.length_cons]; exact Nat.succ_le_succ h7) (by decide)
    refine ⟨_, heq, ?_, fun hfull => ?_⟩
    · left
      exact (sendBuffer_length _ 8 (by decide)).le
    · have h7' : payload.length = 7 := hfull
      simp [h7']
  | true =>
    have h63 : payload.length ≤ 63 := h
    have hone : (1 + UInt8.ofNat payload.length).toNat = 1 + payload.length := by
      rw [UInt8.toNat_add, UInt8.toNat_ofNat']
      show (1 + payload.length % 256) % 256 = _
      omega
    obtain ⟨hle, hlegal⟩ := dlcAlign_spec (1 + UInt8.ofNat payload.length) (by omega)
    have h64 := legalLength_le hlegal
    have heq := sendBuffer_eq ((0x20 ||| sn) :: payload)
      (dlcAlign (1 + UInt8.ofNat payload.length)) (by simp only [List.length_cons]; omega) h64
    refine ⟨_, heq, ?_, fun hfull => ?_⟩
    · have hlen := sendBuffer_length ((0x20 ||| sn) :: payload)
        (dlcAlign (1 + UInt8.ofNat payload.length)) h64
      rw [← hlen] at hlegal
      exact hlegal
    · have h63' : payload.length = 63 := hfull
      simp [h63', dlcAlign]

/-- The two header bytes of a First Frame. -/
def ffHeader (data : Sdu) : List UInt8 :=
  [(0x10 : UInt8) ||| ((data.len >>> 8) &&& 0x0F).toUInt8, (data.len &&& 0xFF).toUInt8]

theorem ffFrame_shape (useCanFd : Bool) (data : Sdu) (h : ¬ FitsSf useCanFd data) :
    ffFrame useCanFd data = ffHeader data ++ data.bytes.take (maxDataInFf useCanFd).toNat ∧
      (ffFrame useCanFd data).length = 2 + (maxDataInFf useCanFd).toNat ∧
      LegalLength useCanFd (ffFrame useCanFd data).length := by
  have hlen := (not_fitsSf_iff _ _).mp h
  have hff := maxDataInFf_le_maxSfLen useCanFd
  have hcopy : copyLen data.len (maxDataInFf useCanFd) = maxDataInFf useCanFd := by
    apply UInt8.toNat.inj
    rw [copyLen_toNat, Sdu.len_toNat]
    omega
  have hpay : (data.bytes.take (maxDataInFf useCanFd).toNat).length =
      (maxDataInFf useCanFd).toNat := by
    rw [List.length_take]
    omega
  have hbytes : (ffHeader data ++ data.bytes.take (maxDataInFf useCanFd).toNat).length =
      2 + (maxDataInFf useCanFd).toNat := by
    rw [List.length_append, hpay]
    rfl
  have hdl : ((if useCanFd then dlcAlign (2 + maxDataInFf useCanFd) else 8) : UInt8).toNat =
      2 + (maxDataInFf useCanFd).toNat := by
    cases useCanFd <;> decide
  have hmax : 2 + (maxDataInFf useCanFd).toNat ≤ 64 := by cases useCanFd <;> decide
  have heq := sendBuffer_eq (ffHeader data ++ data.bytes.take (maxDataInFf useCanFd).toNat)
    (if useCanFd then dlcAlign (2 + maxDataInFf useCanFd) else 8) (by omega) (by omega)
  rw [hdl, hbytes, Nat.sub_self, List.replicate_zero, List.append_nil] at heq
  have hframe : ffFrame useCanFd data =
      ffHeader data ++ data.bytes.take (maxDataInFf useCanFd).toNat := by
    rw [← heq, ffFrame, hcopy, ffHeader]
  refine ⟨hframe, by rw [hframe, hbytes], ?_⟩
  rw [hframe, hbytes]
  cases useCanFd <;> simp [LegalLength, maxDataInFf]

/-- A Single Frame is its header, the message and padding; the escape header starts at 8 bytes. -/
theorem sfFrame_shape (useCanFd : Bool) (data : Sdu) (h : FitsSf useCanFd data) :
    LegalLength useCanFd (sfFrame data).length ∧
      ((data.bytes.length ≤ 7 ∧
          ∃ pad, sfFrame data = UInt8.ofNat data.bytes.length :: data.bytes ++ pad) ∨
        (8 ≤ data.bytes.length ∧ data.bytes.length ≤ 62 ∧
          ∃ pad, sfFrame data = 0 :: UInt8.ofNat data.bytes.length :: data.bytes ++ pad)) := by
  have hcast : data.len.toUInt8 = UInt8.ofNat data.bytes.length := by
    simp [Sdu.len]
  by_cases h7 : data.bytes.length ≤ 7
  · have hshort : data.len ≤ 7 := by
      rw [UInt16.le_iff_toNat_le, Sdu.len_toNat]
      exact h7
    have heq := sendBuffer_eq ((0x00 ||| data.len.toUInt8) :: data.bytes) 8
      (by rw [List.length_cons]; exact Nat.succ_le_succ h7) (by decide)
    have hframe : sfFrame data = sendBuffer ((0x00 ||| data.len.toUInt8) :: data.bytes) 8 :=
      if_pos hshort
    rw [hcast, UInt8.zero_or] at heq hframe
    refine ⟨Or.inl ?_, Or.inl ⟨h7, _, hframe.trans heq⟩⟩
    rw [hframe]
    exact (sendBuffer_length _ 8 (by decide)).le
  · have hlong : ¬ data.len ≤ 7 := by
      rw [UInt16.le_iff_toNat_le, Sdu.len_toNat]
      exact h7
    have hmax : data.bytes.length ≤ (maxSfLen useCanFd).toNat := by
      simpa [FitsSf, UInt16.le_iff_toNat_le] using h
    have hfd : useCanFd = true := by
      cases useCanFd with
      | false => exact absurd hmax h7
      | true => rfl
    subst hfd
    have h62 : data.bytes.length ≤ 62 := hmax
    have htwo : (data.len + 2).toUInt8.toNat = data.bytes.length + 2 := by
      rw [UInt16.toNat_toUInt8, UInt16.toNat_add, Sdu.len_toNat]
      show (data.bytes.length + 2) % 65536 % 256 = _
      omega
    obtain ⟨hle, hlegal⟩ := dlcAlign_spec (data.len + 2).toUInt8 (by omega)
    have h64 := legalLength_le hlegal
    have heq := sendBuffer_eq (0x00 :: data.len.toUInt8 :: data.bytes)
      (dlcAlign (data.len + 2).toUInt8) (by simp only [List.length_cons]; omega) h64
    have hframe : sfFrame data =
        sendBuffer (0x00 :: data.len.toUInt8 :: data.bytes) (dlcAlign (data.len + 2).toUInt8) :=
      if_neg hlong
    have hlen := sendBuffer_length (0x00 :: data.len.toUInt8 :: data.bytes)
      (dlcAlign (data.len + 2).toUInt8) h64
    rw [← hlen, ← hframe] at hlegal
    have hshape := hframe.trans heq
    rw [hcast] at hshape
    exact ⟨hlegal, Or.inr ⟨by omega, h62, _, hshape⟩⟩

/-! ### A frame built from bytes -/

theorem ofBytes_len (id : UInt32) (bytes : List UInt8) (beyond : ℕ → UInt8)
    (h : bytes.length < 256) : (RxFrame.ofBytes id bytes beyond).len.toNat = bytes.length := by
  simpa [RxFrame.ofBytes] using Nat.mod_eq_of_lt h

theorem slice_ofBytes (id : UInt32) (bytes : List UInt8) (beyond : ℕ → UInt8) (off k : ℕ)
    (h : off + k ≤ bytes.length) :
    slice (RxFrame.ofBytes id bytes beyond).data off k = (bytes.drop off).take k := by
  apply List.ext_getElem (by simp; omega)
  intro i hi _
  have hi : i < k := by simpa using hi
  have hin : off + i < bytes.length := by omega
  simp [RxFrame.ofBytes, List.getD_eq_getElem?_getD, List.getElem?_eq_getElem hin]

/-- `op` is the arrival of the frame `bytes`. -/
def Arrival (id : UInt32) (bytes : List UInt8) (op : Op) : Prop :=
  ∃ beyond ret, op = .rx (.ofBytes id bytes beyond) ret

/-! ### Consecutive Frames -/

/-- A reception that has collected `got` and waits for `rest`. -/
structure RxPartial (n : Node) (got rest : List UInt8) : Prop where
  state : n.iso.state = .rxWaitCf
  msgLen : n.iso.msgLen.toNat = got.length + rest.length
  processed : n.iso.bytesProcessed.toNat = got.length
  buffer : slice n.rxBuffer 0 got.length = got

/-- What a Consecutive Frame with the expected number does to the reception. -/
theorem rxCf_takes {n : Node} {f : RxFrame} {got chunk rest : List UInt8}
    (h : RxPartial n got (chunk ++ rest)) (hsn : f.data 0 &&& 0x0F = n.iso.sn)
    (hlen : chunk.length = min (chunk.length + rest.length) (f.len - 1).toNat)
    (hdata : slice f.data 1 chunk.length = chunk) :
    rxCf n f =
      if rest = [] then
        ({ n with
            iso := { n.iso with
              sn := (n.iso.sn + 1) &&& 0x0F
              bytesProcessed := UInt16.ofNat (got.length + chunk.length)
              state := .idle }
            rxBuffer := blit n.rxBuffer got.length chunk },
          [.rxWrite got.length chunk.length, .inputSdu (got ++ chunk)])
      else
        ({ n with
            iso := { n.iso with
              sn := (n.iso.sn + 1) &&& 0x0F
              bytesProcessed := UInt16.ofNat (got.length + chunk.length) }
            rxBuffer := blit n.rxBuffer got.length chunk },
          [.rxWrite got.length chunk.length]) := by
  have hm := n.iso.msgLen.toNat_lt
  have hmsg := h.msgLen
  rw [List.length_append] at hmsg
  have hle : n.iso.bytesProcessed.toNat ≤ n.iso.msgLen.toNat := by rw [hmsg, h.processed]; omega
  have hcopy : (copyLen (n.iso.msgLen - n.iso.bytesProcessed) (f.len - 1)).toNat =
      chunk.length := by
    rw [copyLen_toNat, sub_toNat hle, hmsg, h.processed, hlen]
    congr 1
    omega
  have hadv : n.iso.bytesProcessed +
      (copyLen (n.iso.msgLen - n.iso.bytesProcessed) (f.len - 1)).toUInt16 =
      UInt16.ofNat (got.length + chunk.length) := by
    apply UInt16.toNat.inj
    rw [UInt16.toNat_add, UInt8.toNat_toUInt16, hcopy, h.processed, UInt16.toNat_ofNat']
  have hbuf : slice (blit n.rxBuffer got.length chunk) 0 (got.length + chunk.length) =
      got ++ chunk := by
    rw [slice_blit_append, h.buffer]
  have hdone : UInt16.ofNat (got.length + chunk.length) ≥ n.iso.msgLen ↔ rest = [] := by
    rw [ge_iff_le, UInt16.le_iff_toNat_le, UInt16.toNat_ofNat', Nat.mod_eq_of_lt (by omega), hmsg,
      ← List.length_eq_zero_iff]
    omega
  unfold rxCf
  rw [if_neg (not_not.mpr h.state), if_neg (not_not.mpr hsn)]
  simp only [hcopy, hadv, hdone, hdata, h.processed]
  by_cases hrest : rest = []
  · rw [if_pos hrest, if_pos hrest]
    have hmsg' : n.iso.msgLen.toNat = got.length + chunk.length := by
      simpa [hrest] using hmsg
    rw [hmsg', hbuf]
  · rw [if_neg hrest, if_neg hrest]

theorem rxCf_more {n : Node} {f : RxFrame} {got chunk rest : List UInt8}
    (h : RxPartial n got (chunk ++ rest)) (hsn : f.data 0 &&& 0x0F = n.iso.sn)
    (hlen : chunk.length = min (chunk.length + rest.length) (f.len - 1).toNat)
    (hdata : slice f.data 1 chunk.length = chunk) (hrest : rest ≠ []) :
    (rxCf n f).2 = [.rxWrite got.length chunk.length] ∧
      RxPartial (rxCf n f).1 (got ++ chunk) rest ∧
      (rxCf n f).1.iso.sn = (n.iso.sn + 1) &&& 0x0F := by
  have hm := n.iso.msgLen.toNat_lt
  have hmsg := h.msgLen
  rw [List.length_append] at hmsg
  rw [rxCf_takes h hsn hlen hdata, if_neg hrest]
  refine ⟨rfl, ⟨h.state, ?_, ?_, ?_⟩, rfl⟩
  · simp only [List.length_append]
    omega
  · simp only [UInt16.toNat_ofNat', List.length_append]
    omega
  · rw [List.length_append, slice_blit_append, h.buffer]

theorem rxCf_last {n : Node} {f : RxFrame} {got chunk : List UInt8}
    (h : RxPartial n got chunk) (hsn : f.data 0 &&& 0x0F = n.iso.sn)
    (hlen : chunk.length ≤ (f.len - 1).toNat) (hdata : slice f.data 1 chunk.length = chunk) :
    (rxCf n f).2 = [.rxWrite got.length chunk.length, .inputSdu (got ++ chunk)] ∧
      (rxCf n f).1.iso.state = .idle := by
  have h' : RxPartial n got (chunk ++ []) := by rwa [List.append_nil]
  rw [rxCf_takes h' hsn (by simpa using (Nat.min_eq_left hlen).symm) hdata, if_pos rfl]
  exact ⟨rfl, rfl⟩

theorem cfPci (sn : UInt8) (h : sn.toNat < 16) :
    (0x20 ||| sn) &&& 0xF0 = 0x20 ∧ (0x20 ||| sn) &&& 0x0F = sn := by
  have hsn : sn = UInt8.ofNat sn.toNat := by simp
  rw [hsn]
  generalize sn.toNat = k at h
  interval_cases k <;> decide

/-- What `uds_rx_cf` reads from a Consecutive Frame of the sender. -/
theorem cfFrame_reads (useCanFd : Bool) (sn : UInt8) (payload : List UInt8) (id : UInt32)
    (beyond : ℕ → UInt8) (hlt : sn.toNat < 16)
    (h : payload.length ≤ (maxCfPayload useCanFd).toNat) :
    let f := RxFrame.ofBytes id (cfFrame useCanFd sn payload) beyond
    pciOf f = .cf ∧ f.data 0 &&& 0x0F = sn ∧ slice f.data 1 payload.length = payload ∧
      payload.length ≤ (f.len - 1).toNat ∧
      (payload.length = (maxCfPayload useCanFd).toNat → (f.len - 1).toNat = payload.length) := by
  intro f
  obtain ⟨pad, hframe, hlegal, hfull⟩ := cfFrame_shape useCanFd sn payload h
  have h64 := legalLength_le hlegal
  have hlenF : f.len.toNat = 1 + payload.length + pad.length := by
    rw [ofBytes_len _ _ _ (by omega), hframe]
    simp only [List.length_append, List.length_cons]
    omega
  have hlenF' : (f.len - 1).toNat = payload.length + pad.length := by
    rw [UInt8.toNat_sub_of_le _ _ (by simp [UInt8.le_iff_toNat_le]; omega), hlenF]
    show 1 + _ + _ - 1 = _
    omega
  have hpci : f.data 0 = 0x20 ||| sn := by
    simp only [f, RxFrame.ofBytes, hframe]
    rfl
  refine ⟨?_, ?_, ?_, by omega, fun heq => ?_⟩
  · unfold pciOf
    rw [hpci, (cfPci sn hlt).1]
    rfl
  · rw [hpci, (cfPci sn hlt).2]
  · rw [slice_ofBytes _ _ _ _ _ (by rw [hframe]; simp; omega), hframe]
    simp
  · rw [hlenF', hfull heq, List.length_nil, Nat.add_zero]

section Reception

variable {useCanFd : Bool} {sn : UInt8} {got rest : List UInt8} {n : Node}

/-- A Consecutive Frame that does not exhaust `rest` moves its payload to the buffer. -/
theorem cfFrame_more (rxBufferSize : UInt16) (beyond : ℕ → UInt8) (ret : ℤ)
    (h : RxPartial n got rest) (hsn : n.iso.sn = sn) (hlt : sn.toNat < 16)
    (htail : rest.drop (maxCfPayload useCanFd).toNat ≠ []) :
    let chunk := rest.take (maxCfPayload useCanFd).toNat
    let r := step rxBufferSize n
      (.rx (.ofBytes n.iso.rxId (cfFrame useCanFd sn chunk) beyond) ret)
    r.2 = [.rxWrite got.length chunk.length] ∧
      RxPartial r.1 (got ++ chunk) (rest.drop (maxCfPayload useCanFd).toNat) ∧
      r.1.iso.sn = (sn + 1) &&& 0x0F := by
  intro chunk r
  have htl := List.length_pos_iff.mpr htail
  rw [List.length_drop] at htl
  have hchunk : chunk.length = (maxCfPayload useCanFd).toNat := by
    rw [List.length_take]
    omega
  obtain ⟨hkind, hnum, hdata, -, hfull⟩ :=
    cfFrame_reads useCanFd sn chunk n.iso.rxId beyond hlt hchunk.le
  have hstep : r = rxCf n (.ofBytes n.iso.rxId (cfFrame useCanFd sn chunk) beyond) := by
    simp only [r, step_ofBytes, hkind]
  have h' : RxPartial n got (chunk ++ rest.drop (maxCfPayload useCanFd).toNat) := by
    rwa [List.take_append_drop]
  rw [hstep, ← hsn]
  rw [← hsn] at hnum hfull hdata
  exact rxCf_more h' hnum (by rw [hfull hchunk, List.length_drop]; omega) hdata htail

/-- The Consecutive Frame that exhausts `rest` hands the message up. -/
theorem cfFrame_last (rxBufferSize : UInt16) (beyond : ℕ → UInt8) (ret : ℤ)
    (h : RxPartial n got rest) (hsn : n.iso.sn = sn) (hlt : sn.toNat < 16)
    (htail : rest.drop (maxCfPayload useCanFd).toNat = []) :
    (step rxBufferSize n (.rx (.ofBytes n.iso.rxId
        (cfFrame useCanFd sn (rest.take (maxCfPayload useCanFd).toNat)) beyond) ret)).2 =
      [.rxWrite got.length rest.length, .inputSdu (got ++ rest)] := by
  have hle := List.drop_eq_nil_iff.mp htail
  rw [List.take_of_length_le hle]
  obtain ⟨hkind, hnum, hdata, hroom, -⟩ := cfFrame_reads useCanFd sn rest n.iso.rxId beyond hlt hle
  simp only [step_ofBytes, hkind]
  exact (rxCf_last h (by rw [hnum, hsn]) hroom hdata).1

/-- The Consecutive Frames of `rest` complete a reception that waits for `rest`. -/
theorem cfFrames_complete (rxBufferSize : UInt16) (ops : List Op) (h : RxPartial n got rest)
    (hrest : rest ≠ []) (hsn : n.iso.sn = sn) (hlt : sn.toNat < 16)
    (harr : List.Forall₂ (Arrival n.iso.rxId) (cfFrames useCanFd sn rest) ops) :
    sdusOf (trace (step rxBufferSize) n ops) = [got ++ rest] := by
  induction sn, rest using cfFrames.induct useCanFd generalizing got n ops with
  | case1 sn => exact absurd rfl hrest
  | case2 sn rest _ ih =>
    rw [cfFrames_of_ne_nil _ _ hrest] at harr
    obtain ⟨op, ops, ⟨beyond, ret, rfl⟩, hops, rfl⟩ := List.forall₂_cons_left_iff.mp harr
    rw [trace_cons, sdusOf_append]
    by_cases htail : rest.drop (maxCfPayload useCanFd).toNat = []
    · rw [htail, cfFrames_nil] at hops
      rw [cfFrame_last rxBufferSize beyond ret h hsn hlt htail,
        List.forall₂_nil_left_iff.mp hops]
      rfl
    · obtain ⟨hout, hnext, hnum⟩ := cfFrame_more rxBufferSize beyond ret h hsn hlt htail
      rw [← (step_ids rxBufferSize n _).1] at hops
      rw [hout, ih ops hnext htail hnum (nextSn_lt sn) hops, List.append_assoc,
        List.take_append_drop]
      rfl

/-- Without a reception in progress Consecutive Frames deliver nothing. -/
theorem cfFrames_ignored (rxBufferSize : UInt16) (ops : List Op) (hs : n.iso.state ≠ .rxWaitCf)
    (hlt : sn.toNat < 16)
    (harr : List.Forall₂ (Arrival n.iso.rxId) (cfFrames useCanFd sn rest) ops) :
    sdusOf (trace (step rxBufferSize) n ops) = [] := by
  induction sn, rest using cfFrames.induct useCanFd generalizing ops with
  | case1 sn =>
    rw [cfFrames_nil] at harr
    rw [List.forall₂_nil_left_iff.mp harr]
    rfl
  | case2 sn rest hrest ih =>
    rw [cfFrames_of_ne_nil _ _ hrest] at harr
    obtain ⟨op, ops, ⟨beyond, ret, rfl⟩, hops, rfl⟩ := List.forall₂_cons_left_iff.mp harr
    generalize hchunk : rest.take (maxCfPayload useCanFd).toNat = chunk at harr ⊢
    obtain ⟨hkind, -⟩ := cfFrame_reads useCanFd sn chunk n.iso.rxId beyond hlt
      (by rw [← hchunk, List.length_take]; omega)
    have hstep : step rxBufferSize n
        (.rx (.ofBytes n.iso.rxId (cfFrame useCanFd sn chunk) beyond) ret) = (n, []) := by
      simp only [step_ofBytes, hkind]
      exact if_pos hs
    rw [trace_cons, hstep]
    exact ih ops (nextSn_lt sn) hops

end Reception

/-! ### First Frames -/

theorem ffPci (hi : UInt8) (h : hi.toNat < 16) :
    ((0x10 : UInt8) ||| hi) &&& 0xF0 = 0x10 ∧ ((0x10 : UInt8) ||| hi).toNat % 16 = hi.toNat := by
  have hhi : hi = UInt8.ofNat hi.toNat := by simp
  rw [hhi]
  generalize hi.toNat = k at h
  interval_cases k <;> decide

theorem and_0F_toNat (b : UInt8) : (b &&& 0x0F).toNat = b.toNat % 16 := by
  rw [UInt8.toNat_and, show (0x0F : UInt8).toNat = 2 ^ 4 - 1 from rfl,
    Nat.and_two_pow_sub_one_eq_mod]

/-- The announced length as a number. -/
theorem ffSduLen_toNat (f : RxFrame) :
    (ffSduLen f).toNat = (f.data 0).toNat % 16 * 256 + (f.data 1).toNat := by
  have h1 := (f.data 1).toNat_lt
  have hhi : ((f.data 0).toUInt16 &&& 0x0F).toNat = (f.data 0).toNat % 16 := by
    rw [UInt16.toNat_and, UInt8.toNat_toUInt16, show (0x0F : UInt16).toNat = 2 ^ 4 - 1 from rfl,
      Nat.and_two_pow_sub_one_eq_mod]
  rw [ffSduLen, UInt16.toNat_or, UInt16.toNat_shiftLeft, hhi, UInt8.toNat_toUInt16,
    show (8 : UInt16).toNat % 16 = 8 from rfl, Nat.mod_eq_of_lt (by rw [Nat.shiftLeft_eq]; omega),
    ← Nat.shiftLeft_add_eq_or_of_lt (by omega), Nat.shiftLeft_eq]

theorem lenHigh_toNat (len : UInt16) (h : len.toNat < 4096) :
    ((len >>> 8) &&& 0x0F).toUInt8.toNat = len.toNat / 256 := by
  rw [UInt16.toNat_toUInt8, UInt16.toNat_and, UInt16.toNat_shiftRight,
    show (0x0F : UInt16).toNat = 2 ^ 4 - 1 from rfl, Nat.and_two_pow_sub_one_eq_mod,
    show (8 : UInt16).toNat % 16 = 8 from rfl, Nat.shiftRight_eq_div_pow]
  omega

theorem lenLow_toNat (len : UInt16) : (len &&& 0xFF).toUInt8.toNat = len.toNat % 256 := by
  rw [UInt16.toNat_toUInt8, UInt16.toNat_and, show (0xFF : UInt16).toNat = 2 ^ 8 - 1 from rfl,
    Nat.and_two_pow_sub_one_eq_mod]
  omega

/-- What `uds_rx_ff` reads from the First Frame of the sender. -/
theorem ffFrame_reads (useCanFd : Bool) (data : Sdu) (id : UInt32) (beyond : ℕ → UInt8)
    (hlong : ¬ FitsSf useCanFd data) (hmax : data.bytes.length < 4096) :
    let f := RxFrame.ofBytes id (ffFrame useCanFd data) beyond
    pciOf f = .ff ∧ ffSduLen f = data.len ∧
      (dataInFf f.len).toNat = (maxDataInFf useCanFd).toNat ∧
      slice f.data 2 (maxDataInFf useCanFd).toNat =
        data.bytes.take (maxDataInFf useCanFd).toNat := by
  intro f
  obtain ⟨hframe, hflen, hlegal⟩ := ffFrame_shape useCanFd data hlong
  have h64 := legalLength_le hlegal
  have hhi := lenHigh_toNat data.len (by rwa [Sdu.len_toNat])
  obtain ⟨hkind, hnib⟩ := ffPci ((data.len >>> 8) &&& 0x0F).toUInt8
    (by rw [hhi, Sdu.len_toNat]; omega)
  have h0 : f.data 0 = (0x10 : UInt8) ||| ((data.len >>> 8) &&& 0x0F).toUInt8 := by
    simp only [f, RxFrame.ofBytes, hframe, ffHeader]
    rfl
  have h1 : f.data 1 = (data.len &&& 0xFF).toUInt8 := by
    simp only [f, RxFrame.ofBytes, hframe, ffHeader]
    rfl
  have hlen : f.len = UInt8.ofNat (2 + (maxDataInFf useCanFd).toNat) := by
    simp only [f, RxFrame.ofBytes, hflen]
  refine ⟨?_, ?_, ?_, ?_⟩
  · unfold pciOf
    rw [h0, hkind]
    rfl
  · apply UInt16.toNat.inj
    rw [ffSduLen_toNat, h0, h1, hnib, hhi, lenLow_toNat]
    omega
  · rw [hlen]
    cases useCanFd <;> rfl
  · rw [slice_ofBytes _ _ _ _ _ (by omega), hframe]
    show List.take _ (List.take _ data.bytes) = _
    rw [List.take_take, Nat.min_self]

/-- The First Frame of a segmented message opens its reception. -/
theorem rxFf_opens (rxBufferSize : UInt16) (useCanFd : Bool) (data : Sdu) (n : Node) (id : UInt32)
    (beyond : ℕ → UInt8) (ret : ℤ) (hlong : ¬ FitsSf useCanFd data)
    (hmax : data.bytes.length < 4096) (hcap : data.bytes.length ≤ rxBufferSize.toNat) :
    let f := RxFrame.ofBytes id (ffFrame useCanFd data) beyond
    pciOf f = .ff ∧
      (rxFf rxBufferSize n f ret).2 = .rxWrite 0 (maxDataInFf useCanFd).toNat ::
        (tpSendFrame n.iso [0x30, n.iso.blockSize, n.iso.stMin, 0, 0, 0, 0, 0] ret).2 ∧
      RxPartial (rxFf rxBufferSize n f ret).1 (data.bytes.take (maxDataInFf useCanFd).toNat)
        (data.bytes.drop (maxDataInFf useCanFd).toNat) ∧
      (rxFf rxBufferSize n f ret).1.iso.sn = 1 := by
  intro f
  obtain ⟨hkind, hsdu, hin, hpay⟩ := ffFrame_reads useCanFd data id beyond hlong hmax
  have hlen := (not_fitsSf_iff _ _).mp hlong
  have hff := maxDataInFf_le_maxSfLen useCanFd
  have hsf : 7 ≤ (maxSfLen useCanFd).toNat := by cases useCanFd <;> decide
  have hpayLen : (data.bytes.take (maxDataInFf useCanFd).toNat).length =
      (maxDataInFf useCanFd).toNat := by
    rw [List.length_take]
    omega
  have hshort : ¬ data.len < 8 := by
    rw [UInt16.lt_iff_toNat_lt, Sdu.len_toNat, show (8 : UInt16).toNat = 8 from rfl]
    omega
  have hlarge : ¬ rxBufferSize < data.len := by
    rw [UInt16.lt_iff_toNat_lt, Sdu.len_toNat]
    omega
  refine ⟨hkind, ?_⟩
  simp only [f, rxFf, hsdu, if_neg hshort, if_neg hlarge, hin, hpay]
  refine ⟨rfl, ⟨rfl, ?_, ?_, ?_⟩, trivial⟩
  · simp only [Sdu.len_toNat, hpayLen, List.length_drop]
    omega
  · simp only [UInt8.toNat_toUInt16, hin, hpayLen]
  · exact slice_blit_self _ _ _

/-! ### Whole messages -/

/-- The Single Frame of a message delivers it. -/
theorem rxSf_delivers (useCanFd : Bool) (data : Sdu) (n : Node) (id : UInt32)
    (beyond : ℕ → UInt8) (hfit : FitsSf useCanFd data) (hpos : 1 ≤ data.bytes.length) :
    let f := RxFrame.ofBytes id (sfFrame data) beyond
    pciOf f = .sf ∧ (rxSf n f).2 = [.inputSdu data.bytes] := by
  intro f
  obtain ⟨hlegal, hshape⟩ := sfFrame_shape useCanFd data hfit
  have h64 := legalLength_le hlegal
  have hflen : f.len.toNat = (sfFrame data).length := ofBytes_len _ _ _ (by omega)
  rcases hshape with ⟨h7, pad, hframe⟩ | ⟨h8, h62, pad, hframe⟩
  · have h0 : f.data 0 = UInt8.ofNat data.bytes.length := by
      simp only [f, RxFrame.ofBytes, hframe]
      rfl
    have hnib : f.data 0 &&& 0xF0 = 0 ∧ f.data 0 &&& 0x0F = UInt8.ofNat data.bytes.length ∧
        UInt8.ofNat data.bytes.length ≠ 0 := by
      rw [h0]
      generalize data.bytes.length = k at h7 hpos
      interval_cases k <;> decide
    have hdata : slice f.data 1 data.bytes.length = data.bytes := by
      rw [slice_ofBytes _ _ _ _ _ (by rw [hframe]; simp; omega), hframe]
      simp
    have hsub : (UInt8.ofNat data.bytes.length).toNat = data.bytes.length := by
      rw [UInt8.toNat_ofNat', Nat.mod_eq_of_lt (by omega)]
    have hroom : ¬ (((UInt8.ofNat data.bytes.length).toNat : ℤ) > (f.len.toNat : ℤ) - (1 : ℕ)) := by
      rw [hsub, hflen, hframe]
      simp only [List.length_append, List.length_cons]
      omega
    refine ⟨?_, ?_⟩
    · unfold pciOf
      rw [hnib.1]
      rfl
    · simp only [rxSf, hnib.2.1, hnib.2.2, false_and, if_false]
      rw [if_neg hroom, hsub, hdata]
  · have h0 : f.data 0 = 0 := by
      simp only [f, RxFrame.ofBytes, hframe]
      rfl
    have h1 : f.data 1 = UInt8.ofNat data.bytes.length := by
      simp only [f, RxFrame.ofBytes, hframe]
      rfl
    have hsub : (UInt8.ofNat data.bytes.length).toNat = data.bytes.length := by
      rw [UInt8.toNat_ofNat', Nat.mod_eq_of_lt (by omega)]
    have hne : UInt8.ofNat data.bytes.length ≠ 0 := by
      intro h
      rw [h] at hsub
      have : (0 : ℕ) = data.bytes.length := hsub
      omega
    have hdata : slice f.data 2 data.bytes.length = data.bytes := by
      rw [slice_ofBytes _ _ _ _ _ (by rw [hframe]; simp; omega), hframe]
      simp
    have hroom : ¬ (((UInt8.ofNat data.bytes.length).toNat : ℤ) > (f.len.toNat : ℤ) - (2 : ℕ)) := by
      rw [hsub, hflen, hframe]
      simp only [List.length_append, List.length_cons]
      omega
    refine ⟨?_, ?_⟩
    · unfold pciOf
      rw [h0]
      rfl
    · have hnib : f.data 0 &&& 0x0F = 0 := by rw [h0]; rfl
      simp only [rxSf, hnib, h1, if_true, hne, and_false, if_false]
      rw [if_neg hroom, hsub, hdata]

theorem rxSf_idle (n : Node) (f : RxFrame) : (rxSf n f).1 = n.setState .idle := by
  unfold rxSf
  dsimp only
  split_ifs <;> rfl

theorem cfFrames_legal (useCanFd : Bool) (sn : UInt8) (rest : List UInt8) :
    ∀ frame ∈ cfFrames useCanFd sn rest, LegalLength useCanFd frame.length := by
  induction sn, rest using cfFrames.induct useCanFd with
  | case1 sn => simp
  | case2 sn rest hrest ih =>
    obtain ⟨-, -, hlegal, -⟩ := cfFrame_shape useCanFd sn
      (rest.take (maxCfPayload useCanFd).toNat) (by rw [List.length_take]; omega)
    rw [cfFrames_of_ne_nil _ _ hrest]
    exact List.forall_mem_cons.mpr ⟨hlegal, ih⟩

theorem segment_legal (useCanFd : Bool) (data : Sdu) :
    ∀ frame ∈ segment useCanFd data, LegalLength useCanFd frame.length := by
  unfold segment
  split_ifs with hfit
  · exact List.forall_mem_singleton.mpr (sfFrame_shape useCanFd data hfit).1
  · exact List.forall_mem_cons.mpr ⟨(ffFrame_shape useCanFd data hfit).2.2, cfFrames_legal _ _ _⟩

/-- The Single Frame of a message delivers it; Consecutive Frames behind it add nothing. -/
theorem sf_then_cfFrames (rxBufferSize : UInt16) (useCanFd : Bool) (data : Sdu) (sn : UInt8)
    (rest : List UInt8) (n : Node) (ops : List Op) (hfit : FitsSf useCanFd data)
    (hpos : 1 ≤ data.bytes.length) (hlt : sn.toNat < 16)
    (harr : List.Forall₂ (Arrival n.iso.rxId) (sfFrame data :: cfFrames useCanFd sn rest) ops) :
    sdusOf (trace (step rxBufferSize) n ops) = [data.bytes] := by
  obtain ⟨op, ops, ⟨beyond, ret, rfl⟩, hops, rfl⟩ := List.forall₂_cons_left_iff.mp harr
  obtain ⟨hkind, hout⟩ := rxSf_delivers useCanFd data n n.iso.rxId beyond hfit hpos
  have hstep : step rxBufferSize n (.rx (.ofBytes n.iso.rxId (sfFrame data) beyond) ret) =
      rxSf n (.ofBytes n.iso.rxId (sfFrame data) beyond) := by
    simp only [step_ofBytes, hkind]
  have hnone := cfFrames_ignored (n := n.setState .idle) rxBufferSize ops
    (by simp [Node.setState]) hlt hops
  rw [trace_cons, sdusOf_append, hstep, hout, rxSf_idle, hnone]
  rfl

/-- The frames of a message, arriving in order, deliver it exactly once. -/
theorem segment_delivers (rxBufferSize : UInt16) (useCanFd : Bool) (data : Sdu) (n : Node)
    (ops : List Op) (hpos : 1 ≤ data.bytes.length) (hmax : data.bytes.length < 4096)
    (hcap : data.bytes.length ≤ rxBufferSize.toNat)
    (harr : List.Forall₂ (Arrival n.iso.rxId) (segment useCanFd data) ops) :
    sdusOf (trace (step rxBufferSize) n ops) = [data.bytes] := by
  by_cases hfit : FitsSf useCanFd data
  · rw [segment, if_pos hfit, ← cfFrames_nil useCanFd 1] at harr
    exact sf_then_cfFrames rxBufferSize useCanFd data 1 [] n ops hfit hpos firstSn_lt harr
  · rw [segment, if_neg hfit] at harr
    obtain ⟨op, ops, ⟨beyond, ret, rfl⟩, hops, rfl⟩ := List.forall₂_cons_left_iff.mp harr
    obtain ⟨hkind, hout, hopen, hsn⟩ :=
      rxFf_opens rxBufferSize useCanFd data n n.iso.rxId beyond ret hfit hmax hcap
    have hids := (step_ids rxBufferSize n
      (.rx (.ofBytes n.iso.rxId (ffFrame useCanFd data) beyond) ret)).1
    have hstep : step rxBufferSize n (.rx (.ofBytes n.iso.rxId (ffFrame useCanFd data) beyond) ret) =
        rxFf rxBufferSize n (.ofBytes n.iso.rxId (ffFrame useCanFd data) beyond) ret := by
      simp only [step_ofBytes, hkind]
    have hrest : data.bytes.drop (maxDataInFf useCanFd).toNat ≠ [] := by
      have hlen := (not_fitsSf_iff _ _).mp hfit
      have hff := maxDataInFf_le_maxSfLen useCanFd
      rw [← List.length_pos_iff, List.length_drop]
      omega
    rw [hstep] at hids
    rw [← hids] at hops
    have hcfs := cfFrames_complete rxBufferSize ops hopen hrest hsn firstSn_lt hops
    have hnone : sdusOf (rxFf rxBufferSize n
        (.ofBytes n.iso.rxId (ffFrame useCanFd data) beyond) ret).2 = [] := by
      rw [hout, tpSendFrame]
      split_ifs <;> rfl
    rw [trace_cons, sdusOf_append, hstep, hnone, hcfs, List.take_append_drop, List.nil_append]

end UdsLib.Isotp
