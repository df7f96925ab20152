import Mathlib.Tactic.Common
import UdsLib.Isotp.Step

/-! The frames that carry a message, and the sender as a queue of them: what a call
emits and what is still unsent afterwards are together what was unsent before. -/
namespace UdsLib.Isotp
open Bytes Machine

theorem maxCfPayload_pos (useCanFd : Bool) : 0 < (maxCfPayload useCanFd).toNat := by
  cases useCanFd <;> decide

/-- The Consecutive Frames that carry `rest`, numbered from `sn` on. -/
def cfFrames (useCanFd : Bool) (sn : UInt8) (rest : List UInt8) : List (List UInt8) :=
  if h : rest = [] then []
  else
    cfFrame useCanFd sn (rest.take (maxCfPayload useCanFd).toNat) ::
      cfFrames useCanFd ((sn + 1) &&& 0x0F) (rest.drop (maxCfPayload useCanFd).toNat)
termination_by rest.length
decreasing_by
  have := maxCfPayload_pos useCanFd
  have := List.length_pos_iff.mpr h
  rw [List.length_drop]
  omega

@[simp] theorem cfFrames_nil (useCanFd : Bool) (sn : UInt8) : cfFrames useCanFd sn [] = [] := by
  rw [cfFrames, dif_pos rfl]

theorem cfFrames_of_ne_nil (useCanFd : Bool) (sn : UInt8) {rest : List UInt8} (h : rest ≠ []) :
    cfFrames useCanFd sn rest =
      cfFrame useCanFd sn (rest.take (maxCfPayload useCanFd).toNat) ::
        cfFrames useCanFd ((sn + 1) &&& 0x0F) (rest.drop (maxCfPayload useCanFd).toNat) := by
  rw [cfFrames, dif_neg h]

/-- `k` Consecutive Frames suffice exactly for what `k` payloads hold. -/
theorem cfFrames_length_le (useCanFd : Bool) (sn : UInt8) (rest : List UInt8) (k : ℕ) :
    (cfFrames useCanFd sn rest).length ≤ k ↔ rest.length ≤ k * (maxCfPayload useCanFd).toNat := by
  induction sn, rest using cfFrames.induct useCanFd generalizing k with
  | case1 sn => simp
  | case2 sn rest hrest ih =>
    have hpos := maxCfPayload_pos useCanFd
    have hlen := List.length_pos_iff.mpr hrest
    rw [cfFrames_of_ne_nil _ _ hrest, List.length_cons]
    cases k with
    | zero => omega
    | succ k =>
      rw [Nat.succ_le_succ_iff, ih k, List.length_drop, Nat.succ_mul]
      omega

/-- The message fits a Single Frame of the mode. -/
def FitsSf (useCanFd : Bool) (data : Sdu) : Prop := data.len ≤ (maxSfLen useCanFd).toUInt16

instance (useCanFd : Bool) (data : Sdu) : Decidable (FitsSf useCanFd data) :=
  inferInstanceAs (Decidable (_ ≤ _))

/-- The message is segmented, which takes the transmit slot. -/
def TakesSlot (n : Node) (data : Sdu) : Prop :=
  ¬ FitsSf n.iso.useCanFd data ∧ data.bytes.length ≤ 1024

instance (n : Node) (data : Sdu) : Decidable (TakesSlot n data) :=
  inferInstanceAs (Decidable (_ ∧ _))

/-- What one call of `uds_isotp_send` can do. Only a message that is segmented takes the slot. -/
inductive SendEffect (n : Node) (data : Sdu) (ret : ℤ) : ℤ × Node × List Output → Prop where
  | single : FitsSf n.iso.useCanFd data →
      SendEffect n data ret ((tpSendFrame n.iso (sfFrame data) ret).1, n,
        (tpSendFrame n.iso (sfFrame data) ret).2)
  | tooLong : ¬ FitsSf n.iso.useCanFd data → 1024 < data.bytes.length →
      SendEffect n data ret (-2, n, [])
  | started : ¬ FitsSf n.iso.useCanFd data → data.bytes.length ≤ 1024 →
      SendEffect n data ret
        (if (tpSendFrame n.iso (ffFrame n.iso.useCanFd data) ret).1 ≠ 0 then -1 else 0,
          mfStarted n data, (tpSendFrame n.iso (ffFrame n.iso.useCanFd data) ret).2)

theorem send_effect (n : Node) (data : Sdu) (ret : ℤ) :
    SendEffect n data ret (isotpSend n data ret) := by
  have hmax : 1024 < data.len ↔ 1024 < data.bytes.length := by
    rw [UInt16.lt_iff_toNat_lt, Sdu.len_toNat]
    rfl
  have hstd : data.len > 4095 ∨ data.len > 1024 ↔ 1024 < data.bytes.length := by
    rw [gt_iff_lt, gt_iff_lt, hmax, UInt16.lt_iff_toNat_lt, Sdu.len_toNat]
    have hlen : (4095 : UInt16).toNat = 4095 := rfl
    omega
  unfold isotpSend
  split_ifs with hfit
  · exact .single hfit
  · unfold sendMf
    split_ifs with hlarge
    · exact .tooLong hfit (hstd.mp hlarge)
    · exact .started hfit (Nat.not_lt.mp (mt hstd.mpr hlarge))

/-- A frame of one's own hands nothing up. -/
theorem tpSendFrame_sdus (iso : Ctx) (data : List UInt8) (ret : ℤ) :
    sdusOf (tpSendFrame iso data ret).2 = [] := by
  unfold tpSendFrame
  split_ifs <;> rfl

/-- Only a frame from the bus makes the transport hand a message up. -/
theorem step_sdus (rxBufferSize : UInt16) (n : Node) (op : Op) (hop : ∀ f ret, op ≠ .rx f ret) :
    sdusOf (step rxBufferSize n op).2 = [] := by
  cases op with
  | rx f ret => exact absurd rfl (hop f ret)
  | send data ret =>
    have hreturned (os : List Output) (r : ℤ) : sdusOf (os ++ [.returned data.bytes r]) = sdusOf os := by
      rw [sdusOf_append]
      exact List.append_nil _
    simp only [step]
    rw [hreturned]
    generalize hr : isotpSend n data ret = p
    have heff := send_effect n data ret
    rw [hr] at heff
    cases heff with
    | single | started => exact tpSendFrame_sdus _ _ _
    | tooLong => rfl
  | process timeMs ret =>
    simp only [step]
    generalize hr : tpIsotpProcess n timeMs ret = p
    have heff := process_effect n timeMs ret
    rw [hr] at heff
    cases heff with
    | refused => exact tpSendFrame_sdus _ _ _
    | notSending | drained | early | blockEnd | sent => rfl
  | setFd enabled => rfl

/-- The frames of a message: one Single Frame, or a First Frame and Consecutive Frames. -/
def segment (useCanFd : Bool) (data : Sdu) : List (List UInt8) :=
  if FitsSf useCanFd data then [sfFrame data]
  else ffFrame useCanFd data :: cfFrames useCanFd 1 (data.bytes.drop (maxDataInFf useCanFd).toNat)

/-- A segmented transmission is in progress. -/
def Node.Sending (n : Node) : Prop := n.iso.state = .txWaitFc ∨ n.iso.state = .txSendingCf

instance (n : Node) : Decidable n.Sending := inferInstanceAs (Decidable (_ ∨ _))

/-- The part of the cached message that no frame has carried yet. -/
def unsentBytes (n : Node) : List UInt8 :=
  slice n.pendingTxSdu n.iso.bytesProcessed.toNat
    (n.iso.msgLen.toNat - n.iso.bytesProcessed.toNat)

/-- The Consecutive Frames the transmission in progress still has to emit. -/
def unsent (n : Node) : List (List UInt8) :=
  if n.Sending then cfFrames n.iso.useCanFd n.iso.sn (unsentBytes n) else []

/-- A transmission in progress has bytes left to send. -/
def TxInv (n : Node) : Prop := n.Sending → n.iso.bytesProcessed.toNat < n.iso.msgLen.toNat

theorem unsent_of_not_sending {n : Node} (h : ¬ n.Sending) : unsent n = [] := if_neg h

theorem unsent_of_sending {n : Node} (h : n.Sending) :
    unsent n = cfFrames n.iso.useCanFd n.iso.sn (unsentBytes n) := if_pos h

theorem unsentBytes_ne_nil {n : Node} (h : n.Sending) (hn : TxInv n) : unsentBytes n ≠ [] := by
  have := hn h
  rw [← List.length_pos_iff]
  simp only [unsentBytes, slice_length]
  omega

theorem cfPayload_eq_take {n : Node} (h : n.Sending) (hn : TxInv n) :
    cfPayload n = (unsentBytes n).take (maxCfPayload n.iso.useCanFd).toNat := by
  rw [unsentBytes, take_slice, cfPayload, copyLen_toNat, sub_toNat (hn h).le]

theorem cfSent_bytesProcessed {n : Node} (h : n.Sending) (hn : TxInv n) (timeMs : UInt32) :
    (cfSent n timeMs).iso.bytesProcessed.toNat = n.iso.bytesProcessed.toNat +
      min (n.iso.msgLen.toNat - n.iso.bytesProcessed.toNat) (maxCfPayload n.iso.useCanFd).toNat := by
  have hm := n.iso.msgLen.toNat_lt
  have := hn h
  have hlen : (cfPayload n).length =
      min (n.iso.msgLen.toNat - n.iso.bytesProcessed.toNat) (maxCfPayload n.iso.useCanFd).toNat := by
    rw [cfPayload_eq_take h hn, List.length_take, unsentBytes, slice_length, Nat.min_comm]
  simp only [cfSent, UInt16.toNat_add, UInt16.toNat_ofNat', hlen]
  omega

theorem unsentBytes_cfSent {n : Node} (h : n.Sending) (hn : TxInv n) (timeMs : UInt32) :
    unsentBytes (cfSent n timeMs) = (unsentBytes n).drop (maxCfPayload n.iso.useCanFd).toNat := by
  have hbp := cfSent_bytesProcessed h hn timeMs
  have hlt := hn h
  rw [unsentBytes, hbp, unsentBytes, drop_slice]
  have hmem : (cfSent n timeMs).pendingTxSdu = n.pendingTxSdu := rfl
  have hmsg : (cfSent n timeMs).iso.msgLen = n.iso.msgLen := rfl
  rw [hmem, hmsg]
  by_cases hlast : n.iso.msgLen.toNat - n.iso.bytesProcessed.toNat ≤
      (maxCfPayload n.iso.useCanFd).toNat
  · rw [Nat.min_eq_left hlast]
    have h1 : n.iso.msgLen.toNat - (n.iso.bytesProcessed.toNat +
        (n.iso.msgLen.toNat - n.iso.bytesProcessed.toNat)) = 0 := by omega
    have h2 : n.iso.msgLen.toNat - n.iso.bytesProcessed.toNat -
        (maxCfPayload n.iso.useCanFd).toNat = 0 := by omega
    rw [h1, h2, slice_zero, slice_zero]
  · rw [Nat.min_eq_right (by omega), Nat.sub_add_eq]

/-- The transmission ends with the frame that carries the last bytes. -/
theorem cfSent_state {n : Node} (hs : n.iso.state = .txSendingCf) (timeMs : UInt32) :
    (cfSent n timeMs).iso.state =
      if unsentBytes (cfSent n timeMs) = [] then .idle else .txSendingCf := by
  have hstate : (cfSent n timeMs).iso.state =
      if (cfSent n timeMs).iso.bytesProcessed ≥ n.iso.msgLen then .idle else .txSendingCf := by
    rw [← hs]
    rfl
  have hmsg : (cfSent n timeMs).iso.msgLen = n.iso.msgLen := rfl
  have hiff : (cfSent n timeMs).iso.bytesProcessed ≥ n.iso.msgLen ↔
      unsentBytes (cfSent n timeMs) = [] := by
    rw [← List.length_eq_zero_iff, unsentBytes, slice_length, hmsg, ge_iff_le,
      UInt16.le_iff_toNat_le]
    omega
  simp only [hstate, hiff]

/-- Emitting a Consecutive Frame takes the head off the queue. -/
theorem cfSent_unsent {n : Node} (hs : n.iso.state = .txSendingCf) (hn : TxInv n)
    (timeMs : UInt32) :
    cfFrame n.iso.useCanFd n.iso.sn (cfPayload n) :: unsent (cfSent n timeMs) = unsent n ∧
      TxInv (cfSent n timeMs) := by
  have h : n.Sending := Or.inr hs
  have hrest := unsentBytes_cfSent h hn timeMs
  have hstate := cfSent_state hs timeMs
  rw [unsent_of_sending h, cfFrames_of_ne_nil _ _ (unsentBytes_ne_nil h hn), ← hrest,
    ← cfPayload_eq_take h hn]
  by_cases hdone : unsentBytes (cfSent n timeMs) = []
  · rw [if_pos hdone] at hstate
    have hidle : ¬ (cfSent n timeMs).Sending := by simp [Node.Sending, hstate]
    rw [unsent_of_not_sending hidle, hdone, cfFrames_nil]
    exact ⟨rfl, fun h => absurd h hidle⟩
  · rw [if_neg hdone] at hstate
    have hopen : (cfSent n timeMs).Sending := Or.inr hstate
    rw [unsent_of_sending hopen]
    refine ⟨rfl, fun _ => ?_⟩
    rw [← List.length_eq_zero_iff, unsentBytes, slice_length] at hdone
    omega

/-- A process call moves frames from the queue to the bus and loses none. -/
theorem process_conserves (n : Node) (timeMs : UInt32) (hn : TxInv n) (hc : n.iso.canSend = true) :
    framesOf (tpIsotpProcess n timeMs 0).2 ++ unsent (tpIsotpProcess n timeMs 0).1 = unsent n ∧
      TxInv (tpIsotpProcess n timeMs 0).1 := by
  generalize hr : tpIsotpProcess n timeMs 0 = r
  have h := process_effect n timeMs 0
  rw [hr] at h
  cases h with
  | notSending | early => exact ⟨rfl, hn⟩
  | drained hs hempty =>
    have := hn (Or.inr hs)
    rw [hempty] at this
    omega
  | blockEnd hs =>
    have h : n.Sending := Or.inr hs
    have hb : (blockEnded n).Sending := Or.inl rfl
    refine ⟨?_, fun _ => hn h⟩
    rw [unsent_of_sending h, unsent_of_sending hb]
    rfl
  | sent hs => exact cfSent_unsent hs hn timeMs
  | refused _ _ _ _ hfail => exact absurd rfl (hfail hc)

/-- Flow Control frames change the pace, never the queue. -/
theorem rxFc_unsent (n : Node) (f : RxFrame) (hn : TxInv n) :
    unsent (rxFc n f) = unsent n ∧ TxInv (rxFc n f) := by
  unfold rxFc
  split_ifs with hs hfs
  · exact ⟨rfl, hn⟩
  · have h : n.Sending := Or.inl (not_not.mp hs)
    refine ⟨?_, fun _ => hn h⟩
    rw [unsent_of_sending h]
    exact if_pos (Or.inr rfl)
  · exact ⟨rfl, hn⟩

theorem not_fitsSf_iff (useCanFd : Bool) (data : Sdu) :
    ¬ FitsSf useCanFd data ↔ (maxSfLen useCanFd).toNat < data.bytes.length := by
  simp [FitsSf, UInt16.le_iff_toNat_le]

theorem maxDataInFf_le_maxSfLen (useCanFd : Bool) :
    (maxDataInFf useCanFd).toNat ≤ (maxSfLen useCanFd).toNat := by
  cases useCanFd <;> decide

theorem mfStarted_copy (n : Node) (data : Sdu) (hlong : ¬ FitsSf n.iso.useCanFd data) :
    (copyLen data.len (maxDataInFf n.iso.useCanFd)).toNat = (maxDataInFf n.iso.useCanFd).toNat := by
  have hlen := (not_fitsSf_iff _ _).mp hlong
  have hff := maxDataInFf_le_maxSfLen n.iso.useCanFd
  rw [copyLen_toNat, Sdu.len_toNat]
  omega

theorem mfStarted_unsentBytes (n : Node) (data : Sdu) (hlong : ¬ FitsSf n.iso.useCanFd data) :
    unsentBytes (mfStarted n data) = data.bytes.drop (maxDataInFf n.iso.useCanFd).toNat := by
  have hcopy := mfStarted_copy n data hlong
  have hall := slice_blit_self n.pendingTxSdu 0 data.bytes
  have hdrop := drop_slice (blit n.pendingTxSdu 0 data.bytes) 0 data.bytes.length
    (maxDataInFf n.iso.useCanFd).toNat
  rw [hall, Nat.zero_add] at hdrop
  simp only [unsentBytes, mfStarted, UInt8.toNat_toUInt16, hcopy, Sdu.len_toNat, hdrop]

/-- Starting a segmented message puts its Consecutive Frames into the queue. -/
theorem mfStarted_unsent (n : Node) (data : Sdu) (hlong : ¬ FitsSf n.iso.useCanFd data) :
    ffFrame n.iso.useCanFd data :: unsent (mfStarted n data) = segment n.iso.useCanFd data ∧
      TxInv (mfStarted n data) := by
  have hlen := (not_fitsSf_iff _ _).mp hlong
  have hff := maxDataInFf_le_maxSfLen n.iso.useCanFd
  have hcopy := mfStarted_copy n data hlong
  refine ⟨?_, fun _ => ?_⟩
  · rw [unsent_of_sending (Or.inl rfl), mfStarted_unsentBytes n data hlong, segment, if_neg hlong]
    rfl
  · simp only [mfStarted, UInt8.toNat_toUInt16, hcopy, Sdu.len_toNat]
    omega

/-! ### Reachable states -/

/-- What every entry point keeps: a transmission in progress has bytes left, and the
sequence number is a nibble. -/
structure NodeInv (n : Node) : Prop where
  tx : TxInv n
  sn_lt : n.iso.sn.toNat < 16

theorem nextSn_lt (sn : UInt8) : ((sn + 1) &&& 0x0F).toNat < 16 := by
  have hle := Nat.and_le_right (n := (sn + 1).toNat) (m := 15)
  rw [UInt8.toNat_and]
  exact Nat.lt_succ_of_le hle

theorem firstSn_lt : (1 : UInt8).toNat < 16 := by decide

theorem initSn_lt : (0 : UInt8).toNat < 16 := by decide

/-- Between messages only the sequence number matters. -/
theorem nodeInv_of_not_sending {n : Node} (h : ¬ n.Sending) (hsn : n.iso.sn.toNat < 16) :
    NodeInv n :=
  ⟨fun hs => absurd hs h, hsn⟩

theorem rxCallback_nodeInv (rxBufferSize : UInt16) (n : Node) (f : RxFrame) (ret : ℤ)
    (hn : NodeInv n) : NodeInv (isotpRxCallback rxBufferSize n f ret).1 := by
  unfold isotpRxCallback
  split_ifs
  · exact hn
  · cases pciOf f with
    | sf =>
      unfold rxSf
      dsimp only
      split_ifs <;> exact nodeInv_of_not_sending (by simp [Node.Sending]) hn.sn_lt
    | ff =>
      unfold rxFf
      dsimp only
      split_ifs
      · exact nodeInv_of_not_sending (by simp [Node.Sending]) hn.sn_lt
      · exact nodeInv_of_not_sending (by simp [Node.Sending]) firstSn_lt
      · exact nodeInv_of_not_sending (by simp [Node.Sending]) firstSn_lt
    | cf =>
      unfold rxCf
      dsimp only
      split_ifs with hs hsn hdone
      · exact hn
      · exact nodeInv_of_not_sending (by simp [Node.Sending]) hn.sn_lt
      · exact nodeInv_of_not_sending (by simp [Node.Sending]) (nextSn_lt _)
      · exact nodeInv_of_not_sending (by simp [Node.Sending, not_not.mp hs]) (nextSn_lt _)
    | fc =>
      refine ⟨(rxFc_unsent n f hn.tx).2, ?_⟩
      have hsn : (rxFc n f).iso.sn = n.iso.sn := by unfold rxFc; split_ifs <;> rfl
      rw [hsn]
      exact hn.sn_lt
    | other => exact hn

/-- A frame that leaves a transmission in progress has not changed it, or it cleared the next block. -/
theorem rx_sending {rxBufferSize : UInt16} {n : Node} {f : RxFrame} {ret : ℤ}
    (h : (isotpRxCallback rxBufferSize n f ret).1.Sending) :
    (isotpRxCallback rxBufferSize n f ret).1 = n ∨ n.iso.state = .txWaitFc ∧
      (isotpRxCallback rxBufferSize n f ret).1 = ctsReceived n f := by
  unfold isotpRxCallback at h ⊢
  by_cases hid : f.id ≠ n.iso.rxId
  · rw [if_pos hid]
    exact .inl rfl
  rw [if_neg hid] at h ⊢
  cases hp : pciOf f with
  | sf =>
    rw [hp] at h
    revert h
    unfold rxSf
    dsimp only
    split_ifs <;> simp [Node.Sending]
  | ff =>
    rw [hp] at h
    revert h
    unfold rxFf
    dsimp only
    split_ifs <;> simp [Node.Sending]
  | cf =>
    rw [hp] at h
    revert h
    unfold rxCf
    dsimp only
    split_ifs with hs hsn hdone
    · exact fun _ => .inl rfl
    · simp [Node.Sending]
    · simp [Node.Sending]
    · simp [Node.Sending, not_not.mp hs]
  | fc =>
    dsimp only
    unfold rxFc
    split_ifs with hs hfs
    · exact .inl rfl
    · exact .inr ⟨not_not.mp hs, rfl⟩
    · exact .inl rfl
  | other => exact .inl rfl

theorem send_nodeInv (n : Node) (data : Sdu) (ret : ℤ) (hn : NodeInv n) :
    NodeInv (isotpSend n data ret).2.1 := by
  unfold isotpSend sendSf sendMf
  split_ifs with hfit hlarge
  · exact hn
  · exact hn
  · exact ⟨(mfStarted_unsent n data hfit).2, firstSn_lt⟩

theorem process_nodeInv (n : Node) (timeMs : UInt32) (ret : ℤ) (hn : NodeInv n) :
    NodeInv (tpIsotpProcess n timeMs ret).1 := by
  generalize hr : tpIsotpProcess n timeMs ret = r
  have h := process_effect n timeMs ret
  rw [hr] at h
  cases h with
  | notSending | early | refused => exact hn
  | drained => exact nodeInv_of_not_sending (by simp [Node.Sending, Node.setState]) hn.sn_lt
  | blockEnd hs => exact ⟨fun _ => hn.tx (Or.inr hs), hn.sn_lt⟩
  | sent hs => exact ⟨(cfSent_unsent hs hn.tx timeMs).2, nextSn_lt _⟩

theorem step_nodeInv (rxBufferSize : UInt16) (n : Node) (op : Op) (hn : NodeInv n) :
    NodeInv (step rxBufferSize n op).1 := by
  cases op with
  | rx f ret => exact rxCallback_nodeInv rxBufferSize n f ret hn
  | send data ret => exact send_nodeInv n data ret hn
  | process timeMs ret => exact process_nodeInv n timeMs ret hn
  | setFd enabled => exact ⟨hn.tx, hn.sn_lt⟩

theorem init_nodeInv (n : Node) (canSend : Bool) (txId rxId : UInt32) :
    NodeInv (tpIsotpInit n canSend txId rxId) :=
  nodeInv_of_not_sending (by simp [Node.Sending, tpIsotpInit]) initSn_lt

theorem exec_nodeInv (rxBufferSize : UInt16) (n : Node) (ops : List Op) (hn : NodeInv n) :
    NodeInv (exec (step rxBufferSize) n ops) := by
  induction ops generalizing n with
  | nil => exact hn
  | cons op ops ih => exact ih _ (step_nodeInv rxBufferSize n op hn)

theorem exec_ids (rxBufferSize : UInt16) (n : Node) (ops : List Op) :
    let n' := exec (step rxBufferSize) n ops
    n'.iso.rxId = n.iso.rxId ∧ n'.iso.txId = n.iso.txId ∧ n'.iso.canSend = n.iso.canSend := by
  induction ops generalizing n with
  | nil => exact ⟨rfl, rfl, rfl⟩
  | cons op ops ih =>
    obtain ⟨hrx, htx, hcan⟩ := step_ids rxBufferSize n op
    rw [← hrx, ← htx, ← hcan]
    exact ih _

end UdsLib.Isotp
