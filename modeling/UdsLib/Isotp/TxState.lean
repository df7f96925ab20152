import UdsLib.Isotp.RoundTrip

/-! The transmit state against the history of the message in the slot: in every interleaving of the
entry points the counters are those of the frames that went out, and each Consecutive Frame is the next
unsent slice. -/
namespace UdsLib.Isotp
open Bytes Machine

/-- The message in the transmit slot, how many of its bytes went out, those of the First Frame
included, and in how many Consecutive Frames. -/
structure Cached where
  sdu : List UInt8
  carried : ℕ
  cfs : ℕ

/-- The next unsent slice: as much of the rest as a Consecutive Frame carries. -/
def Cached.chunk (h : Cached) (useCanFd : Bool) : List UInt8 :=
  (h.sdu.drop h.carried).take (maxCfPayload useCanFd).toNat

/-- The Consecutive Frame that is due. -/
def Cached.nextCf (h : Cached) (useCanFd : Bool) : List UInt8 :=
  cfFrame useCanFd (UInt8.ofNat ((1 + h.cfs) % 16)) (h.chunk useCanFd)

/-- The history goes on: a segmented message takes the slot, whatever becomes of its First Frame, and
a Consecutive Frame that `can_send` accepts carries the next slice. -/
def noteTx (h : Cached) (n : Node) : Op → Cached
  | .send data _ =>
    if TakesSlot n data then ⟨data.bytes, (maxDataInFf n.iso.useCanFd).toNat, 0⟩ else h
  | .process timeMs ret =>
    if framesOf (tpIsotpProcess n timeMs ret).2 = [] then h
    else { h with carried := h.carried + (h.chunk n.iso.useCanFd).length, cfs := h.cfs + 1 }
  | _ => h

/-- The number of bytes that the next Consecutive Frame copies: `to_copy` of `uds_tp_isotp_process`. -/
def cfCopyLen (n : Node) : ℕ :=
  (copyLen (n.iso.msgLen - n.iso.bytesProcessed) (maxCfPayload n.iso.useCanFd)).toNat

/-- The fields of a transmission in progress are those of the history. -/
structure TxState (n : Node) (h : Cached) : Prop where
  cached : slice n.pendingTxSdu 0 h.sdu.length = h.sdu
  cachedLen : n.pendingTxLen = n.iso.msgLen
  msgLen : n.iso.msgLen.toNat = h.sdu.length
  fits : h.sdu.length ≤ 1024
  processed : n.iso.bytesProcessed.toNat = h.carried
  unsent : h.carried < h.sdu.length
  sn : n.iso.sn.toNat = (1 + h.cfs) % 16

/-- What the next Consecutive Frame reads lies in the cached message, and its copy in the frame. -/
structure CopiesInside (n : Node) (h : Cached) : Prop where
  noUnderflow : n.iso.bytesProcessed ≤ n.iso.msgLen
  read : n.iso.bytesProcessed.toNat + cfCopyLen n ≤ h.sdu.length
  frame : 1 + cfCopyLen n ≤ 64

/-- The frame kind that the first byte of an emitted frame tells. -/
def Output.kind? : Output → Option UInt8
  | .canSend _ data _ => some (data.headD 0 &&& 0xF0)
  | _ => none

/-- A call handed a Consecutive Frame to `can_send`. -/
def Output.IsCf (o : Output) : Prop := o.kind? = some 0x20

variable {rxBufferSize : UInt16} {n : Node} {h : Cached} {o : Output}

/-! ### One state -/

theorem TxState.txInv (hn : TxState n h) : TxInv n := by
  intro _
  rw [hn.processed, hn.msgLen]
  exact hn.unsent

theorem TxState.copiesInside (hn : TxState n h) : CopiesInside n h := by
  have hle : n.iso.bytesProcessed.toNat ≤ n.iso.msgLen.toNat := by
    rw [hn.processed, hn.msgLen]
    exact hn.unsent.le
  have hcap : (maxCfPayload n.iso.useCanFd).toNat ≤ 63 := by cases n.iso.useCanFd <;> decide
  have hcopy : cfCopyLen n = min (h.sdu.length - h.carried) (maxCfPayload n.iso.useCanFd).toNat := by
    rw [cfCopyLen, copyLen_toNat, sub_toNat hle, hn.msgLen, hn.processed]
  have hunsent := hn.unsent
  refine ⟨UInt16.le_iff_toNat_le.mpr hle, ?_, ?_⟩
  · rw [hn.processed, hcopy]
    omega
  · rw [hcopy]
    omega

/-- The slot holds the rest of the message behind what went out. -/
theorem TxState.payload (hn : TxState n h) : cfPayload n = h.chunk n.iso.useCanFd := by
  have hdrop := drop_slice n.pendingTxSdu 0 h.sdu.length h.carried
  rw [hn.cached, Nat.zero_add] at hdrop
  have hle : n.iso.bytesProcessed.toNat ≤ n.iso.msgLen.toNat := by
    rw [hn.processed, hn.msgLen]
    exact hn.unsent.le
  unfold Cached.chunk cfPayload
  rw [hdrop, take_slice, copyLen_toNat, sub_toNat hle, hn.msgLen, hn.processed]

theorem TxState.number (hn : TxState n h) : UInt8.ofNat ((1 + h.cfs) % 16) = n.iso.sn := by
  rw [← hn.sn, UInt8.ofNat_toNat]

theorem TxState.frame (hn : TxState n h) :
    cfFrame n.iso.useCanFd n.iso.sn (cfPayload n) = h.nextCf n.iso.useCanFd := by
  rw [Cached.nextCf, hn.number, hn.payload]

/-! ### The calls -/

/-- A message that takes the slot starts with its First Frame sent. -/
theorem mfStarted_txState {data : Sdu} (hlong : ¬ FitsSf n.iso.useCanFd data)
    (hmax : data.bytes.length ≤ 1024) :
    TxState (mfStarted n data) ⟨data.bytes, (maxDataInFf n.iso.useCanFd).toNat, 0⟩ where
  cached := slice_blit_self n.pendingTxSdu 0 data.bytes
  cachedLen := rfl
  msgLen := data.len_toNat
  fits := hmax
  processed := by
    rw [← mfStarted_copy n data hlong]
    exact UInt8.toNat_toUInt16 _
  unsent := Nat.lt_of_le_of_lt (maxDataInFf_le_maxSfLen _) ((not_fitsSf_iff _ _).mp hlong)
  sn := rfl

/-- The next number is that of one more Consecutive Frame. -/
theorem nextSn_toNat {sn : UInt8} {k : ℕ} (hsn : sn.toNat = (1 + k) % 16) :
    ((sn + 1) &&& 0x0F).toNat = (1 + (k + 1)) % 16 := by
  have hone : (1 : UInt8).toNat = 1 := rfl
  rw [and_0F_toNat, UInt8.toNat_add, hone]
  omega

/-- A Consecutive Frame that goes out and is not the last one. -/
theorem cfSent_txState (hn : TxState n h) (hs : n.iso.state = .txSendingCf) (timeMs : UInt32)
    (hopen : (cfSent n timeMs).Sending) :
    TxState (cfSent n timeMs)
      { h with carried := h.carried + (h.chunk n.iso.useCanFd).length, cfs := h.cfs + 1 } := by
  have hbytes := cfSent_bytesProcessed (Or.inr hs) hn.txInv timeMs
  have hlt := (cfSent_unsent hs hn.txInv timeMs).2 hopen
  have hchunk : (h.chunk n.iso.useCanFd).length =
      min (h.sdu.length - h.carried) (maxCfPayload n.iso.useCanFd).toNat := by
    rw [Cached.chunk, List.length_take, List.length_drop, Nat.min_comm]
  rw [hn.msgLen, hn.processed, ← hchunk] at hbytes
  have hmsgLen : (cfSent n timeMs).iso.msgLen.toNat = h.sdu.length := hn.msgLen
  rw [hmsgLen, hbytes] at hlt
  exact
    { cached := hn.cached
      cachedLen := hn.cachedLen
      msgLen := hn.msgLen
      fits := hn.fits
      processed := hbytes
      unsent := hlt
      sn := nextSn_toNat hn.sn }

/-- What a process call leaves of a transmission is what the history tells. -/
theorem process_txState (hn : n.Sending → TxState n h) (timeMs : UInt32) (ret : ℤ)
    (hs' : (tpIsotpProcess n timeMs ret).1.Sending) :
    TxState (tpIsotpProcess n timeMs ret).1 (noteTx h n (.process timeMs ret)) := by
  have hnote : noteTx h n (.process timeMs ret) =
      if framesOf (tpIsotpProcess n timeMs ret).2 = [] then h
      else { h with carried := h.carried + (h.chunk n.iso.useCanFd).length, cfs := h.cfs + 1 } := rfl
  rw [hnote]
  generalize hr : tpIsotpProcess n timeMs ret = r at hs' ⊢
  have heff := process_effect n timeMs ret
  rw [hr] at heff
  cases heff with
  | notSending | early => exact hn hs'
  | drained => simp [Node.Sending, Node.setState] at hs'
  | blockEnd hs => exact { hn (Or.inr hs) with }
  | sent hs _ _ _ _ hret =>
    subst hret
    rw [framesOf_canSend, if_neg (List.cons_ne_nil _ _)]
    exact cfSent_txState (hn (Or.inr hs)) hs timeMs hs'
  | refused hs _ _ _ hfail =>
    have hnone : framesOf (tpSendFrame n.iso (cfFrame n.iso.useCanFd n.iso.sn (cfPayload n)) ret).2 =
        [] := by
      unfold tpSendFrame
      split_ifs with hc
      · exact List.filterMap_eq_nil_iff.mpr fun o ho => by
          rw [List.mem_singleton.mp ho]
          exact if_neg (hfail hc)
      · rfl
    rw [if_pos hnone]
    exact hn hs'

theorem step_txState (op : Op) (hn : n.Sending → TxState n h)
    (hs' : (step rxBufferSize n op).1.Sending) :
    TxState (step rxBufferSize n op).1 (noteTx h n op) := by
  cases op with
  | rx f ret =>
    rcases rx_sending hs' with hsame | ⟨hs, hcts⟩
    · have hstep : (step rxBufferSize n (.rx f ret)).1 = n := hsame
      rw [hstep] at hs' ⊢
      exact hn hs'
    · have hstep : (step rxBufferSize n (.rx f ret)).1 = ctsReceived n f := hcts
      rw [hstep]
      exact { hn (Or.inl hs) with }
  | send data ret =>
    revert hs'
    unfold noteTx step
    dsimp only
    generalize hr : isotpSend n data ret = r
    have heff := send_effect n data ret
    rw [hr] at heff
    cases heff with
    | single hfit =>
      rw [if_neg fun h => h.1 hfit]
      exact hn
    | tooLong _ hlong =>
      rw [if_neg fun h => Nat.not_le.mpr hlong h.2]
      exact hn
    | started hlong hmax =>
      have htakes : TakesSlot n data := ⟨hlong, hmax⟩
      rw [if_pos htakes]
      exact fun _ => mfStarted_txState hlong hmax
  | process timeMs ret => exact process_txState hn timeMs ret hs'
  | setFd enabled => exact { hn hs' with }

/-! ### Consecutive Frames -/

theorem tpSendFrame_mem {iso : Ctx} {data : List UInt8} {ret : ℤ}
    (ho : o ∈ (tpSendFrame iso data ret).2) : o = .canSend iso.txId data ret := by
  unfold tpSendFrame at ho
  split_ifs at ho
  · exact List.mem_singleton.mp ho
  · cases ho

theorem sfFrame_kind {data : Sdu} {useCanFd : Bool} (hfit : FitsSf useCanFd data) :
    (sfFrame data).headD 0 &&& 0xF0 = 0x00 := by
  rcases (sfFrame_shape _ data hfit).2 with ⟨h7, pad, hframe⟩ | ⟨-, -, pad, hframe⟩
  · rw [hframe]
    change UInt8.ofNat data.bytes.length &&& 0xF0 = 0x00
    generalize data.bytes.length = k at h7
    interval_cases k <;> decide
  · rw [hframe]
    change (0 : UInt8) &&& 0xF0 = 0x00
    decide

theorem ffFrame_kind {data : Sdu} {useCanFd : Bool} (hlong : ¬ FitsSf useCanFd data)
    (hmax : data.bytes.length ≤ 1024) : (ffFrame useCanFd data).headD 0 &&& 0xF0 = 0x10 := by
  have hhi := lenHigh_toNat data.len (by rw [Sdu.len_toNat]; omega)
  rw [Sdu.len_toNat] at hhi
  rw [(ffFrame_shape _ data hlong).1]
  exact (ffPci _ (by omega)).1

theorem cfFrame_kind (n : Node) (hsn : n.iso.sn.toNat < 16) :
    (cfFrame n.iso.useCanFd n.iso.sn (cfPayload n)).headD 0 &&& 0xF0 = 0x20 := by
  have hle : (cfPayload n).length ≤ (maxCfPayload n.iso.useCanFd).toNat := by
    rw [cfPayload, slice_length, copyLen_toNat]
    exact Nat.min_le_right _ _
  obtain ⟨pad, hframe, -⟩ := cfFrame_shape n.iso.useCanFd n.iso.sn _ hle
  rw [hframe]
  exact (cfPci _ hsn).1

theorem send_kind (data : Sdu) (ret : ℤ) (ho : o ∈ (isotpSend n data ret).2.2) :
    o.kind? = some 0x00 ∨ o.kind? = some 0x10 := by
  generalize hr : isotpSend n data ret = r at ho
  have heff := send_effect n data ret
  rw [hr] at heff
  cases heff with
  | single hfit =>
    rw [tpSendFrame_mem ho]
    exact .inl (congrArg some (sfFrame_kind hfit))
  | tooLong => cases ho
  | started hlong hmax =>
    rw [tpSendFrame_mem ho]
    exact .inr (congrArg some (ffFrame_kind hlong hmax))

theorem process_frame (timeMs : UInt32) (ret : ℤ) (ho : o ∈ (tpIsotpProcess n timeMs ret).2) :
    n.iso.state = .txSendingCf ∧
      o = .canSend n.iso.txId (cfFrame n.iso.useCanFd n.iso.sn (cfPayload n)) ret := by
  generalize hr : tpIsotpProcess n timeMs ret = r at ho
  have heff := process_effect n timeMs ret
  rw [hr] at heff
  cases heff with
  | notSending | drained | early | blockEnd => cases ho
  | sent hs => exact ⟨hs, List.mem_singleton.mp ho⟩
  | refused hs => exact ⟨hs, tpSendFrame_mem ho⟩

theorem rxSf_kind (n : Node) (f : RxFrame) : ∀ o ∈ (rxSf n f).2, o.kind? = none := by
  unfold rxSf
  dsimp only
  split_ifs <;> simp [Output.kind?]

theorem rxCf_kind (n : Node) (f : RxFrame) : ∀ o ∈ (rxCf n f).2, o.kind? = none := by
  unfold rxCf
  dsimp only
  split_ifs <;> simp [Output.kind?]

theorem rxFf_kind (rxBufferSize : UInt16) (n : Node) (f : RxFrame) (ret : ℤ) :
    ∀ o ∈ (rxFf rxBufferSize n f ret).2, o.kind? = none ∨ o.kind? = some 0x30 := by
  have hfc : (0x30 ||| 0 : UInt8) &&& 0xF0 = 0x30 := by decide
  unfold rxFf
  dsimp only
  split_ifs
  · exact nofun
  · exact nofun
  · intro o ho
    rcases List.mem_cons.mp ho with rfl | ho
    · exact .inl rfl
    · rw [tpSendFrame_mem ho]
      exact .inr (congrArg some hfc)

/-- The only frames that a reception emits are Flow Control frames. -/
theorem rx_kind (f : RxFrame) (ret : ℤ) (ho : o ∈ (isotpRxCallback rxBufferSize n f ret).2) :
    o.kind? = none ∨ o.kind? = some 0x30 := by
  unfold isotpRxCallback at ho
  split_ifs at ho
  · cases ho
  · cases hp : pciOf f with
    | sf =>
      rw [hp] at ho
      exact .inl (rxSf_kind n f o ho)
    | ff =>
      rw [hp] at ho
      exact rxFf_kind rxBufferSize n f ret o ho
    | cf =>
      rw [hp] at ho
      exact .inl (rxCf_kind n f o ho)
    | fc =>
      rw [hp] at ho
      cases ho
    | other =>
      rw [hp] at ho
      cases ho

/-- Only a process call emits Consecutive Frames. -/
theorem cf_of_process {op : Op} (ho : o ∈ (step rxBufferSize n op).2) (hcf : o.IsCf) :
    ∃ timeMs ret, op = .process timeMs ret := by
  unfold Output.IsCf at hcf
  cases op with
  | rx f ret =>
    rcases rx_kind f ret ho with hkind | hkind
    · rw [hkind] at hcf
      cases hcf
    · rw [hkind] at hcf
      exact absurd (Option.some.inj hcf) (by decide)
  | send data ret =>
    rcases List.mem_append.mp ho with ho | ho
    · rcases send_kind data ret ho with hkind | hkind
      · rw [hkind] at hcf
        exact absurd (Option.some.inj hcf) (by decide)
      · rw [hkind] at hcf
        exact absurd (Option.some.inj hcf) (by decide)
    · rw [List.mem_singleton.mp ho] at hcf
      cases hcf
  | process timeMs ret => exact ⟨timeMs, ret, rfl⟩
  | setFd enabled => cases ho

/-- Every Consecutive Frame comes from a process call of a transmission in progress, and is the one
that is due. -/
theorem step_cf (op : Op) (hn : n.Sending → TxState n h) (ho : o ∈ (step rxBufferSize n op).2)
    (hcf : o.IsCf) :
    n.Sending ∧ ∃ ret, o = .canSend n.iso.txId (h.nextCf n.iso.useCanFd) ret := by
  obtain ⟨timeMs, ret, rfl⟩ := cf_of_process ho hcf
  obtain ⟨hs, hframe⟩ := process_frame timeMs ret ho
  rw [(hn (Or.inr hs)).frame] at hframe
  exact ⟨Or.inr hs, ret, hframe⟩

/-! ### Runs -/

/-- In every reachable state a transmission in progress agrees with its history and copies within the
cached message and the frame, and whatever is called next, a Consecutive Frame is the one that is due. -/
theorem transmit_state (rxBufferSize : UInt16) (mem : Node) (canSend : Bool) (txId rxId : UInt32)
    (h : Cached) (ops : List Op) :
    let p := exec (recorded (step rxBufferSize) noteTx) (tpIsotpInit mem canSend txId rxId, h) ops
    (p.1.Sending → TxState p.1 p.2 ∧ CopiesInside p.1 p.2) ∧
      ∀ op, ∀ o ∈ (step rxBufferSize p.1 op).2, o.IsCf →
        p.1.Sending ∧ ∃ ret, o = .canSend txId (p.2.nextCf p.1.iso.useCanFd) ret := by
  intro p
  have hinit : (tpIsotpInit mem canSend txId rxId).Sending →
      TxState (tpIsotpInit mem canSend txId rxId) h := by
    simp [Node.Sending, tpIsotpInit]
  have hp : p.1.Sending → TxState p.1 p.2 :=
    recorded_invariant (I := fun n h => n.Sending → TxState n h)
      (fun _ _ op hn => step_txState op hn) hinit ops
  have hstate : p.1 = exec (step rxBufferSize) (tpIsotpInit mem canSend txId rxId) ops :=
    (recorded_run noteTx _ h ops).1
  have htx : p.1.iso.txId = txId := by
    rw [hstate]
    exact (exec_ids rxBufferSize _ ops).2.1
  refine ⟨fun hs => ⟨hp hs, (hp hs).copiesInside⟩, fun op o ho hcf => ?_⟩
  rw [← htx]
  exact step_cf op hp ho hcf

/-- Eight bytes that wait for Flow Control. -/
theorem eightBytes_txState :
    let p := exec (recorded (step 64) noteTx) (tpIsotpInit zeroNode true 1 2, ⟨[], 0, 0⟩)
      [.send eightBytes 0]
    TxState p.1 p.2 ∧ CopiesInside p.1 p.2 :=
  (transmit_state 64 zeroNode true 1 2 ⟨[], 0, 0⟩ [.send eightBytes 0]).1 (by decide)

end UdsLib.Isotp
