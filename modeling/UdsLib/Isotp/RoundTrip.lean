import UdsLib.Isotp.Delivery

/-! The segmentation round trip: under any schedule of Clear-To-Send frames and process
calls that keeps answering the sender, the whole message goes out and is delivered. -/
namespace UdsLib.Isotp
open Bytes Machine

/-- A Flow Control frame that clears to send, with any block size and separation time. -/
def IsCts (rxId : UInt32) (f : RxFrame) : Prop := f.id = rxId ∧ f.data 0 = 0x30

/-- What the sender's environment does while a message goes out. -/
def Paced (rxId : UInt32) : Op → Prop
  | .rx f _ => IsCts rxId f
  | .process _ ret => ret = 0
  | _ => False

theorem cts_step {n : Node} {f : RxFrame} (rxBufferSize : UInt16) (ret : ℤ)
    (h : IsCts n.iso.rxId f) :
    step rxBufferSize n (.rx f ret) =
      (if n.iso.state = .txWaitFc then ctsReceived n f else n, []) := by
  obtain ⟨hid, h0⟩ := h
  have hkind : pciOf f = .fc := by
    unfold pciOf
    rw [h0]
    rfl
  have hcts : f.data 0 &&& 0x0F = 0 := by
    rw [h0]
    rfl
  simp only [step_rx rxBufferSize ret hid, hkind, rxFc, hcts]
  by_cases hs : n.iso.state = .txWaitFc
  · rw [if_neg (not_not.mpr hs), if_pos hs, if_pos trivial]
  · rw [if_pos hs, if_neg hs]

/-! ### What a schedule emits -/

theorem paced_step_conserves (rxBufferSize : UInt16) {n : Node} {op : Op} (hn : TxInv n)
    (hc : n.iso.canSend = true) (hop : Paced n.iso.rxId op) :
    framesOf (step rxBufferSize n op).2 ++ unsent (step rxBufferSize n op).1 = unsent n ∧
      TxInv (step rxBufferSize n op).1 := by
  cases op with
  | rx f ret =>
    obtain ⟨hid, h0⟩ := hop
    have hkind : pciOf f = .fc := by
      unfold pciOf
      rw [h0]
      rfl
    simp only [step_rx rxBufferSize ret hid, hkind]
    exact rxFc_unsent n f hn
  | send | setFd => exact absurd hop id
  | process timeMs ret =>
    obtain rfl : ret = 0 := hop
    exact process_conserves n timeMs hn hc

/-- Along a schedule, the emitted frames and the unsent ones make up the message. -/
theorem paced_conserves (rxBufferSize : UInt16) (n : Node) (ops : List Op) (hn : TxInv n)
    (hc : n.iso.canSend = true) (hops : ∀ op ∈ ops, Paced n.iso.rxId op) :
    framesOf (trace (step rxBufferSize) n ops) ++ unsent (exec (step rxBufferSize) n ops) =
      unsent n ∧ TxInv (exec (step rxBufferSize) n ops) := by
  induction ops generalizing n with
  | nil => exact ⟨rfl, hn⟩
  | cons op ops ih =>
    obtain ⟨hop, hops⟩ := List.forall_mem_cons.mp hops
    obtain ⟨hstep, hn'⟩ := paced_step_conserves rxBufferSize hn hc hop
    obtain ⟨hrx, -, hcan⟩ := step_ids rxBufferSize n op
    obtain ⟨hrun, hn''⟩ := ih (step rxBufferSize n op).1 hn' (hcan.trans hc) (by rwa [hrx])
    refine ⟨?_, hn''⟩
    rw [trace_cons, framesOf_append, List.append_assoc, exec_cons, hrun, hstep]

/-! ### Progress -/

/-- How far the transmission in progress is from its end. A Flow Control frame lowers the
second part: it answers a wait, whose block is used up unless the counter starts at 0. -/
def rank (n : Node) : ℕ :=
  if n.iso.state = .txWaitFc then
    4 * (unsent n).length + (if n.iso.bsCounter = 0 then 1 else 3)
  else if n.iso.state = .txSendingCf then
    4 * (unsent n).length + (if blockDone n.iso then 2 else 0)
  else 0

theorem rank_le (n : Node) : rank n ≤ 4 * (unsent n).length + 3 := by
  unfold rank
  split_ifs <;> omega

theorem cts_lowers_rank {n : Node} {f : RxFrame} (hs : n.iso.state = .txWaitFc) :
    rank (ctsReceived n f) < rank n := by
  have hunsent : unsent (ctsReceived n f) = unsent n := by
    rw [unsent_of_sending (Or.inl hs), unsent_of_sending (Or.inr rfl)]
    rfl
  have hrank : rank (ctsReceived n f) =
      4 * (unsent n).length + (if blockDone (ctsReceived n f).iso then 2 else 0) := by
    rw [← hunsent]
    rfl
  rw [hrank, rank, if_pos hs]
  by_cases h0 : n.iso.bsCounter = 0
  · have hfree : ¬ blockDone (ctsReceived n f).iso := by
      rintro ⟨hpos, hge⟩
      have hge : f.data 1 ≤ n.iso.bsCounter := hge
      rw [h0] at hge
      exact absurd hpos (UInt8.not_lt.mpr hge)
    rw [if_neg hfree, if_pos h0]
    omega
  · rw [if_neg h0]
    split_ifs <;> omega

/-- A process call does nothing or comes closer to the end, and it does so when it is late
enough for the separation time. -/
theorem process_lowers_rank {n : Node} (timeMs : UInt32) (hn : TxInv n)
    (hc : n.iso.canSend = true) :
    ((tpIsotpProcess n timeMs 0).1 = n ∧ ¬ (n.iso.state = .txSendingCf ∧
        requiredSt n.iso.stMin ≤ timeMs - n.iso.timerSt)) ∨
      rank (tpIsotpProcess n timeMs 0).1 < rank n := by
  generalize hr : tpIsotpProcess n timeMs 0 = r
  have h := process_effect n timeMs 0
  rw [hr] at h
  cases h with
  | notSending hs => exact Or.inl ⟨rfl, fun h => hs h.1⟩
  | drained hs hempty =>
    have := hn (Or.inr hs)
    rw [hempty] at this
    omega
  | early _ _ hst => exact Or.inl ⟨rfl, fun h => absurd hst (UInt32.not_lt.mpr h.2)⟩
  | blockEnd hs _ _ hbs =>
    right
    have hunsent : unsent (blockEnded n) = unsent n := by
      rw [unsent_of_sending (Or.inr hs), unsent_of_sending (Or.inl rfl)]
      rfl
    have hrank : rank (blockEnded n) = 4 * (unsent n).length + 1 := by
      rw [← hunsent]
      rfl
    rw [hrank, rank, if_neg (by simp [hs]), if_pos hs, if_pos hbs]
    omega
  | sent hs _ _ hbs =>
    right
    have hlen := congrArg List.length (cfSent_unsent hs hn timeMs).1
    rw [List.length_cons] at hlen
    have hle := rank_le (cfSent n timeMs)
    show rank (cfSent n timeMs) < rank n
    rw [rank.eq_def n, if_neg (by simp [hs]), if_pos hs, if_neg hbs]
    omega
  | refused _ _ _ _ hfail => exact absurd rfl (hfail hc)

theorem paced_step_rank (rxBufferSize : UInt16) {n : Node} {op : Op} (hn : TxInv n)
    (hc : n.iso.canSend = true) (hop : Paced n.iso.rxId op) :
    (step rxBufferSize n op).1 = n ∨ rank (step rxBufferSize n op).1 < rank n := by
  cases op with
  | rx f ret =>
    rw [cts_step rxBufferSize ret hop]
    by_cases hs : n.iso.state = .txWaitFc
    · rw [if_pos hs]
      exact Or.inr (cts_lowers_rank hs)
    · rw [if_neg hs]
      exact Or.inl rfl
  | send | setFd => exact absurd hop id
  | process timeMs ret =>
    obtain rfl : ret = 0 := hop
    exact (process_lowers_rank timeMs hn hc).imp_left And.left

/-- The environment of a sender in state `n`: it clears to send whenever the sender waits for
it, with any block sizes and separation times, and keeps calling process late enough. -/
structure Peer (rxBufferSize : UInt16) (n : Node) (ops : ℕ → Op) : Prop where
  paced : ∀ i, Paced n.iso.rxId (ops i)
  answers : ∀ i, (stateAt (step rxBufferSize) n ops i).iso.state = .txWaitFc →
    ∃ j, i ≤ j ∧ ∃ f ret, ops j = .rx f ret
  paces : ∀ i, (stateAt (step rxBufferSize) n ops i).iso.state = .txSendingCf →
    ∃ j, i ≤ j ∧ ∃ timeMs, ops j = .process timeMs 0 ∧
      requiredSt (stateAt (step rxBufferSize) n ops j).iso.stMin ≤
        timeMs - (stateAt (step rxBufferSize) n ops j).iso.timerSt

section Schedule

variable {rxBufferSize : UInt16} {n : Node} {ops : ℕ → Op}

theorem stateAt_inv (hn : TxInv n) (hc : n.iso.canSend = true) (h : Peer rxBufferSize n ops)
    (i : ℕ) :
    framesOf (trace (step rxBufferSize) n ((List.range i).map ops)) ++
        unsent (stateAt (step rxBufferSize) n ops i) = unsent n ∧
      TxInv (stateAt (step rxBufferSize) n ops i) ∧
      (stateAt (step rxBufferSize) n ops i).iso.canSend = true ∧
      (stateAt (step rxBufferSize) n ops i).iso.rxId = n.iso.rxId := by
  have hops : ∀ op ∈ (List.range i).map ops, Paced n.iso.rxId op := by
    intro op hop
    obtain ⟨k, -, rfl⟩ := List.mem_map.mp hop
    exact h.paced k
  obtain ⟨hframes, hinv⟩ := paced_conserves rxBufferSize n _ hn hc hops
  obtain ⟨hrx, -, hcan⟩ := exec_ids rxBufferSize n ((List.range i).map ops)
  exact ⟨hframes, hinv, hcan.trans hc, hrx⟩

theorem stateAt_rank (hn : TxInv n) (hc : n.iso.canSend = true) (h : Peer rxBufferSize n ops)
    (i : ℕ) :
    stateAt (step rxBufferSize) n ops (i + 1) = stateAt (step rxBufferSize) n ops i ∨
      rank (stateAt (step rxBufferSize) n ops (i + 1)) <
        rank (stateAt (step rxBufferSize) n ops i) := by
  obtain ⟨-, hinv, hcan, hrx⟩ := stateAt_inv hn hc h i
  rw [stateAt_succ]
  exact paced_step_rank rxBufferSize hinv hcan (hrx ▸ h.paced i)

/-- From some point on the whole message is out and nothing follows. -/
theorem peer_completes (hn : TxInv n) (hc : n.iso.canSend = true) (h : Peer rxBufferSize n ops) :
    ∃ N, ∀ m, N ≤ m → framesOf (trace (step rxBufferSize) n ((List.range m).map ops)) = unsent n := by
  have hrank := stateAt_rank hn hc h
  obtain ⟨N, hN⟩ : ∃ N, ¬ (stateAt (step rxBufferSize) n ops N).Sending := by
    refine eventually_done rank (fun n => ¬ n.Sending) hrank fun i hi => ?_
    rcases not_not.mp hi with hs | hs
    · obtain ⟨j, hij, f, ret, hj⟩ := h.answers i hs
      refine ⟨j, hij, fun hsame => ?_⟩
      obtain ⟨-, -, -, hrx⟩ := stateAt_inv hn hc h j
      have hcts := h.paced j
      rw [hj, ← hrx] at hcts
      rw [stateAt_succ, hj, cts_step rxBufferSize ret hcts, hsame, if_pos hs]
      exact cts_lowers_rank hs
    · obtain ⟨j, hij, timeMs, hj, hlate⟩ := h.paces i hs
      refine ⟨j, hij, fun hsame => ?_⟩
      obtain ⟨-, hinv, hcan, -⟩ := stateAt_inv hn hc h i
      rw [stateAt_succ, hj, hsame]
      rw [hsame] at hlate
      rcases process_lowers_rank timeMs hinv hcan with ⟨-, hidle⟩ | hless
      · exact absurd ⟨hs, hlate⟩ hidle
      · exact hless
  have hzero : rank (stateAt (step rxBufferSize) n ops N) = 0 := by
    rw [rank, if_neg fun h => hN (Or.inl h), if_neg fun h => hN (Or.inr h)]
  refine ⟨N, fun m hm => ?_⟩
  have hsame : stateAt (step rxBufferSize) n ops m = stateAt (step rxBufferSize) n ops N := by
    rcases stateAt_settles hrank hm with hsame | hless
    · exact hsame
    · omega
  have hall := (stateAt_inv hn hc h m).1
  rwa [hsame, unsent_of_not_sending hN, List.append_nil] at hall

end Schedule

/-! ### The round trip -/

/-- Fed in order into a freshly initialised instance, classic or CAN-FD, with a large enough
receive buffer, the frames cause one `uds_input_sdu` call, with these bytes. -/
def DeliverOnce (frames : List (List UInt8)) (bytes : List UInt8) : Prop :=
  ∀ (mem : Node) (canSend : Bool) (txId rxId : UInt32) (fd : Bool) (rxBufferSize : UInt16)
    (arrivals : List Op), bytes.length ≤ rxBufferSize.toNat →
    List.Forall₂ (Arrival rxId) frames arrivals →
      sdusOf (trace (step rxBufferSize) (tpIsotpSetFd (tpIsotpInit mem canSend txId rxId) fd)
        arrivals) = [bytes]

theorem isotpSend_short {n : Node} {data : Sdu} (hc : n.iso.canSend = true)
    (hfit : FitsSf n.iso.useCanFd data) :
    isotpSend n data 0 = (0, n, [.canSend n.iso.txId (sfFrame data) 0]) := by
  have hsf : isotpSend n data 0 = sendSf n data 0 := if_pos hfit
  rw [hsf, sendSf, tpSendFrame, if_pos hc]

theorem isotpSend_refused {n : Node} {data : Sdu} (ret : ℤ) (h : 1024 < data.bytes.length) :
    isotpSend n data ret = (-2, n, []) := by
  have hfit : ¬ FitsSf n.iso.useCanFd data := by
    rw [not_fitsSf_iff]
    have : (maxSfLen n.iso.useCanFd).toNat ≤ 62 := by cases n.iso.useCanFd <;> decide
    omega
  have hlarge : data.len > 4095 ∨ data.len > 1024 := by
    right
    rw [gt_iff_lt, UInt16.lt_iff_toNat_lt, Sdu.len_toNat]
    exact h
  have hmf : isotpSend n data ret = sendMf n data ret := if_neg hfit
  rw [hmf, sendMf, if_pos hlarge]

theorem isotpSend_mf {n : Node} {data : Sdu} (hc : n.iso.canSend = true)
    (hfit : ¬ FitsSf n.iso.useCanFd data) (hmax : data.bytes.length ≤ 1024) :
    isotpSend n data 0 =
      (0, mfStarted n data, [.canSend n.iso.txId (ffFrame n.iso.useCanFd data) 0]) := by
  have hsmall : ¬ (data.len > 4095 ∨ data.len > 1024) := by
    rw [gt_iff_lt, gt_iff_lt, UInt16.lt_iff_toNat_lt, UInt16.lt_iff_toNat_lt, Sdu.len_toNat]
    show ¬ (4095 < _ ∨ 1024 < _)
    omega
  have hmf : isotpSend n data 0 = sendMf n data 0 := if_neg hfit
  rw [hmf, sendMf, if_neg hsmall, tpSendFrame, if_pos hc]
  rfl

theorem isotpSend_long {n : Node} {data : Sdu} (hc : n.iso.canSend = true)
    (hfit : ¬ FitsSf n.iso.useCanFd data) (hsend : (isotpSend n data 0).1 = 0) :
    data.bytes.length ≤ 1024 ∧ isotpSend n data 0 =
      (0, mfStarted n data, [.canSend n.iso.txId (ffFrame n.iso.useCanFd data) 0]) := by
  by_cases hmax : data.bytes.length ≤ 1024
  · exact ⟨hmax, isotpSend_mf hc hfit hmax⟩
  · rw [isotpSend_refused 0 (Nat.lt_of_not_le hmax)] at hsend
    exact absurd hsend (show (-2 : ℤ) ≠ 0 by decide)

/-- What an accepted message put on the bus and left to send: its own frames, or its Single
Frame ahead of the Consecutive Frames that were already waiting. -/
theorem isotpSend_accepted {n : Node} {data : Sdu} (hn : NodeInv n) (hc : n.iso.canSend = true)
    (hsend : (isotpSend n data 0).1 = 0) :
    NodeInv (isotpSend n data 0).2.1 ∧ (isotpSend n data 0).2.1.iso.canSend = true ∧
      ((FitsSf n.iso.useCanFd data ∧
          framesOf (isotpSend n data 0).2.2 ++ unsent (isotpSend n data 0).2.1 =
            sfFrame data :: unsent n) ∨
        (¬ FitsSf n.iso.useCanFd data ∧ data.bytes.length ≤ 1024 ∧
          framesOf (isotpSend n data 0).2.2 ++ unsent (isotpSend n data 0).2.1 =
            segment n.iso.useCanFd data)) := by
  refine ⟨send_nodeInv n data 0 hn, (step_ids 0 n (.send data 0)).2.2.trans hc, ?_⟩
  by_cases hfit : FitsSf n.iso.useCanFd data
  · left
    rw [isotpSend_short hc hfit]
    exact ⟨hfit, rfl⟩
  · right
    obtain ⟨hle, heq⟩ := isotpSend_long hc hfit hsend
    rw [heq, ← (mfStarted_unsent n data hfit).1]
    exact ⟨hfit, hle, rfl⟩

theorem unsent_legal (n : Node) : ∀ frame ∈ unsent n, LegalLength n.iso.useCanFd frame.length := by
  unfold unsent
  split_ifs
  · exact cfFrames_legal _ _ _
  · simp

/-- Every accepted message makes the round trip, from every state the sender can be in. -/
theorem isotp_round_trip (rxBufferSize : UInt16) (mem : Node) (txId rxId : UInt32)
    (earlier : List Op) (data : Sdu) (ops : ℕ → Op) :
    let n := exec (step rxBufferSize) (tpIsotpInit mem true txId rxId) earlier
    let sent := isotpSend n data 0
    let frames := fun m =>
      framesOf (sent.2.2 ++ trace (step rxBufferSize) sent.2.1 ((List.range m).map ops))
    1 ≤ data.bytes.length → sent.1 = 0 → Peer rxBufferSize sent.2.1 ops →
      (∀ m, ∀ frame ∈ frames m, LegalLength n.iso.useCanFd frame.length) ∧
        ∃ N, ∀ m, N ≤ m → DeliverOnce (frames m) data.bytes := by
  intro n sent frames hpos hsend hpeer
  have hn : NodeInv n := exec_nodeInv _ _ _ (init_nodeInv _ _ _ _)
  have hc : n.iso.canSend = true := (exec_ids rxBufferSize _ earlier).2.2
  obtain ⟨hinv, hcan, hshape⟩ := isotpSend_accepted hn hc hsend
  constructor
  · intro m frame hmem
    have hall := (stateAt_inv hinv.tx hcan hpeer m).1
    have hin : frame ∈ framesOf sent.2.2 ++ unsent sent.2.1 := by
      rw [← hall, ← List.append_assoc, ← framesOf_append]
      exact List.mem_append_left _ hmem
    rcases hshape with ⟨hfit, heq⟩ | ⟨-, -, heq⟩
    · rw [heq] at hin
      rcases List.mem_cons.mp hin with rfl | hin
      · exact (sfFrame_shape _ data hfit).1
      · exact unsent_legal n frame hin
    · rw [heq] at hin
      exact segment_legal _ data frame hin
  · obtain ⟨N, hN⟩ := peer_completes hinv.tx hcan hpeer
    refine ⟨N, fun m hm => ?_⟩
    have hframes : frames m = framesOf sent.2.2 ++ unsent sent.2.1 := by
      rw [← hN m hm, ← framesOf_append]
    intro mem' canSend' txId' rxId' fd' rxBufferSize' arrivals hcap harr
    rw [hframes] at harr
    rcases hshape with ⟨hfit, heq⟩ | ⟨-, hmax, heq⟩
    · rw [heq] at harr
      by_cases hs : n.Sending
      · rw [unsent_of_sending hs] at harr
        exact sf_then_cfFrames _ _ data _ _ _ _ hfit hpos hn.sn_lt harr
      · rw [unsent_of_not_sending hs, ← cfFrames_nil n.iso.useCanFd 1] at harr
        exact sf_then_cfFrames _ _ data _ _ _ _ hfit hpos firstSn_lt harr
    · rw [heq] at harr
      exact segment_delivers _ _ data _ _ hpos (by omega) hcap harr

/-- A Clear-To-Send frame as this code builds it. -/
def ctsFrame (rxId : UInt32) (blockSize stMin : UInt8) : RxFrame :=
  .ofBytes rxId [0x30, blockSize, stMin, 0, 0, 0, 0, 0] fun _ => 0

def eightBytes : Sdu := ⟨[1, 2, 3, 4, 5, 6, 7, 8], by decide⟩

/-- One Clear-To-Send frame, then process calls for ever. -/
def ctsThenProcess : ℕ → Op
  | 0 => .rx (ctsFrame 2 0 0) 0
  | _ + 1 => .process 0 0

theorem eightBytes_peer :
    Peer 0 (isotpSend (tpIsotpInit zeroNode true 1 2) eightBytes 0).2.1 ctsThenProcess := by
  have hrest : ∀ i, (stateAt (step 0) (isotpSend (tpIsotpInit zeroNode true 1 2) eightBytes 0).2.1
      ctsThenProcess (i + 2)).iso.state = .idle := by
    intro i
    induction i with
    | zero => decide
    | succ i ih =>
      rw [stateAt_succ]
      show (tpIsotpProcess _ 0 0).1.iso.state = .idle
      rw [tpIsotpProcess, if_neg (by rw [ih]; decide)]
      exact ih
  refine ⟨fun i => ?_, fun i hs => ?_, fun i hs => ?_⟩
  · cases i with
    | zero => exact ⟨rfl, rfl⟩
    | succ i => exact rfl
  · match i with
    | 0 => exact ⟨0, Nat.le_refl 0, ctsFrame 2 0 0, 0, rfl⟩
    | 1 => exact absurd hs (by decide)
    | i + 2 => rw [hrest i] at hs; exact absurd hs (by decide)
  · match i with
    | 0 => exact absurd hs (by decide)
    | 1 => exact ⟨1, Nat.le_refl 1, 0, rfl, by decide⟩
    | i + 2 => rw [hrest i] at hs; exact absurd hs (by decide)

/-- Eight bytes need a First Frame and one Consecutive Frame. -/
theorem eightBytes_round_trip :
    ∃ N, ∀ m, N ≤ m → DeliverOnce
      (framesOf ((isotpSend (tpIsotpInit zeroNode true 1 2) eightBytes 0).2.2 ++
        trace (step 0) (isotpSend (tpIsotpInit zeroNode true 1 2) eightBytes 0).2.1
          ((List.range m).map ctsThenProcess))) eightBytes.bytes :=
  (isotp_round_trip 0 zeroNode 1 2 [] eightBytes ctsThenProcess (by decide) (by decide)
    eightBytes_peer).2

end UdsLib.Isotp
