import UdsLib.Isotp.FailedSend

/-! What the Flow Control frames of a run grant to the sender, and when it sends just that. The block
counter is neither reset by a new message nor by a new block, so the count depends on all that was sent
before. -/
namespace UdsLib.Isotp
open Bytes Machine

/-- The number of Consecutive Frames that carry the rest of the message. -/
def remainingCfs (n : Node) : ℕ :=
  (n.iso.msgLen.toNat - n.iso.bytesProcessed.toNat + ((maxCfPayload n.iso.useCanFd).toNat - 1)) /
    (maxCfPayload n.iso.useCanFd).toNat

/-- How many Consecutive Frames the last Flow Control frame grants, how many went out since, and whether
an overflow was reported for the message. -/
structure Grant where
  granted : ℕ
  sent : ℕ
  overflowed : Bool

/-- What a Flow Control frame with this block size grants. -/
def Grant.allowed (h : Grant) (n : Node) (blockSize : UInt8) : ℕ :=
  if h.overflowed then 0
  else if blockSize = 0 then remainingCfs n
  else min blockSize.toNat (remainingCfs n)

/-- A Flow Control frame arrives while the transmission waits for it. -/
def TakesFc (n : Node) (f : RxFrame) : Prop :=
  f.id = n.iso.rxId ∧ pciOf f = .fc ∧ n.iso.state = .txWaitFc

instance (n : Node) (f : RxFrame) : Decidable (TakesFc n f) := inferInstanceAs (Decidable (_ ∧ _))

/-- A Flow Control frame grants anew: a block, nothing before the next Clear-To-Send, or nothing any more
of this message. A segmented message starts without a grant. -/
def noteGrant (h : Grant) (n : Node) : Op → Grant
  | .rx f _ =>
    if TakesFc n f then
      if f.data 0 &&& 0x0F = 0 then { h with granted := h.allowed n (f.data 1), sent := 0 }
      else if f.data 0 &&& 0x0F = 1 then { h with granted := 0, sent := 0 }
      else if f.data 0 &&& 0x0F = 2 then { granted := 0, sent := 0, overflowed := true }
      else h
    else h
  | .send data _ => if TakesSlot n data then { granted := 0, sent := 0, overflowed := false } else h
  | .process timeMs ret =>
    if framesOf (tpIsotpProcess n timeMs ret).2 = [] then h else { h with sent := h.sent + 1 }
  | .setFd _ => h

/-- No more goes out than is granted, and the sender does not stop before all of it is out. -/
structure Obeyed (p : Node × Grant) : Prop where
  within : p.2.sent ≤ p.2.granted
  whole : p.1.iso.state ≠ .txSendingCf → p.2.sent = p.2.granted

/-- Process calls at these times, whose frames all go out. -/
def processes (times : List UInt32) : List Op := times.map fun timeMs => .process timeMs 0

/-- The Flow Control frames so far are obeyed, also after any further process calls. -/
def ObeyedThroughout (rxBufferSize : UInt16) (p : Node × Grant) : Prop :=
  ∀ times, Obeyed (exec (recorded (step rxBufferSize) noteGrant) p (processes times))

/-- One segmented message after the other: a message starts when the one before is complete, or given up
after an overflow. Nothing is received, and all frames go out. -/
def OneAfterOther (p : Node × Grant) : Op → Prop
  | .rx f ret => ¬ OpensReception p.1.iso.rxId (.rx f ret)
  | .send data ret => ret = 0 ∧ (TakesSlot p.1 data → p.1.Sending → p.2.overflowed = true)
  | .process _ ret => ret = 0
  | .setFd _ => ¬ p.1.Sending

instance (rxId : UInt32) (op : Op) : Decidable (OpensReception rxId op) :=
  match op with
  | .rx _ _ => inferInstanceAs (Decidable (_ ∧ _))
  | .send _ _ | .process _ _ | .setFd _ => inferInstanceAs (Decidable False)

instance (p : Node × Grant) (op : Op) : Decidable (OneAfterOther p op) :=
  match op with
  | .rx _ _ | .setFd _ => inferInstanceAs (Decidable (¬ _))
  | .send _ _ => inferInstanceAs (Decidable (_ ∧ _))
  | .process _ ret => inferInstanceAs (Decidable (ret = 0))

/-- The condition for a Clear-To-Send with block size `n`: there is no limit, the block counter starts
at 0, or what is left fits behind the counter. After an overflow, the counter has to stand at `n` already. -/
def GrantMet (p : Node × Grant) : Op → Prop
  | .rx f _ => TakesFc p.1 f → f.data 0 &&& 0x0F = 0 →
      if p.2.overflowed then 0 < f.data 1 ∧ f.data 1 ≤ p.1.iso.bsCounter
      else f.data 1 = 0 ∨ p.1.iso.bsCounter = 0 ∨
        p.1.iso.bsCounter.toNat + remainingCfs p.1 ≤ (f.data 1).toNat
  | _ => True

instance (p : Node × Grant) (op : Op) : Decidable (GrantMet p op) :=
  match op with
  | .rx _ _ => inferInstanceAs (Decidable (_ → _ → _))
  | .send _ _ | .process _ _ | .setFd _ => inferInstanceAs (Decidable True)

variable {rxBufferSize : UInt16} {n : Node} {h : Grant} {p : Node × Grant}

/-! ### What the block counter leaves -/

theorem unsent_length (hs : n.Sending) : (unsent n).length = remainingCfs n := by
  have hpos := maxCfPayload_pos n.iso.useCanFd
  have hlen : (unsentBytes n).length = n.iso.msgLen.toNat - n.iso.bytesProcessed.toNat := by
    rw [unsentBytes, slice_length]
  rw [unsent_of_sending hs, remainingCfs, ← hlen]
  apply Nat.le_antisymm
  · rw [cfFrames_length_le]
    have hmod := Nat.div_add_mod ((unsentBytes n).length + ((maxCfPayload n.iso.useCanFd).toNat - 1))
      (maxCfPayload n.iso.useCanFd).toNat
    have hlt := Nat.mod_lt ((unsentBytes n).length + ((maxCfPayload n.iso.useCanFd).toNat - 1)) hpos
    rw [Nat.mul_comm] at hmod
    omega
  · have hle := (cfFrames_length_le n.iso.useCanFd n.iso.sn (unsentBytes n) _).mp (Nat.le_refl _)
    rw [Nat.div_le_iff_le_mul_add_pred hpos, Nat.mul_comm]
    omega

/-- What the code still sends before it waits for the next Flow Control frame. -/
def blockRest (n : Node) : ℕ :=
  if n.iso.blockSize = 0 then (unsent n).length
  else min (n.iso.blockSize.toNat - n.iso.bsCounter.toNat) (unsent n).length

theorem blockDone_iff : blockDone n.iso ↔
    n.iso.blockSize ≠ 0 ∧ n.iso.blockSize.toNat ≤ n.iso.bsCounter.toNat := by
  unfold blockDone
  rw [gt_iff_lt, UInt8.pos_iff_ne_zero, ge_iff_le, UInt8.le_iff_toNat_le]

theorem blockRest_of_done (hdone : blockDone n.iso) : blockRest n = 0 := by
  obtain ⟨hlimit, hle⟩ := blockDone_iff.mp hdone
  rw [blockRest, if_neg hlimit]
  omega

/-- A Consecutive Frame that goes out takes one off what the block leaves. -/
theorem cfSent_blockRest (hs : n.iso.state = .txSendingCf) (hn : TxInv n) (hfree : ¬ blockDone n.iso)
    (timeMs : UInt32) : blockRest (cfSent n timeMs) + 1 = blockRest n := by
  have hlen := congrArg List.length (cfSent_unsent hs hn timeMs).1
  rw [List.length_cons] at hlen
  have hsize : (cfSent n timeMs).iso.blockSize = n.iso.blockSize := rfl
  rw [blockDone_iff, not_and, Nat.not_le] at hfree
  unfold blockRest
  rw [hsize]
  by_cases hlimit : n.iso.blockSize = 0
  · rw [if_pos hlimit, if_pos hlimit]
    exact hlen
  · have hlt := hfree hlimit
    have hmax := n.iso.blockSize.toNat_lt
    have hcount : (cfSent n timeMs).iso.bsCounter.toNat = n.iso.bsCounter.toNat + 1 := by
      have hone : (1 : UInt8).toNat = 1 := rfl
      have hnext : (cfSent n timeMs).iso.bsCounter = n.iso.bsCounter + 1 := rfl
      rw [hnext, UInt8.toNat_add, hone]
      omega
    rw [if_neg hlimit, if_neg hlimit, hcount]
    omega

/-- The block that a Clear-To-Send opens is the one that it grants just if the condition is met. -/
theorem allowed_eq_iff {f : RxFrame} (hs : n.iso.state = .txWaitFc) (hn : TxInv n) :
    h.allowed n (f.data 1) = blockRest (ctsReceived n f) ↔
      if h.overflowed then 0 < f.data 1 ∧ f.data 1 ≤ n.iso.bsCounter
      else f.data 1 = 0 ∨ n.iso.bsCounter = 0 ∨
        n.iso.bsCounter.toNat + remainingCfs n ≤ (f.data 1).toNat := by
  have hsame : unsent (ctsReceived n f) = unsent n := by
    rw [unsent_of_sending (Or.inl hs), unsent_of_sending (Or.inr rfl)]
    rfl
  have hpos := unsent_ne_nil (Or.inl hs) hn
  have hrest : blockRest (ctsReceived n f) = if f.data 1 = 0 then remainingCfs n
      else min ((f.data 1).toNat - n.iso.bsCounter.toNat) (remainingCfs n) := by
    rw [← unsent_length (Or.inl hs), ← hsame]
    rfl
  rw [unsent_length (Or.inl hs)] at hpos
  have hzero : f.data 1 = 0 ↔ (f.data 1).toNat = 0 := by
    rw [← UInt8.toNat_inj]
    rfl
  have hstart : n.iso.bsCounter = 0 ↔ n.iso.bsCounter.toNat = 0 := by
    rw [← UInt8.toNat_inj]
    rfl
  rw [hrest, Grant.allowed, UInt8.pos_iff_ne_zero, UInt8.le_iff_toNat_le, ne_eq, hstart]
  simp only [hzero]
  split_ifs <;> omega

/-! ### The calls -/

/-- What holds of the sender and its grant as long as the condition was met. -/
structure Granting (p : Node × Grant) : Prop where
  canSend : p.1.iso.canSend = true
  node : NodeInv p.1
  quiet : p.1.iso.state ≠ .rxWaitCf
  sending : p.1.iso.state = .txSendingCf → p.2.granted = p.2.sent + blockRest p.1
  waiting : p.1.iso.state ≠ .txSendingCf → p.2.sent = p.2.granted

theorem Granting.obeyed (hp : Granting p) : Obeyed p where
  within := by
    by_cases hs : p.1.iso.state = .txSendingCf
    · rw [hp.sending hs]
      omega
    · exact (hp.waiting hs).le
  whole := hp.waiting

/-- A process call emits what is granted, one Consecutive Frame after the other. -/
theorem Granting.process (hp : Granting p) (timeMs : UInt32) :
    Granting (recorded (step rxBufferSize) noteGrant p (.process timeMs 0)).1 := by
  have hnote : noteGrant p.2 p.1 (.process timeMs 0) =
      if framesOf (tpIsotpProcess p.1 timeMs 0).2 = [] then p.2
      else { p.2 with sent := p.2.sent + 1 } := rfl
  have hnode := process_nodeInv p.1 timeMs 0 hp.node
  unfold recorded step
  dsimp only
  rw [hnote]
  generalize hr : tpIsotpProcess p.1 timeMs 0 = r at hnode
  have heff := process_effect p.1 timeMs 0
  rw [hr] at heff
  cases heff with
  | notSending | early =>
    rw [framesOf_nil, if_pos rfl]
    exact hp
  | drained hs hempty =>
    have hlt := hp.node.tx (Or.inr hs)
    rw [hempty] at hlt
    omega
  | blockEnd hs _ _ hdone =>
    have hall := hp.sending hs
    rw [blockRest_of_done hdone] at hall
    rw [framesOf_nil, if_pos rfl]
    exact ⟨hp.canSend, hnode, nofun, nofun, fun _ => hall.symm⟩
  | sent hs _ _ hfree =>
    have hall := hp.sending hs
    rw [← cfSent_blockRest hs hp.node.tx hfree timeMs] at hall
    rw [framesOf_canSend, if_neg (List.cons_ne_nil _ _)]
    have hquiet : (cfSent p.1 timeMs).iso.state ≠ .rxWaitCf := by
      rw [cfSent_state hs]
      split_ifs <;> simp
    refine ⟨hp.canSend, hnode, hquiet, fun _ => ?_, fun hs' => ?_⟩
    · dsimp only
      omega
    · have hidle : ¬ (cfSent p.1 timeMs).Sending := by
        rw [cfSent_state hs] at hs'
        rw [Node.Sending, cfSent_state hs]
        split_ifs at hs' ⊢ <;> simp_all
      have hnone : blockRest (cfSent p.1 timeMs) = 0 := by
        rw [blockRest, unsent_of_not_sending hidle]
        simp
      dsimp only
      omega
  | refused _ _ _ _ hfail => exact absurd rfl (hfail hp.canSend)

/-- A frame that opens no reception has an effect only if it clears a block. -/
theorem rx_undisturbed {f : RxFrame} (ret : ℤ) (hquiet : n.iso.state ≠ .rxWaitCf)
    (hnone : ¬ OpensReception n.iso.rxId (.rx f ret)) :
    isotpRxCallback rxBufferSize n f ret =
      (if TakesFc n f ∧ f.data 0 &&& 0x0F = 0 then ctsReceived n f else n, []) := by
  unfold isotpRxCallback
  by_cases hid : f.id = n.iso.rxId
  · rw [if_neg (not_not_intro hid)]
    have hother (hp : pciOf f ≠ .fc) : ¬ (TakesFc n f ∧ f.data 0 &&& 0x0F = 0) :=
      fun h => hp h.1.2.1
    cases hp : pciOf f with
    | sf => exact absurd ⟨hid, Or.inl hp⟩ hnone
    | ff => exact absurd ⟨hid, Or.inr hp⟩ hnone
    | cf =>
      rw [if_neg (hother (by simp [hp]))]
      exact rxCf_ignored f hquiet
    | fc =>
      dsimp only
      unfold rxFc
      by_cases hs : n.iso.state = .txWaitFc
      · by_cases hcts : f.data 0 &&& 0x0F = 0
        · rw [if_neg (not_not_intro hs), if_pos hcts, if_pos ⟨⟨hid, hp, hs⟩, hcts⟩]
        · rw [if_neg (not_not_intro hs), if_neg hcts, if_neg fun h => hcts h.2]
      · rw [if_pos hs, if_neg fun h => hs h.1.2.2]
    | other => rw [if_neg (hother (by simp [hp]))]
  · rw [if_pos hid, if_neg fun h => hid h.1.1]

/-- A Flow Control frame that meets the condition opens the block that it grants. -/
theorem Granting.rx (hp : Granting p) (f : RxFrame) (ret : ℤ)
    (hnone : ¬ OpensReception p.1.iso.rxId (.rx f ret)) (hmet : GrantMet p (.rx f ret)) :
    Granting (recorded (step rxBufferSize) noteGrant p (.rx f ret)).1 := by
  have hnode := rxCallback_nodeInv rxBufferSize p.1 f ret hp.node
  have hnext : recorded (step rxBufferSize) noteGrant p (.rx f ret) =
      (((isotpRxCallback rxBufferSize p.1 f ret).1, noteGrant p.2 p.1 (.rx f ret)),
        (isotpRxCallback rxBufferSize p.1 f ret).2) := rfl
  rw [rx_undisturbed ret hp.quiet hnone] at hnext hnode
  rw [hnext]
  dsimp only
  unfold noteGrant
  dsimp only at hnode ⊢
  by_cases htakes : TakesFc p.1 f
  · have hs := htakes.2.2
    have hwaiting : p.1.iso.state ≠ .txSendingCf := by simp [hs]
    rw [if_pos htakes]
    by_cases hcts : f.data 0 &&& 0x0F = 0
    · rw [if_pos ⟨htakes, hcts⟩] at hnode ⊢
      rw [if_pos hcts]
      have hall := (allowed_eq_iff hs hp.node.tx).mpr (hmet htakes hcts)
      exact ⟨hp.canSend, hnode, nofun, fun _ => hall.trans (Nat.zero_add _).symm, fun h => absurd rfl h⟩
    · rw [if_neg fun h => hcts h.2, if_neg hcts]
      split_ifs
      · exact ⟨hp.canSend, hp.node, hp.quiet, fun h => absurd h hwaiting, fun _ => rfl⟩
      · exact ⟨hp.canSend, hp.node, hp.quiet, fun h => absurd h hwaiting, fun _ => rfl⟩
      · exact hp
  · rw [if_neg fun h => htakes h.1, if_neg htakes]
    exact hp

theorem Granting.step (hp : Granting p) (op : Op) (hone : OneAfterOther p op) (hmet : GrantMet p op) :
    Granting (recorded (step rxBufferSize) noteGrant p op).1 := by
  cases op with
  | rx f ret => exact hp.rx f ret hone hmet
  | send data ret =>
    have hnext : (recorded (Isotp.step rxBufferSize) noteGrant p (.send data ret)).1 =
        ((isotpSend p.1 data ret).2.1, if TakesSlot p.1 data then ⟨0, 0, false⟩ else p.2) := rfl
    have hnode := send_nodeInv p.1 data ret hp.node
    rw [hnext]
    by_cases htakes : TakesSlot p.1 data
    · rw [send_starts htakes] at hnode ⊢
      rw [if_pos htakes]
      exact ⟨hp.canSend, hnode, nofun, nofun, fun _ => rfl⟩
    · rw [send_keeps htakes, if_neg htakes]
      exact hp
  | process timeMs ret =>
    obtain rfl : ret = 0 := hone
    exact hp.process timeMs
  | setFd enabled =>
    exact ⟨hp.canSend, ⟨hp.node.tx, hp.node.sn_lt⟩, hp.quiet, fun hs => absurd (Or.inr hs) hone,
      hp.waiting⟩

/-! ### Runs -/

theorem Granting.processes (hp : Granting p) (times : List UInt32) :
    Granting (exec (recorded (Isotp.step rxBufferSize) noteGrant) p (processes times)) := by
  induction times generalizing p with
  | nil => exact hp
  | cons timeMs times ih => exact ih (hp.process timeMs)

/-- A process call that is late enough for the separation time. -/
def lateCall (n : Node) : UInt32 := n.iso.timerSt + requiredSt n.iso.stMin

theorem recorded_late (hs : n.iso.state = .txSendingCf) (hn : TxInv n) (hcan : n.iso.canSend = true)
    (h : Grant) : (recorded (step rxBufferSize) noteGrant (n, h) (.process (lateCall n) 0)).1 =
      if blockDone n.iso then (blockEnded n, h)
      else (cfSent n (lateCall n), { h with sent := h.sent + 1 }) := by
  have hcall : tpIsotpProcess n (lateCall n) 0 = _ := late_process hs hn hcan
  have hnext : (recorded (step rxBufferSize) noteGrant (n, h) (.process (lateCall n) 0)).1 =
      ((tpIsotpProcess n (lateCall n) 0).1, if framesOf (tpIsotpProcess n (lateCall n) 0).2 = [] then h
        else { h with sent := h.sent + 1 }) := rfl
  rw [hnext, hcall]
  by_cases hdone : blockDone n.iso
  · rw [if_pos hdone, if_pos hdone]
    rfl
  · rw [if_neg hdone, if_neg hdone]
    rfl

/-- Process calls that come late enough send all that the block leaves, and end it. -/
theorem block_runs (rxBufferSize : UInt16) (hs : n.iso.state = .txSendingCf) (hn : NodeInv n)
    (hcan : n.iso.canSend = true) (h : Grant) : ∃ times,
      let p := exec (recorded (step rxBufferSize) noteGrant) (n, h) (processes times)
      p.1.iso.state ≠ .txSendingCf ∧ p.2.sent = h.sent + blockRest n ∧ p.2.granted = h.granted := by
  generalize hk : blockRest n = k
  induction k generalizing n h with
  | zero =>
    have hdone : blockDone n.iso := by
      by_contra hfree
      have hleft := cfSent_blockRest hs hn.tx hfree 0
      omega
    refine ⟨[lateCall n], ?_⟩
    rw [processes, List.map_cons, List.map_nil, exec_cons, exec_nil, recorded_late hs hn.tx hcan,
      if_pos hdone]
    exact ⟨nofun, rfl, rfl⟩
  | succ k ih =>
    have hfree : ¬ blockDone n.iso := by
      intro hdone
      have hnone := blockRest_of_done hdone
      omega
    have hleft := cfSent_blockRest hs hn.tx hfree (lateCall n)
    have hnode : NodeInv (cfSent n (lateCall n)) :=
      ⟨(cfSent_unsent hs hn.tx (lateCall n)).2, nextSn_lt n.iso.sn⟩
    by_cases hs' : (cfSent n (lateCall n)).iso.state = .txSendingCf
    · obtain ⟨times, hstate, hsent, hgranted⟩ :=
        ih hs' hnode hcan { h with sent := h.sent + 1 } (by omega)
      refine ⟨lateCall n :: times, ?_⟩
      rw [processes, List.map_cons, exec_cons, recorded_late hs hn.tx hcan, if_neg hfree]
      refine ⟨hstate, hsent.trans ?_, hgranted⟩
      dsimp only
      omega
    · have hidle : ¬ (cfSent n (lateCall n)).Sending := by
        rw [cfSent_state hs] at hs'
        rw [Node.Sending, cfSent_state hs]
        split_ifs at hs' ⊢ <;> simp_all
      have hnone : blockRest (cfSent n (lateCall n)) = 0 := by
        rw [blockRest, unsent_of_not_sending hidle]
        simp
      refine ⟨[lateCall n], ?_⟩
      rw [processes, List.map_cons, List.map_nil, exec_cons, exec_nil, recorded_late hs hn.tx hcan,
        if_neg hfree]
      refine ⟨hs', ?_, rfl⟩
      dsimp only
      omega

/-- A Clear-To-Send that does not meet the condition is followed by another number of frames. -/
theorem unmet_disobeyed {op : Op} (hp : Granting p) (hone : OneAfterOther p op)
    (hunmet : ¬ GrantMet p op) :
    ¬ ObeyedThroughout rxBufferSize (recorded (step rxBufferSize) noteGrant p op).1 := by
  cases op with
  | rx f ret =>
    simp only [GrantMet, Classical.not_imp] at hunmet
    obtain ⟨htakes, hcts, hunmet⟩ := hunmet
    have hs := htakes.2.2
    rw [← allowed_eq_iff hs hp.node.tx] at hunmet
    have hnext : (recorded (step rxBufferSize) noteGrant p (.rx f ret)).1 =
        (ctsReceived p.1 f, { p.2 with granted := p.2.allowed p.1 (f.data 1), sent := 0 }) := by
      unfold recorded step noteGrant
      dsimp only
      rw [rx_undisturbed ret hp.quiet hone, if_pos ⟨htakes, hcts⟩, if_pos htakes, if_pos hcts]
    have hnode : NodeInv (ctsReceived p.1 f) :=
      ⟨fun _ => hp.node.tx (Or.inl hs), hp.node.sn_lt⟩
    obtain ⟨times, hstate, hsent, hgranted⟩ := block_runs rxBufferSize rfl hnode hp.canSend
      { p.2 with granted := p.2.allowed p.1 (f.data 1), sent := 0 }
    intro hall
    have hwhole := (hall times).whole
    rw [hnext] at hwhole
    have hequal := hwhole hstate
    rw [hsent, hgranted] at hequal
    exact hunmet ((Nat.zero_add _).symm.trans hequal).symm
  | _ => exact absurd trivial hunmet

/-- In every run of segmented messages one after the other, the Flow Control frames are obeyed exactly if
each Clear-To-Send meets the condition. -/
theorem flow_control_obeyed_iff (rxBufferSize : UInt16) (mem : Node) (txId rxId : UInt32)
    (ops : List Op)
    (hrun : Along (recorded (step rxBufferSize) noteGrant) OneAfterOther
      (tpIsotpInit mem true txId rxId, ⟨0, 0, false⟩) ops) :
    Always (recorded (step rxBufferSize) noteGrant) (ObeyedThroughout rxBufferSize)
        (tpIsotpInit mem true txId rxId, ⟨0, 0, false⟩) ops ↔
      Along (recorded (step rxBufferSize) noteGrant) GrantMet
        (tpIsotpInit mem true txId rxId, ⟨0, 0, false⟩) ops := by
  have hinit : Granting (tpIsotpInit mem true txId rxId, ⟨0, 0, false⟩) :=
    { canSend := rfl
      node := init_nodeInv mem true txId rxId
      quiet := nofun
      sending := nofun
      waiting := fun _ => rfl }
  refine always_iff_along_under (I := Granting) (D := OneAfterOther) ?_ ?_ ?_ hinit hrun
  · exact fun p hp times => (hp.processes times).obeyed
  · exact fun p op hp hone hmet => hp.step op hone hmet
  · exact fun p op hp hone hunmet => unmet_disobeyed hp hone hunmet

/-- Twenty bytes, cleared in one block. -/
def twentyInBlock : List Op := [.send twentyBytes 0, .rx (ctsFrame 2 2 0) 0, .process 0 0, .process 1 0]

theorem twentyBytes_obeyed :
    Always (recorded (step 64) noteGrant) (ObeyedThroughout 64)
      (tpIsotpInit zeroNode true 1 2, ⟨0, 0, false⟩) twentyInBlock :=
  (flow_control_obeyed_iff 64 zeroNode 1 2 twentyInBlock (by decide)).mpr (by decide)

/-- Twenty bytes once more: the block counter still stands at 2, and the block of 2 is over at once. -/
theorem second_block_empty :
    Along (recorded (step 64) noteGrant) OneAfterOther (tpIsotpInit zeroNode true 1 2, ⟨0, 0, false⟩)
        (twentyInBlock ++ [.send twentyBytes 0, .rx (ctsFrame 2 2 0) 0, .process 2 0]) ∧
      ¬ Obeyed (exec (recorded (step 64) noteGrant) (tpIsotpInit zeroNode true 1 2, ⟨0, 0, false⟩)
        (twentyInBlock ++ [.send twentyBytes 0, .rx (ctsFrame 2 2 0) 0, .process 2 0])) :=
  ⟨by decide, fun h => absurd (h.whole (by decide)) (by decide)⟩

end UdsLib.Isotp
