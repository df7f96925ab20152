import UdsLib.Isotp.Duplex
import UdsLib.Isotp.TwoNode
import UdsLib.Isotp.TxState

/-! What a failed send leaves behind. A message that is segmented takes the transmit slot before its First
Frame is attempted, so it is sent all the same when a Flow Control frame follows. -/
namespace UdsLib.Isotp
open Bytes Machine

/-- Whether the message in the slot is still the refused one. -/
def noteRefused (refused : Bool) (n : Node) : Op → Bool
  | .send data _ => refused && !decide (TakesSlot n data)
  | _ => refused

/-- After the send, whatever is called, all goes on as without it, and no Consecutive Frame of its
message is emitted. -/
structure LeavesAlone (rxBufferSize : UInt16) (n : Node) (data : Sdu) (ret : ℤ) : Prop where
  continues : ∀ ops, trace (step rxBufferSize) (isotpSend n data ret).2.1 ops =
    trace (step rxBufferSize) n ops
  noCf : ∀ ops op,
    let p := exec (recorded (step rxBufferSize) noteRefused)
      ((isotpSend n data ret).2.1, decide (TakesSlot n data)) ops
    p.2 = true → ∀ o ∈ (step rxBufferSize p.1 op).2, ¬ o.IsCf

variable {rxBufferSize : UInt16} {n m k : Node} {data : Sdu} {ret : ℤ} {o : Output}

/-! ### Nodes that receive alike -/

/-- Two nodes that receive alike. What they have to transmit is left out. -/
structure Alike (n m : Node) : Prop where
  canSend : m.iso.canSend = n.iso.canSend
  rxId : m.iso.rxId = n.iso.rxId
  mode : m.iso.useCanFd = n.iso.useCanFd
  rxBuffer : m.rxBuffer = n.rxBuffer
  receiving : m.iso.state = .rxWaitCf ↔ n.iso.state = .rxWaitCf
  fields : n.iso.state = .rxWaitCf → m.iso.msgLen = n.iso.msgLen ∧
    m.iso.bytesProcessed = n.iso.bytesProcessed ∧ m.iso.sn = n.iso.sn

theorem Alike.refl (n : Node) : Alike n n := ⟨rfl, rfl, rfl, rfl, Iff.rfl, fun _ => ⟨rfl, rfl, rfl⟩⟩

theorem Alike.symm (h : Alike n m) : Alike m n where
  canSend := h.canSend.symm
  rxId := h.rxId.symm
  mode := h.mode.symm
  rxBuffer := h.rxBuffer.symm
  receiving := h.receiving.symm
  fields hs := by
    obtain ⟨hlen, hbytes, hsn⟩ := h.fields (h.receiving.mp hs)
    exact ⟨hlen.symm, hbytes.symm, hsn.symm⟩

theorem Alike.trans (h : Alike n m) (h' : Alike m k) : Alike n k where
  canSend := h'.canSend.trans h.canSend
  rxId := h'.rxId.trans h.rxId
  mode := h'.mode.trans h.mode
  rxBuffer := h'.rxBuffer.trans h.rxBuffer
  receiving := h'.receiving.trans h.receiving
  fields hs := by
    obtain ⟨hlen, hbytes, hsn⟩ := h.fields hs
    obtain ⟨hlen', hbytes', hsn'⟩ := h'.fields (h.receiving.mpr hs)
    exact ⟨hlen'.trans hlen, hbytes'.trans hbytes, hsn'.trans hsn⟩

/-- A message that takes the slot of a node that is not receiving. -/
theorem mfStarted_alike (hs : n.iso.state ≠ .rxWaitCf) (data : Sdu) : Alike n (mfStarted n data) where
  canSend := rfl
  rxId := rfl
  mode := rfl
  rxBuffer := rfl
  receiving := iff_of_false nofun hs
  fields h := absurd h hs

/-- A Flow Control frame is not seen by the receiving side. -/
theorem rxFc_alike (n : Node) (f : RxFrame) : Alike n (rxFc n f) := by
  unfold rxFc
  split_ifs with hs hcts
  · exact .refl n
  · exact
      { Alike.refl n with
        receiving := iff_of_false nofun (by simp [not_not.mp hs])
        fields := fun h => by simp [not_not.mp hs] at h }
  · exact .refl n

/-- Neither is a process call. -/
theorem process_alike (n : Node) (timeMs : UInt32) (ret : ℤ) :
    Alike n (tpIsotpProcess n timeMs ret).1 := by
  generalize hr : tpIsotpProcess n timeMs ret = r
  have heff := process_effect n timeMs ret
  rw [hr] at heff
  cases heff with
  | notSending | early | refused => exact .refl n
  | drained hs | blockEnd hs =>
    exact
      { Alike.refl n with
        receiving := iff_of_false nofun (by simp [hs])
        fields := fun h => by simp [hs] at h }
  | sent hs =>
    have hquiet : (cfSent n timeMs).iso.state ≠ .rxWaitCf := by
      rw [cfSent_state hs]
      split_ifs <;> simp
    exact
      { Alike.refl n with
        receiving := iff_of_false hquiet (by simp [hs])
        fields := fun h => by simp [hs] at h }

/-! ### Without a send function -/

theorem tpSendFrame_off {iso : Ctx} (h : iso.canSend = false) (bytes : List UInt8) (ret : ℤ) :
    tpSendFrame iso bytes ret = (-1, []) := by
  simp [tpSendFrame, h]

theorem process_off (hoff : n.iso.canSend = false) (timeMs : UInt32) (ret : ℤ) :
    (tpIsotpProcess n timeMs ret).2 = [] := by
  generalize hr : tpIsotpProcess n timeMs ret = r
  have heff := process_effect n timeMs ret
  rw [hr] at heff
  cases heff with
  | notSending | drained | early | blockEnd => rfl
  | sent _ _ _ _ hcan => simp [hoff] at hcan
  | refused => rw [tpSendFrame_off hoff]

theorem Alike.rxSf (h : Alike n m) (f : RxFrame) :
    (rxSf n f).2 = (Isotp.rxSf m f).2 ∧ Alike (Isotp.rxSf n f).1 (Isotp.rxSf m f).1 := by
  have hidle : Alike (n.setState .idle) (m.setState .idle) :=
    { h with receiving := by simp [Node.setState], fields := nofun }
  rw [rxSf_idle, rxSf_idle]
  refine ⟨?_, hidle⟩
  unfold Isotp.rxSf
  dsimp only
  split_ifs <;> rfl

/-- Without a send function the Flow Control frame is not seen, whatever limits it would carry. -/
theorem Alike.rxFf (h : Alike n m) (hoff : n.iso.canSend = false) (f : RxFrame) (ret : ℤ) :
    (rxFf rxBufferSize n f ret).2 = (Isotp.rxFf rxBufferSize m f ret).2 ∧
      Alike (Isotp.rxFf rxBufferSize n f ret).1 (Isotp.rxFf rxBufferSize m f ret).1 := by
  have hoff' : m.iso.canSend = false := h.canSend.trans hoff
  unfold Isotp.rxFf
  dsimp only
  split_ifs
  · exact ⟨rfl, { h with receiving := by simp, fields := nofun }⟩
  · exact ⟨rfl, { h with receiving := by simp, fields := nofun }⟩
  · constructor
    · simp [tpSendFrame, hoff, hoff']
    · exact
        { canSend := h.canSend
          rxId := h.rxId
          mode := h.mode
          rxBuffer := by simp [h.rxBuffer]
          receiving := by simp
          fields := fun _ => ⟨rfl, rfl, rfl⟩ }

theorem Alike.rxCf (h : Alike n m) (f : RxFrame) :
    (rxCf n f).2 = (Isotp.rxCf m f).2 ∧ Alike (Isotp.rxCf n f).1 (Isotp.rxCf m f).1 := by
  by_cases hs : n.iso.state = .rxWaitCf
  · obtain ⟨hlen, hbytes, hsn⟩ := h.fields hs
    have hs' := h.receiving.mpr hs
    unfold Isotp.rxCf
    rw [if_neg (not_not_intro hs), if_neg (not_not_intro hs')]
    simp only [hlen, hbytes, hsn, h.rxBuffer]
    split_ifs
    · exact ⟨rfl, { h with receiving := by simp, fields := nofun, rxBuffer := rfl }⟩
    · exact ⟨rfl, { h with receiving := by simp, fields := nofun, rxBuffer := rfl }⟩
    · exact ⟨rfl, { h with fields := fun _ => ⟨rfl, rfl, rfl⟩, rxBuffer := rfl }⟩
  · have hs' := mt h.receiving.mp hs
    rw [rxCf_ignored f hs, rxCf_ignored f hs']
    exact ⟨rfl, h⟩

theorem Alike.rx (h : Alike n m) (hoff : n.iso.canSend = false) (f : RxFrame) (ret : ℤ) :
    (isotpRxCallback rxBufferSize n f ret).2 = (isotpRxCallback rxBufferSize m f ret).2 ∧
      Alike (isotpRxCallback rxBufferSize n f ret).1 (isotpRxCallback rxBufferSize m f ret).1 := by
  unfold isotpRxCallback
  rw [h.rxId]
  split_ifs
  · exact ⟨rfl, h⟩
  · cases pciOf f with
    | sf => exact h.rxSf f
    | ff => exact h.rxFf hoff f ret
    | cf => exact h.rxCf f
    | fc => exact ⟨rfl, ((rxFc_alike n f).symm.trans h).trans (rxFc_alike m f)⟩
    | other => exact ⟨rfl, h⟩

/-- Whether a send takes the slot depends on the mode only, and both refuse it with the same code. -/
theorem Alike.send (h : Alike n m) (hoff : n.iso.canSend = false) (data : Sdu) (ret : ℤ) :
    (step rxBufferSize n (.send data ret)).2 = (step rxBufferSize m (.send data ret)).2 ∧
      Alike (step rxBufferSize n (.send data ret)).1 (step rxBufferSize m (.send data ret)).1 := by
  have hoff' : m.iso.canSend = false := h.canSend.trans hoff
  unfold step isotpSend sendSf sendMf
  dsimp only
  rw [h.mode, tpSendFrame_off hoff, tpSendFrame_off hoff', tpSendFrame_off hoff, tpSendFrame_off hoff']
  split_ifs
  · exact ⟨rfl, h⟩
  · exact ⟨rfl, h⟩
  · exact ⟨rfl, { h with receiving := by simp [mfStarted], fields := by simp [mfStarted] }⟩
  · exact ⟨rfl, { h with receiving := by simp [mfStarted], fields := by simp [mfStarted] }⟩

theorem Alike.step (h : Alike n m) (hoff : n.iso.canSend = false) (op : Op) :
    (step rxBufferSize n op).2 = (Isotp.step rxBufferSize m op).2 ∧
      Alike (Isotp.step rxBufferSize n op).1 (Isotp.step rxBufferSize m op).1 := by
  cases op with
  | rx f ret => exact h.rx hoff f ret
  | send data ret => exact h.send hoff data ret
  | process timeMs ret =>
    constructor
    · exact (process_off hoff timeMs ret).trans (process_off (h.canSend.trans hoff) timeMs ret).symm
    · exact ((process_alike n timeMs ret).symm.trans h).trans (process_alike m timeMs ret)
  | setFd enabled => exact ⟨rfl, { h with mode := rfl }⟩

/-- Without a send function, nodes that receive alike emit the same in every run. -/
theorem Alike.trace (h : Alike n m) (hoff : n.iso.canSend = false) (ops : List Op) :
    trace (Isotp.step rxBufferSize) n ops = Machine.trace (Isotp.step rxBufferSize) m ops := by
  refine trace_congr (R := fun n m => Alike n m ∧ n.iso.canSend = false) ?_ ⟨h, hoff⟩ ops
  rintro n m op ⟨hnm, hoff⟩
  obtain ⟨hout, hnext⟩ := hnm.step hoff op
  exact ⟨hout, hnext, (step_ids rxBufferSize n op).2.2.trans hoff⟩

/-! ### The failed send -/

/-- A send that does not take the slot leaves the node as it is. -/
theorem send_keeps (h : ¬ TakesSlot n data) (ret : ℤ) : (isotpSend n data ret).2.1 = n := by
  generalize hr : isotpSend n data ret = r
  have heff := send_effect n data ret
  rw [hr] at heff
  cases heff with
  | single | tooLong => rfl
  | started hlong hmax => exact absurd ⟨hlong, hmax⟩ h

theorem send_starts (h : TakesSlot n data) (ret : ℤ) :
    (isotpSend n data ret).2.1 = mfStarted n data := by
  generalize hr : isotpSend n data ret = r
  have heff := send_effect n data ret
  rw [hr] at heff
  cases heff with
  | single hfit => exact absurd hfit h.1
  | tooLong _ hlong => exact absurd h.2 (Nat.not_le.mpr hlong)
  | started => rfl

theorem leavesAlone_of_keeps (h : ¬ TakesSlot n data) : LeavesAlone rxBufferSize n data ret where
  continues ops := by rw [send_keeps h]
  noCf ops op := by
    -- no message was refused after it had taken the slot
    have hnone : (exec (recorded (step rxBufferSize) noteRefused)
        ((isotpSend n data ret).2.1, decide (TakesSlot n data)) ops).2 = false := by
      refine recorded_invariant (I := fun _ refused => refused = false) ?_ (decide_eq_false h) ops
      rintro n refused op rfl
      cases op <;> rfl
    intro p hp
    rw [hnone] at hp
    cases hp

theorem leavesAlone_of_off (hoff : n.iso.canSend = false) (hs : n.iso.state ≠ .rxWaitCf)
    (h : TakesSlot n data) : LeavesAlone rxBufferSize n data ret where
  continues ops := by
    rw [send_starts h]
    exact ((mfStarted_alike hs data).trace hoff ops).symm
  noCf ops op := by
    intro p _ o ho hcf
    have hp : p.1 = exec (step rxBufferSize) (isotpSend n data ret).2.1 ops :=
      (recorded_run noteRefused _ _ ops).1
    have hoff' : p.1.iso.canSend = false := by
      rw [hp, (exec_ids rxBufferSize _ ops).2.2, send_starts h]
      exact hoff
    obtain ⟨timeMs, ret, rfl⟩ := cf_of_process ho hcf
    have hnone : (step rxBufferSize p.1 (.process timeMs ret)).2 = [] := process_off hoff' timeMs ret
    rw [hnone] at ho
    cases ho

/-- The node once the message is cleared to send without a limit. -/
def refusedCleared (n : Node) (data : Sdu) : Node :=
  ctsReceived (mfStarted n data) (ctsFrame n.iso.rxId 0 0)

/-- The next process call that comes late enough emits the first Consecutive Frame. -/
theorem refusedCleared_emits (h : ¬ FitsSf n.iso.useCanFd data) (hcan : n.iso.canSend = true) :
    ∃ timeMs, ∃ o ∈ (tpIsotpProcess (refusedCleared n data) timeMs 0).2, o.IsCf := by
  have htx : TxInv (refusedCleared n data) := fun _ => (mfStarted_unsent n data h).2 (Or.inl rfl)
  have hunlimited : (refusedCleared n data).iso.blockSize = 0 := rfl
  have hfree : ¬ blockDone (refusedCleared n data).iso := by simp [blockDone, hunlimited]
  have hprocess := late_process rfl htx hcan
  rw [if_neg hfree] at hprocess
  have hkind := cfFrame_kind (refusedCleared n data) firstSn_lt
  refine ⟨(refusedCleared n data).iso.timerSt + requiredSt (refusedCleared n data).iso.stMin,
    .canSend (refusedCleared n data).iso.txId _ 0, ?_, congrArg some hkind⟩
  rw [hprocess]
  exact List.mem_singleton.mpr rfl

/-- With a send function, a Flow Control frame has the refused message sent. -/
theorem refused_sent (h : TakesSlot n data) (hcan : n.iso.canSend = true) :
    ¬ LeavesAlone rxBufferSize n data ret := by
  intro halone
  have hcts : step rxBufferSize (mfStarted n data) (.rx (ctsFrame n.iso.rxId 0 0) 0) =
      (refusedCleared n data, []) := cts_step rxBufferSize 0 ⟨rfl, rfl⟩
  have hrun : exec (recorded (step rxBufferSize) noteRefused)
      ((isotpSend n data ret).2.1, decide (TakesSlot n data)) [.rx (ctsFrame n.iso.rxId 0 0) 0] =
      (refusedCleared n data, true) := by
    rw [exec_cons, exec_nil, recorded, send_starts h, hcts, decide_eq_true h]
    rfl
  obtain ⟨timeMs, o, ho, hcf⟩ := refusedCleared_emits h.1 hcan
  have hnone := halone.noCf [.rx (ctsFrame n.iso.rxId 0 0) 0] (.process timeMs 0)
  rw [hrun] at hnone
  exact hnone rfl o ho hcf

/-- Without a send function the reception in progress is lost all the same. -/
theorem reception_lost (h : TakesSlot n data) (hsn : n.iso.sn.toNat < 16) (hs : n.iso.state = .rxWaitCf) :
    ¬ LeavesAlone rxBufferSize n data ret := by
  intro halone
  generalize hf : RxFrame.ofBytes n.iso.rxId [0x20 ||| n.iso.sn, 0, 0, 0, 0, 0, 0, 0] (fun _ => 0) = f
  have hid : f.id = n.iso.rxId := by
    rw [← hf]
    rfl
  have hfirst : f.data 0 = 0x20 ||| n.iso.sn := by
    rw [← hf]
    rfl
  have hkind : pciOf f = .cf := by
    unfold pciOf
    rw [hfirst, (cfPci n.iso.sn hsn).1]
    rfl
  have hsame := halone.continues [.rx f 0]
  have hignored : step rxBufferSize (mfStarted n data) (.rx f 0) = (mfStarted n data, []) := by
    have hid' : f.id = (mfStarted n data).iso.rxId := hid
    rw [step_rx rxBufferSize 0 hid', hkind]
    exact rxCf_ignored f nofun
  rw [send_starts h, trace_cons, trace_cons, trace_nil, trace_nil, List.append_nil, List.append_nil,
    hignored, step_rx rxBufferSize 0 hid, hkind] at hsame
  -- the frame is the one that the reception waits for
  revert hsame
  unfold rxCf
  rw [if_neg (not_not_intro hs), hfirst, (cfPci n.iso.sn hsn).2, if_neg (not_not_intro rfl)]
  dsimp only
  split_ifs <;> simp

/-- In every reachable state, a failed send leaves the transport as it was just if the message does not
take the slot, or if there is no send function and no reception in progress. -/
theorem failed_send_iff (rxBufferSize : UInt16) (mem : Node) (canSend : Bool) (txId rxId : UInt32)
    (ops : List Op) (data : Sdu) (ret : ℤ) :
    let n := exec (step rxBufferSize) (tpIsotpInit mem canSend txId rxId) ops
    (isotpSend n data ret).1 ≠ 0 →
      (LeavesAlone rxBufferSize n data ret ↔
        ¬ TakesSlot n data ∨ (n.iso.canSend = false ∧ n.iso.state ≠ .rxWaitCf)) := by
  intro n _
  have hinv : NodeInv n := exec_nodeInv rxBufferSize _ ops (init_nodeInv mem canSend txId rxId)
  constructor
  · intro halone
    by_cases htakes : TakesSlot n data
    · right
      constructor
      · by_contra hcan
        exact refused_sent htakes (Bool.eq_true_of_not_eq_false hcan) halone
      · intro hs
        exact reception_lost htakes hinv.sn_lt hs halone
    · exact .inl htakes
  · rintro (hkeeps | ⟨hoff, hs⟩)
    · exact leavesAlone_of_keeps hkeeps
    · by_cases htakes : TakesSlot n data
      · exact leavesAlone_of_off hoff hs htakes
      · exact leavesAlone_of_keeps htakes

/-- A Single Frame that `can_send` refuses. -/
theorem single_frame_leaves_alone :
    LeavesAlone 64 (exec (step 64) (tpIsotpInit zeroNode true 1 2) []) oneByte (-1) :=
  (failed_send_iff 64 zeroNode true 1 2 [] oneByte (-1) (by decide)).mpr (.inl (by decide))

/-- The First Frame of eight bytes is refused in an idle node, and they are sent all the same. -/
theorem refused_eight_bytes_sent :
    (isotpSend (exec (step 64) (tpIsotpInit zeroNode true 1 2) []) eightBytes (-1)).1 ≠ 0 ∧
      ¬ LeavesAlone 64 (exec (step 64) (tpIsotpInit zeroNode true 1 2) []) eightBytes (-1) :=
  ⟨by decide, refused_sent (by decide) rfl⟩

end UdsLib.Isotp
