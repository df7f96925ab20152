import UdsLib.Isotp.BufferSafety
import UdsLib.Isotp.Link

/-! What a transport puts on the bus: in every run, frames of the four kinds under its own
identifier, of a length that the bus can carry in the mode it is in. Where nothing else comes in,
reception stays within its buffer, whatever its size. -/
namespace UdsLib.Isotp
open Bytes Machine

/-- The frames that the transport builds in one mode. -/
inductive Emitted (useCanFd : Bool) : List UInt8 → Prop where
  | single (data : Sdu) : FitsSf useCanFd data → Emitted useCanFd (sfFrame data)
  | first (data : Sdu) : ¬ FitsSf useCanFd data → data.bytes.length ≤ 1024 →
      Emitted useCanFd (ffFrame useCanFd data)
  | consecutive (sn : UInt8) (payload : List UInt8) : sn.toNat < 16 →
      payload.length ≤ (maxCfPayload useCanFd).toNat → Emitted useCanFd (cfFrame useCanFd sn payload)
  | control (blockSize stMin : UInt8) : Emitted useCanFd (answerFc blockSize stMin)

/-- `can_send` is called under this identifier with a frame of this mode. -/
def Output.Sound (id : UInt32) (useCanFd : Bool) : Output → Prop
  | .canSend txId data _ => txId = id ∧ Emitted useCanFd data
  | _ => True

variable {n : Node} {useCanFd : Bool} {frame : List UInt8}

theorem tpSendFrame_sound (ret : ℤ) (h : Emitted n.iso.useCanFd frame) :
    ∀ o ∈ (tpSendFrame n.iso frame ret).2, o.Sound n.iso.txId n.iso.useCanFd := by
  unfold tpSendFrame
  split_ifs <;> simp [Output.Sound, h]

theorem send_sound (n : Node) (data : Sdu) (ret : ℤ) :
    ∀ o ∈ (isotpSend n data ret).2.2, o.Sound n.iso.txId n.iso.useCanFd := by
  generalize hr : isotpSend n data ret = r
  have heff := send_effect n data ret
  rw [hr] at heff
  cases heff with
  | single hfit => exact tpSendFrame_sound ret (.single data hfit)
  | tooLong => simp
  | started hlong hmax => exact tpSendFrame_sound ret (.first data hlong hmax)

theorem process_sound (hn : NodeInv n) (timeMs : UInt32) (ret : ℤ) :
    ∀ o ∈ (tpIsotpProcess n timeMs ret).2, o.Sound n.iso.txId n.iso.useCanFd := by
  have hcf (hs : n.iso.state = .txSendingCf) :
      Emitted n.iso.useCanFd (cfFrame n.iso.useCanFd n.iso.sn (cfPayload n)) := by
    apply Emitted.consecutive _ _ hn.sn_lt
    rw [cfPayload_eq_take (Or.inr hs) hn.tx, List.length_take]
    omega
  generalize hr : tpIsotpProcess n timeMs ret = r
  have heff := process_effect n timeMs ret
  rw [hr] at heff
  cases heff with
  | notSending | drained | early | blockEnd => simp
  | sent hs =>
    intro o ho
    obtain rfl := List.mem_singleton.mp ho
    exact ⟨rfl, hcf hs⟩
  | refused hs => exact tpSendFrame_sound ret (hcf hs)

theorem rx_sound (rxBufferSize : UInt16) (n : Node) (f : RxFrame) (ret : ℤ) :
    ∀ o ∈ (isotpRxCallback rxBufferSize n f ret).2, o.Sound n.iso.txId n.iso.useCanFd := by
  unfold isotpRxCallback
  split_ifs
  · simp
  · cases pciOf f with
    | sf => unfold rxSf; dsimp only; split_ifs <;> simp [Output.Sound]
    | ff =>
      have hfc : Emitted n.iso.useCanFd (answerFc n.iso.blockSize n.iso.stMin) := .control _ _
      unfold rxFf tpSendFrame
      dsimp only
      split_ifs <;> simp [Output.Sound]
      exact hfc
    | cf => unfold rxCf; dsimp only; split_ifs <;> simp [Output.Sound]
    | fc | other => simp

theorem step_sound (rxBufferSize : UInt16) (hn : NodeInv n) (op : Op) :
    ∀ o ∈ (step rxBufferSize n op).2, o.Sound n.iso.txId n.iso.useCanFd := by
  cases op with
  | rx f ret => exact rx_sound rxBufferSize n f ret
  | send data ret =>
    simp only [step]
    exact List.forall_mem_append.mpr ⟨send_sound n data ret, by simp [Output.Sound]⟩
  | process timeMs ret => exact process_sound hn timeMs ret
  | setFd enabled => simp [step]

/-! ### What a bus can carry -/

theorem Emitted.legal (h : Emitted useCanFd frame) : LegalLength useCanFd frame.length := by
  cases h with
  | single data hfit => exact (sfFrame_shape useCanFd data hfit).1
  | first data hlong => exact (ffFrame_shape useCanFd data hlong).2.2
  | consecutive sn payload hsn hlen =>
    obtain ⟨-, -, hlegal, -⟩ := cfFrame_shape useCanFd sn payload hlen
    exact hlegal
  | control blockSize stMin => exact Or.inl (Nat.le_refl 8)

/-- The mode after a run: that of the last `uds_tp_isotp_set_fd`. -/
def fdAfter (ops : List Op) : Bool :=
  ops.foldl (fun mode op => match op with
    | .setFd enabled => enabled
    | _ => mode) false

theorem step_useCanFd (rxBufferSize : UInt16) (n : Node) (op : Op) :
    (step rxBufferSize n op).1.iso.useCanFd = match op with
      | .setFd enabled => enabled
      | _ => n.iso.useCanFd := by
  cases op with
  | rx f ret =>
    simp only [step]
    unfold isotpRxCallback
    split_ifs
    · rfl
    · cases pciOf f with
      | sf => unfold rxSf; dsimp only; split_ifs <;> rfl
      | ff => unfold rxFf; dsimp only; split_ifs <;> rfl
      | cf => unfold rxCf; dsimp only; split_ifs <;> rfl
      | fc => unfold rxFc; split_ifs <;> rfl
      | other => rfl
  | send data ret =>
    simp only [step]
    unfold isotpSend sendSf sendMf
    split_ifs <;> rfl
  | process timeMs ret =>
    simp only [step]
    generalize hr : tpIsotpProcess n timeMs ret = r
    have heff := process_effect n timeMs ret
    rw [hr] at heff
    cases heff <;> rfl
  | setFd enabled => rfl

theorem exec_useCanFd (rxBufferSize : UInt16) (mem : Node) (canSend : Bool) (txId rxId : UInt32)
    (ops : List Op) :
    (exec (step rxBufferSize) (tpIsotpInit mem canSend txId rxId) ops).iso.useCanFd =
      fdAfter ops := by
  induction ops using List.reverseRecOn with
  | nil => rfl
  | append_singleton ops op ih =>
    rw [exec_append, exec_cons, exec_nil, step_useCanFd, ih, fdAfter, fdAfter, List.foldl_append]
    rfl

/-- In every run, whatever comes in, each call of `can_send` is under the identifier of the
initialisation, with a Single, First, Consecutive or Flow Control frame of a length that the bus can
carry in the mode of the last `uds_tp_isotp_set_fd`. -/
theorem frames_legal (rxBufferSize : UInt16) (mem : Node) (canSend : Bool) (txId rxId : UInt32)
    (ops : List Op) (op : Op) (id : UInt32) (data : List UInt8) (ret : ℤ) :
    let n := exec (step rxBufferSize) (tpIsotpInit mem canSend txId rxId) ops
    .canSend id data ret ∈ (step rxBufferSize n op).2 →
      id = txId ∧ Emitted (fdAfter ops) data ∧ LegalLength (fdAfter ops) data.length := by
  intro n hcall
  have hn : NodeInv n := exec_nodeInv _ _ _ (init_nodeInv _ _ _ _)
  have hid : n.iso.txId = txId := (exec_ids rxBufferSize _ ops).2.1
  obtain ⟨hsame, hemitted⟩ := step_sound rxBufferSize hn op _ hcall
  rw [exec_useCanFd] at hemitted
  exact ⟨hsame.trans hid, hemitted, hemitted.legal⟩

/-- The First Frame of eight bytes in classic mode. -/
theorem eightBytes_legal : LegalLength false 8 := by
  have h := frames_legal 0 zeroNode true 1 2 [] (.send eightBytes 0) 1
    [0x10, 0x08, 1, 2, 3, 4, 5, 6] 0 (by decide)
  exact h.2.2

/-! ### Two transports among themselves -/

/-- A First Frame from such a transport announces more than it carries. -/
theorem Emitted.fits (h : Emitted useCanFd frame) (rxBufferSize : UInt16) (rxId id : UInt32)
    (beyond : ℕ → UInt8) (ret : ℤ) :
    FfFits rxBufferSize rxId (.rx (.ofBytes id frame beyond) ret) := by
  intro _ hff _ _ hfd
  cases h with
  | single data hfit =>
    rw [sfFrame_pci useCanFd data id beyond hfit] at hff
    cases hff
  | first data hlong hmax =>
    obtain ⟨-, hsdu, hcarried, -⟩ := ffFrame_reads useCanFd data id beyond hlong (by omega)
    rw [dataInFf_toNat, if_pos hfd] at hcarried
    have hlen := (not_fitsSf_iff useCanFd data).mp hlong
    have hmaxFf := maxDataInFf_le_maxSfLen useCanFd
    rw [hsdu, Sdu.len_toNat]
    omega
  | consecutive sn payload hsn hlen =>
    obtain ⟨hkind, -⟩ := cfFrame_reads useCanFd sn payload id beyond hsn hlen
    rw [hkind] at hff
    cases hff
  | control blockSize stMin =>
    have hpci : (RxFrame.ofBytes id (answerFc blockSize stMin) beyond).data 0 = 0x30 := rfl
    unfold pciOf at hff
    rw [hpci] at hff
    exact absurd hff (by decide)

/-- A station that has stayed within its receive buffer and is able to. -/
structure Station.Safe (rxBufferSize : UInt16) (s : Station) : Prop where
  inv : NodeInv s.node
  rx : RxInv rxBufferSize s.node
  inBounds : ∀ o ∈ s.log, InBounds rxBufferSize o
  emitted : ∀ frame ∈ framesOf s.log, ∃ useCanFd, Emitted useCanFd frame

theorem Station.Safe.does {rxBufferSize : UInt16} {s : Station} {op : Op} (h : s.Safe rxBufferSize)
    (hop : FfFits rxBufferSize s.node.iso.rxId op) : (s.does rxBufferSize op).Safe rxBufferSize := by
  obtain ⟨hrx, hbounds⟩ := step_safe rxBufferSize s.node op h.rx hop
  refine ⟨step_nodeInv rxBufferSize s.node op h.inv, hrx,
    List.forall_mem_append.mpr ⟨h.inBounds, hbounds⟩, ?_⟩
  rw [Station.does, framesOf_append]
  refine List.forall_mem_append.mpr ⟨h.emitted, fun frame hframe => ?_⟩
  obtain ⟨o, ho, hsome⟩ := List.mem_filterMap.mp hframe
  have hsound := step_sound rxBufferSize h.inv op o ho
  cases o with
  | canSend id data ret =>
    simp only [Output.frame?] at hsome
    split_ifs at hsome
    cases hsome
    exact ⟨_, hsound.2⟩
  | rxWrite | inputSdu | returned => cases hsome

theorem Station.Safe.next {rxBufferSize : UInt16} {s : Station} {k : ℕ} (h : s.Safe rxBufferSize)
    (hframe : (framesOf s.log)[k]? = some frame) : ∃ useCanFd, Emitted useCanFd frame :=
  h.emitted frame (List.mem_of_getElem? hframe)

theorem linkStep_safe {sizeA sizeB : UInt16} (l : Link) (act : LinkAct)
    (h : l.a.Safe sizeA ∧ l.b.Safe sizeB) :
    (linkStep sizeA sizeB l act).1.a.Safe sizeA ∧ (linkStep sizeA sizeB l act).1.b.Safe sizeB := by
  have hcall {size : UInt16} {id : UInt32} (e : Entry) (ret : ℤ) : FfFits size id (e.op ret) := by
    cases e <;> trivial
  cases act with
  | callA e ret => exact ⟨h.1.does (hcall e ret), h.2⟩
  | callB e ret => exact ⟨h.1, h.2.does (hcall e ret)⟩
  | deliverToB beyond ret =>
    simp only [linkStep]
    split
    next => exact h
    next frame hframe =>
      obtain ⟨_, hemitted⟩ := h.1.next hframe
      exact ⟨h.1, h.2.does (hemitted.fits _ _ _ beyond ret)⟩
  | deliverToA beyond ret =>
    simp only [linkStep]
    split
    next => exact h
    next frame hframe =>
      obtain ⟨_, hemitted⟩ := h.2.next hframe
      exact ⟨h.1.does (hemitted.fits _ _ _ beyond ret), h.2⟩
  | loseToB | loseToA =>
    simp only [linkStep]
    split <;> exact h

theorem start_safe (rxBufferSize : UInt16) (mem : Node) (txId rxId : UInt32) :
    Station.Safe rxBufferSize ⟨tpIsotpInit mem true txId rxId, []⟩ where
  inv := init_nodeInv _ _ _ _
  rx := by simp [RxInv, tpIsotpInit]
  inBounds := by simp
  emitted := by simp

theorem linkRun_safe (sizeA sizeB : UInt16) (memA memB : Node) (idA idB : UInt32)
    (acts : List LinkAct) :
    (exec (linkStep sizeA sizeB) (linkStart memA memB idA idB) acts).a.Safe sizeA ∧
      (exec (linkStep sizeA sizeB) (linkStart memA memB idA idB) acts).b.Safe sizeB :=
  exec_invariant (I := fun l => l.a.Safe sizeA ∧ l.b.Safe sizeB)
    (fun l act hl _ => linkStep_safe l act hl)
    ⟨start_safe sizeA memA idA idB, start_safe sizeB memB idB idA⟩ (Along.trivial _ acts)

/-- Two linked transports never write outside their receive buffers, however small these are, whatever
their owners send and in whichever mode, and whatever the bus loses and the drivers refuse. -/
theorem link_stays_in_bounds (sizeA sizeB : UInt16) (memA memB : Node) (idA idB : UInt32)
    (acts : List LinkAct) :
    let l := exec (linkStep sizeA sizeB) (linkStart memA memB idA idB) acts
    (∀ o ∈ l.a.log, InBounds sizeA o) ∧ ∀ o ∈ l.b.log, InBounds sizeB o := by
  obtain ⟨ha, hb⟩ := linkRun_safe sizeA sizeB memA memB idA idB acts
  exact ⟨ha.inBounds, hb.inBounds⟩

end UdsLib.Isotp
