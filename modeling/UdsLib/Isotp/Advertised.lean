import UdsLib.Isotp.TxState

/-! The limits that a node advertises. The block size and STmin of its Flow Control frames are the fields
that it also obeys as a sender, so they are its own only as long as no peer has set others. -/
namespace UdsLib.Isotp
open Bytes Machine

/-- The block size and the STmin of `uds_tp_isotp_init`. -/
def ownLimits : UInt8 × UInt8 := (8, 0)

/-- A Flow Control frame that is emitted advertises the limits set at initialisation. -/
def AdvertisesOwn : Output → Prop
  | .canSend _ data _ => data.headD 0 &&& 0xF0 = 0x30 → (data.getD 1 0, data.getD 2 0) = ownLimits
  | _ => True

/-- A Flow Control frame clears the next block of a transmission that waits for it. -/
def Clears (n : Node) (f : RxFrame) : Prop :=
  f.id = n.iso.rxId ∧ pciOf f = .fc ∧ n.iso.state = .txWaitFc ∧ f.data 0 &&& 0x0F = 0

instance (n : Node) (f : RxFrame) : Decidable (Clears n f) := inferInstanceAs (Decidable (_ ∧ _))

/-- The limits of the last Flow Control frame that cleared a block for the node. -/
def noteLimits (peer : Option (UInt8 × UInt8)) (n : Node) : Op → Option (UInt8 × UInt8)
  | .rx f _ => if Clears n f then some (f.data 1, f.data 2) else peer
  | _ => peer

/-- A First Frame arrives that the node answers with a Flow Control frame. -/
def AnswersFf (rxBufferSize : UInt16) (n : Node) : Op → Prop
  | .rx f _ => f.id = n.iso.rxId ∧ pciOf f = .ff ∧ 8 ≤ ffSduLen f ∧ ffSduLen f ≤ rxBufferSize ∧
      n.iso.canSend = true
  | _ => False

/-- The condition for a call: a First Frame comes only while no peer's limits, or limits equal to the
node's own, are in force. -/
def FfUnderOwn (rxBufferSize : UInt16) (p : Node × Option (UInt8 × UInt8)) (op : Op) : Prop :=
  AnswersFf rxBufferSize p.1 op → p.2 = none ∨ p.2 = some ownLimits

variable {rxBufferSize : UInt16} {n : Node} {peer : Option (UInt8 × UInt8)} {o : Output}

/-- The limits in force are the peer's last ones, or those of the initialisation. -/
def LimitsOf (n : Node) (peer : Option (UInt8 × UInt8)) : Prop :=
  (n.iso.blockSize, n.iso.stMin) = peer.getD ownLimits

/-- The limits in force change with a Flow Control frame that clears a block, and with nothing else. -/
theorem rx_limits (rxBufferSize : UInt16) (n : Node) (f : RxFrame) (ret : ℤ) :
    let n' := (isotpRxCallback rxBufferSize n f ret).1
    (n'.iso.blockSize, n'.iso.stMin) =
      if Clears n f then (f.data 1, f.data 2) else (n.iso.blockSize, n.iso.stMin) := by
  have hother (h : pciOf f ≠ .fc) : ¬ Clears n f := fun hclears => h hclears.2.1
  unfold isotpRxCallback
  by_cases hid : f.id ≠ n.iso.rxId
  · rw [if_pos hid, if_neg fun h => hid h.1]
  rw [if_neg hid]
  cases hp : pciOf f with
  | sf =>
    rw [if_neg (hother (by rw [hp]; decide))]
    unfold rxSf
    dsimp only
    split_ifs <;> rfl
  | ff =>
    rw [if_neg (hother (by rw [hp]; decide))]
    unfold rxFf
    dsimp only
    split_ifs <;> rfl
  | cf =>
    rw [if_neg (hother (by rw [hp]; decide))]
    unfold rxCf
    dsimp only
    split_ifs <;> rfl
  | fc =>
    dsimp only
    unfold rxFc
    by_cases hs : n.iso.state = .txWaitFc
    · rw [if_neg (not_not_intro hs)]
      by_cases hcts : f.data 0 &&& 0x0F = 0
      · rw [if_pos hcts, if_pos ⟨not_not.mp hid, hp, hs, hcts⟩]
        rfl
      · rw [if_neg hcts, if_neg fun h => hcts h.2.2.2]
    · rw [if_pos hs, if_neg fun h => hs h.2.2.1]
  | other => rw [if_neg (hother (by rw [hp]; decide))]

theorem step_limits (op : Op) (hn : LimitsOf n peer) :
    LimitsOf (step rxBufferSize n op).1 (noteLimits peer n op) := by
  unfold LimitsOf at *
  cases op with
  | rx f ret =>
    have hrx := rx_limits rxBufferSize n f ret
    have hstep : (step rxBufferSize n (.rx f ret)).1 = (isotpRxCallback rxBufferSize n f ret).1 := rfl
    have hnote : noteLimits peer n (.rx f ret) =
        if Clears n f then some (f.data 1, f.data 2) else peer := rfl
    rw [hstep, hrx, hnote]
    split_ifs
    · rfl
    · exact hn
  | send data ret =>
    unfold step
    dsimp only
    generalize hr : isotpSend n data ret = r
    have heff := send_effect n data ret
    rw [hr] at heff
    cases heff <;> exact hn
  | process timeMs ret =>
    unfold step
    dsimp only
    generalize hr : tpIsotpProcess n timeMs ret = r
    have heff := process_effect n timeMs ret
    rw [hr] at heff
    cases heff <;> exact hn
  | setFd enabled => exact hn

/-! ### Flow Control frames -/

/-- The Flow Control frame that a node answers a First Frame with. -/
def fcFrame (iso : Ctx) : List UInt8 := [0x30 ||| 0, iso.blockSize, iso.stMin, 0, 0, 0, 0, 0]

/-- An answered First Frame is answered with the limits in force. -/
theorem rxFf_answers (f : RxFrame) (ret : ℤ) (hlen : 8 ≤ ffSduLen f)
    (hfits : ffSduLen f ≤ rxBufferSize) :
    (rxFf rxBufferSize n f ret).2 =
      .rxWrite 0 (dataInFf f.len).toNat :: (tpSendFrame n.iso (fcFrame n.iso) ret).2 := by
  unfold rxFf
  dsimp only
  rw [if_neg (UInt16.not_lt.mpr hlen), if_neg (UInt16.not_lt.mpr hfits)]
  rfl

theorem rx_fc (f : RxFrame) (ret : ℤ) (ho : o ∈ (isotpRxCallback rxBufferSize n f ret).2)
    (hfc : o.kind? = some 0x30) :
    AnswersFf rxBufferSize n (.rx f ret) ∧ o = .canSend n.iso.txId (fcFrame n.iso) ret := by
  unfold isotpRxCallback at ho
  split_ifs at ho with hid
  · cases ho
  cases hp : pciOf f with
  | sf =>
    rw [hp] at ho
    rw [rxSf_kind n f o ho] at hfc
    cases hfc
  | ff =>
    rw [hp] at ho
    dsimp only at ho
    by_cases hlen : 8 ≤ ffSduLen f
    · by_cases hfits : ffSduLen f ≤ rxBufferSize
      · rw [rxFf_answers f ret hlen hfits] at ho
        rcases List.mem_cons.mp ho with rfl | ho
        · cases hfc
        · refine ⟨⟨not_not.mp hid, hp, hlen, hfits, ?_⟩, tpSendFrame_mem ho⟩
          by_contra hnone
          unfold tpSendFrame at ho
          rw [if_neg hnone] at ho
          cases ho
      · unfold rxFf at ho
        dsimp only at ho
        rw [if_neg (UInt16.not_lt.mpr hlen), if_pos (UInt16.not_le.mp hfits)] at ho
        cases ho
    · unfold rxFf at ho
      dsimp only at ho
      rw [if_pos (UInt16.not_le.mp hlen)] at ho
      cases ho
  | cf =>
    rw [hp] at ho
    rw [rxCf_kind n f o ho] at hfc
    cases hfc
  | fc =>
    rw [hp] at ho
    cases ho
  | other =>
    rw [hp] at ho
    cases ho

theorem answersFf_emits {op : Op} (h : AnswersFf rxBufferSize n op) :
    ∃ ret, .canSend n.iso.txId (fcFrame n.iso) ret ∈ (step rxBufferSize n op).2 := by
  cases op with
  | rx f ret =>
    obtain ⟨hid, hp, hlen, hfits, hcan⟩ := h
    refine ⟨ret, ?_⟩
    rw [step_rx rxBufferSize ret hid, hp]
    dsimp only
    rw [rxFf_answers f ret hlen hfits, tpSendFrame, if_pos hcan]
    exact List.mem_cons_of_mem _ (List.mem_singleton.mpr rfl)
  | _ => exact h.elim

theorem advertisesOwn_kind (h : o.kind? ≠ some 0x30) : AdvertisesOwn o := by
  cases o with
  | canSend id data ret => exact fun hkind => absurd (congrArg some hkind) h
  | _ => trivial

/-- A call advertises other limits just if it answers a First Frame while others are in force. -/
theorem step_advertises (op : Op) (hsn : n.iso.sn.toNat < 16) :
    (∀ o ∈ (step rxBufferSize n op).2, AdvertisesOwn o) ↔
      (AnswersFf rxBufferSize n op → (n.iso.blockSize, n.iso.stMin) = ownLimits) := by
  constructor
  · intro h hff
    obtain ⟨ret, hmem⟩ := answersFf_emits hff
    have hkind : (0x30 ||| 0 : UInt8) &&& 0xF0 = 0x30 := by decide
    exact h _ hmem hkind
  · intro h o ho
    by_cases hfc : o.kind? = some 0x30
    · cases op with
      | rx f ret =>
        obtain ⟨hff, rfl⟩ := rx_fc f ret ho hfc
        exact fun _ => h hff
      | send data ret =>
        rcases List.mem_append.mp ho with ho | ho
        · rcases send_kind data ret ho with hkind | hkind
          · rw [hkind] at hfc
            exact absurd (Option.some.inj hfc) (by decide)
          · rw [hkind] at hfc
            exact absurd (Option.some.inj hfc) (by decide)
        · rw [List.mem_singleton.mp ho]
          trivial
      | process timeMs ret =>
        have hkind := congrArg some (cfFrame_kind n hsn)
        rw [(process_frame timeMs ret ho).2] at hfc
        exact absurd (Option.some.inj (hkind.symm.trans hfc)) (by decide)
      | setFd enabled => cases ho
    · exact advertisesOwn_kind hfc

/-! ### Runs -/

/-- A run advertises only the limits set at initialisation exactly if no First Frame is answered while
other limits of a peer are in force. -/
theorem advertised_limits_iff (rxBufferSize : UInt16) (mem : Node) (canSend : Bool)
    (txId rxId : UInt32) (ops : List Op) :
    (∀ o ∈ trace (step rxBufferSize) (tpIsotpInit mem canSend txId rxId) ops, AdvertisesOwn o) ↔
      Along (recorded (step rxBufferSize) noteLimits) (FfUnderOwn rxBufferSize)
        (tpIsotpInit mem canSend txId rxId, none) ops := by
  have hinit : LimitsOf (tpIsotpInit mem canSend txId rxId) none ∧
      NodeInv (tpIsotpInit mem canSend txId rxId) := ⟨rfl, init_nodeInv mem canSend txId rxId⟩
  have hrun : trace (recorded (step rxBufferSize) noteLimits) (tpIsotpInit mem canSend txId rxId, none)
      ops = trace (step rxBufferSize) (tpIsotpInit mem canSend txId rxId) ops :=
    (recorded_run noteLimits _ none ops).2
  rw [← hrun, forall_trace_iff]
  refine along_congr (I := fun p : Node × Option (UInt8 × UInt8) => LimitsOf p.1 p.2 ∧ NodeInv p.1)
    ?_ ?_ hinit
  · intro p op hp _
    exact ⟨step_limits op hp.1, step_nodeInv rxBufferSize p.1 op hp.2⟩
  · intro p op hp
    have hown : (p.1.iso.blockSize, p.1.iso.stMin) = ownLimits ↔
        p.2 = none ∨ p.2 = some ownLimits := by
      rw [hp.1]
      cases p.2 with
      | none => simp
      | some limits => simp
    unfold FfUnderOwn
    rw [← hown]
    exact step_advertises op hp.2.sn_lt

/-- A block size of 2 and 20 ms, received for an own message. -/
def slowCts : RxFrame := .ofBytes 2 [0x30, 0x02, 0x14, 0, 0, 0, 0, 0] fun _ => 0

/-- The First Frame of a message of ten bytes. -/
def tenFf : RxFrame := .ofBytes 2 [0x10, 0x0A, 1, 2, 3, 4, 5, 6] fun _ => 0

/-- A reception before anything is sent. -/
theorem first_reception_own :
    ∀ o ∈ trace (step 64) (tpIsotpInit zeroNode true 1 2) [.rx tenFf 0], AdvertisesOwn o :=
  (advertised_limits_iff 64 zeroNode true 1 2 [.rx tenFf 0]).mpr ⟨fun _ => .inl rfl, trivial⟩

/-- A reception behind a transmission advertises the peer's limits. -/
theorem peer_limits_advertised :
    ¬ ∀ o ∈ trace (step 64) (tpIsotpInit zeroNode true 1 2)
      [.send eightBytes 0, .rx slowCts 0, .rx tenFf 0], AdvertisesOwn o := by
  intro h
  have hmem : Output.canSend 1 [0x30, 0x02, 0x14, 0, 0, 0, 0, 0] 0 ∈
      trace (step 64) (tpIsotpInit zeroNode true 1 2)
        [.send eightBytes 0, .rx slowCts 0, .rx tenFf 0] := by decide
  exact absurd (h _ hmem (by decide)) (by decide)

end UdsLib.Isotp
