import UdsLib.Isotp.RoundTrip

/-! The block handshake: a peer that clears each block once, and a sender that notices the
end of a block only on the process call after its last Consecutive Frame. -/
namespace UdsLib.Isotp
open Bytes Machine

/-- A sender and its peer: the payload bytes the peer still misses, the Consecutive Frames it
received in this block and its Flow Control frames that have not arrived yet. -/
structure Talk where
  sender : Node
  missing : ℕ
  inBlock : ℕ
  inFlight : ℕ

inductive TalkAct where
  | deliver (stMin : UInt8) (beyond : ℕ → UInt8)
  | process (timeMs : UInt32)

/-- The peer receives a Consecutive Frame and clears the next block if data remains. -/
def peerTake (blockSize : UInt8) (s : Talk) (frame : List UInt8) : Talk :=
  let missing := s.missing - (frame.length - 1)
  if missing = 0 then { s with missing := 0 }
  else if s.inBlock + 1 = blockSize.toNat then
    { s with missing := missing, inBlock := 0, inFlight := s.inFlight + 1 }
  else { s with missing := missing, inBlock := s.inBlock + 1 }

def talkStep (rxBufferSize : UInt16) (blockSize : UInt8) (s : Talk) : TalkAct → Talk × List Output
  | .deliver stMin beyond =>
    if s.inFlight = 0 then (s, [])
    else
      let f := RxFrame.ofBytes s.sender.iso.rxId [0x30, blockSize, stMin, 0, 0, 0, 0, 0] beyond
      let r := step rxBufferSize s.sender (.rx f 0)
      ({ s with sender := r.1, inFlight := s.inFlight - 1 }, r.2)
  | .process timeMs =>
    let r := tpIsotpProcess s.sender timeMs 0
    ((framesOf r.2).foldl (peerTake blockSize) { s with sender := r.1 }, r.2)

/-- `uds_isotp_send` was called and the peer answered the First Frame. -/
def talkStart (n : Node) (data : Sdu) : Talk where
  sender := (isotpSend n data 0).2.1
  missing := data.bytes.length - ((ffFrame n.iso.useCanFd data).length - 2)
  inBlock := 0
  inFlight := 1

/-- Once all Flow Control frames have arrived and data remains, the sender neither waits for
another one nor is about to. -/
def NotAbandoned (s : Talk) : Prop :=
  s.inFlight = 0 → s.missing ≠ 0 →
    s.sender.iso.state ≠ .txWaitFc ∧ ¬ (s.sender.iso.state = .txSendingCf ∧ blockDone s.sender.iso)

/-- A Flow Control frame arrives only once the sender has noticed the end of its block. -/
def FcInTime (s : Talk) : TalkAct → Prop
  | .deliver _ _ => s.inFlight ≠ 0 → s.sender.iso.state = .txWaitFc
  | .process _ => True

/-- The phases of a talk in which no Flow Control frame came early. -/
inductive TalkPhase (blockSize : UInt8) (s : Talk) : Prop where
  | waiting : s.sender.iso.state = .txWaitFc → s.sender.iso.bsCounter = 0 → s.inBlock = 0 →
      s.inFlight = 1 → TalkPhase blockSize s
  | running : s.sender.iso.state = .txSendingCf → s.sender.iso.blockSize = blockSize →
      s.sender.iso.bsCounter.toNat = s.inBlock → s.inBlock < blockSize.toNat → s.inFlight = 0 →
      TalkPhase blockSize s
  | blockOver : s.sender.iso.state = .txSendingCf → s.sender.iso.blockSize = blockSize →
      s.sender.iso.bsCounter = blockSize → s.inBlock = 0 → s.inFlight = 1 → TalkPhase blockSize s
  | complete : s.sender.iso.state = .idle → s.missing = 0 → s.inFlight = 0 → TalkPhase blockSize s

structure TalkInv (blockSize : UInt8) (s : Talk) : Prop where
  canSend : s.sender.iso.canSend = true
  tx : TxInv s.sender
  missing : s.sender.Sending → s.missing = (unsentBytes s.sender).length
  phase : TalkPhase blockSize s

variable {blockSize : UInt8} {s : Talk}

theorem TalkInv.missing_pos (h : TalkInv blockSize s) (hs : s.sender.Sending) : s.missing ≠ 0 := by
  rw [h.missing hs]
  exact fun h0 => unsentBytes_ne_nil hs h.tx (List.length_eq_zero_iff.mp h0)

theorem TalkInv.not_abandoned (h : TalkInv blockSize s) : NotAbandoned s := by
  intro hflight hmissing
  cases h.phase with
  | waiting _ _ _ h1 => omega
  | blockOver _ _ _ _ h1 => omega
  | complete _ h0 => exact absurd h0 hmissing
  | running hs hb hcount hlt =>
    refine ⟨by simp [hs], ?_⟩
    rintro ⟨-, -, hge⟩
    rw [ge_iff_le, UInt8.le_iff_toNat_le, hb] at hge
    omega

/-- The payload a peer counts in a Consecutive Frame, capped by what it misses, is the
payload the sender put into it. -/
theorem peer_missing {n : Node} (h : n.Sending) (hn : TxInv n) (timeMs : UInt32) :
    (unsentBytes n).length - ((cfFrame n.iso.useCanFd n.iso.sn (cfPayload n)).length - 1) =
      (unsentBytes (cfSent n timeMs)).length := by
  have hpay := cfPayload_eq_take h hn
  have hlen : (cfPayload n).length =
      min (maxCfPayload n.iso.useCanFd).toNat (unsentBytes n).length := by
    rw [hpay, List.length_take]
  obtain ⟨pad, hframe, -, hfull⟩ := cfFrame_shape n.iso.useCanFd n.iso.sn (cfPayload n) (by omega)
  rw [unsentBytes_cfSent h hn, List.length_drop, hframe, List.length_append, List.length_cons]
  by_cases hmax : (cfPayload n).length = (maxCfPayload n.iso.useCanFd).toNat
  · rw [hfull hmax, List.length_nil]
    omega
  · omega

/-- A process call keeps the handshake. -/
theorem TalkInv.process (rxBufferSize : UInt16) (hpos : 0 < blockSize) (h : TalkInv blockSize s)
    (timeMs : UInt32) :
    TalkInv blockSize (talkStep rxBufferSize blockSize s (.process timeMs)).1 := by
  simp only [talkStep]
  generalize hr : tpIsotpProcess s.sender timeMs 0 = r
  have heff := process_effect s.sender timeMs 0
  rw [hr] at heff
  cases heff with
  | notSending | early => exact h
  | drained hs hempty =>
    have hlt := h.tx (Or.inr hs)
    rw [hempty] at hlt
    omega
  | refused _ _ _ _ hfail => exact absurd rfl (hfail h.canSend)
  | blockEnd hs _ _ hbs =>
    refine ⟨h.canSend, fun _ => h.tx (Or.inr hs), fun _ => h.missing (Or.inr hs), ?_⟩
    cases h.phase with
    | waiting ha | complete ha => simp [hs] at ha
    | running _ hb hcount hlt =>
      have hge := UInt8.le_iff_toNat_le.mp hbs.2
      rw [hb] at hge
      omega
    | blockOver _ _ _ h0 h1 => exact .waiting rfl rfl h0 h1
  | sent hs _ _ hbs =>
    have hsend : s.sender.Sending := Or.inr hs
    have htx' := (cfSent_unsent hs h.tx timeMs).2
    have hstate := cfSent_state hs timeMs
    have hmissing := peer_missing hsend h.tx timeMs
    rw [← h.missing hsend] at hmissing
    have hphase : s.sender.iso.blockSize = blockSize ∧
        s.sender.iso.bsCounter.toNat = s.inBlock ∧ s.inBlock < blockSize.toNat ∧
        s.inFlight = 0 := by
      cases h.phase with
      | waiting ha | complete ha => simp [hs] at ha
      | running _ hb hcount hlt h0 => exact ⟨hb, hcount, hlt, h0⟩
      | blockOver _ hb hcount =>
        refine absurd ⟨?_, ?_⟩ hbs
        · rwa [hb]
        · rw [hb, hcount]
          exact UInt8.le_refl _
    obtain ⟨hb, hcount, hlt, h0⟩ := hphase
    have hbs256 := blockSize.toNat_lt
    have hcount' : (cfSent s.sender timeMs).iso.bsCounter.toNat = s.inBlock + 1 := by
      show (s.sender.iso.bsCounter + 1).toNat = _
      rw [UInt8.toNat_add, hcount]
      show (_ + 1) % 256 = _
      omega
    simp only [framesOf_canSend, List.foldl_cons, List.foldl_nil, peerTake, hmissing]
    split_ifs with hdone hfull
    · rw [if_pos (List.length_eq_zero_iff.mp hdone)] at hstate
      exact ⟨h.canSend, htx', fun hs' => by simp [Node.Sending, hstate] at hs',
        .complete hstate rfl h0⟩
    · rw [if_neg fun hnil => hdone (List.length_eq_zero_iff.mpr hnil)] at hstate
      have hbs' : (cfSent s.sender timeMs).iso.bsCounter = blockSize :=
        UInt8.toNat.inj (hcount'.trans hfull)
      exact ⟨h.canSend, htx', fun _ => rfl, .blockOver hstate hb hbs' rfl (by simp [h0])⟩
    · rw [if_neg fun hnil => hdone (List.length_eq_zero_iff.mpr hnil)] at hstate
      exact ⟨h.canSend, htx', fun _ => rfl, .running hstate hb hcount' (by simp only; omega) h0⟩

/-- The arrival of a Flow Control frame keeps the handshake when the sender waits for it. -/
theorem TalkInv.deliver (rxBufferSize : UInt16) (hpos : 0 < blockSize) (h : TalkInv blockSize s)
    (stMin : UInt8) (beyond : ℕ → UInt8) (htime : FcInTime s (.deliver stMin beyond)) :
    TalkInv blockSize (talkStep rxBufferSize blockSize s (.deliver stMin beyond)).1 := by
  simp only [talkStep]
  split_ifs with hflight
  · exact h
  · have hs : s.sender.iso.state = .txWaitFc := htime hflight
    have hcts : IsCts s.sender.iso.rxId (.ofBytes s.sender.iso.rxId
        [0x30, blockSize, stMin, 0, 0, 0, 0, 0] beyond) := ⟨rfl, rfl⟩
    rw [cts_step rxBufferSize 0 hcts, if_pos hs]
    cases h.phase with
    | running ha | blockOver ha | complete ha => simp [hs] at ha
    | waiting _ hcount hblock hone =>
      refine ⟨h.canSend, fun _ => h.tx (Or.inl hs), fun _ => h.missing (Or.inl hs),
        .running rfl rfl ?_ ?_ ?_⟩
      · show s.sender.iso.bsCounter.toNat = s.inBlock
        rw [hcount, hblock]
        rfl
      · show s.inBlock < _
        rw [hblock]
        exact UInt8.lt_iff_toNat_lt.mp hpos
      · simp only [hone]

/-- A Flow Control frame that arrives before the sender noticed the end of its block is lost,
and the peer owes no other one. -/
theorem TalkInv.early_fc (rxBufferSize : UInt16) (hpos : 0 < blockSize) (h : TalkInv blockSize s)
    (act : TalkAct) (hearly : ¬ FcInTime s act) :
    ¬ NotAbandoned (talkStep rxBufferSize blockSize s act).1 := by
  cases act with
  | process timeMs => exact absurd trivial hearly
  | deliver stMin beyond =>
    simp only [FcInTime, Classical.not_imp] at hearly
    obtain ⟨hflight, hs⟩ := hearly
    have hcts : IsCts s.sender.iso.rxId (.ofBytes s.sender.iso.rxId
        [0x30, blockSize, stMin, 0, 0, 0, 0, 0] beyond) := ⟨rfl, rfl⟩
    simp only [talkStep, if_neg hflight, cts_step rxBufferSize 0 hcts, if_neg hs]
    cases h.phase with
    | waiting ha => exact absurd ha hs
    | running _ _ _ _ h0 | complete _ _ h0 => exact absurd h0 hflight
    | blockOver hsend hb hcount _ hone =>
      intro hkept
      refine (hkept (by simp only [hone]) (h.missing_pos (Or.inr hsend))).2 ⟨hsend, ?_, ?_⟩
      · rwa [hb]
      · rw [hb, hcount]
        exact UInt8.le_refl _

/-! ### The first segmented transmission -/

/-- The call does not start a segmented transmission. -/
def StartsNone (n : Node) : Op → Prop
  | .send data _ => FitsSf n.iso.useCanFd data ∨ 1024 < data.bytes.length
  | _ => True

/-- Before the first segmented transmission the block counter is 0. -/
structure NotStarted (n : Node) : Prop where
  idle : ¬ n.Sending
  counter : n.iso.bsCounter = 0

theorem notStarted_step (rxBufferSize : UInt16) (n : Node) (op : Op) (h : NotStarted n)
    (hop : StartsNone n op) : NotStarted (step rxBufferSize n op).1 := by
  have hidle : n.iso.state ≠ .txWaitFc ∧ n.iso.state ≠ .txSendingCf :=
    not_or.mp h.idle
  cases op with
  | rx f ret =>
    simp only [step, isotpRxCallback]
    split_ifs
    · exact h
    · cases pciOf f with
      | sf =>
        simp only [rxSf_idle]
        exact ⟨by simp [Node.Sending, Node.setState], h.counter⟩
      | ff =>
        unfold rxFf
        dsimp only
        split_ifs <;> exact ⟨by simp [Node.Sending], h.counter⟩
      | cf =>
        unfold rxCf
        dsimp only
        split_ifs
        · exact h
        · exact ⟨by simp [Node.Sending], h.counter⟩
        · exact ⟨by simp [Node.Sending], h.counter⟩
        · exact ⟨by simpa [Node.Sending] using hidle, h.counter⟩
      | fc =>
        simp only [rxFc, if_pos hidle.1]
        exact h
      | other => exact h
  | send data ret =>
    simp only [step, isotpSend, sendSf, sendMf]
    by_cases hfit : data.len ≤ (maxSfLen n.iso.useCanFd).toUInt16
    · rw [if_pos hfit]
      exact h
    · have hlarge : data.len > 4095 ∨ data.len > 1024 := by
        right
        rw [gt_iff_lt, UInt16.lt_iff_toNat_lt, Sdu.len_toNat]
        exact hop.resolve_left hfit
      rw [if_neg hfit, if_pos hlarge]
      exact h
  | process timeMs ret =>
    simp only [step, tpIsotpProcess, if_neg hidle.2]
    exact h
  | setFd enabled => exact ⟨h.idle, h.counter⟩

/-- The peer answers the First Frame of the first segmented transmission. -/
theorem talkStart_inv {n : Node} {data : Sdu} (hn : NotStarted n) (hc : n.iso.canSend = true)
    (hlong : ¬ FitsSf n.iso.useCanFd data) (hsend : (isotpSend n data 0).1 = 0) :
    TalkInv blockSize (talkStart n data) := by
  have hsent := (isotpSend_long hc hlong hsend).2
  have hff := (ffFrame_shape n.iso.useCanFd data hlong).2.1
  have hbytes := mfStarted_unsentBytes n data hlong
  simp only [talkStart, hsent]
  refine ⟨hc, (mfStarted_unsent n data hlong).2, fun _ => ?_, .waiting rfl hn.counter rfl rfl⟩
  simp only [hbytes, hff, List.length_drop]
  omega

/-- In the first segmented transmission after `uds_tp_isotp_init`, no Flow Control frame is
lost exactly when each one arrives after the process call that noticed the end of its block. -/
theorem no_fc_lost_iff (rxBufferSize : UInt16) (mem : Node) (txId rxId : UInt32)
    (earlier : List Op) (data : Sdu) (blockSize : UInt8) (acts : List TalkAct) :
    let n := exec (step rxBufferSize) (tpIsotpInit mem true txId rxId) earlier
    Along (step rxBufferSize) StartsNone (tpIsotpInit mem true txId rxId) earlier →
      0 < blockSize → ¬ FitsSf n.iso.useCanFd data → (isotpSend n data 0).1 = 0 →
      (Always (talkStep rxBufferSize blockSize) NotAbandoned (talkStart n data) acts ↔
        Along (talkStep rxBufferSize blockSize) FcInTime (talkStart n data) acts) := by
  intro n hearlier hpos hlong hsend
  have hinit : NotStarted (tpIsotpInit mem true txId rxId) :=
    ⟨by simp [Node.Sending, tpIsotpInit], rfl⟩
  have hn : NotStarted n := exec_invariant (notStarted_step rxBufferSize) hinit hearlier
  have hc : n.iso.canSend = true := (exec_ids rxBufferSize _ earlier).2.2
  refine always_iff_along (I := TalkInv blockSize) (fun s h => h.not_abandoned) ?_ ?_
    (talkStart_inv hn hc hlong hsend)
  · intro s act h htime
    cases act with
    | deliver stMin beyond => exact h.deliver rxBufferSize hpos stMin beyond htime
    | process timeMs => exact h.process rxBufferSize hpos timeMs
  · intro s act h hearly
    exact h.early_fc rxBufferSize hpos act hearly

/-- 20 bytes with a block size of 1: First Frame and two Consecutive Frames. -/
def twentyBytes : Sdu := ⟨List.replicate 20 0x55, by decide⟩

/-- Each Flow Control frame waits for a process call. -/
def patientActs : List TalkAct :=
  [.process 0, .deliver 0 fun _ => 0, .process 1, .process 2, .deliver 0 fun _ => 0, .process 3]

theorem patient_no_fc_lost :
    Always (talkStep 64 1) NotAbandoned (talkStart (tpIsotpInit zeroNode true 1 2) twentyBytes)
      patientActs :=
  (no_fc_lost_iff 64 zeroNode 1 2 [] twentyBytes 1 patientActs trivial (by decide) (by decide)
    (by decide)).mpr ⟨trivial, fun _ => rfl, trivial, trivial, fun _ => rfl, trivial, trivial⟩

/-- The peer answers the last Consecutive Frame of a block before the next process call. -/
def promptActs : List TalkAct :=
  [.deliver 0 fun _ => 0, .process 1, .deliver 0 fun _ => 0]

theorem prompt_fc_lost :
    ¬ Always (talkStep 64 1) NotAbandoned (talkStart (tpIsotpInit zeroNode true 1 2) twentyBytes)
      promptActs := by
  intro h
  exact (h promptActs (List.prefix_refl _) rfl (by decide)).2 ⟨by decide, by decide⟩

end UdsLib.Isotp
