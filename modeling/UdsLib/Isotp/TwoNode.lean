import UdsLib.Isotp.RoundTrip

/-! Two nodes that both run this transport over a lossless FIFO medium: the receiver
advertises a block size and never speaks again, so the sender stalls when a block ends. -/
namespace UdsLib.Isotp
open Bytes Machine

/-- The nodes `a` and `b` and the frames in flight between them, oldest first. -/
structure Net where
  a : Node
  b : Node
  ab : List (List UInt8)
  ba : List (List UInt8)

/-- The medium delivers the oldest frame of a direction (`beyond` is the memory behind it),
or a node's process function runs. -/
inductive NetAct where
  | deliverAB (beyond : ℕ → UInt8)
  | deliverBA (beyond : ℕ → UInt8)
  | processA (timeMs : UInt32)
  | processB (timeMs : UInt32)

def netStep (sizeA sizeB : UInt16) (s : Net) : NetAct → Net × List Output
  | .deliverAB beyond =>
    match s.ab with
    | [] => (s, [])
    | frame :: rest =>
      let r := step sizeB s.b (.rx (.ofBytes s.a.iso.txId frame beyond) 0)
      ({ s with b := r.1, ab := rest, ba := s.ba ++ framesOf r.2 }, r.2)
  | .deliverBA beyond =>
    match s.ba with
    | [] => (s, [])
    | frame :: rest =>
      let r := step sizeA s.a (.rx (.ofBytes s.b.iso.txId frame beyond) 0)
      ({ s with a := r.1, ba := rest, ab := s.ab ++ framesOf r.2 }, r.2)
  | .processA timeMs =>
    let r := tpIsotpProcess s.a timeMs 0
    ({ s with a := r.1, ab := s.ab ++ framesOf r.2 }, r.2)
  | .processB timeMs =>
    let r := tpIsotpProcess s.b timeMs 0
    ({ s with b := r.1, ba := s.ba ++ framesOf r.2 }, r.2)

/-- `uds_isotp_send` was called on `a`. -/
def netStart (a b : Node) (data : Sdu) : Net where
  a := (isotpSend a data 0).2.1
  b := b
  ab := framesOf (isotpSend a data 0).2.2
  ba := []

/-- No frame is in flight and each node waits for the other one. -/
def Stuck (s : Net) : Prop :=
  s.ab = [] ∧ s.ba = [] ∧ s.a.iso.state = .txWaitFc ∧ s.b.iso.state = .rxWaitCf

instance (s : Net) : Decidable (Stuck s) := inferInstanceAs (Decidable (_ ∧ _))

/-- No schedule gets the transfer of `data` from `a` to `b` stuck. -/
def DeadlockFree (sizeA sizeB : UInt16) (a b : Node) (data : Sdu) : Prop :=
  ∀ acts, ¬ Stuck (exec (netStep sizeA sizeB) (netStart a b data) acts)

/-- Each node sends under the identifier the other one listens to. -/
structure Paired (a b : Node) : Prop where
  canSendA : a.iso.canSend = true
  canSendB : b.iso.canSend = true
  toB : b.iso.rxId = a.iso.txId
  toA : a.iso.rxId = b.iso.txId

theorem Paired.of_ids {a a' b b' : Node} (h : Paired a b)
    (ha : a'.iso.rxId = a.iso.rxId ∧ a'.iso.txId = a.iso.txId ∧ a'.iso.canSend = a.iso.canSend)
    (hb : b'.iso.rxId = b.iso.rxId ∧ b'.iso.txId = b.iso.txId ∧ b'.iso.canSend = b.iso.canSend) :
    Paired a' b' :=
  ⟨ha.2.2.trans h.canSendA, hb.2.2.trans h.canSendB, by rw [hb.1, ha.2.1, h.toB],
    by rw [ha.1, hb.2.1, h.toA]⟩

theorem process_ids (n : Node) (timeMs : UInt32) (ret : ℤ) :
    let n' := (tpIsotpProcess n timeMs ret).1
    n'.iso.rxId = n.iso.rxId ∧ n'.iso.txId = n.iso.txId ∧ n'.iso.canSend = n.iso.canSend :=
  step_ids 0 n (.process timeMs ret)

/-- The block counter still allows everything that is unsent. -/
def BlockSuffices (blockSize : UInt8) (n : Node) : Prop :=
  blockSize = 0 ∨ n.iso.bsCounter.toNat + (unsent n).length ≤ blockSize.toNat

/-- The frame is a Consecutive Frame, whatever it carries. -/
def IsCfFrame (frame : List UInt8) : Prop :=
  ∃ (sn : UInt8) (payload : List UInt8), sn.toNat < 16 ∧ frame = (0x20 ||| sn) :: payload

theorem cfFrame_isCfFrame (n : Node) (hsn : n.iso.sn.toNat < 16) (h : n.Sending) (hn : TxInv n) :
    IsCfFrame (cfFrame n.iso.useCanFd n.iso.sn (cfPayload n)) := by
  have hle : (cfPayload n).length ≤ (maxCfPayload n.iso.useCanFd).toNat := by
    rw [cfPayload_eq_take h hn, List.length_take]
    exact Nat.min_le_left _ _
  obtain ⟨pad, hframe, -⟩ := cfFrame_shape n.iso.useCanFd n.iso.sn _ hle
  exact ⟨n.iso.sn, cfPayload n ++ pad, hsn, hframe⟩

theorem flowControl_isCts (id : UInt32) (blockSize stMin : UInt8) (beyond : ℕ → UInt8) :
    IsCts id (.ofBytes id [0x30, blockSize, stMin, 0, 0, 0, 0, 0] beyond) :=
  ⟨rfl, rfl⟩

/-- A node that is not sending answers a Consecutive Frame with silence. -/
theorem cf_silent (rxBufferSize : UInt16) (n : Node) (frame : List UInt8) (beyond : ℕ → UInt8)
    (hcf : IsCfFrame frame) (hs : ¬ n.Sending) :
    let r := step rxBufferSize n (.rx (.ofBytes n.iso.rxId frame beyond) 0)
    framesOf r.2 = [] ∧ ¬ r.1.Sending := by
  obtain ⟨sn, payload, hsn, rfl⟩ := hcf
  have hkind : pciOf (.ofBytes n.iso.rxId ((0x20 ||| sn) :: payload) beyond) = .cf := by
    have h0 : (RxFrame.ofBytes n.iso.rxId ((0x20 ||| sn) :: payload) beyond).data 0 = 0x20 ||| sn :=
      rfl
    unfold pciOf
    rw [h0, (cfPci sn hsn).1]
    rfl
  simp only [step_ofBytes, hkind]
  unfold rxCf
  dsimp only
  split_ifs with hw hnum hdone
  · exact ⟨rfl, hs⟩
  · exact ⟨rfl, by simp [Node.Sending]⟩
  · exact ⟨rfl, by simp [Node.Sending]⟩
  · exact ⟨rfl, by simp [Node.Sending, not_not.mp hw]⟩

/-! ### One block suffices -/

/-- The phases of a transfer whose only block is large enough. -/
inductive Phase (useCanFd : Bool) (data : Sdu) (blockSize : UInt8) (s : Net) : Prop where
  | opening : s.ab = [ffFrame useCanFd data] → s.ba = [] → s.a.iso.state = .txWaitFc →
      s.b.iso.blockSize = blockSize → Phase useCanFd data blockSize s
  | clearing (stMin : UInt8) : s.ab = [] → s.ba = [[0x30, blockSize, stMin, 0, 0, 0, 0, 0]] →
      s.a.iso.state = .txWaitFc → Phase useCanFd data blockSize s
  | streaming : s.ba = [] → (∀ frame ∈ s.ab, IsCfFrame frame) → s.a.iso.state = .txSendingCf →
      s.a.iso.blockSize = blockSize → Phase useCanFd data blockSize s
  | finished : s.ba = [] → (∀ frame ∈ s.ab, IsCfFrame frame) → s.a.iso.state = .idle →
      Phase useCanFd data blockSize s

/-- What holds along a transfer whose only block is large enough. -/
structure OneBlock (useCanFd : Bool) (data : Sdu) (blockSize : UInt8) (s : Net) : Prop where
  paired : Paired s.a s.b
  inv : NodeInv s.a
  enough : BlockSuffices blockSize s.a
  receiver : ¬ s.b.Sending
  phase : Phase useCanFd data blockSize s

variable {useCanFd : Bool} {data : Sdu} {blockSize : UInt8} {s : Net}

theorem OneBlock.not_stuck (h : OneBlock useCanFd data blockSize s) : ¬ Stuck s := by
  rintro ⟨hab, hba, ha, -⟩
  cases h.phase with
  | opening hab' => simp [hab] at hab'
  | clearing _ _ hba' => simp [hba] at hba'
  | streaming _ _ ha' => simp [ha] at ha'
  | finished _ _ ha' => simp [ha] at ha'

theorem unsent_ne_nil {n : Node} (h : n.Sending) (hn : TxInv n) : 0 < (unsent n).length := by
  rw [unsent_of_sending h, cfFrames_of_ne_nil _ _ (unsentBytes_ne_nil h hn), List.length_cons]
  exact Nat.succ_pos _

theorem cfSent_bsCounter {n : Node} (hs : n.iso.state = .txSendingCf) (hn : TxInv n)
    (timeMs : UInt32) (hsuff : BlockSuffices blockSize n) :
    BlockSuffices blockSize (cfSent n timeMs) := by
  rcases hsuff with h0 | hle
  · exact Or.inl h0
  · right
    have hlen := congrArg List.length (cfSent_unsent hs hn timeMs).1
    rw [List.length_cons] at hlen
    have hb := blockSize.toNat_lt
    have hcount : (cfSent n timeMs).iso.bsCounter.toNat = n.iso.bsCounter.toNat + 1 := by
      show (n.iso.bsCounter + 1).toNat = _
      rw [UInt8.toNat_add]
      show (_ + 1) % 256 = _
      omega
    omega

/-- A process call of the sender keeps the transfer going. -/
theorem OneBlock.processA (sizeA sizeB : UInt16) (h : OneBlock useCanFd data blockSize s)
    (timeMs : UInt32) :
    OneBlock useCanFd data blockSize (netStep sizeA sizeB s (.processA timeMs)).1 := by
  have hids := process_ids s.a timeMs 0
  have hinv := process_nodeInv s.a timeMs 0 h.inv
  simp only [netStep]
  generalize hr : tpIsotpProcess s.a timeMs 0 = r at hids hinv
  have heff := process_effect s.a timeMs 0
  rw [hr] at heff
  have hpair := h.paired.of_ids hids ⟨rfl, rfl, rfl⟩
  cases heff with
  | notSending | early =>
    simp only [framesOf_nil, List.append_nil]
    exact h
  | drained hs hempty =>
    have := h.inv.tx (Or.inr hs)
    rw [hempty] at this
    omega
  | blockEnd hs _ _ hbs =>
    have hphase : s.a.iso.blockSize = blockSize := by
      cases h.phase with
      | streaming _ _ _ hb => exact hb
      | opening _ _ ha | clearing _ _ _ ha | finished _ _ ha => simp [hs] at ha
    have hpos := unsent_ne_nil (Or.inr hs) h.inv.tx
    rcases h.enough with h0 | hle
    · exact absurd hbs.1 (by rw [hphase, h0]; decide)
    · have hge := UInt8.le_iff_toNat_le.mp hbs.2
      rw [hphase] at hge
      omega
  | sent hs _ _ _ hc =>
    have hsuff := cfSent_bsCounter hs h.inv.tx timeMs h.enough
    have hcf := cfFrame_isCfFrame s.a h.inv.sn_lt (Or.inr hs) h.inv.tx
    have hstate : (cfSent s.a timeMs).iso.state = .idle ∨
        (cfSent s.a timeMs).iso.state = .txSendingCf := by
      rw [cfSent_state hs]
      split_ifs <;> simp
    refine ⟨hpair, hinv, hsuff, h.receiver, ?_⟩
    cases h.phase with
    | opening _ _ ha | clearing _ _ _ ha | finished _ _ ha => simp [hs] at ha
    | streaming hba hab _ hb =>
      have hab' : ∀ frame ∈ s.ab ++ [cfFrame s.a.iso.useCanFd s.a.iso.sn (cfPayload s.a)],
          IsCfFrame frame := by
        intro frame hmem
        rcases List.mem_append.mp hmem with hmem | hmem
        · exact hab frame hmem
        · rw [List.mem_singleton.mp hmem]
          exact hcf
      rcases hstate with hidle | hsending
      · exact .finished hba hab' hidle
      · exact .streaming hba hab' hsending hb
  | refused _ _ _ _ hfail => exact absurd rfl (hfail h.paired.canSendA)

/-- A process call of the receiver does nothing. -/
theorem OneBlock.processB (sizeA sizeB : UInt16) (h : OneBlock useCanFd data blockSize s)
    (timeMs : UInt32) :
    OneBlock useCanFd data blockSize (netStep sizeA sizeB s (.processB timeMs)).1 := by
  have hidle : tpIsotpProcess s.b timeMs 0 = (s.b, []) :=
    if_neg fun hs => h.receiver (Or.inr hs)
  simp only [netStep, hidle, framesOf_nil, List.append_nil]
  exact h

/-- Clearing the sender starts the stream. -/
theorem OneBlock.deliverBA (sizeA sizeB : UInt16) (h : OneBlock useCanFd data blockSize s)
    (beyond : ℕ → UInt8) :
    OneBlock useCanFd data blockSize (netStep sizeA sizeB s (.deliverBA beyond)).1 := by
  cases h.phase with
  | opening _ hba | streaming hba | finished hba =>
    simp only [netStep, hba]
    exact h
  | clearing stMin hab hba ha =>
    have hcts := flowControl_isCts s.b.iso.txId blockSize stMin beyond
    simp only [netStep, hba]
    rw [← h.paired.toA] at hcts ⊢
    rw [cts_step sizeA 0 hcts, if_pos ha]
    have hunsent : unsent (ctsReceived s.a
        (.ofBytes s.a.iso.rxId [0x30, blockSize, stMin, 0, 0, 0, 0, 0] beyond)) = unsent s.a := by
      rw [unsent_of_sending (Or.inl ha), unsent_of_sending (Or.inr rfl)]
      rfl
    refine ⟨h.paired.of_ids ⟨rfl, rfl, rfl⟩ ⟨rfl, rfl, rfl⟩,
      ⟨fun _ => h.inv.tx (Or.inl ha), h.inv.sn_lt⟩, ?_, h.receiver, .streaming rfl ?_ rfl rfl⟩
    · rw [BlockSuffices, hunsent]
      exact h.enough
    · simp [hab]

/-- The receiver answers the First Frame once and is silent from then on. -/
theorem OneBlock.deliverAB (sizeA sizeB : UInt16) (h : OneBlock useCanFd data blockSize s)
    (hlong : ¬ FitsSf useCanFd data) (hmax : data.bytes.length < 4096)
    (hcap : data.bytes.length ≤ sizeB.toNat) (beyond : ℕ → UInt8) :
    OneBlock useCanFd data blockSize (netStep sizeA sizeB s (.deliverAB beyond)).1 := by
  cases hab' : s.ab with
  | nil =>
    simp only [netStep, hab']
    exact h
  | cons frame rest =>
    have hids := step_ids sizeB s.b (.rx (.ofBytes s.a.iso.txId frame beyond) 0)
    have hpair := h.paired.of_ids ⟨rfl, rfl, rfl⟩ hids
    simp only [netStep, hab']
    have hcfCase : ∀ (_ : ∀ frame ∈ s.ab, IsCfFrame frame),
        framesOf (step sizeB s.b (.rx (.ofBytes s.a.iso.txId frame beyond) 0)).2 = [] ∧
          ¬ (step sizeB s.b (.rx (.ofBytes s.a.iso.txId frame beyond) 0)).1.Sending ∧
          ∀ frame ∈ rest, IsCfFrame frame := by
      intro hall
      rw [hab'] at hall
      obtain ⟨hcf, hrest⟩ := List.forall_mem_cons.mp hall
      rw [← h.paired.toB]
      obtain ⟨hout, hs⟩ := cf_silent sizeB s.b frame beyond hcf h.receiver
      exact ⟨hout, hs, hrest⟩
    cases h.phase with
    | clearing _ hab => simp [hab] at hab'
    | opening hab hba ha hb =>
      rw [hab] at hab'
      obtain ⟨rfl, rfl⟩ := List.cons.inj hab'
      obtain ⟨hkind, hout, hopen, -⟩ :=
        rxFf_opens sizeB useCanFd data s.b s.a.iso.txId beyond 0 hlong hmax hcap
      have hid : (RxFrame.ofBytes s.a.iso.txId (ffFrame useCanFd data) beyond).id =
          s.b.iso.rxId := h.paired.toB.symm
      have hstep : step sizeB s.b (.rx (.ofBytes s.a.iso.txId (ffFrame useCanFd data) beyond) 0) =
          rxFf sizeB s.b (.ofBytes s.a.iso.txId (ffFrame useCanFd data) beyond) 0 := by
        simp only [step_rx sizeB 0 hid, hkind]
      have hframes : framesOf (rxFf sizeB s.b
          (.ofBytes s.a.iso.txId (ffFrame useCanFd data) beyond) 0).2 =
          [[0x30, blockSize, s.b.iso.stMin, 0, 0, 0, 0, 0]] := by
        rw [hout, tpSendFrame, if_pos h.paired.canSendB, hb]
        rfl
      rw [hstep] at hpair ⊢
      refine ⟨hpair, h.inv, h.enough, ?_, .clearing s.b.iso.stMin rfl ?_ ha⟩
      · simp [Node.Sending, hopen.state]
      · simp only [hba, hframes, List.nil_append]
    | streaming hba hall ha hb =>
      obtain ⟨hout, hs, hrest⟩ := hcfCase hall
      refine ⟨hpair, h.inv, h.enough, hs, .streaming ?_ hrest ha hb⟩
      simp only [hba, hout, List.append_nil]
    | finished hba hall ha =>
      obtain ⟨hout, hs, hrest⟩ := hcfCase hall
      refine ⟨hpair, h.inv, h.enough, hs, .finished ?_ hrest ha⟩
      simp only [hba, hout, List.append_nil]

theorem OneBlock.step (sizeA sizeB : UInt16) (hlong : ¬ FitsSf useCanFd data)
    (hmax : data.bytes.length < 4096) (hcap : data.bytes.length ≤ sizeB.toNat) (s : Net)
    (act : NetAct) (h : OneBlock useCanFd data blockSize s) :
    OneBlock useCanFd data blockSize (netStep sizeA sizeB s act).1 := by
  cases act with
  | deliverAB beyond => exact h.deliverAB sizeA sizeB hlong hmax hcap beyond
  | deliverBA beyond => exact h.deliverBA sizeA sizeB beyond
  | processA timeMs => exact h.processA sizeA sizeB timeMs
  | processB timeMs => exact h.processB sizeA sizeB timeMs

/-! ### The stall at the end of a block -/

/-- Mid-block with nothing in flight: the receiver waits for exactly what is unsent. -/
structure MidBlock (blockSize : UInt8) (s : Net) : Prop where
  paired : Paired s.a s.b
  inv : NodeInv s.a
  flight : s.ab = [] ∧ s.ba = []
  sending : s.a.iso.state = .txSendingCf
  block : s.a.iso.blockSize = blockSize
  receiver : ∃ got, RxPartial s.b got (unsentBytes s.a)
  numbers : s.b.iso.sn = s.a.iso.sn

theorem late_enough (timerSt st : UInt32) : st ≤ (timerSt + st) - timerSt := by
  have h : timerSt + st - timerSt = st := by grind
  rw [h]
  exact UInt32.le_refl st

/-- What a process call does that is late enough for the separation time. -/
theorem late_process {n : Node} (hs : n.iso.state = .txSendingCf) (hn : TxInv n)
    (hc : n.iso.canSend = true) :
    tpIsotpProcess n (n.iso.timerSt + requiredSt n.iso.stMin) 0 =
      if blockDone n.iso then (blockEnded n, [])
      else (cfSent n (n.iso.timerSt + requiredSt n.iso.stMin),
        [.canSend n.iso.txId (cfFrame n.iso.useCanFd n.iso.sn (cfPayload n)) 0]) := by
  have hne : n.iso.msgLen - n.iso.bytesProcessed ≠ 0 := by
    have hlt := hn (Or.inr hs)
    rw [ne_eq, sub_eq_zero_iff_eq]
    intro heq
    rw [heq] at hlt
    omega
  have hlate := UInt32.not_lt.mpr (late_enough n.iso.timerSt (requiredSt n.iso.stMin))
  rw [tpIsotpProcess, if_pos hs, if_neg hne, if_neg hlate]
  by_cases hb : blockDone n.iso
  · rw [if_pos hb, if_pos hb]
  · rw [if_neg hb, if_neg hb, tpSendFrame, if_pos hc]
    rfl

/-- One Consecutive Frame goes out and arrives. -/
theorem MidBlock.round (sizeA sizeB : UInt16) (h : MidBlock blockSize s)
    (hfree : ¬ blockDone s.a.iso) (hmore : 1 < (unsent s.a).length) :
    ∃ acts, MidBlock blockSize (exec (netStep sizeA sizeB) s acts) ∧
      (exec (netStep sizeA sizeB) s acts).a.iso.bsCounter = s.a.iso.bsCounter + 1 ∧
      (unsent (exec (netStep sizeA sizeB) s acts).a).length + 1 = (unsent s.a).length := by
  obtain ⟨got, hgot⟩ := h.receiver
  have hsend : s.a.Sending := Or.inr h.sending
  have htx := h.inv.tx
  generalize ht : s.a.iso.timerSt + requiredSt s.a.iso.stMin = timeMs
  obtain ⟨hunsent, htx'⟩ := cfSent_unsent h.sending htx timeMs
  have hlen := congrArg List.length hunsent
  rw [List.length_cons] at hlen
  have hprocess := late_process h.sending htx h.paired.canSendA
  rw [ht, if_neg hfree] at hprocess
  have hopen : unsentBytes (cfSent s.a timeMs) ≠ [] := by
    intro hnil
    have hidle := cfSent_state h.sending timeMs
    rw [if_pos hnil] at hidle
    rw [unsent_of_not_sending (by simp [Node.Sending, hidle]), List.length_nil] at hlen
    omega
  have hsending' : (cfSent s.a timeMs).iso.state = .txSendingCf := by
    rw [cfSent_state h.sending, if_neg hopen]
  have hrest := unsentBytes_cfSent hsend htx timeMs
  have htail : (unsentBytes s.a).drop (maxCfPayload s.a.iso.useCanFd).toNat ≠ [] := by
    rwa [← hrest]
  obtain ⟨hout, hpart, hsn⟩ :=
    cfFrame_more sizeB (fun _ => 0) 0 hgot h.numbers h.inv.sn_lt htail
  rw [← cfPayload_eq_take hsend htx] at hout hpart hsn
  have hids := step_ids sizeB s.b (.rx (.ofBytes s.b.iso.rxId
    (cfFrame s.a.iso.useCanFd s.a.iso.sn (cfPayload s.a)) fun _ => 0) 0)
  generalize hb : step sizeB s.b (.rx (.ofBytes s.b.iso.rxId
    (cfFrame s.a.iso.useCanFd s.a.iso.sn (cfPayload s.a)) fun _ => 0) 0) = rb at *
  have hexec : exec (netStep sizeA sizeB) s [.processA timeMs, .deliverAB fun _ => 0] =
      { a := cfSent s.a timeMs, b := rb.1, ab := [], ba := [] } := by
    have hdeliver : step sizeB s.b (.rx (.ofBytes (cfSent s.a timeMs).iso.txId
        (cfFrame s.a.iso.useCanFd s.a.iso.sn (cfPayload s.a)) fun _ => 0) 0) = rb := by
      rw [← hb, h.paired.toB]
      rfl
    have hnone : framesOf rb.2 = [] := by rw [hout]; rfl
    simp only [exec_cons, exec_nil, netStep, hprocess, h.flight.1, h.flight.2, framesOf_canSend,
      List.nil_append, hdeliver, hnone]
  refine ⟨[.processA timeMs, .deliverAB fun _ => 0], ?_, ?_, ?_⟩
  · rw [hexec]
    exact ⟨h.paired.of_ids ⟨rfl, rfl, rfl⟩ hids, ⟨htx', nextSn_lt _⟩, ⟨rfl, rfl⟩, hsending', h.block,
      ⟨got ++ cfPayload s.a, by rw [hrest]; exact hpart⟩, hsn⟩
  · rw [hexec]
    rfl
  · rw [hexec]
    omega

/-- With more frames unsent than the block has left, some schedule gets stuck. -/
theorem MidBlock.stalls (sizeA sizeB : UInt16) (hpos : 0 < blockSize) (k : ℕ) (s : Net)
    (h : MidBlock blockSize s) (hk : blockSize.toNat - s.a.iso.bsCounter.toNat = k)
    (hmore : k < (unsent s.a).length) :
    ∃ acts, Stuck (exec (netStep sizeA sizeB) s acts) := by
  induction k generalizing s with
  | zero =>
    obtain ⟨got, hgot⟩ := h.receiver
    have hdone : blockDone s.a.iso := by
      refine ⟨by rwa [h.block], ?_⟩
      rw [ge_iff_le, UInt8.le_iff_toNat_le, h.block]
      omega
    refine ⟨[.processA (s.a.iso.timerSt + requiredSt s.a.iso.stMin)], ?_⟩
    have hprocess := late_process h.sending h.inv.tx h.paired.canSendA
    rw [if_pos hdone] at hprocess
    simp only [exec_cons, exec_nil, netStep, hprocess]
    exact ⟨by simp [h.flight.1], h.flight.2, rfl, hgot.state⟩
  | succ k ih =>
    have hfree : ¬ blockDone s.a.iso := by
      rintro ⟨-, hge⟩
      rw [ge_iff_le, UInt8.le_iff_toNat_le, h.block] at hge
      omega
    obtain ⟨acts, hmid, hcount, hlen⟩ := h.round sizeA sizeB hfree (by omega)
    have hb := blockSize.toNat_lt
    have hcount' : (s.a.iso.bsCounter + 1).toNat = s.a.iso.bsCounter.toNat + 1 := by
      rw [UInt8.toNat_add]
      show (_ + 1) % 256 = _
      omega
    obtain ⟨acts', hstuck⟩ := ih _ hmid (by rw [hcount, hcount']; omega) (by omega)
    exact ⟨acts ++ acts', by rwa [exec_append]⟩

/-! ### The exact condition -/

theorem sfFrame_pci (useCanFd : Bool) (data : Sdu) (id : UInt32) (beyond : ℕ → UInt8)
    (hfit : FitsSf useCanFd data) : pciOf (.ofBytes id (sfFrame data) beyond) = .sf := by
  generalize hf : RxFrame.ofBytes id (sfFrame data) beyond = f
  have h0 : f.data 0 &&& 0xF0 = 0 := by
    rcases (sfFrame_shape useCanFd data hfit).2 with ⟨h7, pad, hframe⟩ | ⟨-, -, pad, hframe⟩
    · have h : f.data 0 = UInt8.ofNat data.bytes.length := by
        rw [← hf, hframe]
        rfl
      rw [h]
      generalize data.bytes.length = k at h7
      interval_cases k <;> decide
    · have h : f.data 0 = 0 := by
        rw [← hf, hframe]
        rfl
      rw [h]
      decide
  unfold pciOf
  rw [h0]
  rfl

/-- A Single Frame on its way, or nothing at all. -/
structure Quiet (data : Sdu) (s : Net) : Prop where
  toB : s.b.iso.rxId = s.a.iso.txId
  sender : s.a.iso.state = .idle
  receiver : s.b.iso.state = .idle
  ba : s.ba = []
  ab : ∀ frame ∈ s.ab, frame = sfFrame data

theorem Quiet.step (sizeA sizeB : UInt16) (hfit : FitsSf useCanFd data) (s : Net) (act : NetAct)
    (h : Quiet data s) : Quiet data (netStep sizeA sizeB s act).1 := by
  have hidle : ∀ (n : Node) (timeMs : UInt32), n.iso.state = .idle →
      tpIsotpProcess n timeMs 0 = (n, []) := fun n timeMs hs => if_neg (by simp [hs])
  cases act with
  | deliverBA beyond =>
    simp only [netStep, h.ba]
    exact h
  | processA timeMs =>
    simp only [netStep, hidle _ timeMs h.sender, framesOf_nil, List.append_nil]
    exact h
  | processB timeMs =>
    simp only [netStep, hidle _ timeMs h.receiver, framesOf_nil, List.append_nil]
    exact h
  | deliverAB beyond =>
    cases hab : s.ab with
    | nil =>
      simp only [netStep, hab]
      exact h
    | cons frame rest =>
      have hall := h.ab
      rw [hab] at hall
      obtain ⟨rfl, hrest⟩ := List.forall_mem_cons.mp hall
      have hid : (RxFrame.ofBytes s.a.iso.txId (sfFrame data) beyond).id = s.b.iso.rxId :=
        h.toB.symm
      have hsilent : framesOf (rxSf s.b (.ofBytes s.a.iso.txId (sfFrame data) beyond)).2 = [] := by
        unfold rxSf
        dsimp only
        split_ifs <;> rfl
      simp only [netStep, hab, step_rx sizeB 0 hid, sfFrame_pci _ _ _ _ hfit, hsilent, h.ba,
        rxSf_idle, List.append_nil]
      exact ⟨h.toB, h.sender, rfl, rfl, hrest⟩

/-- The First Frame and the answer to it open the block. -/
theorem start_midBlock (sizeA sizeB : UInt16) {a b : Node} (hpair : Paired a b)
    (hlong : ¬ FitsSf a.iso.useCanFd data) (hmax : data.bytes.length < 4096)
    (hcap : data.bytes.length ≤ sizeB.toNat) (hstart : netStart a b data =
      { a := mfStarted a data, b := b, ab := [ffFrame a.iso.useCanFd data], ba := [] }) :
    ∃ acts, MidBlock b.iso.blockSize (exec (netStep sizeA sizeB) (netStart a b data) acts) ∧
      (exec (netStep sizeA sizeB) (netStart a b data) acts).a.iso.bsCounter = a.iso.bsCounter ∧
      unsent (exec (netStep sizeA sizeB) (netStart a b data) acts).a =
        unsent (mfStarted a data) := by
  obtain ⟨hunsent, htx⟩ := mfStarted_unsent a data hlong
  obtain ⟨hkind, hout, hopen, hsn⟩ := rxFf_opens sizeB a.iso.useCanFd data b a.iso.txId
    (fun _ => 0) 0 hlong hmax hcap
  have hid : (RxFrame.ofBytes a.iso.txId (ffFrame a.iso.useCanFd data) fun _ => 0).id =
      b.iso.rxId := hpair.toB.symm
  have hids := step_ids sizeB b (.rx (.ofBytes a.iso.txId (ffFrame a.iso.useCanFd data)
    fun _ => 0) 0)
  have hstep : step sizeB b (.rx (.ofBytes a.iso.txId (ffFrame a.iso.useCanFd data)
      fun _ => 0) 0) = rxFf sizeB b (.ofBytes a.iso.txId (ffFrame a.iso.useCanFd data)
      fun _ => 0) 0 := by
    simp only [step_rx sizeB 0 hid, hkind]
  rw [hstep] at hids
  generalize hr : rxFf sizeB b (.ofBytes a.iso.txId (ffFrame a.iso.useCanFd data) fun _ => 0) 0 =
    r at *
  have hframes : framesOf r.2 = [[0x30, b.iso.blockSize, b.iso.stMin, 0, 0, 0, 0, 0]] := by
    rw [hout, tpSendFrame, if_pos hpair.canSendB]
    rfl
  have hcts := flowControl_isCts b.iso.txId b.iso.blockSize b.iso.stMin fun _ => 0
  generalize hf : RxFrame.ofBytes b.iso.txId [0x30, b.iso.blockSize, b.iso.stMin, 0, 0, 0, 0, 0]
    (fun _ => 0) = f at hcts
  have hclear : step sizeA (mfStarted a data) (.rx f 0) = (ctsReceived (mfStarted a data) f, []) := by
    rw [← hpair.toA] at hcts
    have hwait : (mfStarted a data).iso.state = .txWaitFc := rfl
    rw [cts_step (n := mfStarted a data) sizeA 0 hcts, if_pos hwait]
  have hexec : exec (netStep sizeA sizeB) (netStart a b data)
      [.deliverAB fun _ => 0, .deliverBA fun _ => 0] =
      { a := ctsReceived (mfStarted a data) f, b := r.1, ab := [], ba := [] } := by
    have htx' : (mfStarted a data).iso.txId = a.iso.txId := rfl
    rw [hstart]
    simp only [exec_cons, exec_nil, netStep, htx', hstep, hframes, List.nil_append, hids.2.1, hf,
      hclear, framesOf_nil]
  have hcleared : unsent (ctsReceived (mfStarted a data) f) = unsent (mfStarted a data) := by
    rw [unsent_of_sending (Or.inr rfl), unsent_of_sending (Or.inl rfl)]
    rfl
  have hblock : f.data 1 = b.iso.blockSize := by rw [← hf]; rfl
  refine ⟨[.deliverAB fun _ => 0, .deliverBA fun _ => 0], ?_, ?_, ?_⟩
  · have hbytes : unsentBytes (ctsReceived (mfStarted a data) f) =
        data.bytes.drop (maxDataInFf a.iso.useCanFd).toNat := mfStarted_unsentBytes a data hlong
    rw [← hbytes] at hopen
    rw [hexec]
    exact ⟨hpair.of_ids ⟨rfl, rfl, rfl⟩ hids, ⟨fun _ => htx (Or.inl rfl), firstSn_lt⟩, ⟨rfl, rfl⟩,
      rfl, hblock, ⟨_, hopen⟩, hsn⟩
  · rw [hexec]
    rfl
  · rw [hexec]
    exact hcleared

/-- Two idle nodes never get stuck on a message exactly when it needs no Flow Control after
the first one: it fits a Single Frame, the receiver advertises no block limit, or what is left
of one block carries everything behind the First Frame. -/
theorem two_node_deadlock_free_iff (sizeA sizeB : UInt16) (a b : Node) (data : Sdu)
    (hpair : Paired a b) (ha : a.iso.state = .idle) (hb : b.iso.state = .idle)
    (hsend : (isotpSend a data 0).1 = 0) (hcap : data.bytes.length ≤ sizeB.toNat) :
    DeadlockFree sizeA sizeB a b data ↔
      FitsSf a.iso.useCanFd data ∨ b.iso.blockSize = 0 ∨
        data.bytes.length ≤ (maxDataInFf a.iso.useCanFd).toNat +
          (b.iso.blockSize.toNat - a.iso.bsCounter.toNat) *
            (maxCfPayload a.iso.useCanFd).toNat := by
  by_cases hfit : FitsSf a.iso.useCanFd data
  · have hstart : Quiet data (netStart a b data) := by
      rw [netStart, isotpSend_short hpair.canSendA hfit]
      exact ⟨hpair.toB, ha, hb, rfl, fun frame h => List.mem_singleton.mp h⟩
    refine ⟨fun _ => Or.inl hfit, fun _ acts hstuck => ?_⟩
    have hquiet : Quiet data (exec (netStep sizeA sizeB) (netStart a b data) acts) :=
      exec_invariant (C := fun _ _ => True)
        (fun s act h _ => h.step sizeA sizeB hfit s act) hstart (Along.trivial _ _)
    have hidle := hquiet.sender
    rw [hstuck.2.2.1] at hidle
    cases hidle
  · obtain ⟨hmax, hlong⟩ := isotpSend_long hpair.canSendA hfit hsend
    have hstart : netStart a b data =
        { a := mfStarted a data, b := b, ab := [ffFrame a.iso.useCanFd data], ba := [] } := by
      rw [netStart, hlong]
      rfl
    have hcfs : unsent (mfStarted a data) =
        cfFrames a.iso.useCanFd 1 (data.bytes.drop (maxDataInFf a.iso.useCanFd).toNat) := by
      rw [unsent_of_sending (Or.inl rfl), ← mfStarted_unsentBytes a data hfit]
      rfl
    have hcount := cfFrames_length_le a.iso.useCanFd 1
      (data.bytes.drop (maxDataInFf a.iso.useCanFd).toNat)
      (b.iso.blockSize.toNat - a.iso.bsCounter.toNat)
    rw [← hcfs, List.length_drop, Nat.sub_le_iff_le_add'] at hcount
    have hopen := unsent_ne_nil (n := mfStarted a data) (Or.inl rfl) (mfStarted_unsent a data hfit).2
    rw [← hcount]
    constructor
    · intro hfree
      by_contra hcond
      obtain ⟨-, hn0, hmore⟩ : ¬ FitsSf a.iso.useCanFd data ∧ b.iso.blockSize ≠ 0 ∧
          b.iso.blockSize.toNat - a.iso.bsCounter.toNat < (unsent (mfStarted a data)).length := by
        simpa [not_or] using hcond
      obtain ⟨acts, hmid, hc, hu⟩ :=
        start_midBlock sizeA sizeB hpair hfit (by omega) hcap hstart
      obtain ⟨acts', hstuck⟩ := hmid.stalls sizeA sizeB (UInt8.pos_iff_ne_zero.mpr hn0) _ _ rfl
        (by rw [hc, hu]; exact hmore)
      exact hfree (acts ++ acts') (by rwa [exec_append])
    · intro hcond acts
      have hinit : OneBlock a.iso.useCanFd data b.iso.blockSize (netStart a b data) := by
        rw [hstart]
        refine ⟨hpair.of_ids ⟨rfl, rfl, rfl⟩ ⟨rfl, rfl, rfl⟩,
          ⟨(mfStarted_unsent a data hfit).2, firstSn_lt⟩, ?_, by simp [Node.Sending, hb],
          .opening rfl rfl rfl rfl⟩
        rcases hcond with h | h0 | hle
        · exact absurd h hfit
        · exact Or.inl h0
        · right
          show a.iso.bsCounter.toNat + (unsent (mfStarted a data)).length ≤ _
          omega
      have hall : OneBlock a.iso.useCanFd data b.iso.blockSize
          (exec (netStep sizeA sizeB) (netStart a b data) acts) :=
        exec_invariant (C := fun _ _ => True)
          (fun s act h _ => h.step sizeA sizeB hfit (by omega) hcap s act) hinit (Along.trivial _ _)
      exact hall.not_stuck

def nodeA : Node := tpIsotpInit zeroNode true 1 2

def nodeB : Node := tpIsotpInit zeroNode true 2 1

def bytesOf (k : ℕ) (h : k < 65536) : Sdu := ⟨List.replicate k 0x55, by simpa using h⟩

/-- 62 bytes are the most that two freshly initialised classic nodes transfer safely. -/
theorem fresh_nodes_62 : DeadlockFree 1024 1024 nodeA nodeB (bytesOf 62 (by decide)) :=
  (two_node_deadlock_free_iff 1024 1024 nodeA nodeB (bytesOf 62 (by decide))
    ⟨rfl, rfl, rfl, rfl⟩ rfl rfl (by decide) (by decide)).mpr (Or.inr (Or.inr (by decide)))

/-- With 63 bytes the ninth Consecutive Frame waits for a Flow Control frame that never comes. -/
theorem fresh_nodes_63_stuck :
    ¬ DeadlockFree 1024 1024 nodeA nodeB (bytesOf 63 (by decide)) := by
  have hlong : ¬ FitsSf nodeA.iso.useCanFd (bytesOf 63 (by decide)) := by decide
  obtain ⟨acts, hmid, hc, hu⟩ := start_midBlock (a := nodeA) (b := nodeB) 1024 1024
    ⟨rfl, rfl, rfl, rfl⟩ hlong (by decide) (by decide) rfl
  have hmore : 8 < (unsent (mfStarted nodeA (bytesOf 63 (by decide)))).length := by
    rw [unsent_of_sending (Or.inl rfl), ← Nat.not_le]
    exact fun hle => absurd ((cfFrames_length_le _ _ _ _).mp hle) (by decide)
  obtain ⟨acts', hstuck⟩ := hmid.stalls 1024 1024 (by decide) _ _ rfl (by rw [hc, hu]; exact hmore)
  exact fun hfree => hfree (acts ++ acts') (by rwa [exec_append])

end UdsLib.Isotp
