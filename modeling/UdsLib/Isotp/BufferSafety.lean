import Mathlib.Tactic.Common
import UdsLib.Isotp.Step

/-! Where the reception writes: `rx_buffer` stays in bounds and `msg_len - bytes_processed`
never underflows exactly in the runs whose CAN-FD First Frames carry less than they announce. -/
namespace UdsLib.Isotp
open Bytes Machine

/-- The reception bookkeeping that `uds_rx_cf` relies on. -/
def RxInv (rxBufferSize : UInt16) (n : Node) : Prop :=
  n.iso.state = .rxWaitCf →
    n.iso.bytesProcessed.toNat < n.iso.msgLen.toNat ∧ n.iso.msgLen.toNat ≤ rxBufferSize.toNat

/-- A write to `rx_buffer` ends within it. -/
def InBounds (rxBufferSize : UInt16) : Output → Prop
  | .rxWrite off k => off + k ≤ rxBufferSize.toNat
  | _ => True

/-- A CAN-FD First Frame that will be accepted carries fewer bytes than it announces. -/
def FfFits (rxBufferSize : UInt16) (rxId : UInt32) : Op → Prop
  | .rx f _ => f.id = rxId → pciOf f = .ff → 8 ≤ (ffSduLen f).toNat →
      (ffSduLen f).toNat ≤ rxBufferSize.toNat → 8 < f.len.toNat →
      f.len.toNat - 2 < (ffSduLen f).toNat
  | _ => True

theorem dataInFf_toNat (len : UInt8) :
    (dataInFf len).toNat = if 8 < len.toNat then len.toNat - 2 else 6 := by
  unfold dataInFf
  by_cases h : 8 < len.toNat
  · have hl : len > 8 := by simpa [UInt8.lt_iff_toNat_lt] using h
    rw [if_pos hl, if_pos h, UInt8.toNat_sub_of_le _ _ (by simp [UInt8.le_iff_toNat_le]; omega)]
    rfl
  · have hl : ¬ len > 8 := by simpa [UInt8.lt_iff_toNat_lt] using h
    rw [if_neg hl, if_neg h]
    rfl

/-- What a Consecutive Frame adds never exceeds what is missing. -/
theorem advance_toNat {msgLen bytesProcessed : UInt16} (capacity : UInt8)
    (h : bytesProcessed.toNat ≤ msgLen.toNat) :
    (bytesProcessed + (copyLen (msgLen - bytesProcessed) capacity).toUInt16).toNat =
      bytesProcessed.toNat + min (msgLen.toNat - bytesProcessed.toNat) capacity.toNat := by
  have hm := msgLen.toNat_lt
  rw [UInt16.toNat_add, UInt8.toNat_toUInt16, copyLen_toNat, sub_toNat h]
  omega

theorem tpSendFrame_inBounds (rxBufferSize : UInt16) (iso : Ctx) (data : List UInt8) (ret : ℤ) :
    ∀ o ∈ (tpSendFrame iso data ret).2, InBounds rxBufferSize o := by
  unfold tpSendFrame
  split_ifs <;> simp [InBounds]

theorem rxSf_safe (rxBufferSize : UInt16) (n : Node) (f : RxFrame) :
    RxInv rxBufferSize (rxSf n f).1 ∧ ∀ o ∈ (rxSf n f).2, InBounds rxBufferSize o := by
  unfold rxSf
  dsimp only
  split_ifs <;> simp [RxInv, InBounds]

theorem rxFf_safe (rxBufferSize : UInt16) (n : Node) (f : RxFrame) (ret : ℤ)
    (hfit : 8 ≤ (ffSduLen f).toNat → (ffSduLen f).toNat ≤ rxBufferSize.toNat →
      8 < f.len.toNat → f.len.toNat - 2 < (ffSduLen f).toNat) :
    RxInv rxBufferSize (rxFf rxBufferSize n f ret).1 ∧
      ∀ o ∈ (rxFf rxBufferSize n f ret).2, InBounds rxBufferSize o := by
  unfold rxFf
  dsimp only
  split_ifs with hshort hlarge
  · simp [RxInv]
  · simp [RxInv]
  · have h8 : 8 ≤ (ffSduLen f).toNat := by simpa [UInt16.lt_iff_toNat_lt] using hshort
    have hcap : (ffSduLen f).toNat ≤ rxBufferSize.toNat := by
      simpa [UInt16.lt_iff_toNat_lt] using hlarge
    have hlt : (dataInFf f.len).toNat < (ffSduLen f).toNat := by
      rw [dataInFf_toNat]
      split_ifs with hfd
      · exact hfit h8 hcap hfd
      · omega
    refine ⟨fun _ => ⟨by simpa using hlt, hcap⟩, ?_⟩
    intro o ho
    rcases List.mem_cons.mp ho with rfl | ho
    · show 0 + _ ≤ _
      omega
    · exact tpSendFrame_inBounds _ _ _ _ o ho

theorem rxCf_safe (rxBufferSize : UInt16) (n : Node) (f : RxFrame) (hn : RxInv rxBufferSize n) :
    RxInv rxBufferSize (rxCf n f).1 ∧ ∀ o ∈ (rxCf n f).2, InBounds rxBufferSize o := by
  unfold rxCf
  by_cases hs : n.iso.state = .rxWaitCf
  · obtain ⟨hlt, hcap⟩ := hn hs
    have hadv := advance_toNat (f.len - 1) hlt.le
    have hcopy := copyLen_toNat (n.iso.msgLen - n.iso.bytesProcessed) (f.len - 1)
    rw [sub_toNat hlt.le] at hcopy
    rw [if_neg (not_not.mpr hs)]
    dsimp only
    split_ifs with hsn hdone
    · simp [RxInv]
    · refine ⟨by simp [RxInv], ?_⟩
      simp only [List.mem_cons, List.not_mem_nil, or_false, forall_eq_or_imp, forall_eq, InBounds,
        and_true, hcopy]
      omega
    · have hopen : (n.iso.bytesProcessed + (copyLen (n.iso.msgLen - n.iso.bytesProcessed)
          (f.len - 1)).toUInt16).toNat < n.iso.msgLen.toNat := by
        simpa [UInt16.le_iff_toNat_le] using hdone
      refine ⟨fun _ => ⟨hopen, hcap⟩, ?_⟩
      simp only [List.mem_cons, List.not_mem_nil, or_false, forall_eq, InBounds, hcopy]
      omega
  · rw [if_pos hs]
    exact ⟨hn, by simp⟩

theorem rxFc_safe (rxBufferSize : UInt16) (n : Node) (f : RxFrame) (hn : RxInv rxBufferSize n) :
    RxInv rxBufferSize (rxFc n f) := by
  unfold rxFc
  split_ifs
  · exact hn
  · simp [RxInv, ctsReceived]
  · exact hn

theorem send_safe (rxBufferSize : UInt16) (n : Node) (data : Sdu) (ret : ℤ)
    (hn : RxInv rxBufferSize n) :
    RxInv rxBufferSize (isotpSend n data ret).2.1 ∧
      ∀ o ∈ (isotpSend n data ret).2.2, InBounds rxBufferSize o := by
  unfold isotpSend sendSf sendMf
  split_ifs
  · exact ⟨hn, tpSendFrame_inBounds _ _ _ _⟩
  · exact ⟨hn, by simp⟩
  · exact ⟨by simp [RxInv, mfStarted], tpSendFrame_inBounds _ _ _ _⟩

theorem process_safe (rxBufferSize : UInt16) (n : Node) (timeMs : UInt32) (ret : ℤ)
    (hn : RxInv rxBufferSize n) :
    RxInv rxBufferSize (tpIsotpProcess n timeMs ret).1 ∧
      ∀ o ∈ (tpIsotpProcess n timeMs ret).2, InBounds rxBufferSize o := by
  generalize hr : tpIsotpProcess n timeMs ret = r
  have h := process_effect n timeMs ret
  rw [hr] at h
  cases h with
  | notSending | early => exact ⟨hn, by simp⟩
  | drained | blockEnd => exact ⟨by simp [RxInv, Node.setState, blockEnded], by simp⟩
  | sent hs =>
    refine ⟨fun h => ?_, by simp [InBounds]⟩
    simp only [cfSent, hs] at h
    split_ifs at h
  | refused => exact ⟨hn, tpSendFrame_inBounds _ _ _ _⟩

theorem step_safe (rxBufferSize : UInt16) (n : Node) (op : Op) (hn : RxInv rxBufferSize n)
    (hfit : FfFits rxBufferSize n.iso.rxId op) :
    RxInv rxBufferSize (step rxBufferSize n op).1 ∧
      ∀ o ∈ (step rxBufferSize n op).2, InBounds rxBufferSize o := by
  cases op with
  | rx f ret =>
    simp only [step, isotpRxCallback]
    split_ifs with hid
    · exact ⟨hn, by simp⟩
    · have hid : f.id = n.iso.rxId := not_not.mp hid
      cases hp : pciOf f with
      | sf => exact rxSf_safe rxBufferSize n f
      | ff => exact rxFf_safe rxBufferSize n f ret (hfit hid hp)
      | cf => exact rxCf_safe rxBufferSize n f hn
      | fc => exact ⟨rxFc_safe rxBufferSize n f hn, by simp⟩
      | other => exact ⟨hn, by simp⟩
  | send data ret =>
    obtain ⟨hinv, hout⟩ := send_safe rxBufferSize n data ret hn
    refine ⟨hinv, fun o ho => ?_⟩
    rcases List.mem_append.mp ho with ho | ho
    · exact hout o ho
    · rw [List.mem_singleton.mp ho]
      trivial
  | process timeMs ret => exact process_safe rxBufferSize n timeMs ret hn
  | setFd enabled => exact ⟨hn, by simp [step]⟩

/-- The reception stays in bounds along a run and its bookkeeping holds in every state. -/
def RxSafe (rxBufferSize : UInt16) (n : Node) (ops : List Op) : Prop :=
  Always (step rxBufferSize) (RxInv rxBufferSize) n ops ∧
    ∀ o ∈ trace (step rxBufferSize) n ops, InBounds rxBufferSize o

theorem rxSafe_cons (rxBufferSize : UInt16) (n : Node) (op : Op) (ops : List Op) :
    RxSafe rxBufferSize n (op :: ops) ↔
      RxInv rxBufferSize n ∧ (∀ o ∈ (step rxBufferSize n op).2, InBounds rxBufferSize o) ∧
        RxSafe rxBufferSize (step rxBufferSize n op).1 ops := by
  simp only [RxSafe, always_cons, trace_cons, List.mem_append, or_imp, forall_and]
  tauto

/-- A First Frame that carries all it announces leaves nothing to wait for. -/
theorem step_unsafe (rxBufferSize : UInt16) (n : Node) (op : Op)
    (hfit : ¬ FfFits rxBufferSize n.iso.rxId op) :
    ¬ RxInv rxBufferSize (step rxBufferSize n op).1 := by
  cases op with
  | rx f ret =>
    simp only [FfFits, not_forall] at hfit
    obtain ⟨hid, hp, h8, hcap, hfd, hover⟩ := hfit
    have hshort : ¬ ffSduLen f < 8 := by simpa [UInt16.lt_iff_toNat_lt] using h8
    have hlarge : ¬ rxBufferSize < ffSduLen f := by simpa [UInt16.lt_iff_toNat_lt] using hcap
    have hin := dataInFf_toNat f.len
    rw [if_pos hfd] at hin
    intro hinv
    simp only [step, isotpRxCallback, if_neg (not_not.mpr hid), hp, rxFf, if_neg hshort,
      if_neg hlarge] at hinv
    have := (hinv rfl).1
    simp only [UInt8.toNat_toUInt16] at this
    omega
  | send data ret => exact absurd trivial hfit
  | process timeMs ret => exact absurd trivial hfit
  | setFd enabled => exact absurd trivial hfit

theorem rxSafe_iff (rxBufferSize : UInt16) (n : Node) (ops : List Op)
    (hn : RxInv rxBufferSize n) :
    RxSafe rxBufferSize n ops ↔ ∀ op ∈ ops, FfFits rxBufferSize n.iso.rxId op := by
  induction ops generalizing n with
  | nil => simp [RxSafe, always_nil, hn]
  | cons op ops ih =>
    have hid := (step_ids rxBufferSize n op).1
    rw [rxSafe_cons, List.forall_mem_cons]
    constructor
    · rintro ⟨-, -, hrest⟩
      have hnext : RxInv rxBufferSize (step rxBufferSize n op).1 :=
        hrest.1 [] List.nil_prefix
      refine ⟨by_contra fun h => step_unsafe rxBufferSize n op h hnext, ?_⟩
      rw [← hid]
      exact (ih _ hnext).mp hrest
    · rintro ⟨hfit, hrest⟩
      obtain ⟨hnext, hout⟩ := step_safe rxBufferSize n op hn hfit
      exact ⟨hn, hout, (ih _ hnext).mpr (by rwa [hid])⟩

/-- From `uds_tp_isotp_init` on, reception is memory safe exactly in the runs without an
accepted CAN-FD First Frame that carries at least as many bytes as it announces. -/
theorem rx_buffer_safe_iff (rxBufferSize : UInt16) (n : Node) (canSend : Bool) (txId rxId : UInt32)
    (ops : List Op) :
    RxSafe rxBufferSize (tpIsotpInit n canSend txId rxId) ops ↔
      ∀ op ∈ ops, FfFits rxBufferSize rxId op :=
  rxSafe_iff rxBufferSize _ ops fun h => nomatch h

/-- A 64-byte First Frame that announces 8 bytes: `10 08` and 62 payload bytes. -/
def overfullFf : RxFrame := .ofBytes 2 (0x10 :: 0x08 :: List.replicate 62 0xAA) fun _ => 0

/-- It writes 62 bytes into a receive buffer of 8. -/
theorem rx_buffer_overrun : ¬ RxSafe 8 (tpIsotpInit zeroNode true 1 2) [.rx overfullFf 0] := by
  rintro ⟨-, hout⟩
  have hmem : Output.rxWrite 0 62 ∈
      trace (step 8) (tpIsotpInit zeroNode true 1 2) [.rx overfullFf 0] := by decide
  have hle : 0 + 62 ≤ (8 : UInt16).toNat := hout _ hmem
  exact absurd hle (by decide)

end UdsLib.Isotp
