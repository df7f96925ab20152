import UdsLib.Machine.Run
import UdsLib.Isotp.Transmit
import UdsLib.Isotp.Receive

/-! The entry points of the transport as the steps of a machine. -/
namespace UdsLib.Isotp
open Bytes

/-- A call of an entry point; `ret` is what `can_send` returns if the call reaches it. -/
inductive Op where
  | rx (f : RxFrame) (ret : ℤ)
  | send (data : Sdu) (ret : ℤ)
  | process (timeMs : UInt32) (ret : ℤ)
  | setFd (enabled : Bool)

def step (rxBufferSize : UInt16) (n : Node) : Op → Node × List Output
  | .rx f ret => isotpRxCallback rxBufferSize n f ret
  | .send data ret =>
    let r := isotpSend n data ret
    (r.2.1, r.2.2 ++ [.returned data.bytes r.1])
  | .process timeMs ret => tpIsotpProcess n timeMs ret
  | .setFd enabled => (tpIsotpSetFd n enabled, [])

theorem step_rx {n : Node} {f : RxFrame} (rxBufferSize : UInt16) (ret : ℤ)
    (hid : f.id = n.iso.rxId) :
    step rxBufferSize n (.rx f ret) = match pciOf f with
      | .sf => rxSf n f
      | .ff => rxFf rxBufferSize n f ret
      | .cf => rxCf n f
      | .fc => (rxFc n f, [])
      | .other => (n, []) :=
  if_neg (not_not.mpr hid)

theorem rxCallback_ids (rxBufferSize : UInt16) (n : Node) (f : RxFrame) (ret : ℤ) :
    let n' := (isotpRxCallback rxBufferSize n f ret).1
    n'.iso.rxId = n.iso.rxId ∧ n'.iso.txId = n.iso.txId ∧ n'.iso.canSend = n.iso.canSend := by
  unfold isotpRxCallback
  split_ifs
  · exact ⟨rfl, rfl, rfl⟩
  · cases pciOf f with
    | sf => unfold rxSf; dsimp only; split_ifs <;> exact ⟨rfl, rfl, rfl⟩
    | ff => unfold rxFf; dsimp only; split_ifs <;> exact ⟨rfl, rfl, rfl⟩
    | cf => unfold rxCf; dsimp only; split_ifs <;> exact ⟨rfl, rfl, rfl⟩
    | fc => unfold rxFc; dsimp only; split_ifs <;> exact ⟨rfl, rfl, rfl⟩
    | other => exact ⟨rfl, rfl, rfl⟩

/-- No entry point but `uds_tp_isotp_init` changes the identifiers or the send function. -/
theorem step_ids (rxBufferSize : UInt16) (n : Node) (op : Op) :
    let n' := (step rxBufferSize n op).1
    n'.iso.rxId = n.iso.rxId ∧ n'.iso.txId = n.iso.txId ∧ n'.iso.canSend = n.iso.canSend := by
  cases op with
  | rx f ret => exact rxCallback_ids rxBufferSize n f ret
  | send data ret =>
    simp only [step, isotpSend, sendSf, sendMf]
    split_ifs <;> exact ⟨rfl, rfl, rfl⟩
  | process timeMs ret =>
    simp only [step]
    generalize hr : tpIsotpProcess n timeMs ret = r
    have h := process_effect n timeMs ret
    rw [hr] at h
    cases h <;> exact ⟨rfl, rfl, rfl⟩
  | setFd enabled => exact ⟨rfl, rfl, rfl⟩

/-- A static memory of zeros. -/
def zeroNode : Node where
  iso := { canSend := false, txId := 0, rxId := 0, blockSize := 0, stMin := 0, useCanFd := false,
           state := .idle, msgLen := 0, bytesProcessed := 0, sn := 0, bsCounter := 0,
           timerSt := 0, txDl := 0 }
  pendingTxSdu := fun _ => 0
  pendingTxLen := 0
  rxBuffer := fun _ => 0

/-- A received frame whose bytes are `bytes`, followed in memory by `beyond`. -/
def RxFrame.ofBytes (id : UInt32) (bytes : List UInt8) (beyond : ℕ → UInt8) : RxFrame where
  id := id
  data := fun i => bytes.getD i (beyond i)
  len := UInt8.ofNat bytes.length

/-- The arrival of a frame that is built for this node. -/
theorem step_ofBytes (rxBufferSize : UInt16) (n : Node) (bytes : List UInt8)
    (beyond : ℕ → UInt8) (ret : ℤ) :
    let f := RxFrame.ofBytes n.iso.rxId bytes beyond
    step rxBufferSize n (.rx f ret) = match pciOf f with
      | .sf => rxSf n f
      | .ff => rxFf rxBufferSize n f ret
      | .cf => rxCf n f
      | .fc => (rxFc n f, [])
      | .other => (n, []) :=
  step_rx rxBufferSize ret rfl

end UdsLib.Isotp
