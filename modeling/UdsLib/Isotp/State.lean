import Mathlib.Data.Int.Notation
import UdsLib.Bytes.Memory
import UdsLib.Bytes.Sdu

/-! The file-static state of `uds_tp_isotp.c`, the frames it exchanges and the
effects its entry points have on the outside. -/
namespace UdsLib.Isotp
open Bytes

/-- `uds_isotp_state_t`. -/
inductive State where
  | idle
  | rxWaitCf
  | txWaitFc
  | txSendingCf
  deriving DecidableEq, Repr

/-- `uds_isotp_ctx_t`. `canSend` records whether the function pointer is set. -/
structure Ctx where
  canSend : Bool
  txId : UInt32
  rxId : UInt32
  blockSize : UInt8
  stMin : UInt8
  useCanFd : Bool
  state : State
  msgLen : UInt16
  bytesProcessed : UInt16
  sn : UInt8
  bsCounter : UInt8
  timerSt : UInt32
  txDl : UInt8
  deriving DecidableEq, Repr

/-- The transport of one node: `g_isotp_ctx`, `g_pending_tx_sdu`, `g_pending_tx_len`
and the memory behind `config->rx_buffer`. -/
structure Node where
  iso : Ctx
  pendingTxSdu : ℕ → UInt8
  pendingTxLen : UInt16
  rxBuffer : ℕ → UInt8

/-- The arguments of `uds_isotp_rx_callback`: `data` is the memory behind the frame
pointer, of which only the first `len` bytes belong to the frame. -/
structure RxFrame where
  id : UInt32
  data : ℕ → UInt8
  len : UInt8

/-- The bytes of a received frame that lie below its length. -/
def RxFrame.bytes (f : RxFrame) : List UInt8 := slice f.data 0 f.len.toNat

/-- What an entry point does to its surroundings. -/
inductive Output where
  /-- `can_send(id, data, len)` was called and returned `ret`. -/
  | canSend (id : UInt32) (data : List UInt8) (ret : ℤ)
  /-- `memcpy` of `n` bytes to `rx_buffer[off]`. -/
  | rxWrite (off n : ℕ)
  /-- `uds_input_sdu` was called with these bytes. -/
  | inputSdu (sdu : List UInt8)
  /-- `uds_isotp_send` of these bytes returned `ret`. -/
  | returned (sdu : List UInt8) (ret : ℤ)
  deriving DecidableEq

/-- The frame a call of `can_send` put on the bus. -/
def Output.frame? : Output → Option (List UInt8)
  | .canSend _ data ret => if ret = 0 then some data else none
  | _ => none

/-- The message a `uds_isotp_send` that returned 0 accepted. -/
def Output.accepted? : Output → Option (List UInt8)
  | .returned sdu ret => if ret = 0 then some sdu else none
  | _ => none

def Output.sdu? : Output → Option (List UInt8)
  | .inputSdu sdu => some sdu
  | _ => none

/-- The frames put on the bus, in order. -/
def framesOf (os : List Output) : List (List UInt8) := os.filterMap Output.frame?

/-- The messages handed to `uds_input_sdu`, in order. -/
def sdusOf (os : List Output) : List (List UInt8) := os.filterMap Output.sdu?

/-- The messages accepted by `uds_isotp_send`, in call order. -/
def acceptedOf (os : List Output) : List (List UInt8) := os.filterMap Output.accepted?

@[simp] theorem framesOf_nil : framesOf [] = [] := rfl

@[simp] theorem framesOf_canSend (id : UInt32) (data : List UInt8) :
    framesOf [.canSend id data 0] = [data] := rfl

@[simp] theorem sdusOf_nil : sdusOf [] = [] := rfl

@[simp] theorem acceptedOf_nil : acceptedOf [] = [] := rfl

theorem framesOf_append (os ps : List Output) : framesOf (os ++ ps) = framesOf os ++ framesOf ps :=
  List.filterMap_append ..

theorem sdusOf_append (os ps : List Output) : sdusOf (os ++ ps) = sdusOf os ++ sdusOf ps :=
  List.filterMap_append ..

theorem acceptedOf_append (os ps : List Output) :
    acceptedOf (os ++ ps) = acceptedOf os ++ acceptedOf ps :=
  List.filterMap_append ..

/-- `uds_internal_tp_send_frame`: `ret` is what `can_send` returns if it is called. -/
def tpSendFrame (iso : Ctx) (data : List UInt8) (ret : ℤ) : ℤ × List Output :=
  if iso.canSend then (ret, [.canSend iso.txId data ret]) else (-1, [])

/-- `uds_dlc_align`. -/
def dlcAlign (len : UInt8) : UInt8 :=
  if len ≤ 8 then len
  else if len ≤ 12 then 12
  else if len ≤ 16 then 16
  else if len ≤ 20 then 20
  else if len ≤ 24 then 24
  else if len ≤ 32 then 32
  else if len ≤ 48 then 48
  else 64

/-- How much of `remaining` bytes a frame of this capacity takes:
`(remaining > capacity) ? capacity : (uint8_t) remaining`. -/
def copyLen (remaining : UInt16) (capacity : UInt8) : UInt8 :=
  if remaining > capacity.toUInt16 then capacity else remaining.toUInt8

@[simp] theorem copyLen_toNat (remaining : UInt16) (capacity : UInt8) :
    (copyLen remaining capacity).toNat = min remaining.toNat capacity.toNat := by
  have hc := capacity.toNat_lt
  unfold copyLen
  split_ifs with h
  · have : capacity.toNat < remaining.toNat := by simpa [UInt16.lt_iff_toNat_lt] using h
    omega
  · have : remaining.toNat ≤ capacity.toNat := by simpa [UInt16.lt_iff_toNat_lt] using h
    simp only [UInt16.toNat_toUInt8]
    omega

theorem sub_toNat {a b : UInt16} (h : b.toNat ≤ a.toNat) :
    (a - b).toNat = a.toNat - b.toNat :=
  UInt16.toNat_sub_of_le _ _ (UInt16.le_iff_toNat_le.mpr h)

theorem sub_eq_zero_iff_eq (a b : UInt16) : a - b = 0 ↔ a = b := by grind

/-- The first `dl` bytes of a zero-initialised 64-byte frame that starts with `bytes`. -/
def sendBuffer (bytes : List UInt8) (dl : UInt8) : List UInt8 :=
  (bytes ++ List.replicate 64 0).take dl.toNat

/-- `uds_tp_isotp_init` on the static memory `n`; `canSend` tells whether the pointer is set. -/
def tpIsotpInit (n : Node) (canSend : Bool) (txId rxId : UInt32) : Node :=
  { n with
    iso :=
      { canSend := canSend, txId := txId, rxId := rxId, blockSize := 8, stMin := 0,
        useCanFd := false, state := .idle, msgLen := 0, bytesProcessed := 0, sn := 0,
        bsCounter := 0, timerSt := 0, txDl := 8 } }

/-- `uds_tp_isotp_set_fd`. -/
def tpIsotpSetFd (n : Node) (enabled : Bool) : Node :=
  { n with iso := { n.iso with useCanFd := enabled, txDl := if enabled then 64 else 8 } }

end UdsLib.Isotp
