import UdsLib.Isotp.State

/-! Reception: `uds_rx_sf`, `uds_rx_ff`, `uds_rx_cf`, `uds_rx_fc` and `uds_isotp_rx_callback`.
`rxBufferSize` is `config->rx_buffer_size`. -/
namespace UdsLib.Isotp
open Bytes

/-- `uds_rx_sf`. The length test compares in `int`, so a frame shorter than its header
makes the right-hand side negative. -/
def rxSf (n : Node) (f : RxFrame) : Node × List Output :=
  let n' : Node := { n with iso := { n.iso with state := .idle } }
  let nibble : UInt8 := f.data 0 &&& 0x0F
  let sduLen : UInt8 := if nibble = 0 then f.data 1 else nibble
  let dataOffset : ℕ := if nibble = 0 then 2 else 1
  if nibble = 0 ∧ sduLen = 0 then (n', [])
  else if (sduLen.toNat : ℤ) > (f.len.toNat : ℤ) - dataOffset then (n', [])
  else (n', [.inputSdu (slice f.data dataOffset sduLen.toNat)])

/-- The announced message length of a First Frame. -/
def ffSduLen (f : RxFrame) : UInt16 :=
  ((f.data 0).toUInt16 &&& 0x0F) <<< 8 ||| (f.data 1).toUInt16

/-- The number of payload bytes `uds_rx_ff` takes from a First Frame of length `len`. -/
def dataInFf (len : UInt8) : UInt8 := if len > 8 then len - 2 else 6

/-- `uds_rx_ff`; `ret` is what `can_send` returns for the Flow Control frame. -/
def rxFf (rxBufferSize : UInt16) (n : Node) (f : RxFrame) (ret : ℤ) : Node × List Output :=
  let sduLen := ffSduLen f
  if sduLen < 8 then ({ n with iso := { n.iso with state := .idle } }, [])
  else
    let iso : Ctx :=
      { n.iso with
        msgLen := sduLen, bytesProcessed := (dataInFf f.len).toUInt16, sn := 1, state := .rxWaitCf }
    if rxBufferSize < sduLen then ({ n with iso := { iso with state := .idle } }, [])
    else
      let rxBuffer := blit n.rxBuffer 0 (slice f.data 2 (dataInFf f.len).toNat)
      let fc : List UInt8 := [0x30 ||| 0, iso.blockSize, iso.stMin, 0, 0, 0, 0, 0]
      ({ n with iso := iso, rxBuffer := rxBuffer },
        .rxWrite 0 (dataInFf f.len).toNat :: (tpSendFrame iso fc ret).2)

/-- `uds_rx_cf`. -/
def rxCf (n : Node) (f : RxFrame) : Node × List Output :=
  if n.iso.state ≠ .rxWaitCf then (n, [])
  else if f.data 0 &&& 0x0F ≠ n.iso.sn then ({ n with iso := { n.iso with state := .idle } }, [])
  else
    let remaining : UInt16 := n.iso.msgLen - n.iso.bytesProcessed
    let dataCapacity : UInt8 := f.len - 1
    let toCopy := copyLen remaining dataCapacity
    let off := n.iso.bytesProcessed.toNat
    let rxBuffer := blit n.rxBuffer off (slice f.data 1 toCopy.toNat)
    let bytesProcessed := n.iso.bytesProcessed + toCopy.toUInt16
    let iso : Ctx := { n.iso with sn := (n.iso.sn + 1) &&& 0x0F, bytesProcessed := bytesProcessed }
    if bytesProcessed ≥ iso.msgLen then
      ({ n with iso := { iso with state := .idle }, rxBuffer := rxBuffer },
        [.rxWrite off toCopy.toNat, .inputSdu (slice rxBuffer 0 iso.msgLen.toNat)])
    else ({ n with iso := iso, rxBuffer := rxBuffer }, [.rxWrite off toCopy.toNat])

def ctsReceived (n : Node) (f : RxFrame) : Node :=
  { n with iso := { n.iso with
      state := .txSendingCf, blockSize := f.data 1, stMin := f.data 2 } }

/-- `uds_rx_fc`. Only a CTS in `ISOTP_TX_WAIT_FC` has an effect. -/
def rxFc (n : Node) (f : RxFrame) : Node :=
  if n.iso.state ≠ .txWaitFc then n
  else if f.data 0 &&& 0x0F = 0 then ctsReceived n f
  else n

/-- The frame kinds `uds_isotp_rx_callback` distinguishes by the PCI nibble. -/
inductive Pci where
  | sf
  | ff
  | cf
  | fc
  | other
  deriving DecidableEq, Repr

/-- The `switch` of `uds_isotp_rx_callback` on `data[0] & 0xF0`. -/
def pciOf (f : RxFrame) : Pci :=
  let pci := f.data 0 &&& 0xF0
  if pci = 0x00 then .sf
  else if pci = 0x10 then .ff
  else if pci = 0x20 then .cf
  else if pci = 0x30 then .fc
  else .other

/-- `uds_isotp_rx_callback`. -/
def isotpRxCallback (rxBufferSize : UInt16) (n : Node) (f : RxFrame) (ret : ℤ) :
    Node × List Output :=
  if f.id ≠ n.iso.rxId then (n, [])
  else match pciOf f with
    | .sf => rxSf n f
    | .ff => rxFf rxBufferSize n f ret
    | .cf => rxCf n f
    | .fc => (rxFc n f, [])
    | .other => (n, [])

end UdsLib.Isotp
