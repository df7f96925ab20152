import UdsLib.Isotp.State

/-! Transmission: `uds_send_sf`, `uds_send_mf`, `uds_isotp_send` and `uds_tp_isotp_process`,
with the frames they build. -/
namespace UdsLib.Isotp
open Bytes

def maxSfLen (useCanFd : Bool) : UInt8 := if useCanFd then 62 else 7

def maxDataInFf (useCanFd : Bool) : UInt8 := if useCanFd then 62 else 6

def maxCfPayload (useCanFd : Bool) : UInt8 := if useCanFd then 64 - 1 else 8 - 1

/-- The frame `uds_send_sf` builds: the escape form with a length byte from 8 bytes on. -/
def sfFrame (data : Sdu) : List UInt8 :=
  if data.len ≤ 7 then sendBuffer ((0x00 ||| data.len.toUInt8) :: data.bytes) 8
  else sendBuffer (0x00 :: data.len.toUInt8 :: data.bytes) (dlcAlign (data.len + 2).toUInt8)

def sendSf (n : Node) (data : Sdu) (ret : ℤ) : ℤ × Node × List Output :=
  let r := tpSendFrame n.iso (sfFrame data) ret
  (r.1, n, r.2)

/-- The First Frame `uds_send_mf` builds. -/
def ffFrame (useCanFd : Bool) (data : Sdu) : List UInt8 :=
  let toCopy := copyLen data.len (maxDataInFf useCanFd)
  let header := [(0x10 : UInt8) ||| ((data.len >>> 8) &&& 0x0F).toUInt8, (data.len &&& 0xFF).toUInt8]
  sendBuffer (header ++ data.bytes.take toCopy.toNat)
    (if useCanFd then dlcAlign (2 + toCopy) else 8)

/-- `uds_send_mf` takes the slot before it attempts the First Frame. -/
def mfStarted (n : Node) (data : Sdu) : Node :=
  { n with
    pendingTxSdu := blit n.pendingTxSdu 0 data.bytes
    pendingTxLen := data.len
    iso := { n.iso with
      msgLen := data.len
      bytesProcessed := (copyLen data.len (maxDataInFf n.iso.useCanFd)).toUInt16
      state := .txWaitFc
      sn := 1 } }

def sendMf (n : Node) (data : Sdu) (ret : ℤ) : ℤ × Node × List Output :=
  if data.len > 4095 ∨ data.len > 1024 then (-2, n, [])
  else
    let r := tpSendFrame n.iso (ffFrame n.iso.useCanFd data) ret
    (if r.1 ≠ 0 then -1 else 0, mfStarted n data, r.2)

/-- `uds_isotp_send`. -/
def isotpSend (n : Node) (data : Sdu) (ret : ℤ) : ℤ × Node × List Output :=
  if data.len ≤ (maxSfLen n.iso.useCanFd).toUInt16 then sendSf n data ret else sendMf n data ret

/-- The separation time in milliseconds that `uds_tp_isotp_process` decodes from STmin. -/
def requiredSt (stMin : UInt8) : UInt32 :=
  if stMin ≥ 0xF1 ∧ stMin ≤ 0xF9 then 1
  else if stMin > 0x7F then 0
  else stMin.toUInt32

/-- The payload of the next Consecutive Frame: as much of the rest as one frame carries. -/
def cfPayload (n : Node) : List UInt8 :=
  slice n.pendingTxSdu n.iso.bytesProcessed.toNat
    (copyLen (n.iso.msgLen - n.iso.bytesProcessed) (maxCfPayload n.iso.useCanFd)).toNat

/-- The Consecutive Frame `uds_tp_isotp_process` builds around its `to_copy` payload bytes. -/
def cfFrame (useCanFd : Bool) (sn : UInt8) (payload : List UInt8) : List UInt8 :=
  sendBuffer ((0x20 ||| sn) :: payload)
    (if useCanFd then dlcAlign (1 + UInt8.ofNat payload.length) else 8)

/-- The state after the next Consecutive Frame went out at time `timeMs`. -/
def cfSent (n : Node) (timeMs : UInt32) : Node :=
  let bytesProcessed := n.iso.bytesProcessed + UInt16.ofNat (cfPayload n).length
  { n with iso := { n.iso with
      bytesProcessed := bytesProcessed
      sn := (n.iso.sn + 1) &&& 0x0F
      bsCounter := n.iso.bsCounter + 1
      timerSt := timeMs
      state := if bytesProcessed ≥ n.iso.msgLen then .idle else n.iso.state } }

def Node.setState (n : Node) (state : State) : Node := { n with iso := { n.iso with state := state } }

/-- The block-size test of `uds_tp_isotp_process`. -/
def blockDone (iso : Ctx) : Prop := iso.blockSize > 0 ∧ iso.bsCounter ≥ iso.blockSize

instance (iso : Ctx) : Decidable (blockDone iso) := inferInstanceAs (Decidable (_ ∧ _))

def blockEnded (n : Node) : Node :=
  { n with iso := { n.iso with state := .txWaitFc, bsCounter := 0 } }

/-- `uds_tp_isotp_process` at time `timeMs`. -/
def tpIsotpProcess (n : Node) (timeMs : UInt32) (ret : ℤ) : Node × List Output :=
  if n.iso.state = .txSendingCf then
    if n.iso.msgLen - n.iso.bytesProcessed = 0 then (n.setState .idle, [])
    else if timeMs - n.iso.timerSt < requiredSt n.iso.stMin then (n, [])
    else if blockDone n.iso then (blockEnded n, [])
    else
      let r := tpSendFrame n.iso (cfFrame n.iso.useCanFd n.iso.sn (cfPayload n)) ret
      if r.1 = 0 then (cfSent n timeMs, r.2) else (n, r.2)
  else (n, [])

/-- What one process call can do, with the condition under which it does it. -/
inductive ProcessEffect (n : Node) (timeMs : UInt32) (ret : ℤ) : Node × List Output → Prop where
  | notSending : n.iso.state ≠ .txSendingCf → ProcessEffect n timeMs ret (n, [])
  | drained : n.iso.state = .txSendingCf → n.iso.msgLen = n.iso.bytesProcessed →
      ProcessEffect n timeMs ret (n.setState .idle, [])
  | early : n.iso.state = .txSendingCf → n.iso.msgLen ≠ n.iso.bytesProcessed →
      timeMs - n.iso.timerSt < requiredSt n.iso.stMin → ProcessEffect n timeMs ret (n, [])
  | blockEnd : n.iso.state = .txSendingCf → n.iso.msgLen ≠ n.iso.bytesProcessed →
      requiredSt n.iso.stMin ≤ timeMs - n.iso.timerSt → blockDone n.iso →
      ProcessEffect n timeMs ret (blockEnded n, [])
  | sent : n.iso.state = .txSendingCf → n.iso.msgLen ≠ n.iso.bytesProcessed →
      requiredSt n.iso.stMin ≤ timeMs - n.iso.timerSt → ¬ blockDone n.iso →
      n.iso.canSend = true → ret = 0 →
      ProcessEffect n timeMs ret (cfSent n timeMs,
        [.canSend n.iso.txId (cfFrame n.iso.useCanFd n.iso.sn (cfPayload n)) ret])
  | refused : n.iso.state = .txSendingCf → n.iso.msgLen ≠ n.iso.bytesProcessed →
      requiredSt n.iso.stMin ≤ timeMs - n.iso.timerSt → ¬ blockDone n.iso →
      (n.iso.canSend = true → ret ≠ 0) →
      ProcessEffect n timeMs ret (n,
        (tpSendFrame n.iso (cfFrame n.iso.useCanFd n.iso.sn (cfPayload n)) ret).2)

theorem process_effect (n : Node) (timeMs : UInt32) (ret : ℤ) :
    ProcessEffect n timeMs ret (tpIsotpProcess n timeMs ret) := by
  unfold tpIsotpProcess
  split_ifs with hs hrem hst hbs
  · exact .drained hs (by rwa [sub_eq_zero_iff_eq] at hrem)
  · exact .early hs (by rwa [sub_eq_zero_iff_eq] at hrem) hst
  · exact .blockEnd hs (by rwa [sub_eq_zero_iff_eq] at hrem) (UInt32.not_lt.mp hst) hbs
  · have hrem : n.iso.msgLen ≠ n.iso.bytesProcessed := by rwa [sub_eq_zero_iff_eq] at hrem
    have hst := UInt32.not_lt.mp hst
    dsimp only
    by_cases hc : n.iso.canSend = true
    · by_cases hr : ret = 0
      · have h : ProcessEffect n timeMs ret _ := .sent hs hrem hst hbs hc hr
        simpa [tpSendFrame, hc, hr] using h
      · have h : ProcessEffect n timeMs ret _ := .refused hs hrem hst hbs fun _ => hr
        rw [if_neg (by simpa [tpSendFrame, hc] using hr)]
        exact h
    · have h : ProcessEffect n timeMs ret _ := .refused hs hrem hst hbs fun h => absurd h hc
      rw [if_neg (by simp [tpSendFrame, hc])]
      exact h
  · exact .notSending hs

end UdsLib.Isotp
