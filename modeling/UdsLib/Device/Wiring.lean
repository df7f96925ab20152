import UdsLib.Core.World
import UdsLib.Isotp.Link

/-! The stack on its own transport, as `examples/host_sim` and `examples/client_demo` wire them:
`fn_tp_send` is `uds_isotp_send`, and the super loop calls `uds_process`, `uds_tp_isotp_process` and,
for a received frame, `uds_isotp_rx_callback`. -/
namespace UdsLib
open Bytes Machine

/-- What lies around the stack of a device: its transport, with all that it has done so far, and
the state of the application. -/
structure World (V : Type) where
  transport : Isotp.Station
  app : V

/-- The application's side of a device. `config` gives everything but `fn_tp_send`; `canSend` is what
the `can_send` of the driver returns after all that the transport has done so far. -/
structure Device (V : Type) where
  config : Core.Config V
  canSend : List Isotp.Output → ℤ
  rxBufferSize : UInt16

namespace Device

/-- A call of the transport, whatever `can_send` returns in it. -/
inductive TpCall where
  | rx (f : Isotp.RxFrame)
  | send (data : Sdu)
  | process (timeMs : UInt32)
  | setFd (enabled : Bool)

def TpCall.op (ret : ℤ) : TpCall → Isotp.Op
  | .rx f => .rx f ret
  | .send data => .send data ret
  | .process timeMs => .process timeMs ret
  | .setFd enabled => .setFd enabled

variable {V : Type}

/-- The message of a call that passes its length as a `uint16_t`. -/
def sduOf (data : List UInt8) : Sdu where
  bytes := data.take (data.length % 65536)
  length_lt := by
    rw [List.length_take]
    omega

@[simp] theorem sduOf_bytes {data : List UInt8} (h : data.length < 65536) :
    (sduOf data).bytes = data := by
  show data.take (data.length % 65536) = data
  rw [Nat.mod_eq_of_lt h, List.take_length]

/-- Application code sees and changes its own part of the surroundings only. -/
def liftApp : Core.AppProg V → Core.AppProg (World V)
  | .done res => .done res
  | .look k => .look fun c w => liftApp (k c w.app)
  | .put v k => .look fun _ w => .put { w with app := v } (liftApp k)
  | .fill off bytes k => .fill off bytes (liftApp k)
  | .sendResponse len k => .sendResponse len fun res => liftApp (k res)
  | .sendNrc sid nrc k => .sendNrc sid nrc fun res => liftApp (k res)
  | .clientRequest sid data cb k => .clientRequest sid data cb fun res => liftApp (k res)

/-- A user service of the device. -/
def liftEntry (entry : Core.ServiceEntry (Sdu → Core.AppProg V)) :
    Core.ServiceEntry (Sdu → Core.AppProg (World V)) where
  sid := entry.sid
  minLen := entry.minLen
  sessionMask := entry.sessionMask
  securityMask := entry.securityMask
  handler := fun d => liftApp (entry.handler d)
  subMask := entry.subMask

/-- The transport as a machine with its driver that remembers what it has done. -/
def stationStep (d : Device V) (st : Isotp.Station) (c : TpCall) :
    Isotp.Station × List Isotp.Output :=
  let op := c.op (d.canSend st.log)
  (st.does d.rxBufferSize op, (Isotp.step d.rxBufferSize st.node op).2)

/-- An entry point of the transport is called. -/
def call (d : Device V) (w : World V) (c : TpCall) : World V :=
  { w with transport := (d.stationStep w.transport c).1 }

/-- `uds_isotp_send` as the `fn_tp_send` of the device. -/
def tpSend (d : Device V) (data : List UInt8) (w : World V) : ℤ × World V :=
  ((Isotp.isotpSend w.transport.node (sduOf data) (d.canSend w.transport.log)).1,
    d.call w (.send (sduOf data)))

/-- The `uds_config_t` of the device. -/
def wired (d : Device V) : Core.Config (World V) where
  getTimeMs w :=
    let r := d.config.getTimeMs w.app
    (r.1, { w with app := r.2 })
  fnTpSend _ data w := d.tpSend data w
  isSet := d.config.isSet
  app c call w :=
    let r := d.config.app c call w.app
    (r.1, { w with app := r.2 })
  responseCb cb sid data := liftApp (d.config.responseCb cb sid data)
  p2Ms := d.config.p2Ms
  p2StarMs := d.config.p2StarMs
  txBufferSize := d.config.txBufferSize
  strictCompliance := d.config.strictCompliance
  logLevel := d.config.logLevel
  securityDelayMs := d.config.securityDelayMs
  securityMaxAttempts := d.config.securityMaxAttempts
  rcrrpLimit := d.config.rcrrpLimit
  transferAcceptLastBlockReplay := d.config.transferAcceptLastBlockReplay
  didTable := d.config.didTable
  userServices := d.config.userServices.map liftEntry
  p2ServerMax := d.config.p2ServerMax
  p2StarServerMax := d.config.p2StarServerMax

/-- The device as a whole: its stack, and around it `World V`. -/
abbrev State (V : Type) : Type := Core.Sys (World V)

/-- A call of the super loop or of the application, or a move of the application's own state. -/
inductive Op (V : Type) where
  | rxCallback (f : Isotp.RxFrame)
  | tpProcess (timeMs : UInt32)
  | setFd (enabled : Bool)
  | process
  | clientRequest (sid : UInt8) (data : Buf) (cb : Option ℕ)
  | fill (off : ℕ) (bytes : List UInt8)
  | sendResponse (len : UInt16)
  | sendNrc (sid nrc : UInt8)
  | elapse (f : V → V)

/-- An entry point of the transport is called from outside the stack. -/
def outer (d : Device V) (s : State V) (c : TpCall) : State V :=
  { s with world := d.call s.world c }

/-- `uds_isotp_rx_callback`: a complete message goes on to `uds_input_sdu` as its last action. -/
def rxCallback (d : Device V) (s : State V) (f : Isotp.RxFrame) : State V × List Core.Event :=
  match Isotp.sdusOf (d.stationStep s.world.transport (.rx f)).2 with
  | [] => (d.outer s (.rx f), [])
  | sdu :: _ => Core.step d.wired (d.outer s (.rx f)) (.inputSdu (.bytes (sduOf sdu)))

def step (d : Device V) (s : State V) : Op V → State V × List Core.Event
  | .rxCallback f => d.rxCallback s f
  | .tpProcess timeMs => (d.outer s (.process timeMs), [])
  | .setFd enabled => (d.outer s (.setFd enabled), [])
  | .process => Core.step d.wired s .process
  | .clientRequest sid data cb => Core.step d.wired s (.clientRequest sid data cb)
  | .fill off bytes => Core.step d.wired s (.fill off bytes)
  | .sendResponse len => Core.step d.wired s (.sendResponse len)
  | .sendNrc sid nrc => Core.step d.wired s (.sendNrc sid nrc)
  | .elapse f => Core.step d.wired s (.elapse fun w => { w with app := f w.app })

/-- The device after `uds_tp_isotp_init` on the static memory `mem` and `uds_init`. -/
def start (d : Device V) (mem : Isotp.Node) (txId rxId : UInt32) (app : V) : State V :=
  (Core.udsInit d.wired).final
    ⟨Core.Ctx.zero, fun _ => 0, fun _ => 0, ⟨⟨Isotp.tpIsotpInit mem true txId rxId, []⟩, app⟩⟩

end Device

end UdsLib
