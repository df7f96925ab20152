import UdsLib.Device.Serving

/-! `examples/host_sim/main.c`: the ECU simulator with its mock callbacks and its main loop. -/
namespace UdsLib.HostSim
open Bytes Machine UdsLib.Core

/-- The state of the mock callbacks: the clock readings to come, how many were taken, `mock_memory`
with what lies behind it, and whether a `memcpy` has left it. -/
structure Ecu where
  clock : ℕ → UInt32
  readings : ℕ
  mockMemory : ℕ → UInt8
  strayed : Bool

/-- `sizeof(mock_memory)`. -/
abbrev mockMemorySize : ℕ := 1024

/-- The simulator when it starts: `mock_memory` is static. -/
def Ecu.initial (clock : ℕ → UInt32) (behind : ℕ → UInt8) : Ecu where
  clock := clock
  readings := 0
  mockMemory := fun i => if i < mockMemorySize then 0 else behind i
  strayed := false

/-- `get_time_ms`. -/
def getTimeMs (w : Ecu) : UInt32 × Ecu := (w.clock w.readings, { w with readings := w.readings + 1 })

/-- A range that a `memcpy` touches. -/
def Ecu.touch (w : Ecu) (addr size : UInt32) : Ecu :=
  { w with strayed := w.strayed || mockMemorySize < addr.toNat + size.toNat }

/-- `fn_mem_read`. The sum is taken in 32 bits. -/
def fnMemRead (addr size : UInt32) (w : Ecu) : Reply × Ecu :=
  if addr + size > 1024 then (⟨-0x31, []⟩, w)
  else (⟨0, slice w.mockMemory addr.toNat size.toNat⟩, w.touch addr size)

/-- `fn_mem_write`. -/
def fnMemWrite (addr size : UInt32) (data : Slice) (w : Ecu) : Reply × Ecu :=
  if addr + size > 1024 then (⟨-0x31, []⟩, w)
  else (⟨0, []⟩, { w.touch addr size with mockMemory := blit w.mockMemory addr.toNat data.bytes })

def mockDtcRead (subfn : UInt8) : Reply :=
  if subfn = 0x01 then ⟨4, [0x01, 0x01, 0x00, 0x02]⟩ else ⟨-0x31, []⟩

def mockSecuritySeed (maxLen : ℕ) : Reply :=
  if maxLen < 4 then ⟨-0x22, []⟩ else ⟨4, [0xDE, 0xAD, 0xBE, 0xEF]⟩

def mockAuth (subfn : UInt8) : Reply :=
  if subfn = 0x01 then ⟨0, []⟩
  else if subfn = 0x02 then ⟨1, [0x01]⟩
  else ⟨-0x22, []⟩

def mockRoutineControl (id : UInt16) : Reply := if id = 0xFF00 then ⟨1, [0x00]⟩ else ⟨-0x31, []⟩

def mockIoControl (id : UInt16) : Reply := if id = 0x0123 then ⟨1, [0x55]⟩ else ⟨-0x31, []⟩

/-- The callbacks of the simulator. `log_event` prints the time; the others that have no effect print
a line and are done. -/
def app (_ : Ctx) (call : Call) (w : Ecu) : Reply × Ecu :=
  match call with
  | .log _ _ => (⟨0, []⟩, (getTimeMs w).2)
  | .securitySeed _ seedBuf => (mockSecuritySeed seedBuf.cap, w)
  | .dtcRead subfn _ => (mockDtcRead subfn, w)
  | .auth subfn _ _ => (mockAuth subfn, w)
  | .routineControl _ id _ _ => (mockRoutineControl id, w)
  | .memRead addr size _ => fnMemRead addr size w
  | .memWrite addr size data => fnMemWrite addr size data w
  | .ioControl id _ _ _ => (mockIoControl id, w)
  | .periodicRead _ _ => (⟨2, [0xAA, 0xBB]⟩, w)
  | _ => (⟨0, []⟩, w)

/-- The members of `cfg` that `main` sets. -/
def isSet : Callback → Bool
  | .fnLog | .fnReset | .fnSecuritySeed | .fnSecurityKey | .fnDtcRead | .fnDtcClear | .fnAuth
  | .fnRoutineControl | .fnRequestDownload | .fnTransferData | .fnTransferExit | .fnMemRead
  | .fnMemWrite | .fnIoControl | .fnRequestUpload | .fnPeriodicRead => true
  | .fnCommControl | .fnIsSafe | .fnNvmSave | .fnNvmLoad | .fnMutexLock | .fnMutexUnlock => false

/-- `g_ecu_vin` lies at 0 and `g_customer_name` at 16. -/
def ecuDids : List DidEntry :=
  [⟨0xF190, 14, 0, 0, false, false, some 0⟩, ⟨0x0123, 16, 0, 0, false, false, some 16⟩]

def asciiOf (text : String) : List UInt8 := text.toList.map fun c => c.toNat.toUInt8

/-- The memory of the DID storages when the simulator starts. -/
def staticData : ℕ → UInt8 :=
  blit (blit (fun _ => 0) 0 (asciiOf "UDSLIB_SIM_001")) 16 (asciiOf "ECU_OWNER")

/-- `cfg` of `main`, but for the transport. -/
def config : Config Ecu where
  getTimeMs := getTimeMs
  fnTpSend _ _ w := (0, w)
  isSet := isSet
  app := app
  responseCb _ _ _ := .done 0
  p2Ms := 50
  p2StarMs := 2000
  txBufferSize := 1024
  strictCompliance := false
  logLevel := 0
  securityDelayMs := 0
  securityMaxAttempts := 0
  rcrrpLimit := 0
  transferAcceptLastBlockReplay := false
  didTable := ecuDids
  userServices := []
  p2ServerMax := 0
  p2StarServerMax := 0

/-- `mock_can_send` always returns 0. -/
def device : Device Ecu where
  config := config
  canSend _ := 0
  rxBufferSize := 1024

/-- The locals of `main`: the stack with all around it, and `slow_op_start`. -/
structure Sim where
  state : Device.State Ecu
  slowOpStart : UInt32

/-- `main` up to its loop. -/
def boot (mem : Isotp.Node) (enableFd : Bool) (app : Ecu) : Sim where
  state :=
    let transport : Isotp.Station := ⟨Isotp.tpIsotpInit mem true 0x7E8 0x7E0, []⟩
    (udsInit device.wired).final
      ⟨Ctx.zero, fun _ => 0, staticData, ⟨transport.does device.rxBufferSize (.setFd enableFd), app⟩⟩
  slowOpStart := 0

/-- The beginning of each round: the clock is read, and both layers are served. -/
def serveOps (now : UInt32) : List (Device.Op Ecu) :=
  [.elapse fun w => (getTimeMs w).2, .process, .tpProcess now]

/-- One round of the main loop, with the packet that `recvfrom` has found. -/
def turn (s : Sim) (received : Option Isotp.RxFrame) : Sim × List Event :=
  let now := (getTimeMs s.state.world.app).1
  let served := exec device.step s.state (serveOps now)
  let begun := if served.ctx.p2MsgPending ∧ served.ctx.pendingSid = 0x31 ∧ s.slowOpStart = 0 then now
    else s.slowOpStart
  let finished : Bool := begun > 0 ∧ now - begun ≥ 1500
  let rest : List (Device.Op Ecu) :=
    (if finished then [.fill 0 [0x71], .fill 1 [0x01], .sendResponse 2] else []) ++
      received.toList.map .rxCallback
  (⟨exec device.step served rest, if finished then 0 else begun⟩,
    trace device.step s.state (serveOps now) ++ trace device.step served rest)

/-- The calls of a round. -/
def roundOps (now : UInt32) (received : Option Isotp.RxFrame) : List (Device.Op Ecu) :=
  serveOps now ++ received.toList.map .rxCallback

/-- The same without the mock of a long running operation. -/
def plainTurn (s : Device.State Ecu) (received : Option Isotp.RxFrame) :
    Device.State Ecu × List Event :=
  let ops := roundOps (getTimeMs s.world.app).1 received
  (exec device.step s ops, trace device.step s ops)

/-! ### The main loop -/

theorem onTheSpot : Device.OnTheSpot device := ⟨rfl, fun _ => le_refl 0⟩

theorem serveOps_serve (now : UInt32) : ∀ op ∈ serveOps now, op.Serves := by
  simp [serveOps, Device.Op.Serves]

theorem roundOps_serve (now : UInt32) (received : Option Isotp.RxFrame) :
    ∀ op ∈ roundOps now received, op.Serves := by
  intro op hop
  rcases List.mem_append.mp hop with hserve | hreceive
  · exact serveOps_serve now op hserve
  · obtain ⟨f, -, rfl⟩ := List.mem_map.mp hreceive
    trivial

/-- What every round finds: no request is in progress, and no long running operation either. -/
structure Sim.Quiet (s : Sim) : Prop where
  closed : Closed s.state.ctx
  idle : s.slowOpStart = 0

/-- The mock of a long running operation is passed by. -/
theorem turn_plain {s : Sim} (hs : s.Quiet) (received : Option Isotp.RxFrame) :
    turn s received = (⟨(plainTurn s.state received).1, 0⟩, (plainTurn s.state received).2) := by
  have hserved := onTheSpot.run_closed (serveOps_serve (getTimeMs s.state.world.app).1) hs.closed
  have hnone (c : Prop) (now : UInt32) [Decidable c] (hc : ¬ c) :
      (if c then now else s.slowOpStart) = 0 := (if_neg hc).trans hs.idle
  have hunfinished (now : UInt32) : ¬ ((0 : UInt32) > 0 ∧ now - 0 ≥ 1500) :=
    fun h => absurd h.1 (by decide)
  unfold turn plainTurn roundOps
  dsimp only
  rw [hnone _ _ fun h => absurd h.1 (Bool.eq_false_iff.mp hserved.idle),
    decide_eq_false (hunfinished _)]
  simp only [exec_append, trace_append]
  rfl

theorem turn_quiet {s : Sim} (hs : s.Quiet) (received : Option Isotp.RxFrame) :
    (turn s received).1.Quiet := by
  rw [turn_plain hs]
  exact ⟨onTheSpot.run_closed (roundOps_serve _ received) hs.closed, rfl⟩

section Run

variable (mem : Isotp.Node) (enableFd : Bool) (ecu : Ecu) (packets : List (Option Isotp.RxFrame))

theorem boot_quiet : (boot mem enableFd ecu).Quiet := ⟨udsInit_closed device.wired _, rfl⟩

theorem boot_served : Device.Served [] (boot mem enableFd ecu).state := by
  refine ⟨(boot_quiet mem enableFd ecu).closed, ?_⟩
  rw [show (boot mem enableFd ecu).state.world.transport = _ from Device.udsInit_untouched device _]
  rfl

theorem loop_plain :
    (exec turn (boot mem enableFd ecu) packets).Quiet ∧
      exec plainTurn (boot mem enableFd ecu).state packets =
        (exec turn (boot mem enableFd ecu) packets).state ∧
      trace plainTurn (boot mem enableFd ecu).state packets =
        trace turn (boot mem enableFd ecu) packets :=
  runs_agree (I := Sim.Quiet) Sim.state (fun _ received hs => turn_quiet hs received)
    (fun s received hs => by rw [turn_plain hs received]) (boot_quiet mem enableFd ecu) packets

end Run

/-- However the main loop of the simulator runs, its mock of a long running operation is dead code: the
loop does what it does without it, and no request is ever in progress between two calls. Every message
that the transport puts together is dispatched to the services in the same round, once and in order. -/
theorem slow_operation_dead (mem : Isotp.Node) (enableFd : Bool) (ecu : Ecu)
    (packets : List (Option Isotp.RxFrame)) :
    let r := exec turn (boot mem enableFd ecu) packets
    let es := trace turn (boot mem enableFd ecu) packets
    r.slowOpStart = 0 ∧ r.state.ctx.p2MsgPending = false ∧
      r.state = exec plainTurn (boot mem enableFd ecu).state packets ∧
      es = trace plainTurn (boot mem enableFd ecu).state packets ∧
      dispatchesOf es = (Isotp.sdusOf r.state.world.transport.log).filterMap dispatchOf? := by
  intro r es
  obtain ⟨hquiet, hstate, hevents⟩ := loop_plain mem enableFd ecu packets
  have hserved : Device.Served (trace plainTurn (boot mem enableFd ecu).state packets)
      (exec plainTurn (boot mem enableFd ecu).state packets) :=
    trace_invariant (H := Device.Served)
      (fun es s received h _ => Device.run_serves onTheSpot (roundOps_serve _ received) h)
      (boot_served mem enableFd ecu) (Along.trivial _ packets)
  rw [hstate, hevents] at hserved
  exact ⟨hquiet.idle, hquiet.closed.idle, hstate.symm, hevents.symm, hserved.dispatched⟩

end UdsLib.HostSim
