import UdsLib.Core.Accesses
import UdsLib.Device.HostSim

/-! `mock_memory` of the simulator. Its callbacks compare the end of a range in 32-bit arithmetic, so a
range that wraps around passes, and the `memcpy` leaves the array. -/
namespace UdsLib.Device
open Bytes Machine Prog UdsLib.Core

variable {V : Type} {d : Device V} {R : World V → List Event → World V → Prop}

/-- The application's own doings keep the relation. -/
def Op.Moves (R : World V → List Event → World V → Prop) : Op V → Prop
  | .elapse f => ∀ w, R w [] { w with app := f w.app }
  | _ => True

/-- What the stack keeps of the application's state, and the transport leaves alone, a device keeps. -/
theorem step_keeps (h : WorldCode d.wired R)
    (hopening : ∀ d w opening, Opening d opening → R w opening w) (hcall : ∀ w c, R w [] (d.call w c))
    {op : Op V} (hop : op.Moves R) (s : State V) :
    R s.world (step d s op).2 (step d s op).1.world := by
  cases op with
  | rxCallback f =>
    cases hsdus : Isotp.sdusOf (d.stationStep s.world.transport (.rx f)).2 with
    | nil =>
      have hrx : step d s (.rxCallback f) = (d.outer s (.rx f), []) := by
        show rxCallback d s f = _
        unfold rxCallback
        rw [hsdus]
      rw [hrx]
      exact hcall s.world (.rx f)
    | cons sdu sdus =>
      have hrx : step d s (.rxCallback f) =
          Core.step d.wired (d.outer s (.rx f)) (.inputSdu (.bytes (sduOf sdu))) := by
        show rxCallback d s f = _
        unfold rxCallback
        rw [hsdus]
      have hinput := h.step_keeps hopening (.inputSdu (.bytes (sduOf sdu))) nofun (d.outer s (.rx f))
      have htrans := h.trans (hcall s.world (.rx f)) hinput
      rw [hrx]
      exact htrans
  | tpProcess timeMs => exact hcall s.world _
  | setFd enabled => exact hcall s.world _
  | process => exact h.step_keeps hopening .process nofun s
  | clientRequest sid data cb => exact h.step_keeps hopening (.clientRequest sid data cb) nofun s
  | fill off bytes => exact h.step_keeps hopening (.fill off bytes) nofun s
  | sendResponse len => exact h.step_keeps hopening (.sendResponse len) nofun s
  | sendNrc sid nrc => exact h.step_keeps hopening (.sendNrc sid nrc) nofun s
  | elapse f => exact hop s.world

theorem run_keeps (h : WorldCode d.wired R)
    (hopening : ∀ d w opening, Opening d opening → R w opening w) (hcall : ∀ w c, R w [] (d.call w c))
    {ops : List (Op V)} (hops : ∀ op ∈ ops, op.Moves R) (s : State V) :
    R s.world (trace (step d) s ops) (exec (step d) s ops).world := by
  induction ops generalizing s with
  | nil => exact h.refl s.world
  | cons op ops ih =>
    obtain ⟨hop, hops⟩ := List.forall_mem_cons.mp hops
    rw [trace_cons]
    exact h.trans (step_keeps h hopening hcall hop s) (ih hops _)

/-- The memory of the application is accessed for the messages that the transport puts together. -/
theorem run_accesses (hspot : OnTheSpot d) (hungated : d.config.isSet .fnIsSafe = false) {s : State V}
    (hs : Attends s.ctx) {ops : List (Op V)} (hops : ∀ op ∈ ops, op.Serves) :
    ∃ msgs, Isotp.sdusOf (exec (step d) s ops).world.transport.log =
        Isotp.sdusOf s.world.transport.log ++ msgs ∧
      accessesOf (trace (step d) s ops) = msgs.filterMap (accessOf? d.wired) ∧
      Attends (exec (step d) s ops).ctx := by
  obtain ⟨calls, entries, hprojects⟩ := device_projects d s ops
  have hcalls := hprojects.serves hops
  have haccesses := Core.run_accesses hspot.wired hungated hs hcalls
  have hattends := hs.run hspot.wired hcalls
  rw [hprojects.stack] at hattends
  rw [hprojects.events] at haccesses
  refine ⟨Isotp.sdusOf (trace d.stationStep s.world.transport entries), ?_, ?_, hattends⟩
  · rw [← hprojects.transport, station_log, Isotp.sdusOf_append]
  · rw [haccesses, accessesIn, hprojects.messages_content]

end UdsLib.Device

namespace UdsLib.HostSim
open Bytes Machine Prog UdsLib.Core

/-- The range is in `mock_memory`. -/
def InMemory (addr size : UInt32) : Prop := addr.toNat + size.toNat ≤ mockMemorySize

/-- The range wraps around, so that in 32 bits it seems to end in `mock_memory`. -/
def Strays (range : UInt32 × UInt32) : Prop :=
  2 ^ 32 ≤ range.1.toNat + range.2.toNat ∧ range.1.toNat + range.2.toNat ≤ 2 ^ 32 + mockMemorySize

/-- What the comparison of the callbacks lets through. -/
theorem passes_iff (addr size : UInt32) :
    ¬ addr + size > 1024 ↔ InMemory addr size ∨ Strays (addr, size) := by
  have haddr := addr.toNat_lt
  have hsize := size.toNat_lt
  have hlimit : (1024 : UInt32).toNat = mockMemorySize := rfl
  have hroom : mockMemorySize = 1024 := rfl
  rw [gt_iff_lt, UInt32.lt_iff_toNat_lt, UInt32.toNat_add, hlimit]
  unfold InMemory Strays
  dsimp only
  omega

theorem strays_iff (addr size : UInt32) :
    Strays (addr, size) ↔ ¬ addr + size > 1024 ∧ mockMemorySize < addr.toNat + size.toNat := by
  have hroom : mockMemorySize = 1024 := rfl
  rw [passes_iff]
  unfold InMemory Strays
  dsimp only
  omega

/-- `strayed` is set by the accesses that stray. -/
def Watches (w : World Ecu) (es : List Event) (v : World Ecu) : Prop :=
  v.app.strayed = true ↔ w.app.strayed = true ∨ ∃ range ∈ accessesOf es, Strays range

theorem watches_refl (w : World Ecu) : Watches w [] w := by simp [Watches, accessesOf]

theorem watches_none {w v : World Ecu} {e : Event} (he : e.access? = none)
    (hsame : v.app.strayed = w.app.strayed) : Watches w [e] v := by
  have hnone : accessesOf [e] = [] := List.filterMap_cons_none he
  unfold Watches
  rw [hnone, hsame]
  simp

theorem watches_access {w v : World Ecu} {e : Event} {addr size : UInt32}
    (he : e.access? = some (addr, size))
    (hnext : v.app.strayed = if addr + size > 1024 then w.app.strayed else
      (w.app.touch addr size).strayed) : Watches w [e] v := by
  have hone : accessesOf [e] = [(addr, size)] := List.filterMap_cons_some he
  unfold Watches
  rw [hone, hnext]
  simp only [List.mem_singleton, exists_eq_left, strays_iff]
  split_ifs with hguard
  · simp [hguard]
  · simp [hguard, Ecu.touch]

theorem watches_call (c : Ctx) (call : Call) (w : World Ecu) :
    Watches w [.call call (device.wired.app c call w).1.ret] (device.wired.app c call w).2 := by
  cases call with
  | memRead addr size room =>
    apply watches_access rfl
    show (fnMemRead addr size w.app).2.strayed = _
    unfold fnMemRead
    split_ifs <;> rfl
  | memWrite addr size data =>
    apply watches_access rfl
    show (fnMemWrite addr size data w.app).2.strayed = _
    unfold fnMemWrite
    split_ifs <;> rfl
  | _ => exact watches_none rfl rfl

theorem watches_code : WorldCode device.wired Watches where
  refl := watches_refl
  trans h hnext := by
    unfold Watches at *
    rw [hnext, h, accessesOf_append, or_assoc]
    simp [or_and_right, exists_or]
  inside w e he := by
    apply watches_none _ rfl
    cases e with
    | call => exact absurd he Bool.false_ne_true
    | _ => rfl
  time w := watches_none rfl rfl
  call := watches_call
  send c origin data w _ := watches_none rfl rfl
  user entry hentry := by cases hentry
  response _ _ _ s := watches_refl s.world

/-- Behind its guard the simulator keeps a memory. -/
theorem keepsMemory : KeepsMemory device.wired (fun w => w.app.mockMemory) InMemory where
  time _ := rfl
  send _ _ _ := rfl
  other c call w hother := by
    cases call with
    | memRead addr size room =>
      show (fnMemRead addr size w.app).2.mockMemory = _
      unfold fnMemRead
      split_ifs <;> rfl
    | memWrite addr size data => exact absurd rfl (hother addr size data)
    | _ => rfl
  write c addr size data w := by
    show (InMemory addr size → 0 ≤ (fnMemWrite addr size data w.app).1.ret) ∧
      (fnMemWrite addr size data w.app).2.mockMemory =
        if (fnMemWrite addr size data w.app).1.ret < 0 then w.app.mockMemory
        else blit w.app.mockMemory addr.toNat data.bytes
    by_cases hguard : addr + size > 1024
    · have hwrite : fnMemWrite addr size data w.app = (⟨-0x31, []⟩, w.app) := if_pos hguard
      rw [hwrite]
      exact ⟨fun hin => absurd hguard ((passes_iff addr size).mpr (.inl hin)), rfl⟩
    · have hwrite : fnMemWrite addr size data w.app =
          (⟨0, []⟩, { w.app.touch addr size with
            mockMemory := blit w.app.mockMemory addr.toNat data.bytes }) := if_neg hguard
      rw [hwrite]
      exact ⟨fun _ => le_refl 0, rfl⟩
  read c addr size room w hin := by
    have hguard : ¬ addr + size > 1024 := (passes_iff addr size).mpr (.inl hin)
    show 0 ≤ (fnMemRead addr size w.app).1.ret ∧ (fnMemRead addr size w.app).1.out = _
    unfold fnMemRead
    rw [if_neg hguard]
    exact ⟨le_refl 0, rfl⟩
  response _ _ _ _ := rfl

theorem offersMemory : OffersMemory device.wired := ⟨rfl, rfl, rfl, by decide⟩

/-! ### In the main loop -/

/-- The events and the state of the simulator: every message that asks for a range has made its access,
`strayed` tells whether one of them strayed, and `mock_memory` is what the writes have made of it. -/
structure Watched (start : ℕ → UInt8) (es : List Event) (s : Device.State Ecu) : Prop where
  attends : Attends s.ctx
  accesses : accessesOf es =
    (Isotp.sdusOf s.world.transport.log).filterMap (accessOf? device.wired)
  strayed : s.world.app.strayed = true ↔ ∃ range ∈ accessesOf es, Strays range
  memory : s.world.app.mockMemory = replay start (copiesOf es)

theorem roundOps_moves {R : World Ecu → List Event → World Ecu → Prop}
    (hclock : ∀ w, R w [] { w with app := (getTimeMs w.app).2 }) (now : UInt32)
    (received : Option Isotp.RxFrame) : ∀ op ∈ roundOps now received, op.Moves R := by
  intro op hop
  rcases List.mem_append.mp hop with hserve | hreceive
  · simp only [serveOps, List.mem_cons, List.not_mem_nil, or_false] at hserve
    rcases hserve with rfl | rfl | rfl
    · exact hclock
    · trivial
    · trivial
  · obtain ⟨f, -, rfl⟩ := List.mem_map.mp hreceive
    trivial

theorem plainTurn_watched {start : ℕ → UInt8} {es : List Event} {s : Device.State Ecu}
    (h : Watched start es s) (received : Option Isotp.RxFrame) :
    Watched start (es ++ (plainTurn s received).2) (plainTurn s received).1 := by
  let ops := roundOps (getTimeMs s.world.app).1 received
  obtain ⟨msgs, hsdus, haccesses, hattends⟩ :=
    Device.run_accesses onTheSpot rfl h.attends (roundOps_serve (getTimeMs s.world.app).1 received)
  have hwatches : Watches s.world (trace device.step s ops) (exec device.step s ops).world := by
    apply Device.run_keeps watches_code _ (fun w c => watches_refl w)
    · exact roundOps_moves (fun w => watches_refl w) _ _
    · intro d w opening hopening
      cases hopening with
      | none => exact watches_refl w
      | dispatch | response => exact watches_none rfl rfl
  have hmemory : Remembered (fun w : World Ecu => w.app.mockMemory) s.world (trace device.step s ops)
      (exec device.step s ops).world := by
    apply Device.run_keeps (keepsMemory.code rfl) _ (fun w c => rfl)
    · exact roundOps_moves (fun w => rfl) _ _
    · intro d w opening hopening
      cases hopening with
      | none => rfl
      | dispatch | response => exact remembered_single rfl rfl
  constructor
  · exact hattends
  · show accessesOf (es ++ trace device.step s ops) = _
    rw [accessesOf_append, h.accesses, haccesses, ← List.filterMap_append, ← hsdus]
    rfl
  · show (exec device.step s ops).world.app.strayed = true ↔
      ∃ range ∈ accessesOf (es ++ trace device.step s ops), Strays range
    unfold Watches at hwatches
    rw [hwatches, h.strayed, accessesOf_append]
    simp only [List.mem_append, or_and_right, exists_or]
  · show (exec device.step s ops).world.app.mockMemory = replay start (copiesOf (es ++ trace device.step s ops))
    rw [copiesOf_append, replay_append, ← h.memory]
    exact hmemory

section Run

variable (mem : Isotp.Node) (enableFd : Bool) (clock : ℕ → UInt32) (behind : ℕ → UInt8)
  (packets : List (Option Isotp.RxFrame))

theorem boot_watched :
    Watched (Ecu.initial clock behind).mockMemory [] (boot mem enableFd (Ecu.initial clock behind)).state := by
  constructor
  · exact start_attends fun h => Bool.false_ne_true h.1.1
  · rfl
  · exact iff_of_false Bool.false_ne_true (by simp [accessesOf])
  · rfl

theorem loop_watched :
    Watched (Ecu.initial clock behind).mockMemory
      (trace turn (boot mem enableFd (Ecu.initial clock behind)) packets)
      (exec turn (boot mem enableFd (Ecu.initial clock behind)) packets).state := by
  obtain ⟨-, hstate, hevents⟩ := loop_plain mem enableFd (Ecu.initial clock behind) packets
  rw [← hstate, ← hevents]
  exact trace_invariant (H := Watched (Ecu.initial clock behind).mockMemory)
    (fun es s received h _ => plainTurn_watched h received)
    (boot_watched mem enableFd clock behind) (Along.trivial _ packets)

end Run

/-- The simulator's `memcpy` leaves `mock_memory` in exactly the runs in which its transport has put
together a request, for reading or for writing memory, whose range wraps around the 32-bit address
space. -/
theorem strays_iff_wrapped (mem : Isotp.Node) (enableFd : Bool) (clock : ℕ → UInt32)
    (behind : ℕ → UInt8) (packets : List (Option Isotp.RxFrame)) :
    let r := exec turn (boot mem enableFd (Ecu.initial clock behind)) packets
    r.state.world.app.strayed = true ↔
      ∃ message ∈ Isotp.sdusOf r.state.world.transport.log,
        ∃ range ∈ accessOf? device.wired message, Strays range := by
  intro r
  have h := loop_watched mem enableFd clock behind packets
  rw [h.strayed, h.accesses]
  simp only [List.mem_filterMap, Option.mem_def]
  constructor
  · rintro ⟨range, ⟨message, hmessage, haccess⟩, hstrays⟩
    exact ⟨message, hmessage, range, haccess, hstrays⟩
  · rintro ⟨message, hmessage, range, haccess, hstrays⟩
    exact ⟨range, ⟨message, hmessage, haccess⟩, hstrays⟩

/-- In every run of the simulator `mock_memory` is the zeroed array after the accepted writes so far, in
their order; and that is what the next read request in its range is answered with. -/
theorem mock_memory_served (mem : Isotp.Node) (enableFd : Bool) (clock : ℕ → UInt32)
    (behind : ℕ → UInt8) (packets : List (Option Isotp.RxFrame)) :
    let r := exec turn (boot mem enableFd (Ecu.initial clock behind)) packets
    let m := replay (Ecu.initial clock behind).mockMemory
      (copiesOf (trace turn (boot mem enableFd (Ecu.initial clock behind)) packets))
    r.state.world.app.mockMemory = m ∧ ServesMemory device.wired InMemory m r.state := by
  intro r m
  have h := loop_watched mem enableFd clock behind packets
  have hmemory : r.state.world.app.mockMemory = m := h.memory
  rw [← hmemory]
  exact ⟨rfl, h.attends.serves onTheSpot.wired keepsMemory offersMemory⟩

/-- The request to read one byte at the last address, in one frame. -/
def lastByte : Isotp.RxFrame :=
  ⟨0x7E0, fun i => [0x07, 0x23, 0x14, 0xFF, 0xFF, 0xFF, 0xFF, 0x01].getD i 0, 8⟩

example : (exec turn (boot Isotp.zeroNode true (Ecu.initial (fun _ => 0) fun _ => 0))
    [none, some lastByte]).state.world.app.strayed = true := by decide +kernel

end UdsLib.HostSim
