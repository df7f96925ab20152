import UdsLib.Device.Bus
import UdsLib.Isotp.SingleFrames

/-! What a client and an ECU hear of each other: only what the other one said, each message at most
once and in order. -/
namespace UdsLib.Device
open Bytes Machine Prog

variable {V V' : Type}

/-- The log of a device's transport agrees with the events at its stack. -/
structure Tally (es : List Core.Event) (s : State V) : Prop where
  said : Isotp.acceptedOf s.world.transport.log = takenOf es
  heard : (Core.openedOf es).Sublist (Isotp.sdusOf s.world.transport.log)

theorem Tally.next {es fs : List Core.Event} {s t : State V} (h : Tally es s) (htells : Tells s fs t) :
    Tally (es ++ fs) t := by
  constructor
  · rw [htells.said, h.said, takenOf_append]
  · obtain ⟨msgs, hsdus, hopened⟩ := htells.heard
    rw [hsdus, Core.openedOf_append]
    exact h.heard.append hopened

/-- The transport is left alone. -/
def Untouched (s : State V) (_ : List Core.Event) (t : State V) : Prop :=
  t.world.transport = s.world.transport

theorem untouched_composable : Composable (Untouched (V := V)) where
  refl _ := rfl
  trans h hnext := Eq.trans hnext h

theorem untouched_optional {c : Prop} [Decidable c] {m : Core.M (World V) Unit}
    (hm : Keeps Untouched m) : Keeps Untouched (Core.onlyIf c m) :=
  Keeps.ite (fun _ => hm) fun _ _ => rfl

/-- `uds_init` calls the application only, which has no way to the transport. -/
theorem udsInit_untouched (d : Device V) : Keeps Untouched (Core.udsInit d.wired) := by
  have hR := untouched_composable (V := V)
  have hset (g : Core.Ctx → Core.Ctx) : Keeps Untouched (Core.setCtx (W := World V) g) := fun _ => rfl
  have hlog (level : UInt8) (msg : String) : Keeps Untouched (Core.internalLog d.wired level msg) :=
    Keeps.ite (fun _ _ => rfl) fun _ _ => rfl
  unfold Core.udsInit
  apply hR.bind (hset _)
  intro _
  apply hR.bind (hset _)
  intro _
  apply hR.bind (untouched_optional (hlog _ _))
  intro _
  apply hR.bind (hlog _ _)
  intro _
  refine hR.bind (untouched_optional ?_) fun _ => hR.refl
  apply hR.bind (m := Core.invoke d.wired (.nvmLoad 2)) fun _ => rfl
  intro reply
  apply untouched_optional
  exact hR.bind (hset _) fun _ => hlog _ _

theorem start_transport (d : Device V) (mem : Isotp.Node) (txId rxId : UInt32) (app : V) :
    (d.start mem txId rxId app).world.transport = ⟨Isotp.tpIsotpInit mem true txId rxId, []⟩ :=
  udsInit_untouched d _

theorem start_tally (d : Device V) (mem : Isotp.Node) (txId rxId : UInt32) (app : V) :
    Tally [] (d.start mem txId rxId app) := by
  constructor
  · rw [start_transport]
    rfl
  · exact List.nil_sublist _

theorem start_link (dc : Device V) (de : Device V') (memC memE : Isotp.Node) (idC idE : UInt32)
    (appC : V) (appE : V') :
    (busStart dc de memC memE idC idE appC appE).link = Isotp.linkStart memC memE idC idE := by
  unfold Bus.link busStart Isotp.linkStart
  rw [start_transport, start_transport]

/-- The logs of both transports agree with the events at their stacks. -/
def Bus.Tallied (es : List (Core.Event ⊕ Core.Event)) (b : Bus V V') : Prop :=
  Tally (atClient es) b.client ∧ Tally (atEcu es) b.ecu

theorem busStep_tallied (dc : Device V) (de : Device V') (es : List (Core.Event ⊕ Core.Event))
    (b : Bus V V') (act : BusAct V V') (h : b.Tallied es) :
    (busStep dc de b act).1.Tallied (es ++ (busStep dc de b act).2) := by
  have hclient (op : Op V) : Tally (atClient (es ++ (dc.step b.client op).2.map .inl))
      (dc.step b.client op).1 := by
    rw [atClient_append, atClient_inl]
    exact h.1.next (step_tells dc b.client op)
  have hecu (op : Op V') : Tally (atEcu (es ++ (de.step b.ecu op).2.map .inr))
      (de.step b.ecu op).1 := by
    rw [atEcu_append, atEcu_inr]
    exact h.2.next (step_tells de b.ecu op)
  have hquietC (fs : List Core.Event) : Tally (atClient (es ++ fs.map .inr)) b.client := by
    rw [atClient_append, atClient_inr, List.append_nil]
    exact h.1
  have hquietE (fs : List Core.Event) : Tally (atEcu (es ++ fs.map .inl)) b.ecu := by
    rw [atEcu_append, atEcu_inl, List.append_nil]
    exact h.2
  cases act with
  | client op hown => exact ⟨hclient op, hquietE _⟩
  | ecu op hown => exact ⟨hquietC _, hecu op⟩
  | toEcu beyond =>
    simp only [busStep]
    split
    next => rwa [List.append_nil]
    next f => exact ⟨hquietC _, hecu _⟩
  | toClient beyond =>
    simp only [busStep]
    split
    next => rwa [List.append_nil]
    next f => exact ⟨hclient _, hquietE _⟩
  | loseToEcu | loseToClient =>
    simp only [busStep]
    split <;> rwa [List.append_nil]

section Run

variable (dc : Device V) (de : Device V') (memC memE : Isotp.Node) (idC idE : UInt32) (appC : V)
  (appE : V') (acts : List (BusAct V V'))

theorem busRun_tallied :
    (exec (busStep dc de) (busStart dc de memC memE idC idE appC appE) acts).Tallied
      (trace (busStep dc de) (busStart dc de memC memE idC idE appC appE) acts) := by
  have hstart : (busStart dc de memC memE idC idE appC appE).Tallied [] :=
    ⟨start_tally _ _ _ _ _, start_tally _ _ _ _ _⟩
  exact trace_invariant (H := fun es b => b.Tallied es)
    (fun es b act h _ => busStep_tallied dc de es b act h) hstart (Along.trivial _ acts)

/-- The run of the link below a run of the bus. -/
theorem busRun_follows : ∃ linkActs,
    Follows dc de (busStart dc de memC memE idC idE appC appE) acts linkActs ∧
      exec (Isotp.linkStep dc.rxBufferSize de.rxBufferSize) (Isotp.linkStart memC memE idC idE) linkActs =
        (exec (busStep dc de) (busStart dc de memC memE idC idE appC appE) acts).link := by
  obtain ⟨linkActs, h⟩ := bus_follows dc de (busStart dc de memC memE idC idE appC appE) acts
  have hlink := h.link
  rw [start_link] at hlink
  exact ⟨linkActs, h, hlink⟩

/-- With messages of a single frame only, the link below the bus keeps all it is given. -/
theorem busRun_short (hC : dc.TakesAll) (hE : de.TakesAll) (hkeeps : ∀ act ∈ acts, act.Keeps)
    (hshort : ∀ message ∈
      Core.sentOf (atClient (trace (busStep dc de) (busStart dc de memC memE idC idE appC appE) acts)) ++
        Core.sentOf (atEcu (trace (busStep dc de) (busStart dc de memC memE idC idE appC appE) acts)),
      Isotp.IsShort message) :
    let l := (exec (busStep dc de) (busStart dc de memC memE idC idE appC appE) acts).link
    Isotp.LinkInv True l ∧ l.IsPlain := by
  intro l
  obtain ⟨hshortC, hshortE⟩ := List.forall_mem_append.mp hshort
  obtain ⟨linkActs, hfollows, hexec⟩ := busRun_follows dc de memC memE idC idE appC appE acts
  have hkept := hfollows.keeps hC hE hkeeps
  have hacts : ∀ act ∈ linkActs, act.IsShort := by
    intro act hact
    cases act with
    | callA e ret =>
      cases e with
      | send data => exact hshortC _ (hfollows.client data ret hact)
      | process | setFd => trivial
    | callB e ret =>
      cases e with
      | send data => exact hshortE _ (hfollows.ecu data ret hact)
      | process | setFd => trivial
    | deliverToB | deliverToA | loseToB | loseToA => trivial
  have hconsiderate := Isotp.short_considerate dc.rxBufferSize de.rxBufferSize
    memC memE idC idE fun act hact => ⟨hkept act hact, hacts act hact⟩
  have hlink := Isotp.considerateRun_inv _ _ memC memE idC idE hconsiderate
  have hplain := Isotp.short_plain dc.rxBufferSize de.rxBufferSize memC memE idC idE hacts
  rw [hexec] at hlink hplain
  exact ⟨hlink, hplain⟩

end Run

/-- In every run of the bus in which no frame is taken for one of another message, whatever the two
applications do, the bus loses and the drivers refuse, each request that is dispatched to a service of
the ECU and each response that goes to its client callbacks is a message that the client's stack handed
to its transport, each at most once and in the order of sending, and the same the other way round. -/
theorem bus_integrity (dc : Device V) (de : Device V') (memC memE : Isotp.Node) (idC idE : UInt32)
    (appC : V) (appE : V') (acts : List (BusAct V V'))
    (hclear : Along (busStep dc de) Unconfused (busStart dc de memC memE idC idE appC appE) acts) :
    let es := trace (busStep dc de) (busStart dc de memC memE idC idE appC appE) acts
    (Core.openedOf (atEcu es)).Sublist (takenOf (atClient es)) ∧
      (Core.openedOf (atClient es)).Sublist (takenOf (atEcu es)) := by
  intro es
  obtain ⟨hclient, hecu⟩ := busRun_tallied dc de memC memE idC idE appC appE acts
  obtain ⟨linkActs, hfollows, hexec⟩ := busRun_follows dc de memC memE idC idE appC appE acts
  have hunconfused := hfollows.clear hclear
  rw [start_link] at hunconfused
  have hlink := Isotp.linkRun_sound dc.rxBufferSize de.rxBufferSize memC memE idC idE hunconfused
  rw [hexec] at hlink
  constructor
  · rw [← hclient.said]
    exact hecu.heard.trans hlink.toB.sublist
  · rw [← hecu.said]
    exact hclient.heard.trans hlink.toA.sublist

/-- A device without optional callbacks. -/
def plainDevice : Device Unit where
  config := Core.plainConfig
  canSend := fun _ => 0
  rxBufferSize := 64

theorem plainDevice_takesAll : plainDevice.TakesAll := fun _ => rfl

/-- The client asks the ECU whether it is there, and the bus loses the question; it asks once more. -/
def askedTwice : List (BusAct Unit Unit) :=
  [.client (.clientRequest 0x3E (.bytes ⟨[0x00], by decide⟩) (some 1)) trivial, .loseToEcu,
    .client (.clientRequest 0x3E (.bytes ⟨[0x00], by decide⟩) (some 1)) trivial, .toEcu fun _ => 0]

theorem bus_integrity_lossy :
    let es := trace (busStep plainDevice plainDevice)
      (busStart plainDevice plainDevice Isotp.zeroNode Isotp.zeroNode 0x7E0 0x7E8 () ()) askedTwice
    Core.openedOf (atEcu es) = [[0x3E, 0x00]] ∧
      (Core.openedOf (atEcu es)).Sublist (takenOf (atClient es)) :=
  ⟨by decide +kernel, (bus_integrity plainDevice plainDevice Isotp.zeroNode Isotp.zeroNode 0x7E0 0x7E8
    () () askedTwice ⟨trivial, trivial, trivial, by decide +kernel, trivial⟩).1⟩

/-- Where both stacks send messages of a single frame only, the bus loses none and the drivers take
each, nothing is lost in any interleaving: what has reached the one stack is the beginning of what the
other one sent, and all of it once every frame has arrived. -/
theorem bus_exactly_once (dc : Device V) (de : Device V') (memC memE : Isotp.Node) (idC idE : UInt32)
    (appC : V) (appE : V') (acts : List (BusAct V V')) (hC : dc.TakesAll) (hE : de.TakesAll)
    (hkeeps : ∀ act ∈ acts, act.Keeps) :
    let b := exec (busStep dc de) (busStart dc de memC memE idC idE appC appE) acts
    let es := trace (busStep dc de) (busStart dc de memC memE idC idE appC appE) acts
    (∀ message ∈ Core.sentOf (atClient es) ++ Core.sentOf (atEcu es), Isotp.IsShort message) →
      Isotp.sdusOf b.ecu.world.transport.log <+: takenOf (atClient es) ∧
      Isotp.sdusOf b.client.world.transport.log <+: takenOf (atEcu es) ∧
      (b.fromClient.gone = (Isotp.framesOf b.client.world.transport.log).length →
        Isotp.sdusOf b.ecu.world.transport.log = takenOf (atClient es)) ∧
      (b.fromEcu.gone = (Isotp.framesOf b.ecu.world.transport.log).length →
        Isotp.sdusOf b.client.world.transport.log = takenOf (atEcu es)) := by
  intro b es hshort
  obtain ⟨hclient, hecu⟩ := busRun_tallied dc de memC memE idC idE appC appE acts
  obtain ⟨hlink, hplain⟩ := busRun_short dc de memC memE idC idE appC appE acts hC hE hkeeps hshort
  rw [← hclient.said, ← hecu.said]
  exact ⟨hlink.toB.isPrefix, hlink.toA.isPrefix,
    fun hin => hlink.toB.caught_up hin (Isotp.not_sending_of_idle hplain.1.idle),
    fun hin => hlink.toA.caught_up hin (Isotp.not_sending_of_idle hplain.2.idle)⟩

/-- The client asks the ECU whether it is there, and the ECU answers. -/
def testerPresent : List (BusAct Unit Unit) :=
  [.client (.clientRequest 0x3E (.bytes ⟨[0x00], by decide⟩) (some 1)) trivial, .toEcu fun _ => 0,
    .toClient fun _ => 0]

theorem bus_exactly_once_answered :
    let b := exec (busStep plainDevice plainDevice)
      (busStart plainDevice plainDevice Isotp.zeroNode Isotp.zeroNode 0x7E0 0x7E8 () ()) testerPresent
    Isotp.sdusOf b.ecu.world.transport.log = [[0x3E, 0x00]] ∧
      Isotp.sdusOf b.client.world.transport.log = [[0x7E, 0x00]] := by
  have h := bus_exactly_once plainDevice plainDevice Isotp.zeroNode Isotp.zeroNode 0x7E0 0x7E8 () ()
    testerPresent plainDevice_takesAll plainDevice_takesAll (by decide) (by decide +kernel)
  exact ⟨h.2.2.1 (by decide +kernel), h.2.2.2 (by decide +kernel)⟩

end UdsLib.Device
