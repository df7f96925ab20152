import UdsLib.Core.Synchronous
import UdsLib.Device.Conversation

/-! A device that only serves. Nothing on its way can make a request wait: `uds_isotp_send` has no
positive result, so where there are no user services every message that the transport puts together
is dispatched, once and in order. -/
namespace UdsLib.Device
open Bytes Machine Prog

variable {V V' : Type} {d : Device V}

/-- There are no user services, and `can_send` has no positive result. -/
structure OnTheSpot (d : Device V) : Prop where
  services : d.config.userServices = []
  canSend : ∀ log, d.canSend log ≤ 0

/-- A call in which the device asks nothing as a client. -/
def Op.Serves : Op V → Prop
  | .clientRequest _ _ _ => False
  | _ => True

instance (op : Op V) : Decidable op.Serves :=
  match op with
  | .clientRequest _ _ _ => inferInstanceAs (Decidable False)
  | .rxCallback _ | .tpProcess _ | .setFd _ | .process | .fill _ _ | .sendResponse _ | .sendNrc _ _
  | .elapse _ => inferInstanceAs (Decidable True)

theorem isotpSend_nonpos (n : Isotp.Node) (data : Sdu) {ret : ℤ} (hret : ret ≤ 0) :
    (Isotp.isotpSend n data ret).1 ≤ 0 := by
  have hframe (iso : Isotp.Ctx) (frame : List UInt8) : (Isotp.tpSendFrame iso frame ret).1 ≤ 0 := by
    unfold Isotp.tpSendFrame
    split_ifs <;> simp [hret]
  unfold Isotp.isotpSend Isotp.sendSf Isotp.sendMf
  split_ifs
  · exact hframe _ _
  · simp
  · dsimp only
    split_ifs <;> simp

theorem OnTheSpot.wired (h : OnTheSpot d) : Core.Synchronous d.wired where
  services := by
    show d.config.userServices.map liftEntry = []
    rw [h.services]
    rfl
  send c data w := isotpSend_nonpos _ _ (h.canSend _)

/-- The client's side of the device is unused, and what its transport has put together so far has been
dispatched. -/
structure Served (es : List Core.Event) (s : State V) : Prop where
  closed : Core.Closed s.ctx
  dispatched : Core.dispatchesOf es =
    (Isotp.sdusOf s.world.transport.log).filterMap Core.dispatchOf?

/-- The calls of the stack in a run of a device that only serves. -/
theorem Projects.serves {s t : State V} {ops : List (Op V)} {es : List Core.Event}
    {calls : List (Core.Op (World V))} {entries : List TpCall}
    (h : Projects d s ops es t calls entries) (hops : ∀ op ∈ ops, op.Serves) :
    ∀ call ∈ calls, call.Serves := by
  intro call hcall
  cases call with
  | clientRequest sid data cb =>
    have hapi : .clientRequest sid data cb ∈ calls.filterMap apiOf :=
      List.mem_filterMap.mpr ⟨_, hcall, rfl⟩
    rw [h.api] at hapi
    obtain ⟨op, hop, hsame⟩ := List.mem_filterMap.mp hapi
    cases op with
    | clientRequest => exact hops _ hop
    | rxCallback | tpProcess | setFd | elapse => cases hsame
    | process | fill | sendResponse | sendNrc => cases Option.some.inj hsame
  | _ => trivial

theorem Projects.dispatches {s t : State V} {ops : List (Op V)} {es : List Core.Event}
    {calls : List (Core.Op (World V))} {entries : List TpCall}
    (h : Projects d s ops es t calls entries) : Core.dispatchesIn calls =
      (Isotp.sdusOf (trace d.stationStep s.world.transport entries)).filterMap Core.dispatchOf? := by
  unfold Core.dispatchesIn
  rw [h.messages_content]

theorem OnTheSpot.run_closed (hspot : OnTheSpot d) {s : State V} {ops : List (Op V)}
    (hops : ∀ op ∈ ops, op.Serves) (hclosed : Core.Closed s.ctx) :
    Core.Closed (exec (step d) s ops).ctx := by
  obtain ⟨calls, entries, hprojects⟩ := device_projects d s ops
  rw [← hprojects.stack]
  exact hspot.wired.run_closed (hprojects.serves hops) hclosed

/-- In a run of a device that only serves, each message that the transport puts together is dispatched
to the services, once and in order, and nothing else is. -/
theorem run_serves (hspot : OnTheSpot d) {es : List Core.Event} {s : State V} {ops : List (Op V)}
    (hops : ∀ op ∈ ops, op.Serves) (h : Served es s) :
    Served (es ++ trace (step d) s ops) (exec (step d) s ops) := by
  obtain ⟨calls, entries, hprojects⟩ := device_projects d s ops
  have hdispatches := Core.run_dispatches hspot.wired calls (hprojects.serves hops) h.closed
  rw [hprojects.events, hprojects.dispatches] at hdispatches
  refine ⟨hspot.run_closed hops h.closed, ?_⟩
  rw [Core.dispatchesOf_append, h.dispatched, hdispatches, ← List.filterMap_append,
    ← Isotp.sdusOf_append, ← station_log, hprojects.transport]

theorem start_served (d : Device V) (mem : Isotp.Node) (txId rxId : UInt32) (app : V) :
    Served [] (d.start mem txId rxId app) := by
  refine ⟨Core.udsInit_closed d.wired _, ?_⟩
  rw [start_transport]
  rfl

/-! ### On the bus -/

/-- The ECU asks nothing. -/
def BusAct.EcuServes : BusAct V V' → Prop
  | .ecu op _ => op.Serves
  | _ => True

theorem busStep_serves {dc : Device V} {de : Device V'} (hspot : OnTheSpot de)
    {es : List (Core.Event ⊕ Core.Event)} {b : Bus V V'} {act : BusAct V V'} (hact : act.EcuServes)
    (h : Served (atEcu es) b.ecu) :
    Served (atEcu (es ++ (busStep dc de b act).2)) (busStep dc de b act).1.ecu := by
  have hecu (op : Op V') (hop : op.Serves) : Served (atEcu (es ++ (de.step b.ecu op).2.map .inr))
      (de.step b.ecu op).1 := by
    have hrun := run_serves hspot (List.forall_mem_singleton.mpr hop) h
    rw [trace_cons, trace_nil, List.append_nil] at hrun
    rw [atEcu_append, atEcu_inr]
    exact hrun
  have hquiet (fs : List Core.Event) : Served (atEcu (es ++ fs.map .inl)) b.ecu := by
    rw [atEcu_append, atEcu_inl, List.append_nil]
    exact h
  cases act with
  | client op hown => exact hquiet _
  | ecu op hown => exact hecu op hact
  | toEcu beyond =>
    simp only [busStep]
    split
    next => rwa [List.append_nil]
    next f => exact hecu _ trivial
  | toClient beyond =>
    simp only [busStep]
    split
    next => rwa [List.append_nil]
    next f => exact hquiet _
  | loseToEcu | loseToClient =>
    simp only [busStep]
    split <;> rwa [List.append_nil]

/-- Where both stacks send messages of a single frame only, the bus loses none and the drivers take
each, an ECU that asks nothing itself and has no user services dispatches, in any interleaving, the
messages of the client one by one: what it has dispatched is the beginning of what the client has sent,
and all of it once every frame has arrived. -/
theorem bus_requests_served (dc : Device V) (de : Device V') (memC memE : Isotp.Node)
    (idC idE : UInt32) (appC : V) (appE : V') (acts : List (BusAct V V')) (hC : dc.TakesAll)
    (hE : de.TakesAll) (hservices : de.config.userServices = [])
    (hacts : ∀ act ∈ acts, act.Keeps ∧ act.EcuServes) :
    let b := exec (busStep dc de) (busStart dc de memC memE idC idE appC appE) acts
    let es := trace (busStep dc de) (busStart dc de memC memE idC idE appC appE) acts
    (∀ message ∈ Core.sentOf (atClient es) ++ Core.sentOf (atEcu es), Isotp.IsShort message) →
      Core.dispatchesOf (atEcu es) <+: (takenOf (atClient es)).filterMap Core.dispatchOf? ∧
      (b.fromClient.gone = (Isotp.framesOf b.client.world.transport.log).length →
        Core.dispatchesOf (atEcu es) = (takenOf (atClient es)).filterMap Core.dispatchOf?) := by
  intro b es hshort
  have hspot : OnTheSpot de := ⟨hservices, fun log => (hE log).le⟩
  have hserved : Served (atEcu es) b.ecu := by
    have hlegal : Along (busStep dc de) (fun _ act => (act.Keeps ∧ act.EcuServes) ∧ True)
        (busStart dc de memC memE idC idE appC appE) acts := (Along.trivial _ acts).and_forall hacts
    have hstart : Served (atEcu []) (busStart dc de memC memE idC idE appC appE).ecu :=
      start_served _ _ _ _ _
    exact trace_invariant (H := fun es (b : Bus V V') => Served (atEcu es) b.ecu)
      (fun es b act h hact => busStep_serves hspot hact.1.2 h) hstart hlegal
  obtain ⟨hclient, -⟩ := busRun_tallied dc de memC memE idC idE appC appE acts
  obtain ⟨hlink, hplain⟩ := busRun_short dc de memC memE idC idE appC appE acts hC hE
    (fun act hact => (hacts act hact).1) hshort
  rw [hserved.dispatched, ← hclient.said]
  refine ⟨hlink.toB.isPrefix.filterMap _, fun hin => ?_⟩
  exact congrArg _ (hlink.toB.caught_up hin (Isotp.not_sending_of_idle hplain.1.idle))

theorem testerPresent_served :
    Core.dispatchesOf (atEcu (trace (busStep plainDevice plainDevice)
      (busStart plainDevice plainDevice Isotp.zeroNode Isotp.zeroNode 0x7E0 0x7E8 () ()) testerPresent)) =
        [.dispatch [0x3E, 0x00]] := by
  have h := bus_requests_served plainDevice plainDevice Isotp.zeroNode Isotp.zeroNode 0x7E0 0x7E8 () ()
    testerPresent plainDevice_takesAll plainDevice_takesAll rfl
    (List.forall_mem_cons.mpr ⟨⟨trivial, trivial⟩, List.forall_mem_cons.mpr ⟨⟨trivial, trivial⟩,
      List.forall_mem_singleton.mpr ⟨trivial, trivial⟩⟩⟩) (by decide +kernel)
  exact (h.2 (by decide +kernel)).trans (by decide +kernel)

end UdsLib.Device
