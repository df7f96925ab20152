import UdsLib.Device.Hearing

/-! A client and an ECU, each with its own stack, transport and driver, on one bus that may lose
frames. -/
namespace UdsLib.Device
open Bytes Machine Prog

variable {V V' : Type}

/-- The driver takes every frame. -/
def TakesAll (d : Device V) : Prop := ∀ log, d.canSend log = 0

/-- Anything that happens at a device but the arrival of a frame. -/
def Op.IsOwn : Op V → Prop
  | .rxCallback _ => False
  | _ => True

/-- The two devices, and the ways of the frames of each to the other one. -/
structure Bus (V V' : Type) where
  client : State V
  ecu : State V'
  fromClient : Isotp.Way
  fromEcu : Isotp.Way

/-- A device acts on its own, or the oldest frame on its way to it arrives, with `beyond` in memory
behind it, or is lost. -/
inductive BusAct (V V' : Type) where
  | client (op : Op V) (hown : op.IsOwn)
  | ecu (op : Op V') (hown : op.IsOwn)
  | toEcu (beyond : ℕ → UInt8)
  | toClient (beyond : ℕ → UInt8)
  | loseToEcu
  | loseToClient

/-- The bus does not lose the frame. -/
def BusAct.Keeps : BusAct V V' → Prop
  | .loseToEcu | .loseToClient => False
  | _ => True

instance (act : BusAct V V') : Decidable act.Keeps :=
  match act with
  | .loseToEcu | .loseToClient => inferInstanceAs (Decidable False)
  | .client _ _ | .ecu _ _ | .toEcu _ | .toClient _ => inferInstanceAs (Decidable True)

/-- The oldest frame of `sender` that is still on its way, if there is one. -/
def nextFrame (sender : Isotp.Station) (w : Isotp.Way) : Option (List UInt8) :=
  (Isotp.framesOf sender.log)[w.gone]?

/-- The events of the client are on the left. -/
def busStep (dc : Device V) (de : Device V') (b : Bus V V') :
    BusAct V V' → Bus V V' × List (Core.Event ⊕ Core.Event)
  | .client op _ =>
    let r := dc.step b.client op
    ({ b with client := r.1 }, r.2.map .inl)
  | .ecu op _ =>
    let r := de.step b.ecu op
    ({ b with ecu := r.1 }, r.2.map .inr)
  | .toEcu beyond =>
    match nextFrame b.client.world.transport b.fromClient with
    | none => (b, [])
    | some frame =>
      let id := b.client.world.transport.node.iso.txId
      let r := de.step b.ecu (.rxCallback (.ofBytes id frame beyond))
      ({ b with ecu := r.1, fromClient := b.fromClient.arrived frame }, r.2.map .inr)
  | .toClient beyond =>
    match nextFrame b.ecu.world.transport b.fromEcu with
    | none => (b, [])
    | some frame =>
      let id := b.ecu.world.transport.node.iso.txId
      let r := dc.step b.client (.rxCallback (.ofBytes id frame beyond))
      ({ b with client := r.1, fromEcu := b.fromEcu.arrived frame }, r.2.map .inl)
  | .loseToEcu =>
    match nextFrame b.client.world.transport b.fromClient with
    | none => (b, [])
    | some frame => ({ b with fromClient := b.fromClient.lost frame }, [])
  | .loseToClient =>
    match nextFrame b.ecu.world.transport b.fromEcu with
    | none => (b, [])
    | some frame => ({ b with fromEcu := b.fromEcu.lost frame }, [])

/-- Both devices have just been initialised, each sending under the identifier that the other one
listens to. -/
def busStart (dc : Device V) (de : Device V') (memC memE : Isotp.Node) (idC idE : UInt32) (appC : V)
    (appE : V') : Bus V V' where
  client := dc.start memC idC idE appC
  ecu := de.start memE idE idC appE
  fromClient := ⟨0, false⟩
  fromEcu := ⟨0, false⟩

def atClient (es : List (Core.Event ⊕ Core.Event)) : List Core.Event := es.filterMap Sum.getLeft?

def atEcu (es : List (Core.Event ⊕ Core.Event)) : List Core.Event := es.filterMap Sum.getRight?

/-- The transports of the two devices. -/
def Bus.link (b : Bus V V') : Isotp.Link where
  a := b.client.world.transport
  b := b.ecu.world.transport
  fromA := b.fromClient
  fromB := b.fromEcu

theorem atClient_append (es fs : List (Core.Event ⊕ Core.Event)) :
    atClient (es ++ fs) = atClient es ++ atClient fs :=
  List.filterMap_append ..

theorem atEcu_append (es fs : List (Core.Event ⊕ Core.Event)) :
    atEcu (es ++ fs) = atEcu es ++ atEcu fs :=
  List.filterMap_append ..

@[simp] theorem atClient_inl (es : List Core.Event) : atClient (es.map .inl) = es := by
  simp [atClient, List.filterMap_map, Function.comp_def]

@[simp] theorem atClient_inr (es : List Core.Event) : atClient (es.map .inr) = [] := by
  simp [atClient, List.filterMap_map, Function.comp_def]

@[simp] theorem atEcu_inl (es : List Core.Event) : atEcu (es.map .inl) = [] := by
  simp [atEcu, List.filterMap_map, Function.comp_def]

@[simp] theorem atEcu_inr (es : List Core.Event) : atEcu (es.map .inr) = es := by
  simp [atEcu, List.filterMap_map, Function.comp_def]

/-! ### One device on the link -/

section OneDevice

variable {d : Device V} {sizeA sizeB : UInt16} (act : Isotp.Entry → ℤ → Isotp.LinkAct)
  (put put' : Isotp.Station → Isotp.Link)

/-- A call of the transport by its owner, as the link knows it. -/
def TpCall.entry? : TpCall → Option Isotp.Entry
  | .send data => some (.send data)
  | .process timeMs => some (.process timeMs)
  | .setFd enabled => some (.setFd enabled)
  | .rx _ => none

/-- What a device sent while it put out `os`, with the results of its driver. -/
structure Calls (d : Device V) (os : List Core.Event) (es : List (Isotp.Entry × ℤ)) : Prop where
  sends : ∀ data ret, (.send data, ret) ∈ es → data.bytes ∈ Core.sentOf os
  driver : ∀ e ∈ es, ∃ log, e.2 = d.canSend log

/-- Calls of the transport that stands at `put` on the link are steps of the link. -/
theorem link_calls (hput : ∀ st e ret,
      (Isotp.linkStep sizeA sizeB (put st) (act e ret)).1 = put (st.does d.rxBufferSize (e.op ret)))
    (st : Isotp.Station) (cs : List TpCall) (hown : ∀ c ∈ cs, c.entry?.isSome) :
    ∃ es : List (Isotp.Entry × ℤ),
      exec (Isotp.linkStep sizeA sizeB) (put st) (es.map fun e => act e.1 e.2) =
        put (exec d.stationStep st cs) ∧
      es.map Prod.fst = cs.filterMap TpCall.entry? ∧ ∀ e ∈ es, ∃ log, e.2 = d.canSend log := by
  induction cs generalizing st with
  | nil => exact ⟨[], rfl, rfl, nofun⟩
  | cons c cs ih =>
    obtain ⟨hc, hcs⟩ := List.forall_mem_cons.mp hown
    obtain ⟨e, he⟩ := Option.isSome_iff_exists.mp hc
    obtain ⟨es, hexec, hentries, hdriver⟩ := ih (d.stationStep st c).1 hcs
    have hop (ret : ℤ) : c.op ret = e.op ret := by cases c <;> cases he <;> rfl
    refine ⟨(e, d.canSend st.log) :: es, ?_, ?_, List.forall_mem_cons.mpr ⟨⟨st.log, rfl⟩, hdriver⟩⟩
    · rw [List.map_cons, exec_cons, hput, exec_cons, ← hop]
      exact hexec
    · rw [List.map_cons, hentries, List.filterMap_cons_some he]

/-- What the stack hands to `fn_tp_send` is all that the transport is given to send. -/
theorem sent_of_projects {s t : State V} {ops : List (Op V)} {es : List Core.Event}
    {calls : List (Core.Op (World V))} {entries : List TpCall}
    (h : Projects d s ops es t calls entries) {data : Sdu} (hdata : .send data ∈ entries) :
    data.bytes ∈ Core.sentOf es := by
  have hreturned : ∀ (st : Isotp.Station) (cs : List TpCall), .send data ∈ cs →
      data.bytes ∈ (returns (trace d.stationStep st cs)).map Prod.fst := by
    intro st cs hcs
    induction cs generalizing st with
    | nil => cases hcs
    | cons c cs ih =>
      rw [trace_cons, returns_append, List.map_append, List.mem_append]
      rcases List.mem_cons.mp hcs with rfl | hrest
      · left
        simp [stationStep, TpCall.op, send_outputs]
      · exact .inr (ih _ hrest)
  have hsent : (tpSends es).map Prod.fst = Core.sentOf es := by
    rw [tpSends, List.map_filterMap]
    apply List.filterMap_congr
    intro e _
    cases e <;> rfl
  rw [← hsent, ← h.sends]
  exact hreturned _ _ hdata

theorem send_of_entry {c : TpCall} {data : Sdu} (h : c.entry? = some (.send data)) :
    c = .send data := by
  cases c <;> cases h
  rfl

/-- The calls of the transport in what a device does. -/
theorem calls_of_projects {s t : State V} {ops : List (Op V)} {os : List Core.Event}
    {calls : List (Core.Op (World V))} {entries cs : List TpCall}
    (h : Projects d s ops os t calls entries) (hcs : ∀ c ∈ cs, c ∈ entries)
    {es : List (Isotp.Entry × ℤ)} (hes : es.map Prod.fst = cs.filterMap TpCall.entry?)
    (hdriver : ∀ e ∈ es, ∃ log, e.2 = d.canSend log) : Calls d os es := by
  refine ⟨fun data ret hdata => ?_, hdriver⟩
  have hentry : .send data ∈ cs.filterMap TpCall.entry? := hes ▸ List.mem_map_of_mem hdata
  obtain ⟨c, hc, hsame⟩ := List.mem_filterMap.mp hentry
  rw [send_of_entry hsame] at hc
  exact sent_of_projects h (hcs _ hc)

/-- What a device does on its own. -/
theorem own_linked (hput : ∀ st e ret,
      (Isotp.linkStep sizeA sizeB (put st) (act e ret)).1 = put (st.does d.rxBufferSize (e.op ret)))
    (s : State V) (op : Op V) (hown : op.IsOwn) :
    ∃ es : List (Isotp.Entry × ℤ), exec (Isotp.linkStep sizeA sizeB) (put s.world.transport)
        (es.map fun e => act e.1 e.2) = put (d.step s op).1.world.transport ∧
      Calls d (d.step s op).2 es := by
  obtain ⟨calls, entries, h⟩ := step_projects d s op
  have hcalls : ∀ c ∈ entries, c.entry?.isSome := by
    intro c hc
    cases c with
    | rx f =>
      have hrx : TpCall.rx f ∈ [op].filterMap Op.outer? := by
        rw [← h.outer]
        exact List.mem_filterMap.mpr ⟨_, hc, rfl⟩
      cases op with
      | rxCallback => exact hown.elim
      | _ => simp [Op.outer?] at hrx
    | _ => rfl
  obtain ⟨es, hexec, hentries, hdriver⟩ := link_calls act put hput s.world.transport entries hcalls
  rw [h.transport] at hexec
  exact ⟨es, hexec, calls_of_projects h (fun _ hc => hc) hentries hdriver⟩

/-- A frame arrives at a device. -/
theorem arrival_linked {deliver : ℤ → Isotp.LinkAct} {f : Isotp.RxFrame} (hput : ∀ st e ret,
      (Isotp.linkStep sizeA sizeB (put' st) (act e ret)).1 = put' (st.does d.rxBufferSize (e.op ret)))
    (hdeliver : ∀ st ret, (Isotp.linkStep sizeA sizeB (put st) (deliver ret)).1 =
      put' (st.does d.rxBufferSize (.rx f ret)))
    (s : State V) :
    ∃ es : List (Isotp.Entry × ℤ), exec (Isotp.linkStep sizeA sizeB) (put s.world.transport)
        (deliver (d.canSend s.world.transport.log) :: es.map fun e => act e.1 e.2) =
        put' (d.step s (.rxCallback f)).1.world.transport ∧
      Calls d (d.step s (.rxCallback f)).2 es := by
  obtain ⟨calls, entries, h⟩ := arrival_projects d s f
  have houter : entries.filterMap TpCall.outer? = [] := (List.cons.inj h.outer).2
  have hcalls : ∀ c ∈ entries, c.entry?.isSome := by
    intro c hc
    have hnone := List.filterMap_eq_nil_iff.mp houter c hc
    cases c with
    | send data => rfl
    | _ => cases hnone
  obtain ⟨es, hexec, hentries, hdriver⟩ :=
    link_calls act put' hput (d.stationStep s.world.transport (.rx f)).1 entries hcalls
  refine ⟨es, ?_, calls_of_projects h (fun _ hc => List.mem_cons_of_mem _ hc) hentries hdriver⟩
  rw [exec_cons, hdeliver, ← h.transport, exec_cons]
  exact hexec

end OneDevice

/-! ### Both devices -/

/-- The frame that arrives is not taken for one of another message. -/
def Unconfused (b : Bus V V') : BusAct V V' → Prop
  | .toEcu beyond => Isotp.Unconfused b.link (.deliverToB beyond 0)
  | .toClient beyond => Isotp.Unconfused b.link (.deliverToA beyond 0)
  | _ => True

instance (b : Bus V V') (act : BusAct V V') : Decidable (Unconfused b act) :=
  match act with
  | .toEcu beyond => inferInstanceAs (Decidable (Isotp.Unconfused b.link (.deliverToB beyond 0)))
  | .toClient beyond => inferInstanceAs (Decidable (Isotp.Unconfused b.link (.deliverToA beyond 0)))
  | .client _ _ | .ecu _ _ | .loseToEcu | .loseToClient => inferInstanceAs (Decidable True)

/-- A run of the bus as a run `linkActs` of the link below it, in which each owner sends nothing but
what its stack sent. -/
structure Follows (dc : Device V) (de : Device V') (b : Bus V V') (acts : List (BusAct V V'))
    (linkActs : List Isotp.LinkAct) : Prop where
  link : exec (Isotp.linkStep dc.rxBufferSize de.rxBufferSize) b.link linkActs =
    (exec (busStep dc de) b acts).link
  client : ∀ data ret, .callA (.send data) ret ∈ linkActs →
    data.bytes ∈ Core.sentOf (atClient (trace (busStep dc de) b acts))
  ecu : ∀ data ret, .callB (.send data) ret ∈ linkActs →
    data.bytes ∈ Core.sentOf (atEcu (trace (busStep dc de) b acts))
  clear : Along (busStep dc de) Unconfused b acts →
    Along (Isotp.linkStep dc.rxBufferSize de.rxBufferSize) Isotp.Unconfused b.link linkActs
  keeps : dc.TakesAll → de.TakesAll → (∀ act ∈ acts, act.Keeps) → ∀ act ∈ linkActs, act.Keeps

section Both

variable {dc : Device V} {de : Device V'} {b : Bus V V'}

/-- Nothing happens on the link. -/
theorem Follows.still {acts : List (BusAct V V')}
    (hlink : (exec (busStep dc de) b acts).link = b.link) : Follows dc de b acts [] :=
  ⟨hlink.symm, nofun, nofun, fun _ => trivial, nofun⟩

theorem Follows.cons {act : BusAct V V'} {acts : List (BusAct V V')}
    {linkActs linkActs' : List Isotp.LinkAct} (h : Follows dc de b [act] linkActs)
    (hnext : Follows dc de (busStep dc de b act).1 acts linkActs') :
    Follows dc de b (act :: acts) (linkActs ++ linkActs') := by
  have hlink : exec (Isotp.linkStep dc.rxBufferSize de.rxBufferSize) b.link linkActs =
      (busStep dc de b act).1.link := h.link
  have htrace : trace (busStep dc de) b [act] = (busStep dc de b act).2 := List.append_nil _
  constructor
  · rw [exec_append, hlink, exec_cons]
    exact hnext.link
  · intro data ret hdata
    rw [trace_cons, atClient_append, Core.sentOf_append, List.mem_append, ← htrace]
    exact (List.mem_append.mp hdata).imp (h.client data ret) (hnext.client data ret)
  · intro data ret hdata
    rw [trace_cons, atEcu_append, Core.sentOf_append, List.mem_append, ← htrace]
    exact (List.mem_append.mp hdata).imp (h.ecu data ret) (hnext.ecu data ret)
  · intro hclear
    rw [along_append, hlink]
    exact ⟨h.clear ⟨hclear.1, trivial⟩, hnext.clear hclear.2⟩
  · intro hC hE hacts
    obtain ⟨hact, hrest⟩ := List.forall_mem_cons.mp hacts
    exact List.forall_mem_append.mpr
      ⟨h.keeps hC hE (List.forall_mem_singleton.mpr hact), hnext.keeps hC hE hrest⟩

/-- Calls of the owners arrive nowhere. -/
theorem along_calls {sizeA sizeB : UInt16} (l : Isotp.Link) {linkActs : List Isotp.LinkAct}
    (h : ∀ act ∈ linkActs, ∀ l, Isotp.Unconfused l act) :
    Along (Isotp.linkStep sizeA sizeB) Isotp.Unconfused l linkActs :=
  ((Along.trivial l linkActs).and_forall h).mono fun l _ hact => hact.1 l

theorem TakesAll.driver {d : Device V} (h : d.TakesAll) {os : List Core.Event}
    {es : List (Isotp.Entry × ℤ)} (hes : Calls d os es) : ∀ e ∈ es, e.2 = 0 := by
  intro e he
  obtain ⟨log, hlog⟩ := hes.driver e he
  exact hlog.trans (h log)

theorem client_follows (b : Bus V V') (op : Op V) (hown : op.IsOwn) :
    ∃ linkActs, Follows dc de b [.client op hown] linkActs := by
  obtain ⟨es, hexec, hcalls⟩ := own_linked (d := dc) .callA (fun st => { b.link with a := st })
    (fun _ _ _ => rfl) b.client op hown
  refine ⟨es.map fun e => .callA e.1 e.2, hexec, fun data ret hdata => ?_, fun data ret hdata => ?_,
    fun _ => along_calls _ ?_, fun hC _ _ => ?_⟩
  · simp only [trace_cons, trace_nil, List.append_nil, busStep, atClient_inl]
    obtain ⟨⟨e, ret'⟩, he, hsame⟩ := List.mem_map.mp hdata
    cases hsame
    exact hcalls.sends _ _ he
  · simp at hdata
  · exact List.forall_mem_map.mpr fun _ _ _ => trivial
  · exact List.forall_mem_map.mpr fun e he => hC.driver hcalls e he

theorem ecu_follows (b : Bus V V') (op : Op V') (hown : op.IsOwn) :
    ∃ linkActs, Follows dc de b [.ecu op hown] linkActs := by
  obtain ⟨es, hexec, hcalls⟩ := own_linked (d := de) .callB (fun st => { b.link with b := st })
    (fun _ _ _ => rfl) b.ecu op hown
  refine ⟨es.map fun e => .callB e.1 e.2, hexec, fun data ret hdata => ?_, fun data ret hdata => ?_,
    fun _ => along_calls _ ?_, fun _ hE _ => ?_⟩
  · simp at hdata
  · simp only [trace_cons, trace_nil, List.append_nil, busStep, atEcu_inr]
    obtain ⟨⟨e, ret'⟩, he, hsame⟩ := List.mem_map.mp hdata
    cases hsame
    exact hcalls.sends _ _ he
  · exact List.forall_mem_map.mpr fun _ _ _ => trivial
  · exact List.forall_mem_map.mpr fun e he => hE.driver hcalls e he

theorem toEcu_follows (b : Bus V V') (beyond : ℕ → UInt8) :
    ∃ linkActs, Follows dc de b [.toEcu beyond] linkActs := by
  cases hframe : (Isotp.framesOf b.client.world.transport.log)[b.fromClient.gone]? with
  | none => exact ⟨[], .still (by simp only [exec_cons, exec_nil, busStep, nextFrame, hframe])⟩
  | some frame =>
    have hdeliver (st : Isotp.Station) (ret : ℤ) :
        (Isotp.linkStep dc.rxBufferSize de.rxBufferSize { b.link with b := st }
          (.deliverToB beyond ret)).1 =
        { b.link with
          b := st.does de.rxBufferSize
            (.rx (.ofBytes b.client.world.transport.node.iso.txId frame beyond) ret)
          fromA := b.fromClient.arrived frame } := by
      simp only [Isotp.linkStep, Bus.link, hframe]
    obtain ⟨es, hexec, hcalls⟩ := arrival_linked (d := de) .callB (fun st => { b.link with b := st })
      (fun st => { b.link with b := st, fromA := b.fromClient.arrived frame })
      (fun _ _ _ => rfl) hdeliver b.ecu
    refine ⟨.deliverToB beyond (de.canSend b.ecu.world.transport.log) :: es.map fun e => .callB e.1 e.2,
      ?_, fun data ret hdata => ?_, fun data ret hdata => ?_, fun hclear => ⟨hclear.1, ?_⟩,
      fun _ hE _ => ?_⟩
    · simp only [exec_cons, exec_nil, busStep, nextFrame, hframe]
      exact hexec
    · simp at hdata
    · simp only [trace_cons, trace_nil, List.append_nil, busStep, nextFrame, hframe, atEcu_inr]
      rcases List.mem_cons.mp hdata with hdata | hdata
      · cases hdata
      · obtain ⟨⟨e, ret'⟩, he, hsame⟩ := List.mem_map.mp hdata
        cases hsame
        exact hcalls.sends _ _ he
    · exact along_calls _ (List.forall_mem_map.mpr fun _ _ _ => trivial)
    · exact List.forall_mem_cons.mpr ⟨hE _, List.forall_mem_map.mpr fun e he => hE.driver hcalls e he⟩

theorem toClient_follows (b : Bus V V') (beyond : ℕ → UInt8) :
    ∃ linkActs, Follows dc de b [.toClient beyond] linkActs := by
  cases hframe : (Isotp.framesOf b.ecu.world.transport.log)[b.fromEcu.gone]? with
  | none => exact ⟨[], .still (by simp only [exec_cons, exec_nil, busStep, nextFrame, hframe])⟩
  | some frame =>
    have hdeliver (st : Isotp.Station) (ret : ℤ) :
        (Isotp.linkStep dc.rxBufferSize de.rxBufferSize { b.link with a := st }
          (.deliverToA beyond ret)).1 =
        { b.link with
          a := st.does dc.rxBufferSize
            (.rx (.ofBytes b.ecu.world.transport.node.iso.txId frame beyond) ret)
          fromB := b.fromEcu.arrived frame } := by
      simp only [Isotp.linkStep, Bus.link, hframe]
    obtain ⟨es, hexec, hcalls⟩ := arrival_linked (d := dc) .callA (fun st => { b.link with a := st })
      (fun st => { b.link with a := st, fromB := b.fromEcu.arrived frame })
      (fun _ _ _ => rfl) hdeliver b.client
    refine ⟨.deliverToA beyond (dc.canSend b.client.world.transport.log) ::
        es.map fun e => .callA e.1 e.2,
      ?_, fun data ret hdata => ?_, fun data ret hdata => ?_, fun hclear => ⟨hclear.1, ?_⟩,
      fun hC _ _ => ?_⟩
    · simp only [exec_cons, exec_nil, busStep, nextFrame, hframe]
      exact hexec
    · simp only [trace_cons, trace_nil, List.append_nil, busStep, nextFrame, hframe, atClient_inl]
      rcases List.mem_cons.mp hdata with hdata | hdata
      · cases hdata
      · obtain ⟨⟨e, ret'⟩, he, hsame⟩ := List.mem_map.mp hdata
        cases hsame
        exact hcalls.sends _ _ he
    · simp at hdata
    · exact along_calls _ (List.forall_mem_map.mpr fun _ _ _ => trivial)
    · exact List.forall_mem_cons.mpr ⟨hC _, List.forall_mem_map.mpr fun e he => hC.driver hcalls e he⟩

/-- A step of the bus is a run of the link. -/
theorem busStep_follows (dc : Device V) (de : Device V') (b : Bus V V') (act : BusAct V V') :
    ∃ linkActs, Follows dc de b [act] linkActs := by
  cases act with
  | client op hown => exact client_follows b op hown
  | ecu op hown => exact ecu_follows b op hown
  | toEcu beyond => exact toEcu_follows b beyond
  | toClient beyond => exact toClient_follows b beyond
  | loseToEcu =>
    refine ⟨[.loseToB], ?_, by simp, by simp, fun _ => ⟨trivial, trivial⟩,
      fun _ _ hkeeps => (hkeeps _ List.mem_cons_self).elim⟩
    simp only [exec_cons, exec_nil, busStep, nextFrame, Isotp.linkStep, Bus.link]
    cases (Isotp.framesOf b.client.world.transport.log)[b.fromClient.gone]? <;> rfl
  | loseToClient =>
    refine ⟨[.loseToA], ?_, by simp, by simp, fun _ => ⟨trivial, trivial⟩,
      fun _ _ hkeeps => (hkeeps _ List.mem_cons_self).elim⟩
    simp only [exec_cons, exec_nil, busStep, nextFrame, Isotp.linkStep, Bus.link]
    cases (Isotp.framesOf b.ecu.world.transport.log)[b.fromEcu.gone]? <;> rfl

/-- Every run of the bus is one of the link below it. -/
theorem bus_follows (dc : Device V) (de : Device V') (b : Bus V V') (acts : List (BusAct V V')) :
    ∃ linkActs, Follows dc de b acts linkActs := by
  induction acts generalizing b with
  | nil => exact ⟨[], .still rfl⟩
  | cons act acts ih =>
    obtain ⟨linkActs, hstep⟩ := busStep_follows dc de b act
    obtain ⟨linkActs', hrun⟩ := ih (busStep dc de b act).1
    exact ⟨_, hstep.cons hrun⟩

end Both

end UdsLib.Device
