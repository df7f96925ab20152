import UdsLib.Core.Openings
import UdsLib.Device.Wiring
import UdsLib.Machine.Simulation

/-! Every run of a device is at once a run of its stack and a run of its transport. The stack is
handed the messages that the transport completes, and the transport sends what the stack hands to
`fn_tp_send`, with the same results. -/
namespace UdsLib.Device
open Bytes Machine Prog

variable {V : Type} {d : Device V}

/-- The calls of `fn_tp_send` with their results, in order. -/
def tpSends (es : List Core.Event) : List (List UInt8 × ℤ) :=
  es.filterMap fun
    | .tpSend _ data ret => some (data, ret)
    | _ => none

/-- The calls of `uds_isotp_send` with their results, in order. -/
def returns (os : List Isotp.Output) : List (List UInt8 × ℤ) :=
  os.filterMap fun
    | .returned sdu ret => some (sdu, ret)
    | _ => none

theorem tpSends_append (es fs : List Core.Event) : tpSends (es ++ fs) = tpSends es ++ tpSends fs :=
  List.filterMap_append ..

theorem returns_append (os ps : List Isotp.Output) : returns (os ++ ps) = returns os ++ returns ps :=
  List.filterMap_append ..

/-- A call of the transport from outside the stack. -/
def TpCall.outer? : TpCall → Option TpCall
  | .send _ => none
  | c => some c

def Op.outer? : Op V → Option TpCall
  | .rxCallback f => some (.rx f)
  | .tpProcess timeMs => some (.process timeMs)
  | .setFd enabled => some (.setFd enabled)
  | _ => none

/-- A call of the stack that brings no message. -/
def apiOf : Core.Op (World V) → Option (Core.Op (World V))
  | .inputSdu _ => none
  | .elapse _ => none
  | op => some op

def Op.api? : Op V → Option (Core.Op (World V))
  | .process => some .process
  | .clientRequest sid data cb => some (.clientRequest sid data cb)
  | .fill off bytes => some (.fill off bytes)
  | .sendResponse len => some (.sendResponse len)
  | .sendNrc sid nrc => some (.sendNrc sid nrc)
  | _ => none

/-! ### The transport under the stack -/

/-- The transport does no more than send what the stack hands over, with the same results. -/
structure Sends (es : List Core.Event) (entries : List TpCall) (os : List Isotp.Output) : Prop where
  sends : ∀ c ∈ entries, ∃ data, c = .send data
  results : returns os = tpSends es
  silent : Isotp.sdusOf os = []

/-- The stack's way from one state of its surroundings to another, seen by the transport. -/
abbrev Carried (d : Device V) (w : World V) (es : List Core.Event) (v : World V) : Prop :=
  Explained d.stationStep Sends w.transport es v.transport

theorem sends_matching : Matching Sends where
  nil := ⟨nofun, rfl, rfl⟩
  append h hnext := by
    constructor
    · exact List.forall_mem_append.mpr ⟨h.sends, hnext.sends⟩
    · rw [returns_append, tpSends_append, h.results, hnext.results]
    · rw [Isotp.sdusOf_append, h.silent, hnext.silent, List.append_nil]

/-- Nothing but a send moves the transport. -/
theorem Carried.still {w v : World V} {e : Core.Event} (htransport : v.transport = w.transport)
    (he : tpSends [e] = []) : Carried d w [e] v := by
  unfold Carried
  rw [htransport]
  exact ⟨[], rfl, nofun, he.symm, rfl⟩

theorem send_outputs (rxBufferSize : UInt16) (n : Isotp.Node) (data : Sdu) (ret : ℤ) :
    returns (Isotp.step rxBufferSize n (.send data ret)).2 =
        [(data.bytes, (Isotp.isotpSend n data ret).1)] ∧
      Isotp.sdusOf (Isotp.step rxBufferSize n (.send data ret)).2 = [] := by
  refine ⟨?_, Isotp.step_sdus rxBufferSize n _ nofun⟩
  simp only [Isotp.step]
  generalize hr : Isotp.isotpSend n data ret = r
  have heff := Isotp.send_effect n data ret
  rw [hr] at heff
  cases heff with
  | single | started =>
    unfold Isotp.tpSendFrame
    split_ifs <;> rfl
  | tooLong => rfl

theorem tpSend_carried (c : Core.Ctx) (origin : Core.Origin) (data : List UInt8) (w : World V)
    (hlen : data.length < 65536) :
    Carried d w [.tpSend origin data (d.wired.fnTpSend c data w).1] (d.wired.fnTpSend c data w).2 := by
  obtain ⟨hresults, hsilent⟩ := send_outputs d.rxBufferSize w.transport.node (sduOf data)
    (d.canSend w.transport.log)
  rw [sduOf_bytes hlen] at hresults
  have hsends : ∀ c ∈ [TpCall.send (sduOf data)], ∃ data, c = .send data :=
    List.forall_mem_singleton.mpr ⟨_, rfl⟩
  exact .single (TpCall.send (sduOf data)) ⟨hsends, hresults, hsilent⟩

theorem carried_rule (d : Device V) : Core.WorldRule d.wired (Carried d) where
  refl w := .refl sends_matching w.transport
  trans h hnext := h.trans sends_matching hnext
  inside w e he := by
    apply Carried.still rfl
    cases e with
    | call | time | tpSend | dispatch | responseCb => exact absurd he Bool.false_ne_true
    | _ => rfl
  time w := .still rfl rfl
  call c call w := .still rfl rfl
  send := tpSend_carried

theorem liftApp_carried (p : Core.AppProg V) :
    Keeps (Core.Traced (Carried d)) (Core.runApp d.wired (liftApp p)) := by
  have h := carried_rule d
  have hR := h.composable
  induction p with
  | done res => exact hR.refl
  | look k ih => exact hR.bind (m := Prog.reads _) hR.refl fun s => ih _ _
  | put v k ih =>
    intro s
    have hput : Core.Traced (Carried d) s [] { s with world := { s.world with app := v } } :=
      .refl sends_matching s.world.transport
    exact hR.trans hput (ih _)
  | fill off bytes k ih => exact hR.bind (m := Prog.modify _) hR.refl fun _ => ih
  | sendResponse len k ih => exact hR.bind (h.sendResponse len) fun _ => ih _
  | sendNrc sid nrc k ih => exact hR.bind (h.sendNrc sid nrc) fun _ => ih _
  | clientRequest sid data cb k ih => exact hR.bind (h.clientRequest sid data cb) fun _ => ih _

theorem wired_code (d : Device V) : Core.WorldCode d.wired (Carried d) where
  toWorldRule := carried_rule d
  user entry hentry message := by
    obtain ⟨own, -, rfl⟩ := List.mem_map.mp hentry
    exact liftApp_carried _
  response _ _ _ := liftApp_carried _

/-! ### Both at once -/

/-- A run of the device from `s` to `t` as a run `calls` of its stack and a run `entries` of its
transport. -/
structure Projects (d : Device V) (s : State V) (ops : List (Op V)) (es : List Core.Event)
    (t : State V) (calls : List (Core.Op (World V))) (entries : List TpCall) : Prop where
  stack : exec (Core.step d.wired) s calls = t
  events : trace (Core.step d.wired) s calls = es
  transport : exec d.stationStep s.world.transport entries = t.world.transport
  outer : entries.filterMap TpCall.outer? = ops.filterMap Op.outer?
  api : calls.filterMap apiOf = ops.filterMap Op.api?
  sends : returns (trace d.stationStep s.world.transport entries) = tpSends es
  messages : Core.messagesIn calls =
    (Isotp.sdusOf (trace d.stationStep s.world.transport entries)).map
      fun sdu => .bytes (sduOf sdu)

theorem Projects.nil (s : State V) : Projects d s [] [] s [] [] := ⟨rfl, rfl, rfl, rfl, rfl, rfl, rfl⟩

theorem Projects.append {s t u : State V} {ops ops' : List (Op V)} {es es' : List Core.Event}
    {calls calls' : List (Core.Op (World V))} {entries entries' : List TpCall}
    (h : Projects d s ops es t calls entries) (hnext : Projects d t ops' es' u calls' entries') :
    Projects d s (ops ++ ops') (es ++ es') u (calls ++ calls') (entries ++ entries') := by
  obtain ⟨rfl, rfl, htransport, houter, hapi, hsends, hmessages⟩ := h
  obtain ⟨rfl, rfl, htransport', houter', hapi', hsends', hmessages'⟩ := hnext
  constructor
  · exact exec_append _ _ _
  · exact trace_append _ _ _
  · rw [exec_append, htransport, htransport']
  · rw [List.filterMap_append, List.filterMap_append, houter, houter']
  · rw [List.filterMap_append, List.filterMap_append, hapi, hapi']
  · rw [trace_append, returns_append, tpSends_append, hsends, htransport, hsends']
  · rw [trace_append, Isotp.sdusOf_append, List.map_append, ← hmessages, htransport, ← hmessages']
    exact List.filterMap_append ..

/-- A frame completes at most one message. -/
theorem rx_sdus (d : Device V) (st : Isotp.Station) (f : Isotp.RxFrame) :
    (Isotp.sdusOf (d.stationStep st (.rx f)).2).length ≤ 1 ∧
      returns (d.stationStep st (.rx f)).2 = [] := by
  simp only [stationStep, TpCall.op, Isotp.step]
  unfold Isotp.isotpRxCallback
  split_ifs
  · exact ⟨Nat.zero_le 1, rfl⟩
  · cases Isotp.pciOf f with
    | sf =>
      unfold Isotp.rxSf
      dsimp only
      split_ifs <;> first | exact ⟨Nat.zero_le 1, rfl⟩ | exact ⟨Nat.le_refl 1, rfl⟩
    | ff =>
      unfold Isotp.rxFf Isotp.tpSendFrame
      dsimp only
      split_ifs <;> exact ⟨Nat.zero_le 1, rfl⟩
    | cf =>
      unfold Isotp.rxCf
      dsimp only
      split_ifs <;> first | exact ⟨Nat.zero_le 1, rfl⟩ | exact ⟨Nat.le_refl 1, rfl⟩
    | fc | other => exact ⟨Nat.zero_le 1, rfl⟩

theorem process_silent (d : Device V) (st : Isotp.Station) (timeMs : UInt32) :
    returns (d.stationStep st (.process timeMs)).2 = [] ∧
      Isotp.sdusOf (d.stationStep st (.process timeMs)).2 = [] := by
  refine ⟨?_, Isotp.step_sdus d.rxBufferSize st.node _ nofun⟩
  simp only [stationStep, TpCall.op, Isotp.step]
  generalize hr : Isotp.tpIsotpProcess st.node timeMs (d.canSend st.log) = r
  have heff := Isotp.process_effect st.node timeMs (d.canSend st.log)
  rw [hr] at heff
  cases heff with
  | refused =>
    unfold Isotp.tpSendFrame
    split_ifs <;> rfl
  | notSending | drained | early | blockEnd | sent => rfl

/-- A call of the stack that moves nothing else. -/
def Apart (call : Core.Op (World V)) : Prop :=
  ∀ f, call = .elapse f → ∀ w, (f w).transport = w.transport

/-- A call of the stack. -/
theorem call_projects (d : Device V) (s : State V) (op : Core.Op (World V))
    (hapart : Apart op) : ∃ entries, exec d.stationStep s.world.transport entries =
        (Core.step d.wired s op).1.world.transport ∧
      Sends (Core.step d.wired s op).2 entries
        (trace d.stationStep s.world.transport entries) := by
  have hopening (message : Sdu) (w : World V) (opening : List Core.Event)
      (hopen : Core.Opening message opening) : Carried d w opening w := by
    cases hopen with
    | none => exact .refl sends_matching w.transport
    | dispatch | response => exact .still rfl rfl
  refine (wired_code d).step_keeps hopening op (fun f hf w => ?_) s
  unfold Carried
  rw [hapart f hf w]
  exact .refl sends_matching w.transport

theorem Sends.outer {es : List Core.Event} {entries : List TpCall} {os : List Isotp.Output}
    (h : Sends es entries os) : entries.filterMap TpCall.outer? = [] := by
  apply List.filterMap_eq_nil_iff.mpr
  intro c hc
  obtain ⟨data, rfl⟩ := h.sends c hc
  rfl

/-- A call of the transport from outside that completes no message. -/
theorem outer_projects (d : Device V) (s : State V) (op : Op V) (entry : TpCall)
    (houter : [entry].filterMap TpCall.outer? = [op].filterMap Op.outer?)
    (hapi : [op].filterMap Op.api? = [])
    (hreturns : returns (d.stationStep s.world.transport entry).2 = [])
    (hsdus : Isotp.sdusOf (d.stationStep s.world.transport entry).2 = []) :
    ∃ calls, Projects d s [op] [] (d.outer s entry) calls [entry] := by
  refine ⟨[.elapse fun w => d.call w entry], rfl, rfl, rfl, houter, hapi.symm, ?_, ?_⟩
  · rw [trace_cons, trace_nil, List.append_nil]
    exact hreturns
  · rw [trace_cons, trace_nil, List.append_nil]
    exact (congrArg (List.map _) hsdus).symm

/-- A frame that completes a message. -/
theorem message_projects (d : Device V) (s : State V) {f : Isotp.RxFrame}
    {sdu : List UInt8} (hsdu : Isotp.sdusOf (d.stationStep s.world.transport (.rx f)).2 = [sdu]) :
    let r := Core.step d.wired (d.outer s (.rx f)) (.inputSdu (.bytes (sduOf sdu)))
    ∃ calls entries, Projects d s [.rxCallback f] r.2 r.1 calls (.rx f :: entries) := by
  intro r
  obtain ⟨entries, htransport, hsends⟩ :=
    call_projects d (d.outer s (.rx f)) (.inputSdu (.bytes (sduOf sdu))) nofun
  have htrace : trace d.stationStep s.world.transport (.rx f :: entries) =
      (d.stationStep s.world.transport (.rx f)).2 ++
        trace d.stationStep (d.outer s (.rx f)).world.transport entries := rfl
  refine ⟨[.elapse fun w => d.call w (.rx f), .inputSdu (.bytes (sduOf sdu))], entries, rfl,
    List.append_nil _, htransport, ?_, rfl, ?_, ?_⟩
  · exact congrArg (TpCall.rx f :: ·) hsends.outer
  · rw [htrace, returns_append, (rx_sdus _ _ _).2, List.nil_append, hsends.results]
  · rw [htrace, Isotp.sdusOf_append, hsdu, hsends.silent]
    rfl

/-- A frame arrives: the transport takes it before it does anything else. -/
theorem arrival_projects (d : Device V) (s : State V) (f : Isotp.RxFrame) :
    ∃ calls entries, Projects d s [.rxCallback f] (step d s (.rxCallback f)).2
      (step d s (.rxCallback f)).1 calls (.rx f :: entries) := by
  obtain ⟨hone, hreturns⟩ := rx_sdus d s.world.transport f
  simp only [step, rxCallback]
  split
  next hnone =>
    obtain ⟨calls, h⟩ := outer_projects d s (.rxCallback f) (.rx f) rfl rfl hreturns hnone
    exact ⟨calls, [], h⟩
  next sdu rest hsome =>
    rw [hsome, List.length_cons] at hone
    obtain rfl : rest = [] := List.length_eq_zero_iff.mp (by omega)
    exact message_projects d s hsome

theorem step_projects (d : Device V) (s : State V) (op : Op V) :
    ∃ calls entries, Projects d s [op] (step d s op).2 (step d s op).1 calls entries := by
  have hcall (call : Core.Op (World V)) (hstep : step d s op = Core.step d.wired s call)
      (hmessage : Core.messagesIn [call] = []) (houter : op.outer? = none)
      (hapi : [call].filterMap apiOf = [op].filterMap Op.api?) (hapart : Apart call) :
      ∃ calls entries, Projects d s [op] (step d s op).2 (step d s op).1 calls entries := by
    obtain ⟨entries, htransport, hsends⟩ := call_projects d s call hapart
    rw [hstep]
    refine ⟨[call], entries, rfl, List.append_nil _, htransport, ?_, hapi, hsends.results, ?_⟩
    · rw [hsends.outer]
      simp [houter]
    · rw [hmessage, hsends.silent]
      rfl
  cases op with
  | rxCallback f =>
    obtain ⟨calls, entries, h⟩ := arrival_projects d s f
    exact ⟨calls, _, h⟩
  | tpProcess timeMs =>
    obtain ⟨hreturns, hsdus⟩ := process_silent d s.world.transport timeMs
    obtain ⟨calls, h⟩ := outer_projects d s (.tpProcess timeMs) (.process timeMs) rfl rfl hreturns hsdus
    exact ⟨calls, _, h⟩
  | setFd enabled =>
    obtain ⟨calls, h⟩ := outer_projects d s (.setFd enabled) (.setFd enabled) rfl rfl rfl rfl
    exact ⟨calls, _, h⟩
  | process => exact hcall .process rfl rfl rfl rfl nofun
  | clientRequest sid data cb => exact hcall (.clientRequest sid data cb) rfl rfl rfl rfl nofun
  | fill off bytes => exact hcall (.fill off bytes) rfl rfl rfl rfl nofun
  | sendResponse len => exact hcall (.sendResponse len) rfl rfl rfl rfl nofun
  | sendNrc sid nrc => exact hcall (.sendNrc sid nrc) rfl rfl rfl rfl nofun
  | elapse f =>
    refine hcall (.elapse fun w => { w with app := f w.app }) rfl rfl rfl rfl ?_
    intro g hg w
    cases hg
    rfl

/-- Every run of a device is a run of its stack, which is given exactly the messages that the
transport completes, and a run of its transport, which besides the frames and ticks of the device
gets exactly the messages that the stack hands to `fn_tp_send`, and answers them with the same
results. -/
theorem device_projects (d : Device V) (s : State V) (ops : List (Op V)) :
    ∃ calls entries, Projects d s ops (trace (step d) s ops) (exec (step d) s ops) calls entries := by
  induction ops generalizing s with
  | nil => exact ⟨[], [], .nil s⟩
  | cons op ops ih =>
    obtain ⟨calls, entries, hstep⟩ := step_projects d s op
    obtain ⟨calls', entries', hrun⟩ := ih (step d s op).1
    exact ⟨calls ++ calls', entries ++ entries', hstep.append hrun⟩

end UdsLib.Device
