import UdsLib.Device.Projection

/-! What a device has heard and said in a run: what opens at its stack are messages that its
transport put together, and what its transport accepted are messages that `fn_tp_send` took. -/
namespace UdsLib.Device
open Bytes Machine Prog

variable {V : Type} {d : Device V}

/-- The messages that `fn_tp_send` took, in order. -/
def takenOf (es : List Core.Event) : List (List UInt8) :=
  (tpSends es).filterMap fun p => if p.2 = 0 then some p.1 else none

theorem takenOf_append (es fs : List Core.Event) : takenOf (es ++ fs) = takenOf es ++ takenOf fs := by
  rw [takenOf, tpSends_append, List.filterMap_append]
  rfl

theorem station_log (st : Isotp.Station) (cs : List TpCall) :
    (exec d.stationStep st cs).log = st.log ++ trace d.stationStep st cs := by
  induction cs generalizing st with
  | nil => exact (List.append_nil _).symm
  | cons c cs ih =>
    rw [exec_cons, ih, trace_cons, ← List.append_assoc]
    rfl

/-- What `uds_isotp_send` accepted are the messages it returned 0 for. -/
theorem acceptedOf_returns (os : List Isotp.Output) :
    Isotp.acceptedOf os =
      (returns os).filterMap fun p => if p.2 = 0 then some p.1 else none := by
  unfold Isotp.acceptedOf returns
  rw [List.filterMap_filterMap]
  apply List.filterMap_congr
  intro o _
  cases o <;> rfl

/-- A completed message is no longer than its length field can tell. -/
theorem sdus_lt (d : Device V) (st : Isotp.Station) (c : TpCall) :
    ∀ sdu ∈ Isotp.sdusOf (d.stationStep st c).2, sdu.length < 65536 := by
  cases c with
  | send data => simp [stationStep, TpCall.op, send_outputs]
  | process timeMs => simp [process_silent]
  | setFd enabled => simp [stationStep, TpCall.op, Isotp.step]
  | rx f =>
    simp only [stationStep, TpCall.op, Isotp.step]
    unfold Isotp.isotpRxCallback
    split_ifs
    · simp
    · cases Isotp.pciOf f with
      | sf =>
        have hlt (n : UInt8) : n.toNat < 65536 := lt_trans n.toNat_lt (by decide)
        unfold Isotp.rxSf
        dsimp only
        split_ifs <;> simp [Isotp.sdusOf, Isotp.Output.sdu?, hlt, -UInt8.toNat_and]
      | ff =>
        unfold Isotp.rxFf Isotp.tpSendFrame
        dsimp only
        split_ifs <;> simp [Isotp.sdusOf, Isotp.Output.sdu?]
      | cf =>
        have hlt (n : UInt16) : n.toNat < 65536 := n.toNat_lt
        unfold Isotp.rxCf
        dsimp only
        split_ifs <;> simp [Isotp.sdusOf, Isotp.Output.sdu?, hlt]
      | fc | other => simp

theorem run_sdus_lt (st : Isotp.Station) (cs : List TpCall) :
    ∀ sdu ∈ Isotp.sdusOf (trace d.stationStep st cs), sdu.length < 65536 := by
  induction cs generalizing st with
  | nil => simp
  | cons c cs ih =>
    rw [trace_cons, Isotp.sdusOf_append]
    exact List.forall_mem_append.mpr ⟨sdus_lt d st c, ih _⟩

/-- What a device said and heard on its way from `s` to `t`. -/
structure Tells (s : State V) (es : List Core.Event) (t : State V) : Prop where
  said : Isotp.acceptedOf t.world.transport.log =
    Isotp.acceptedOf s.world.transport.log ++ takenOf es
  heard : ∃ msgs, Isotp.sdusOf t.world.transport.log =
    Isotp.sdusOf s.world.transport.log ++ msgs ∧ (Core.openedOf es).Sublist msgs

/-- The stack is given what the transport put together. -/
theorem Projects.messages_content {s t : State V} {ops : List (Op V)} {es : List Core.Event}
    {calls : List (Core.Op (World V))} {entries : List TpCall}
    (h : Projects d s ops es t calls entries) : (Core.messagesIn calls).map Buf.content =
      Isotp.sdusOf (trace d.stationStep s.world.transport entries) := by
  rw [h.messages, List.map_map]
  calc (Isotp.sdusOf (trace d.stationStep s.world.transport entries)).map
        (Buf.content ∘ fun sdu => .bytes (sduOf sdu))
    _ = (Isotp.sdusOf (trace d.stationStep s.world.transport entries)).map id :=
      List.map_congr_left fun sdu hsdu => sduOf_bytes (run_sdus_lt _ _ sdu hsdu)
    _ = _ := List.map_id _

theorem Projects.tells {s t : State V} {ops : List (Op V)} {es : List Core.Event}
    {calls : List (Core.Op (World V))} {entries : List TpCall}
    (h : Projects d s ops es t calls entries) : Tells s es t := by
  have hlog : t.world.transport.log = s.world.transport.log ++
      trace d.stationStep s.world.transport entries := by
    rw [← h.transport, station_log]
  constructor
  · rw [hlog, Isotp.acceptedOf_append, acceptedOf_returns (trace _ _ _), h.sends]
    rfl
  · refine ⟨_, by rw [hlog, Isotp.sdusOf_append], ?_⟩
    have hopened := Core.opened_once d.wired s calls
    rwa [h.events, h.messages_content] at hopened

/-- A step of a device. -/
theorem step_tells (d : Device V) (s : State V) (op : Op V) : Tells s (step d s op).2 (step d s op).1 := by
  obtain ⟨calls, entries, h⟩ := step_projects d s op
  exact h.tells

end UdsLib.Device
