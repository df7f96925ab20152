import UdsLib.Device.Conversation
import UdsLib.Isotp.Emission

/-! What holds of the frames of every run of the transport holds of the frames of every run of a
device, whatever its stack and its application have it send. -/
namespace UdsLib.Device
open Bytes Machine Prog

variable {V : Type} {d : Device V}

/-- A transport that has sent under `txId` in classic mode only. -/
structure Classic (txId : UInt32) (st : Isotp.Station) : Prop where
  inv : Isotp.NodeInv st.node
  id : st.node.iso.txId = txId
  mode : st.node.iso.useCanFd = false
  log : ∀ o ∈ st.log, o.Sound txId false

theorem Classic.call {txId : UInt32} {st : Isotp.Station} {c : TpCall} (h : Classic txId st)
    (hc : c ≠ .setFd true) : Classic txId (d.stationStep st c).1 := by
  have hsound := Isotp.step_sound d.rxBufferSize h.inv (c.op (d.canSend st.log))
  rw [h.id, h.mode] at hsound
  refine ⟨Isotp.step_nodeInv d.rxBufferSize _ _ h.inv, ?_, ?_, ?_⟩
  · exact (Isotp.step_ids d.rxBufferSize st.node _).2.1.trans h.id
  · have hmode := Isotp.step_useCanFd d.rxBufferSize st.node (c.op (d.canSend st.log))
    refine Eq.trans hmode ?_
    cases c with
    | setFd enabled =>
      cases enabled with
      | false => rfl
      | true => exact absurd rfl hc
    | _ => exact h.mode
  · exact List.forall_mem_append.mpr ⟨h.log, hsound⟩

theorem Classic.run {txId : UInt32} {st : Isotp.Station} (h : Classic txId st) {cs : List TpCall}
    (hcs : ∀ c ∈ cs, c ≠ .setFd true) : Classic txId (exec d.stationStep st cs) :=
  exec_invariant (C := fun _ c => c ≠ .setFd true ∧ True) (fun _ _ hst hc => hst.call hc.1) h
    ((Along.trivial st cs).and_forall hcs)

theorem step_classic {txId : UInt32} (s : State V) (op : Op V)
    (h : Classic txId s.world.transport) (hop : op.outer? ≠ some (.setFd true)) :
    Classic txId (step d s op).1.world.transport := by
  obtain ⟨calls, entries, hprojects⟩ := step_projects d s op
  have hentries : ∀ c ∈ entries, c ≠ .setFd true := by
    intro c hc hfd
    have houter : TpCall.setFd true ∈ [op].filterMap Op.outer? := by
      rw [← hprojects.outer]
      exact List.mem_filterMap.mpr ⟨c, hc, congrArg TpCall.outer? hfd⟩
    obtain ⟨op', hop', hsome⟩ := List.mem_filterMap.mp houter
    rw [List.mem_singleton.mp hop'] at hsome
    exact hop hsome
  rw [← hprojects.transport]
  exact h.run hentries

/-- In every run of a device that never turns CAN-FD on, each call of `can_send` is under the device's
own identifier and with at most eight bytes. -/
theorem device_frames_classic (d : Device V) (mem : Isotp.Node) (txId rxId : UInt32) (app : V)
    (ops : List (Op V)) (hclassic : ∀ op ∈ ops, op.outer? ≠ some (.setFd true)) (id : UInt32)
    (data : List UInt8) (ret : ℤ)
    (hcall : .canSend id data ret ∈
      (exec (step d) (d.start mem txId rxId app) ops).world.transport.log) :
    id = txId ∧ data.length ≤ 8 := by
  have hstart : Classic txId (d.start mem txId rxId app).world.transport := by
    rw [start_transport]
    exact ⟨Isotp.init_nodeInv _ _ _ _, rfl, rfl, by simp⟩
  have hend : Classic txId (exec (step d) (d.start mem txId rxId app) ops).world.transport :=
    exec_invariant (I := fun s : State V => Classic txId s.world.transport)
      (C := fun _ op => op.outer? ≠ some (.setFd true) ∧ True)
      (fun s op hs hop => step_classic s op hs hop.1) hstart
      ((Along.trivial _ ops).and_forall hclassic)
  obtain ⟨hid, hemitted⟩ := hend.log _ hcall
  have hlegal := hemitted.legal
  simp only [Isotp.LegalLength, Bool.false_eq_true, false_and, or_false] at hlegal
  exact ⟨hid, hlegal⟩

/-- The frame of a client that asks whether its ECU is there. -/
theorem testerPresent_classic :
    ([0x02, 0x3E, 0x00, 0, 0, 0, 0, 0] : List UInt8).length ≤ 8 :=
  (device_frames_classic plainDevice Isotp.zeroNode 0x7E0 0x7E8 ()
    [.clientRequest 0x3E (.bytes ⟨[0x00], by decide⟩) none] (by simp [Op.outer?]) 0x7E0
    [0x02, 0x3E, 0x00, 0, 0, 0, 0, 0] 0 (by decide +kernel)).2

end UdsLib.Device
