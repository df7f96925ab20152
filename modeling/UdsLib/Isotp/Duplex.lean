import UdsLib.Isotp.FlowControl

/-! One static context serves both directions. What a transmission and a reception can do to
each other: Consecutive Frames and unsegmented sends are harmless, a Single Frame or First
Frame aborts the transmission in progress. -/
namespace UdsLib.Isotp
open Bytes Machine

/-- A Consecutive Frame arrives. -/
def Op.isCf : Op → Bool
  | .rx f _ => pciOf f = .cf
  | _ => false

def Op.isSend : Op → Bool
  | .send _ _ => true
  | _ => false

/-- A Single Frame or First Frame for this node arrives. -/
def OpensReception (rxId : UInt32) : Op → Prop
  | .rx f _ => f.id = rxId ∧ (pciOf f = .sf ∨ pciOf f = .ff)
  | _ => False

/-- A Flow Control frame arrives or the process function runs. -/
def FcOrProcess : Op → Prop
  | .rx f _ => pciOf f = .fc
  | .process _ _ => True
  | _ => False

/-! ### A reception beside a transmission -/

theorem rxCf_ignored {n : Node} (f : RxFrame) (h : n.iso.state ≠ .rxWaitCf) : rxCf n f = (n, []) :=
  if_pos h

/-- Only a Single Frame or First Frame opens a reception. -/
theorem not_rxWaitCf_step (rxBufferSize : UInt16) (n : Node) (op : Op)
    (hn : n.iso.state ≠ .rxWaitCf) (hop : ¬ OpensReception n.iso.rxId op) :
    (step rxBufferSize n op).1.iso.state ≠ .rxWaitCf := by
  cases op with
  | rx f ret =>
    by_cases hid : f.id = n.iso.rxId
    · have hkind : ¬ (pciOf f = .sf ∨ pciOf f = .ff) := fun h => hop ⟨hid, h⟩
      rw [step_rx rxBufferSize ret hid]
      cases hp : pciOf f with
      | sf => exact absurd (Or.inl hp) hkind
      | ff => exact absurd (Or.inr hp) hkind
      | cf =>
        simp only [rxCf_ignored f hn]
        exact hn
      | fc =>
        simp only [rxFc]
        split_ifs
        · exact hn
        · intro h
          cases h
        · exact hn
      | other => exact hn
    · simp only [step, isotpRxCallback, if_pos hid]
      exact hn
  | send data ret =>
    simp only [step, isotpSend, sendSf, sendMf]
    split_ifs <;> first | exact hn | (intro h; cases h)
  | process timeMs ret =>
    simp only [step]
    generalize hr : tpIsotpProcess n timeMs ret = r
    have h := process_effect n timeMs ret
    rw [hr] at h
    cases h with
    | notSending | early | refused => exact hn
    | drained | blockEnd =>
      intro h
      cases h
    | sent hs =>
      rw [cfSent_state hs]
      split_ifs <;> (intro h; cases h)
  | setFd enabled => exact hn

/-- Without an open reception a Consecutive Frame has no effect. -/
theorem cf_without_effect (rxBufferSize : UInt16) (n : Node) (op : Op)
    (hn : n.iso.state ≠ .rxWaitCf) (hcf : op.isCf = true) : step rxBufferSize n op = (n, []) := by
  cases op with
  | rx f ret =>
    have hkind : pciOf f = .cf := by simpa [Op.isCf] using hcf
    by_cases hid : f.id = n.iso.rxId
    · rw [step_rx rxBufferSize ret hid]
      simp only [hkind, rxCf_ignored f hn]
    · simp only [step, isotpRxCallback, if_pos hid]
  | send | process | setFd => cases hcf

/-- Consecutive Frames that arrive during a transmission can be left out of any run. -/
theorem trace_without_cfs (rxBufferSize : UInt16) (n : Node) (ops : List Op)
    (hn : n.iso.state ≠ .rxWaitCf) (hops : ∀ op ∈ ops, ¬ OpensReception n.iso.rxId op) :
    trace (step rxBufferSize) n (ops.filter fun op => !op.isCf) = trace (step rxBufferSize) n ops := by
  have hinv : n.iso.state ≠ .rxWaitCf ∧ n.iso.rxId = n.iso.rxId := ⟨hn, rfl⟩
  refine trace_filter (I := fun m => m.iso.state ≠ .rxWaitCf ∧ m.iso.rxId = n.iso.rxId)
    (C := fun _ op => ¬ OpensReception n.iso.rxId op ∧ True) id (fun _ _ => rfl) ?_ ?_ hinv
    ((Along.trivial n ops).and_forall hops)
  · intro m op hm hop
    refine ⟨not_rxWaitCf_step rxBufferSize m op hm.1 ?_, (step_ids rxBufferSize m op).1.trans hm.2⟩
    rw [hm.2]
    exact hop.1
  · intro m op hm _ hcf
    rw [cf_without_effect rxBufferSize m op hm.1 hcf]
    exact ⟨rfl, rfl⟩

/-- A Single Frame or First Frame ends the transmission in progress. -/
theorem opening_aborts (rxBufferSize : UInt16) (n : Node) (op : Op)
    (hop : OpensReception n.iso.rxId op) : ¬ (step rxBufferSize n op).1.Sending := by
  cases op with
  | rx f ret =>
    obtain ⟨hid, hkind⟩ := hop
    rw [step_rx rxBufferSize ret hid]
    rcases hkind with hkind | hkind
    · simp only [hkind, rxSf_idle]
      simp [Node.Sending, Node.setState]
    · simp only [hkind, rxFf]
      split_ifs <;> simp [Node.Sending]
  | send | process | setFd => exact absurd hop id

/-- Flow Control frames and process calls do nothing for a node that is not sending. -/
theorem fcOrProcess_without_effect (rxBufferSize : UInt16) (n : Node) (op : Op)
    (hn : ¬ n.Sending) (hop : FcOrProcess op) : step rxBufferSize n op = (n, []) := by
  obtain ⟨hwait, hsend⟩ := not_or.mp hn
  cases op with
  | rx f ret =>
    have hkind : pciOf f = .fc := hop
    by_cases hid : f.id = n.iso.rxId
    · rw [step_rx rxBufferSize ret hid]
      simp only [hkind, rxFc, if_pos hwait]
    · simp only [step, isotpRxCallback, if_pos hid]
  | process timeMs ret => simp only [step, tpIsotpProcess, if_neg hsend]
  | send | setFd => exact absurd hop id

/-- After the abort the message that was accepted emits nothing any more. -/
theorem aborted_silent (rxBufferSize : UInt16) (n : Node) (ops : List Op) (hn : ¬ n.Sending)
    (hops : ∀ op ∈ ops, FcOrProcess op) : trace (step rxBufferSize) n ops = [] := by
  induction ops with
  | nil => rfl
  | cons op ops ih =>
    obtain ⟨hop, hops⟩ := List.forall_mem_cons.mp hops
    rw [trace_cons, fcOrProcess_without_effect rxBufferSize n op hn hop]
    exact ih hops

/-! ### A transmission beside a reception -/

/-- A send that starts no segmented transmission leaves the node as it is. -/
theorem unsegmented_send (rxBufferSize : UInt16) (n : Node) (data : Sdu) (ret : ℤ)
    (h : StartsNone n (.send data ret)) :
    (step rxBufferSize n (.send data ret)).1 = n ∧
      sdusOf (step rxBufferSize n (.send data ret)).2 = [] := by
  refine ⟨?_, step_sdus rxBufferSize n _ nofun⟩
  rcases h with hfit | hlarge
  · have hsf : isotpSend n data ret = sendSf n data ret := if_pos hfit
    simp only [step, hsf, sendSf]
  · simp only [step, isotpSend_refused ret hlarge]

/-- Such sends can be left out of any run without changing what it delivers. -/
theorem sdus_without_sends (rxBufferSize : UInt16) (n : Node) (ops : List Op)
    (hops : Along (step rxBufferSize) StartsNone n ops) :
    sdusOf (trace (step rxBufferSize) n (ops.filter fun op => !op.isSend)) =
      sdusOf (trace (step rxBufferSize) n ops) := by
  refine trace_filter (I := fun _ => True) sdusOf sdusOf_append (fun _ _ _ _ => trivial) ?_
    trivial hops
  intro m op _ hop hsend
  cases op with
  | send data ret => exact unsegmented_send rxBufferSize m data ret hop
  | rx | process | setFd => cases hsend

/-- What the two directions leave of each other. During a transmission, Consecutive Frames can
be dropped from any run without changing its outputs, and a Single Frame or First Frame aborts
the transmission for good. During a reception, sends that start no segmented transmission can
be dropped from any run without changing what it delivers. -/
theorem duplex_interference (rxBufferSize : UInt16) (n : Node) (ops : List Op) :
    (n.Sending → (∀ op ∈ ops, ¬ OpensReception n.iso.rxId op) →
        trace (step rxBufferSize) n (ops.filter fun op => !op.isCf) =
          trace (step rxBufferSize) n ops) ∧
      (n.Sending → ∀ opening, OpensReception n.iso.rxId opening → (∀ op ∈ ops, FcOrProcess op) →
        trace (step rxBufferSize) (step rxBufferSize n opening).1 ops = []) ∧
      (n.iso.state = .rxWaitCf → Along (step rxBufferSize) StartsNone n ops →
        sdusOf (trace (step rxBufferSize) n (ops.filter fun op => !op.isSend)) =
          sdusOf (trace (step rxBufferSize) n ops)) := by
  refine ⟨fun hs hops => ?_, fun _ opening hopen hops => ?_, fun _ hops => ?_⟩
  · have hn : n.iso.state ≠ .rxWaitCf := by
      rcases hs with hs | hs <;> simp [hs]
    exact trace_without_cfs rxBufferSize n ops hn hops
  · exact aborted_silent rxBufferSize _ ops (opening_aborts rxBufferSize n opening hopen) hops
  · exact sdus_without_sends rxBufferSize n ops hops

/-- The state after eight bytes were accepted and their First Frame went out. -/
def eightWaiting : Node := (isotpSend (tpIsotpInit zeroNode true 1 2) eightBytes 0).2.1

/-- A Single Frame with one byte. -/
def sfArrival : Op := .rx (.ofBytes 2 [0x01, 0x3E, 0, 0, 0, 0, 0, 0] fun _ => 0) 0

theorem single_frame_aborts :
    ¬ ∀ (n : Node) (opening : Op) (ops : List Op), n.Sending → OpensReception n.iso.rxId opening →
      (∀ op ∈ ops, FcOrProcess op) →
        framesOf (trace (step 8) (step 8 n opening).1 ops) = framesOf (trace (step 8) n ops) := by
  intro hall
  have hsame := hall eightWaiting sfArrival [.rx (ctsFrame 2 0 0) 0, .process 0 0] (Or.inl rfl)
    ⟨rfl, Or.inl rfl⟩ (List.forall_mem_cons.mpr ⟨rfl, List.forall_mem_singleton.mpr trivial⟩)
  exact absurd hsame (by decide)

/-- The state after a First Frame that announces eight bytes, and its Consecutive Frame. -/
def eightOpening : Node :=
  (step 8 (tpIsotpInit zeroNode true 1 2) (.rx (.ofBytes 2 [0x10, 8, 1, 2, 3, 4, 5, 6] fun _ => 0) 0)).1

def cfArrival : Op := .rx (.ofBytes 2 [0x21, 7, 8, 0, 0, 0, 0, 0] fun _ => 0) 0

def oneByte : Sdu := ⟨[0x3E], by decide⟩

theorem eight_interference :
    trace (step 8) eightWaiting [.rx (ctsFrame 2 0 0) 0, .process 0 0] =
        trace (step 8) eightWaiting [cfArrival, .rx (ctsFrame 2 0 0) 0, .process 0 0] ∧
      trace (step 8) (step 8 eightWaiting sfArrival).1 [.rx (ctsFrame 2 0 0) 0, .process 0 0] = [] ∧
      sdusOf (trace (step 8) eightOpening [cfArrival]) =
        sdusOf (trace (step 8) eightOpening [.send oneByte 0, cfArrival]) := by
  have hcfs : ∀ op ∈ [cfArrival, .rx (ctsFrame 2 0 0) 0, .process 0 0],
      ¬ OpensReception eightWaiting.iso.rxId op := by
    simp only [List.forall_mem_cons, List.not_mem_nil, false_imp_iff, implies_true, and_true]
    exact ⟨fun h => absurd h.2 (by decide), fun h => absurd h.2 (by decide), id⟩
  refine ⟨(duplex_interference 8 eightWaiting _).1 (Or.inl rfl) hcfs,
    (duplex_interference 8 eightWaiting _).2.1 (Or.inl rfl) sfArrival ⟨rfl, Or.inl rfl⟩ ?_,
    (duplex_interference 8 eightOpening [.send oneByte 0, cfArrival]).2.2 rfl ?_⟩
  · exact List.forall_mem_cons.mpr ⟨rfl, List.forall_mem_singleton.mpr trivial⟩
  · exact ⟨Or.inl (by decide), trivial, trivial⟩

end UdsLib.Isotp
