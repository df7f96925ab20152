import UdsLib.Isotp.Transit
import UdsLib.Isotp.Duplex
import UdsLib.Isotp.FailedSend

/-! Two transports on one bus, each with its owner. The bus may lose frames and the drivers may refuse
them. -/
namespace UdsLib.Isotp
open Bytes Machine

/-- The transport of a node and what it has done so far. -/
structure Station where
  node : Node
  log : List Output

def Station.does (rxBufferSize : UInt16) (s : Station) (op : Op) : Station where
  node := (step rxBufferSize s.node op).1
  log := s.log ++ (step rxBufferSize s.node op).2

/-- The calls that the owner of a transport makes. -/
inductive Entry where
  | send (data : Sdu)
  | process (timeMs : UInt32)
  | setFd (enabled : Bool)

def Entry.op (ret : ℤ) : Entry → Op
  | .send data => .send data ret
  | .process timeMs => .process timeMs ret
  | .setFd enabled => .setFd enabled

/-- One way across the bus: how many frames of the sender are off it, and whether the receiver misses
one behind the last First Frame that it got. -/
structure Way where
  gone : ℕ
  gap : Bool

/-- The oldest frame on its way arrives. -/
def Way.arrived (w : Way) (frame : List UInt8) : Way where
  gone := w.gone + 1
  gap := w.gap && decide (framePci frame ≠ .ff)

/-- The oldest frame on its way is lost. -/
def Way.lost (w : Way) (frame : List UInt8) : Way where
  gone := w.gone + 1
  gap := w.gap || decide (framePci frame ≠ .fc)

/-- Two stations, and the ways of the frames of each to the other one. -/
structure Link where
  a : Station
  b : Station
  fromA : Way
  fromB : Way

/-- The owner of a station calls it, or the oldest frame on its way to a station arrives, with
`beyond` in memory behind it, or is lost. `ret` is what `can_send` returns in the step. -/
inductive LinkAct where
  | callA (e : Entry) (ret : ℤ)
  | callB (e : Entry) (ret : ℤ)
  | deliverToB (beyond : ℕ → UInt8) (ret : ℤ)
  | deliverToA (beyond : ℕ → UInt8) (ret : ℤ)
  | loseToB
  | loseToA

def linkStep (sizeA sizeB : UInt16) (l : Link) : LinkAct → Link × List Output
  | .callA e ret => ({ l with a := l.a.does sizeA (e.op ret) }, [])
  | .callB e ret => ({ l with b := l.b.does sizeB (e.op ret) }, [])
  | .deliverToB beyond ret =>
    match (framesOf l.a.log)[l.fromA.gone]? with
    | none => (l, [])
    | some frame =>
      ({ l with
          b := l.b.does sizeB (.rx (.ofBytes l.a.node.iso.txId frame beyond) ret)
          fromA := l.fromA.arrived frame }, [])
  | .deliverToA beyond ret =>
    match (framesOf l.b.log)[l.fromB.gone]? with
    | none => (l, [])
    | some frame =>
      ({ l with
          a := l.a.does sizeA (.rx (.ofBytes l.b.node.iso.txId frame beyond) ret)
          fromB := l.fromB.arrived frame }, [])
  | .loseToB =>
    match (framesOf l.a.log)[l.fromA.gone]? with
    | none => (l, [])
    | some frame => ({ l with fromA := l.fromA.lost frame }, [])
  | .loseToA =>
    match (framesOf l.b.log)[l.fromB.gone]? with
    | none => (l, [])
    | some frame => ({ l with fromB := l.fromB.lost frame }, [])

/-- Both transports freshly initialised on any memory, each sending under the identifier that the
other one listens to. -/
def linkStart (memA memB : Node) (idA idB : UInt32) : Link where
  a := ⟨tpIsotpInit memA true idA idB, []⟩
  b := ⟨tpIsotpInit memB true idB idA, []⟩
  fromA := ⟨0, false⟩
  fromB := ⟨0, false⟩

/-! ### Refused First Frames -/

/-- Whether the driver refused the last First Frame so far. -/
def noteFirst (refused : Bool) : Output → Bool
  | .canSend _ frame ret => if framePci frame = .ff then decide (ret ≠ 0) else refused
  | _ => refused

/-- The message in the slot has never been announced, for the driver refused its First Frame. -/
def Station.firstRefused (s : Station) : Bool := s.log.foldl noteFirst false

/-- A Flow Control frame releases such a message. -/
def ReleasesRefused (s : Station) (f : RxFrame) : Prop :=
  s.firstRefused = true ∧ s.node.iso.state = .txWaitFc ∧ pciOf f = .fc ∧ f.data 0 &&& 0x0F = 0

/-- The frame that arrives is not taken for one of another message. -/
def Unconfused (l : Link) : LinkAct → Prop
  | .deliverToB beyond _ => ∀ frame, (framesOf l.a.log)[l.fromA.gone]? = some frame →
      ¬ FillsGap l.fromA.gap l.b.node (.ofBytes l.a.node.iso.txId frame beyond) ∧
        ¬ ReleasesRefused l.b (.ofBytes l.a.node.iso.txId frame beyond)
  | .deliverToA beyond _ => ∀ frame, (framesOf l.b.log)[l.fromB.gone]? = some frame →
      ¬ FillsGap l.fromB.gap l.a.node (.ofBytes l.b.node.iso.txId frame beyond) ∧
        ¬ ReleasesRefused l.a (.ofBytes l.b.node.iso.txId frame beyond)
  | _ => True

instance (s : Station) (f : RxFrame) : Decidable (ReleasesRefused s f) :=
  inferInstanceAs (Decidable (_ ∧ _))

instance (l : Link) (act : LinkAct) : Decidable (Unconfused l act) :=
  match act with
  | .deliverToB _ _ => inferInstanceAs (Decidable (∀ frame ∈ (framesOf l.a.log)[l.fromA.gone]?, _))
  | .deliverToA _ _ => inferInstanceAs (Decidable (∀ frame ∈ (framesOf l.b.log)[l.fromB.gone]?, _))
  | .callA _ _ | .callB _ _ | .loseToB | .loseToA => inferInstanceAs (Decidable True)

/-! ### Consideration -/

/-- A message starts when the own transmit slot is free, and cuts no reception off. -/
def StartsFree (n : Node) : Entry → Prop
  | .send data => data.bytes.length ≤ 1024 →
      ¬ n.Sending ∧ data.bytes ≠ [] ∧ (TakesSlot n data → n.iso.state ≠ .rxWaitCf)
  | _ => True

/-- A frame does not cut a transmission off, and what it announces has room. -/
def FindsReady (rxBufferSize : UInt16) (n : Node) (f : RxFrame) : Prop :=
  (n.Sending → pciOf f ≠ .sf ∧ pciOf f ≠ .ff) ∧ HasRoom rxBufferSize f

/-- The bus loses no frame and the drivers take each one. -/
def LinkAct.Keeps : LinkAct → Prop
  | .callA _ ret | .callB _ ret | .deliverToB _ ret | .deliverToA _ ret => ret = 0
  | .loseToB | .loseToA => False

/-- A step with which the sides leave each other the time. -/
def LeavesTime (sizeA sizeB : UInt16) (l : Link) : LinkAct → Prop
  | .callA e _ => StartsFree l.a.node e
  | .callB e _ => StartsFree l.b.node e
  | .deliverToB beyond _ => ∀ frame, (framesOf l.a.log)[l.fromA.gone]? = some frame →
      FindsReady sizeB l.b.node (.ofBytes l.a.node.iso.txId frame beyond)
  | .deliverToA beyond _ => ∀ frame, (framesOf l.b.log)[l.fromB.gone]? = some frame →
      FindsReady sizeA l.a.node (.ofBytes l.b.node.iso.txId frame beyond)
  | _ => True

/-- With such a step nothing gets lost. -/
def Considerate (sizeA sizeB : UInt16) (l : Link) (act : LinkAct) : Prop :=
  act.Keeps ∧ LeavesTime sizeA sizeB l act

instance (n : Node) (e : Entry) : Decidable (StartsFree n e) :=
  match e with
  | .send _ => inferInstanceAs (Decidable (_ → _))
  | .process _ => inferInstanceAs (Decidable True)
  | .setFd _ => inferInstanceAs (Decidable True)

instance (rxBufferSize : UInt16) (n : Node) (f : RxFrame) : Decidable (FindsReady rxBufferSize n f) :=
  have : Decidable (HasRoom rxBufferSize f) := inferInstanceAs (Decidable (_ → _))
  inferInstanceAs (Decidable (_ ∧ _))

instance (act : LinkAct) : Decidable act.Keeps :=
  match act with
  | .callA _ ret | .callB _ ret | .deliverToB _ ret | .deliverToA _ ret =>
    inferInstanceAs (Decidable (ret = 0))
  | .loseToB | .loseToA => inferInstanceAs (Decidable False)

instance (sizeA sizeB : UInt16) (l : Link) (act : LinkAct) : Decidable (LeavesTime sizeA sizeB l act) :=
  match act with
  | .callA e _ => inferInstanceAs (Decidable (StartsFree l.a.node e))
  | .callB e _ => inferInstanceAs (Decidable (StartsFree l.b.node e))
  | .deliverToB _ _ => inferInstanceAs (Decidable (∀ frame ∈ (framesOf l.a.log)[l.fromA.gone]?, _))
  | .deliverToA _ _ => inferInstanceAs (Decidable (∀ frame ∈ (framesOf l.b.log)[l.fromB.gone]?, _))
  | .loseToB | .loseToA => inferInstanceAs (Decidable True)

instance (sizeA sizeB : UInt16) (l : Link) (act : LinkAct) : Decidable (Considerate sizeA sizeB l act) :=
  inferInstanceAs (Decidable (_ ∧ _))

/-! ### What a call puts out -/

/-- The output opens no message: it is no attempt of a First Frame. -/
def Output.Continues : Output → Prop
  | .canSend _ frame _ => framePci frame ≠ .ff
  | _ => True

theorem noteFirst_continues {os : List Output} (h : ∀ o ∈ os, o.Continues) (refused : Bool) :
    os.foldl noteFirst refused = refused := by
  induction os with
  | nil => rfl
  | cons o os ih =>
    obtain ⟨hfirst, hrest⟩ := List.forall_mem_cons.mp h
    have hsame : noteFirst refused o = refused := by
      cases o with
      | canSend id frame ret => exact if_neg hfirst
      | rxWrite | inputSdu | returned => rfl
    rw [List.foldl_cons, hsame]
    exact ih hrest

theorem tpSendFrame_continues (iso : Ctx) {frame : List UInt8} (ret : ℤ) (h : framePci frame ≠ .ff) :
    ∀ o ∈ (tpSendFrame iso frame ret).2, o.Continues := by
  unfold tpSendFrame
  split_ifs <;> simp [Output.Continues, h]

theorem rx_continues (rxBufferSize : UInt16) (n : Node) (f : RxFrame) (ret : ℤ) :
    ∀ o ∈ (isotpRxCallback rxBufferSize n f ret).2, o.Continues := by
  unfold isotpRxCallback
  split_ifs
  · simp
  · cases pciOf f with
    | sf => unfold rxSf; dsimp only; split_ifs <;> simp [Output.Continues]
    | ff =>
      have hfc : framePci (answerFc n.iso.blockSize n.iso.stMin) ≠ .ff := by simp [framePci_fc]
      unfold rxFf tpSendFrame
      dsimp only
      split_ifs <;> simp [Output.Continues]
      exact hfc
    | cf => unfold rxCf; dsimp only; split_ifs <;> simp [Output.Continues]
    | fc | other => simp

theorem process_continues {n : Node} (hinv : NodeInv n) (timeMs : UInt32) (ret : ℤ) :
    ∀ o ∈ (tpIsotpProcess n timeMs ret).2, o.Continues := by
  have hcf (hs : n.iso.state = .txSendingCf) :
      framePci (cfFrame n.iso.useCanFd n.iso.sn (cfPayload n)) ≠ .ff := by
    have hlen : (cfPayload n).length ≤ (maxCfPayload n.iso.useCanFd).toNat := by
      rw [cfPayload_eq_take (Or.inr hs) hinv.tx, List.length_take]
      exact Nat.min_le_left _ _
    simp [framePci_cf hinv.sn_lt hlen]
  generalize hr : tpIsotpProcess n timeMs ret = r
  have heff := process_effect n timeMs ret
  rw [hr] at heff
  cases heff with
  | notSending | drained | early | blockEnd => simp
  | sent hs => simpa [Output.Continues] using hcf hs
  | refused hs => exact tpSendFrame_continues n.iso ret (hcf hs)

variable {n : Node} {st : Station}

/-- Whether the message that is in the slot after a call has been refused. -/
def Station.refusedBy (s : Station) : Op → Bool
  | .send data ret => if TakesSlot s.node data then decide (ret ≠ 0) else s.firstRefused
  | _ => s.firstRefused

/-- Only a message that takes the slot attempts a First Frame. -/
theorem does_firstRefused (rxBufferSize : UInt16) (hcan : st.node.iso.canSend = true)
    (hinv : NodeInv st.node) (op : Op) :
    (st.does rxBufferSize op).firstRefused = st.refusedBy op := by
  unfold Station.firstRefused Station.does
  rw [List.foldl_append]
  cases op with
  | rx f ret => exact noteFirst_continues (rx_continues rxBufferSize st.node f ret) _
  | process timeMs ret => exact noteFirst_continues (process_continues hinv timeMs ret) _
  | setFd enabled => rfl
  | send data ret =>
    simp only [step, Station.refusedBy, List.foldl_append]
    generalize hr : isotpSend st.node data ret = r
    have heff := send_effect st.node data ret
    rw [hr] at heff
    cases heff with
    | single hfit =>
      have hkind : framePci (sfFrame data) ≠ .ff := by simp [framePci_sf _ hfit]
      rw [if_neg fun htakes : TakesSlot st.node data => htakes.1 hfit]
      exact noteFirst_continues (tpSendFrame_continues st.node.iso ret hkind) _
    | tooLong _ hlong => exact (if_neg fun htakes : TakesSlot st.node data => by
        exact absurd htakes.2 (Nat.not_le.mpr hlong)).symm
    | started hlong hmax =>
      rw [if_pos (show TakesSlot st.node data from ⟨hlong, hmax⟩), tpSendFrame, if_pos hcan]
      exact if_pos (framePci_ff hlong hmax)

/-- A message that was never announced is not being sent. -/
def Station.Straight (s : Station) : Prop :=
  s.firstRefused = true → s.node.iso.state ≠ .txSendingCf

theorem rx_released {rxBufferSize : UInt16} {f : RxFrame} {ret : ℤ}
    (hwait : n.iso.state = .txWaitFc)
    (h : (isotpRxCallback rxBufferSize n f ret).1.iso.state = .txSendingCf) :
    pciOf f = .fc ∧ f.data 0 &&& 0x0F = 0 := by
  unfold isotpRxCallback at h
  split_ifs at h
  · rw [hwait] at h
    cases h
  · cases hp : pciOf f with
    | sf =>
      simp only [hp, rxSf_idle] at h
      cases h
    | ff =>
      simp only [hp, rxFf] at h
      split_ifs at h
    | cf =>
      simp only [hp, rxCf_ignored f (show n.iso.state ≠ .rxWaitCf by simp [hwait]), hwait] at h
      cases h
    | fc =>
      simp only [hp, rxFc, hwait, ne_eq, not_true_eq_false, if_false] at h
      split_ifs at h with hcts
      · exact ⟨rfl, hcts⟩
      · rw [hwait] at h
        cases h
    | other =>
      simp only [hp, hwait] at h
      cases h

theorem Station.Straight.does {op : Op} (h : st.Straight) (rxBufferSize : UInt16)
    (hcan : st.node.iso.canSend = true) (hinv : NodeInv st.node)
    (hclear : ∀ f ret, op = .rx f ret → ¬ ReleasesRefused st f) :
    (st.does rxBufferSize op).Straight := by
  intro hrefused
  rw [does_firstRefused rxBufferSize hcan hinv] at hrefused
  show (step rxBufferSize st.node op).1.iso.state ≠ .txSendingCf
  cases op with
  | setFd enabled => exact h hrefused
  | send data ret =>
    by_cases htakes : TakesSlot st.node data
    · simp only [step, send_starts htakes]
      exact show State.txWaitFc ≠ .txSendingCf by decide
    · simp only [Station.refusedBy, if_neg htakes] at hrefused
      simp only [step, send_keeps htakes]
      exact h hrefused
  | process timeMs ret =>
    have hsame : tpIsotpProcess st.node timeMs ret = (st.node, []) := if_neg (h hrefused)
    simp only [step, hsame]
    exact h hrefused
  | rx f ret =>
    intro hsends
    rcases rx_sending (Or.inr hsends) with hsame | ⟨hwait, -⟩
    · have hbefore : st.node.iso.state = .txSendingCf := (congrArg (·.iso.state) hsame) ▸ hsends
      exact h hrefused hbefore
    · exact hclear f ret rfl ⟨hrefused, hwait, rx_released hwait hsends⟩

/-! ### Every run -/

/-- What every step on the link keeps, whatever is lost or refused. -/
structure Link.Wired (l : Link) : Prop where
  paired : Paired l.a.node l.b.node
  invA : NodeInv l.a.node
  invB : NodeInv l.b.node
  goneA : l.fromA.gone ≤ (framesOf l.a.log).length
  goneB : l.fromB.gone ≤ (framesOf l.b.log).length

section Wired

variable {l : Link} {sizeA sizeB : UInt16}

theorem Station.does_frames (rxBufferSize : UInt16) (s : Station) (op : Op) :
    (framesOf s.log).length ≤ (framesOf (s.does rxBufferSize op).log).length := by
  rw [Station.does, framesOf_append, List.length_append]
  exact Nat.le_add_right _ _

theorem Link.Wired.stepA (h : l.Wired) (op : Op) : Link.Wired { l with a := l.a.does sizeA op } where
  paired := h.paired.of_ids (step_ids sizeA l.a.node op) ⟨rfl, rfl, rfl⟩
  invA := step_nodeInv sizeA _ _ h.invA
  invB := h.invB
  goneA := h.goneA.trans (l.a.does_frames sizeA op)
  goneB := h.goneB

theorem Link.Wired.stepB (h : l.Wired) (op : Op) : Link.Wired { l with b := l.b.does sizeB op } where
  paired := h.paired.of_ids ⟨rfl, rfl, rfl⟩ (step_ids sizeB l.b.node op)
  invA := h.invA
  invB := step_nodeInv sizeB _ _ h.invB
  goneA := h.goneA
  goneB := h.goneB.trans (l.b.does_frames sizeB op)

theorem Link.Wired.passA (h : l.Wired) {frame : List UInt8}
    (hframe : (framesOf l.a.log)[l.fromA.gone]? = some frame) (gap : Bool) :
    Link.Wired { l with fromA := ⟨l.fromA.gone + 1, gap⟩ } :=
  { h with goneA := (List.getElem?_eq_some_iff.mp hframe).1 }

theorem Link.Wired.passB (h : l.Wired) {frame : List UInt8}
    (hframe : (framesOf l.b.log)[l.fromB.gone]? = some frame) (gap : Bool) :
    Link.Wired { l with fromB := ⟨l.fromB.gone + 1, gap⟩ } :=
  { h with goneB := (List.getElem?_eq_some_iff.mp hframe).1 }

theorem linkStep_wired (sizeA sizeB : UInt16) (l : Link) (act : LinkAct) (h : l.Wired) :
    (linkStep sizeA sizeB l act).1.Wired := by
  cases act with
  | callA e ret => exact h.stepA _
  | callB e ret => exact h.stepB _
  | deliverToB beyond ret =>
    cases hframe : (framesOf l.a.log)[l.fromA.gone]? with
    | none => simpa only [linkStep, hframe] using h
    | some frame =>
      simp only [linkStep, hframe]
      exact (h.stepB _).passA hframe _
  | deliverToA beyond ret =>
    cases hframe : (framesOf l.b.log)[l.fromB.gone]? with
    | none => simpa only [linkStep, hframe] using h
    | some frame =>
      simp only [linkStep, hframe]
      exact (h.stepA _).passB hframe _
  | loseToB =>
    cases hframe : (framesOf l.a.log)[l.fromA.gone]? with
    | none => simpa only [linkStep, hframe] using h
    | some frame =>
      simp only [linkStep, hframe]
      exact h.passA hframe _
  | loseToA =>
    cases hframe : (framesOf l.b.log)[l.fromB.gone]? with
    | none => simpa only [linkStep, hframe] using h
    | some frame =>
      simp only [linkStep, hframe]
      exact h.passB hframe _

theorem linkStart_wired (memA memB : Node) (idA idB : UInt32) : (linkStart memA memB idA idB).Wired where
  paired := ⟨rfl, rfl, rfl, rfl⟩
  invA := init_nodeInv _ _ _ _
  invB := init_nodeInv _ _ _ _
  goneA := Nat.zero_le _
  goneB := Nat.zero_le _

end Wired

end UdsLib.Isotp
