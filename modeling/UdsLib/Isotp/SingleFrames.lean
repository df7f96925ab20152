import UdsLib.Isotp.Integrity

/-! A link that carries nothing but messages of one frame. No call and no frame can cut anything off
there, so every interleaving of the two sides leaves them the time. -/
namespace UdsLib.Isotp
open Bytes Machine

/-- The message is not empty and fits a Single Frame of a classic CAN frame. -/
def IsShort (bytes : List UInt8) : Prop := bytes ≠ [] ∧ bytes.length ≤ 7

instance (bytes : List UInt8) : Decidable (IsShort bytes) := inferInstanceAs (Decidable (_ ∧ _))

/-- The call starts no segmented transmission. -/
def Entry.IsShort : Entry → Prop
  | .send data => Isotp.IsShort data.bytes
  | _ => True

def LinkAct.IsShort : LinkAct → Prop
  | .callA e _ => e.IsShort
  | .callB e _ => e.IsShort
  | _ => True

/-- The transport is idle, and has emitted Single Frames only. -/
structure Station.IsPlain (s : Station) : Prop where
  idle : s.node.iso.state = .idle
  frames : ∀ frame ∈ framesOf s.log, ∃ data : Sdu, IsShort data.bytes ∧ frame = sfFrame data

variable {n : Node} {s : Station} {sizeA sizeB : UInt16} {l : Link}

theorem IsShort.fits {data : Sdu} (h : IsShort data.bytes) (useCanFd : Bool) :
    FitsSf useCanFd data := by
  unfold FitsSf
  rw [UInt16.le_iff_toNat_le, data.len_toNat]
  have hmax : 7 ≤ (maxSfLen useCanFd).toUInt16.toNat := by cases useCanFd <;> decide
  exact h.2.trans hmax

theorem not_sending_of_idle (h : n.iso.state = .idle) : ¬ n.Sending := by
  simp [Node.Sending, h]

theorem Station.IsPlain.does {op : Op} (h : s.IsPlain) (hidle : (step sizeA s.node op).1.iso.state = .idle)
    (hframes : ∀ frame ∈ framesOf (step sizeA s.node op).2,
      ∃ data : Sdu, IsShort data.bytes ∧ frame = sfFrame data) : (s.does sizeA op).IsPlain := by
  refine ⟨hidle, ?_⟩
  unfold Station.does
  rw [framesOf_append]
  exact List.forall_mem_append.mpr ⟨h.frames, hframes⟩

/-- A call of the owner. -/
theorem Station.IsPlain.call {e : Entry} (h : s.IsPlain) (he : e.IsShort) (ret : ℤ) :
    (s.does sizeA (e.op ret)).IsPlain := by
  cases e with
  | send data =>
    have hsf : isotpSend s.node data ret = sendSf s.node data ret :=
      if_pos (he.fits s.node.iso.useCanFd)
    refine h.does ?_ ?_
    · simp only [Entry.op, step, hsf, sendSf]
      exact h.idle
    · simp only [Entry.op, step, hsf, sendSf, tpSendFrame]
      intro frame hframe
      obtain ⟨o, ho, hsome⟩ := List.mem_filterMap.mp hframe
      refine ⟨data, he, ?_⟩
      split_ifs at ho
      · rcases List.mem_append.mp ho with ho | ho <;> rw [List.mem_singleton.mp ho] at hsome
        · simp only [Output.frame?] at hsome
          split_ifs at hsome
          exact (Option.some.inj hsome).symm
        · cases hsome
      · rw [List.mem_singleton.mp ho] at hsome
        cases hsome
  | process timeMs =>
    have hnone : tpIsotpProcess s.node timeMs ret = (s.node, []) := if_neg (by rw [h.idle]; decide)
    refine h.does ?_ ?_
    · simp only [Entry.op, step, hnone]
      exact h.idle
    · simp [Entry.op, step, hnone]
  | setFd enabled => exact h.does h.idle (by simp [Entry.op, step])

/-- A Single Frame arrives. -/
theorem Station.IsPlain.receives {id : UInt32} {data : Sdu} (h : s.IsPlain) (hdata : IsShort data.bytes)
    (beyond : ℕ → UInt8) (ret : ℤ) :
    (s.does sizeA (.rx (.ofBytes id (sfFrame data) beyond) ret)).IsPlain := by
  have hkind := sfFrame_pci false data id beyond (hdata.fits false)
  have hrx : isotpRxCallback sizeA s.node (.ofBytes id (sfFrame data) beyond) ret = (s.node, []) ∨
      isotpRxCallback sizeA s.node (.ofBytes id (sfFrame data) beyond) ret =
        rxSf s.node (.ofBytes id (sfFrame data) beyond) := by
    unfold isotpRxCallback
    rw [hkind]
    split_ifs
    · exact .inl rfl
    · exact .inr rfl
  rcases hrx with hrx | hrx
  · exact h.does (by simp [step, hrx, h.idle]) (by simp [step, hrx])
  · refine h.does ?_ ?_ <;> simp only [step, hrx]
    · rw [rxSf_idle]
      rfl
    unfold rxSf
    dsimp only
    split_ifs <;> simp [framesOf, Output.frame?]

/-- What every step of such a link keeps. -/
def Link.IsPlain (l : Link) : Prop := l.a.IsPlain ∧ l.b.IsPlain

theorem plain_start (memA memB : Node) (idA idB : UInt32) : (linkStart memA memB idA idB).IsPlain :=
  ⟨⟨rfl, by simp [linkStart]⟩, rfl, by simp [linkStart]⟩

theorem Station.IsPlain.next {k : ℕ} {frame : List UInt8} (h : s.IsPlain)
    (hframe : (framesOf s.log)[k]? = some frame) :
    ∃ data : Sdu, IsShort data.bytes ∧ frame = sfFrame data :=
  h.frames frame (List.mem_of_getElem? hframe)

theorem linkStep_plain (l : Link) (act : LinkAct) (h : l.IsPlain) (hact : act.IsShort) :
    (linkStep sizeA sizeB l act).1.IsPlain := by
  cases act with
  | callA e ret => exact ⟨h.1.call hact ret, h.2⟩
  | callB e ret => exact ⟨h.1, h.2.call hact ret⟩
  | deliverToB beyond ret =>
    simp only [linkStep]
    split
    next => exact h
    next frame hframe =>
      obtain ⟨data, hdata, rfl⟩ := h.1.next hframe
      exact ⟨h.1, h.2.receives hdata beyond ret⟩
  | deliverToA beyond ret =>
    simp only [linkStep]
    split
    next => exact h
    next frame hframe =>
      obtain ⟨data, hdata, rfl⟩ := h.2.next hframe
      exact ⟨h.1.receives hdata beyond ret, h.2⟩
  | loseToB | loseToA =>
    simp only [linkStep]
    split <;> exact h

theorem Station.IsPlain.startsFree {e : Entry} (h : s.IsPlain) (he : e.IsShort) :
    StartsFree s.node e := by
  cases e with
  | send data =>
    intro _
    exact ⟨not_sending_of_idle h.idle, he.1, fun htakes => absurd (he.fits _) htakes.1⟩
  | process timeMs => trivial
  | setFd enabled => trivial

theorem Station.IsPlain.findsReady {id : UInt32} {data : Sdu} (h : s.IsPlain)
    (hdata : IsShort data.bytes) (beyond : ℕ → UInt8) :
    FindsReady sizeA s.node (.ofBytes id (sfFrame data) beyond) := by
  have hkind := sfFrame_pci false data id beyond (hdata.fits false)
  constructor
  · intro hsending
    exact absurd hsending (not_sending_of_idle h.idle)
  · intro hff
    rw [hkind] at hff
    cases hff

theorem plain_leavesTime (act : LinkAct) (h : l.IsPlain) (hact : act.IsShort) :
    LeavesTime sizeA sizeB l act := by
  cases act with
  | callA e ret => exact h.1.startsFree hact
  | callB e ret => exact h.2.startsFree hact
  | deliverToB beyond ret =>
    intro frame hframe
    obtain ⟨data, hdata, rfl⟩ := h.1.next hframe
    exact h.2.findsReady hdata beyond
  | deliverToA beyond ret =>
    intro frame hframe
    obtain ⟨data, hdata, rfl⟩ := h.2.next hframe
    exact h.1.findsReady hdata beyond
  | loseToB | loseToA => trivial

theorem short_along (memA memB : Node) (idA idB : UInt32) {acts : List LinkAct}
    (hacts : ∀ act ∈ acts, act.IsShort) :
    Along (linkStep sizeA sizeB) (fun _ act => act.IsShort ∧ True) (linkStart memA memB idA idB) acts :=
  (Along.trivial _ acts).and_forall hacts

/-- With short messages that are neither lost nor refused the two sides leave each other the time in
every interleaving. -/
theorem short_considerate (sizeA sizeB : UInt16) (memA memB : Node) (idA idB : UInt32)
    {acts : List LinkAct} (hacts : ∀ act ∈ acts, act.Keeps ∧ act.IsShort) :
    Along (linkStep sizeA sizeB) (Considerate sizeA sizeB) (linkStart memA memB idA idB) acts := by
  have hlegal : Along (linkStep sizeA sizeB) (fun _ act => (act.Keeps ∧ act.IsShort) ∧ True)
      (linkStart memA memB idA idB) acts := (Along.trivial _ acts).and_forall hacts
  exact hlegal.of_kept (fun l act hl hact => linkStep_plain l act hl hact.1.2)
    (fun _ act hl hact => ⟨hact.1.1, plain_leavesTime act hl hact.1.2⟩) (plain_start memA memB idA idB)

theorem short_plain (sizeA sizeB : UInt16) (memA memB : Node) (idA idB : UInt32) {acts : List LinkAct}
    (hacts : ∀ act ∈ acts, act.IsShort) :
    (exec (linkStep sizeA sizeB) (linkStart memA memB idA idB) acts).IsPlain :=
  exec_invariant (fun l act hl hact => linkStep_plain l act hl hact.1)
    (plain_start memA memB idA idB) (short_along memA memB idA idB hacts)

end UdsLib.Isotp
