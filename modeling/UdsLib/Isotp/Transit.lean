import UdsLib.Isotp.TwoNode
import UdsLib.Machine.Loss

/-! Messages under way on a bus: what a receiver can still get out of the frames in flight and out
of the frames that the sender has yet to emit. -/
namespace UdsLib.Isotp
open Bytes Machine

/-- A segmented message on its way: the bytes that have arrived, those still to come, and the
number of the Consecutive Frame that continues it. -/
structure Underway where
  got : List UInt8
  rest : List UInt8
  sn : UInt8

/-- The message behind its First Frame. -/
def Underway.opened (useCanFd : Bool) (data : Sdu) : Underway where
  got := data.bytes.take (maxDataInFf useCanFd).toNat
  rest := data.bytes.drop (maxDataInFf useCanFd).toNat
  sn := 1

/-- The message behind one more Consecutive Frame. -/
def Underway.advanced (m : Underway) (useCanFd : Bool) : Underway where
  got := m.got ++ m.rest.take (maxCfPayload useCanFd).toNat
  rest := m.rest.drop (maxCfPayload useCanFd).toNat
  sn := (m.sn + 1) &&& 0x0F

/-- The Consecutive Frame that continues the message. -/
def Underway.frame (m : Underway) (useCanFd : Bool) : List UInt8 :=
  cfFrame useCanFd m.sn (m.rest.take (maxCfPayload useCanFd).toNat)

/-- What a Single Frame hands up: an empty message is dropped. -/
def handedUp (bytes : List UInt8) : List (List UInt8) := if bytes = [] then [] else [bytes]

/-- The Flow Control frame `uds_rx_ff` answers with. -/
def answerFc (blockSize stMin : UInt8) : List UInt8 := [0x30 ||| 0, blockSize, stMin, 0, 0, 0, 0, 0]

/-- `Carried tail m frames msgs`: a receiver in the middle of `m` gets at most `msgs`, in order, from
the frames in flight and, behind them, from a sender with `tail` still to send. -/
inductive Carried (tail : Option (UInt8 × List UInt8)) :
    Option Underway → List (List UInt8) → List (List UInt8) → Prop where
  | idle : Carried tail none [] []
  /-- The sender has given the message up. -/
  | cut (m : Underway) : tail = none → Carried tail (some m) [] []
  | due (m : Underway) : tail = some (m.sn, m.rest) → Carried tail (some m) [] [m.got ++ m.rest]
  | single {m : Option Underway} {frames msgs : List (List UInt8)} (useCanFd : Bool) (data : Sdu) :
      FitsSf useCanFd data → Carried tail none frames msgs →
      Carried tail m (sfFrame data :: frames) (handedUp data.bytes ++ msgs)
  | first {m : Option Underway} {frames msgs : List (List UInt8)} (useCanFd : Bool) (data : Sdu) :
      ¬ FitsSf useCanFd data → data.bytes.length ≤ 1024 →
      Carried tail (some (.opened useCanFd data)) frames msgs →
      Carried tail m (ffFrame useCanFd data :: frames) msgs
  | stray {frames msgs : List (List UInt8)} (m : Underway) (useCanFd : Bool) : m.sn.toNat < 16 →
      Carried tail none frames msgs → Carried tail none (m.frame useCanFd :: frames) msgs
  | more {frames msgs : List (List UInt8)} (m : Underway) (useCanFd : Bool) : m.sn.toNat < 16 →
      (m.advanced useCanFd).rest ≠ [] → Carried tail (some (m.advanced useCanFd)) frames msgs →
      Carried tail (some m) (m.frame useCanFd :: frames) msgs
  | last {frames msgs : List (List UInt8)} (m : Underway) (useCanFd : Bool) : m.sn.toNat < 16 →
      (m.advanced useCanFd).rest = [] → Carried tail none frames msgs →
      Carried tail (some m) (m.frame useCanFd :: frames) ((m.got ++ m.rest) :: msgs)
  | control {m : Option Underway} {frames msgs : List (List UInt8)} (blockSize stMin : UInt8) :
      Carried tail m frames msgs → Carried tail m (answerFc blockSize stMin :: frames) msgs

namespace Carried

variable {tail tail' : Option (UInt8 × List UInt8)} {m : Option Underway}
  {frames msgs new extra : List (List UInt8)} {C : Prop}

/-! ### The receiver gives up -/

/-- A receiver that gives the message up gets the later ones all the same. -/
theorem lose (h : Carried tail m frames msgs) :
    ∃ msgs', LeftOf (m = none) msgs' msgs ∧ Carried tail none frames msgs' := by
  induction h with
  | idle => exact ⟨[], .refl _, .idle⟩
  | cut m hcut => exact ⟨[], .refl _, .idle⟩
  | due m hdue => exact ⟨[], .nothing (by simp) _, .idle⟩
  | single useCanFd data hfit hrest => exact ⟨_, .refl _, .single useCanFd data hfit hrest⟩
  | first useCanFd data hlong hmax hrest => exact ⟨_, .refl _, .first useCanFd data hlong hmax hrest⟩
  | stray m useCanFd hsn hrest => exact ⟨_, .refl _, .stray m useCanFd hsn hrest⟩
  | more m useCanFd hsn _ _ ih =>
    obtain ⟨msgs', hleft, hrest⟩ := ih
    exact ⟨msgs', hleft.mono (by simp), .stray m useCanFd hsn hrest⟩
  | last m useCanFd hsn _ hrest =>
    have hlost : ¬ (some m = none) := by simp
    exact ⟨_, .skip _ hlost (.refl (C := True) _), .stray m useCanFd hsn hrest⟩
  | control blockSize stMin _ ih =>
    obtain ⟨msgs', hleft, hrest⟩ := ih
    exact ⟨msgs', hleft, .control blockSize stMin hrest⟩

/-! ### The sender goes on -/

/-- What the sender does behind the frames in flight, it does at their end. -/
theorem extend
    (hend : ∀ m msgs, Carried tail m [] msgs →
      ∃ msgs', LeftOf C msgs' msgs ∧ Carried tail' m new (msgs' ++ extra))
    (h : Carried tail m frames msgs) :
    ∃ msgs', LeftOf C msgs' msgs ∧ Carried tail' m (frames ++ new) (msgs' ++ extra) := by
  induction h with
  | idle => exact hend _ _ .idle
  | cut m hcut => exact hend _ _ (.cut m hcut)
  | due m hdue => exact hend _ _ (.due m hdue)
  | single useCanFd data hfit _ ih =>
    obtain ⟨msgs', hleft, hrest⟩ := ih
    refine ⟨_, hleft.prefixed (handedUp data.bytes), ?_⟩
    rw [List.append_assoc]
    exact .single useCanFd data hfit hrest
  | first useCanFd data hlong hmax _ ih =>
    obtain ⟨msgs', hleft, hrest⟩ := ih
    exact ⟨msgs', hleft, .first useCanFd data hlong hmax hrest⟩
  | stray m useCanFd hsn _ ih =>
    obtain ⟨msgs', hleft, hrest⟩ := ih
    exact ⟨msgs', hleft, .stray m useCanFd hsn hrest⟩
  | more m useCanFd hsn hmore _ ih =>
    obtain ⟨msgs', hleft, hrest⟩ := ih
    exact ⟨msgs', hleft, .more m useCanFd hsn hmore hrest⟩
  | last m useCanFd hsn hlast _ ih =>
    obtain ⟨msgs', hleft, hrest⟩ := ih
    exact ⟨_, hleft.cons (m.got ++ m.rest), .last m useCanFd hsn hlast hrest⟩
  | control blockSize stMin _ ih =>
    obtain ⟨msgs', hleft, hrest⟩ := ih
    exact ⟨msgs', hleft, .control blockSize stMin hrest⟩

/-- A sender that gives its message up can still be followed. -/
theorem abort (h : Carried tail m frames msgs) :
    ∃ msgs', LeftOf (tail = none) msgs' msgs ∧ Carried none m frames msgs' := by
  have hend : ∀ m msgs, Carried tail m [] msgs →
      ∃ msgs', LeftOf (tail = none) msgs' msgs ∧ Carried none m [] (msgs' ++ []) := by
    intro m msgs h
    cases h with
    | idle => exact ⟨[], .refl _, .idle⟩
    | cut m => exact ⟨[], .refl _, .cut m rfl⟩
    | due m hdue => exact ⟨[], .nothing (by simp [hdue]) _, .cut m rfl⟩
  obtain ⟨msgs', hleft, hrest⟩ := extend hend h
  rw [List.append_nil, List.append_nil] at hrest
  exact ⟨msgs', hleft, hrest⟩

theorem sendSingle (useCanFd : Bool) (data : Sdu) (hfit : FitsSf useCanFd data)
    (h : Carried tail m frames msgs) :
    ∃ msgs', LeftOf (tail = none) msgs' msgs ∧
      Carried tail m (frames ++ [sfFrame data]) (msgs' ++ handedUp data.bytes) := by
  refine extend (fun m msgs h => ?_) h
  have hone {m : Option Underway} : Carried tail m [sfFrame data] ([] ++ handedUp data.bytes) := by
    have hsingle : Carried tail m [sfFrame data] (handedUp data.bytes ++ []) :=
      .single useCanFd data hfit .idle
    rwa [List.append_nil] at hsingle
  cases h with
  | idle => exact ⟨[], .refl _, hone⟩
  | cut m => exact ⟨[], .refl _, hone⟩
  | due m hdue => exact ⟨[], .nothing (by simp [hdue]) _, hone⟩

theorem sendFirst (useCanFd : Bool) (data : Sdu) (hlong : ¬ FitsSf useCanFd data)
    (hmax : data.bytes.length ≤ 1024) (h : Carried tail m frames msgs) :
    ∃ msgs', LeftOf (tail = none) msgs' msgs ∧
      Carried (some (1, data.bytes.drop (maxDataInFf useCanFd).toNat)) m
        (frames ++ [ffFrame useCanFd data]) (msgs' ++ [data.bytes]) := by
  refine extend (fun m msgs h => ?_) h
  have hone {m : Option Underway} : Carried (some (1, data.bytes.drop (maxDataInFf useCanFd).toNat))
      m [ffFrame useCanFd data] ([] ++ [data.bytes]) := by
    have hdue : Carried (some (1, data.bytes.drop (maxDataInFf useCanFd).toNat))
        (some (Underway.opened useCanFd data)) [] [_] := .due (Underway.opened useCanFd data) rfl
    have hall : (Underway.opened useCanFd data).got ++ (Underway.opened useCanFd data).rest =
        data.bytes := List.take_append_drop _ _
    rw [hall] at hdue
    exact .first useCanFd data hlong hmax hdue
  cases h with
  | idle => exact ⟨[], .refl _, hone⟩
  | cut m => exact ⟨[], .refl _, hone⟩
  | due m hdue => exact ⟨[], .nothing (by simp [hdue]) _, hone⟩

theorem sendControl (blockSize stMin : UInt8) (h : Carried tail m frames msgs) :
    Carried tail m (frames ++ [answerFc blockSize stMin]) msgs := by
  have hend : ∀ m msgs, Carried tail m [] msgs →
      ∃ msgs', LeftOf True msgs' msgs ∧
        Carried tail m [answerFc blockSize stMin] (msgs' ++ []) := by
    intro m msgs h
    refine ⟨msgs, .refl _, ?_⟩
    rw [List.append_nil]
    exact .control blockSize stMin h
  obtain ⟨msgs', hleft, hrest⟩ := extend hend h
  rwa [List.append_nil, hleft.all trivial] at hrest

/-- The next Consecutive Frame takes its payload off the tail. -/
theorem sendNext {sn : UInt8} {rest : List UInt8} (useCanFd : Bool) (hsn : sn.toNat < 16)
    (h : Carried (some (sn, rest)) m frames msgs) :
    let left := rest.drop (maxCfPayload useCanFd).toNat
    Carried (if left = [] then none else some ((sn + 1) &&& 0x0F, left)) m
      (frames ++ [cfFrame useCanFd sn (rest.take (maxCfPayload useCanFd).toNat)]) msgs := by
  intro left
  have hend : ∀ m msgs, Carried (some (sn, rest)) m [] msgs →
      ∃ msgs', LeftOf True msgs' msgs ∧
        Carried (if left = [] then none else some ((sn + 1) &&& 0x0F, left)) m
          [cfFrame useCanFd sn (rest.take (maxCfPayload useCanFd).toNat)] (msgs' ++ []) := by
    intro m msgs h
    refine ⟨msgs, .refl _, ?_⟩
    rw [List.append_nil]
    cases h with
    | idle => exact .stray ⟨[], rest, sn⟩ useCanFd hsn .idle
    | cut m hcut => cases hcut
    | due m hdue =>
      obtain ⟨got, rest', sn'⟩ := m
      obtain ⟨rfl, rfl⟩ : sn = sn' ∧ rest = rest' := by simpa using hdue
      by_cases hlast : left = []
      · rw [if_pos hlast]
        exact .last ⟨got, rest, sn⟩ useCanFd hsn hlast .idle
      · rw [if_neg hlast]
        refine .more ⟨got, rest, sn⟩ useCanFd hsn hlast ?_
        have hdue : Carried (some ((sn + 1) &&& 0x0F, left))
            (some (Underway.advanced ⟨got, rest, sn⟩ useCanFd)) [] [_] :=
          .due (Underway.advanced ⟨got, rest, sn⟩ useCanFd) rfl
        have hall : (Underway.advanced ⟨got, rest, sn⟩ useCanFd).got ++
            (Underway.advanced ⟨got, rest, sn⟩ useCanFd).rest = got ++ rest := by
          show (got ++ _) ++ _ = _
          rw [List.append_assoc]
          exact congrArg (got ++ ·) (List.take_append_drop _ _)
        rwa [hall] at hdue
  obtain ⟨msgs', hleft, hrest⟩ := extend hend h
  rwa [List.append_nil, hleft.all trivial] at hrest

end Carried

/-! ### A frame is lost -/

/-- The kind of a frame on the bus. -/
def framePci (frame : List UInt8) : Pci := pciOf (.ofBytes 0 frame fun _ => 0)

theorem framePci_sf (useCanFd : Bool) {data : Sdu} (hfit : FitsSf useCanFd data) :
    framePci (sfFrame data) = .sf := sfFrame_pci useCanFd data 0 _ hfit

theorem framePci_ff {useCanFd : Bool} {data : Sdu} (hlong : ¬ FitsSf useCanFd data)
    (hmax : data.bytes.length ≤ 1024) : framePci (ffFrame useCanFd data) = .ff :=
  (ffFrame_reads useCanFd data 0 _ hlong (by omega)).1

theorem framePci_cf {useCanFd : Bool} {sn : UInt8} {payload : List UInt8} (hsn : sn.toNat < 16)
    (hlen : payload.length ≤ (maxCfPayload useCanFd).toNat) :
    framePci (cfFrame useCanFd sn payload) = .cf :=
  (cfFrame_reads useCanFd sn payload 0 _ hsn hlen).1

theorem framePci_fc (blockSize stMin : UInt8) : framePci (answerFc blockSize stMin) = .fc := by
  have hfirst : (RxFrame.ofBytes 0 (answerFc blockSize stMin) fun _ => 0).data 0 = 0x30 := rfl
  unfold framePci pciOf
  rw [hfirst]
  rfl

theorem Underway.framePci_frame (m : Underway) (useCanFd : Bool) (hsn : m.sn.toNat < 16) :
    framePci (m.frame useCanFd) = .cf := by
  apply framePci_cf hsn
  rw [List.length_take]
  exact Nat.min_le_left _ _

/-- The frame in front is lost. Only a Flow Control frame can be missed without harm. -/
theorem Carried.drop {tail : Option (UInt8 × List UInt8)} {m : Option Underway} {frame : List UInt8}
    {frames msgs : List (List UInt8)} (h : Carried tail m (frame :: frames) msgs) :
    ∃ m' msgs', (m' = m ∧ framePci frame = .fc ∨ m' = none ∧ framePci frame ≠ .fc) ∧
      Carried tail m' frames msgs' ∧ msgs'.Sublist msgs := by
  cases h with
  | single useCanFd data hfit hrest =>
    have hkind : framePci (sfFrame data) ≠ .fc := by simp [framePci_sf useCanFd hfit]
    exact ⟨none, _, .inr ⟨rfl, hkind⟩, hrest, List.sublist_append_right _ _⟩
  | first useCanFd data hlong hmax hrest =>
    have hkind : framePci (ffFrame useCanFd data) ≠ .fc := by simp [framePci_ff hlong hmax]
    obtain ⟨msgs', hleft, hlost⟩ := hrest.lose
    exact ⟨none, msgs', .inr ⟨rfl, hkind⟩, hlost, hleft.sublist⟩
  | stray m useCanFd hsn hrest =>
    have hkind : framePci (m.frame useCanFd) ≠ .fc := by simp [m.framePci_frame useCanFd hsn]
    exact ⟨none, msgs, .inr ⟨rfl, hkind⟩, hrest, List.Sublist.refl _⟩
  | more m useCanFd hsn _ hrest =>
    have hkind : framePci (m.frame useCanFd) ≠ .fc := by simp [m.framePci_frame useCanFd hsn]
    obtain ⟨msgs', hleft, hlost⟩ := hrest.lose
    exact ⟨none, msgs', .inr ⟨rfl, hkind⟩, hlost, hleft.sublist⟩
  | last m useCanFd hsn _ hrest =>
    have hkind : framePci (m.frame useCanFd) ≠ .fc := by simp [m.framePci_frame useCanFd hsn]
    exact ⟨none, _, .inr ⟨rfl, hkind⟩, hrest, List.sublist_cons_self _ _⟩
  | control blockSize stMin hrest =>
    exact ⟨m, msgs, .inl ⟨rfl, framePci_fc blockSize stMin⟩, hrest, List.Sublist.refl _⟩

/-! ### The receiver takes a frame -/

/-- The receiver is in the middle of `m`, or in no reception that can still succeed: `gap` tells that
it misses a frame behind the last First Frame that it got. -/
def Receives (gap : Bool) (n : Node) : Option Underway → Prop
  | none => n.iso.state = .rxWaitCf → gap = true
  | some m => RxPartial n m.got m.rest ∧ n.iso.sn = m.sn

/-- A Consecutive Frame behind a gap has the number that the receiver waits for. -/
def FillsGap (gap : Bool) (n : Node) (f : RxFrame) : Prop :=
  gap = true ∧ n.iso.state = .rxWaitCf ∧ pciOf f = .cf ∧ f.data 0 &&& 0x0F = n.iso.sn

instance (gap : Bool) (n : Node) (f : RxFrame) : Decidable (FillsGap gap n f) :=
  inferInstanceAs (Decidable (_ ∧ _))

theorem Receives.of_state {gap : Bool} {n : Node} (h : n.iso.state ≠ .rxWaitCf) :
    Receives gap n none := fun hwait => absurd hwait h

/-- The message that a First Frame announces has room in the receive buffer. -/
def HasRoom (rxBufferSize : UInt16) (f : RxFrame) : Prop :=
  pciOf f = .ff → ffSduLen f ≤ rxBufferSize

section Consume

variable {tail : Option (UInt8 × List UInt8)} {m : Option Underway} {frames msgs : List (List UInt8)}
  {n : Node}

/-- An empty message is sent as a frame of zeros. -/
theorem sfFrame_empty {data : Sdu} (h : data.bytes = []) : sfFrame data = List.replicate 8 0 := by
  have hlen : data.len = 0 := by rw [Sdu.len, h]; rfl
  have hshort : data.len ≤ 7 := by rw [hlen]; decide
  rw [sfFrame, if_pos hshort, hlen, h]
  rfl

theorem rxSf_empty (n : Node) (id : UInt32) (beyond : ℕ → UInt8) :
    let f := RxFrame.ofBytes id (List.replicate 8 0) beyond
    pciOf f = .sf ∧ (rxSf n f).2 = [] := by
  intro f
  have h0 : f.data 0 = 0 := rfl
  have h1 : f.data 1 = 0 := rfl
  constructor
  · unfold pciOf
    rw [h0]
    rfl
  · simp [rxSf, h0, h1]

theorem sf_taken (rxBufferSize : UInt16) (useCanFd : Bool) (data : Sdu) (n : Node)
    (beyond : ℕ → UInt8) (ret : ℤ) (hfit : FitsSf useCanFd data) :
    let r := step rxBufferSize n (.rx (.ofBytes n.iso.rxId (sfFrame data) beyond) ret)
    r.1.iso.state = .idle ∧ sdusOf r.2 = handedUp data.bytes := by
  by_cases hpos : data.bytes = []
  · obtain ⟨hkind, hout⟩ := rxSf_empty n n.iso.rxId beyond
    simp only [sfFrame_empty hpos, step_ofBytes, hkind, hout, handedUp, if_pos hpos, rxSf_idle]
    exact ⟨rfl, rfl⟩
  · obtain ⟨hkind, hout⟩ := rxSf_delivers useCanFd data n n.iso.rxId beyond hfit
      (List.length_pos_iff.mpr hpos)
    simp only [step_ofBytes, hkind, hout, handedUp, if_neg hpos, rxSf_idle]
    exact ⟨rfl, rfl⟩

theorem ff_refused {rxBufferSize : UInt16} (f : RxFrame) (ret : ℤ) (h : rxBufferSize < ffSduLen f) :
    (rxFf rxBufferSize n f ret).1.iso.state = .idle ∧ (rxFf rxBufferSize n f ret).2 = [] := by
  unfold rxFf
  dsimp only
  rw [if_pos h]
  split_ifs <;> exact ⟨rfl, rfl⟩

/-- A Consecutive Frame that the receiver has no use for. -/
theorem cf_dropped {gap : Bool} {f : RxFrame} (rxBufferSize : UInt16) (ret : ℤ)
    (hid : f.id = n.iso.rxId) (hkind : pciOf f = .cf) (hn : Receives gap n none)
    (hclear : ¬ FillsGap gap n f) :
    Receives gap (step rxBufferSize n (.rx f ret)).1 none ∧
      sdusOf (step rxBufferSize n (.rx f ret)).2 = [] := by
  have hstep : step rxBufferSize n (.rx f ret) = rxCf n f := by
    simp only [step_rx rxBufferSize ret hid, hkind]
  rw [hstep]
  by_cases hwait : n.iso.state = .rxWaitCf
  · have hnumber : f.data 0 &&& 0x0F ≠ n.iso.sn := fun hsn => hclear ⟨hn hwait, hwait, hkind, hsn⟩
    have hidle : rxCf n f = ({ n with iso := { n.iso with state := .idle } }, []) := by
      rw [rxCf, if_neg (not_not.mpr hwait), if_pos hnumber]
    rw [hidle]
    exact ⟨nofun, rfl⟩
  · have hsame : rxCf n f = (n, []) := if_pos hwait
    rw [hsame]
    exact ⟨hn, rfl⟩

/-- The frame in front takes the receiver on: what it hands up and what is still to come are what
was to come, less a message that has no room. -/
theorem Carried.consume {frame : List UInt8} {gap : Bool} (rxBufferSize : UInt16)
    (beyond : ℕ → UInt8) (ret : ℤ) (hn : Receives gap n m)
    (h : Carried tail m (frame :: frames) msgs)
    (hclear : ¬ FillsGap gap n (.ofBytes n.iso.rxId frame beyond)) :
    let f := RxFrame.ofBytes n.iso.rxId frame beyond
    let r := step rxBufferSize n (.rx f ret)
    ∃ m' msgs', Receives (gap && decide (framePci frame ≠ .ff)) r.1 m' ∧
      Carried tail m' frames msgs' ∧ LeftOf (HasRoom rxBufferSize f) (sdusOf r.2 ++ msgs') msgs := by
  cases h with
  | single useCanFd data hfit hrest =>
    obtain ⟨hidle, hout⟩ := sf_taken rxBufferSize useCanFd data n beyond ret hfit
    refine ⟨none, _, .of_state ?_, hrest, ?_⟩
    · rw [hidle]
      decide
    · rw [hout]
      exact .refl _
  | first useCanFd data hlong hmax hrest =>
    obtain ⟨hkind, hsdu, -, -⟩ := ffFrame_reads useCanFd data n.iso.rxId beyond hlong (by omega)
    have hstep : step rxBufferSize n (.rx (.ofBytes n.iso.rxId (ffFrame useCanFd data) beyond) ret) =
        rxFf rxBufferSize n (.ofBytes n.iso.rxId (ffFrame useCanFd data) beyond) ret := by
      simp only [step_ofBytes, hkind]
    by_cases hcap : data.bytes.length ≤ rxBufferSize.toNat
    · obtain ⟨-, hout, hopen, hsn⟩ := rxFf_opens rxBufferSize useCanFd data n n.iso.rxId beyond ret
        hlong (by omega) hcap
      refine ⟨some (.opened useCanFd data), msgs, ?_, hrest, ?_⟩
      · rw [hstep]
        exact ⟨hopen, hsn⟩
      · rw [hstep, hout, tpSendFrame]
        split_ifs <;> exact .refl _
    · have hsmall : rxBufferSize <
          ffSduLen (.ofBytes n.iso.rxId (ffFrame useCanFd data) beyond) := by
        rw [hsdu, UInt16.lt_iff_toNat_lt, Sdu.len_toNat]
        omega
      obtain ⟨hidle, hout⟩ := ff_refused (n := n) _ ret hsmall
      obtain ⟨msgs', hleft, hlost⟩ := hrest.lose
      refine ⟨none, msgs', .of_state ?_, hlost, ?_⟩
      · rw [hstep, hidle]
        decide
      · rw [hstep, hout]
        exact hleft.mono fun hroom => absurd hsmall (UInt16.not_lt.mpr (hroom hkind))
  | stray m useCanFd hsn hrest =>
    obtain ⟨hkind, -⟩ := cfFrame_reads useCanFd m.sn (m.rest.take (maxCfPayload useCanFd).toNat)
      n.iso.rxId beyond hsn (by rw [List.length_take]; omega)
    obtain ⟨hnone, hout⟩ := cf_dropped rxBufferSize ret rfl hkind hn hclear
    have hcf : decide (framePci (m.frame useCanFd) ≠ .ff) = true := by
      simp [m.framePci_frame useCanFd hsn]
    refine ⟨none, msgs, ?_, hrest, ?_⟩
    · rw [hcf, Bool.and_true]
      exact hnone
    · rw [Underway.frame, hout]
      exact .refl _
  | more m useCanFd hsn hmore hrest =>
    obtain ⟨hpart, hnum⟩ := hn
    obtain ⟨hout, hnext, hnumber⟩ := cfFrame_more rxBufferSize beyond ret hpart hnum hsn hmore
    refine ⟨some (m.advanced useCanFd), msgs, ⟨hnext, hnumber⟩, hrest, ?_⟩
    rw [Underway.frame, hout]
    exact .refl _
  | @last _ msgs m useCanFd hsn hlast hrest =>
    obtain ⟨hpart, hnum⟩ := hn
    have hle := List.drop_eq_nil_iff.mp hlast
    have hwhole : m.rest.take (maxCfPayload useCanFd).toNat = m.rest := List.take_of_length_le hle
    obtain ⟨hkind, hread, hdata, hroom, -⟩ :=
      cfFrame_reads useCanFd m.sn m.rest n.iso.rxId beyond hsn hle
    obtain ⟨hout, hidle⟩ := rxCf_last hpart (hread.trans hnum.symm) hroom hdata
    have hstep : step rxBufferSize n (.rx (.ofBytes n.iso.rxId (m.frame useCanFd) beyond) ret) =
        rxCf n (.ofBytes n.iso.rxId (cfFrame useCanFd m.sn m.rest) beyond) := by
      simp only [Underway.frame, hwhole, step_ofBytes, hkind]
    refine ⟨none, msgs, .of_state ?_, hrest, ?_⟩
    · rw [hstep, hidle]
      decide
    · rw [hstep, hout]
      exact .refl _
  | control blockSize stMin hrest =>
    have hcts : IsCts n.iso.rxId (.ofBytes n.iso.rxId (answerFc blockSize stMin) beyond) := ⟨rfl, rfl⟩
    refine ⟨m, msgs, ?_, hrest, ?_⟩
    · rw [cts_step rxBufferSize ret hcts, framePci_fc]
      simp only [ne_eq, reduceCtorEq, not_false_eq_true, decide_true, Bool.and_true]
      by_cases hwait : n.iso.state = .txWaitFc
      · rw [if_pos hwait]
        cases m with
        | none => exact .of_state (show State.txSendingCf ≠ .rxWaitCf by decide)
        | some m =>
          have hstate := hn.1.state
          rw [hwait] at hstate
          cases hstate
      · rw [if_neg hwait]
        exact hn
    · rw [cts_step rxBufferSize ret hcts]
      exact .refl _

end Consume

end UdsLib.Isotp
