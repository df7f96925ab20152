import UdsLib.Isotp.Conveyance

/-! Both directions of a link. As long as no frame is taken for one of another message, nothing but what
one side sent reaches the other side, each message at most once and in order; and all of it does where
nothing is lost and the sides leave each other the time. -/
namespace UdsLib.Isotp
open Bytes Machine

/-- What a step keeps that confuses no frame with one of another message. -/
structure LinkInv (C : Prop) (l : Link) : Prop extends l.Wired where
  straightA : l.a.Straight
  straightB : l.b.Straight
  toB : Conveys C l.a l.b l.fromA
  toA : Conveys C l.b l.a l.fromB

theorem linkInv_start (memA memB : Node) (idA idB : UInt32) :
    LinkInv True (linkStart memA memB idA idB) where
  toWired := linkStart_wired memA memB idA idB
  straightA := nofun
  straightB := nofun
  toB := ⟨none, [], by simp [Receives, linkStart, tpIsotpInit], .idle, Nat.zero_le _, .refl _⟩
  toA := ⟨none, [], by simp [Receives, linkStart, tpIsotpInit], .idle, Nat.zero_le _, .refl _⟩

theorem LinkInv.weaken {C : Prop} {l : Link} (h : LinkInv True l) : LinkInv C l := by
  obtain ⟨mA, msgsA, hA, hcA, hkA, hleftA⟩ := h.toB
  obtain ⟨mB, msgsB, hB, hcB, hkB, hleftB⟩ := h.toA
  exact ⟨h.toWired, h.straightA, h.straightB, ⟨mA, msgsA, hA, hcA, hkA, hleftA.mono fun _ => trivial⟩,
    ⟨mB, msgsB, hB, hcB, hkB, hleftB.mono fun _ => trivial⟩⟩

theorem linkStep_inv {C : Prop} (sizeA sizeB : UInt16) (l : Link) (act : LinkAct) (h : LinkInv C l)
    (hclear : Unconfused l act) (hact : C → Considerate sizeA sizeB l act) :
    LinkInv C (linkStep sizeA sizeB l act).1 := by
  have hwired := linkStep_wired sizeA sizeB l act h.toWired
  cases act with
  | callA e ret =>
    have hown : ∀ f ret', e.op ret = .rx f ret' → ¬ ReleasesRefused l.a f := by
      intro f ret' hop
      cases e <;> cases hop
    exact ⟨hwired, h.straightA.does sizeA h.paired.canSendA h.invA hown, h.straightB,
      h.toB.callSender h.paired.canSendA h.invA h.straightA e ret fun hc => (hact hc).symm,
      h.toA.callReceiver e ret fun hc => (hact hc).2⟩
  | callB e ret =>
    have hown : ∀ f ret', e.op ret = .rx f ret' → ¬ ReleasesRefused l.b f := by
      intro f ret' hop
      cases e <;> cases hop
    exact ⟨hwired, h.straightA, h.straightB.does sizeB h.paired.canSendB h.invB hown,
      h.toB.callReceiver e ret fun hc => (hact hc).2,
      h.toA.callSender h.paired.canSendB h.invB h.straightB e ret fun hc => (hact hc).symm⟩
  | deliverToB beyond ret =>
    cases hframe : (framesOf l.a.log)[l.fromA.gone]? with
    | none => simpa only [linkStep, hframe] using h
    | some frame =>
      obtain ⟨hfill, hrelease⟩ := hclear frame hframe
      have hready (hc : C) := (hact hc).2 frame hframe
      simp only [linkStep, hframe] at hwired ⊢
      rw [← h.paired.toB] at hfill hrelease hready hwired ⊢
      have harrives : ∀ f ret', Op.rx (.ofBytes l.b.node.iso.rxId frame beyond) ret = .rx f ret' →
          ¬ ReleasesRefused l.b f := by
        intro f ret' hop
        cases hop
        exact hrelease
      exact ⟨hwired, h.straightA, h.straightB.does sizeB h.paired.canSendB h.invB harrives,
        h.toB.receive hframe beyond ret hfill fun hc => (hready hc).2,
        h.toA.disturb h.paired.canSendB h.invB _ ret fun hc => (hready hc).1⟩
  | deliverToA beyond ret =>
    cases hframe : (framesOf l.b.log)[l.fromB.gone]? with
    | none => simpa only [linkStep, hframe] using h
    | some frame =>
      obtain ⟨hfill, hrelease⟩ := hclear frame hframe
      have hready (hc : C) := (hact hc).2 frame hframe
      simp only [linkStep, hframe] at hwired ⊢
      rw [← h.paired.toA] at hfill hrelease hready hwired ⊢
      have harrives : ∀ f ret', Op.rx (.ofBytes l.a.node.iso.rxId frame beyond) ret = .rx f ret' →
          ¬ ReleasesRefused l.a f := by
        intro f ret' hop
        cases hop
        exact hrelease
      exact ⟨hwired, h.straightA.does sizeA h.paired.canSendA h.invA harrives, h.straightB,
        h.toB.disturb h.paired.canSendA h.invA _ ret fun hc => (hready hc).1,
        h.toA.receive hframe beyond ret hfill fun hc => (hready hc).2⟩
  | loseToB =>
    cases hframe : (framesOf l.a.log)[l.fromA.gone]? with
    | none => simpa only [linkStep, hframe] using h
    | some frame =>
      simp only [linkStep, hframe] at hwired ⊢
      exact ⟨hwired, h.straightA, h.straightB, h.toB.miss (fun hc => (hact hc).1) hframe, h.toA⟩
  | loseToA =>
    cases hframe : (framesOf l.b.log)[l.fromB.gone]? with
    | none => simpa only [linkStep, hframe] using h
    | some frame =>
      simp only [linkStep, hframe] at hwired ⊢
      exact ⟨hwired, h.straightA, h.straightB, h.toB, h.toA.miss (fun hc => (hact hc).1) hframe⟩

theorem linkRun_inv {C : Prop} (sizeA sizeB : UInt16) (memA memB : Node) (idA idB : UInt32)
    {acts : List LinkAct}
    (hacts : Along (linkStep sizeA sizeB)
      (fun l act => Unconfused l act ∧ (C → Considerate sizeA sizeB l act))
      (linkStart memA memB idA idB) acts) :
    LinkInv C (exec (linkStep sizeA sizeB) (linkStart memA memB idA idB) acts) :=
  exec_invariant (fun l act hl hact => linkStep_inv sizeA sizeB l act hl hact.1 hact.2)
    (linkInv_start memA memB idA idB).weaken hacts

theorem linkRun_sound (sizeA sizeB : UInt16) (memA memB : Node) (idA idB : UInt32)
    {acts : List LinkAct}
    (hclear : Along (linkStep sizeA sizeB) Unconfused (linkStart memA memB idA idB) acts) :
    LinkInv False (exec (linkStep sizeA sizeB) (linkStart memA memB idA idB) acts) :=
  linkRun_inv sizeA sizeB memA memB idA idB (hclear.mono fun _ _ hact => ⟨hact, False.elim⟩)

/-! ### A bus that keeps its frames -/

/-- No frame has been missed and no First Frame refused so far. -/
structure Link.Gapless (l : Link) : Prop extends l.Wired where
  gapA : l.fromA.gap = false
  gapB : l.fromB.gap = false
  announcedA : l.a.firstRefused = false
  announcedB : l.b.firstRefused = false

theorem announced_does {s : Station} {op : Op} (rxBufferSize : UInt16)
    (h : s.firstRefused = false) (hcan : s.node.iso.canSend = true) (hinv : NodeInv s.node)
    (htaken : ∀ data ret, op = .send data ret → ret = 0) :
    (s.does rxBufferSize op).firstRefused = false := by
  rw [does_firstRefused rxBufferSize hcan hinv]
  cases op with
  | send data ret =>
    simp only [Station.refusedBy, htaken data ret rfl, h, ne_eq, not_true_eq_false, decide_false,
      ite_self]
  | rx | process | setFd => exact h

theorem linkStep_gapless (sizeA sizeB : UInt16) (l : Link) (act : LinkAct) (h : l.Gapless)
    (hkeeps : act.Keeps) : (linkStep sizeA sizeB l act).1.Gapless := by
  have hwired := linkStep_wired sizeA sizeB l act h.toWired
  have hcall {e : Entry} {ret : ℤ} (hret : ret = 0) : ∀ data ret', e.op ret = .send data ret' → ret' = 0 := by
    intro data ret' hop
    cases e <;> cases hop
    exact hret
  have harrival {f : RxFrame} {ret : ℤ} : ∀ data ret', Op.rx f ret = .send data ret' → ret' = 0 := by
    intro data ret' hop
    cases hop
  cases act with
  | callA e ret =>
    exact { h with
      toWired := hwired
      announcedA := announced_does sizeA h.announcedA h.paired.canSendA h.invA (hcall hkeeps) }
  | callB e ret =>
    exact { h with
      toWired := hwired
      announcedB := announced_does sizeB h.announcedB h.paired.canSendB h.invB (hcall hkeeps) }
  | deliverToB beyond ret =>
    cases hframe : (framesOf l.a.log)[l.fromA.gone]? with
    | none => simpa only [linkStep, hframe] using h
    | some frame =>
      simp only [linkStep, hframe] at hwired ⊢
      exact { h with
        toWired := hwired
        gapA := by simp [Way.arrived, h.gapA]
        announcedB := announced_does sizeB h.announcedB h.paired.canSendB h.invB harrival }
  | deliverToA beyond ret =>
    cases hframe : (framesOf l.b.log)[l.fromB.gone]? with
    | none => simpa only [linkStep, hframe] using h
    | some frame =>
      simp only [linkStep, hframe] at hwired ⊢
      exact { h with
        toWired := hwired
        gapB := by simp [Way.arrived, h.gapB]
        announcedA := announced_does sizeA h.announcedA h.paired.canSendA h.invA harrival }
  | loseToB | loseToA => exact hkeeps.elim

theorem Link.Gapless.unconfused {l : Link} (h : l.Gapless) (act : LinkAct) : Unconfused l act := by
  have hfill {gap : Bool} {n : Node} {f : RxFrame} (hgap : gap = false) : ¬ FillsGap gap n f :=
    fun hfills => Bool.false_ne_true (hgap.symm.trans hfills.1)
  have hrelease {s : Station} {f : RxFrame} (hfirst : s.firstRefused = false) :
      ¬ ReleasesRefused s f := fun hreleases => Bool.false_ne_true (hfirst.symm.trans hreleases.1)
  cases act with
  | deliverToB beyond ret => exact fun frame _ => ⟨hfill h.gapA, hrelease h.announcedB⟩
  | deliverToA beyond ret => exact fun frame _ => ⟨hfill h.gapB, hrelease h.announcedA⟩
  | callA | callB | loseToB | loseToA => trivial

theorem linkStart_gapless (memA memB : Node) (idA idB : UInt32) :
    (linkStart memA memB idA idB).Gapless where
  toWired := linkStart_wired memA memB idA idB
  gapA := rfl
  gapB := rfl
  announcedA := rfl
  announcedB := rfl

/-- Where no frame is lost or refused, none is confused. -/
theorem keeping_unconfused (sizeA sizeB : UInt16) (memA memB : Node) (idA idB : UInt32)
    {D : Link → LinkAct → Prop} {acts : List LinkAct}
    (hkeeps : Along (linkStep sizeA sizeB) (fun l act => act.Keeps ∧ D l act)
      (linkStart memA memB idA idB) acts) :
    Along (linkStep sizeA sizeB) (fun l act => Unconfused l act ∧ act.Keeps ∧ D l act)
      (linkStart memA memB idA idB) acts :=
  hkeeps.of_kept (fun l act hl hact => linkStep_gapless sizeA sizeB l act hl hact.1)
    (fun _ act hl hact => ⟨hl.unconfused act, hact⟩) (linkStart_gapless memA memB idA idB)

theorem considerateRun_inv (sizeA sizeB : UInt16) (memA memB : Node) (idA idB : UInt32)
    {acts : List LinkAct}
    (hconsiderate : Along (linkStep sizeA sizeB) (Considerate sizeA sizeB)
      (linkStart memA memB idA idB) acts) :
    LinkInv True (exec (linkStep sizeA sizeB) (linkStart memA memB idA idB) acts) :=
  linkRun_inv sizeA sizeB memA memB idA idB
    ((keeping_unconfused sizeA sizeB memA memB idA idB hconsiderate).mono
      fun _ _ hact => ⟨hact.1, fun _ => hact.2⟩)

/-! ### What is conveyed -/

theorem Conveys.sublist {C : Prop} {s r : Station} {w : Way} (h : Conveys C s r w) :
    (sdusOf r.log).Sublist (acceptedOf s.log) := by
  obtain ⟨_, msgs, -, -, -, hleft⟩ := h
  exact (List.sublist_append_left _ msgs).trans hleft.sublist

theorem Conveys.isPrefix {s r : Station} {w : Way} (h : Conveys True s r w) :
    sdusOf r.log <+: acceptedOf s.log := by
  obtain ⟨_, msgs, -, -, -, hleft⟩ := h
  exact ⟨msgs, hleft.all trivial⟩

theorem Conveys.caught_up {s r : Station} {w : Way} (h : Conveys True s r w)
    (hgone : w.gone = (framesOf s.log).length) (hidle : ¬ s.node.Sending) :
    sdusOf r.log = acceptedOf s.log := by
  obtain ⟨m, msgs, -, hcarried, -, hleft⟩ := h
  rw [hgone, List.drop_length, Station.tail_none hidle] at hcarried
  have hall := hleft.all trivial
  cases hcarried with
  | idle | cut => rwa [List.append_nil] at hall
  | due m hdue => cases hdue

/-- In every run of two linked transports in which no frame is taken for one of another message, each
side hands up only messages that the other side accepted, each at most once and in the order of their
acceptance, whatever the bus loses and the drivers refuse. -/
theorem link_integrity (sizeA sizeB : UInt16) (memA memB : Node) (idA idB : UInt32)
    (acts : List LinkAct)
    (hclear : Along (linkStep sizeA sizeB) Unconfused (linkStart memA memB idA idB) acts) :
    let l := exec (linkStep sizeA sizeB) (linkStart memA memB idA idB) acts
    (sdusOf l.b.log).Sublist (acceptedOf l.a.log) ∧
      (sdusOf l.a.log).Sublist (acceptedOf l.b.log) := by
  have h := linkRun_sound sizeA sizeB memA memB idA idB hclear
  exact ⟨h.toB.sublist, h.toA.sublist⟩

/-- A message of eight bytes is sent twice. Of the first time its second frame is lost, and the
other side starts anew. -/
def lossyRun : List LinkAct :=
  [.callA (.send eightBytes) 0, .deliverToB (fun _ => 0) 0, .deliverToA (fun _ => 0) 0,
    .callA (.process 0) 0, .loseToB, .callA (.send eightBytes) 0, .deliverToB (fun _ => 0) 0,
    .deliverToA (fun _ => 0) 0, .callA (.process 0) 0, .deliverToB (fun _ => 0) 0]

theorem lossyRun_integrity :
    let l := exec (linkStep 1024 1024) (linkStart zeroNode zeroNode 1 2) lossyRun
    sdusOf l.b.log = [eightBytes.bytes] ∧ (sdusOf l.b.log).Sublist (acceptedOf l.a.log) :=
  ⟨by decide, (link_integrity 1024 1024 zeroNode zeroNode 1 2 lossyRun (by decide)).1⟩

/-- Eight other bytes. -/
def eightOthers : Sdu := ⟨[11, 12, 13, 14, 15, 16, 17, 18], by decide⟩

/-- The First Frame of a second message is lost, and its last two bytes end the first message. -/
example : sdusOf (exec (linkStep 1024 1024) (linkStart zeroNode zeroNode 1 2)
    [.callA (.send eightBytes) 0, .deliverToB (fun _ => 0) 0, .callA (.send eightOthers) 0, .loseToB,
      .deliverToA (fun _ => 0) 0, .callA (.process 0) 0, .deliverToB (fun _ => 0) 0]).b.log =
    [[1, 2, 3, 4, 5, 6, 17, 18]] := by decide

/-- Where the sides leave each other the time and no frame is lost or refused, no message is lost:
what a side has handed up is the beginning of what the other one accepted, and all of it once no frame
is in flight or unsent. -/
theorem link_exactly_once (sizeA sizeB : UInt16) (memA memB : Node) (idA idB : UInt32)
    (acts : List LinkAct)
    (hconsiderate : Along (linkStep sizeA sizeB) (Considerate sizeA sizeB)
      (linkStart memA memB idA idB) acts) :
    let l := exec (linkStep sizeA sizeB) (linkStart memA memB idA idB) acts
    sdusOf l.b.log <+: acceptedOf l.a.log ∧ sdusOf l.a.log <+: acceptedOf l.b.log ∧
      (l.fromA.gone = (framesOf l.a.log).length → ¬ l.a.node.Sending →
        sdusOf l.b.log = acceptedOf l.a.log) ∧
      (l.fromB.gone = (framesOf l.b.log).length → ¬ l.b.node.Sending →
        sdusOf l.a.log = acceptedOf l.b.log) := by
  have h := considerateRun_inv sizeA sizeB memA memB idA idB hconsiderate
  exact ⟨h.toB.isPrefix, h.toA.isPrefix, h.toB.caught_up, h.toA.caught_up⟩

/-- A message of eight bytes in two frames, and what asks for the second one. -/
def segmentedRun : List LinkAct :=
  [.callA (.send eightBytes) 0, .deliverToB (fun _ => 0) 0, .deliverToA (fun _ => 0) 0,
    .callA (.process 0) 0, .deliverToB (fun _ => 0) 0]

theorem link_exactly_once_segmented :
    sdusOf (exec (linkStep 1024 1024) (linkStart zeroNode zeroNode 1 2) segmentedRun).b.log =
      [eightBytes.bytes] :=
  (link_exactly_once 1024 1024 zeroNode zeroNode 1 2 segmentedRun (by decide)).2.2.1 (by decide)
    (by decide)

end UdsLib.Isotp
