import UdsLib.Isotp.Link

/-! One direction of a link: what the receiver has handed up and what is on its way to it are messages
that the sender accepted, whatever either side does and the bus loses, as long as no frame is taken for
one of another message. -/
namespace UdsLib.Isotp
open Bytes Machine

/-! ### The sender -/

/-- What the transmission in progress has yet to send, and the number of its next frame. -/
def Node.tail (n : Node) : Option (UInt8 × List UInt8) :=
  if n.Sending then some (n.iso.sn, unsentBytes n) else none

/-- What of it the other side can still follow. -/
def Station.tail (s : Station) : Option (UInt8 × List UInt8) :=
  if s.firstRefused = true then none else s.node.tail

theorem tail_of_sending {n : Node} (h : n.Sending) : n.tail = some (n.iso.sn, unsentBytes n) :=
  if_pos h

theorem tail_of_not_sending {n : Node} (h : ¬ n.Sending) : n.tail = none := if_neg h

theorem Station.tail_announced {s : Station} (h : s.firstRefused = false) : s.tail = s.node.tail := by
  rw [Station.tail, h]
  rfl

theorem Station.tail_refused {s : Station} (h : s.firstRefused = true) : s.tail = none := if_pos h

theorem Station.tail_none {s : Station} (h : ¬ s.node.Sending) : s.tail = none := by
  rw [Station.tail, tail_of_not_sending h, ite_self]

theorem Station.tail_congr {s t : Station} (hrefused : t.firstRefused = s.firstRefused)
    (htail : t.node.tail = s.node.tail) : t.tail = s.tail := by
  rw [Station.tail, Station.tail, hrefused, htail]

/-- What the receiver handed up and what it can still get are messages that the sender accepted,
in order, and under `C` they are all of them. -/
def Conveys (C : Prop) (sender receiver : Station) (w : Way) : Prop :=
  ∃ m msgs, Receives w.gap receiver.node m ∧
    Carried sender.tail m ((framesOf sender.log).drop w.gone) msgs ∧
    w.gone ≤ (framesOf sender.log).length ∧
    LeftOf C (sdusOf receiver.log ++ msgs) (acceptedOf sender.log)

section OneWay

variable {C : Prop} {s r : Station} {w : Way} {sizeS sizeR : UInt16}

/-- The sender emitted `frames` and accepted `new`. -/
theorem Conveys.sent {D : Prop} {n : Node} {os : List Output} {new : List (List UInt8)}
    (h : Conveys C s r w) (hD : C → D) (haccepted : LeftOf C new (acceptedOf os))
    (hframes : ∀ m msgs, Carried s.tail m ((framesOf s.log).drop w.gone) msgs →
      ∃ msgs', LeftOf D msgs' msgs ∧
        Carried (Station.tail ⟨n, s.log ++ os⟩) m ((framesOf s.log).drop w.gone ++ framesOf os)
          (msgs' ++ new)) :
    Conveys C ⟨n, s.log ++ os⟩ r w := by
  obtain ⟨m, msgs, hreceives, hcarried, hk, hleft⟩ := h
  obtain ⟨msgs', hpart, hrest⟩ := hframes m msgs hcarried
  refine ⟨m, msgs' ++ new, hreceives, ?_, ?_, ?_⟩
  · rw [framesOf_append, List.drop_append_of_le_length hk]
    exact hrest
  · rw [framesOf_append, List.length_append]
    omega
  · rw [acceptedOf_append, ← List.append_assoc]
    have hold := ((hpart.mono hD).prefixed (sdusOf r.log)).trans hleft
    exact (hold.mono fun hc => ⟨hc, hc⟩).append haccepted

/-- The sender emitted nothing and has the same to send as before. -/
theorem Conveys.unmoved {n : Node} {os : List Output} (h : Conveys C s r w)
    (htail : Station.tail ⟨n, s.log ++ os⟩ = s.tail) (hframes : framesOf os = [])
    (haccepted : acceptedOf os = []) : Conveys C ⟨n, s.log ++ os⟩ r w := by
  have hnone : LeftOf C [] (acceptedOf os) := by
    rw [haccepted]
    exact .refl _
  refine h.sent (D := True) (fun _ => trivial) hnone fun m msgs hcarried => ⟨msgs, .refl _, ?_⟩
  rw [htail, hframes, List.append_nil, List.append_nil]
  exact hcarried

/-- The sender gave up what it was sending and emitted nothing. -/
theorem Conveys.given_up {n : Node} {os : List Output} (h : Conveys C s r w)
    (hidle : C → s.tail = none) (htail : Station.tail ⟨n, s.log ++ os⟩ = none)
    (hframes : framesOf os = []) (haccepted : acceptedOf os = []) :
    Conveys C ⟨n, s.log ++ os⟩ r w := by
  have hnone : LeftOf C [] (acceptedOf os) := by
    rw [haccepted]
    exact .refl _
  refine h.sent hidle hnone fun m msgs hcarried => ?_
  obtain ⟨msgs', hleft, haborted⟩ := hcarried.abort
  refine ⟨msgs', hleft, ?_⟩
  rw [htail, hframes, List.append_nil, List.append_nil]
  exact haborted

theorem Conveys.send (h : Conveys C s r w) (hcan : s.node.iso.canSend = true)
    (hinv : NodeInv s.node) (data : Sdu) (ret : ℤ)
    (hfree : C → StartsFree s.node (.send data) ∧ ret = 0) :
    Conveys C (s.does sizeS (.send data ret)) r w := by
  have hidle : data.bytes.length ≤ 1024 → C → s.tail = none := fun hmax hc =>
    Station.tail_none ((hfree hc).1 hmax).1
  have hrefused := does_firstRefused sizeS hcan hinv (.send data ret)
  simp only [Station.refusedBy] at hrefused
  simp only [Station.does, step] at hrefused ⊢
  generalize hr : isotpSend s.node data ret = p at hrefused ⊢
  have heff := send_effect s.node data ret
  rw [hr] at heff
  cases heff with
  | single hfit =>
    have hmax : data.bytes.length ≤ 1024 := by
      have hle := (not_fitsSf_iff s.node.iso.useCanFd data).not.mp (not_not.mpr hfit)
      have hsf : (maxSfLen s.node.iso.useCanFd).toNat ≤ 62 := by
        cases s.node.iso.useCanFd <;> decide
      omega
    rw [if_neg fun htakes : TakesSlot s.node data => htakes.1 hfit] at hrefused
    have htail := Station.tail_congr hrefused rfl
    simp only [tpSendFrame, hcan, if_true] at htail ⊢
    by_cases hret : ret = 0
    · subst hret
      have hnew : LeftOf C (handedUp data.bytes) [data.bytes] := by
        by_cases hempty : data.bytes = []
        · rw [handedUp, if_pos hempty]
          exact .mono (fun hc => ((hfree hc).1 hmax).2.1 hempty) (.nothing (C := False) id _)
        · rw [handedUp, if_neg hempty]
          exact .refl _
      refine h.sent (hidle hmax) hnew fun m msgs hcarried => ?_
      rw [htail]
      exact hcarried.sendSingle _ data hfit
    · exact h.unmoved htail (by simp [framesOf, Output.frame?, hret])
        (by simp [acceptedOf, Output.accepted?, hret])
  | tooLong _ hlong =>
    rw [if_neg fun htakes : TakesSlot s.node data => Nat.not_le.mpr hlong htakes.2] at hrefused
    exact h.unmoved (Station.tail_congr hrefused rfl) rfl rfl
  | started hlong hmax =>
    rw [if_pos (show TakesSlot s.node data from ⟨hlong, hmax⟩)] at hrefused
    simp only [tpSendFrame, hcan, if_true] at hrefused ⊢
    by_cases hret : ret = 0
    · subst hret
      have hstarted : (mfStarted s.node data).Sending := Or.inl rfl
      have htail := Station.tail_announced hrefused
      rw [tail_of_sending hstarted, mfStarted_unsentBytes _ _ hlong] at htail
      refine h.sent (hidle hmax) (.refl [data.bytes]) fun m msgs hcarried => ?_
      rw [htail]
      exact hcarried.sendFirst _ data hlong hmax
    · exact h.given_up (hidle hmax) (Station.tail_refused (hrefused.trans (decide_eq_true hret)))
        (by simp [framesOf, Output.frame?, hret]) (by simp [acceptedOf, Output.accepted?, hret])

theorem Conveys.process (h : Conveys C s r w) (hcan : s.node.iso.canSend = true)
    (hinv : NodeInv s.node) (hstraight : s.Straight) (timeMs : UInt32) (ret : ℤ) :
    Conveys C (s.does sizeS (.process timeMs ret)) r w := by
  have hrefused := does_firstRefused sizeS hcan hinv (.process timeMs ret)
  simp only [Station.refusedBy] at hrefused
  have hannounced (hs : s.node.iso.state = .txSendingCf) : s.firstRefused = false := by
    rw [Bool.eq_false_iff]
    exact fun hfirst => hstraight hfirst hs
  simp only [Station.does, step] at hrefused ⊢
  generalize hr : tpIsotpProcess s.node timeMs ret = p at hrefused ⊢
  have heff := process_effect s.node timeMs ret
  rw [hr] at heff
  cases heff with
  | notSending | early => exact h.unmoved (Station.tail_congr hrefused rfl) rfl rfl
  | drained hs hempty =>
    have hlt := hinv.tx (Or.inr hs)
    rw [hempty] at hlt
    omega
  | blockEnd hs =>
    refine h.unmoved (Station.tail_congr hrefused ?_) rfl rfl
    rw [tail_of_sending (Or.inl rfl), tail_of_sending (Or.inr hs)]
    rfl
  | sent hs _ _ _ _ hret =>
    subst hret
    have hsending : s.node.Sending := Or.inr hs
    refine h.sent (D := True) (fun _ => trivial) (.refl []) fun m msgs hcarried =>
      ⟨msgs, .refl _, ?_⟩
    rw [Station.tail_announced (hannounced hs), tail_of_sending hsending] at hcarried
    have hnext := hcarried.sendNext s.node.iso.useCanFd hinv.sn_lt
    have hstate := cfSent_state hs timeMs
    have hrest := unsentBytes_cfSent hsending hinv.tx timeMs
    have htail : (cfSent s.node timeMs).tail =
        if (unsentBytes s.node).drop (maxCfPayload s.node.iso.useCanFd).toNat = [] then none
        else some ((s.node.iso.sn + 1) &&& 0x0F,
          (unsentBytes s.node).drop (maxCfPayload s.node.iso.useCanFd).toNat) := by
      rw [hrest] at hstate
      split_ifs at hstate ⊢ with hlast
      · exact tail_of_not_sending (by simp [Node.Sending, hstate])
      · rw [tail_of_sending (Or.inr hstate), hrest]
        rfl
    rw [Station.tail_announced (hrefused.trans (hannounced hs)), htail, List.append_nil,
      framesOf_canSend, cfPayload_eq_take hsending hinv.tx]
    exact hnext
  | refused _ _ _ _ hfail =>
    have hret := hfail hcan
    refine h.unmoved (Station.tail_congr hrefused rfl) ?_ ?_ <;>
      simp [tpSendFrame, hcan, framesOf, Output.frame?, acceptedOf, Output.accepted?, hret]

/-- A call of the sender's owner. -/
theorem Conveys.callSender (h : Conveys C s r w) (hcan : s.node.iso.canSend = true)
    (hinv : NodeInv s.node) (hstraight : s.Straight) (e : Entry) (ret : ℤ)
    (hfree : C → StartsFree s.node e ∧ ret = 0) : Conveys C (s.does sizeS (e.op ret)) r w := by
  cases e with
  | send data => exact h.send hcan hinv data ret hfree
  | process timeMs => exact h.process hcan hinv hstraight timeMs ret
  | setFd enabled =>
    exact h.unmoved (Station.tail_congr (does_firstRefused sizeS hcan hinv (.setFd enabled)) rfl) rfl rfl

/-- What reaches a station makes it emit at most a Flow Control frame, and accept nothing. -/
theorem rx_emits (rxBufferSize : UInt16) (n : Node) (f : RxFrame) (ret : ℤ) :
    acceptedOf (isotpRxCallback rxBufferSize n f ret).2 = [] ∧
      (framesOf (isotpRxCallback rxBufferSize n f ret).2 = [] ∨
        framesOf (isotpRxCallback rxBufferSize n f ret).2 =
          [answerFc n.iso.blockSize n.iso.stMin]) := by
  unfold isotpRxCallback
  split_ifs
  · exact ⟨rfl, .inl rfl⟩
  · cases pciOf f with
    | sf => unfold rxSf; dsimp only; split_ifs <;> exact ⟨rfl, .inl rfl⟩
    | ff =>
      by_cases hret : ret = 0
      · subst hret
        unfold rxFf tpSendFrame
        dsimp only
        split_ifs <;> first | exact ⟨rfl, .inl rfl⟩ | exact ⟨rfl, .inr rfl⟩
      · unfold rxFf tpSendFrame
        dsimp only
        split_ifs <;> simp [acceptedOf, Output.accepted?, framesOf, Output.frame?, hret]
    | cf => unfold rxCf; dsimp only; split_ifs <;> exact ⟨rfl, .inl rfl⟩
    | fc | other => exact ⟨rfl, .inl rfl⟩

/-- What a frame from the other side leaves the sender to send: the same, or nothing if it opens a
reception. -/
theorem rx_tail (rxBufferSize : UInt16) (n : Node) (f : RxFrame) (ret : ℤ) :
    (isotpRxCallback rxBufferSize n f ret).1.tail = n.tail ∨
      (isotpRxCallback rxBufferSize n f ret).1.tail = none ∧
        (n.Sending → pciOf f = .sf ∨ pciOf f = .ff) := by
  by_cases hafter : (isotpRxCallback rxBufferSize n f ret).1.Sending
  · left
    rcases rx_sending hafter with hsame | ⟨hwait, hcleared⟩
    · rw [hsame]
    · rw [hcleared, tail_of_sending (Or.inl hwait), tail_of_sending (Or.inr rfl)]
      rfl
  · right
    refine ⟨tail_of_not_sending hafter, fun hbefore => ?_⟩
    by_contra hkind
    apply hafter
    have hquiet : n.iso.state ≠ .rxWaitCf := by
      rcases hbefore with hs | hs <;> (rw [hs]; decide)
    unfold isotpRxCallback
    split_ifs
    · exact hbefore
    · cases hp : pciOf f with
      | sf => exact absurd (Or.inl hp) hkind
      | ff => exact absurd (Or.inr hp) hkind
      | cf =>
        simp only [rxCf_ignored f hquiet]
        exact hbefore
      | fc =>
        simp only [rxFc]
        split_ifs
        · exact hbefore
        · exact Or.inr rfl
        · exact hbefore
      | other => exact hbefore

/-- A frame from the other side reaches the sender. -/
theorem Conveys.disturb (h : Conveys C s r w) (hcan : s.node.iso.canSend = true)
    (hinv : NodeInv s.node) (f : RxFrame) (ret : ℤ)
    (hready : C → s.node.Sending → pciOf f ≠ .sf ∧ pciOf f ≠ .ff) :
    Conveys C (s.does sizeS (.rx f ret)) r w := by
  obtain ⟨haccepted, hframes⟩ := rx_emits sizeS s.node f ret
  have hnone : LeftOf C [] (acceptedOf (isotpRxCallback sizeS s.node f ret).2) := by
    rw [haccepted]
    exact .refl _
  have hcontrol {m : Option Underway} {msgs : List (List UInt8)} {tail}
      (hcarried : Carried tail m ((framesOf s.log).drop w.gone) msgs) :
      Carried tail m ((framesOf s.log).drop w.gone ++
        framesOf (isotpRxCallback sizeS s.node f ret).2) (msgs ++ []) := by
    rw [List.append_nil]
    rcases hframes with hframes | hframes
    · rw [hframes, List.append_nil]
      exact hcarried
    · rw [hframes]
      exact hcarried.sendControl _ _
  have hrefused := does_firstRefused sizeS hcan hinv (.rx f ret)
  simp only [Station.refusedBy] at hrefused
  rcases rx_tail sizeS s.node f ret with htail | ⟨htail, hkind⟩
  · have hsame : (s.does sizeS (.rx f ret)).tail = s.tail := Station.tail_congr hrefused htail
    refine h.sent (D := True) (fun _ => trivial) hnone fun m msgs hcarried => ⟨msgs, .refl _, ?_⟩
    rw [show Station.tail ⟨_, _⟩ = s.tail from hsame]
    exact hcontrol hcarried
  · have hidle : C → s.tail = none := by
      intro hc
      refine Station.tail_none fun hsending => ?_
      rcases hkind hsending with hp | hp
      · exact (hready hc hsending).1 hp
      · exact (hready hc hsending).2 hp
    refine h.sent hidle hnone fun m msgs hcarried => ?_
    obtain ⟨msgs', hleft, haborted⟩ := hcarried.abort
    have hnothing : (s.does sizeS (.rx f ret)).tail = none := by
      rw [Station.tail]
      exact (congrArg (ite _ none) htail).trans (ite_self none)
    rw [show Station.tail ⟨_, _⟩ = none from hnothing]
    exact ⟨msgs', hleft, hcontrol haborted⟩

/-! ### The other end -/

/-- A call of the receiver's owner hands nothing up. -/
theorem call_sdus (rxBufferSize : UInt16) (n : Node) (e : Entry) (ret : ℤ) :
    sdusOf (step rxBufferSize n (e.op ret)).2 = [] := by
  apply step_sdus
  cases e with
  | send | process | setFd => exact nofun

/-- A call of the receiver's owner goes on with the reception or, if it takes the slot, ends it. -/
theorem call_receives {gap : Bool} {n : Node} {m : Option Underway} (rxBufferSize : UInt16)
    (h : Receives gap n m) (e : Entry) (ret : ℤ) :
    Receives gap (step rxBufferSize n (e.op ret)).1 m ∨
      Receives gap (step rxBufferSize n (e.op ret)).1 none ∧ (StartsFree n e → m = none) := by
  cases e with
  | send data =>
    simp only [Entry.op, step]
    by_cases htakes : TakesSlot n data
    · right
      rw [send_starts htakes]
      refine ⟨.of_state (show State.txWaitFc ≠ .rxWaitCf by decide), fun hfree => ?_⟩
      cases m with
      | none => rfl
      | some m => exact absurd h.1.state ((hfree htakes.2).2.2 htakes)
    · left
      rw [send_keeps htakes]
      exact h
  | process timeMs =>
    left
    simp only [Entry.op, step]
    by_cases hs : n.iso.state = .txSendingCf
    · cases m with
      | some m =>
        have hstate := h.1.state
        rw [hs] at hstate
        cases hstate
      | none =>
        generalize hr : tpIsotpProcess n timeMs ret = p
        have heff := process_effect n timeMs ret
        rw [hr] at heff
        cases heff with
        | notSending | early | refused => exact h
        | drained => exact .of_state (show State.idle ≠ .rxWaitCf by decide)
        | blockEnd => exact .of_state (show State.txWaitFc ≠ .rxWaitCf by decide)
        | sent =>
          apply Receives.of_state
          rw [cfSent_state hs]
          split_ifs <;> decide
    · have hsame : tpIsotpProcess n timeMs ret = (n, []) := if_neg hs
      rw [hsame]
      exact h
  | setFd enabled =>
    left
    cases m with
    | none => exact h
    | some m => exact ⟨{ h.1 with }, h.2⟩

theorem Conveys.callReceiver (h : Conveys C s r w) (e : Entry) (ret : ℤ)
    (hfree : C → StartsFree r.node e) : Conveys C s (r.does sizeR (e.op ret)) w := by
  obtain ⟨m, msgs, hreceives, hcarried, hk, hleft⟩ := h
  have hsdus : sdusOf (r.does sizeR (e.op ret)).log = sdusOf r.log := by
    rw [Station.does, sdusOf_append, call_sdus, List.append_nil]
  rcases call_receives sizeR hreceives e ret with hon | ⟨hoff, hlost⟩
  · refine ⟨m, msgs, hon, hcarried, hk, ?_⟩
    rw [hsdus]
    exact hleft
  · obtain ⟨msgs', hpart, hrest⟩ := hcarried.lose
    refine ⟨none, msgs', hoff, hrest, hk, ?_⟩
    rw [hsdus]
    exact ((hpart.prefixed (sdusOf r.log)).trans hleft).mono fun hc => ⟨hlost (hfree hc), hc⟩

/-- The oldest frame in flight reaches the receiver. -/
theorem Conveys.receive (h : Conveys C s r w) {frame : List UInt8}
    (hframe : (framesOf s.log)[w.gone]? = some frame) (beyond : ℕ → UInt8) (ret : ℤ)
    (hclear : ¬ FillsGap w.gap r.node (.ofBytes r.node.iso.rxId frame beyond))
    (hroom : C → HasRoom sizeR (.ofBytes r.node.iso.rxId frame beyond)) :
    Conveys C s (r.does sizeR (.rx (.ofBytes r.node.iso.rxId frame beyond) ret)) (w.arrived frame) := by
  obtain ⟨m, msgs, hreceives, hcarried, -, hleft⟩ := h
  obtain ⟨hk, hget⟩ := List.getElem?_eq_some_iff.mp hframe
  rw [List.drop_eq_getElem_cons hk, hget] at hcarried
  obtain ⟨m', msgs', hnext, hrest, hpart⟩ := hcarried.consume sizeR beyond ret hreceives hclear
  refine ⟨m', msgs', hnext, hrest, hk, ?_⟩
  rw [Station.does, sdusOf_append, List.append_assoc]
  exact ((hpart.prefixed (sdusOf r.log)).trans hleft).mono fun hc => ⟨hroom hc, hc⟩

/-- The oldest frame in flight is lost. -/
theorem Conveys.miss (h : Conveys C s r w) (hlossy : ¬ C) {frame : List UInt8}
    (hframe : (framesOf s.log)[w.gone]? = some frame) : Conveys C s r (w.lost frame) := by
  obtain ⟨m, msgs, hreceives, hcarried, -, hleft⟩ := h
  obtain ⟨hk, hget⟩ := List.getElem?_eq_some_iff.mp hframe
  rw [List.drop_eq_getElem_cons hk, hget] at hcarried
  obtain ⟨m', msgs', hkind, hrest, hpart⟩ := hcarried.drop
  refine ⟨m', msgs', ?_, hrest, hk, ?_⟩
  · rcases hkind with ⟨rfl, hfc⟩ | ⟨rfl, hmessage⟩
    · simpa [Way.lost, hfc] using hreceives
    · exact fun _ => by simp [Way.lost, hmessage]
  · exact ⟨(hpart.append_left _).trans hleft.sublist, fun hc => absurd hc hlossy⟩

end OneWay

end UdsLib.Isotp
