import UdsLib.Isotp.RoundTrip

/-! The frames of many messages on one identifier: as long as nobody sends while a
segmented message is still going out, the stream parses into the accepted messages. -/
namespace UdsLib.Isotp
open Bytes Machine

/-- Consecutive Frames that carry `rest`, numbered from `sn` on; only the last is padded. -/
inductive Numbered : UInt8 → List UInt8 → List (List UInt8) → Prop where
  | done (sn : UInt8) : Numbered sn [] []
  | next {sn : UInt8} {chunk rest pad : List UInt8} {frames : List (List UInt8)} :
      chunk ≠ [] → (rest ≠ [] → pad = []) → Numbered ((sn + 1) &&& 0x0F) rest frames →
      Numbered sn (chunk ++ rest) (((0x20 ||| sn) :: chunk ++ pad) :: frames)

/-- The frames are one well-formed message with this payload: a Single Frame, its escape
form, or a First Frame with the 12-bit length and the Consecutive Frames from number 1 on. -/
inductive Carries : List (List UInt8) → List UInt8 → Prop where
  | single {bytes pad : List UInt8} : 1 ≤ bytes.length → bytes.length ≤ 7 →
      Carries [UInt8.ofNat bytes.length :: bytes ++ pad] bytes
  | escape {bytes pad : List UInt8} : 8 ≤ bytes.length → bytes.length ≤ 62 →
      Carries [0 :: UInt8.ofNat bytes.length :: bytes ++ pad] bytes
  | segmented {hi lo : UInt8} {first rest : List UInt8} {frames : List (List UInt8)} :
      hi.toNat < 16 → hi.toNat * 256 + lo.toNat = first.length + rest.length → first ≠ [] →
      rest ≠ [] → Numbered 1 rest frames →
      Carries (((0x10 ||| hi) :: lo :: first) :: frames) (first ++ rest)

/-- `emitted` and then `rest` are well-formed messages that carry `accepted` in order, and
`rest` is missing from the last message only, which has started. -/
def StreamOf (emitted : List (List UInt8)) (accepted : List (List UInt8))
    (rest : List (List UInt8)) : Prop :=
  ∃ msgs, emitted ++ rest = msgs.flatten ∧ List.Forall₂ Carries msgs accepted ∧
    (rest = [] ∨ ∃ done started, msgs = done ++ [started ++ rest] ∧ started ≠ [])

/-- The emitted frames are a concatenation of well-formed messages, the last one possibly
incomplete, that carry exactly the accepted ones. -/
def WellFormedStream (emitted : List (List UInt8)) (accepted : List (List UInt8)) : Prop :=
  ∃ rest, StreamOf emitted accepted rest

theorem cfFrames_numbered (useCanFd : Bool) (sn : UInt8) (rest : List UInt8) :
    Numbered sn rest (cfFrames useCanFd sn rest) := by
  induction sn, rest using cfFrames.induct useCanFd with
  | case1 sn =>
    rw [cfFrames_nil]
    exact .done sn
  | case2 sn rest hrest ih =>
    have hpos := maxCfPayload_pos useCanFd
    have hlen := List.length_pos_iff.mpr hrest
    generalize hchunk : rest.take (maxCfPayload useCanFd).toNat = chunk
    have hchunkLen : chunk.length = min (maxCfPayload useCanFd).toNat rest.length := by
      rw [← hchunk, List.length_take]
    obtain ⟨pad, hframe, -, hfull⟩ := cfFrame_shape useCanFd sn chunk (by omega)
    have hne : chunk ≠ [] := by
      rw [← List.length_pos_iff]
      omega
    have hpad : rest.drop (maxCfPayload useCanFd).toNat ≠ [] → pad = [] := by
      intro htail
      have htl := List.length_pos_iff.mpr htail
      rw [List.length_drop] at htl
      exact hfull (by omega)
    have hsplit : rest = chunk ++ rest.drop (maxCfPayload useCanFd).toNat := by
      rw [← hchunk, List.take_append_drop]
    have hnext : Numbered sn (chunk ++ _) (((0x20 ||| sn) :: chunk ++ pad) :: _) :=
      .next hne hpad ih
    rwa [← hframe, ← hsplit, ← hchunk, ← cfFrames_of_ne_nil _ _ hrest] at hnext

/-- A segmented message is a well-formed one. -/
theorem segment_carries (useCanFd : Bool) (data : Sdu) (hpos : data.bytes ≠ [])
    (hmax : data.bytes.length < 4096) : Carries (segment useCanFd data) data.bytes := by
  have hlen := List.length_pos_iff.mpr hpos
  by_cases hfit : FitsSf useCanFd data
  · rw [segment, if_pos hfit]
    rcases (sfFrame_shape useCanFd data hfit).2 with ⟨h7, pad, hframe⟩ | ⟨h8, h62, pad, hframe⟩
    · rw [hframe]
      exact .single hlen h7
    · rw [hframe]
      exact .escape h8 h62
  · have hlong := (not_fitsSf_iff _ _).mp hfit
    have hff := maxDataInFf_le_maxSfLen useCanFd
    have hffPos : 0 < (maxDataInFf useCanFd).toNat := by cases useCanFd <;> decide
    have hhi := lenHigh_toNat data.len (by rwa [Sdu.len_toNat])
    have hlo := lenLow_toNat data.len
    rw [Sdu.len_toNat] at hhi hlo
    rw [segment, if_neg hfit, (ffFrame_shape useCanFd data hfit).1, ffHeader, List.cons_append,
      List.cons_append, List.nil_append]
    generalize ((data.len >>> 8) &&& 0x0F).toUInt8 = hi at hhi ⊢
    generalize (data.len &&& 0xFF).toUInt8 = lo at hlo ⊢
    have hcarry : Carries (((0x10 ||| hi) :: lo :: data.bytes.take (maxDataInFf useCanFd).toNat) ::
        cfFrames useCanFd 1 (data.bytes.drop (maxDataInFf useCanFd).toNat))
        (data.bytes.take (maxDataInFf useCanFd).toNat ++
          data.bytes.drop (maxDataInFf useCanFd).toNat) := by
      refine .segmented ?_ ?_ ?_ ?_ (cfFrames_numbered useCanFd 1 _)
      · rw [hhi]
        omega
      · rw [hhi, hlo, List.length_take, List.length_drop]
        omega
      · rw [← List.length_pos_iff, List.length_take]
        omega
      · rw [← List.length_pos_iff, List.length_drop]
        omega
    rwa [List.take_append_drop] at hcarry

/-! ### What one call adds to the stream -/

section Extend

variable {emitted accepted out rest : List (List UInt8)}

/-- Frames of the message in progress go out. -/
theorem StreamOf.progress (h : StreamOf emitted accepted (out ++ rest)) :
    StreamOf (emitted ++ out) accepted rest := by
  obtain ⟨msgs, hall, hcarry, hlast⟩ := h
  refine ⟨msgs, by rwa [List.append_assoc], hcarry, ?_⟩
  rcases hlast with hnil | ⟨done, started, hmsgs, hne⟩
  · exact Or.inl (List.append_eq_nil_iff.mp hnil).2
  · refine Or.inr ⟨done, started ++ out, by rwa [List.append_assoc], ?_⟩
    exact fun h => hne (List.append_eq_nil_iff.mp h).1

/-- A new message starts behind complete ones. -/
theorem StreamOf.start {frame : List UInt8} {bytes : List UInt8}
    (h : StreamOf emitted accepted []) (hcarry : Carries (frame :: rest) bytes) :
    StreamOf (emitted ++ [frame]) (accepted ++ [bytes]) rest := by
  obtain ⟨msgs, hall, hcarries, -⟩ := h
  rw [List.append_nil] at hall
  refine ⟨msgs ++ [frame :: rest], ?_, ?_, ?_⟩
  · rw [hall, List.flatten_append, List.flatten_singleton, List.append_assoc, List.singleton_append]
  · exact List.rel_append hcarries (.cons hcarry .nil)
  · exact Or.inr ⟨msgs, [frame], rfl, List.cons_ne_nil _ _⟩

end Extend

/-- The calls and frames a transmitting node sees when nothing is received. -/
def TxOnly (rxId : UInt32) : Op → Prop
  | .rx f _ => IsCts rxId f
  | .send _ ret => ret = 0
  | .process _ ret => ret = 0
  | .setFd _ => False

/-- Every message that is not refused for its length is non-empty and starts when no
segmented one is in progress. -/
def SendsWhenFree (n : Node) : Op → Prop
  | .send data _ => data.bytes.length ≤ 1024 → ¬ n.Sending ∧ data.bytes ≠ []
  | _ => True

/-- The history of a node: its frames and accepted messages, and what is still unsent. -/
structure History (rxId : UInt32) (os : List Output) (n : Node) : Prop where
  canSend : n.iso.canSend = true
  rxId : n.iso.rxId = rxId
  tx : TxInv n
  stream : StreamOf (framesOf os) (acceptedOf os) (unsent n)

theorem send_history (rxBufferSize : UInt16) {rxId : UInt32} {os : List Output} {n : Node}
    {data : Sdu} (h : History rxId os n) (hfree : SendsWhenFree n (.send data 0)) :
    History rxId (os ++ (step rxBufferSize n (.send data 0)).2)
      (step rxBufferSize n (.send data 0)).1 := by
  by_cases hmax : data.bytes.length ≤ 1024
  · obtain ⟨hidle, hpos⟩ := hfree hmax
    have hstream := h.stream
    rw [unsent_of_not_sending hidle] at hstream
    have hcarry := segment_carries n.iso.useCanFd data hpos (by omega)
    by_cases hfit : FitsSf n.iso.useCanFd data
    · rw [segment, if_pos hfit] at hcarry
      simp only [step, isotpSend_short h.canSend hfit]
      refine ⟨h.canSend, h.rxId, h.tx, ?_⟩
      rw [unsent_of_not_sending hidle, framesOf_append, acceptedOf_append]
      exact hstream.start hcarry
    · obtain ⟨hunsent, htx⟩ := mfStarted_unsent n data hfit
      rw [← hunsent] at hcarry
      simp only [step, isotpSend_mf h.canSend hfit hmax]
      refine ⟨h.canSend, h.rxId, htx, ?_⟩
      rw [framesOf_append, acceptedOf_append]
      exact hstream.start hcarry
  · simp only [step, isotpSend_refused 0 (by omega : 1024 < data.bytes.length)]
    refine ⟨h.canSend, h.rxId, h.tx, ?_⟩
    rw [framesOf_append, acceptedOf_append]
    show StreamOf (framesOf os ++ []) (acceptedOf os ++ []) (unsent n)
    rw [List.append_nil, List.append_nil]
    exact h.stream

theorem step_history (rxBufferSize : UInt16) {rxId : UInt32} (os : List Output) (n : Node)
    (op : Op) (h : History rxId os n) (hop : TxOnly rxId op ∧ SendsWhenFree n op) :
    History rxId (os ++ (step rxBufferSize n op).2) (step rxBufferSize n op).1 := by
  obtain ⟨henv, hfree⟩ := hop
  obtain ⟨hrx, -, hcan⟩ := step_ids rxBufferSize n op
  cases op with
  | rx f ret =>
    have hcts : IsCts n.iso.rxId f := by
      rw [h.rxId]
      exact henv
    have hpaced : Paced n.iso.rxId (.rx f ret) := hcts
    obtain ⟨hall, htx⟩ := paced_step_conserves rxBufferSize h.tx h.canSend hpaced
    refine ⟨hcan.trans h.canSend, hrx.trans h.rxId, htx, ?_⟩
    have hstream := h.stream
    rw [← hall] at hstream
    have hnone : acceptedOf (step rxBufferSize n (.rx f ret)).2 = [] := by
      rw [cts_step rxBufferSize ret hcts]
      rfl
    rw [framesOf_append, acceptedOf_append, hnone, List.append_nil]
    exact hstream.progress
  | send data ret =>
    obtain rfl : ret = 0 := henv
    exact send_history rxBufferSize h hfree
  | process timeMs ret =>
    obtain rfl : ret = 0 := henv
    obtain ⟨hall, htx⟩ := process_conserves n timeMs h.tx h.canSend
    refine ⟨hcan.trans h.canSend, hrx.trans h.rxId, htx, ?_⟩
    have hstream := h.stream
    rw [← hall] at hstream
    have hnone : acceptedOf (tpIsotpProcess n timeMs 0).2 = [] := by
      generalize hr : tpIsotpProcess n timeMs 0 = r
      have heff := process_effect n timeMs 0
      rw [hr] at heff
      cases heff with
      | notSending | drained | early | blockEnd | sent => rfl
      | refused =>
        unfold tpSendFrame
        split_ifs <;> rfl
    rw [framesOf_append, acceptedOf_append]
    simp only [step, hnone, List.append_nil]
    exact hstream.progress
  | setFd enabled => exact absurd henv id

/-- In every run whose messages start only when the transmit slot is free, the emitted frames
are the accepted messages, one after the other. -/
theorem tx_stream_well_formed (rxBufferSize : UInt16) (n : Node) (ops : List Op)
    (hidle : ¬ n.Sending) (hc : n.iso.canSend = true)
    (henv : ∀ op ∈ ops, TxOnly n.iso.rxId op)
    (hfree : Along (step rxBufferSize) SendsWhenFree n ops) :
    WellFormedStream (framesOf (trace (step rxBufferSize) n ops))
      (acceptedOf (trace (step rxBufferSize) n ops)) := by
  have hinit : History n.iso.rxId [] n := by
    refine ⟨hc, rfl, fun hs => absurd hs hidle, [], ?_, .nil, Or.inl (unsent_of_not_sending hidle)⟩
    rw [unsent_of_not_sending hidle]
    rfl
  have hboth := hfree.and_forall henv
  exact ⟨_, (trace_invariant (step_history rxBufferSize) hinit hboth).stream⟩

def sixtyThreeBytes : Sdu := ⟨List.replicate 63 0x55, by decide⟩

def testerPresent : Sdu := ⟨[0x3E, 0x80], by decide⟩

/-- A segmented message and, once it is out, a Single Frame. -/
def orderlySends : List Op :=
  [.send eightBytes 0, .rx (ctsFrame 2 0 0) 0, .process 0 0, .send testerPresent 0]

theorem orderly_stream :
    WellFormedStream (framesOf (trace (step 0) (tpIsotpInit zeroNode true 1 2) orderlySends))
      (acceptedOf (trace (step 0) (tpIsotpInit zeroNode true 1 2) orderlySends)) := by
  refine tx_stream_well_formed 0 (tpIsotpInit zeroNode true 1 2) orderlySends (by decide) rfl ?_ ?_
  · simp only [orderlySends, List.forall_mem_cons, List.not_mem_nil, false_imp_iff, implies_true]
    exact ⟨rfl, ⟨rfl, rfl⟩, rfl, rfl, trivial⟩
  · exact ⟨fun _ => ⟨by decide, by decide⟩, trivial, trivial, fun _ => ⟨by decide, by decide⟩, trivial⟩

/-- A long message has a Consecutive Frame with number 1 behind its first frame. -/
theorem Carries.second_frame {msg : List (List UInt8)} {bytes : List UInt8} (h : Carries msg bytes)
    (hlong : 62 < bytes.length) :
    ∃ opening payload tail, msg = opening :: ((0x20 ||| 1) :: payload) :: tail := by
  cases h with
  | single _ h7 => omega
  | escape _ h62 => omega
  | segmented _ _ _ hrest hnum =>
    cases hnum with
    | done => exact absurd rfl hrest
    | next => exact ⟨_, _, _, rfl⟩

/-- A Single Frame sent while a segmented message waits for Flow Control. -/
def hastySends : List Op := [.send sixtyThreeBytes 0, .send testerPresent 0]

theorem hasty_stream_broken :
    ¬ WellFormedStream (framesOf (trace (step 0) (tpIsotpInit zeroNode true 1 2) hastySends))
      (acceptedOf (trace (step 0) (tpIsotpInit zeroNode true 1 2) hastySends)) := by
  rintro ⟨rest, msgs, hall, hcarry, -⟩
  have haccepted : acceptedOf (trace (step 0) (tpIsotpInit zeroNode true 1 2) hastySends) =
      [sixtyThreeBytes.bytes, testerPresent.bytes] := by decide
  have hframes : framesOf (trace (step 0) (tpIsotpInit zeroNode true 1 2) hastySends) =
      [ffFrame false sixtyThreeBytes, sfFrame testerPresent] := by decide
  rw [haccepted] at hcarry
  obtain ⟨msg, msgs, hmsg, -, rfl⟩ := List.forall₂_cons_right_iff.mp hcarry
  obtain ⟨opening, payload, tail, rfl⟩ := hmsg.second_frame (by decide)
  rw [hframes] at hall
  simp only [List.cons_append, List.flatten_cons, List.cons.injEq] at hall
  have hsecond : sfFrame testerPresent = (0x20 ||| 1) :: payload := hall.2.1
  have hhead : (sfFrame testerPresent).head? = some (0x20 ||| 1) := by rw [hsecond]; rfl
  exact absurd hhead (by decide)

end UdsLib.Isotp
