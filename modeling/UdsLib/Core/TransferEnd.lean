import UdsLib.Core.Replay

/-! The end of a transfer. The stack keeps no record of it: behind a RequestTransferExit a block is
treated as it would have been before, so only its counter tells whether it goes to the application. -/
namespace UdsLib.Core
open Bytes Machine Prog Services

variable {W : Type} {cfg : Config W} {d : Sdu} {s u : Sys W} {es fs : List Event} {n : ℕ}

/-- Whether the last transfer is finished, behind an event: a positive response to a
RequestTransferExit finishes it, and one to a request for a download or an upload opens another. -/
def Event.finishes (finished : Bool) : Event → Bool
  | .tpSend .response data _ =>
    if data.head? = some (sidTransferExit + responseOffset) then true
    else if data.head? = some (sidRequestDownload + responseOffset) ∨
        data.head? = some (sidRequestUpload + responseOffset) then false
    else finished
  | _ => finished

/-- Whether the last transfer is finished behind these events. -/
def finishedAfter (es : List Event) : Bool := es.foldl Event.finishes false

/-- The block of the request goes nowhere and is answered with a negative response. -/
structure StaysFinished (cfg : Config W) (s : Sys W) (d : Sdu) : Prop where
  unhanded : handedOver (step cfg s (.inputSdu (.bytes d))).2 = []
  negative : ∃ nrc ret, nrc ≠ nrcResponsePending ∧
    .tpSend .nrc [nrcServiceNotSuppInSess, d.byte 0, nrc] ret ∈ (step cfg s (.inputSdu (.bytes d))).2
  noPositive : ∀ data ret, .tpSend .response data ret ∉ (step cfg s (.inputSdu (.bytes d))).2

/-- The counter of the block is the next one behind `n` accepted blocks, or it is the last one and the
setting allows the repetition. -/
def Continues (cfg : Config W) (n : ℕ) (d : Sdu) : Prop :=
  (d.byte 1).toNat = (n + 1) % 256 ∨
    cfg.transferAcceptLastBlockReplay = true ∧ n % 256 ≠ 0 ∧ (d.byte 1).toNat = n % 256

/-- The request reaches the handler, which has its callback. -/
def ReachesTransfer (cfg : Config W) (s : Sys W) (d : Sdu) : Prop :=
  (servedBy cfg s d).isSome = true ∧ cfg.isSet .fnTransferData = true

/-! ### The counter -/

/-- The sequence check refuses a block unless it continues the accepted ones. -/
theorem fateOf_counted (hs : Counted n s) :
    (Continues cfg n d → fateOf cfg s.ctx.flashSequence (d.byte 1) ≠ .refuse) ∧
      (¬ Continues cfg n d → fateOf cfg s.ctx.flashSequence (d.byte 1) = .refuse) := by
  have hnext : d.byte 1 = nextCounter s.ctx.flashSequence ↔ (d.byte 1).toNat = (n + 1) % 256 := by
    rw [← nextCounter_toNat hs]
    exact UInt8.toNat_inj.symm
  have hlast : d.byte 1 = s.ctx.flashSequence ↔ (d.byte 1).toNat = n % 256 := by
    rw [← hs]
    exact UInt8.toNat_inj.symm
  have hstarted : s.ctx.flashSequence ≠ 0 ↔ n % 256 ≠ 0 := by
    rw [← hs]
    exact not_congr UInt8.toNat_inj.symm
  have hcontinues : Continues cfg n d ↔ d.byte 1 = nextCounter s.ctx.flashSequence ∨
      s.ctx.flashSequence ≠ 0 ∧ cfg.transferAcceptLastBlockReplay ∧
        d.byte 1 = s.ctx.flashSequence := by
    unfold Continues
    rw [hnext, hlast, hstarted, and_left_comm]
  rw [hcontinues]
  unfold fateOf
  split_ifs with hfirst hagain
  · simp [hfirst]
  · simp [hagain]
  · simp [hfirst, hagain]

/-! ### Answers that refuse -/

/-- A negative response other than NRC 0x78 is sent for the service `sid`. -/
def Denies (sid : UInt8) (es : List Event) : Prop :=
  ∃ nrc ret, nrc ≠ nrcResponsePending ∧ .tpSend .nrc [nrcServiceNotSuppInSess, sid, nrc] ret ∈ es

theorem denies_append {sid : UInt8} : Denies sid (es ++ fs) ↔ Denies sid es ∨ Denies sid fs := by
  unfold Denies
  simp only [List.mem_append, and_or_left, exists_or]

theorem sendNrc_denies {sid nrc : UInt8} (htx : 3 ≤ cfg.txBufferSize) (hnrc : nrc ≠ nrcResponsePending)
    (s : Sys W) : Denies sid ((sendNrc cfg sid nrc).outputs s) := by
  obtain ⟨faults, hfaults, ret, houtputs⟩ := sendNrc_outputs cfg sid nrc s
  rw [houtputs, if_pos htx]
  exact ⟨nrc, ret, hnrc, by simp⟩

theorem unsent_not_denies {sid : UInt8} (h : ∀ e ∈ es, Unsent cfg d e) : ¬ Denies sid es := by
  rintro ⟨nrc, ret, -, he⟩
  exact absurd (h _ he).no_nrc nofun

theorem deferring_not_denies {sid : UInt8} (h : ∀ e ∈ es, Deferring cfg d e) : ¬ Denies sid es := by
  rintro ⟨nrc, ret, hnrc, he⟩
  obtain ⟨-, -, sid', hdata⟩ := (h _ he).2 _ rfl
  simp only [List.cons.injEq] at hdata
  exact hnrc hdata.2.2.1

theorem Check.nrc_final (check : Check) : check.nrc ≠ nrcResponsePending := by
  cases check with
  | _ => decide

theorem refusalOf_final {nrc : UInt8} (h : refusalOf cfg s d = some nrc) :
    nrc ≠ nrcResponsePending := by
  unfold refusalOf at h
  split_ifs at h
  · obtain rfl := Option.some.inj h
    decide
  · obtain ⟨check, -, rfl⟩ := Option.map_eq_some_iff.mp h
    exact check.nrc_final

/-! ### The request -/

/-- A request that the stack refuses around the handlers hands nothing over. -/
theorem refused_stays {nrc : UInt8} (hreq : IsRequest s d) (htx : 3 ≤ cfg.txBufferSize)
    (h : refusalOf cfg s d = some nrc) : StaysFinished cfg s d := by
  obtain ⟨pre, t, post, hes, hpre, hpost⟩ := step_refused hreq h
  have hidle (es : List Event) (hun : ∀ e ∈ es, Unsent cfg d e) : handedOver es = [] :=
    List.filterMap_eq_nil_iff.mpr fun e he => (hun e he).1.idle.block
  constructor
  · rw [hes, handedOver_append, handedOver_append, hidle pre hpre, hidle post hpost,
      (sendNrc_unmoved (d.byte 0) nrc t).handed]
    rfl
  · change Denies (d.byte 0) (step cfg s (.inputSdu (.bytes d))).2
    rw [hes, denies_append, denies_append]
    exact .inr (.inl (sendNrc_denies htx (refusalOf_final h) t))
  · exact (refused_declined hreq htx h).noPositive

/-- A request whose handler does nothing but refuse hands nothing over. -/
theorem denied_stays {nrc : UInt8} {service : Service W} (htx : 3 ≤ cfg.txBufferSize)
    (hnrc : nrc ≠ nrcResponsePending) (hserved : servedBy cfg s d = some (service, u))
    (h : service.handler d u = sendNrc cfg (d.byte 0) nrc u) : StaysFinished cfg s d := by
  obtain ⟨pre, post, hes, hout, hpre, hout', hpost⟩ := step_served hserved
  have hmid : (service.handler d).outputs u = (sendNrc cfg (d.byte 0) nrc).outputs u :=
    congrArg (fun r : ℤ × Sys W × List Event => r.2.2) h
  rw [hmid] at hes
  constructor
  · rw [hes, handedOver_append, handedOver_append, hout.unmoved.handed, hout'.unmoved.handed,
      (sendNrc_unmoved (d.byte 0) nrc u).handed]
    rfl
  · change Denies (d.byte 0) (step cfg s (.inputSdu (.bytes d))).2
    rw [hes, denies_append, denies_append]
    exact .inr (.inl (sendNrc_denies htx hnrc u))
  · intro data ret he
    rw [hes, List.mem_append, List.mem_append] at he
    rcases he with he | he | he
    · exact (hpre _ he).no_response data ret rfl
    · exact sendNrc_no_response data ret he
    · exact (hpost _ he).no_response data ret rfl

/-- A block that continues the accepted ones is handed over or confirmed. -/
theorem continues_goes_on (hs : Counted n s) (hsid : d.byte 0 = sidTransferData)
    (hreaches : ReachesTransfer cfg s d) (h : Continues cfg n d) : ¬ StaysFinished cfg s d := by
  intro hstays
  obtain ⟨⟨service, u⟩, hserved⟩ := Option.isSome_iff_exists.mp hreaches.1
  obtain ⟨rfl, hsequence, -⟩ := servedBy_transfer hserved hsid
  have hsettles := transferData_settles (servedBy_runs hserved).length hreaches.2 u
  rw [hsequence] at hsettles
  obtain ⟨pre, post, hes, -, hpre, -, hpost⟩ := step_served hserved
  have hmid : (handleTransferData cfg d).outputs u =
      (settleBlock cfg d (fateOf cfg s.ctx.flashSequence (d.byte 1))).outputs u :=
    congrArg (fun r : ℤ × Sys W × List Event => r.2.2) hsettles
  change _ = pre ++ ((handleTransferData cfg d).outputs u ++ post) at hes
  rw [hmid] at hes
  cases hfate : fateOf cfg s.ctx.flashSequence (d.byte 1) with
  | handOver =>
    rw [hfate] at hes
    have hblock : blockOf d ∈ handedOver ((transferBlock cfg d (d.byte 1)).outputs u) :=
      List.mem_filterMap.mpr ⟨_, List.mem_cons_self, rfl⟩
    have hall : blockOf d ∈ handedOver (step cfg s (.inputSdu (.bytes d))).2 := by
      rw [hes, handedOver_append, handedOver_append]
      exact List.mem_append_right _ (List.mem_append_left _ hblock)
    rw [hstays.unhanded] at hall
    cases hall
  | confirm =>
    rw [hfate] at hes
    have hnegative : Denies (d.byte 0) (step cfg s (.inputSdu (.bytes d))).2 := hstays.negative
    rw [hes, denies_append, denies_append, or_iff_right (unsent_not_denies hpre),
      or_iff_left (deferring_not_denies hpost)] at hnegative
    obtain ⟨nrc, ret, -, he⟩ := hnegative
    rcases List.mem_append.mp he with hfault | hanswer
    · obtain ⟨f, hf⟩ := writeTx_faults u hfault
      cases hf
    · exact absurd (sendResponse_no_nrc 2 _ _ hanswer) nofun
  | refuse => exact (fateOf_counted hs).1 h hfate

/-- Any other block is refused. -/
theorem discontinued_stays (hs : Counted n s) (hsid : d.byte 0 = sidTransferData)
    (htx : 3 ≤ cfg.txBufferSize) {service : Service W} (hserved : servedBy cfg s d = some (service, u))
    (h : ¬ (ReachesTransfer cfg s d ∧ Continues cfg n d)) : StaysFinished cfg s d := by
  have hsome : (servedBy cfg s d).isSome = true := by rw [hserved]; rfl
  obtain ⟨hservice, hsequence, -⟩ := servedBy_transfer hserved hsid
  have hlen : 2 ≤ d.bytes.length := by
    have hlen := (servedBy_runs hserved).length
    rw [hservice] at hlen
    exact hlen
  have hhandler : service.handler d = handleTransferData cfg d := by rw [hservice]; rfl
  by_cases hset : cfg.isSet .fnTransferData = true
  · have hrefuse := (fateOf_counted (d := d) hs).2 fun hcontinues => h ⟨⟨hsome, hset⟩, hcontinues⟩
    have hsettles := transferData_settles hlen hset u
    rw [hsequence, hrefuse, ← hhandler] at hsettles
    have hdeny : service.handler d u = sendNrc cfg (d.byte 0) nrcRequestSequenceError u := by
      rw [hsid]
      exact hsettles
    exact denied_stays htx (by decide) hserved hdeny
  · have hdeny : service.handler d u = sendNrc cfg (d.byte 0) nrcConditionsNotCorrect u := by
      rw [hhandler, hsid]
      unfold handleTransferData
      rw [if_neg (not_len_lt (n := 2) hlen), if_pos hset]
    exact denied_stays htx (by decide) hserved hdeny

/-- Behind any run from `uds_init`, finished transfer or not, a transfer request hands nothing over
and is answered with a negative response unless it reaches its handler and continues the accepted
blocks. -/
theorem run_stays_iff (cfg : Config W) (b : Sys W) (ops : List (Op W))
    (hsid : d.byte 0 = sidTransferData) (hown : ∀ entry ∈ cfg.userServices, entry.sid ≠ d.byte 0) :
    let start := (udsInit cfg).final b
    let s := exec (step cfg) start ops
    let es := trace (step cfg) start ops
    StaysFinished cfg s d ↔ 3 ≤ cfg.txBufferSize ∧
      ¬ (ReachesTransfer cfg s d ∧ Continues cfg (blocksAfter 0 es) d) := by
  intro start s es
  have hcounted : Counted (blocksAfter 0 es) s := run_counted cfg b ops
  have hreq : IsRequest s d := by
    apply isRequest_of_bit s
    all_goals
      rw [hsid]
      decide
  constructor
  · intro h
    obtain ⟨nrc, ret, -, hsent⟩ := h.negative
    refine ⟨request_nrc_room hreq hown hsent rfl, fun hgoes => ?_⟩
    exact continues_goes_on hcounted hsid hgoes.1 hgoes.2 h
  · rintro ⟨htx, hstops⟩
    cases href : refusalOf cfg s d with
    | some nrc => exact refused_stays hreq htx href
    | none =>
      obtain ⟨service, u, hserved⟩ := served_of_unrefused hreq hown href
      exact discontinued_stays hcounted hsid htx hserved hstops

/-- A finished transfer stays finished but for the blocks that continue it: behind any run from
`uds_init` in which the last transfer is finished, a transfer request hands nothing over and is answered
with a negative response unless it reaches its handler and continues the accepted blocks. The stack
does not look whether the transfer is finished, so this is the case of `run_stays_iff` that the end of
a transfer asks for. -/
theorem finished_transfer_iff (cfg : Config W) (b : Sys W) (ops : List (Op W)) (d : Sdu)
    (hsid : d.byte 0 = sidTransferData) (hown : ∀ entry ∈ cfg.userServices, entry.sid ≠ d.byte 0) :
    let start := (udsInit cfg).final b
    let s := exec (step cfg) start ops
    let es := trace (step cfg) start ops
    finishedAfter es = true →
      (StaysFinished cfg s d ↔ 3 ≤ cfg.txBufferSize ∧
        ¬ (ReachesTransfer cfg s d ∧ Continues cfg (blocksAfter 0 es) d)) :=
  fun _ => run_stays_iff cfg b ops hsid hown

/-- A transfer of one block, and its end. -/
def oneBlock : List (Op Unit) := firstBlock ++ [.inputSdu (.bytes ⟨[0x37], by decide⟩)]

theorem first_block_again :
    StaysFinished fullConfig (exec (step fullConfig) (booted fullConfig) oneBlock)
      ⟨[0x36, 0x01, 0xAA], by decide⟩ := by
  have h := finished_transfer_iff fullConfig ⟨Ctx.zero, fun _ => 0, fun _ => 0, ()⟩ oneBlock
    ⟨[0x36, 0x01, 0xAA], by decide⟩ rfl nofun
  have hone : blocksAfter 0 (trace (step fullConfig) (booted fullConfig) oneBlock) = 1 := by decide
  apply (h (by decide)).mpr
  refine ⟨by decide, fun hgoes => ?_⟩
  change _ ∧ Continues fullConfig
    (blocksAfter 0 (trace (step fullConfig) (booted fullConfig) oneBlock)) _ at hgoes
  rw [hone] at hgoes
  rcases hgoes.2 with hnext | ⟨hreplay, -⟩
  · exact absurd hnext (by decide)
  · cases hreplay

/-- Behind the end, the block with the next counter is handed over and accepted. -/
theorem second_block_accepted :
    let s := exec (step fullConfig) (booted fullConfig) oneBlock
    sentOf (trace (step fullConfig) (booted fullConfig) oneBlock) =
        [[0x74, 0x20, 0x00, 0x00, 0x04, 0x00], [0x76, 0x01], [0x77]] ∧
      finishedAfter (trace (step fullConfig) (booted fullConfig) oneBlock) = true ∧
      handedOver (step fullConfig s (.inputSdu (.bytes secondBlock))).2 = [(0x02, ⟨2, 1, [0xBB]⟩)] ∧
      sentOf (step fullConfig s (.inputSdu (.bytes secondBlock))).2 = [[0x76, 0x02]] ∧
      ¬ StaysFinished fullConfig s secondBlock := by
  intro s
  have hhanded : handedOver (step fullConfig s (.inputSdu (.bytes secondBlock))).2 =
    [(0x02, ⟨2, 1, [0xBB]⟩)] := by decide
  refine ⟨by decide, by decide, hhanded, by decide, fun h => ?_⟩
  have hnone := h.unhanded
  rw [hhanded] at hnone
  cases hnone

end UdsLib.Core
