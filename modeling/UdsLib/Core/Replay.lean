import UdsLib.Core.Answers
import UdsLib.Core.BlockOrder
import UdsLib.Services.Ranges

/-! A block of a transfer that comes twice. The counter alone decides what becomes of a block, and 0
stands for the last counter of a transfer that has just started as well as for one that has wrapped. -/
namespace UdsLib.Core
open Bytes Machine Prog Services

variable {W : Type} {cfg : Config W} {d : Sdu} {s u : Sys W} {es : List Event} {n : ℕ}

/-- What becomes of a block. -/
inductive BlockFate where
  | handOver
  | confirm
  | refuse

/-- The counter that is expected behind `last`. -/
def nextCounter (last : UInt8) : UInt8 :=
  if last = 0 then 0x01 else if last = 0xFF then 0x00 else last + 1

/-- What the sequence check decides about the counter of a block. -/
def fateOf (cfg : Config W) (last counter : UInt8) : BlockFate :=
  if counter = nextCounter last then .handOver
  else if last ≠ 0 ∧ cfg.transferAcceptLastBlockReplay ∧ counter = last then .confirm
  else .refuse

/-- What the handler of the transfer does behind the sequence check. -/
def settleBlock (cfg : Config W) (d : Sdu) : BlockFate → M W ℤ
  | .handOver => transferBlock cfg d (d.byte 1)
  | .confirm => blockAccepted cfg (d.byte 1)
  | .refuse => sendNrc cfg sidTransferData nrcRequestSequenceError

/-- The request is answered positively with its own counter. The application does not see the block,
and the byte of the sequence stays. -/
structure Replayed (cfg : Config W) (s : Sys W) (d : Sdu) : Prop where
  confirmed : ∃ ret, .tpSend .response [sidTransferData + responseOffset, d.byte 1] ret ∈
    (step cfg s (.inputSdu (.bytes d))).2
  unhanded : handedOver (step cfg s (.inputSdu (.bytes d))).2 = []
  sequence : (step cfg s (.inputSdu (.bytes d))).1.ctx.flashSequence = s.ctx.flashSequence

/-! ### The sequence check -/

/-- The handler does what the sequence check decides. -/
theorem transferData_settles (hlen : 2 ≤ d.bytes.length) (hset : cfg.isSet .fnTransferData = true)
    (u : Sys W) : handleTransferData cfg d u =
      settleBlock cfg d (fateOf cfg u.ctx.flashSequence (d.byte 1)) u := by
  unfold handleTransferData
  rw [if_neg (not_len_lt (n := 2) hlen), if_neg (not_not_intro hset), byteAt_inside (by omega),
    pure_then]
  have hctx : (getCtx : M W Ctx) u = (u.ctx, u, []) := rfl
  rw [silent_then hctx]
  unfold fateOf nextCounter
  by_cases hzero : u.ctx.flashSequence = 0
  · rw [if_pos hzero, if_pos hzero]
    by_cases hfirst : d.byte 1 = 0x01
    · rw [if_pos hfirst, if_neg (not_not_intro hfirst)]
      rfl
    · rw [if_neg hfirst, if_pos hfirst, if_neg fun h => h.1 hzero]
      rfl
  · rw [if_neg hzero, if_neg hzero]
    by_cases hexpected : d.byte 1 = if u.ctx.flashSequence = 0xFF then 0x00 else u.ctx.flashSequence + 1
    · rw [if_pos hexpected, if_neg (not_not_intro hexpected)]
      rfl
    · rw [if_neg hexpected, if_pos hexpected]
      by_cases hagain : cfg.transferAcceptLastBlockReplay ∧ d.byte 1 = u.ctx.flashSequence
      · rw [if_pos hagain, if_pos ⟨hzero, hagain⟩]
        rfl
      · rw [if_neg hagain, if_neg fun h => hagain h.2]
        rfl

theorem nextCounter_toNat {last : UInt8} (h : last.toNat = n % 256) :
    (nextCounter last).toNat = (n + 1) % 256 :=
  next_counter h

/-- The counter of the last block is not the next one. -/
theorem fateOf_last (hreplay : cfg.transferAcceptLastBlockReplay = true) (last : UInt8) :
    fateOf cfg last last = if last = 0 then .refuse else .confirm := by
  have hlast : last.toNat = last.toNat % 256 := (Nat.mod_eq_of_lt last.toNat_lt).symm
  have hnext : last ≠ nextCounter last := by
    intro hsame
    have hcounter := nextCounter_toNat hlast
    rw [← hsame] at hcounter
    omega
  unfold fateOf
  rw [if_neg hnext]
  by_cases hzero : last = 0
  · rw [if_pos hzero, if_neg fun h => h.1 hzero]
  · rw [if_neg hzero, if_pos ⟨hzero, hreplay, rfl⟩]

/-- No block is handed over unless the sequence check says so. -/
theorem settleBlock_unmoved {fate : BlockFate} (h : fate ≠ .handOver) :
    Keeps Unmoved (settleBlock cfg d fate) := by
  cases fate with
  | handOver => exact absurd rfl h
  | confirm => exact respond_unmoved _ 2
  | refuse => exact sendNrc_unmoved _ _

/-! ### Accepted blocks -/

theorem blocksAfter_le (h : handedOver es = []) (n : ℕ) : blocksAfter n es ≤ n := by
  induction es generalizing n with
  | nil => exact Nat.le_refl n
  | cons e es ih =>
    have hnone := List.filterMap_eq_nil_iff.mp h
    have hrest : handedOver es = [] :=
      List.filterMap_eq_nil_iff.mpr fun a ha => hnone a (List.mem_cons_of_mem e ha)
    have hfirst : e.blocks n ≤ n := by
      have hblock := hnone e List.mem_cons_self
      unfold Event.blocks
      split
      · cases hblock
      · split_ifs <;> omega
      · split_ifs <;> omega
      · exact Nat.le_refl n
    exact (ih hrest _).trans hfirst

/-- A block is only handed to a callback that is not null. -/
theorem step_handed_set (op : Op W) (h : handedOver (step cfg s op).2 ≠ []) :
    cfg.isSet .fnTransferData = true := by
  by_contra hset
  apply h
  apply List.filterMap_eq_nil_iff.mpr
  intro e he
  cases e with
  | call c ret =>
    cases c with
    | transferData sequence data =>
      rcases step_call he with hconfigured | ⟨-, hperiodic⟩
      · exact absurd hconfigured hset
      · exact absurd hperiodic Bool.false_ne_true
    | _ => rfl
  | _ => rfl

theorem accepted_set {ops : List (Op W)} (h : 1 ≤ blocksAfter 0 (trace (step cfg) s ops)) :
    cfg.isSet .fnTransferData = true := by
  by_contra hset
  have hnone : handedOver (trace (step cfg) s ops) = [] := by
    apply List.filterMap_eq_nil_iff.mpr
    apply (forall_trace_iff (P := fun e : Event => e.block? = none)).mpr
    apply (Along.trivial s ops).mono
    intro t op _
    apply List.filterMap_eq_nil_iff.mp
    by_contra hhanded
    exact hset (step_handed_set op hhanded)
  have hzero := blocksAfter_le hnone 0
  omega

/-! ### The request -/

/-- The handler of the transfer is entered with the byte and the flag from before the request. -/
theorem servedBy_transfer {service : Service W} (h : servedBy cfg s d = some (service, u))
    (hsid : d.byte 0 = sidTransferData) :
    service = coreService sidTransferData 2 (handleTransferData cfg) none ∧
      u.ctx.flashSequence = s.ctx.flashSequence ∧
      u.ctx.suppressPosResp = s.ctx.suppressPosResp := by
  have hruns := servedBy_runs h
  obtain rfl := Option.some.inj (hruns.found (hruns.sid.trans hsid))
  rw [hruns.start, atHandler_ctx]
  unfold flagged
  rw [entered_ctx]
  exact ⟨rfl, rfl, rfl⟩

/-- A block with the counter of the last one is taken for a repetition unless this counter is 0. -/
theorem replayed_iff (hreplay : cfg.transferAcceptLastBlockReplay = true)
    (hset : cfg.isSet .fnTransferData = true) (hsid : d.byte 0 = sidTransferData)
    (hown : ∀ entry ∈ cfg.userServices, entry.sid ≠ d.byte 0)
    (hlast : d.byte 1 = s.ctx.flashSequence) :
    Replayed cfg s d ↔ d.byte 1 ≠ 0 ∧ (servedBy cfg s d).isSome ∧ 2 ≤ cfg.txBufferSize ∧
      s.ctx.suppressPosResp = false := by
  have hrun {service : Service W} {u : Sys W} (hserved : servedBy cfg s d = some (service, u)) :
      service.handler d u =
        settleBlock cfg d (if d.byte 1 = 0 then .refuse else .confirm) u := by
    obtain ⟨rfl, hsequence, -⟩ := servedBy_transfer hserved hsid
    have hsettles := transferData_settles (servedBy_runs hserved).length hset u
    rw [hsequence, ← hlast, fateOf_last hreplay] at hsettles
    exact hsettles
  have hreq : IsRequest s d := by
    apply isRequest_of_bit s
    all_goals
      rw [hsid]
      decide
  constructor
  · intro h
    obtain ⟨ret, hret⟩ := h.confirmed
    obtain ⟨service, u, hserved, data, ret', hsent⟩ := positive_served hreq hown ⟨_, ret, hret⟩
    have hflag := (servedBy_transfer hserved hsid).2.2
    unfold outputs at hsent
    rw [hrun hserved] at hsent
    by_cases hzero : d.byte 1 = 0
    · rw [if_pos hzero] at hsent
      exact absurd hsent (sendNrc_no_response data ret')
    rw [if_neg hzero] at hsent
    have hlen : [sidTransferData + responseOffset, d.byte 1].length = (2 : UInt16).toNat := rfl
    obtain ⟨faults, ret'', hfaults, houtputs⟩ := respond_answer cfg hlen u
    change Event.tpSend .response data ret' ∈
      (writeTx cfg 0 [sidTransferData + responseOffset, d.byte 1] >>= fun _ =>
        sendResponse cfg 2).outputs u at hsent
    rw [houtputs] at hsent
    rcases List.mem_append.mp hsent with hfault | hanswer
    · obtain ⟨f, hf⟩ := hfaults _ hfault
      cases hf
    split_ifs at hanswer with hfits hquiet
    · cases List.mem_singleton.mp hanswer
    · rw [hserved]
      exact ⟨hzero, rfl, hfits, hflag ▸ Bool.eq_false_iff.mpr hquiet⟩
    · cases hanswer
  · rintro ⟨hzero, hsome, hfits, hquiet⟩
    obtain ⟨⟨service, u⟩, hserved⟩ := Option.isSome_iff_exists.mp hsome
    obtain ⟨pre, post, hes, hpre, -, hpost, -⟩ := step_served hserved
    have hfate := hrun hserved
    rw [if_neg hzero] at hfate
    have hmid : Unmoved u ((service.handler d).outputs u) ((service.handler d).final u) := by
      unfold outputs final
      rw [hfate]
      have hconfirm : BlockFate.confirm ≠ .handOver := nofun
      exact settleBlock_unmoved hconfirm u
    have hall := unmoved_composable.trans hpre.unmoved
      (unmoved_composable.trans hmid hpost.unmoved)
    rw [← hes] at hall
    constructor
    · have hlen : [sidTransferData + responseOffset, d.byte 1].length = (2 : UInt16).toNat := rfl
      obtain ⟨faults, ret, -, houtputs⟩ := respond_answer cfg hlen u
      have hflag : u.ctx.suppressPosResp = false := (servedBy_transfer hserved hsid).2.2.trans hquiet
      rw [if_pos hfits, if_neg (Bool.eq_false_iff.mp hflag)] at houtputs
      have hhandler : (service.handler d).outputs u =
          faults ++ [.tpSend .response [sidTransferData + responseOffset, d.byte 1] ret] :=
        (congrArg (fun r : ℤ × Sys W × List Event => r.2.2) hfate).trans houtputs
      refine ⟨ret, ?_⟩
      rw [hes, hhandler]
      simp
    · exact hall.handed
    · exact hall.sequence

/-- The last block can be repeated, wherever the request reaches its handler and a positive response
goes out, unless the number of the accepted blocks is a multiple of 256. -/
theorem last_block_replay_iff (cfg : Config W) (hreplay : cfg.transferAcceptLastBlockReplay = true)
    (b : Sys W) (ops : List (Op W)) (d : Sdu) (hsid : d.byte 0 = sidTransferData)
    (hown : ∀ entry ∈ cfg.userServices, entry.sid ≠ d.byte 0) :
    let start := (udsInit cfg).final b
    let s := exec (step cfg) start ops
    let k := blocksAfter 0 (trace (step cfg) start ops)
    1 ≤ k → (d.byte 1).toNat = k % 256 →
      (Replayed cfg s d ↔ k % 256 ≠ 0 ∧ (servedBy cfg s d).isSome ∧ 2 ≤ cfg.txBufferSize ∧
        s.ctx.suppressPosResp = false) := by
  intro start s k hk hcounter
  have hcounted : Counted k s := run_counted cfg b ops
  have hlast : d.byte 1 = s.ctx.flashSequence := UInt8.toNat_inj.mp (hcounter.trans hcounted.symm)
  have hzero : d.byte 1 ≠ 0 ↔ k % 256 ≠ 0 := by
    rw [← hcounter]
    exact not_congr UInt8.toNat_inj.symm
  rw [replayed_iff hreplay (accepted_set hk) hsid hown hlast, hzero]

/-- Everything is configured, and the last block may be repeated. -/
def replayConfig : Config Unit := { fullConfig with transferAcceptLastBlockReplay := true }

/-- A block without data. -/
def blockMessage (counter : UInt8) : Sdu := ⟨[sidTransferData, counter], by simp⟩

/-- A request for a download, and 256 blocks. -/
def wholeCycle : List (Op Unit) :=
  .inputSdu (.bytes ⟨[sidRequestDownload, 0x00, 0x11, 0x80, 0x10], by decide⟩) ::
    (List.range 256).map fun i => .inputSdu (.bytes (blockMessage (UInt8.ofNat (i + 1))))

theorem firstBlock_replayed :
    let again : Sdu := ⟨[0x36, 0x01, 0xAA], by decide⟩
    Replayed replayConfig (exec (step replayConfig) (booted replayConfig) firstBlock) again := by
  intro again
  have h := last_block_replay_iff replayConfig rfl ⟨Ctx.zero, fun _ => 0, fun _ => 0, ()⟩ firstBlock again
    rfl nofun
  apply (h (by decide) (by decide)).mpr
  decide

/-- The last of 256 blocks is refused as out of sequence. -/
theorem wrapped_not_replayed :
    let s := exec (step replayConfig) (booted replayConfig) wholeCycle
    blocksAfter 0 (trace (step replayConfig) (booted replayConfig) wholeCycle) = 256 ∧
      sentOf (step replayConfig s (.inputSdu (.bytes (blockMessage 0x00)))).2 = [[0x7F, 0x36, 0x24]] ∧
      ¬ Replayed replayConfig s (blockMessage 0x00) := by
  intro s
  have hrun : blocksAfter 0 (trace (step replayConfig) (booted replayConfig) wholeCycle) = 256 ∧
      sentOf (step replayConfig s (.inputSdu (.bytes (blockMessage 0x00)))).2 = [[0x7F, 0x36, 0x24]] := by
    decide +kernel
  refine ⟨hrun.1, hrun.2, fun h => ?_⟩
  obtain ⟨ret, hret⟩ := h.confirmed
  have hsent : [sidTransferData + responseOffset, 0x00] ∈
      sentOf (step replayConfig s (.inputSdu (.bytes (blockMessage 0x00)))).2 :=
    List.mem_filterMap.mpr ⟨_, hret, rfl⟩
  rw [hrun.2] at hsent
  exact absurd hsent (by decide)
end UdsLib.Core
