import UdsLib.Core.RequestBounds
import UdsLib.Core.Persistence

/-! The order of the blocks of a transfer. The byte `flash_sequence` is the number of the blocks that
were accepted since the last reset point, as far as a byte can tell. -/
namespace UdsLib.Core
open Bytes Machine Prog Services

variable {W : Type} {cfg : Config W} {d : Sdu} {s t u : Sys W} {es fs : List Event} {n : ℕ}

/-- The blocks accepted since the last reset point, behind an event. Reset points are the accepted
requests for a download or an upload. -/
def Event.blocks (n : ℕ) : Event → ℕ
  | .call (.transferData _ _) ret => if ret < 0 then n else n + 1
  | .call (.requestDownload _ _) ret => if ret < 0 then n else 0
  | .call (.requestUpload _ _) ret => if ret < 0 then n else 0
  | _ => n

/-- The blocks accepted since the last reset point, behind `n` and these events. -/
def blocksAfter (n : ℕ) (es : List Event) : ℕ := es.foldl Event.blocks n

/-- The counter and the data of a block that is handed to `fn_transfer_data`. -/
def Event.block? : Event → Option (UInt8 × Slice)
  | .call (.transferData sequence data) _ => some (sequence, data)
  | _ => none

/-- The blocks handed to `fn_transfer_data`, in order. -/
def handedOver (es : List Event) : List (UInt8 × Slice) := es.filterMap Event.block?

/-- The block that a message brings. -/
def blockOf (d : Sdu) : UInt8 × Slice := (d.byte 1, d.slice 2 (d.len - 2).toNat)

/-- Behind `n` accepted blocks at most one more is handed over. It is the block of the message, and
its counter is the next one. -/
def NextBlock (n : ℕ) (op : Op W) (blocks : List (UInt8 × Slice)) : Prop :=
  blocks = [] ∨ ∃ d, op = .inputSdu (.bytes d) ∧ d.byte 0 = sidTransferData ∧ blocks = [blockOf d] ∧
    (d.byte 1).toNat = (n + 1) % 256

/-- A message that reaches the handler of the transfer, when its callback is set, has its block handed
over if the counter is the next one behind `n` accepted blocks. -/
def TakesNext (cfg : Config W) (s : Sys W) (n : ℕ) (op : Op W) : Prop :=
  ∀ d service u v es, op = .inputSdu (.bytes d) → Runs cfg s d service u v es →
    service.sid = sidTransferData → cfg.isSet .fnTransferData = true →
      (d.byte 1).toNat = (n + 1) % 256 → blockOf d ∈ handedOver (step cfg s op).2

/-- The byte of the context and the number of accepted blocks agree. -/
def Counted (n : ℕ) (s : Sys W) : Prop := s.ctx.flashSequence.toNat = n % 256

/-- What the transfer of a block does. -/
structure Moved (d : Sdu) (n : ℕ) (es : List Event) (t : Sys W) : Prop where
  counted : Counted (blocksAfter n es) t
  handed : handedOver es = [] ∨ handedOver es = [blockOf d] ∧ (d.byte 1).toNat = (n + 1) % 256

/-! ### Events that do not count -/

theorem blocksAfter_append (n : ℕ) (es fs : List Event) :
    blocksAfter n (es ++ fs) = blocksAfter (blocksAfter n es) fs :=
  List.foldl_append ..

theorem handedOver_append (es fs : List Event) :
    handedOver (es ++ fs) = handedOver es ++ handedOver fs :=
  List.filterMap_append ..

/-- The event leaves the number alone and hands no block over. -/
structure Event.Idle (e : Event) : Prop where
  blocks : ∀ n, Event.blocks n e = n
  block : e.block? = none

/-- The byte stays, and no event counts. -/
structure Unmoved (s : Sys W) (es : List Event) (t : Sys W) : Prop where
  sequence : t.ctx.flashSequence = s.ctx.flashSequence
  events : ∀ e ∈ es, e.Idle

theorem unmoved_composable : Composable (Unmoved (W := W)) where
  refl _ := ⟨rfl, nofun⟩
  trans h hnext := by
    constructor
    · exact hnext.sequence.trans h.sequence
    · exact List.forall_mem_append.mpr ⟨h.events, hnext.events⟩

theorem Unmoved.single {e : Event} (hsequence : t.ctx.flashSequence = s.ctx.flashSequence)
    (he : e.Idle) : Unmoved s [e] t :=
  ⟨hsequence, fun _ hx => List.mem_singleton.mp hx ▸ he⟩

theorem Unmoved.blocks (h : Unmoved s es t) (n : ℕ) : blocksAfter n es = n := by
  have hevents := h.events
  unfold blocksAfter
  clear h
  induction es with
  | nil => rfl
  | cons e es ih =>
    obtain ⟨he, hrest⟩ := List.forall_mem_cons.mp hevents
    rw [List.foldl_cons, he.blocks]
    exact ih hrest

theorem Unmoved.handed (h : Unmoved s es t) : handedOver es = [] :=
  List.filterMap_eq_nil_iff.mpr fun e he => (h.events e he).block

theorem Unmoved.counted (h : Unmoved s es t) (hs : Counted n s) : Counted n t := by
  unfold Counted
  rw [h.sequence]
  exact hs

theorem Unmoved.moved (h : Unmoved s es t) (hs : Counted n s) : Moved d n es t := by
  constructor
  · rw [h.blocks]
    exact h.counted hs
  · exact .inl h.handed

theorem Moved.after (h : Unmoved s es t) (hnext : Moved d n fs u) : Moved d n (es ++ fs) u := by
  constructor
  · rw [blocksAfter_append, h.blocks]
    exact hnext.counted
  · rw [handedOver_append, h.handed]
    exact hnext.handed

theorem Moved.before (h : Moved d n es t) (hnext : Unmoved t fs u) : Moved d n (es ++ fs) u := by
  constructor
  · rw [blocksAfter_append, hnext.blocks]
    exact hnext.counted h.counted
  · rw [handedOver_append, hnext.handed, List.append_nil]
    exact h.handed

theorem Surround.idle {e : Event} (he : Surround cfg d e) : e.Idle := by
  cases e with
  | call c ret =>
    rcases he.2 with hlock | ⟨level, msg, rfl⟩ | ⟨sid, rfl⟩
    · cases c with
      | mutexLock => exact ⟨fun _ => rfl, rfl⟩
      | mutexUnlock => exact ⟨fun _ => rfl, rfl⟩
      | _ => exact absurd hlock Bool.false_ne_true
    · exact ⟨fun _ => rfl, rfl⟩
    · exact ⟨fun _ => rfl, rfl⟩
  | _ => exact ⟨fun _ => rfl, rfl⟩

theorem Outside.unmoved (h : Outside cfg d s es t) : Unmoved s es t :=
  ⟨congrArg Store.flashSequence h.store, fun e he => (h.events e he).idle⟩

/-! ### The handlers -/

section Handlers

variable {α : Type}

/-- Wherever the byte and the number agree, the program transfers a block. -/
def Moves (d : Sdu) (n : ℕ) (m : M W α) : Prop :=
  ∀ s, Counted n s → Moved d n (m.outputs s) (m.final s)

theorem moves_idle {m : M W α} (hm : Keeps Unmoved m) : Moves d n m :=
  fun s hs => (hm s).moved hs

theorem moves_after {m : M W α} {f : α → M W ℤ} (hm : Keeps Unmoved m)
    (hf : ∀ s, Moves d n (f (m.value s))) : Moves d n (m >>= f) := by
  intro s hs
  exact Moved.after (hm s) (hf s _ ((hm s).counted hs))

theorem moves_ite {p : Prop} [Decidable p] {m m' : M W ℤ} (hm : p → Moves d n m)
    (hm' : ¬ p → Moves d n m') : Moves d n (if p then m else m') := by
  split_ifs with h
  · exact hm h
  · exact hm' h

theorem byteAt_unmoved (i : ℕ) : Keeps (Unmoved (W := W)) (byteAt d i) := by
  intro s
  refine ⟨rfl, fun e he => ?_⟩
  obtain ⟨f, rfl⟩ := byteAt_faults s he
  exact ⟨fun _ => rfl, rfl⟩

theorem writeTx_unmoved (off : ℕ) (bs : List UInt8) : Keeps Unmoved (writeTx cfg off bs) := by
  intro s
  refine ⟨rfl, fun e he => ?_⟩
  obtain ⟨f, rfl⟩ := writeTx_faults s he
  exact ⟨fun _ => rfl, rfl⟩

theorem sendNrc_unmoved (sid nrc : UInt8) : Keeps Unmoved (sendNrc cfg sid nrc) :=
  fun s => (sendNrc_outside (d := noMessage) sid nrc s).unmoved

theorem sendResponse_unmoved (len : UInt16) : Keeps Unmoved (sendResponse cfg len) :=
  fun s => (sendResponse_outside (d := noMessage) len s).unmoved

theorem respond_unmoved (bs : List UInt8) (len : UInt16) :
    Keeps Unmoved (writeTx cfg 0 bs >>= fun _ => sendResponse cfg len) :=
  unmoved_composable.bind (writeTx_unmoved 0 bs) fun _ => sendResponse_unmoved len

theorem parseAddrLen_unmoved (off : ℕ) (len : UInt16) (format : UInt8) :
    Keeps (Unmoved (W := W)) (parseAddrLen d off len format) := by
  have hR : Composable (Unmoved (W := W)) := unmoved_composable
  have hbe (off n : ℕ) : Keeps (Unmoved (W := W)) (readBe d off n) := by
    induction n with
    | zero => exact hR.refl
    | succ n ih =>
      apply hR.bind ih
      intro _
      exact hR.bind (byteAt_unmoved _) fun _ => hR.refl
  apply Keeps.ite
  · exact fun _ => hR.refl
  intro _
  apply Keeps.ite
  · exact fun _ => hR.refl
  intro _
  apply hR.bind (hbe _ _)
  intro _
  exact hR.bind (hbe _ _) fun _ => hR.refl

/-- What goes on with the reply to a call. -/
theorem moves_call {call : Call} {f : Reply → M W ℤ}
    (hf : ∀ (reply : Reply) (v : Sys W), Counted n v →
      Moved d n (.call call reply.ret :: (f reply).outputs v) ((f reply).final v)) :
    Moves d n (invoke cfg call >>= f) :=
  fun s hs => hf (cfg.app s.ctx call s.world).1 ((invoke cfg call).final s) hs

/-- A call that opens a transfer is a reset point when it is accepted. -/
theorem moves_open {call : Call} (sid : UInt8) (hblock : ∀ ret, (Event.call call ret).block? = none)
    (hblocks : ∀ n ret, Event.blocks n (.call call ret) = if ret < 0 then n else 0) :
    Moves d n (invoke cfg call >>= fun reply =>
      if reply.ret < 0 then sendNrc cfg sid (nrcOf reply.ret) else transferAccepted cfg sid) := by
  apply moves_call
  intro reply v hv
  split_ifs with hret
  · have hrefused : Unmoved v [.call call reply.ret] v :=
      .single rfl ⟨fun n => (hblocks n reply.ret).trans (if_pos hret), hblock reply.ret⟩
    exact Moved.after hrefused ((sendNrc_unmoved sid _ v).moved hv)
  · let w : Sys W := { v with ctx := { v.ctx with flashSequence := 0 } }
    have hdone : Unmoved w ((transferAccepted cfg sid).outputs v)
        ((transferAccepted cfg sid).final v) := respond_unmoved _ 6 w
    have hreset : Moved d n [.call call reply.ret] w := by
      constructor
      · change Counted (Event.blocks n (.call call reply.ret)) w
        rw [hblocks, if_neg hret]
        rfl
      · left
        unfold handedOver
        rw [List.filterMap_cons, hblock]
        rfl
    exact hreset.before hdone

theorem requestDownload_moves : Moves d n (handleRequestDownload cfg d) := by
  have hdeny (nrc : UInt8) : Moves d n (sendNrc cfg sidRequestDownload nrc) :=
    moves_idle (sendNrc_unmoved _ nrc)
  apply moves_ite (fun _ => hdeny _)
  intro _
  apply moves_after (byteAt_unmoved 2)
  intro s
  apply moves_ite (fun _ => hdeny _)
  intro _
  apply moves_after (parseAddrLen_unmoved _ _ _)
  intro t
  split
  · apply moves_ite (fun _ => hdeny _)
    intro _
    exact moves_open _ (fun _ => rfl) fun _ _ => rfl
  · exact hdeny _

theorem requestUpload_moves : Moves d n (handleRequestUpload cfg d) := by
  have hdeny (nrc : UInt8) : Moves d n (sendNrc cfg sidRequestUpload nrc) :=
    moves_idle (sendNrc_unmoved _ nrc)
  apply moves_ite (fun _ => hdeny _)
  intro _
  apply moves_after (byteAt_unmoved 2)
  intro s
  apply moves_after (parseAddrLen_unmoved _ _ _)
  intro t
  split
  · apply moves_ite (fun _ => hdeny _)
    intro _
    exact moves_open _ (fun _ => rfl) fun _ _ => rfl
  · exact hdeny _

/-- The block that the sequence check lets pass is handed over. -/
theorem transferBlock_moves (hnext : (d.byte 1).toNat = (n + 1) % 256) :
    Moves d n (transferBlock cfg d (d.byte 1)) := by
  let call := Call.transferData (d.byte 1) (d.slice 2 (d.len - 2).toNat)
  apply moves_call
  intro reply v hv
  have hblocks : Event.blocks n (.call call reply.ret) = if reply.ret < 0 then n else n + 1 := rfl
  split_ifs with hret
  · have hrefused : Moved d n [.call call reply.ret] v := by
      constructor
      · change Counted (Event.blocks n (.call call reply.ret)) v
        rw [hblocks, if_pos hret]
        exact hv
      · exact .inr ⟨rfl, hnext⟩
    exact hrefused.before (sendNrc_unmoved sidTransferData (nrcOf reply.ret) v)
  · let w : Sys W := { v with ctx := { v.ctx with flashSequence := d.byte 1 } }
    have haccepted : Moved d n [.call call reply.ret] w := by
      constructor
      · change Counted (Event.blocks n (.call call reply.ret)) w
        rw [hblocks, if_neg hret]
        exact hnext
      · exact .inr ⟨rfl, hnext⟩
    exact haccepted.before (respond_unmoved _ 2 w)

/-- Both readings of the byte, no block yet and a block behind the wrap, ask for the same counter. -/
theorem next_counter {last : UInt8} (h : last.toNat = n % 256) :
    (if last = 0 then (0x01 : UInt8) else if last = 0xFF then 0x00 else last + 1).toNat =
      (n + 1) % 256 := by
  split_ifs with hzero hlast
  · rw [hzero] at h
    have hzero' : (0 : UInt8).toNat = 0 := rfl
    have hone : (0x01 : UInt8).toNat = 1 := rfl
    omega
  · rw [hlast] at h
    have hlast' : (0xFF : UInt8).toNat = 255 := rfl
    have hwrap : (0x00 : UInt8).toNat = 0 := rfl
    omega
  · have hne : last.toNat ≠ 255 := fun hsame => hlast (UInt8.toNat_inj.mp hsame)
    have hone : (1 : UInt8).toNat = 1 := rfl
    rw [UInt8.toNat_add, h]
    omega

/-- The sequence check, for the last counter `last`. -/
theorem checkBlock_moves {last : UInt8} (hlast : last.toNat = n % 256) : Moves d n
    (if last = 0 then
      if d.byte 1 ≠ 0x01 then sendNrc cfg sidTransferData nrcRequestSequenceError
      else transferBlock cfg d (d.byte 1)
    else if d.byte 1 ≠ (if last = 0xFF then 0x00 else last + 1) then
      if cfg.transferAcceptLastBlockReplay ∧ d.byte 1 = last then blockAccepted cfg (d.byte 1)
      else sendNrc cfg sidTransferData nrcRequestSequenceError
    else transferBlock cfg d (d.byte 1)) := by
  have hdeny : Moves d n (sendNrc cfg sidTransferData nrcRequestSequenceError) :=
    moves_idle (sendNrc_unmoved _ _)
  have hcounter := next_counter hlast
  apply moves_ite
  · intro hzero
    rw [if_pos hzero] at hcounter
    apply moves_ite (fun _ => hdeny)
    intro hfirst
    apply transferBlock_moves
    rw [not_not.mp hfirst]
    exact hcounter
  · intro hzero
    rw [if_neg hzero] at hcounter
    apply moves_ite
    · intro _
      exact moves_ite (fun _ => moves_idle (respond_unmoved _ 2)) fun _ => hdeny
    · intro hexpected
      apply transferBlock_moves
      rw [not_not.mp hexpected]
      exact hcounter

/-- The sequence check lets the next block pass. -/
theorem checkBlock_next {last : UInt8} {m m' : M W ℤ} (hlast : last.toNat = n % 256)
    (hnext : (d.byte 1).toNat = (n + 1) % 256) :
    (if last = 0 then if d.byte 1 ≠ 0x01 then m else transferBlock cfg d (d.byte 1)
    else if d.byte 1 ≠ (if last = 0xFF then 0x00 else last + 1) then m'
    else transferBlock cfg d (d.byte 1)) = transferBlock cfg d (d.byte 1) := by
  have hcounter : d.byte 1 =
      if last = 0 then 0x01 else if last = 0xFF then 0x00 else last + 1 :=
    UInt8.toNat_inj.mp (hnext.trans (next_counter hlast).symm)
  by_cases hzero : last = 0
  · rw [if_pos hzero] at hcounter ⊢
    rw [if_neg (not_not_intro hcounter)]
  · rw [if_neg hzero] at hcounter ⊢
    rw [if_neg (not_not_intro hcounter)]

theorem transferData_takes (hlen : 2 ≤ d.bytes.length) (hset : cfg.isSet .fnTransferData = true)
    (hs : Counted n s) (hnext : (d.byte 1).toNat = (n + 1) % 256) :
    blockOf d ∈ handedOver ((handleTransferData cfg d).outputs s) := by
  have houtputs : (handleTransferData cfg d).outputs s =
      (transferBlock cfg d (d.byte 1)).outputs s := by
    unfold handleTransferData
    rw [if_neg (not_len_lt (n := 2) hlen), if_neg (not_not_intro hset),
      outputs_byteAt_bind _ _ _ _ hlen, outputs_getCtx_bind]
    exact congrArg (fun m : M W ℤ => m.outputs s) (checkBlock_next hs hnext)
  rw [houtputs]
  exact List.mem_filterMap.mpr ⟨_, List.mem_cons_self, rfl⟩

theorem transferData_moves : Moves d n (handleTransferData cfg d) := by
  have hdeny (nrc : UInt8) : Moves d n (sendNrc cfg sidTransferData nrc) :=
    moves_idle (sendNrc_unmoved _ nrc)
  apply moves_ite (fun _ => hdeny _)
  intro _
  apply moves_ite (fun _ => hdeny _)
  intro _
  apply moves_after (byteAt_unmoved 1)
  intro _ t ht
  exact checkBlock_moves ht t ht

end Handlers

/-! ### The run -/

theorem Call.idle_of_service {sid : UInt8} {call : Call} (ret : ℤ) (hsid : ¬ MovesBlocks sid)
    (h : call.service? = some sid ∨ call.isShared = true) : (Event.call call ret).Idle := by
  have hother (moved : UInt8) (hmoved : MovesBlocks moved)
      (h : some moved = some sid ∨ false = true) : False := by
    rcases h with h | h
    · exact hsid (Option.some.inj h ▸ hmoved)
    · exact Bool.false_ne_true h
  cases call with
  | transferData sequence data => exact (hother _ (.inr (.inr rfl)) h).elim
  | requestDownload addr size => exact (hother _ (.inl rfl) h).elim
  | requestUpload addr size => exact (hother _ (.inr (.inl rfl)) h).elim
  | _ => exact ⟨fun _ => rfl, rfl⟩

theorem OfHandler.idle {sid : UInt8} {e : Event} (hsid : ¬ MovesBlocks sid)
    (h : OfHandler cfg d sid e) : e.Idle := by
  cases e with
  | call c ret => exact Call.idle_of_service ret hsid (Allowed.service h)
  | _ => exact ⟨fun _ => rfl, rfl⟩

theorem Runs.moved {service : Service W} {v : Sys W} (h : Runs cfg s d service u v es)
    (hu : Counted n u) : Moved d n es v := by
  by_cases hmoves : MovesBlocks service.sid
  · rw [h.outputs, h.final]
    rcases hmoves with hsid | hsid | hsid
    · obtain rfl := Option.some.inj (h.found hsid)
      exact requestDownload_moves u hu
    · obtain rfl := Option.some.inj (h.found hsid)
      exact requestUpload_moves u hu
    · obtain rfl := Option.some.inj (h.found hsid)
      exact transferData_moves u hu
  · have hunmoved : Unmoved u es v :=
      ⟨h.work.transfer.resolve_left hmoves, fun e he => (h.work.events e he).idle hmoves⟩
    exact hunmoved.moved hu

/-- A block is handed over by the handler of the transfer. -/
theorem Runs.transfers {service : Service W} {v : Sys W} {block : UInt8 × Slice}
    (h : Runs cfg s d service u v es) (hblock : block ∈ handedOver es) :
    service.sid = sidTransferData := by
  obtain ⟨e, he, hsome⟩ := List.mem_filterMap.mp hblock
  have hallowed := h.work.events e he
  cases e with
  | call c ret =>
    cases c with
    | transferData sequence data =>
      rcases Allowed.service hallowed with hsid | hshared
      · exact (Option.some.inj hsid).symm
      · exact absurd hshared Bool.false_ne_true
    | _ => cases hsome
  | _ => cases hsome

theorem OfProcess.idle {e : Event} (h : OfProcess cfg s e) : e.Idle := by
  rcases h with hsurround | ⟨-, hperiodic⟩
  · exact hsurround.idle
  · cases e with
    | call c ret =>
      cases c with
      | periodicRead id len => exact ⟨fun _ => rfl, rfl⟩
      | _ => exact absurd hperiodic Bool.false_ne_true
    | _ => exact ⟨fun _ => rfl, rfl⟩

/-- One call counts what it accepts, and hands over no block but the next one. -/
theorem step_blocks (op : Op W) (hs : Counted n s) :
    Counted (blocksAfter n (step cfg s op).2) (step cfg s op).1 ∧
      NextBlock n op (handedOver (step cfg s op).2) := by
  cases step_footprint cfg s op with
  | outside h =>
    have hmoved : Moved noMessage n _ _ := h.unmoved.moved hs
    exact ⟨hmoved.counted, .inl h.unmoved.handed⟩
  | process hop hstore hevents =>
    have hkept : Unmoved s (step cfg s op).2 (step cfg s op).1 := by
      constructor
      · rcases hstore with hstore | ⟨-, hstore⟩
        · exact congrArg Store.flashSequence hstore
        · exact congrArg Store.flashSequence hstore
      · exact fun e he => (hevents e he).idle
    have hmoved : Moved noMessage n _ _ := hkept.moved hs
    exact ⟨hmoved.counted, .inl hkept.handed⟩
  | handler d service pre mid post u v hop hruns hes hpre hpost =>
    have hmid : Moved d n mid v := hruns.moved (hpre.unmoved.counted hs)
    have hall : Moved d n (pre ++ (mid ++ post)) (step cfg s op).1 :=
      Moved.after hpre.unmoved (hmid.before hpost.unmoved)
    rw [hes]
    refine ⟨hall.counted, ?_⟩
    rcases hall.handed with hnone | ⟨hblock, hcounter⟩
    · exact .inl hnone
    · right
      refine ⟨d, hop, ?_, hblock, hcounter⟩
      rw [handedOver_append, handedOver_append, hpre.unmoved.handed, hpost.unmoved.handed,
        List.nil_append, List.append_nil] at hblock
      have hmem : blockOf d ∈ handedOver mid := hblock ▸ List.mem_singleton.mpr rfl
      rw [← hruns.sid]
      exact hruns.transfers hmem

theorem step_takes (op : Op W) (hs : Counted n s) : TakesNext cfg s n op := by
  intro d service u v es hop hruns hsid hset hnext
  obtain ⟨pre, post, hes, hpre, hpost⟩ := hruns.split
  have hstart : Counted n u := hpre.unmoved.counted hs
  obtain rfl := Option.some.inj (hruns.found hsid)
  have hlen : 2 ≤ d.bytes.length := hruns.length
  have hmid : blockOf d ∈ handedOver es := by
    rw [hruns.outputs]
    exact transferData_takes hlen hset hstart hnext
  rw [hop, hes, handedOver_append, handedOver_append]
  exact List.mem_append_right _ (List.mem_append_left _ hmid)

/-- Behind any run from `uds_init` the byte counts the accepted blocks. -/
theorem run_counted (cfg : Config W) (b : Sys W) (ops : List (Op W)) :
    let start := (udsInit cfg).final b
    Counted (blocksAfter 0 (trace (step cfg) start ops)) (exec (step cfg) start ops) := by
  intro start
  have hstart : Counted 0 start := by
    unfold Counted
    rw [(udsInit_parts cfg b).1]
    split_ifs
    · rfl
    · rfl
  have hnone : Counted (blocksAfter 0 []) start := hstart
  apply trace_invariant (H := fun es t => Counted (blocksAfter 0 es) t) _ hnone
  · exact Along.trivial start ops
  · intro es t op ht _
    rw [blocksAfter_append]
    exact (step_blocks op ht).1

/-- Blocks reach the application in order. Behind any run from `uds_init`, with `n` blocks accepted
since the last reset point, the only block that a call hands over is the one of its message, with
the counter `n + 1` up to wrap-around, and a transfer with this counter hands it over. -/
theorem flash_block_order (cfg : Config W) (b : Sys W) (ops : List (Op W)) (op : Op W) :
    let start := (udsInit cfg).final b
    let s := exec (step cfg) start ops
    let n := blocksAfter 0 (trace (step cfg) start ops)
    NextBlock n op (handedOver (step cfg s op).2) ∧ TakesNext cfg s n op := by
  intro start s n
  have hcounted : Counted n s := run_counted cfg b ops
  constructor
  · exact (step_blocks op hcounted).2
  · exact step_takes op hcounted

/-- A request for a download, and the first block. -/
def firstBlock : List (Op Unit) :=
  [.inputSdu (.bytes ⟨[0x34, 0x00, 0x11, 0x80, 0x10], by decide⟩),
    .inputSdu (.bytes ⟨[0x36, 0x01, 0xAA], by decide⟩)]

def secondBlock : Sdu := ⟨[0x36, 0x02, 0xBB], by decide⟩

theorem secondBlock_handed_over :
    let s := exec (step fullConfig) (booted fullConfig) firstBlock
    let blocks := handedOver (step fullConfig s (.inputSdu (.bytes secondBlock))).2
    blocks = [(0x02, ⟨2, 1, [0xBB]⟩)] ∧ NextBlock 1 (W := Unit) (.inputSdu (.bytes secondBlock)) blocks := by
  intro s blocks
  have hone : blocksAfter 0 (trace (step fullConfig) (booted fullConfig) firstBlock) = 1 := by decide
  have hnext := (flash_block_order fullConfig ⟨Ctx.zero, fun _ => 0, fun _ => 0, ()⟩ firstBlock
    (.inputSdu (.bytes secondBlock))).1
  change NextBlock (blocksAfter 0 (trace (step fullConfig) (booted fullConfig) firstBlock)) _ blocks
    at hnext
  rw [hone] at hnext
  exact ⟨by decide, hnext⟩

end UdsLib.Core
