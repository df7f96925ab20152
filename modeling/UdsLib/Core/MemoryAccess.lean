import UdsLib.Bytes.Replay
import UdsLib.Core.AddressSpace
import UdsLib.Core.DidReads
import UdsLib.Core.FieldCodec
import UdsLib.Core.Synchronous

/-! The stack in front of a memory of the application. Over whole runs it gives the client a memory:
what a write request has put there is what read requests find, whatever else goes on in between. -/
namespace UdsLib.Core
open Bytes Machine Prog Services

variable {W : Type} {cfg : Config W} {memory : W → ℕ → UInt8} {InRange : UInt32 → UInt32 → Prop}
  {d : Sdu} {s : Sys W} {op : Op W}

/-- An accepted call of `fn_mem_write`: where the data goes. -/
def Event.copy? : Event → Option (ℕ × List UInt8)
  | .call (.memWrite addr _ data) ret => if ret < 0 then none else some (addr.toNat, data.bytes)
  | _ => none

/-- What has been copied into the memory, in order. -/
def copiesOf (es : List Event) : List (ℕ × List UInt8) := es.filterMap Event.copy?

theorem copiesOf_append (es fs : List Event) : copiesOf (es ++ fs) = copiesOf es ++ copiesOf fs :=
  List.filterMap_append ..

theorem copiesOf_none {es : List Event} (h : ∀ e ∈ es, e.copy? = none) : copiesOf es = [] :=
  List.filterMap_eq_nil_iff.mpr h

/-- The memory behind the events is the one before them with their copies. -/
def Remembered (memory : W → ℕ → UInt8) (w : W) (es : List Event) (v : W) : Prop :=
  memory v = replay (memory w) (copiesOf es)

/-- The application has a memory behind `fn_mem_read` and `fn_mem_write`: in its range a read gives
what is there and a write is accepted, and nothing but an accepted write changes it. -/
structure KeepsMemory (cfg : Config W) (memory : W → ℕ → UInt8)
    (InRange : UInt32 → UInt32 → Prop) : Prop where
  time : ∀ w, memory (cfg.getTimeMs w).2 = memory w
  send : ∀ c data w, memory (cfg.fnTpSend c data w).2 = memory w
  other : ∀ c call w, (∀ addr size data, call ≠ .memWrite addr size data) →
    memory (cfg.app c call w).2 = memory w
  write : ∀ c addr size data w, let r := cfg.app c (.memWrite addr size data) w
    (InRange addr size → 0 ≤ r.1.ret) ∧
      memory r.2 = if r.1.ret < 0 then memory w else blit (memory w) addr.toNat data.bytes
  read : ∀ c addr size room w, InRange addr size →
    let r := cfg.app c (.memRead addr size room) w
    0 ≤ r.1.ret ∧ r.1.out = slice (memory w) addr.toNat size.toNat
  response : ∀ cb sid data, Keeps (Traced (Remembered memory)) (runApp cfg (cfg.responseCb cb sid data))

/-- The stack is set up for the memory services: both callbacks are there, no `fn_is_safe` stands in
the way, and there is room for a negative response. -/
structure OffersMemory (cfg : Config W) : Prop where
  read : cfg.isSet .fnMemRead = true
  write : cfg.isSet .fnMemWrite = true
  ungated : cfg.isSet .fnIsSafe = false
  room : 10 ≤ cfg.txBufferSize.toNat

/-! ### The memory in a run -/

theorem remembered_single {e : Event} {w v : W} (he : e.copy? = none) (hmemory : memory v = memory w) :
    Remembered memory w [e] v := by
  have hnone : copiesOf [e] = [] := copiesOf_none (List.forall_mem_singleton.mpr he)
  unfold Remembered
  rw [hnone]
  exact hmemory

theorem KeepsMemory.rule (h : KeepsMemory cfg memory InRange) : WorldRule cfg (Remembered memory) where
  refl w := rfl
  trans hfirst hnext := by
    unfold Remembered at *
    rw [hnext, hfirst, copiesOf_append, replay_append]
  inside w e he := by
    apply remembered_single _ rfl
    cases e with
    | call => exact absurd he Bool.false_ne_true
    | _ => rfl
  time w := remembered_single rfl (h.time w)
  call c call w := by
    by_cases hwrite : ∃ addr size data, call = .memWrite addr size data
    · obtain ⟨addr, size, data, rfl⟩ := hwrite
      obtain ⟨-, hmemory⟩ := h.write c addr size data w
      unfold Remembered
      rw [hmemory]
      unfold copiesOf Event.copy?
      split_ifs with hret <;> simp [hret]
    · have hother : ∀ addr size data, call ≠ .memWrite addr size data :=
        fun addr size data heq => hwrite ⟨addr, size, data, heq⟩
      apply remembered_single _ (h.other c call w hother)
      cases call with
      | memWrite addr size data => exact absurd rfl (hother addr size data)
      | _ => rfl
  send c origin data w _ := remembered_single rfl (h.send c data w)

theorem KeepsMemory.code (h : KeepsMemory cfg memory InRange) (hservices : cfg.userServices = []) :
    WorldCode cfg (Remembered memory) where
  toWorldRule := h.rule
  user entry hentry := by
    rw [hservices] at hentry
    cases hentry
  response := h.response

/-- The application's own doings between the calls of the stack spare the memory. -/
def Op.Spares (memory : W → ℕ → UInt8) : Op W → Prop
  | .elapse f => ∀ w, memory (f w) = memory w
  | _ => True

theorem step_remembered (h : KeepsMemory cfg memory InRange) (hservices : cfg.userServices = [])
    (hop : op.Spares memory) (s : Sys W) :
    Remembered memory s.world (step cfg s op).2 (step cfg s op).1.world := by
  apply (h.code hservices).step_keeps
  · intro d w opening hopening
    cases hopening with
    | none => rfl
    | dispatch | response => exact remembered_single rfl rfl
  · intro f hf w
    subst hf
    exact hop w

theorem run_remembered (h : KeepsMemory cfg memory InRange) (hservices : cfg.userServices = [])
    {ops : List (Op W)} (hops : ∀ op ∈ ops, op.Spares memory) (s : Sys W) :
    Remembered memory s.world (trace (step cfg) s ops) (exec (step cfg) s ops).world := by
  induction ops generalizing s with
  | nil => rfl
  | cons op ops ih =>
    obtain ⟨hop, hops⟩ := List.forall_mem_cons.mp hops
    rw [trace_cons]
    exact h.rule.trans (step_remembered h hservices hop s) (ih hops _)

/-! ### The requests -/

/-- The widths of the fields, and numbers that they hold. -/
structure Encodes (addrLen sizeLen : ℕ) (addr size : UInt32) : Prop where
  addrWidth : 1 ≤ addrLen ∧ addrLen ≤ 4
  sizeWidth : 1 ≤ sizeLen ∧ sizeLen ≤ 4
  addrFits : addr.toNat < 256 ^ addrLen
  sizeFits : size.toNat < 256 ^ sizeLen

/-- The format byte with both fields. -/
def rangeFields (addrLen sizeLen : ℕ) (addr size : UInt32) : List UInt8 :=
  formatByte addrLen sizeLen :: encodeFields addrLen sizeLen addr.toNat size.toNat

/-- The request to read a range. -/
def memReadRequest (addrLen sizeLen : ℕ) (addr size : UInt32) : List UInt8 :=
  sidReadMemByAddr :: rangeFields addrLen sizeLen addr size

/-- The request to write data to an address. -/
def memWriteRequest (addrLen sizeLen : ℕ) (addr size : UInt32) (data : List UInt8) : List UInt8 :=
  sidWriteMemByAddr :: (rangeFields addrLen sizeLen addr size ++ data)

variable {addrLen sizeLen : ℕ} {addr size : UInt32} {data : List UInt8}

theorem Encodes.widths (h : Encodes addrLen sizeLen addr size) :
    (addrLenOf (formatByte addrLen sizeLen)).toNat = addrLen ∧
      (sizeLenOf (formatByte addrLen sizeLen)).toNat = sizeLen :=
  formatByte_widths h.addrWidth h.sizeWidth

theorem Encodes.valid (h : Encodes addrLen sizeLen addr size) :
    ValidFormat (formatByte addrLen sizeLen) := by
  unfold ValidFormat
  rw [h.widths.1, h.widths.2]
  exact ⟨h.addrWidth, h.sizeWidth⟩

theorem encodeFields_length (a n x y : ℕ) : (encodeFields a n x y).length = a + n := by
  rw [encodeFields, List.length_append, toBe_length, toBe_length]

/-- The fields behind the first two bytes of a request are found. -/
theorem Encodes.fieldsAt (h : Encodes addrLen sizeLen addr size) {sid : UInt8}
    (hd : d.bytes = sid :: (rangeFields addrLen sizeLen addr size ++ data)) (s : Sys W) :
    Services.fieldsAt d 2 (formatByte addrLen sizeLen) = some (addr, size) := by
  have hsplit : d.bytes = [sid, formatByte addrLen sizeLen] ++
      (encodeFields addrLen sizeLen addr.toNat size.toNat ++ data) := hd
  have htwo : 2 ≤ d.bytes.length := by
    rw [hsplit, List.length_append]
    exact Nat.le_add_right 2 _
  have hlen : (d.len - 2).toNat = d.bytes.length - 2 := len_sub (n := 2) htwo
  obtain ⟨addr', size', hrun, haddr, hsize⟩ :=
    parseAddrLen_encoded s h.addrWidth h.sizeWidth h.addrFits h.sizeFits hsplit hlen
  have hparsed := congrFun (parseAddrLen_inside (formatByte addrLen sizeLen) htwo hlen) s
  rw [← UInt32.toNat_inj.mp haddr, ← UInt32.toNat_inj.mp hsize]
  exact congrArg Prod.fst (hparsed.symm.trans hrun)

theorem head_bytes {sid format : UInt8} {rest : List UInt8} (hd : d.bytes = sid :: format :: rest) :
    d.byte 0 = sid ∧ d.byte 1 = format := by
  unfold Sdu.byte
  rw [hd]
  exact ⟨rfl, rfl⟩

theorem Encodes.plan_read (h : Encodes addrLen sizeLen addr size)
    (hd : d.bytes = memReadRequest addrLen sizeLen addr size) (hset : cfg.isSet .fnMemRead = true)
    (hfits : size.toNat < cfg.txBufferSize.toNat) (s : Sys W) :
    planReadMemory cfg d = .ask addr size := by
  have hbare : d.bytes = sidReadMemByAddr :: (rangeFields addrLen sizeLen addr size ++ []) := by
    rw [hd, List.append_nil]
    rfl
  have hfields := h.fieldsAt hbare s
  have hlen : d.bytes.length = 2 + (addrLen + sizeLen) := by
    rw [hd, memReadRequest, rangeFields, List.length_cons, List.length_cons, encodeFields_length]
    omega
  have haddr := h.addrWidth.1
  have hroom : ¬ size > cfg.txBufferSize.toUInt32 - 1 := by
    have hone : (1 : UInt32) ≤ cfg.txBufferSize.toUInt32 := by
      rw [UInt32.le_iff_toNat_le, UInt16.toNat_toUInt32]
      exact Nat.one_le_of_lt hfits
    rw [gt_iff_lt, UInt32.lt_iff_toNat_lt, UInt32.toNat_sub_of_le _ _ hone, UInt16.toNat_toUInt32]
    exact Nat.not_lt.mpr (Nat.le_sub_one_of_lt hfits)
  unfold planReadMemory
  rw [(head_bytes hd).2, if_neg (by omega), if_neg (not_not_intro h.valid), hfields]
  dsimp only
  rw [if_neg (not_not_intro hset), if_neg hroom]

/-- The bytes of a write request in front of its data. -/
theorem Encodes.header_toNat (h : Encodes addrLen sizeLen addr size) :
    (2 + (addrLenOf (formatByte addrLen sizeLen)).toUInt16 +
      (sizeLenOf (formatByte addrLen sizeLen)).toUInt16).toNat = 2 + addrLen + sizeLen := by
  have := h.addrWidth.2
  have := h.sizeWidth.2
  have htwo : (2 : UInt16).toNat = 2 := rfl
  rw [UInt16.toNat_add, UInt16.toNat_add, UInt8.toNat_toUInt16, UInt8.toNat_toUInt16, h.widths.1,
    h.widths.2, htwo]
  omega

theorem Encodes.plan_write (h : Encodes addrLen sizeLen addr size)
    (hd : d.bytes = memWriteRequest addrLen sizeLen addr size data) (hsize : size.toNat = data.length)
    (hset : cfg.isSet .fnMemWrite = true) (s : Sys W) : planWriteMemory cfg d = .ask addr size := by
  have hfields := h.fieldsAt hd s
  have hformat := (head_bytes hd).2
  have hlen : d.bytes.length = 2 + (addrLen + sizeLen) + data.length := by
    rw [hd, memWriteRequest, rangeFields, List.length_cons, List.cons_append, List.length_cons,
      List.length_append, encodeFields_length]
    omega
  have haddr := h.addrWidth.1
  have hheader := h.header_toNat
  have hcount : d.len = 2 + (addrLenOf (formatByte addrLen sizeLen)).toUInt16 +
      (sizeLenOf (formatByte addrLen sizeLen)).toUInt16 + size.toUInt16 := by
    have hlt := d.length_lt
    rw [← UInt16.toNat_inj, UInt16.toNat_add, hheader, UInt32.toNat_toUInt16, hsize, Sdu.len_toNat, hlen]
    omega
  unfold planWriteMemory
  dsimp only
  rw [hformat, if_neg (by omega), if_neg (not_not_intro h.valid), hfields]
  dsimp only
  rw [if_neg (not_not_intro hcount), if_neg (not_not_intro hset)]

/-! ### The handlers -/

theorem gate_open (hungated : cfg.isSet .fnIsSafe = false) (sid : UInt8) (d : Sdu) :
    (safetyGate cfg sid d : M W Bool) = pure true :=
  if_pos (by rw [hungated]; exact Bool.false_ne_true)

theorem gate_passes (hungated : cfg.isSet .fnIsSafe = false) (s : Sys W) (d : Sdu) :
    GatePasses cfg s d := by
  unfold GatePasses
  rw [gate_open hungated]
  rfl

theorem sendResponse_sent {len : UInt16} (hlen : len ≤ cfg.txBufferSize) (s : Sys W) :
    sentOf ((sendResponse cfg len).outputs s) =
      if s.ctx.suppressPosResp = true then [] else [slice s.tx 0 len.toNat] := by
  unfold outputs
  cases hflag : s.ctx.suppressPosResp with
  | true =>
    rw [sendResponse_suppressed hlen hflag]
    rfl
  | false =>
    rw [sendResponse_sends hlen hflag]
    rfl

theorem writeTx_sent (off : ℕ) (bs : List UInt8) (s : Sys W) :
    sentOf ((writeTx cfg off bs).outputs s) = [] :=
  sentOf_faults fun _ => writeTx_faults s

theorem readRange_sent (hmem : KeepsMemory cfg memory InRange) (hin : InRange addr size)
    (hfits : size.toNat < cfg.txBufferSize.toNat) (u : Sys W) :
    sentOf ((readRange cfg addr size).outputs u) =
      if u.ctx.suppressPosResp = true then []
      else [(sidReadMemByAddr + responseOffset) :: slice (memory u.world) addr.toNat size.toNat] := by
  obtain ⟨hret, hout⟩ := hmem.read u.ctx addr size ⟨1, size.toNat⟩ u.world hin
  have hlen : (size + 1).toUInt16.toNat = 1 + size.toNat := by
    have htx := cfg.txBufferSize.toNat_lt
    have hone : (1 : UInt32).toNat = 1 := rfl
    rw [UInt32.toNat_toUInt16, UInt32.toNat_add, hone]
    omega
  have hle : (size + 1).toUInt16 ≤ cfg.txBufferSize := by
    rw [UInt16.le_iff_toNat_le, hlen]
    omega
  have hrefused : ¬ (invokeOut cfg (.memRead addr size ⟨1, size.toNat⟩) 1).value u < 0 :=
    Int.not_lt.mpr hret
  have hcalled : sentOf ((invokeOut cfg (.memRead addr size ⟨1, size.toNat⟩) 1).outputs u) = [] := by
    unfold invokeOut
    rw [outputs_bind, outputs_bind, sentOf_append, sentOf_append, writeTx_sent]
    rfl
  -- the answer is put together around what `fn_mem_read` has filled in
  have hanswer (m : ℕ → UInt8) :
      slice (blit (blit m 1 (slice (memory u.world) addr.toNat size.toNat)) 0
          [sidReadMemByAddr + responseOffset]) 0 (1 + size.toNat) =
        (sidReadMemByAddr + responseOffset) :: slice (memory u.world) addr.toNat size.toNat := by
    have hbody := slice_blit_self m 1 (slice (memory u.world) addr.toNat size.toNat)
    have hkept (n : ℕ) (m' : ℕ → UInt8) : slice (blit m' 0 [sidReadMemByAddr + responseOffset]) 1 n =
        slice m' 1 n := slice_blit_spared m' (.inl (le_refl 1))
    rw [slice_length] at hbody
    rw [slice_add, Nat.zero_add, hkept, hbody]
    rfl
  unfold readRange
  rw [outputs_bind, sentOf_append, hcalled, if_neg hrefused, outputs_bind, sentOf_append, writeTx_sent,
    sendResponse_sent hle, hlen]
  show (if u.ctx.suppressPosResp = true then [] else [slice (blit (blit u.tx 1
    (cfg.app u.ctx (.memRead addr size ⟨1, size.toNat⟩) u.world).1.out) 0
      [sidReadMemByAddr + responseOffset]) 0 (1 + size.toNat)]) = _
  rw [hout, hanswer]

theorem sendResponse_copies (len : UInt16) (s : Sys W) :
    copiesOf ((sendResponse cfg len).outputs s) = [] := by
  have hkeeps : Keeps (fun (_ : Sys W) es _ => copiesOf es = []) (sendResponse cfg len) :=
    sendResponse_keeps (fun _ => rfl) (fun _ => rfl) fun _ _ _ => rfl
  exact hkeeps s

theorem copiesOf_faults {es : List Event} (h : ∀ e ∈ es, ∃ f, e = .fault f) : copiesOf es = [] :=
  copiesOf_none (faults_forall h fun _ => rfl)

/-- A response of two bytes and a part of the request. -/
theorem echo_answer {k : ℕ} {x y : UInt8} {echo : List UInt8} {len : UInt16}
    (hecho : slice d.byte 2 k = echo) (hlen : len.toNat = 2 + echo.length)
    (hle : len ≤ cfg.txBufferSize) (t : Sys W) :
    let answer : M W ℤ := do
      let echo ← bytesAt d 2 k
      writeTx cfg 0 [x, y]
      writeTx cfg 2 echo
      sendResponse cfg len
    copiesOf (answer.outputs t) = [] ∧
      sentOf (answer.outputs t) = if t.ctx.suppressPosResp = true then [] else [x :: y :: echo] := by
  have hbytes : copiesOf ((bytesAt d 2 k).outputs t) = [] ∧ sentOf ((bytesAt d 2 k).outputs t) = [] :=
    ⟨copiesOf_faults fun _ => bytesAt_faults t, sentOf_faults fun _ => bytesAt_faults t⟩
  have hwrite (off : ℕ) (bs : List UInt8) (u : Sys W) : copiesOf ((writeTx cfg off bs).outputs u) = [] :=
    copiesOf_faults fun _ => writeTx_faults u
  have hanswer (m : ℕ → UInt8) : slice (blit (blit m 0 [x, y]) 2 echo) 0 (2 + echo.length) =
      x :: y :: echo := by
    have hhead := slice_blit_self m 0 [x, y]
    have happend := slice_blit_append (blit m 0 [x, y]) 2 echo
    rw [happend, show slice (blit m 0 [x, y]) 0 2 = [x, y] from hhead]
    rfl
  intro answer
  constructor
  · rw [outputs_bind, outputs_bind, outputs_bind, copiesOf_append, copiesOf_append, copiesOf_append,
      hbytes.1, hwrite, hwrite, sendResponse_copies]
    rfl
  · rw [outputs_bind, outputs_bind, outputs_bind, sentOf_append, sentOf_append, sentOf_append,
      hbytes.2, writeTx_sent, writeTx_sent, sendResponse_sent hle, hlen]
    show (if t.ctx.suppressPosResp = true then [] else
      [slice (blit (blit t.tx 0 [x, y]) 2 (slice d.byte 2 k)) 0 (2 + echo.length)]) = _
    rw [hecho, hanswer]

/-- Past the plan there is one accepted call of `fn_mem_write`, and the response repeats the fields. -/
theorem writeRange_copies (hmem : KeepsMemory cfg memory InRange) (hoffers : OffersMemory cfg)
    (h : Encodes addrLen sizeLen addr size)
    (hd : d.bytes = memWriteRequest addrLen sizeLen addr size data) (hsize : size.toNat = data.length)
    (hin : InRange addr size) (u : Sys W) :
    copiesOf ((writeRange cfg d addr size).outputs u) = [(addr.toNat, data)] ∧
      sentOf ((writeRange cfg d addr size).outputs u) =
        if u.ctx.suppressPosResp = true then []
        else [(sidWriteMemByAddr + responseOffset) :: rangeFields addrLen sizeLen addr size] := by
  have hformat := (head_bytes hd).2
  have hheader := h.header_toNat
  have hsplit : d.bytes = [sidWriteMemByAddr, formatByte addrLen sizeLen] ++
      (encodeFields addrLen sizeLen addr.toNat size.toNat ++ data) := hd
  have hpart : d.slice (2 + addrLen + sizeLen) size.toNat = ⟨2 + addrLen + sizeLen, size.toNat, data⟩ := by
    have hhead : ([sidWriteMemByAddr, formatByte addrLen sizeLen] ++
        encodeFields addrLen sizeLen addr.toNat size.toNat).length = 2 + addrLen + sizeLen := by
      rw [List.length_append, encodeFields_length, Nat.add_assoc]
      rfl
    unfold Sdu.slice
    rw [hsplit, ← List.append_assoc, ← hhead, List.drop_left, hsize, List.take_length]
  have hecho : slice d.byte 2 (addrLen + sizeLen) =
      encodeFields addrLen sizeLen addr.toNat size.toNat := by
    have hslice := slice_part _ _ _ hsplit
    rwa [encodeFields_length] at hslice
  have hle : 2 + (addrLenOf (formatByte addrLen sizeLen)).toUInt16 +
      (sizeLenOf (formatByte addrLen sizeLen)).toUInt16 ≤ cfg.txBufferSize := by
    have hroom := hoffers.room
    have := h.addrWidth.2
    have := h.sizeWidth.2
    rw [UInt16.le_iff_toNat_le, hheader]
    omega
  have hlen : (2 + (addrLenOf (formatByte addrLen sizeLen)).toUInt16 +
      (sizeLenOf (formatByte addrLen sizeLen)).toUInt16).toNat =
        2 + (encodeFields addrLen sizeLen addr.toNat size.toNat).length := by
    rw [hheader, encodeFields_length, Nat.add_assoc]
  have haccepted : ¬ ((invoke cfg (.memWrite addr size
      ⟨2 + addrLen + sizeLen, size.toNat, data⟩)).value u).ret < 0 :=
    Int.not_lt.mpr ((hmem.write u.ctx addr size _ u.world).1 hin)
  have hcopy : copiesOf ((invoke cfg (.memWrite addr size
      ⟨2 + addrLen + sizeLen, size.toNat, data⟩)).outputs u) = [(addr.toNat, data)] := by
    have hevent : Event.copy? (.call (.memWrite addr size ⟨2 + addrLen + sizeLen, size.toNat, data⟩)
        ((invoke cfg (.memWrite addr size ⟨2 + addrLen + sizeLen, size.toNat, data⟩)).value u).ret) =
          some (addr.toNat, data) := if_neg haccepted
    exact List.filterMap_cons_some hevent
  unfold writeRange
  dsimp only
  rw [gate_open hoffers.ungated, pure_then, if_neg (not_not_intro rfl), hformat, hheader, hpart]
  rw [outputs_bind, outputs_ite, if_neg haccepted, copiesOf_append, sentOf_append, hcopy, h.widths.1,
    h.widths.2]
  have hanswer := echo_answer (x := sidWriteMemByAddr + responseOffset)
    (y := formatByte addrLen sizeLen) hecho hlen hle
    ((invoke cfg (.memWrite addr size ⟨2 + addrLen + sizeLen, size.toNat, data⟩)).final u)
  exact ⟨congrArg ([_] ++ ·) hanswer.1, hanswer.2⟩

/-! ### One request -/

/-- What a request finds when it arrives: nothing is in progress or asked for, in a session that
exists. -/
structure Attends (c : Ctx) : Prop where
  closed : Closed c
  known : Known c.activeSession

theorem Attends.idle {c : Ctx} (h : Attends c) : Idle c := ⟨h.closed.idle, h.closed.sid⟩

theorem surround_copies {es : List Event} (h : ∀ e ∈ es, Surround cfg d e) : copiesOf es = [] := by
  apply copiesOf_none
  intro e he
  have hsurround := h e he
  cases e with
  | call c ret =>
    cases c with
    | memWrite addr size data =>
      obtain ⟨-, hlock | ⟨_, _, hlog⟩ | ⟨_, hsafe⟩⟩ := hsurround
      · cases hlock
      · cases hlog
      · cases hsafe
    | _ => rfl
  | _ => rfl

theorem behindGate_memory (hmem : KeepsMemory cfg memory InRange) (hoffers : OffersMemory cfg) (s : Sys W)
    (d : Sdu) : memory (behindGate cfg s d).world = memory s.world := by
  have hlock : memory ((mutexLock cfg).final s).world = memory s.world := by
    unfold mutexLock
    rw [final_onlyIf]
    split_ifs
    · exact hmem.other _ _ _ nofun
    · rfl
  have hgate : behindGate cfg s d = entered cfg s := by
    unfold behindGate
    rw [gate_open hoffers.ungated]
    rfl
  rw [hgate]
  show memory (cfg.getTimeMs (cfg.getTimeMs ((mutexLock cfg).final s).world).2).2 = _
  rw [hmem.time, hmem.time, hlock]

/-- A request for a memory service is served, and what its handler does is all that happens. -/
theorem memory_served (hsync : Synchronous cfg) (hoffers : OffersMemory cfg) (hs : Attends s.ctx)
    {service : Service W} (hcore : service ∈ coreServices cfg) (hsid : service.sid = d.byte 0)
    (hsub : service.subMask = none) (hlen : service.minLen.toNat ≤ d.bytes.length) (hne : d.bytes ≠ []) :
    let es := (service.handler d).outputs (behindGate cfg s d)
    sentOf (step cfg s (.inputSdu (.bytes d))).2 = sentOf es ∧
      copiesOf (step cfg s (.inputSdu (.bytes d))).2 = copiesOf es := by
  intro es
  have hown : ∀ entry ∈ cfg.userServices, entry.sid ≠ d.byte 0 := by
    rw [hsync.services]
    exact nofun
  have hserved := served_plain hcore hsid hsub hlen hne hs.idle hs.known hown
    (gate_passes hoffers.ungated s d)
  have hdone := nonpos_ne_pending
    ((coreServices_path d service hcore).nonpos hsync.send (behindGate cfg s d))
  refine ⟨(step_done hserved hdone).1, ?_⟩
  obtain ⟨pre, post, hes, hpre, -, hpost, -⟩ := step_served hserved
  rw [show (step cfg s (.inputSdu (.bytes d))).2 = _ from hes, copiesOf_append, copiesOf_append,
    surround_copies hpre.events, surround_copies hpost.events, List.nil_append, List.append_nil]

theorem behindGate_flag (cfg : Config W) (s : Sys W) (d : Sdu) :
    (behindGate cfg s d).ctx.suppressPosResp = s.ctx.suppressPosResp := by
  rw [behindGate_ctx, entered_ctx]

/-- A read request is answered with what the memory holds, unless its response is suppressed. -/
theorem step_reads (hsync : Synchronous cfg) (hmem : KeepsMemory cfg memory InRange)
    (hoffers : OffersMemory cfg) (hs : Attends s.ctx) (h : Encodes addrLen sizeLen addr size)
    (hd : d.bytes = memReadRequest addrLen sizeLen addr size) (hin : InRange addr size)
    (hfits : size.toNat < cfg.txBufferSize.toNat) :
    sentOf (step cfg s (.inputSdu (.bytes d))).2 =
      if s.ctx.suppressPosResp = true then []
      else [(sidReadMemByAddr + responseOffset) :: slice (memory s.world) addr.toNat size.toNat] := by
  have hcore : coreService sidReadMemByAddr 3 (handleReadMemoryByAddr cfg) none ∈ coreServices cfg := by
    simp [coreServices]
  have haddr := h.addrWidth.1
  have hlen : 3 ≤ d.bytes.length := by
    rw [hd, memReadRequest, rangeFields, List.length_cons, List.length_cons, encodeFields_length]
    omega
  have hne : d.bytes ≠ [] := List.ne_nil_of_length_pos (by omega)
  rw [(memory_served hsync hoffers hs hcore (head_bytes hd).1.symm rfl hlen hne).1]
  show sentOf ((handleReadMemoryByAddr cfg d).outputs (behindGate cfg s d)) = _
  rw [readMemory_follows, h.plan_read hd hoffers.read hfits s]
  show sentOf ((readRange cfg addr size).outputs (behindGate cfg s d)) = _
  rw [readRange_sent hmem hin hfits, behindGate_flag, behindGate_memory hmem hoffers]

/-- A write request puts its data into the memory and is answered with its fields, unless its
response is suppressed. -/
theorem step_writes (hsync : Synchronous cfg) (hmem : KeepsMemory cfg memory InRange)
    (hoffers : OffersMemory cfg) (hs : Attends s.ctx) (h : Encodes addrLen sizeLen addr size)
    (hd : d.bytes = memWriteRequest addrLen sizeLen addr size data) (hsize : size.toNat = data.length)
    (hin : InRange addr size) :
    copiesOf (step cfg s (.inputSdu (.bytes d))).2 = [(addr.toNat, data)] ∧
      sentOf (step cfg s (.inputSdu (.bytes d))).2 =
        if s.ctx.suppressPosResp = true then []
        else [(sidWriteMemByAddr + responseOffset) :: rangeFields addrLen sizeLen addr size] := by
  have hcore : coreService sidWriteMemByAddr 3 (handleWriteMemoryByAddr cfg) none ∈ coreServices cfg := by
    simp [coreServices]
  have haddr := h.addrWidth.1
  have hlen : 3 ≤ d.bytes.length := by
    rw [hd, memWriteRequest, rangeFields, List.length_cons, List.cons_append, List.length_cons,
      List.length_append, encodeFields_length]
    omega
  have hne : d.bytes ≠ [] := List.ne_nil_of_length_pos (by omega)
  obtain ⟨hsent, hcopies⟩ := memory_served hsync hoffers hs hcore (head_bytes hd).1.symm rfl hlen hne
  have hfollows : (handleWriteMemoryByAddr cfg d).outputs (behindGate cfg s d) =
      (writeRange cfg d addr size).outputs (behindGate cfg s d) := by
    rw [writeMemory_follows, h.plan_write hd hsize hoffers.write s]
    rfl
  obtain ⟨hcopied, hanswered⟩ := writeRange_copies hmem hoffers h hd hsize hin (behindGate cfg s d)
  rw [hsent, hcopies]
  show copiesOf ((handleWriteMemoryByAddr cfg d).outputs (behindGate cfg s d)) = _ ∧
    sentOf ((handleWriteMemoryByAddr cfg d).outputs (behindGate cfg s d)) = _
  rw [hfollows, hcopied, hanswered, behindGate_flag]
  exact ⟨rfl, rfl⟩

/-! ### Runs -/

theorem Attends.run (hsync : Synchronous cfg) (hs : Attends s.ctx) {ops : List (Op W)}
    (hops : ∀ op ∈ ops, op.Serves) : Attends (exec (step cfg) s ops).ctx := by
  refine ⟨hsync.run_closed hops hs.closed, ?_⟩
  exact exec_invariant (I := fun t : Sys W => Known t.ctx.activeSession)
    (fun t op ht _ => step_known cfg t op ht) hs.known (Along.trivial s ops)

/-- Requests for the memory services in a state: a read finds the memory `m`, a write puts its data
into it, and both are answered unless the flag of an earlier request is left. -/
structure ServesMemory (cfg : Config W) (InRange : UInt32 → UInt32 → Prop) (m : ℕ → UInt8)
    (s : Sys W) : Prop where
  reads : ∀ {addrLen sizeLen : ℕ} {addr size : UInt32} {d : Sdu},
    Encodes addrLen sizeLen addr size → d.bytes = memReadRequest addrLen sizeLen addr size →
    InRange addr size → size.toNat < cfg.txBufferSize.toNat →
      sentOf (step cfg s (.inputSdu (.bytes d))).2 =
        if s.ctx.suppressPosResp = true then []
        else [(sidReadMemByAddr + responseOffset) :: slice m addr.toNat size.toNat]
  writes : ∀ {addrLen sizeLen : ℕ} {addr size : UInt32} {data : List UInt8} {d : Sdu},
    Encodes addrLen sizeLen addr size → d.bytes = memWriteRequest addrLen sizeLen addr size data →
    size.toNat = data.length → InRange addr size →
      copiesOf (step cfg s (.inputSdu (.bytes d))).2 = [(addr.toNat, data)] ∧
        sentOf (step cfg s (.inputSdu (.bytes d))).2 =
          if s.ctx.suppressPosResp = true then []
          else [(sidWriteMemByAddr + responseOffset) :: rangeFields addrLen sizeLen addr size]

theorem Attends.serves (hsync : Synchronous cfg) (hmem : KeepsMemory cfg memory InRange)
    (hoffers : OffersMemory cfg) (hs : Attends s.ctx) : ServesMemory cfg InRange (memory s.world) s where
  reads h hd hin hfits := step_reads hsync hmem hoffers hs h hd hin hfits
  writes h hd hsize hin := step_writes hsync hmem hoffers hs h hd hsize hin

theorem start_attends {b : Sys W} (hknown : ¬ RestoresUnknown cfg b) :
    Attends ((udsInit cfg).final b).ctx where
  closed := udsInit_closed cfg b
  known := (udsInit_session cfg b).mpr hknown

/-- An application that takes every access to its memory. -/
def mappedConfig : Config (ℕ → UInt8) where
  getTimeMs w := (0, w)
  fnTpSend _ _ w := (0, w)
  isSet f := f = .fnMemRead ∨ f = .fnMemWrite
  app _ call w := match call with
    | .memRead addr size _ => (⟨0, slice w addr.toNat size.toNat⟩, w)
    | .memWrite addr _ data => (⟨0, []⟩, blit w addr.toNat data.bytes)
    | _ => (⟨0, []⟩, w)
  responseCb _ _ _ := .done 0
  p2Ms := 50
  p2StarMs := 5000
  txBufferSize := 64
  strictCompliance := false
  logLevel := 0
  securityDelayMs := 0
  securityMaxAttempts := 0
  rcrrpLimit := 0
  transferAcceptLastBlockReplay := false
  didTable := []
  userServices := []
  p2ServerMax := 50
  p2StarServerMax := 5000

theorem mapped_keeps : KeepsMemory mappedConfig id fun _ _ => True where
  time _ := rfl
  send _ _ _ := rfl
  other c call w hother := by
    cases call with
    | memWrite addr size data => exact absurd rfl (hother addr size data)
    | _ => rfl
  write _ _ _ _ _ := ⟨fun _ => le_refl 0, rfl⟩
  read _ _ _ _ _ _ := ⟨le_refl 0, rfl⟩
  response _ _ _ _ := rfl

theorem mapped_synchronous : Synchronous mappedConfig := ⟨rfl, fun _ _ _ => le_refl 0⟩

theorem mapped_offers : OffersMemory mappedConfig := ⟨rfl, rfl, rfl, by decide⟩

/-- The stack before `uds_init`, with zeroed memories. -/
def zeroed : Sys (ℕ → UInt8) := ⟨Ctx.zero, fun _ => 0, fun _ => 0, fun _ => 0⟩

/-- The request to write two bytes to address 0x1000. -/
def poke : Sdu := ⟨[0x3D, 0x12, 0x10, 0x00, 0x02, 0xAB, 0xCD], by decide⟩

/-- The request to read them, with four bytes for the address. -/
def peek : Sdu := ⟨[0x23, 0x14, 0x00, 0x00, 0x10, 0x00, 0x02], by decide⟩

/-- In every run from `uds_init` of a stack that answers on the spot, in front of an application that
keeps a memory: the memory is what the accepted writes so far have made of it, in their order, whatever
else was asked, refused or timed out in between; and that is what the next read request finds. -/
theorem memory_served_run (hsync : Synchronous cfg) (hmem : KeepsMemory cfg memory InRange)
    (hoffers : OffersMemory cfg) (b : Sys W) (hknown : ¬ RestoresUnknown cfg b) (ops : List (Op W))
    (hops : ∀ op ∈ ops, op.Serves ∧ op.Spares memory) :
    let s := (udsInit cfg).final b
    let t := exec (step cfg) s ops
    let m := replay (memory s.world) (copiesOf (trace (step cfg) s ops))
    memory t.world = m ∧ ServesMemory cfg InRange m t := by
  intro s t m
  have hmemory : memory t.world = m :=
    run_remembered hmem hsync.services (fun op hop => (hops op hop).2) s
  have ht : Attends t.ctx := (start_attends hknown).run hsync fun op hop => (hops op hop).1
  refine ⟨hmemory, ?_⟩
  rw [← hmemory]
  exact ht.serves hsync hmem hoffers

theorem zeroed_known : ¬ RestoresUnknown mappedConfig zeroed := fun h => Bool.false_ne_true h.1.1

theorem poke_remembered :
    (exec (step mappedConfig) ((udsInit mappedConfig).final zeroed) [.inputSdu (.bytes poke), .process]).world
      = replay (fun _ => 0) [(0x1000, [0xAB, 0xCD])] := by
  have hcopies : copiesOf (trace (step mappedConfig) ((udsInit mappedConfig).final zeroed)
      [.inputSdu (.bytes poke), .process]) = [(0x1000, [0xAB, 0xCD])] := by decide +kernel
  rw [← hcopies]
  exact (memory_served_run mapped_synchronous mapped_keeps mapped_offers zeroed zeroed_known
    [.inputSdu (.bytes poke), .process] (by simp [Op.Serves, Op.Spares])).1

/-- A write request and, any number of calls later, a read request for the same range, in whatever
widths either gives its fields: unless one of the copies in between has touched the range, the read is
answered with the data of the write. -/
theorem read_your_write (hsync : Synchronous cfg) (hmem : KeepsMemory cfg memory InRange)
    (hoffers : OffersMemory cfg) (b : Sys W) (hknown : ¬ RestoresUnknown cfg b)
    {before after : List (Op W)} (hbefore : ∀ op ∈ before, op.Serves)
    (hafter : ∀ op ∈ after, op.Serves ∧ op.Spares memory) {addrLen' sizeLen' : ℕ} {write read : Sdu}
    (hw : Encodes addrLen sizeLen addr size) (hr : Encodes addrLen' sizeLen' addr size)
    (hwrite : write.bytes = memWriteRequest addrLen sizeLen addr size data)
    (hread : read.bytes = memReadRequest addrLen' sizeLen' addr size)
    (hsize : size.toNat = data.length) (hin : InRange addr size)
    (hfits : size.toNat < cfg.txBufferSize.toNat) :
    let s := exec (step cfg) ((udsInit cfg).final b) before
    let r := (step cfg s (.inputSdu (.bytes write))).1
    let t := exec (step cfg) r after
    (∀ copy ∈ copiesOf (trace (step cfg) r after), Spares addr.toNat size.toNat copy) →
      sentOf (step cfg t (.inputSdu (.bytes read))).2 =
        if t.ctx.suppressPosResp = true then [] else [(sidReadMemByAddr + responseOffset) :: data] := by
  intro s r t hspared
  have hs : Attends s.ctx := (start_attends hknown).run hsync hbefore
  have hr' : Attends (exec (step cfg) s [.inputSdu (.bytes write)]).ctx :=
    hs.run hsync (List.forall_mem_singleton.mpr trivial)
  have ht : Attends t.ctx := hr'.run hsync fun op hop => (hafter op hop).1
  obtain ⟨hcopied, -⟩ := step_writes hsync hmem hoffers hs hw hwrite hsize hin
  have hwritten : memory r.world = replay (memory s.world) [(addr.toNat, data)] := by
    have hspares : Op.Spares memory (.inputSdu (.bytes write)) := trivial
    rw [← hcopied]
    exact step_remembered hmem hsync.services hspares s
  have hkept : memory t.world = replay (memory r.world) (copiesOf (trace (step cfg) r after)) :=
    run_remembered hmem hsync.services (fun op hop => (hafter op hop).2) r
  have hfound : slice (memory t.world) addr.toNat size.toNat = data := by
    rw [hsize] at hspared ⊢
    rw [hkept, hwritten, ← replay_append]
    exact slice_replay_last _ [] data hspared
  rw [step_reads hsync hmem hoffers ht hr hread hin hfits, hfound]

theorem poke_peeked :
    sentOf (step mappedConfig (exec (step mappedConfig)
      (step mappedConfig ((udsInit mappedConfig).final zeroed) (.inputSdu (.bytes poke))).1
        [.process, .inputSdu (.bytes keepAlive)]) (.inputSdu (.bytes peek))).2 = [[0x63, 0xAB, 0xCD]] := by
  have hbefore : ∀ op ∈ ([] : List (Op (ℕ → UInt8))), op.Serves := nofun
  have hafter : ∀ op ∈ [Op.process, .inputSdu (.bytes keepAlive)], op.Serves ∧ op.Spares id := by
    simp [Op.Serves, Op.Spares]
  have hw : Encodes 2 1 0x1000 2 := ⟨by decide, by decide, by decide, by decide⟩
  have hr : Encodes 4 1 0x1000 2 := ⟨by decide, by decide, by decide, by decide⟩
  have hwrite : poke.bytes = memWriteRequest 2 1 0x1000 2 [0xAB, 0xCD] := by decide
  have hread : peek.bytes = memReadRequest 4 1 0x1000 2 := by decide
  have h := read_your_write mapped_synchronous mapped_keeps mapped_offers zeroed zeroed_known hbefore
    hafter hw hr hwrite hread rfl trivial (by decide)
  exact (h (by decide +kernel)).trans (if_neg (by decide +kernel))

end UdsLib.Core
