import UdsLib.Services.DidRead

/-! The write request for a DID of a table whose entries all have a storage: which requests are
accepted, and what a request leaves behind. -/
namespace UdsLib.Services
open Bytes Machine Prog UdsLib.Core

variable {W : Type} {α : Type} {cfg : Config W} {d : Sdu} {s u : Sys W} {did : UInt16}
  {data bs : List UInt8} {mem : ℕ → UInt8}

/-- The request writes this data to the DID. -/
def Writes (d : Sdu) (did : UInt16) (data : List UInt8) : Prop :=
  d.bytes = sidWriteDataById :: (idBytes did ++ data)

/-- The entries of the table have a storage and no callbacks. -/
structure StorageEntry (entry : DidEntry) : Prop where
  noRead : entry.read = false
  noWrite : entry.write = false
  storage : entry.storage.isSome = true

/-- The storages of two entries have no byte in common. -/
def Unshared (entry other : DidEntry) : Prop :=
  ∀ addr ∈ entry.storage, ∀ addr' ∈ other.storage, ∀ i < entry.size.toNat, ∀ j < other.size.toNat,
    addr + i ≠ addr' + j

/-- The entry that a write of this data goes to, or the NRC of the first check that it fails. -/
def writeVerdict (cfg : Config W) (c : Ctx) (did : UInt16) (data : List UInt8) :
    Except UInt8 DidEntry :=
  match findDid cfg did with
  | none => .error nrcRequestOutOfRange
  | some entry =>
    if sessionShut entry c then .error nrcRequestOutOfRange
    else if securityShut entry c then .error nrcSecurityAccessDenied
    else if data.length ≠ entry.size.toNat then .error nrcIncorrectLength
    else .ok entry

/-- What the next request depends on is as before. -/
structure SameAccess (c c' : Ctx) : Prop where
  session : c'.activeSession = c.activeSession
  level : c'.securityLevel = c.securityLevel
  sid : c'.pendingSid = c.pendingSid
  flag : c'.suppressPosResp = c.suppressPosResp
  idle : c.p2MsgPending = false → c'.p2MsgPending = false

/-- One message is sent, the request is done, and this is left in the storages. -/
structure Settles (m : M W ℤ) (s : Sys W) (bs : List UInt8) (mem : ℕ → UInt8) : Prop where
  replies : Replies m s bs
  mem : (m.final s).mem = mem
  access : SameAccess s.ctx (m.final s).ctx

instance : Std.Symm Unshared where
  symm _ _ h addr haddr addr' haddr' i hi j hj := (h addr' haddr' addr haddr j hj i hi).symm

theorem StorageEntry.dataOf {entry : DidEntry} {addr : ℕ} (h : StorageEntry entry) (cfg : Config W)
    (haddr : entry.storage = some addr) (c : Ctx) (mem : ℕ → UInt8) (did : UInt16) (off : ℕ) (w : W) :
    Services.dataOf cfg c mem did entry off w = (.ok (slice mem addr entry.size.toNat), w) :=
  dataOf_stored (Bool.eq_false_iff.mp h.noRead) haddr

/-! ### Access -/

theorem SameAccess.shut {c c' : Ctx} (h : SameAccess c c') (entry : DidEntry) :
    (sessionShut entry c' ↔ sessionShut entry c) ∧ (securityShut entry c' ↔ securityShut entry c) := by
  unfold sessionShut securityShut
  rw [h.session, h.level]
  exact ⟨Iff.rfl, Iff.rfl⟩

theorem SameAccess.trans {a b c : Ctx} (h : SameAccess a b) (hnext : SameAccess b c) :
    SameAccess a c where
  session := hnext.session.trans h.session
  level := hnext.level.trans h.level
  sid := hnext.sid.trans h.sid
  flag := hnext.flag.trans h.flag
  idle hidle := hnext.idle (h.idle hidle)

theorem writeVerdict_congr {c c' : Ctx} (h : SameAccess c c') :
    writeVerdict cfg c' did data = writeVerdict cfg c did data := by
  unfold writeVerdict
  cases findDid cfg did with
  | none => rfl
  | some entry =>
    obtain ⟨hsession, hsecurity⟩ := SameAccess.shut h entry
    simp only [hsession, hsecurity]

/-- The entry of a write that is accepted. -/
theorem verdict_ok {c : Ctx} {entry : DidEntry} (h : writeVerdict cfg c did data = .ok entry) :
    findDid cfg did = some entry ∧ ¬ sessionShut entry c ∧ ¬ securityShut entry c ∧
      data.length = entry.size.toNat := by
  unfold writeVerdict at h
  cases hfound : findDid cfg did with
  | none =>
    rw [hfound] at h
    cases h
  | some found =>
    rw [hfound] at h
    dsimp only at h
    split_ifs at h with hsession hsecurity hsize
    cases h
    exact ⟨rfl, hsession, hsecurity, not_not.mp hsize⟩

/-! ### Programs -/

theorem settles_bind {m : M W α} {f : α → M W ℤ} (hm : sentOf (m.outputs s) = [])
    (hctx : (m.final s).ctx = s.ctx) :
    Settles (m >>= f) s bs mem ↔ Settles (f (m.value s)) (m.final s) bs mem := by
  constructor
  · intro h
    refine ⟨(replies_bind hm).mp h.replies, h.mem, ?_⟩
    rw [hctx]
    exact h.access
  · intro h
    have haccess := h.access
    rw [hctx] at haccess
    exact ⟨(replies_bind hm).mpr h.replies, h.mem, haccess⟩

theorem settles_byte (cfg : Config W) {i : ℕ} {f : UInt8 → M W ℤ} :
    Settles (byteAt d i >>= f) s bs mem ↔ Settles (f (d.byte i)) s bs mem := by
  have hlook : Composed (Look cfg True True) (byteAt d i) := .act (.byteAt d i)
  exact settles_bind (look_sent hlook s) rfl

theorem settles_sessionRefused (cfg : Config W) {entry : DidEntry} {f : Bool → M W ℤ} :
    Settles (sessionRefused entry >>= f) s bs mem ↔
      Settles (f (sessionShut entry s.ctx)) s bs mem := by
  have hlook : Composed (Look cfg True True) (sessionRefused entry) := sessionRefused_look entry
  have hfinal := sessionRefused_final entry s
  rw [settles_bind (look_sent hlook s) (congrArg Sys.ctx hfinal), hfinal, sessionRefused_value]

theorem settles_securityRefused (cfg : Config W) {entry : DidEntry} {f : Bool → M W ℤ} :
    Settles (securityRefused entry >>= f) s bs mem ↔
      Settles (f (securityShut entry s.ctx)) s bs mem := by
  have hlook : Composed (Look cfg True True) (securityRefused entry) := securityRefused_look entry
  have hfinal := securityRefused_final entry s
  rw [settles_bind (look_sent hlook s) (congrArg Sys.ctx hfinal), hfinal, securityRefused_value]

theorem sendNrc_settles (htx : 3 ≤ cfg.txBufferSize)
    (hsend : ∀ c data w, (cfg.fnTpSend c data w).1 ≤ 0) (sid nrc : UInt8) (s : Sys W) :
    Settles (sendNrc cfg sid nrc) s [nrcServiceNotSuppInSess, sid, nrc] s.mem := by
  refine ⟨sendNrc_replies htx hsend sid nrc s, (sendNrc_spared cfg sid nrc s).mem, ?_⟩
  rw [sendNrc_ctx]
  split_ifs
  · exact ⟨rfl, rfl, rfl, rfl, fun _ => rfl⟩
  · exact ⟨rfl, rfl, rfl, rfl, id⟩

/-- A positive response that has just been written. -/
theorem respond_settles (htx : 3 ≤ cfg.txBufferSize)
    (hsend : ∀ c data w, (cfg.fnTpSend c data w).1 ≤ 0) (hflag : s.ctx.suppressPosResp = false)
    (hbs : bs.length = 3) :
    Settles (writeTx cfg 0 bs >>= fun _ => sendResponse cfg 3) s bs s.mem := by
  let t : Sys W := { s with tx := blit s.tx 0 bs }
  have hthree : (3 : UInt16).toNat = bs.length := hbs.symm
  have hwritten : slice t.tx 0 (3 : UInt16).toNat = bs := by
    rw [hthree]
    exact slice_blit_self s.tx 0 bs
  have hreplies := sendResponse_replies (s := t) hsend htx hflag
  rw [hwritten] at hreplies
  refine ⟨replies_write.mpr hreplies, ?_, ?_⟩
  · exact (sendResponse_spared 3 t).mem
  · have hfinal : ((sendResponse cfg 3).final t).ctx =
        { t.ctx with p2MsgPending := false, rcrrpCount := 0 } := by
      unfold final
      rw [sendResponse_sends (s := t) htx hflag]
      rfl
    rw [final_bind]
    change SameAccess s.ctx ((sendResponse cfg 3).final t).ctx
    rw [hfinal]
    exact ⟨rfl, rfl, rfl, rfl, fun _ => rfl⟩

/-! ### The request -/

theorem Writes.length (h : Writes d did data) : d.bytes.length = 3 + data.length := by
  rw [h, List.length_cons, List.length_append, idBytes]
  simp only [List.length_cons, List.length_nil]
  omega

theorem Writes.bytes (h : Writes d did data) :
    d.byte 0 = sidWriteDataById ∧ d.byte 1 = (did >>> 8).toUInt8 ∧ d.byte 2 = did.toUInt8 := by
  unfold Sdu.byte
  rw [h]
  exact ⟨rfl, rfl, rfl⟩

theorem Writes.slice_data (h : Writes d did data) : slice d.byte 3 data.length = data := by
  apply List.ext_getElem (slice_length _ _ _)
  intro i hi hi'
  rw [slice_getElem]
  unfold Sdu.byte
  rw [h]
  simp [idBytes, Nat.add_comm 3 i, List.getD_eq_getElem?_getD, hi']

/-- The lengths are compared with 16 bits, which is as good. -/
theorem Writes.len_iff (h : Writes d did data) {size : UInt16} :
    d.len = 3 + size ↔ data.length = size.toNat := by
  have hthree : (3 : UInt16).toNat = 3 := rfl
  have hd := d.length_lt
  have hsize := size.toNat_lt
  have hlen := h.length
  rw [← UInt16.toNat_inj, d.len_toNat, UInt16.toNat_add, hthree]
  omega

/-- The store of an entry with a storage. -/
theorem settles_store {entry : DidEntry} {addr : ℕ} (hentry : StorageEntry entry)
    (haddr : entry.storage = some addr) (hwrites : Writes d did data)
    (hsize : data.length = entry.size.toNat) {f : Bool → M W ℤ} :
    Settles (writeDid cfg d did entry >>= f) u bs mem ↔
      Settles (f true) { u with mem := blit u.mem addr data } bs mem := by
  have hrun : writeDid cfg d did entry = do
      let bytes ← bytesAt d 3 entry.size.toNat
      writeMem addr bytes
      return true := by
    unfold writeDid
    rw [hentry.noWrite, haddr]
    rfl
  have hsent : sentOf ((writeDid cfg d did entry).outputs u) = [] := by
    rw [hrun, outputs_bind, sentOf_append]
    have hlook : Composed (Look cfg True True) (bytesAt d 3 entry.size.toNat) := .act (.bytesAt d 3 _)
    rw [look_sent hlook]
    rfl
  have hfinal : (writeDid cfg d did entry).final u = { u with mem := blit u.mem addr data } := by
    rw [hrun, ← hsize]
    simp only [final_bind]
    exact congrArg (fun bytes => { u with mem := blit u.mem addr bytes }) hwrites.slice_data
  have hvalue : (writeDid cfg d did entry).value u = true := by
    rw [hrun]
    rfl
  have hctx : ((writeDid cfg d did entry).final u).ctx = u.ctx := by rw [hfinal]
  rw [settles_bind hsent hctx, hfinal, hvalue]

/-- The handler answers a write as the verdict says, and the storages keep what they hold, or the
data is put into the storage of the entry. -/
theorem writeDataById_settles (htx : 3 ≤ cfg.txBufferSize)
    (hsend : ∀ c data w, (cfg.fnTpSend c data w).1 ≤ 0)
    (hstorage : ∀ entry ∈ cfg.didTable, StorageEntry entry) (hflag : u.ctx.suppressPosResp = false)
    (hwrites : Writes d did data) :
    match writeVerdict cfg u.ctx did data with
    | .error nrc => Settles (handleWriteDataById cfg d) u
        [nrcServiceNotSuppInSess, sidWriteDataById, nrc] u.mem
    | .ok entry => ∀ addr, entry.storage = some addr → Settles (handleWriteDataById cfg d) u
        ((sidWriteDataById + responseOffset) :: idBytes did) (blit u.mem addr data) := by
  obtain ⟨-, hhigh, hlow⟩ := hwrites.bytes
  have hlen : ¬ d.len < 3 := by
    apply not_len_lt
    rw [hwrites.length]
    exact Nat.le_add_right 3 _
  have hrefused (nrc : UInt8) : Settles (sendNrc cfg sidWriteDataById nrc) u
      [nrcServiceNotSuppInSess, sidWriteDataById, nrc] u.mem := sendNrc_settles htx hsend _ nrc u
  unfold handleWriteDataById writeVerdict
  simp only [if_neg hlen, settles_byte cfg, hhigh, hlow, didAt_idBytes]
  cases hfound : findDid cfg did with
  | none => exact hrefused _
  | some entry =>
    have hentry := hstorage entry (List.mem_of_find?_eq_some hfound)
    dsimp only
    simp only [settles_sessionRefused cfg, decide_eq_true_eq]
    by_cases hsession : sessionShut entry u.ctx
    · simp only [if_pos hsession]
      exact hrefused _
    simp only [if_neg hsession, settles_securityRefused cfg, decide_eq_true_eq]
    by_cases hsecurity : securityShut entry u.ctx
    · simp only [if_pos hsecurity]
      exact hrefused _
    simp only [if_neg hsecurity]
    by_cases hsize : data.length = entry.size.toNat
    · have hexact : ¬ d.len ≠ 3 + entry.size := not_not_intro (hwrites.len_iff.mpr hsize)
      simp only [if_neg (not_not_intro hsize), if_neg hexact]
      intro addr haddr
      rw [settles_store hentry haddr hwrites hsize]
      exact respond_settles htx hsend hflag rfl
    · have hwrong : d.len ≠ 3 + entry.size := mt hwrites.len_iff.mp hsize
      simp only [ne_eq, if_pos hsize, if_pos hwrong]
      exact hrefused _

end UdsLib.Services
