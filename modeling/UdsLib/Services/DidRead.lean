import UdsLib.Core.Silence
import UdsLib.Services.Room

/-! The reference of a read request for several DIDs: what the DIDs hold, one behind the other, or the
NRC of the first one that cannot be read. The loop of the handler computes it in place. -/
namespace UdsLib.Services
open Bytes Machine Prog UdsLib.Core

variable {W : Type} {α : Type} {cfg : Config W} {d : Sdu} {s u : Sys W} {data : List UInt8}

/-- The two bytes of a DID. -/
def idBytes (did : UInt16) : List UInt8 := [(did >>> 8).toUInt8, did.toUInt8]

/-- The request reads these DIDs and is nothing else. -/
def Reads (d : Sdu) (dids : List UInt16) : Prop := d.bytes = sidReadDataById :: dids.flatMap idBytes

/-- The read callbacks of the table fill in exactly the size of their entry, or they return a negative
NRC. -/
def FillsExactly (cfg : Config W) : Prop :=
  ∀ entry ∈ cfg.didTable, entry.read = true → ∀ c off w,
    let reply := (cfg.app c (.didRead entry.id ⟨off, entry.size.toNat⟩) w).1
    reply.ret < 0 ∨ reply.out.length = entry.size.toNat

/-- What a DID holds, with the world behind the question. A callback is told to put the data at the
offset `off` of the response. -/
def dataOf (cfg : Config W) (c : Ctx) (mem : ℕ → UInt8) (did : UInt16) (entry : DidEntry) (off : ℕ)
    (w : W) : Except UInt8 (List UInt8) × W :=
  if entry.read then
    let r := cfg.app c (.didRead did ⟨off, entry.size.toNat⟩) w
    (if r.1.ret < 0 then .error (nrcOf r.1.ret) else .ok r.1.out, r.2)
  else
    (match entry.storage with
      | some addr => .ok (slice mem addr entry.size.toNat)
      | none => .error nrcConditionsNotCorrect, w)

/-- The reference. Behind `used` bytes of the response every DID has to be in the table, open to the
session and to the security level, small enough and readable, in this order. -/
def readAll (cfg : Config W) (c : Ctx) (mem : ℕ → UInt8) :
    List UInt16 → ℕ → W → Except UInt8 (List UInt8)
  | [], _, _ => .ok []
  | did :: dids, used, w =>
    match findDid cfg did with
    | none => .error nrcRequestOutOfRange
    | some entry =>
      if sessionShut entry c then .error nrcRequestOutOfRange
      else if securityShut entry c then .error nrcSecurityAccessDenied
      else if cfg.txBufferSize.toNat < used + 2 + entry.size.toNat then .error nrcResponseTooLong
      else do
        let bytes ← (dataOf cfg c mem did entry (used + 2) w).1
        let rest ← readAll cfg c mem dids (used + 2 + entry.size.toNat)
          (dataOf cfg c mem did entry (used + 2) w).2
        return idBytes did ++ bytes ++ rest

/-- The answer to a read request with this result. -/
def readReply : Except UInt8 (List UInt8) → List UInt8
  | .ok bytes => (sidReadDataById + responseOffset) :: bytes
  | .error nrc => [nrcServiceNotSuppInSess, sidReadDataById, nrc]

/-- One message is sent and the request is done. -/
structure Replies (m : M W ℤ) (s : Sys W) (data : List UInt8) : Prop where
  sent : sentOf (m.outputs s) = [data]
  done : m.value s ≠ udsPending

/-! ### The data of a DID -/

section
variable {c : Ctx} {mem : ℕ → UInt8} {did : UInt16} {entry : DidEntry} {off addr : ℕ} {w : W}

/-- The callback refuses. -/
theorem dataOf_refused (hread : entry.read = true)
    (hret : (cfg.app c (.didRead did ⟨off, entry.size.toNat⟩) w).1.ret < 0) :
    dataOf cfg c mem did entry off w =
      (.error (nrcOf (cfg.app c (.didRead did ⟨off, entry.size.toNat⟩) w).1.ret),
        (cfg.app c (.didRead did ⟨off, entry.size.toNat⟩) w).2) := by
  unfold dataOf
  rw [if_pos hread]
  dsimp only
  rw [if_pos hret]

/-- The callback fills in the data. -/
theorem dataOf_filled (hread : entry.read = true)
    (hret : ¬ (cfg.app c (.didRead did ⟨off, entry.size.toNat⟩) w).1.ret < 0) :
    dataOf cfg c mem did entry off w =
      (.ok (cfg.app c (.didRead did ⟨off, entry.size.toNat⟩) w).1.out,
        (cfg.app c (.didRead did ⟨off, entry.size.toNat⟩) w).2) := by
  unfold dataOf
  rw [if_pos hread]
  dsimp only
  rw [if_neg hret]

theorem dataOf_stored (hread : ¬ entry.read = true) (haddr : entry.storage = some addr) :
    dataOf cfg c mem did entry off w = (.ok (slice mem addr entry.size.toNat), w) := by
  unfold dataOf
  rw [if_neg hread, haddr]

theorem dataOf_missing (hread : ¬ entry.read = true) (hnone : entry.storage = none) :
    dataOf cfg c mem did entry off w = (.error nrcConditionsNotCorrect, w) := by
  unfold dataOf
  rw [if_neg hread, hnone]

end

/-! ### The identifiers of a request -/

theorem findDid_id {did : UInt16} {entry : DidEntry} (h : findDid cfg did = some entry) :
    entry.id = did := by
  have hid := List.find?_some h
  exact of_decide_eq_true hid

theorem didAt_idBytes (did : UInt16) :
    (did >>> 8).toUInt8.toUInt16 <<< 8 ||| did.toUInt8.toUInt16 = did := by
  have hdid := did.toNat_lt
  have hlow : did.toNat % 256 < 2 ^ 8 := Nat.mod_lt _ (by decide)
  have hhigh : ((did >>> 8).toUInt8.toUInt16 <<< 8).toNat = (did.toNat / 256) <<< 8 := by
    simp [UInt16.toNat_shiftLeft, UInt16.toNat_shiftRight, Nat.shiftRight_eq_div_pow,
      Nat.shiftLeft_eq]
    omega
  apply UInt16.toNat_inj.mp
  rw [UInt16.toNat_or, hhigh, UInt8.toNat_toUInt16, UInt16.toNat_toUInt8,
    ← Nat.shiftLeft_add_eq_or_of_lt hlow, Nat.shiftLeft_eq]
  omega

theorem flatMap_idBytes (dids : List UInt16) (k : ℕ) :
    (dids.flatMap idBytes)[2 * k]? = dids[k]?.map (fun did : UInt16 => (did >>> 8).toUInt8) ∧
      (dids.flatMap idBytes)[2 * k + 1]? = dids[k]?.map UInt16.toUInt8 := by
  induction dids generalizing k with
  | nil => simp
  | cons did dids ih =>
    cases k with
    | zero => simp [idBytes]
    | succ k => simpa [idBytes, Nat.mul_succ] using ih k

theorem length_flatMap_idBytes (dids : List UInt16) :
    (dids.flatMap idBytes).length = 2 * dids.length := by
  induction dids with
  | nil => rfl
  | cons did dids ih =>
    rw [List.flatMap_cons, List.length_append, ih, List.length_cons, idBytes]
    simp only [List.length_cons, List.length_nil]
    omega

theorem Reads.length {dids : List UInt16} (h : Reads d dids) :
    d.bytes.length = 2 * dids.length + 1 := by
  rw [h, List.length_cons, length_flatMap_idBytes]

theorem Reads.didAt {dids : List UInt16} (h : Reads d dids) {k : ℕ} (hk : k < dids.length) :
    Services.didAt d (2 * k + 1) = dids[k] := by
  obtain ⟨hhigh, hlow⟩ := flatMap_idBytes dids k
  unfold Services.didAt Sdu.byte
  rw [h, List.getD_cons_succ, List.getD_cons_succ, List.getD_eq_getElem?_getD,
    List.getD_eq_getElem?_getD, hhigh, hlow, List.getElem?_eq_getElem hk]
  simp only [Option.map_some, Option.getD_some]
  exact didAt_idBytes _

/-- The loop finds the DIDs that the request was made of. -/
theorem Reads.dids {dids : List UInt16} (h : Reads d dids) :
    (didPositions d.bytes.length).map (Services.didAt d) = dids := by
  have hcount : (d.bytes.length - 1) / 2 = dids.length := by
    rw [h.length]
    omega
  unfold didPositions
  rw [hcount]
  apply List.ext_getElem
  · simp
  · intro k hk hk'
    simpa using h.didAt hk'

/-! ### Replies -/

theorem replies_bind {m : M W α} {f : α → M W ℤ} (hm : sentOf (m.outputs s) = []) :
    Replies (m >>= f) s data ↔ Replies (f (m.value s)) (m.final s) data := by
  have hsent : sentOf ((m >>= f).outputs s) = sentOf ((f (m.value s)).outputs (m.final s)) := by
    rw [outputs_bind, sentOf_append, hm, List.nil_append]
  constructor
  · exact fun h => ⟨hsent.symm.trans h.sent, h.done⟩
  · exact fun h => ⟨hsent.trans h.sent, h.done⟩

theorem look_sent {P B : Prop} {m : M W α} (hm : Composed (Look cfg P B) m) (s : Sys W) :
    sentOf (m.outputs s) = [] := by
  apply List.filterMap_eq_nil_iff.mpr
  intro e he
  have hlook := (Look.composed hm s).events e he
  cases e with
  | tpSend origin data ret => exact absurd hlook Bool.false_ne_true
  | _ => rfl

theorem replies_byte (cfg : Config W) {i : ℕ} {f : UInt8 → M W ℤ} :
    Replies (byteAt d i >>= f) s data ↔ Replies (f (d.byte i)) s data := by
  have hlook : Composed (Look cfg True True) (byteAt d i) := .act (.byteAt d i)
  exact replies_bind (look_sent hlook s)

theorem replies_sessionRefused (cfg : Config W) {entry : DidEntry} {f : Bool → M W ℤ} :
    Replies (sessionRefused entry >>= f) s data ↔ Replies (f (sessionShut entry s.ctx)) s data := by
  have hlook : Composed (Look cfg True True) (sessionRefused entry) := sessionRefused_look entry
  rw [replies_bind (look_sent hlook s), sessionRefused_final, sessionRefused_value]

theorem replies_securityRefused (cfg : Config W) {entry : DidEntry} {f : Bool → M W ℤ} :
    Replies (securityRefused entry >>= f) s data ↔ Replies (f (securityShut entry s.ctx)) s data := by
  have hlook : Composed (Look cfg True True) (securityRefused entry) := securityRefused_look entry
  rw [replies_bind (look_sent hlook s), securityRefused_final, securityRefused_value]

theorem replies_read (cfg : Config W) {addr n : ℕ} {f : List UInt8 → M W ℤ} :
    Replies (readMem addr n >>= f) s data ↔ Replies (f (slice s.mem addr n)) s data := by
  have hlook : Composed (Look cfg True True) (readMem (W := W) addr n) := .act (.reads _)
  exact replies_bind (look_sent hlook s)

theorem replies_write {off : ℕ} {bs : List UInt8} {f : Unit → M W ℤ} :
    Replies (writeTx cfg off bs >>= f) s data ↔
      Replies (f ()) { s with tx := blit s.tx off bs } data := by
  apply replies_bind
  apply List.filterMap_eq_nil_iff.mpr
  exact faults_forall (fun _ => writeTx_faults s) fun _ => rfl

theorem replies_callOut {call : Call} {off : ℕ} {f : ℤ → M W ℤ} :
    Replies (invokeOut cfg call off >>= f) s data ↔ Replies (f (cfg.app s.ctx call s.world).1.ret)
      { s with
        tx := blit s.tx off (cfg.app s.ctx call s.world).1.out
        world := (cfg.app s.ctx call s.world).2 } data := by
  have hcall : sentOf ((invoke cfg call).outputs s) = [] := rfl
  have hwrite (bs : List UInt8) (t : Sys W) : sentOf ((writeTx cfg off bs).outputs t) = [] :=
    List.filterMap_eq_nil_iff.mpr (faults_forall (fun _ => writeTx_faults t) fun _ => rfl)
  apply replies_bind
  unfold invokeOut
  rw [outputs_bind, sentOf_append, hcall, outputs_bind, sentOf_append, hwrite]
  rfl

theorem sendNrc_replies (htx : 3 ≤ cfg.txBufferSize)
    (hsend : ∀ c data w, (cfg.fnTpSend c data w).1 ≤ 0) (sid nrc : UInt8) (s : Sys W) :
    Replies (sendNrc cfg sid nrc) s [nrcServiceNotSuppInSess, sid, nrc] := by
  constructor
  · rw [sendNrc_sent, if_pos htx]
  · exact nonpos_ne_pending (sendNrc_nonpos hsend sid nrc s)

theorem sendResponse_replies (hsend : ∀ c data w, (cfg.fnTpSend c data w).1 ≤ 0) {len : UInt16}
    (hlen : len ≤ cfg.txBufferSize) (hflag : s.ctx.suppressPosResp = false) :
    Replies (sendResponse cfg len) s (slice s.tx 0 len.toNat) := by
  constructor
  · unfold outputs
    rw [sendResponse_sends hlen hflag]
    rfl
  · unfold value
    rw [sendResponse_sends hlen hflag]
    exact nonpos_ne_pending (hsend _ _ _)

/-! ### The loop -/

/-- The bytes behind the first one that the response has so far. -/
def gathered (s : Sys W) (txLen : UInt16) : List UInt8 := slice s.tx 1 (txLen.toNat - 1)

/-- What the loop goes on to answer behind these bytes. -/
def loopAnswer (cfg : Config W) (s : Sys W) (dids : List UInt16) (txLen : UInt16) : List UInt8 :=
  readReply ((readAll cfg s.ctx s.mem dids txLen.toNat s.world).map (gathered s txLen ++ ·))

/-- The space that the loop looks for is that of the reference. -/
theorem room_iff {txLen size tx : UInt16} : txLen.toUInt32 + size.toUInt32 + 2 > tx.toUInt32 ↔
    tx.toNat < txLen.toNat + 2 + size.toNat := by
  have htwo : (2 : UInt32).toNat = 2 := rfl
  have := txLen.toNat_lt
  have := size.toNat_lt
  have := tx.toNat_lt
  rw [gt_iff_lt, UInt32.lt_iff_toNat_lt, UInt32.toNat_add, UInt32.toNat_add, UInt16.toNat_toUInt32,
    UInt16.toNat_toUInt32, UInt16.toNat_toUInt32, htwo]
  omega

/-- A part that has been looked at for space fits. -/
theorem room_next {txLen size tx : UInt16} (h : ¬ tx.toNat < txLen.toNat + 2 + size.toNat) :
    (txLen + 2).toNat = txLen.toNat + 2 ∧
      (txLen + 2 + size).toNat = txLen.toNat + 2 + size.toNat ∧ txLen + 2 + size ≤ tx := by
  have htwo : (2 : UInt16).toNat = 2 := rfl
  have htx := tx.toNat_lt
  have hid := UInt16.toNat_add txLen 2
  have hdata := UInt16.toNat_add (txLen + 2) size
  rw [htwo] at hid
  rw [UInt16.le_iff_toNat_le]
  omega

/-- One DID with its data is put behind the others. -/
theorem gathered_next {t : Sys W} {txLen size : UInt16} {did : UInt16} {bytes : List UInt8}
    (hpos : 1 ≤ txLen.toNat) (hnext : (txLen + 2 + size).toNat = txLen.toNat + 2 + size.toNat)
    (hbytes : bytes.length = size.toNat)
    (ht : t.tx = blit (blit s.tx txLen.toNat (idBytes did)) (txLen.toNat + 2) bytes) :
    gathered t (txLen + 2 + size) = gathered s txLen ++ idBytes did ++ bytes := by
  have hid : slice (blit s.tx txLen.toNat (idBytes did)) 1 (txLen.toNat - 1 + 2) =
      gathered s txLen ++ idBytes did := by
    have h := slice_blit_behind s.tx 1 (txLen.toNat - 1) (idBytes did)
    rwa [Nat.add_sub_cancel' hpos] at h
  have hdata := slice_blit_behind (blit s.tx txLen.toNat (idBytes did)) 1 (txLen.toNat - 1 + 2) bytes
  have hoff : 1 + (txLen.toNat - 1 + 2) = txLen.toNat + 2 := by omega
  have hlen : (txLen + 2 + size).toNat - 1 = txLen.toNat - 1 + 2 + bytes.length := by omega
  unfold gathered at *
  rw [ht, hlen, ← hid, ← hdata, hoff]

/-- A DID that can be read is answered with its data. -/
theorem loopAnswer_next {t : Sys W} {txLen did : UInt16} {dids : List UInt16} {entry : DidEntry}
    {bytes : List UInt8} (hfound : findDid cfg did = some entry) (hsession : ¬ sessionShut entry s.ctx)
    (hsecurity : ¬ securityShut entry s.ctx)
    (hroom : ¬ cfg.txBufferSize.toNat < txLen.toNat + 2 + entry.size.toNat)
    (hdata : dataOf cfg s.ctx s.mem did entry (txLen.toNat + 2) s.world = (.ok bytes, t.world))
    (hctx : t.ctx = s.ctx) (hmem : t.mem = s.mem)
    (hgathered : gathered t (txLen + 2 + entry.size) = gathered s txLen ++ idBytes did ++ bytes) :
    loopAnswer cfg s (did :: dids) txLen = loopAnswer cfg t dids (txLen + 2 + entry.size) := by
  obtain ⟨-, hnext, -⟩ := room_next hroom
  unfold loopAnswer
  rw [readAll, hfound]
  dsimp only
  rw [if_neg hsession, if_neg hsecurity, if_neg hroom, hdata, hctx, hmem, hgathered, hnext]
  cases readAll cfg s.ctx s.mem dids (txLen.toNat + 2 + entry.size.toNat) t.world with
  | error nrc => rfl
  | ok rest => simp [Except.map, bind, Except.bind, pure, Except.pure, List.append_assoc]

/-- The first DID that fails is answered with its NRC. -/
theorem loopAnswer_error {txLen : UInt16} {dids : List UInt16} {nrc : UInt8}
    (h : readAll cfg s.ctx s.mem dids txLen.toNat s.world = .error nrc) :
    loopAnswer cfg s dids txLen = [nrcServiceNotSuppInSess, sidReadDataById, nrc] := by
  unfold loopAnswer
  rw [h]
  rfl

/-- With its first byte the response is what the loop has put together. -/
theorem gathered_all {txLen : UInt16} (hpos : 1 ≤ txLen.toNat) :
    slice (blit s.tx 0 [sidReadDataById + responseOffset]) 0 txLen.toNat =
      loopAnswer cfg s [] txLen := by
  have hlen : 1 + (txLen.toNat - 1) = txLen.toNat := by omega
  have hhead := slice_blit_self s.tx 0 [sidReadDataById + responseOffset]
  have hrest : slice (blit s.tx 0 [sidReadDataById + responseOffset]) 1 (txLen.toNat - 1) =
      gathered s txLen :=
    slice_congr fun k _ => blit_outside s.tx 0 _ _ (.inr (Nat.le_add_right 1 k))
  have hall := slice_add (blit s.tx 0 [sidReadDataById + responseOffset]) 0 1 (txLen.toNat - 1)
  rw [hlen, hrest] at hall
  unfold loopAnswer readAll
  rw [hall]
  exact congrArg₂ _ hhead (List.append_nil _).symm

/-- The loop with what follows it answers as the reference says. -/
theorem readDids_replies (htx : 3 ≤ cfg.txBufferSize)
    (hsend : ∀ c data w, (cfg.fnTpSend c data w).1 ≤ 0) (hfill : FillsExactly cfg) (is : List ℕ)
    {txLen : UInt16} (hflag : s.ctx.suppressPosResp = false) (hpos : 1 ≤ txLen.toNat)
    (hfits : txLen ≤ cfg.txBufferSize) :
    Replies (readDids cfg d is txLen) s (loopAnswer cfg s (is.map (didAt d)) txLen) := by
  -- `loopAnswer` carries what is gathered, so the answer stays the same from one DID to the next
  induction is generalizing txLen s with
  | nil =>
    unfold readDids
    rw [replies_write, List.map_nil, ← gathered_all hpos]
    exact sendResponse_replies hsend hfits hflag
  | cons i is ih =>
    have hid : (d.byte i).toUInt16 <<< 8 ||| (d.byte (i + 1)).toUInt16 = didAt d i := rfl
    have hrefused {nrc : UInt8} {dids : List UInt16} (t : Sys W)
        (h : readAll cfg s.ctx s.mem dids txLen.toNat s.world = .error nrc) :
        Replies (sendNrc cfg sidReadDataById nrc) t (loopAnswer cfg s dids txLen) := by
      rw [loopAnswer_error h]
      exact sendNrc_replies htx hsend _ _ t
    unfold readDids
    rw [replies_byte cfg, replies_byte cfg, List.map_cons]
    dsimp only
    rw [hid]
    cases hfound : findDid cfg (didAt d i) with
    | none => exact hrefused s (by simp [readAll, hfound])
    | some entry =>
      dsimp only
      rw [replies_sessionRefused cfg]
      simp only [decide_eq_true_eq]
      by_cases hsession : sessionShut entry s.ctx
      · rw [if_pos hsession]
        exact hrefused s (by simp [readAll, hfound, hsession])
      rw [if_neg hsession, replies_securityRefused cfg]
      simp only [decide_eq_true_eq]
      by_cases hsecurity : securityShut entry s.ctx
      · rw [if_pos hsecurity]
        exact hrefused s (by simp [readAll, hfound, hsession, hsecurity])
      rw [if_neg hsecurity]
      by_cases hroom : cfg.txBufferSize.toNat < txLen.toNat + 2 + entry.size.toNat
      · rw [if_pos (room_iff.mpr hroom)]
        exact hrefused s (by simp [readAll, hfound, hsession, hsecurity, hroom])
      obtain ⟨hoff, hnext, hle⟩ := room_next hroom
      have hnextPos : 1 ≤ (txLen + 2 + entry.size).toNat := by omega
      have hunread {nrc : UInt8} {w : W}
          (h : dataOf cfg s.ctx s.mem (didAt d i) entry (txLen.toNat + 2) s.world = (.error nrc, w)) :
          readAll cfg s.ctx s.mem (didAt d i :: is.map (didAt d)) txLen.toNat s.world =
            .error nrc := by
        rw [readAll, hfound]
        dsimp only
        rw [if_neg hsession, if_neg hsecurity, if_neg hroom, h]
        rfl
      rw [if_neg (mt room_iff.mp hroom), replies_write, hoff]
      by_cases hread : entry.read = true
      · rw [if_pos hread, replies_callOut]
        let r := cfg.app s.ctx (.didRead (didAt d i) ⟨txLen.toNat + 2, entry.size.toNat⟩) s.world
        change Replies (if r.1.ret < 0 then _ else _) _ _
        by_cases hrefuses : r.1.ret < 0
        · rw [if_pos hrefuses]
          exact hrefused _ (hunread (dataOf_refused hread hrefuses))
        · have hbytes : r.1.out.length = entry.size.toNat := by
            have hdid : entry.id = didAt d i := findDid_id hfound
            have hfilled := hfill entry (List.mem_of_find?_eq_some hfound) hread s.ctx
              (txLen.toNat + 2) s.world
            rw [hdid] at hfilled
            exact hfilled.resolve_left hrefuses
          rw [if_neg hrefuses]
          let t : Sys W := { s with
            tx := blit (blit s.tx txLen.toNat (idBytes (didAt d i))) (txLen.toNat + 2) r.1.out
            world := r.2 }
          have hgathered := gathered_next (t := t) hpos hnext hbytes rfl
          rw [loopAnswer_next (t := t) hfound hsession hsecurity hroom (dataOf_filled hread hrefuses)
            rfl rfl hgathered]
          exact ih hflag hnextPos hle
      · rw [if_neg hread]
        cases hstorage : entry.storage with
        | none => exact hrefused _ (hunread (dataOf_missing hread hstorage))
        | some addr =>
          have hbytes := slice_length s.mem addr entry.size.toNat
          let t : Sys W := { s with
            tx := blit (blit s.tx txLen.toNat (idBytes (didAt d i))) (txLen.toNat + 2)
              (slice s.mem addr entry.size.toNat) }
          have hgathered := gathered_next (t := t) hpos hnext hbytes rfl
          rw [loopAnswer_next (t := t) hfound hsession hsecurity hroom (dataOf_stored hread hstorage)
            rfl rfl hgathered]
          dsimp only
          rw [replies_read cfg, replies_write]
          exact ih hflag hnextPos hle

/-- The handler answers as the reference says. -/
theorem readDataById_replies (htx : 3 ≤ cfg.txBufferSize)
    (hsend : ∀ c data w, (cfg.fnTpSend c data w).1 ≤ 0) (hfill : FillsExactly cfg)
    (hflag : u.ctx.suppressPosResp = false) {dids : List UInt16} (hreads : Reads d dids) :
    Replies (handleReadDataById cfg d) u
      (readReply (readAll cfg u.ctx u.mem dids 1 u.world)) := by
  have hone : (1 : UInt16).toNat = 1 := rfl
  have hfits : 1 ≤ cfg.txBufferSize := UInt16.le_trans (by decide) htx
  have hloop := readDids_replies (d := d) htx hsend hfill (didPositions d.bytes.length) hflag
    hone.ge hfits
  have hstart : loopAnswer cfg u dids 1 = readReply (readAll cfg u.ctx u.mem dids 1 u.world) := by
    unfold loopAnswer
    rw [hone]
    cases readAll cfg u.ctx u.mem dids 1 u.world with
    | error nrc => rfl
    | ok bytes => rfl
  rwa [hreads.dids, hstart] at hloop

end UdsLib.Services
