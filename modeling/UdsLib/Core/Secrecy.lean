import Mathlib.Data.List.Pairwise
import UdsLib.Core.DidSessions
import UdsLib.Machine.Twin

/-! Reads and writes of DIDs that are closed to the session and the security level. Two runs whose
memories differ in the storages of closed DIDs alone cannot be told apart, and leave these storages
as they are. -/
namespace UdsLib.Core
open Bytes Machine Prog Services

variable {W : Type} {cfg : Config W} {c : Ctx} {d : Sdu} {s t : Sys W} {h k : ℕ → UInt8}
  {α β : Type}

/-- The session test or the security test of the handlers refuses the entry. -/
def ClosedTo (c : Ctx) (entry : DidEntry) : Prop := sessionShut entry c ∨ securityShut entry c

/-- The address lies in the storage of the entry. -/
def InStorage (entry : DidEntry) (a : ℕ) : Prop :=
  ∃ base, entry.storage = some base ∧ base ≤ a ∧ a < base + entry.size.toNat

/-- No address lies in the storages of both entries. -/
def StoredApart (e f : DidEntry) : Prop := ∀ a, InStorage e a → ¬ InStorage f a

instance : Std.Symm StoredApart where
  symm _ _ h a hf he := h a he hf

/-- The address lies in the storage of an entry that is closed. -/
def Secret (cfg : Config W) (c : Ctx) (a : ℕ) : Prop :=
  ∃ entry ∈ cfg.didTable, ClosedTo c entry ∧ InStorage entry a

/-- The two states differ in secret bytes alone. The session and the level are those of `c`, and the
secret bytes are those of `h` in the first state and those of `k` in the second. -/
structure Veiled (cfg : Config W) (c : Ctx) (h k : ℕ → UInt8) (s t : Sys W) : Prop where
  same : t = { s with mem := t.mem }
  pair : s.ctx.pair = c.pair
  secret : ∀ a, Secret cfg c a → s.mem a = h a ∧ t.mem a = k a
  others : ∀ a, ¬ Secret cfg c a → t.mem a = s.mem a

/-- Run in two states that differ in secret bytes alone, the program has the same value, puts out the
same and ends in such states again. -/
def Seals (cfg : Config W) (c : Ctx) (m : M W α) : Prop :=
  ∀ h k s t, Veiled cfg c h k s t →
    Twin Eq m m s t fun a u b v => a = b ∧ Veiled cfg c h k u v

theorem eq_congruence : Congruence (Eq : List Event → List Event → Prop) where
  nil := rfl
  append h h' := by rw [h, h']

/-! ### Programs that do not look at the storages -/

theorem Veiled.step {s' t' : Sys W} (h' : Veiled cfg c h k s t) (hsame : t' = { s' with mem := t.mem })
    (hmem : s'.mem = s.mem) (hpair : s'.ctx.pair = s.ctx.pair) : Veiled cfg c h k s' t' where
  same := by
    rw [hsame]
  pair := hpair.trans h'.pair
  secret a ha := by
    rw [hsame, hmem]
    exact h'.secret a ha
  others a ha := by
    rw [hsame, hmem]
    exact h'.others a ha

/-- A program that does not look at the memory of the storages, and leaves it and the session and the
level alone. -/
theorem seals_blind {m : M W α}
    (hblind : ∀ (s : Sys W) mem, m { s with mem := mem } =
      (m.value s, { m.final s with mem := mem }, m.outputs s))
    (hmem : ∀ s, (m.final s).mem = s.mem) (hpair : ∀ s, (m.final s).ctx.pair = s.ctx.pair) :
    Seals cfg c m := by
  intro h k s t hst
  have hrun : m t = (m.value s, { m.final s with mem := t.mem }, m.outputs s) := by
    conv_lhs => rw [hst.same]
    exact hblind s t.mem
  constructor
  · exact (congrArg (fun r => r.2.2) hrun).symm
  · constructor
    · exact (congrArg (fun r => r.1) hrun).symm
    · exact hst.step (congrArg (fun r => r.2.1) hrun) (hmem s) (hpair s)

theorem seals_pure (a : α) : Seals cfg c (pure a : M W α) :=
  fun _ _ _ _ hst => eq_congruence.pure ⟨rfl, hst⟩

/-- A program that goes on with a value it can have in the session and the level. -/
theorem Seals.bind {m : M W α} {f : α → M W β} (hm : Seals cfg c m)
    (hf : ∀ s, s.ctx.pair = c.pair → Seals cfg c (f (m.value s))) : Seals cfg c (m >>= f) := by
  intro h k s t hst
  obtain ⟨houtputs, hvalue, hends⟩ := hm h k s t hst
  apply eq_congruence.bind_at houtputs
  rw [← hvalue]
  exact hf s hst.pair h k _ _ hends

theorem Seals.ite {p : Prop} [Decidable p] {m n : M W α} (hm : p → Seals cfg c m)
    (hn : ¬ p → Seals cfg c n) : Seals cfg c (if p then m else n) := by
  split_ifs with hp
  · exact hm hp
  · exact hn hp

theorem Seals.optional {p : Prop} [Decidable p] {m : M W Unit} (hm : Seals cfg c m) :
    Seals cfg c (onlyIf p m) :=
  .ite (fun _ => hm) fun _ => seals_pure ()

theorem seals_ctx {f : Ctx → M W α} (hf : ∀ c', c'.pair = c.pair → Seals cfg c (f c')) :
    Seals cfg c (getCtx >>= f) :=
  .bind (seals_blind (fun _ _ => rfl) (fun _ => rfl) fun _ => rfl) fun s hs => hf s.ctx hs

theorem seals_setCtx {g : Ctx → Ctx} (hg : ∀ c, (g c).pair = c.pair) :
    Seals cfg c (setCtx g : M W Unit) :=
  seals_blind (fun _ _ => rfl) (fun _ => rfl) fun s => hg s.ctx

theorem seals_assign {g : Ctx → Ctx} {f : Unit → M W α} (hg : ∀ c, (g c).pair = c.pair)
    (hf : Seals cfg c (f ())) : Seals cfg c (setCtx g >>= f) :=
  (seals_setCtx hg).bind fun _ _ => hf

theorem seals_emit (e : Event) : Seals cfg c (emit e : M W Unit) :=
  seals_blind (fun _ _ => rfl) (fun _ => rfl) fun _ => rfl

theorem seals_time : Seals cfg c (getTime cfg) :=
  seals_blind (fun _ _ => rfl) (fun _ => rfl) fun _ => rfl

theorem seals_invoke (call : Call) : Seals cfg c (invoke cfg call) :=
  seals_blind (fun _ _ => rfl) (fun _ => rfl) fun _ => rfl

theorem seals_invokeVoid (call : Call) : Seals cfg c (invokeVoid cfg call) :=
  (seals_invoke call).bind fun _ _ => seals_pure ()

theorem seals_byteAt (i : ℕ) : Seals cfg c (byteAt d i) :=
  seals_blind (fun _ _ => rfl) (fun _ => rfl) fun _ => rfl

theorem seals_bytesAt (off n : ℕ) : Seals cfg c (bytesAt d off n) :=
  seals_blind (fun _ _ => rfl) (fun _ => rfl) fun _ => rfl

theorem seals_writeTx (off : ℕ) (bs : List UInt8) : Seals cfg c (writeTx cfg off bs) :=
  seals_blind (fun _ _ => rfl) (fun _ => rfl) fun _ => rfl

theorem seals_invokeOut (call : Call) (off : ℕ) : Seals cfg c (invokeOut cfg call off) :=
  (seals_invoke call).bind fun _ _ => (seals_writeTx _ _).bind fun _ _ => seals_pure _

theorem seals_tpSend (origin : Origin) (len : ℕ) : Seals cfg c (tpSend cfg origin len) :=
  seals_blind (fun _ _ => rfl) (fun _ => rfl) fun _ => rfl

theorem seals_sendNrc (sid nrc : UInt8) : Seals cfg c (sendNrc cfg sid nrc) := by
  unfold sendNrc
  apply Seals.ite fun _ => seals_pure _
  intro _
  apply seals_ctx
  intro c' _
  apply Seals.bind
  · apply Seals.optional
    exact seals_setCtx fun _ => rfl
  intro _ _
  exact (seals_writeTx _ _).bind fun _ _ => seals_tpSend _ _

theorem seals_reject (sid nrc : UInt8) : Seals cfg c (reject cfg sid nrc) :=
  (seals_sendNrc sid nrc).bind fun _ _ => seals_pure ()

theorem seals_sendResponse (len : UInt16) : Seals cfg c (sendResponse cfg len) := by
  unfold sendResponse
  apply Seals.ite fun _ => seals_pure _
  intro _
  apply seals_assign
  · exact fun _ => rfl
  apply seals_ctx
  intro c' _
  apply Seals.ite
  · intro _
    apply seals_assign
    · exact fun _ => rfl
    · exact (seals_emit _).bind fun _ _ => seals_pure _
  · intro _
    apply seals_assign
    · exact fun _ => rfl
    · exact seals_tpSend _ _

theorem seals_mutexLock : Seals cfg c (mutexLock cfg) := .optional (seals_invokeVoid _)

theorem seals_mutexUnlock : Seals cfg c (mutexUnlock cfg) := .optional (seals_invokeVoid _)

theorem seals_clientRequest (sid : UInt8) (data : Buf) (cb : Option ℕ) :
    Seals cfg c (clientRequest cfg sid data cb) := by
  have hbody : Seals cfg c (requestBody cfg sid data cb) := by
    unfold requestBody
    apply Seals.ite fun _ => seals_pure _
    intro _
    apply Seals.ite fun _ => seals_pure _
    intro _
    apply seals_mutexLock.bind
    intro _ _
    apply seals_assign
    · exact fun _ => rfl
    apply (seals_writeTx _ _).bind
    intro _ _
    apply (seals_writeTx _ _).bind
    intro _ _
    apply (seals_tpSend _ _).bind
    intro _ _
    exact seals_mutexUnlock.bind fun _ _ => seals_pure _
  exact hbody.bind fun _ _ => (seals_emit _).bind fun _ _ => seals_pure _

theorem seals_runApp (p : AppProg W) : Seals cfg c (runApp cfg p) := by
  induction p with
  | done res => exact seals_pure res
  | look k ih =>
    exact (seals_blind (m := reads fun s : Sys W => (s.ctx, s.world)) (fun _ _ => rfl) (fun _ => rfl)
      fun _ => rfl).bind fun _ _ => ih _ _
  | put w k ih =>
    exact (seals_blind (m := modify fun s : Sys W => { s with world := w }) (fun _ _ => rfl)
      (fun _ => rfl) fun _ => rfl).bind fun _ _ => ih
  | fill off bytes k ih =>
    exact (seals_blind (m := modify fun s : Sys W => { s with tx := blit s.tx off bytes })
      (fun _ _ => rfl) (fun _ => rfl) fun _ => rfl).bind fun _ _ => ih
  | sendResponse len k ih => exact (seals_sendResponse len).bind fun _ _ => ih _
  | sendNrc sid nrc k ih => exact (seals_sendNrc sid nrc).bind fun _ _ => ih _
  | clientRequest sid data cb k ih => exact (seals_clientRequest sid data cb).bind fun _ _ => ih _

/-! ### The handlers -/

theorem sessionShut_congr {c' : Ctx} {entry : DidEntry} (hpair : c'.pair = c.pair) :
    sessionShut entry c' ↔ sessionShut entry c := by
  have hsession : c'.activeSession = c.activeSession := congrArg Prod.fst hpair
  unfold sessionShut
  rw [hsession]

theorem securityShut_congr {c' : Ctx} {entry : DidEntry} (hpair : c'.pair = c.pair) :
    securityShut entry c' ↔ securityShut entry c := by
  have hlevel : c'.securityLevel = c.securityLevel := congrArg Prod.snd hpair
  unfold securityShut
  rw [hlevel]

theorem seals_maskAdmits (shift mask : UInt32) : Seals cfg c (maskAdmits shift mask : M W Bool) :=
  (Seals.optional (seals_emit _)).bind fun _ _ => seals_pure _

/-- A test that depends on the session and the level only. -/
theorem seals_test {test : M W Bool} {shut : Ctx → Prop} [DecidablePred shut] {m n : M W α}
    (htest : Seals cfg c test) (hvalue : ∀ s, test.value s = decide (shut s.ctx))
    (hcongr : ∀ c', c'.pair = c.pair → (shut c' ↔ shut c)) (hm : Seals cfg c m)
    (hn : ¬ shut c → Seals cfg c n) :
    Seals cfg c (test >>= fun refused => if refused = true then m else n) := by
  apply htest.bind
  intro s hs
  rw [hvalue]
  apply Seals.ite fun _ => hm
  intro hopen
  apply hn
  rw [← hcongr s.ctx hs]
  exact fun hshut => hopen (decide_eq_true hshut)

/-- A test that refuses, or tells that the entry is open to the session. -/
theorem seals_sessionTest {entry : DidEntry} {m n : M W α} (hm : Seals cfg c m)
    (hn : ¬ sessionShut entry c → Seals cfg c n) :
    Seals cfg c (sessionRefused entry >>= fun refused => if refused = true then m else n) := by
  have htest : Seals cfg c (sessionRefused entry : M W Bool) := by
    apply Seals.ite fun _ => seals_pure _
    intro _
    apply seals_ctx
    intro c' _
    exact (seals_maskAdmits _ _).bind fun _ _ => seals_pure _
  exact seals_test htest (sessionRefused_value entry) (fun _ => sessionShut_congr) hm hn

theorem seals_securityTest {entry : DidEntry} {m n : M W α} (hm : Seals cfg c m)
    (hn : ¬ securityShut entry c → Seals cfg c n) :
    Seals cfg c (securityRefused entry >>= fun refused => if refused = true then m else n) := by
  have htest : Seals cfg c (securityRefused entry : M W Bool) := by
    apply Seals.ite fun _ => seals_pure _
    intro _
    apply seals_ctx
    intro c' _
    exact (seals_maskAdmits _ _).bind fun _ _ => seals_pure _
  exact seals_test htest (securityRefused_value entry) (fun _ => securityShut_congr) hm hn

/-- The storage of an entry that is open holds no secret. -/
theorem not_secret {entry : DidEntry} {a : ℕ} (hapart : cfg.didTable.Pairwise StoredApart)
    (hentry : entry ∈ cfg.didTable) (hopen : ¬ ClosedTo c entry) (ha : InStorage entry a) :
    ¬ Secret cfg c a := by
  rintro ⟨f, hf, hclosed, hin⟩
  have hne : entry ≠ f := by
    rintro rfl
    exact hopen hclosed
  exact hapart.forall hentry hf hne a ha hin

theorem seals_readMem {base n : ℕ} (hopen : ∀ i < n, ¬ Secret cfg c (base + i)) :
    Seals cfg c (readMem base n : M W (List UInt8)) := by
  intro h k s t hst
  constructor
  · rfl
  · refine ⟨slice_congr fun i hi => ?_, hst⟩
    exact (hst.others _ (hopen i hi)).symm

theorem seals_writeMem {base : ℕ} {bs : List UInt8}
    (hopen : ∀ i < bs.length, ¬ Secret cfg c (base + i)) :
    Seals cfg c (writeMem base bs : M W Unit) := by
  intro h k s t hst
  constructor
  · rfl
  refine ⟨rfl, ?_, hst.pair, ?_, ?_⟩
  · exact congrArg (fun r : Sys W => { r with mem := blit t.mem base bs }) hst.same
  · intro a ha
    have hout : a < base ∨ base + bs.length ≤ a := by
      by_contra hin
      have hsecret := hopen (a - base) (by omega)
      rw [show base + (a - base) = a by omega] at hsecret
      exact hsecret ha
    change blit s.mem base bs a = _ ∧ blit t.mem base bs a = _
    rw [blit_outside _ _ _ _ hout, blit_outside _ _ _ _ hout]
    exact hst.secret a ha
  · intro a ha
    change blit t.mem base bs a = blit s.mem base bs a
    unfold blit
    rw [hst.others a ha]

/-- A loop over DIDs. -/
theorem seals_readDids (hapart : cfg.didTable.Pairwise StoredApart) (is : List ℕ) (txLen : UInt16) :
    Seals cfg c (readDids cfg d is txLen) := by
  induction is generalizing txLen with
  | nil => exact (seals_writeTx _ _).bind fun _ _ => seals_sendResponse _
  | cons i is ih =>
    unfold readDids
    apply (seals_byteAt i).bind
    intro _ _
    apply (seals_byteAt (i + 1)).bind
    intro _ _
    dsimp only
    split
    next entry hentry =>
      apply seals_sessionTest (seals_sendNrc _ _)
      intro hsession
      apply seals_securityTest (seals_sendNrc _ _)
      intro hsecurity
      apply Seals.ite fun _ => seals_sendNrc _ _
      intro _
      apply (seals_writeTx _ _).bind
      intro _ _
      apply Seals.ite
      · intro _
        apply (seals_invokeOut _ _).bind
        intro _ _
        exact .ite (fun _ => seals_sendNrc _ _) fun _ => ih _
      · intro _
        split
        next storage hstorage =>
          have hopen : ¬ ClosedTo c entry := fun h => h.elim hsession hsecurity
          have hmem : entry ∈ cfg.didTable := List.mem_of_find?_eq_some hentry
          apply (seals_readMem fun i hi => ?_).bind
          · intro _ _
            exact (seals_writeTx _ _).bind fun _ _ => ih _
          · exact not_secret hapart hmem hopen ⟨storage, hstorage, by omega, by omega⟩
        next => exact seals_sendNrc _ _
    next => exact seals_sendNrc _ _

theorem seals_writeDid (hapart : cfg.didTable.Pairwise StoredApart) {entry : DidEntry}
    (hentry : entry ∈ cfg.didTable) (hopen : ¬ ClosedTo c entry) (did : UInt16) :
    Seals cfg c (writeDid cfg d did entry) := by
  unfold writeDid
  apply Seals.ite
  · exact fun _ => (seals_invoke _).bind fun _ _ => seals_pure _
  intro _
  split
  next storage hstorage =>
    apply (seals_bytesAt _ _).bind
    intro s _
    have hlength : ((bytesAt d 3 entry.size.toNat).value s).length = entry.size.toNat := slice_length ..
    apply (seals_writeMem fun i hi => ?_).bind
    · exact fun _ _ => seals_pure _
    · rw [hlength] at hi
      exact not_secret hapart hentry hopen ⟨storage, hstorage, by omega, by omega⟩
  next => exact seals_pure _

theorem seals_writeDataById (hapart : cfg.didTable.Pairwise StoredApart) :
    Seals cfg c (handleWriteDataById cfg d) := by
  unfold handleWriteDataById
  apply Seals.ite fun _ => seals_sendNrc _ _
  intro _
  apply (seals_byteAt 1).bind
  intro _ _
  apply (seals_byteAt 2).bind
  intro _ _
  dsimp only
  split
  next entry hentry =>
    apply seals_sessionTest (seals_sendNrc _ _)
    intro hsession
    apply seals_securityTest (seals_sendNrc _ _)
    intro hsecurity
    apply Seals.ite fun _ => seals_sendNrc _ _
    intro _
    have hopen : ¬ ClosedTo c entry := fun h => h.elim hsession hsecurity
    apply (seals_writeDid hapart (List.mem_of_find?_eq_some hentry) hopen _).bind
    intro _ _
    apply Seals.ite
    · exact fun _ => (seals_writeTx _ _).bind fun _ _ => seals_sendResponse _
    · exact fun _ => seals_sendNrc _ _
  next => exact seals_sendNrc _ _

/-! ### The calls -/

/-- The messages that are reads or writes of DIDs. -/
def NamesDid (d : Sdu) : Prop := d.byte 0 = sidReadDataById ∨ d.byte 0 = sidWriteDataById

theorem seals_handler (hapart : cfg.didTable.Pairwise StoredApart) (hsid : NamesDid d)
    {service : Service W} (h : Chosen cfg (d.byte 0) service) : Seals cfg c (service.handler d) := by
  rcases h with ⟨_, entry, _, -, -, -, rfl⟩ | ⟨-, hcore, hserved⟩
  · exact seals_runApp _
  · have hfound := (find?_sid coreServices_nodup service).mpr ⟨hcore, hserved⟩
    rcases hsid with hread | hwrite
    · rw [hread] at hfound
      obtain rfl := Option.some.inj hfound
      exact seals_readDids hapart _ _
    · rw [hwrite] at hfound
      obtain rfl := Option.some.inj hfound
      exact seals_writeDataById hapart

theorem seals_executeHandler {service : Service W} (h : Seals cfg c (service.handler d)) :
    Seals cfg c (executeHandler cfg service d) := by
  unfold executeHandler
  apply (seals_emit _).bind
  intro _ _
  apply h.bind
  intro _ _
  apply Seals.optional
  apply (seals_byteAt 0).bind
  intro _ _
  apply (seals_sendNrc _ _).bind
  intro _ _
  apply seals_assign
  · exact fun _ => rfl
  apply seals_time.bind
  intro _ _
  exact seals_setCtx fun _ => rfl

theorem seals_safetyGate (sid : UInt8) : Seals cfg c (safetyGate cfg sid d) := by
  unfold safetyGate
  apply Seals.ite fun _ => seals_pure _
  exact fun _ => (seals_invoke _).bind fun _ _ => seals_pure _

theorem seals_handleRequest (hapart : cfg.didTable.Pairwise StoredApart) (hsid : NamesDid d) :
    Seals cfg c (handleRequest cfg d) := by
  have hchecked {service : Service W} (h : Seals cfg c (service.handler d)) (sid : UInt8) :
      Seals cfg c (handleChecked cfg service sid d) := by
    unfold handleChecked
    apply Seals.ite fun _ => seals_reject _ _
    intro _
    apply seals_ctx
    intro c' _
    apply Seals.ite fun _ => seals_reject _ _
    intro _
    apply (seals_safetyGate sid).bind
    intro _ _
    exact .ite (fun _ => seals_reject _ _) fun _ => seals_executeHandler h
  unfold handleRequest
  apply (seals_emit _).bind
  intro _ _
  apply (seals_byteAt 0).bind
  intro s _
  have hbyte : (byteAt d 0).value s = d.byte 0 := rfl
  rw [hbyte]
  split
  next service hservice =>
    have hhandler : Seals cfg c (service.handler d) :=
      seals_handler hapart hsid ((findService_iff _ _).mp hservice)
    apply seals_ctx
    intro c' _
    apply Seals.ite fun _ => seals_reject _ _
    intro _
    unfold handleFound
    apply Seals.ite
    · intro _
      apply Seals.ite fun _ => seals_reject _ _
      intro _
      apply (seals_byteAt 1).bind
      intro _ _
      apply Seals.ite fun _ => seals_reject _ _
      intro _
      apply seals_assign
      · exact fun _ => rfl
      · exact hchecked hhandler _
    · exact fun _ => hchecked hhandler _
  next => exact seals_reject _ _

theorem seals_runResponseCb : Seals cfg c (runResponseCb cfg d) := by
  unfold runResponseCb
  apply seals_ctx
  intro c' _
  split
  · exact seals_pure _
  · apply (seals_emit _).bind
    intro _ _
    apply (seals_runApp _).bind
    intro _ _
    exact seals_setCtx fun _ => rfl

theorem seals_inputSdu (hapart : cfg.didTable.Pairwise StoredApart) (hsid : NamesDid d) :
    Seals cfg c (inputSdu cfg (.bytes d)) := by
  unfold inputSdu
  apply seals_mutexLock.bind
  intro _ _
  apply Seals.bind
  · apply Seals.optional
    unfold inputMessage
    apply (seals_byteAt 0).bind
    intro _ _
    apply seals_time.bind
    intro _ _
    apply seals_assign
    · exact fun _ => rfl
    apply seals_ctx
    intro c' _
    apply Seals.ite
    · exact fun _ => .ite (fun _ => seals_pure _) fun _ => seals_reject _ _
    intro _
    apply Seals.ite
    · intro _
      apply seals_runResponseCb.bind
      intro _ _
      apply seals_assign
      · exact fun _ => rfl
      · exact seals_pure _
    intro _
    apply seals_time.bind
    intro _ _
    apply seals_assign
    · exact fun _ => rfl
    · exact seals_handleRequest hapart hsid
  · exact fun _ _ => seals_mutexUnlock

/-! ### The run -/

/-- The calls that bring these messages. -/
def bringing (requests : List Sdu) : List (Op W) := requests.map fun d => .inputSdu (.bytes d)

theorem run_veiled (hapart : cfg.didTable.Pairwise StoredApart) {requests : List Sdu}
    (hsids : ∀ d ∈ requests, NamesDid d) (hst : Veiled cfg c h k s t) :
    trace (step cfg) s (bringing requests) = trace (step cfg) t (bringing requests) ∧
      Veiled cfg c h k (exec (step cfg) s (bringing requests))
        (exec (step cfg) t (bringing requests)) := by
  induction requests generalizing s t with
  | nil => exact ⟨rfl, hst⟩
  | cons d requests ih =>
    obtain ⟨hsid, hrest⟩ := List.forall_mem_cons.mp hsids
    obtain ⟨houtputs, -, hnext⟩ := seals_inputSdu hapart hsid h k s t hst
    obtain ⟨htrace, hend⟩ := ih hrest hnext
    refine ⟨?_, hend⟩
    exact congrArg₂ (· ++ ·) houtputs htrace

/-- Locked data does not leak. Two runs of reads and writes of DIDs, from states that differ in the
storages of DIDs closed to their session and level alone, do the same calls and send the same
messages, and both leave these storages unchanged. -/
theorem locked_data_sealed (cfg : Config W) (s t : Sys W) (requests : List Sdu)
    (hapart : cfg.didTable.Pairwise StoredApart) (hsids : ∀ d ∈ requests, NamesDid d)
    (hsame : t = { s with mem := t.mem }) (hdiffer : ∀ a, t.mem a ≠ s.mem a → Secret cfg s.ctx a) :
    let ops : List (Op W) := bringing requests
    trace (step cfg) s ops = trace (step cfg) t ops ∧
      sentOf (trace (step cfg) s ops) = sentOf (trace (step cfg) t ops) ∧
      ∀ a, Secret cfg s.ctx a → (exec (step cfg) s ops).mem a = s.mem a ∧
        (exec (step cfg) t ops).mem a = t.mem a := by
  intro ops
  have hst : Veiled cfg s.ctx s.mem t.mem s t := by
    refine ⟨hsame, rfl, fun _ _ => ⟨rfl, rfl⟩, fun a ha => ?_⟩
    by_contra hne
    exact ha (hdiffer a hne)
  obtain ⟨htrace, hend⟩ := run_veiled hapart hsids hst
  exact ⟨htrace, congrArg sentOf htrace, hend.secret⟩

/-- A DID that is open, and one that needs the security level 1. -/
def lockedConfig : Config Unit :=
  { plainConfig with
    didTable :=
      [{ extendedEntry with sessionMask := 0 },
       { extendedEntry with id := 0xF191, sessionMask := 0, securityMask := 0x0002, storage := some 8 }] }

/-- A read of the DID that is open, a read of both and a write of the one that is closed. -/
def lockedRequests : List Sdu :=
  [readVin, ⟨[0x22, 0xF1, 0x90, 0xF1, 0x91], by decide⟩, ⟨[0x2E, 0xF1, 0x91, 0xAB], by decide⟩]

theorem lockedRequests_sealed :
    let s := booted lockedConfig
    let t : Sys Unit := { s with mem := blit s.mem 8 [0x55] }
    let ops : List (Op Unit) := bringing lockedRequests
    sentOf (trace (step lockedConfig) s ops) =
        [[0x62, 0xF1, 0x90, 0], [0x7F, 0x22, 0x33], [0x7F, 0x2E, 0x33]] ∧
      trace (step lockedConfig) s ops = trace (step lockedConfig) t ops ∧
      (exec (step lockedConfig) t ops).mem 8 = 0x55 := by
  intro s t ops
  have hsecret : Secret lockedConfig s.ctx 8 :=
    ⟨_, List.mem_cons_of_mem _ List.mem_cons_self, .inr (by decide), 8, rfl, by decide, by decide⟩
  have hapart : lockedConfig.didTable.Pairwise StoredApart := by
    apply List.pairwise_pair.mpr
    rintro a ⟨base, hbase, -, hlast⟩ ⟨base', hbase', hfirst, -⟩
    obtain rfl := Option.some.inj hbase
    obtain rfl := Option.some.inj hbase'
    change a < 0 + 1 at hlast
    omega
  have hsids : ∀ d ∈ lockedRequests, NamesDid d := by
    unfold NamesDid
    decide
  have hdiffer (a : ℕ) (ha : t.mem a ≠ s.mem a) : Secret lockedConfig s.ctx a := by
    have height : a = 8 := by
      by_contra hne
      exact ha (blit_outside s.mem 8 [0x55] a (by simp; omega))
    rw [height]
    exact hsecret
  have hsealed := locked_data_sealed lockedConfig s t lockedRequests hapart hsids rfl hdiffer
  exact ⟨by decide, hsealed.1, (hsealed.2.2 8 hsecret).2⟩

end UdsLib.Core
