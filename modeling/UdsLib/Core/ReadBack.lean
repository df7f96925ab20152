import UdsLib.Core.DidReads
import UdsLib.Services.DidWrite

/-! Write requests for DIDs with storages that have no byte in common. What was accepted is read back,
and everything else reads as before. -/
namespace UdsLib.Core
open Bytes Machine Prog Services

variable {W : Type} {cfg : Config W} {d : Sdu} {s t : Sys W} {did : UInt16} {data : List UInt8}

/-- The request for one DID. -/
def readRequest (did : UInt16) : Sdu where
  bytes := sidReadDataById :: idBytes did
  length_lt := by simp [idBytes]

/-- What is sent for a request to read the DID. -/
def readsAs (cfg : Config W) (s : Sys W) (did : UInt16) : List (List UInt8) :=
  sentOf (step cfg s (.inputSdu (.bytes (readRequest did)))).2

/-- The entries of the table have storages, without callbacks, and share no byte. -/
structure Stored (cfg : Config W) : Prop where
  entries : ∀ entry ∈ cfg.didTable, StorageEntry entry
  unshared : cfg.didTable.Pairwise Unshared

/-- The DID is in the table, its masks admit the session and the level, and the data has its size. -/
def Writable (cfg : Config W) (c : Ctx) (did : UInt16) (data : List UInt8) : Prop :=
  ∃ entry, findDid cfg did = some entry ∧ ¬ sessionShut entry c ∧ ¬ securityShut entry c ∧
    data.length = entry.size.toNat

/-- The write is answered positively just if the DID is writable with the data. If it is, the data is
read back. All else reads as before. -/
structure ReadsBack (cfg : Config W) (s : Sys W) (did : UInt16) (data : List UInt8)
    (r : Sys W × List Event) : Prop where
  accepted : Writable cfg s.ctx did data →
    sentOf r.2 = [(sidWriteDataById + responseOffset) :: idBytes did]
  refused : ¬ Writable cfg s.ctx did data →
    ∃ nrc, sentOf r.2 = [[nrcServiceNotSuppInSess, sidWriteDataById, nrc]]
  back : Writable cfg s.ctx did data → 3 + data.length ≤ cfg.txBufferSize.toNat →
    GatePasses cfg r.1 (readRequest did) →
      readsAs cfg r.1 did = [(sidReadDataById + responseOffset) :: (idBytes did ++ data)]
  others : ∀ other, (Writable cfg s.ctx did data → other ≠ did) →
    GatePasses cfg s (readRequest other) → GatePasses cfg r.1 (readRequest other) →
      readsAs cfg r.1 other = readsAs cfg s other

/-! ### Reading one DID -/

theorem readRequest_reads (did : UInt16) : Reads (readRequest did) [did] := by
  unfold Reads readRequest
  rw [List.flatMap_singleton]

theorem stored_fills (hstored : Stored cfg) : FillsExactly cfg := by
  intro entry hmem hread
  rw [(hstored.entries entry hmem).noRead] at hread
  cases hread

theorem Ready.kept {c c' : Ctx} (hready : Ready c) (h : SameAccess c c') : Ready c' where
  idle := ⟨h.idle hready.idle.notPending, h.sid.trans hready.idle.noSid⟩
  heard := h.flag.trans hready.heard
  known := h.session ▸ hready.known

theorem behindGate_access (cfg : Config W) (s : Sys W) (d : Sdu) :
    SameAccess s.ctx (behindGate cfg s d).ctx := by
  rw [behindGate_ctx, entered_ctx]
  exact ⟨rfl, rfl, rfl, rfl, fun _ => rfl⟩

/-- What a storage is read as depends neither on the rest of the context nor on the application. -/
theorem readAll_congr (hstored : Stored cfg) {c c' : Ctx} {mem mem' : ℕ → UInt8} {w w' : W}
    (haccess : SameAccess c c')
    (hmem : ∀ entry, findDid cfg did = some entry → ∀ addr ∈ entry.storage,
      slice mem' addr entry.size.toNat = slice mem addr entry.size.toNat) :
    readAll cfg c' mem' [did] 1 w' = readAll cfg c mem [did] 1 w := by
  unfold readAll
  cases hfound : findDid cfg did with
  | none => rfl
  | some entry =>
    have hentry := hstored.entries entry (List.mem_of_find?_eq_some hfound)
    obtain ⟨addr, haddr⟩ := Option.isSome_iff_exists.mp hentry.storage
    have hdata (c : Ctx) (mem : ℕ → UInt8) (w : W) := hentry.dataOf cfg haddr c mem did 3 w
    obtain ⟨hsession, hsecurity⟩ := haccess.shut entry
    simp only [hsession, hsecurity, hdata, hmem entry hfound addr haddr, readAll]

/-- What is sent for one DID. -/
theorem readsAs_eq (happ : PlainApp cfg sidReadDataById) (hstored : Stored cfg) (hready : Ready s.ctx)
    (hgate : GatePasses cfg s (readRequest did)) (w : W) :
    readsAs cfg s did = [readReply (readAll cfg s.ctx s.mem [did] 1 w)] := by
  have hreads := readRequest_reads did
  have haccess := behindGate_access cfg s (readRequest did)
  have hflag := haccess.flag.trans hready.heard
  have hserved := read_served hreads (List.cons_ne_nil did []) hready.idle hready.known happ.core hgate
  have hsent := step_replies hserved
    (readDataById_replies happ.room happ.send (stored_fills hstored) hflag hreads)
  let u := behindGate cfg s (readRequest did)
  have hsame : readAll cfg u.ctx u.mem [did] 1 u.world = readAll cfg s.ctx s.mem [did] 1 w := by
    apply readAll_congr hstored haccess
    intro entry _ addr _
    rw [show u.mem = s.mem from behindGate_mem cfg s _]
  rw [hsame] at hsent
  exact hsent

/-! ### Writing -/

theorem writable_iff {c : Ctx} :
    Writable cfg c did data ↔ ∃ entry, writeVerdict cfg c did data = .ok entry := by
  constructor
  · rintro ⟨entry, hfound, hsession, hsecurity, hsize⟩
    refine ⟨entry, ?_⟩
    simp [writeVerdict, hfound, hsession, hsecurity, hsize]
  · rintro ⟨entry, h⟩
    exact ⟨entry, verdict_ok h⟩

/-- What a call sends and leaves in the storages, with the same access. -/
structure Leaves (s : Sys W) (r : Sys W × List Event) (bs : List UInt8) (mem : ℕ → UInt8) : Prop where
  sent : sentOf r.2 = [bs]
  mem : r.1.mem = mem
  access : SameAccess s.ctx r.1.ctx

/-- The write request does what its verdict says. -/
theorem write_leaves (happ : PlainApp cfg sidWriteDataById) (hstored : Stored cfg)
    (hready : Ready s.ctx) (hwrites : Writes d did data) (hgate : GatePasses cfg s d) :
    let r := step cfg s (.inputSdu (.bytes d))
    match writeVerdict cfg s.ctx did data with
    | .error nrc => Leaves s r [nrcServiceNotSuppInSess, sidWriteDataById, nrc] s.mem
    | .ok entry => ∀ addr, entry.storage = some addr →
      Leaves s r ((sidWriteDataById + responseOffset) :: idBytes did) (blit s.mem addr data) := by
  intro r
  have hcore : coreService sidWriteDataById 3 (handleWriteDataById cfg) none ∈ coreServices cfg := by
    simp [coreServices]
  have hlen : 3 ≤ d.bytes.length := by
    rw [hwrites.length]
    exact Nat.le_add_right 3 _
  have hne : d.bytes ≠ [] := List.ne_nil_of_length_pos (by omega)
  have hsid := hwrites.bytes.1
  have hserved := served_plain hcore hsid.symm rfl hlen hne hready.idle hready.known
    (hsid ▸ happ.core) hgate
  have haccess := behindGate_access cfg s d
  have hmem := behindGate_mem cfg s d
  have hleaves {bs : List UInt8} {mem : ℕ → UInt8}
      (h : Settles (handleWriteDataById cfg d) (behindGate cfg s d) bs mem) : Leaves s r bs mem := by
    obtain ⟨hsent, hctx, hkept⟩ := step_done hserved h.replies.done
    refine ⟨hsent.trans h.replies.sent, hkept.trans h.mem, haccess.trans ?_⟩
    rw [hctx]
    exact h.access
  have hsettles := writeDataById_settles happ.room happ.send hstored.entries
    (haccess.flag.trans hready.heard) hwrites
  rw [writeVerdict_congr haccess, hmem] at hsettles
  cases hverdict : writeVerdict cfg s.ctx did data with
  | error nrc =>
    rw [hverdict] at hsettles
    exact hleaves hsettles
  | ok entry =>
    rw [hverdict] at hsettles
    exact fun addr haddr => hleaves (hsettles addr haddr)

/-- The storage of another DID is not written. -/
theorem other_kept (hstored : Stored cfg) {entry other : DidEntry} {addr addr' : ℕ} {did' : UInt16}
    (hne : did' ≠ did) (hfound : findDid cfg did = some entry) (haddr : entry.storage = some addr)
    (hother : findDid cfg did' = some other) (haddr' : other.storage = some addr')
    (hsize : data.length = entry.size.toNat) (mem : ℕ → UInt8) :
    slice (blit mem addr data) addr' other.size.toNat = slice mem addr' other.size.toNat := by
  have hdistinct : entry ≠ other := by
    rintro rfl
    exact hne ((findDid_id hother).symm.trans (findDid_id hfound))
  have hunshared := hstored.unshared.forall (List.mem_of_find?_eq_some hfound)
    (List.mem_of_find?_eq_some hother) hdistinct
  apply slice_blit_apart
  rw [hsize]
  exact hunshared addr haddr addr' haddr'

/-! ### Reading back -/

section ReadBack

variable {r : Sys W × List Event} {bs : List UInt8} {entry : DidEntry} {addr : ℕ}

/-- The data of an accepted write is read back. -/
theorem Leaves.back (h : Leaves s r bs (blit s.mem addr data)) (hstored : Stored cfg)
    (hready : Ready s.ctx) (happ : PlainApp cfg sidReadDataById)
    (hverdict : writeVerdict cfg s.ctx did data = .ok entry) (haddr : entry.storage = some addr)
    (hfits : 3 + data.length ≤ cfg.txBufferSize.toNat)
    (hgate : GatePasses cfg r.1 (readRequest did)) :
    readsAs cfg r.1 did = [(sidReadDataById + responseOffset) :: (idBytes did ++ data)] := by
  obtain ⟨hfound, hsession, hsecurity, hsize⟩ := verdict_ok hverdict
  have hentry := hstored.entries entry (List.mem_of_find?_eq_some hfound)
  obtain ⟨hsame, hsame'⟩ := h.access.shut entry
  have hroom : ¬ cfg.txBufferSize.toNat < 1 + 2 + entry.size.toNat := by omega
  have hdata : dataOf cfg r.1.ctx r.1.mem did entry 3 r.1.world = (.ok data, r.1.world) := by
    have hslice := slice_blit_self s.mem addr data
    rw [hentry.dataOf cfg haddr, h.mem, ← hsize, hslice]
  have hread : readAll cfg r.1.ctx r.1.mem [did] 1 r.1.world = .ok (idBytes did ++ data) := by
    simp [readAll, hfound, hsame, hsession, hsame', hsecurity, hroom, hdata, bind, Except.bind, pure,
      Except.pure]
  rw [readsAs_eq happ hstored (hready.kept h.access) hgate r.1.world, hread]
  rfl

/-- A DID reads as before if its storage is as before. -/
theorem Leaves.others {mem : ℕ → UInt8} (h : Leaves s r bs mem) (hstored : Stored cfg)
    (hready : Ready s.ctx) (happ : PlainApp cfg sidReadDataById) {other : UInt16}
    (hmem : ∀ entry, findDid cfg other = some entry → ∀ addr ∈ entry.storage,
      slice mem addr entry.size.toNat = slice s.mem addr entry.size.toNat)
    (hbefore : GatePasses cfg s (readRequest other)) (hgate : GatePasses cfg r.1 (readRequest other)) :
    readsAs cfg r.1 other = readsAs cfg s other := by
  have hsame : readAll cfg r.1.ctx r.1.mem [other] 1 s.world =
      readAll cfg s.ctx s.mem [other] 1 s.world := by
    apply readAll_congr hstored h.access
    rw [h.mem]
    exact hmem
  rw [readsAs_eq happ hstored (hready.kept h.access) hgate s.world,
    readsAs_eq happ hstored hready hbefore s.world, hsame]

end ReadBack

/-- Write, then read back. On an idle context whose session exists, a request to write a DID is
answered positively just if the DID is in the table and open and the data has its size. It is then read
back, and in any case nothing else changes for a reader. -/
theorem write_reads_back (cfg : Config W) (hstored : Stored cfg)
    (hread : PlainApp cfg sidReadDataById) (hwrite : PlainApp cfg sidWriteDataById) (s : Sys W)
    (hready : Ready s.ctx) (did : UInt16) (data : List UInt8) (d : Sdu) (hwrites : Writes d did data)
    (hgate : GatePasses cfg s d) : ReadsBack cfg s did data (step cfg s (.inputSdu (.bytes d))) := by
  have hleaves := write_leaves hwrite hstored hready hwrites hgate
  cases hverdict : writeVerdict cfg s.ctx did data with
  | error nrc =>
    rw [hverdict] at hleaves
    have hnot : ¬ Writable cfg s.ctx did data := by
      rw [writable_iff]
      rintro ⟨entry, hok⟩
      cases hverdict.symm.trans hok
    constructor
    · exact fun hwritable => absurd hwritable hnot
    · exact fun _ => ⟨nrc, hleaves.sent⟩
    · exact fun hwritable => absurd hwritable hnot
    · exact fun other _ => hleaves.others hstored hready hread fun _ _ _ _ => rfl
  | ok entry =>
    rw [hverdict] at hleaves
    have hwritable : Writable cfg s.ctx did data := writable_iff.mpr ⟨entry, hverdict⟩
    obtain ⟨hfound, -, -, hsize⟩ := verdict_ok hverdict
    have hentry := hstored.entries entry (List.mem_of_find?_eq_some hfound)
    obtain ⟨addr, haddr⟩ := Option.isSome_iff_exists.mp hentry.storage
    have hdone := hleaves addr haddr
    constructor
    · exact fun _ => hdone.sent
    · exact fun hnot => absurd hwritable hnot
    · exact fun _ => hdone.back hstored hready hread hverdict haddr
    · intro other hother
      apply hdone.others hstored hready hread
      intro entry' hfound' addr' haddr'
      exact other_kept hstored (hother hwritable) hfound haddr hfound' haddr' hsize s.mem

/-- Two DIDs of two bytes, one behind the other. -/
def storedConfig : Config Unit :=
  { plainConfig with
    didTable :=
      [{ id := 0xF190, size := 2, sessionMask := 0, securityMask := 0, read := false, write := false,
         storage := some 0 },
        { id := 0xF191, size := 2, sessionMask := 0, securityMask := 0, read := false, write := false,
          storage := some 2 }] }

theorem storedConfig_stored : Stored storedConfig := by
  constructor
  · intro entry hmem
    simp only [storedConfig, List.mem_cons, List.not_mem_nil, or_false] at hmem
    rcases hmem with rfl | rfl
    · exact ⟨rfl, rfl, rfl⟩
    · exact ⟨rfl, rfl, rfl⟩
  · simp [storedConfig, Unshared]
    omega

def writeFirst : Sdu := ⟨[0x2E, 0xF1, 0x90, 0x11, 0x22], by decide⟩

theorem writeFirst_reads_back :
    ReadsBack storedConfig (booted storedConfig) 0xF190 [0x11, 0x22]
      (step storedConfig (booted storedConfig) (.inputSdu (.bytes writeFirst))) := by
  have happ (sid : UInt8) : PlainApp storedConfig sid := ⟨by decide, fun _ _ _ => le_rfl, nofun⟩
  have hready : Ready (booted storedConfig).ctx := ⟨⟨by decide, by decide⟩, by decide, by decide⟩
  have hwrites : Writes writeFirst 0xF190 [0x11, 0x22] := by
    unfold Writes
    decide
  exact write_reads_back storedConfig storedConfig_stored (happ _) (happ _) _ hready _ _ writeFirst
    hwrites rfl

/-- The memory holds the session 7. -/
def strayStored : Config Unit :=
  { storedConfig with
    isSet := fun f => f = .fnNvmLoad
    app := fun _ _ w => (⟨2, [7, 0]⟩, w) }

/-- In a session that does not exist, a DID that is open to all sessions cannot be written. -/
theorem strayStored_not_written :
    let s := booted strayStored
    let r := step strayStored s (.inputSdu (.bytes writeFirst))
    Stored strayStored ∧ PlainApp strayStored sidReadDataById ∧
      PlainApp strayStored sidWriteDataById ∧ Idle s.ctx ∧ s.ctx.suppressPosResp = false ∧
      Writes writeFirst 0xF190 [0x11, 0x22] ∧ GatePasses strayStored s writeFirst ∧
      Writable strayStored s.ctx 0xF190 [0x11, 0x22] ∧ sentOf r.2 = [[0x7F, 0x2E, 0x7F]] ∧
      ¬ ReadsBack strayStored s 0xF190 [0x11, 0x22] r := by
  intro s r
  have happ (sid : UInt8) : PlainApp strayStored sid := ⟨by decide, fun _ _ _ => le_rfl, nofun⟩
  have hwrites : Writes writeFirst 0xF190 [0x11, 0x22] := by
    unfold Writes
    decide
  have hwritable : Writable strayStored s.ctx 0xF190 [0x11, 0x22] :=
    ⟨_, rfl, by decide, by decide, rfl⟩
  have hsent : sentOf r.2 = [[0x7F, 0x2E, 0x7F]] := by decide
  refine ⟨⟨storedConfig_stored.entries, storedConfig_stored.unshared⟩, happ _, happ _,
    ⟨by decide, by decide⟩, by decide, hwrites, rfl, hwritable, hsent, fun hback => ?_⟩
  exact absurd (hsent.symm.trans (hback.accepted hwritable)) (by decide)

end UdsLib.Core
