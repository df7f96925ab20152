import UdsLib.Core.AddressSpace

/-! The services whose requests say themselves how long they are. A request that is longer than it says
is accepted all the same. -/
namespace UdsLib.Core
open Bytes Machine Prog Services

variable {W : Type} {cfg : Config W} {d : Sdu} {s t u : Sys W} {es : List Event}

/-- Services to which the content of a request tells its length. -/
def TellsLength (sid : UInt8) : Prop :=
  sid = sidReadDataById ∨ sid = sidReadMemByAddr ∨ sid = sidRequestDownload ∨
    sid = sidRequestUpload

/-- Where the format byte of a request stands, less the fields of a read of data. -/
def formatAt (d : Sdu) : ℕ := if d.byte 0 = sidReadMemByAddr then 1 else 2

/-- The length that the format byte of a request announces. -/
def announced (d : Sdu) : ℕ :=
  let format := d.byte (formatAt d)
  formatAt d + 1 + (addrLenOf format).toNat + (sizeLenOf format).toNat

/-- The request has the length that its content determines: `1 + 2n` for `n` DIDs, or what the format
byte announces. -/
def ExactLength (d : Sdu) : Prop :=
  if d.byte 0 = sidReadDataById then ∃ n, 1 ≤ n ∧ d.bytes.length = 1 + 2 * n
  else ValidFormat (d.byte (formatAt d)) ∧ d.bytes.length = announced d

/-- The request has a dangling half DID, or bytes behind its fields. -/
def Overlong (d : Sdu) : Prop :=
  if d.byte 0 = sidReadDataById then d.bytes.length % 2 = 0
  else ValidFormat (d.byte (formatAt d)) ∧ announced d < d.bytes.length

instance (d : Sdu) : Decidable (Overlong d) :=
  inferInstanceAs (Decidable (if d.byte 0 = sidReadDataById then _ else _ ∧ _))

/-- A request that is answered positively has the length that its content determines, and one that is
longer is answered with NRC 0x13. -/
structure FormatKept (cfg : Config W) (s : Sys W) (d : Sdu) : Prop where
  exact : PositiveAnswer (step cfg s (.inputSdu (.bytes d))).2 → ExactLength d
  refused : Overlong d → LengthError (d.byte 0) (step cfg s (.inputSdu (.bytes d))).2

/-- The condition: a request that is longer than its content says is answered with NRC 0x13 for another
reason, because the dispatcher finds it too short or because the application refuses it so. -/
def ExcessRefused (cfg : Config W) (s : Sys W) (d : Sdu) : Prop :=
  Overlong d → 3 ≤ cfg.txBufferSize ∧ (refusalOf cfg s d = some nrcIncorrectLength ∨
    ∃ served ∈ servedBy cfg s d, LateLength cfg served.2 d (d.byte 0))

theorem TellsLength.isRequest (s : Sys W) (h : TellsLength (d.byte 0)) : IsRequest s d := by
  rcases h with h | h | h | h
  all_goals
    apply isRequest_of_bit s
    all_goals
      rw [h]
      decide

/-- A plan that asks has found all the fields that its format byte announces. -/
theorem planned_length (hsid : NamesRange (d.byte 0)) (hwrite : d.byte 0 ≠ sidWriteMemByAddr)
    {addr size : UInt32} (h : planOf cfg d = .ask addr size) :
    ValidFormat (d.byte (formatAt d)) ∧ announced d ≤ d.bytes.length := by
  have hfields {off : ℕ} {format : UInt8} {fields : UInt32 × UInt32}
      (h : fieldsAt d off format = some fields) : ValidFormat format ∧
        off + (addrLenOf format).toNat + (sizeLenOf format).toNat ≤ d.bytes.length := by
    unfold fieldsAt at h
    extract_lets addrLen sizeLen at h
    split_ifs at h with hin
    exact hin
  have hrange := planOf_asks hsid h
  unfold rangeOf at hrange
  unfold announced formatAt
  by_cases hread : d.byte 0 = sidReadMemByAddr
  · rw [if_pos (.inl hread)] at hrange
    rw [if_pos hread]
    exact hfields hrange
  · rw [if_neg (not_or.mpr ⟨hread, hwrite⟩)] at hrange
    rw [if_neg hread]
    split_ifs at hrange
    exact hfields hrange

/-- A request that its handler answers positively is not too short. -/
theorem served_long_enough {service : Service W} (hsid : TellsLength (d.byte 0))
    (hserved : servedBy cfg s d = some (service, u))
    (h : PositiveAnswer ((service.handler d).outputs u)) : ExactLength d ∨ Overlong d := by
  have hruns := servedBy_runs hserved
  obtain ⟨data, ret, hsent⟩ := h
  unfold ExactLength Overlong
  by_cases hread : d.byte 0 = sidReadDataById
  · obtain rfl := Option.some.inj (hruns.found (hruns.sid.trans hread))
    have hlen : 3 ≤ d.bytes.length := hruns.length
    rw [if_pos hread, if_pos hread]
    rcases Nat.mod_two_eq_zero_or_one d.bytes.length with heven | hodd
    · exact .inr heven
    · exact .inl ⟨d.bytes.length / 2, by omega, by omega⟩
  · rw [if_neg hread, if_neg hread]
    have hnames : NamesRange (d.byte 0) := by
      rcases hsid with h | h | h | h
      · exact absurd h hread
      · exact .inl h
      · exact .inr (.inr (.inl h))
      · exact .inr (.inr (.inr h))
    have hwrite : d.byte 0 ≠ sidWriteMemByAddr := by
      rcases hsid with h | h | h | h
      all_goals
        rw [h]
        decide
    obtain ⟨addr, size, hplan⟩ := (served_planned hserved hnames).asked data ret hsent
    obtain ⟨hvalid, hlen⟩ := planned_length hnames hwrite hplan
    rcases hlen.eq_or_lt with hsame | hless
    · exact .inl ⟨hvalid, hsame.symm⟩
    · exact .inr ⟨hvalid, hless⟩

theorem unsent_not_lengthError {sid : UInt8} (h : ∀ e ∈ es, Unsent cfg d e) :
    ¬ LengthError sid es := by
  rintro ⟨ret, he⟩
  exact absurd (h _ he).no_nrc nofun

theorem deferring_not_lengthError {sid : UInt8} (h : ∀ e ∈ es, Deferring cfg d e) :
    ¬ LengthError sid es := by
  rintro ⟨ret, he⟩
  obtain ⟨-, -, sid', hdata⟩ := (h _ he).2 _ rfl
  simp only [List.cons.injEq] at hdata
  exact absurd hdata.2.2.1 (by decide)

/-- A request is answered with NRC 0x13 by the stack around the handlers, or by the handler that finds
the length error late. -/
theorem request_lengthError_iff (hreq : IsRequest s d)
    (hown : ∀ entry ∈ cfg.userServices, entry.sid ≠ d.byte 0)
    (hmask : ∀ service ∈ coreServices cfg, service.sid = d.byte 0 → service.subMask = none) :
    LengthError (d.byte 0) (step cfg s (.inputSdu (.bytes d))).2 ↔
      3 ≤ cfg.txBufferSize ∧ (refusalOf cfg s d = some nrcIncorrectLength ∨
        ∃ served ∈ servedBy cfg s d, LateLength cfg served.2 d (d.byte 0)) := by
  by_cases htx : 3 ≤ cfg.txBufferSize
  swap
  · refine iff_of_false ?_ fun h => htx h.1
    rintro ⟨ret, he⟩
    exact htx (request_nrc_room hreq hown he rfl)
  rw [and_iff_right htx]
  cases href : refusalOf cfg s d with
  | some nrc =>
    obtain ⟨pre, t, post, hes, hpre, hpost⟩ := step_refused hreq href
    have hnone : ¬ ∃ served ∈ servedBy cfg s d, LateLength cfg served.2 d (d.byte 0) := by
      rw [unserved_of_refused href]
      rintro ⟨_, hserved, -⟩
      cases hserved
    rw [hes, lengthError_append, lengthError_append, or_iff_right (unsent_not_lengthError hpre),
      or_iff_left (unsent_not_lengthError hpost), or_iff_left hnone, Option.some_inj]
    exact says_refuse htx
  | none =>
    obtain ⟨service, u, hserved⟩ := served_of_unrefused hreq hown href
    obtain ⟨pre, post, hes, -, hpre, -, hpost⟩ := step_served hserved
    have hruns := servedBy_runs hserved
    have hplain := hmask service hruns.core hruns.sid
    have hlate := core_lengthError (u := u) hruns.core hruns.length (by
      rw [hplain]
      exact nofun)
    rw [hruns.sid] at hlate
    rw [hes, lengthError_append, lengthError_append, or_iff_right (unsent_not_lengthError hpre),
      or_iff_left (deferring_not_lengthError hpost), hlate, and_iff_right htx, hserved,
      or_iff_right nofun]
    simp

/-- An NRC 0x13 and a positive response do not come together. -/
theorem positive_not_lengthError {sid : UInt8} (hreq : IsRequest s d)
    (hown : ∀ entry ∈ cfg.userServices, entry.sid ≠ d.byte 0)
    (h : PositiveAnswer (step cfg s (.inputSdu (.bytes d))).2) :
    ¬ LengthError sid (step cfg s (.inputSdu (.bytes d))).2 := by
  obtain ⟨service, u, hserved, data, ret, hsent⟩ := positive_served hreq hown h
  obtain ⟨pre, post, hes, -, hpre, -, hpost⟩ := step_served hserved
  rw [hes, lengthError_append, lengthError_append, or_iff_right (unsent_not_lengthError hpre),
    or_iff_left (deferring_not_lengthError hpost)]
  rintro ⟨ret', he⟩
  rcases (coreServices_path d service (servedBy_runs hserved).core).one_answer u with hnone | hnone
  · exact absurd (hnone _ he) nofun
  · exact hnone data ret hsent

/-- Requests have exactly the length that their content determines unless they are longer and are not
refused for another reason. -/
theorem exact_length_iff (cfg : Config W) (s : Sys W) (d : Sdu) (hsid : TellsLength (d.byte 0))
    (hown : ∀ entry ∈ cfg.userServices, entry.sid ≠ d.byte 0) :
    FormatKept cfg s d ↔ ExcessRefused cfg s d := by
  have hreq := hsid.isRequest s
  have hmask : ∀ service ∈ coreServices cfg, service.sid = d.byte 0 → service.subMask = none := by
    intro service hcore hserves
    have hfound := (find?_sid coreServices_nodup service).mpr ⟨hcore, hserves⟩
    rcases hsid with h | h | h | h
    all_goals
      rw [h] at hfound
      obtain rfl := Option.some.inj hfound
      rfl
  have herror := request_lengthError_iff hreq hown hmask
  constructor
  · exact fun h hover => herror.mp (h.refused hover)
  · intro h
    constructor
    · intro hpos
      obtain ⟨service, u, hserved, hsent⟩ := positive_served hreq hown hpos
      refine (served_long_enough hsid hserved hsent).resolve_right fun hover => ?_
      exact positive_not_lengthError hreq hown hpos (herror.mpr (h hover))
    · exact fun hover => herror.mpr (h hover)

/-- The memory, and a DID of one byte. -/
def lengthConfig : Config Unit :=
  { memoryConfig with didTable := [⟨0xF190, 1, 0, 0, false, false, some 0⟩] }

def wholeDid : Sdu := readVin

theorem wholeDid_kept : FormatKept lengthConfig (booted lengthConfig) wholeDid := by
  apply (exact_length_iff lengthConfig (booted lengthConfig) wholeDid (.inl rfl) nofun).mpr
  exact fun h => absurd h (by decide)

/-- The DID and half of another one. -/
def danglingDid : Sdu := ⟨[0x22, 0xF1, 0x90, 0xF1], by decide⟩

/-- A read of one byte with a byte behind its fields. -/
def trailingByte : Sdu := ⟨[0x23, 0x11, 0x00, 0x01, 0xAA], by decide⟩

/-- Both are answered as if the last byte were not there. -/
theorem danglingDid_accepted :
    ¬ FormatKept lengthConfig (booted lengthConfig) danglingDid ∧
      ¬ FormatKept lengthConfig (booted lengthConfig) trailingByte ∧
      sentOf (step lengthConfig (booted lengthConfig) (.inputSdu (.bytes danglingDid))).2 =
        [[0x62, 0xF1, 0x90, 0x00]] ∧
      sentOf (step lengthConfig (booted lengthConfig) (.inputSdu (.bytes trailingByte))).2 =
        [[0x63, 0x00]] := by
  have hdangling : .tpSend .response [0x62, 0xF1, 0x90, 0x00] 0 ∈
      (step lengthConfig (booted lengthConfig) (.inputSdu (.bytes danglingDid))).2 := by decide
  have htrailing : .tpSend .response [0x63, 0x00] 0 ∈
      (step lengthConfig (booted lengthConfig) (.inputSdu (.bytes trailingByte))).2 := by decide
  refine ⟨fun h => ?_, fun h => ?_, by decide, by decide⟩
  · have hexact := h.exact ⟨_, _, hdangling⟩
    unfold ExactLength at hexact
    rw [if_pos (by decide)] at hexact
    obtain ⟨n, -, hlen⟩ := hexact
    have hfour : danglingDid.bytes.length = 4 := rfl
    omega
  · have hexact := h.exact ⟨_, _, htrailing⟩
    unfold ExactLength at hexact
    rw [if_neg (by decide)] at hexact
    exact absurd hexact.2 (by decide)

end UdsLib.Core
