import UdsLib.Core.Footprint

/-! Reading a request stays within it: every byte that is looked at and every part that is handed
to a callback. -/
namespace UdsLib.Core
open Bytes Machine Prog Services

variable {W : Type} {cfg : Config W} {d : Sdu} {sid : UInt8}

/-- `suppressedTesterPresent` with its reads: behind a condition that fails nothing is read. -/
def readTesterPresent (d : Sdu) : M W Bool := do
  if (← byteAt d 0) ≠ sidTesterPresent then
    return false
  if d.len < 2 then
    return false
  return (← byteAt d 1) &&& 0x80 ≠ 0

/-- `answersRequest` with its reads. -/
def readAnswer (pendingSid : UInt8) (d : Sdu) : M W Bool := do
  let sid ← byteAt d 0
  if sid = pendingSid ||| responseOffset then
    return true
  if sid ≠ nrcServiceNotSuppInSess then
    return false
  if d.len < 2 then
    return false
  return (← byteAt d 1) = pendingSid

/-- No byte behind the request is read, and what a callback is handed of the request lies in it.
`fn_mem_write` is left out. -/
structure InBounds (d : Sdu) (e : Event) : Prop where
  read : ∀ i, e ≠ .fault (.requestRead i)
  handed : ∀ call ret part, e = .call call ret → call.isMemWrite = false →
    call.slice? = some part → Within d part
  answered : ∀ cb sid part, e = .responseCb cb sid part → Within d part

theorem inBounds_of_plain {e : Event} (hread : ∀ i, e ≠ .fault (.requestRead i))
    (hcall : ∀ call ret, e ≠ .call call ret) (hcb : ∀ cb sid part, e ≠ .responseCb cb sid part) :
    InBounds d e where
  read := hread
  handed call ret _ he := absurd he (hcall call ret)
  answered cb sid part he := absurd he (hcb cb sid part)

theorem inBounds_call {call : Call} {ret : ℤ}
    (h : call.isMemWrite = false → ∀ part, call.slice? = some part → Within d part) :
    InBounds d (.call call ret) where
  read := nofun
  handed call' ret' part he := by
    cases he
    exact fun hother => h hother part
  answered := nofun

theorem slice_within {off len : ℕ} (h : off + len ≤ d.bytes.length) : Within d (d.slice off len) :=
  ⟨rfl, h⟩

theorem Surround.inBounds {e : Event} (h : Surround cfg d e) (hne : d.bytes ≠ []) :
    InBounds d e := by
  have hpos : 0 < d.bytes.length := List.length_pos_iff.mpr hne
  cases e with
  | call c ret =>
    apply inBounds_call
    intro _ part hpart
    rcases h.2 with hlock | ⟨level, msg, rfl⟩ | ⟨sid, rfl⟩
    · cases c with
      | mutexLock => cases hpart
      | mutexUnlock => cases hpart
      | _ => exact absurd hlock Bool.false_ne_true
    · cases hpart
    · obtain rfl := Option.some.inj hpart
      exact slice_within (by omega)
  | responseCb cb sid part =>
    constructor
    · exact nofun
    · exact nofun
    · intro cb' sid' part' he
      cases he
      rw [show part = _ from h]
      exact slice_within (by omega)
  | fault f => exact absurd h not_false
  | _ => exact inBounds_of_plain nofun nofun nofun

theorem OfHandler.inBounds {e : Event} (h : OfHandler cfg d sid e) : InBounds d e := by
  cases e with
  | call c ret => exact inBounds_call h.inside
  | responseCb cb asked part => exact absurd h not_false
  | fault f =>
    cases f with
    | requestRead i => exact absurd h not_false
    | _ => exact inBounds_of_plain nofun nofun nofun
  | _ => exact inBounds_of_plain nofun nofun nofun

/-! ### The tests of `uds_input_sdu` -/

theorem byteAt_there {i : ℕ} (hi : i < d.bytes.length) (s : Sys W) :
    byteAt d i s = (d.byte i, s, []) := by
  unfold byteAt
  rw [if_pos hi]

/-- A read in the request is followed by what goes on with its byte. -/
theorem byteAt_then {α : Type} {i : ℕ} (hi : i < d.bytes.length) (f : UInt8 → M W α) (s : Sys W) :
    (byteAt d i >>= f) s = f (d.byte i) s :=
  silent_then (byteAt_there hi s)

/-- The test for a TesterPresent that is to be ignored reads the request only where it is. -/
theorem readTesterPresent_run (hne : d.bytes ≠ []) (s : Sys W) :
    readTesterPresent d s = (suppressedTesterPresent d, s, []) := by
  have hpos : 0 < d.bytes.length := List.length_pos_iff.mpr hne
  have hlen : d.len < 2 ↔ d.bytes.length < 2 := len_lt_iff
  unfold readTesterPresent suppressedTesterPresent
  rw [byteAt_then hpos]
  by_cases hsid : d.byte 0 = sidTesterPresent
  · rw [if_neg (not_not_intro hsid)]
    by_cases hshort : d.bytes.length < 2
    · rw [if_pos (hlen.mpr hshort), decide_eq_false fun h => absurd h.2.1 (Nat.not_le.mpr hshort)]
      rfl
    · rw [if_neg (mt hlen.mp hshort), byteAt_then (Nat.not_lt.mp hshort)]
      simp only [hsid, Nat.not_lt.mp hshort, true_and]
      rfl
  · rw [if_pos hsid, decide_eq_false fun h => hsid h.1]
    rfl

/-- So does the test for an answer to the request of the client. -/
theorem readAnswer_run (pendingSid : UInt8) (hne : d.bytes ≠ []) (s : Sys W) :
    readAnswer pendingSid d s = (answersRequest pendingSid d, s, []) := by
  have hpos : 0 < d.bytes.length := List.length_pos_iff.mpr hne
  have hlen : d.len < 2 ↔ d.bytes.length < 2 := len_lt_iff
  unfold readAnswer answersRequest
  rw [byteAt_then hpos]
  by_cases hyes : d.byte 0 = pendingSid ||| responseOffset
  · rw [if_pos hyes, decide_eq_true (Or.inl hyes)]
    rfl
  rw [if_neg hyes]
  by_cases hno : d.byte 0 = nrcServiceNotSuppInSess
  · rw [if_neg (not_not_intro hno)]
    by_cases hshort : d.bytes.length < 2
    · have hneither : ¬ (d.byte 0 = pendingSid ||| responseOffset ∨
          d.byte 0 = nrcServiceNotSuppInSess ∧ 2 ≤ d.bytes.length ∧ d.byte 1 = pendingSid) := by
        rintro (h | ⟨-, h, -⟩)
        · exact hyes h
        · exact absurd h (Nat.not_le.mpr hshort)
      rw [if_pos (hlen.mpr hshort), decide_eq_false hneither]
      rfl
    · have hlong : 2 ≤ d.bytes.length := Nat.not_lt.mp hshort
      have hboth : (d.byte 0 = pendingSid ||| responseOffset ∨
          d.byte 0 = nrcServiceNotSuppInSess ∧ 2 ≤ d.bytes.length ∧ d.byte 1 = pendingSid) ↔
            d.byte 1 = pendingSid :=
        ⟨fun h => (h.resolve_left hyes).2.2, fun h => Or.inr ⟨hno, hlong, h⟩⟩
      rw [if_neg (mt hlen.mp hshort), byteAt_then hlong, decide_eq_decide.mpr hboth]
      rfl
  · have hneither : ¬ (d.byte 0 = pendingSid ||| responseOffset ∨
        d.byte 0 = nrcServiceNotSuppInSess ∧ 2 ≤ d.bytes.length ∧ d.byte 1 = pendingSid) := by
      rintro (h | ⟨h, -⟩)
      · exact hyes h
      · exact hno h
    rw [if_pos hno, decide_eq_false hneither]
    rfl

/-! ### The call -/

theorem step_inBounds (cfg : Config W) (s : Sys W) (hne : d.bytes ≠ []) :
    ∀ e ∈ (step cfg s (.inputSdu (.bytes d))).2, InBounds d e := by
  intro e he
  cases step_footprint cfg s (.inputSdu (.bytes d)) with
  | outside h => exact (h.events e he).inBounds hne
  | process hop => cases hop
  | handler d' service pre mid post u v hop hruns hes hpre hpost =>
    cases hop
    rw [hes, List.mem_append, List.mem_append] at he
    rcases he with he | he | he
    · exact (hpre.events e he).inBounds hne
    · exact (hruns.work.events e he).inBounds
    · exact (hpost.events e he).inBounds hne

/-- Request parsing stays in bounds. Whatever the state and the request, no byte behind it is read,
and every part of it that a callback is handed lies in it, with `fn_mem_write` left out. The two
tests that `uds_input_sdu` makes read it only where it is. -/
theorem request_parsing_in_bounds (cfg : Config W) (s : Sys W) (d : Sdu) (hne : d.bytes ≠ []) :
    (∀ e ∈ (step cfg s (.inputSdu (.bytes d))).2, InBounds d e) ∧
      (∀ t : Sys W, readTesterPresent d t = (suppressedTesterPresent d, t, [])) ∧
      ∀ (t : Sys W) (sid : UInt8), readAnswer sid d t = (answersRequest sid d, t, []) := by
  refine ⟨step_inBounds cfg s hne, fun t => ?_, fun t sid => ?_⟩
  · exact readTesterPresent_run hne t
  · exact readAnswer_run sid hne t

/-- Everything but the safety gate is configured, and the DIDs 0 to 2 have callbacks. -/
def fullConfig : Config Unit :=
  { plainConfig with
    isSet := fun f => f ≠ .fnIsSafe
    didTable := (List.range 3).map fun i =>
      { id := .ofNat i, size := 2, sessionMask := 0, securityMask := 0, read := true, write := true,
        storage := none } }

/-- A write of the DID 1. -/
def writeRequest : Sdu := ⟨[0x2E, 0x00, 0x01, 0xAB, 0xCD], by decide⟩

theorem writeRequest_in_bounds :
    .call (.didWrite 1 ⟨3, 2, [0xAB, 0xCD]⟩) 0 ∈
        (step fullConfig (booted fullConfig) (.inputSdu (.bytes writeRequest))).2 ∧
      ∀ e ∈ (step fullConfig (booted fullConfig) (.inputSdu (.bytes writeRequest))).2,
        InBounds writeRequest e := by
  constructor
  · decide
  · exact (request_parsing_in_bounds fullConfig (booted fullConfig) writeRequest (by decide)).1

end UdsLib.Core
