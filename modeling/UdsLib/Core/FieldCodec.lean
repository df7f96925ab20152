import Mathlib.Tactic.IntervalCases
import UdsLib.Core.AddrLen
import UdsLib.Core.Api

/-! The address and size fields as a codec. What is encoded is parsed back, and the parser looks at
nothing but the fields. -/
namespace UdsLib.Core
open Bytes Machine Prog

variable {W : Type} {d d' : Sdu} {off : ℕ} {len : UInt16} {format : UInt8}

/-- The format byte that announces fields of these widths: `(size_len << 4) | addr_len`. -/
def formatByte (addrLen sizeLen : ℕ) : UInt8 := UInt8.ofNat sizeLen <<< 4 ||| UInt8.ofNat addrLen

/-- The address and behind it the size, each with its most significant byte first. -/
def encodeFields (addrLen sizeLen address size : ℕ) : List UInt8 :=
  toBe addrLen address ++ toBe sizeLen size

/-- The number of bytes that the fields take. -/
def fieldsLen (format : UInt8) : ℕ := (addrLenOf format).toNat + (sizeLenOf format).toNat

/-- Both widths are in range and the buffer of `len` bytes holds both fields. -/
def FieldsComplete (len : UInt16) (format : UInt8) : Prop :=
  ValidFormat format ∧ fieldsLen format ≤ len.toNat

/-- Two messages have the fields at `off` and the same bytes in them. -/
structure SameFields (format : UInt8) (off : ℕ) (d d' : Sdu) : Prop where
  inside : off + fieldsLen format ≤ d.bytes.length
  inside' : off + fieldsLen format ≤ d'.bytes.length
  same : ∀ i < fieldsLen format, d'.byte (off + i) = d.byte (off + i)

theorem formatByte_widths {a s : ℕ} (ha : 1 ≤ a ∧ a ≤ 4) (hs : 1 ≤ s ∧ s ≤ 4) :
    (addrLenOf (formatByte a s)).toNat = a ∧ (sizeLenOf (formatByte a s)).toNat = s := by
  obtain ⟨ha, ha'⟩ := ha
  obtain ⟨hs, hs'⟩ := hs
  interval_cases a <;> interval_cases s <;> exact ⟨rfl, rfl⟩

/-! ### Slices of a message -/

/-- A part of a message is the slice at its offset. -/
theorem slice_part (before part behind : List UInt8)
    (h : d.bytes = before ++ (part ++ behind)) :
    slice d.byte before.length part.length = part := by
  apply List.ext_getElem (slice_length _ _ _)
  intro i hi hi'
  rw [slice_getElem]
  unfold Sdu.byte
  rw [h]
  simp [List.getD_eq_getElem?_getD, List.getElem?_append_right, List.getElem?_append_left, hi']

/-! ### The parser -/

/-- The fields that a complete buffer holds are found, without a look beyond them. -/
theorem parseAddrLen_run (u : Sys W) (hcomplete : FieldsComplete len format)
    (hin : off + fieldsLen format ≤ d.bytes.length) :
    ∃ addr size : UInt32, parseAddrLen d off len format u = (some (addr, size), u, []) ∧
      addr.toNat = ofBe (slice d.byte off (addrLenOf format).toNat) ∧
      size.toNat =
        ofBe (slice d.byte (off + (addrLenOf format).toNat) (sizeLenOf format).toNat) := by
  obtain ⟨hv, hlen⟩ := hcomplete
  unfold fieldsLen at hlen hin
  rw [← Nat.add_assoc] at hin
  obtain ⟨addr, size, hvalue, hfinal, houtputs, haddr, hsize⟩ :=
    parseAddrLen_complete d off len u hv hlen hin
  exact ⟨addr, size, run_ext hvalue hfinal houtputs, haddr, hsize⟩

/-- Anything else is refused without a look at the buffer. -/
theorem parseAddrLen_refuses (u : Sys W) (h : ¬ FieldsComplete len format) :
    parseAddrLen d off len format u = (none, u, []) := by
  by_cases hv : ValidFormat format
  · have hshort : len.toNat < (addrLenOf format).toNat + (sizeLenOf format).toNat :=
      Nat.not_le.mp fun hlen => h ⟨hv, hlen⟩
    rw [parseAddrLen_eq d off len hv, if_pos hshort]
    rfl
  · rw [parseAddrLen_malformed d off len hv]
    rfl

theorem parseAddrLen_isSome (u : Sys W) :
    ((parseAddrLen d off len format).value u).isSome = true ↔ FieldsComplete len format := by
  by_cases h : FieldsComplete len format
  · have hlen : ¬ len.toNat < (addrLenOf format).toNat + (sizeLenOf format).toNat :=
      Nat.not_lt.mpr h.2
    refine iff_of_true ?_ h
    rw [parseAddrLen_eq d off len h.1, if_neg hlen]
    rfl
  · have hnone : (parseAddrLen d off len format).value u = none :=
      congrArg Prod.fst (parseAddrLen_refuses u h)
    refine iff_of_false ?_ h
    rw [hnone]
    exact Bool.false_ne_true

theorem parseAddrLen_congr (u : Sys W)
    (h : FieldsComplete len format → SameFields format off d d') :
    parseAddrLen d' off len format u = parseAddrLen d off len format u := by
  by_cases hcomplete : FieldsComplete len format
  · obtain ⟨hin, hin', hsame⟩ := h hcomplete
    obtain ⟨addr, size, hrun, haddr, hsize⟩ := parseAddrLen_run u hcomplete hin
    obtain ⟨addr', size', hrun', haddr', hsize'⟩ := parseAddrLen_run u hcomplete hin'
    unfold fieldsLen at hsame
    have haddrs : slice d'.byte off (addrLenOf format).toNat =
        slice d.byte off (addrLenOf format).toNat :=
      slice_congr fun i hi => hsame i (Nat.lt_add_right _ hi)
    have hsizes : slice d'.byte (off + (addrLenOf format).toNat) (sizeLenOf format).toNat =
        slice d.byte (off + (addrLenOf format).toNat) (sizeLenOf format).toNat := by
      apply slice_congr
      intro i hi
      rw [Nat.add_assoc]
      exact hsame _ (Nat.add_lt_add_left hi _)
    rw [haddrs, ← haddr] at haddr'
    rw [hsizes, ← hsize] at hsize'
    rw [hrun, hrun', UInt32.toNat_inj.mp haddr', UInt32.toNat_inj.mp hsize']
  · rw [parseAddrLen_refuses u hcomplete, parseAddrLen_refuses u hcomplete]

/-- No byte beyond a buffer that has the fields is read. -/
theorem parseAddrLen_silent (u : Sys W)
    (h : FieldsComplete len format → off + fieldsLen format ≤ d.bytes.length) :
    (parseAddrLen d off len format).outputs u = [] := by
  by_cases hcomplete : FieldsComplete len format
  · obtain ⟨_, _, hrun, -⟩ := parseAddrLen_run u hcomplete (h hcomplete)
    exact congrArg (fun r => r.2.2) hrun
  · exact congrArg (fun r => r.2.2) (parseAddrLen_refuses u hcomplete)

/-- Encoded fields are parsed back. -/
theorem parseAddrLen_encoded (u : Sys W) {a s address size : ℕ} (ha : 1 ≤ a ∧ a ≤ 4)
    (hs : 1 ≤ s ∧ s ≤ 4) (haddress : address < 256 ^ a) (hsize : size < 256 ^ s)
    {before trailing : List UInt8}
    (hd : d.bytes = before ++ (encodeFields a s address size ++ trailing))
    (hlen : len.toNat = d.bytes.length - before.length) :
    ∃ addr sz : UInt32, parseAddrLen d before.length len (formatByte a s) u =
      (some (addr, sz), u, []) ∧ addr.toNat = address ∧ sz.toNat = size := by
  obtain ⟨hwidthA, hwidthS⟩ := formatByte_widths ha hs
  have htotal : d.bytes.length = before.length + (a + s + trailing.length) := by
    rw [hd, List.length_append, List.length_append, encodeFields, List.length_append, toBe_length,
      toBe_length]
  have hfields : fieldsLen (formatByte a s) = a + s := by rw [fieldsLen, hwidthA, hwidthS]
  have hvalid : ValidFormat (formatByte a s) := by
    unfold ValidFormat
    rw [hwidthA, hwidthS]
    exact ⟨ha, hs⟩
  have hcomplete : FieldsComplete len (formatByte a s) := ⟨hvalid, by omega⟩
  have hin : before.length + fieldsLen (formatByte a s) ≤ d.bytes.length := by omega
  obtain ⟨addr, sz, hrun, haddr, hsz⟩ := parseAddrLen_run u hcomplete hin
  have hfirst : slice d.byte before.length a = toBe a address := by
    have h := slice_part before (toBe a address) (toBe s size ++ trailing)
      (by rw [hd, encodeFields, List.append_assoc])
    rwa [toBe_length] at h
  have hsecond : slice d.byte (before.length + a) s = toBe s size := by
    have h := slice_part (before ++ toBe a address) (toBe s size) trailing
      (by rw [hd, encodeFields, List.append_assoc, List.append_assoc])
    rwa [toBe_length, List.length_append, toBe_length] at h
  rw [hwidthA, hfirst, ofBe_toBe haddress] at haddr
  rw [hwidthA, hwidthS, hsecond, ofBe_toBe hsize] at hsz
  exact ⟨addr, sz, hrun, haddr, hsz⟩

/-- The parser is exact: it finds every address and every size that is encoded in front of whatever
follows, it succeeds just on complete fields, and it reads their bytes only. -/
theorem parse_addr_len_exact (u : Sys W) :
    (∀ a s address size : ℕ, 1 ≤ a ∧ a ≤ 4 → 1 ≤ s ∧ s ≤ 4 → address < 256 ^ a → size < 256 ^ s →
      ∀ (before trailing : List UInt8) (d : Sdu) (len : UInt16),
        d.bytes = before ++ (encodeFields a s address size ++ trailing) →
        len.toNat = d.bytes.length - before.length →
        ∃ addr sz : UInt32, parseAddrLen d before.length len (formatByte a s) u =
          (some (addr, sz), u, []) ∧ addr.toNat = address ∧ sz.toNat = size) ∧
    (∀ (d : Sdu) (off : ℕ) (len : UInt16) (format : UInt8),
      ((parseAddrLen d off len format).value u).isSome = true ↔ FieldsComplete len format) ∧
    ∀ (d d' : Sdu) (off : ℕ) (len : UInt16) (format : UInt8),
      (FieldsComplete len format → SameFields format off d d') →
        parseAddrLen d' off len format u = parseAddrLen d off len format u ∧
          (parseAddrLen d off len format).outputs u = [] := by
  refine ⟨?_, fun d off len format => parseAddrLen_isSome u, ?_⟩
  · intro a s address size ha hs haddress hsize before trailing d len hd hlen
    exact parseAddrLen_encoded u ha hs haddress hsize hd hlen
  · intro d d' off len format h
    exact ⟨parseAddrLen_congr u h, parseAddrLen_silent u fun hcomplete => (h hcomplete).inside⟩

/-- The last address with a size of one byte. -/
theorem lastAddress_parsed :
    ∃ addr size : UInt32,
      parseAddrLen ⟨[0x23, 0x14, 0xFF, 0xFF, 0xFF, 0xFF, 0x10, 0xAA], by decide⟩ 2 6 0x14
        (booted plainConfig) = (some (addr, size), booted plainConfig, []) ∧
        addr.toNat = 0xFFFFFFFF ∧ size.toNat = 0x10 :=
  (parse_addr_len_exact (booted plainConfig)).1 4 1 0xFFFFFFFF 0x10 (by decide) (by decide)
    (by decide) (by decide) [0x23, 0x14] [0xAA]
    ⟨[0x23, 0x14, 0xFF, 0xFF, 0xFF, 0xFF, 0x10, 0xAA], by decide⟩ 6 (by decide) (by decide)

end UdsLib.Core
