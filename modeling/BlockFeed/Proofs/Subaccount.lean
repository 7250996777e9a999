import BlockFeed.Subaccount
import BlockFeed.Proofs.Text.Canonical

/-! Identifiers are known by their texts, and read back from them and from nothing else. -/

namespace BlockFeed.SubaccountId

/-- Octets with zeros in front, as many as an identifier lacks. -/
def padded (bytes : List UInt8) : List UInt8 := List.replicate (size - bytes.length) 0 ++ bytes

/-- The text of an identifier of these octets. -/
def textOf (octets : List UInt8) : String := String.ofList ('0' :: 'x' :: Text.Hex.encode octets)

theorem textOf_injective {octets octets' : List UInt8} (h : textOf octets = textOf octets') :
    octets = octets' := by
  have hchars := String.ofList_injective h
  simp only [List.cons.injEq, true_and] at hchars
  exact Text.Hex.encode_injective hchars

theorem ofOctets_padded {id : SubaccountId} {bytes : List UInt8} (hlen : bytes.length ≤ size)
    (h : id.octets = padded bytes) : ofOctets? bytes = .ok id := by
  obtain ⟨octets, hoctets⟩ := id
  obtain rfl : octets = padded bytes := h
  rw [ofOctets?, dif_pos hlen]
  rfl

theorem padded_of_length {bytes : List UInt8} (h : bytes.length = size) : padded bytes = bytes := by
  rw [padded, h, Nat.sub_self, List.replicate_zero, List.nil_append]

theorem ofOctets_octets (id : SubaccountId) : ofOctets? id.octets = .ok id := by
  have hlen : id.octets.length = size := id.length_octets
  exact ofOctets_padded (Nat.le_of_eq hlen) (padded_of_length hlen).symm

theorem ofOctets_eq_ok_iff {bytes : List UInt8} {id : SubaccountId} :
    ofOctets? bytes = .ok id ↔ bytes.length ≤ size ∧ id.octets = padded bytes := by
  constructor
  · intro h
    rw [ofOctets?] at h
    split at h
    case isTrue hlen =>
      cases h
      exact ⟨hlen, rfl⟩
    case isFalse => cases h
  · rintro ⟨hlen, hid⟩
    exact ofOctets_padded hlen hid

section Marks

/-- What may stand in front of the digits. -/
def marks : List (List Char) := [[], ['0', 'x'], ['0', 'X']]

theorem eq_mark_append_dropMark (octets : List UInt8) :
    ∃ mark ∈ marks, octets = Text.asciiOctets mark ++ dropMark octets := by
  fun_cases dropMark octets with
  | case1 rest => exact ⟨['0', 'x'], by simp [marks], rfl⟩
  | case2 rest => exact ⟨['0', 'X'], by simp [marks], rfl⟩
  | case3 => exact ⟨[], by simp [marks], rfl⟩

theorem marks_ascii : ∀ mark ∈ marks, ∀ c ∈ mark, c.toNat < 0x80 := by simp [marks]

variable {digits : List Char} {octets : List UInt8}

/-- No digit is taken for the second character of a mark. -/
theorem dropMark_spells (h : Text.Hex.Spells digits octets) :
    dropMark (Text.asciiOctets digits) = Text.asciiOctets digits := by
  cases octets with
  | nil =>
    obtain rfl : digits = [] := List.map_eq_nil_iff.mp h
    rfl
  | cons b octets =>
    have hb := b.toNat_lt
    obtain ⟨c, d, rest, rfl, -, hd, -⟩ := h.cons
    have hdigit := (Text.Hex.digit_lower (by omega) hd).2
    have hx : Text.Hex.digit? 0x78 = none := rfl
    have hX : Text.Hex.digit? 0x58 = none := rfl
    rw [Text.asciiOctets, List.map_cons, List.map_cons, dropMark]
    · rintro rest' heq
      rw [(List.cons.inj (List.cons.inj heq).2).1, hx] at hdigit
      cases hdigit
    · rintro rest' heq
      rw [(List.cons.inj (List.cons.inj heq).2).1, hX] at hdigit
      cases hdigit

theorem dropMark_mark_append {mark : List Char} (hmark : mark ∈ marks)
    (h : Text.Hex.Spells digits octets) :
    dropMark (Text.asciiOctets (mark ++ digits)) = Text.asciiOctets digits := by
  simp only [marks, List.mem_cons, List.not_mem_nil, or_false] at hmark
  obtain rfl | rfl | rfl := hmark
  · exact dropMark_spells h
  · rfl
  · rfl

theorem utf8ByteSize_mark_append {id : SubaccountId} {mark : List Char} (hmark : mark ∈ marks)
    (h : Text.Hex.Spells digits id.octets) :
    (String.ofList (mark ++ digits)).utf8ByteSize = mark.length + 2 * size := by
  rw [Text.utf8ByteSize_ascii (h.append_ascii (marks_ascii mark hmark)), List.length_append,
    h.length, id.length_octets]
  rfl

end Marks

/-- An identifier's digits are read in either case, with any mark or none, and nothing else is. -/
theorem ofText_eq_ok_iff {text : String} {id : SubaccountId} :
    ofText? text = .ok id ↔
      ∃ mark ∈ marks, ∃ digits, Text.Hex.Spells digits id.octets ∧
        text = String.ofList (mark ++ digits) := by
  constructor
  · intro h
    rw [ofText?] at h
    split at h
    · cases h
    case isFalse hcount =>
      have hcount' : (dropMark (Text.Utf8.encode text)).length = 2 * size := by
        simpa using hcount
      split at h
      · cases h
      case h_2 octets hdecode =>
        obtain ⟨digits, hdigits, hspells⟩ := Text.Hex.spells_of_decodeFrom hdecode (by omega)
        obtain ⟨mark, hmark, htext⟩ := eq_mark_append_dropMark (Text.Utf8.encode text)
        have hlen : octets.length = size := by
          rw [hdigits, Text.asciiOctets, List.length_map, hspells.length] at hcount'
          omega
        have hid : id.octets = octets :=
          (ofOctets_eq_ok_iff.mp h).2.trans (padded_of_length hlen)
        rw [hdigits, Text.asciiOctets, Text.asciiOctets, ← List.map_append] at htext
        refine ⟨mark, hmark, digits, hid ▸ hspells, ?_⟩
        exact (Text.Utf8.encode_eq_ascii_iff (hspells.append_ascii (marks_ascii mark hmark))).mp htext
  · rintro ⟨mark, hmark, digits, hspells, rfl⟩
    have hlen : (Text.asciiOctets digits).length = 2 * size := by
      rw [Text.asciiOctets, List.length_map, hspells.length, id.length_octets]
      rfl
    have hdecode : Text.Hex.decode (Text.asciiOctets digits) = .ok id.octets := hspells.decodeFrom 0
    rw [ofText?, Text.Utf8.encode_ascii (hspells.append_ascii (marks_ascii mark hmark)),
      dropMark_mark_append hmark hspells]
    simp only [hlen, hdecode, ofOctets_octets]
    simp

theorem ofText_text (id : SubaccountId) : ofText? id.text = .ok id :=
  have hmark : ['0', 'x'] ∈ marks := by decide
  ofText_eq_ok_iff.mpr ⟨['0', 'x'], hmark, _, Text.Hex.spells_encode id.octets, rfl⟩

end BlockFeed.SubaccountId
