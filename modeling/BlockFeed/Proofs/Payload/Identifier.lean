import BlockFeed.Proofs.Payload.Reading

/-! One identifier has many texts, in hexadecimal and in base64, and one of them is written. All of
them are read as it, and no text of another identifier is. -/

namespace BlockFeed

open Payload (parseBase64 parseSubaccount refuseIdentifier)
open Payload.Format (SubaccountText)
open Text.Hex (Spells)

namespace Payload

theorem refuseIdentifier_ok {α : Type} {x : Except IdentifierError α} {a : α}
    (h : refuseIdentifier x = .ok a) : x = .ok a := by
  cases x with
  | error e => cases h
  | ok a' => exact congrArg Except.ok (Except.ok.inj h)

theorem subaccountText_of_ofText {text : String} {id : SubaccountId}
    (hsize : text.utf8ByteSize = 2 + 2 * SubaccountId.size)
    (hmark : text.toList.take 2 = ['0', 'x']) (h : SubaccountId.ofText? text = .ok id) :
    SubaccountText text id := by
  obtain ⟨mark, hmem, digits, hspells, rfl⟩ := SubaccountId.ofText_eq_ok_iff.mp h
  have hlen : mark.length = 2 := by
    rw [SubaccountId.utf8ByteSize_mark_append hmem hspells] at hsize
    omega
  rw [String.toList_ofList, List.take_left' hlen] at hmark
  subst hmark
  exact .digits id.length_octets hspells rfl

theorem parseSubaccount_eq_ok_iff {text : String} {id : SubaccountId} :
    parseSubaccount text = .ok id ↔ SubaccountText text id := by
  constructor
  · intro h
    rw [parseSubaccount] at h
    split at h
    case isTrue hmarked =>
      exact subaccountText_of_ofText hmarked.1 hmarked.2 (refuseIdentifier_ok h)
    case isFalse =>
      obtain ⟨bytes, hbytes, hread⟩ := bind_ok h
      obtain rfl := parseBase64_eq_ok_iff.mp hbytes
      obtain ⟨hlen, hid⟩ := SubaccountId.ofOctets_eq_ok_iff.mp (refuseIdentifier_ok hread)
      refine .base64 hlen ?_
      rw [SubaccountId.text, SubaccountId.chars, hid]
      rfl
  · rintro (⟨hlen, hid⟩ | ⟨hlen, hcs, hid⟩)
    · exact parseSubaccount_base64 hlen (SubaccountId.textOf_injective hid)
    · obtain rfl := SubaccountId.textOf_injective hid
      exact parseSubaccount_digits hcs

theorem subaccount_eq_ok_iff {depth : Nat} {n : Json.Node} {id : SubaccountId} :
    subaccount depth n = .ok id ↔ Format.subaccount n id := by
  constructor
  · intro h
    obtain ⟨text, hread, hparse⟩ := bind_ok h
    exact ⟨text, (Json.Reader.string_exact _ _ _).mp hread, parseSubaccount_eq_ok_iff.mp hparse⟩
  · rintro ⟨text, rfl, htext⟩
    exact parseSubaccount_eq_ok_iff.mpr htext

end Payload

namespace SubaccountId

/-- How an identifier is written, and every text that is read as it. -/
structure Canonical (id : SubaccountId) : Prop where
  text_eq : id.text = String.ofList ('0' :: 'x' ::
    id.octets.flatMap fun b => [Nat.digitChar (b.toNat / 16), Nat.digitChar (b.toNat % 16)])
  length_text : id.text.length = 66
  lower : ∀ c ∈ id.text.toList.drop 2, c ∈ "0123456789abcdef".toList
  /-- With either mark or none, and in either case. -/
  ofText_iff : ∀ text, ofText? text = .ok id ↔
    ∃ mark ∈ marks, ∃ digits, text = String.ofList (mark ++ digits) ∧
      String.ofList ('0' :: 'x' :: digits.map Char.toLower) = id.text
  field : ∀ depth, Payload.subaccount depth (.string (.ok id.text)) = .ok id

/-- Octets are read as the identifier that ends in them, if they are not too many, whether they come
as they are or in base64. -/
structure Fills (bytes : List UInt8) : Prop where
  short : bytes.length ≤ 32 → ∃ id : SubaccountId,
    id.octets = List.replicate (32 - bytes.length) 0 ++ bytes ∧ ofOctets? bytes = .ok id ∧
    ∀ depth, Payload.subaccount depth (.string (.ok (String.ofList (Text.Base64.encode bytes)))) =
      .ok id
  long : 32 < bytes.length → ofOctets? bytes = .error (.tooLong bytes.length) ∧
    ∀ depth, Payload.subaccount depth (.string (.ok (String.ofList (Text.Base64.encode bytes)))) =
      .error (.refused s!"identifier is {bytes.length} bytes, expected at most 32")

theorem digitChar_eq : ∀ k < 16, Text.Hex.digitChar k = Nat.digitChar k := by decide

theorem digitChar_mem : ∀ k < 16, Text.Hex.digitChar k ∈ "0123456789abcdef".toList := by decide

theorem spells_iff {id : SubaccountId} {digits : List Char} :
    Spells digits id.octets ↔ String.ofList ('0' :: 'x' :: digits.map Char.toLower) = id.text := by
  rw [text, chars, String.ofList_inj, List.cons_inj_right, List.cons_inj_right, Spells]

theorem canonical (id : SubaccountId) : Canonical id where
  text_eq := by
    have hpair : ∀ b : UInt8, Text.Hex.ofByte b =
        [Nat.digitChar (b.toNat / 16), Nat.digitChar (b.toNat % 16)] := by
      intro b
      have hb := b.toNat_lt
      rw [Text.Hex.ofByte, digitChar_eq _ (by omega), digitChar_eq _ (by omega)]
    rw [text, chars, Text.Hex.encode, funext hpair]
  length_text := by
    have hlen := (Text.Hex.spells_encode id.octets).length
    rw [id.length_octets] at hlen
    rw [text, chars, String.length_ofList, List.length_cons, List.length_cons, hlen]
  lower := by
    intro c hc
    rw [text, String.toList_ofList] at hc
    obtain ⟨b, -, hc⟩ := List.mem_flatMap.mp (show c ∈ Text.Hex.encode id.octets from hc)
    have hb := b.toNat_lt
    obtain rfl | rfl : c = _ ∨ c = _ := by simpa [Text.Hex.ofByte] using hc
    · exact digitChar_mem _ (by omega)
    · exact digitChar_mem _ (by omega)
  ofText_iff text := by
    simp only [ofText_eq_ok_iff, spells_iff, and_comm]
  field depth :=
    Payload.subaccount_eq_ok_iff.mpr
      ⟨id.text, rfl, .digits id.length_octets (Text.Hex.spells_encode id.octets) rfl⟩

theorem fills (bytes : List UInt8) : Fills bytes where
  short hlen := by
    have hpad : (padded bytes).length = 32 := by
      rw [padded, List.length_append, List.length_replicate, size]
      omega
    refine ⟨⟨padded bytes, hpad⟩, rfl, ofOctets_padded hlen rfl, ?_⟩
    intro depth
    exact Payload.parseSubaccount_base64 hlen rfl
  long hlen := by
    have hrefused : ofOctets? bytes = .error (.tooLong bytes.length) :=
      dif_neg (Nat.not_le.mpr hlen)
    refine ⟨hrefused, ?_⟩
    intro depth
    have hread := Payload.parseSubaccount_encode bytes
    rw [hrefused] at hread
    exact hread

theorem not_base64_of_ofText {text : String} {id : SubaccountId} (h : ofText? text = .ok id)
    (hlen : text.length = 66) (bytes : List UInt8) :
    Text.Base64.decode (Text.Utf8.encode text) ≠ .ok bytes := by
  intro hread
  obtain ⟨mark, hmark, digits, hspells, rfl⟩ := ofText_eq_ok_iff.mp h
  have hsize := utf8ByteSize_mark_append hmark hspells
  rw [String.length_ofList, List.length_append, hspells.length, id.length_octets] at hlen
  -- A mark of two characters leaves a rest of two after groups of four.
  have hmod := Text.Base64.utf8ByteSize_encode bytes
  rw [← Text.Base64.decode_eq_ok_iff.mp hread, hsize, size] at hmod
  omega

/-- A field is read where its text is 32 octets' digits behind `0x` or at most 32 octets in base64,
and what it is read as is written as a field of the same identifier. -/
theorem canonical_on_every_route :
    (∀ id, Canonical id) ∧ (∀ bytes, Fills bytes) ∧
    (∀ text id, ofText? text = .ok id → text.length = 66 →
      ∀ bytes, Text.Base64.decode (Text.Utf8.encode text) ≠ .ok bytes) ∧
    ∀ depth n id, Payload.subaccount depth n = .ok id ↔ Payload.Format.subaccount n id :=
  ⟨canonical, fills, fun _ _ => not_base64_of_ofText, fun _ _ _ => Payload.subaccount_eq_ok_iff⟩

/-- Digits without the mark are base64 of too many octets. -/
example :
    (ofText? (String.ofList (List.replicate 64 'a'))).isOk ∧
    parseSubaccount (String.ofList (List.replicate 64 'a')) =
      .error (.refused "identifier is 48 bytes, expected at most 32") := by decide +kernel

end SubaccountId

end BlockFeed
