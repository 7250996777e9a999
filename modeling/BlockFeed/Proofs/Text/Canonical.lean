import BlockFeed.Proofs.Outcome
import BlockFeed.Proofs.Text.Base64
import BlockFeed.Proofs.Text.Hex

/-! What is read in hexadecimal or in base64 is what would be written, up to the case of hexadecimal
digits. Nothing else is read. -/

namespace BlockFeed.Text

/-- What holds wherever a table of octets has an entry, from a look at all 256. -/
theorem octet_some {β : Type} {table : UInt8 → Option β} {p : UInt8 → β → Prop}
    [∀ b v, Decidable (p b v)]
    (hall : ∀ n < 0x100, (table (UInt8.ofNat n)).all fun v => p (UInt8.ofNat n) v) {b : UInt8} {v : β}
    (h : table b = some v) : p b v := by
  have hb := hall b.toNat b.toNat_lt
  rw [UInt8.ofNat_toNat, h] at hb
  exact of_decide_eq_true hb

theorem Utf8.encode_eq_ascii_iff {cs : List Char} (h : ∀ c ∈ cs, c.toNat < 0x80) {s : String} :
    encode s = asciiOctets cs ↔ s = String.ofList cs := by
  rw [← encode_ascii h]
  exact ⟨encode_injective, congrArg encode⟩

namespace Hex

/-- The character of an octet that is a digit, in lower case the one written for its value. -/
theorem digit_some {b v : UInt8} (h : digit? b = some v) :
    v.toNat < 16 ∧ (Char.ofNat b.toNat).toLower = digitChar v.toNat ∧
      UInt8.ofNat (Char.ofNat b.toNat).toNat = b := by
  refine octet_some (p := fun b v => v.toNat < 16 ∧
    (Char.ofNat b.toNat).toLower = digitChar v.toNat ∧
    UInt8.ofNat (Char.ofNat b.toNat).toNat = b) ?_ h
  decide +kernel

theorem digitAt_ok {b v : UInt8} {position : Nat} (h : digitAt b position = .ok v) :
    digit? b = some v := by
  cases hd : digit? b with
  | none =>
    rw [digitAt, hd] at h
    cases h
  | some v' =>
    rw [digitAt, hd] at h
    exact congrArg some (Except.ok.inj h)

theorem spells_of_decodeFrom {octets bytes : List UInt8} {position : Nat}
    (h : decodeFrom position octets = .ok bytes) (heven : octets.length % 2 = 0) :
    ∃ cs, octets = asciiOctets cs ∧ Spells cs bytes := by
  match octets with
  | [] =>
    cases h
    exact ⟨[], rfl, rfl⟩
  | [a] => cases heven
  | a :: b :: rest =>
    rw [decodeFrom] at h
    obtain ⟨high, hhigh, h⟩ := bind_ok h
    obtain ⟨low, hlow, h⟩ := bind_ok h
    obtain ⟨bytes', hrest, h⟩ := bind_ok h
    cases h
    obtain ⟨hhigh16, ha, ha'⟩ := digit_some (digitAt_ok hhigh)
    obtain ⟨hlow16, hb, hb'⟩ := digit_some (digitAt_ok hlow)
    have heven' : rest.length % 2 = 0 := by
      simp only [List.length_cons] at heven
      omega
    obtain ⟨cs, rfl, hcs⟩ := spells_of_decodeFrom hrest heven'
    have hsum : (high * 16 + low).toNat = high.toNat * 16 + low.toNat := by
      have hlit : UInt8.toNat 16 = 16 := rfl
      rw [UInt8.toNat_add, UInt8.toNat_mul, hlit]
      omega
    refine ⟨Char.ofNat a.toNat :: Char.ofNat b.toNat :: cs, ?_, ?_⟩
    · simp only [asciiOctets, List.map_cons, ha', hb']
    · have hdiv : (high * 16 + low).toNat / 16 = high.toNat := by omega
      have hmod : (high * 16 + low).toNat % 16 = low.toNat := by omega
      rw [Spells, List.map_cons, List.map_cons, encode_cons, hdiv, hmod, ha, hb, hcs]

end Hex

namespace Base64

theorem value_some {b : UInt8} {v : Nat} (h : value? b = some v) : v < 64 ∧ symbolOctet v = b := by
  refine octet_some (p := fun b v => v < 64 ∧ symbolOctet v = b) ?_ h
  decide +kernel

theorem valueAt_ok {offset v : Nat} {b : UInt8} (h : valueAt offset b = .ok v) :
    v < 64 ∧ symbolOctet v = b := by
  cases hv : value? b with
  | none =>
    rw [valueAt, hv] at h
    cases h
  | some v' =>
    rw [valueAt, hv] at h
    cases h
    exact value_some hv

/-- What was read is symbols and then pads, and after pads there are pads only. -/
theorem readTail_ok {offset position : Nat} {input : List UInt8} {t t' : Tail}
    (h : readTail offset position t input = .ok t') : ∃ vs n,
      input = vs.map symbolOctet ++ List.replicate n pad ∧ (∀ v ∈ vs, v < 64) ∧
      t'.values = t.values ++ vs ∧ t'.pads = t.pads + n ∧ (0 < t.pads → vs = []) := by
  induction input generalizing position t with
  | nil =>
    cases h
    exact ⟨[], 0, rfl, by simp, by simp, rfl, fun _ => rfl⟩
  | cons b rest ih =>
    rw [readTail] at h
    split at h
    case isTrue hpad =>
      split at h
      · cases h
      obtain ⟨vs, n, hrest, -, hvalues, hpads, hnil⟩ := ih h
      obtain rfl := hnil (Nat.succ_pos _)
      refine ⟨[], n + 1, ?_, by simp, hvalues, ?_, fun _ => rfl⟩
      · rw [hpad, hrest]
        rfl
      · rw [hpads, Nat.add_assoc, Nat.add_comm 1 n]
    case isFalse hpad =>
      split at h
      · cases h
      case isFalse hpads =>
        split at h
        · cases h
        case h_2 v hv =>
          obtain ⟨hv64, hsymbol⟩ := value_some hv
          obtain ⟨vs, n, hrest, hvs, hvalues, hn, -⟩ := ih h
          refine ⟨v :: vs, n, ?_, ?_, ?_, hn, fun hpos => absurd hpos hpads⟩
          · rw [List.map_cons, hsymbol, hrest]
            rfl
          · simpa [hv64] using hvs
          · rw [hvalues, List.append_assoc]
            rfl

section Splitting

/-! The bits of an octet that was put together are those of its symbols. -/

variable {a b c d : Nat}

theorem split_first (ha : a < 64) (hb : b < 64) :
    (UInt8.ofNat (a * 4 + b / 16)).toNat / 4 = a ∧
      (UInt8.ofNat (a * 4 + b / 16)).toNat % 4 = b / 16 := by
  rw [Utf8.toNat_octet (by omega)]
  omega

theorem split_second (hc : c < 64) :
    (UInt8.ofNat (b % 16 * 16 + c / 4)).toNat / 16 = b % 16 ∧
      (UInt8.ofNat (b % 16 * 16 + c / 4)).toNat % 16 = c / 4 := by
  rw [Utf8.toNat_octet (by omega)]
  omega

theorem split_third (hd : d < 64) :
    (UInt8.ofNat (c % 4 * 64 + d)).toNat / 64 = c % 4 ∧
      (UInt8.ofNat (c % 4 * 64 + d)).toNat % 64 = d := by
  rw [Utf8.toNat_octet (by omega)]
  omega

/-- Four symbols are those of the three octets they make up, whatever follows. -/
theorem asciiOctets_encode_join (ha : a < 64) (hb : b < 64) (hc : c < 64) (hd : d < 64)
    (rest : List UInt8) :
    asciiOctets (encode (UInt8.ofNat (a * 4 + b / 16) :: UInt8.ofNat (b % 16 * 16 + c / 4) ::
        UInt8.ofNat (c % 4 * 64 + d) :: rest)) =
      symbolOctet a :: symbolOctet b :: symbolOctet c :: symbolOctet d ::
        asciiOctets (encode rest) := by
  obtain ⟨hfirst, hfirst'⟩ := split_first ha hb
  obtain ⟨hsecond, hsecond'⟩ := split_second (b := b) hc
  obtain ⟨hthird, hthird'⟩ := split_third (c := c) hd
  have hb' : b / 16 * 16 + b % 16 = b := Nat.div_add_mod' b 16
  have hc' : c / 4 * 4 + c % 4 = c := Nat.div_add_mod' c 4
  rw [asciiOctets_encode_cons, hfirst, hfirst', hsecond, hsecond', hthird, hthird', hb', hc']

end Splitting

/-- The symbols of a last group and the pads that fill it are what would be written for its octets. -/
theorem eq_encode_of_tailOctets {offset : Nat} {t : Tail} {bytes : List UInt8}
    (h : tailOctets offset t = .ok bytes) (hvalues : ∀ v ∈ t.values, v < 64)
    (htotal : t.pads + t.values.length = 4) :
    t.values.map symbolOctet ++ List.replicate t.pads pad = asciiOctets (encode bytes) := by
  obtain ⟨values, pads, last⟩ := t
  rw [tailOctets] at h
  split at h
  case h_1 a b heq =>
    obtain rfl : values = [a, b] := heq
    obtain rfl : pads = 2 := by simpa using htotal
    simp only [List.forall_mem_cons] at hvalues
    obtain ⟨ha, hb, -⟩ := hvalues
    split at h
    case isTrue hstray =>
      obtain rfl := Except.ok.inj h
      obtain ⟨hfirst, hfirst'⟩ := split_first ha hb
      have hb' : b / 16 * 16 = b := by omega
      rw [asciiOctets_encode_one, hfirst, hfirst', hb']
      rfl
    case isFalse => cases h
  case h_2 a b c heq =>
    obtain rfl : values = [a, b, c] := heq
    obtain rfl : pads = 1 := by simpa using htotal
    simp only [List.forall_mem_cons] at hvalues
    obtain ⟨ha, hb, hc, -⟩ := hvalues
    split at h
    case isTrue hstray =>
      obtain rfl := Except.ok.inj h
      obtain ⟨hfirst, hfirst'⟩ := split_first ha hb
      obtain ⟨hsecond, hsecond'⟩ := split_second (b := b) hc
      have hb' : b / 16 * 16 + b % 16 = b := Nat.div_add_mod' b 16
      have hc' : c / 4 * 4 = c := by omega
      rw [asciiOctets_encode_two, hfirst, hfirst', hsecond, hsecond', hb', hc']
      rfl
    case isFalse => cases h
  case h_3 a b c d heq =>
    obtain rfl : values = [a, b, c, d] := heq
    obtain rfl : pads = 0 := by simpa using htotal
    simp only [List.forall_mem_cons] at hvalues
    obtain ⟨ha, hb, hc, hd, -⟩ := hvalues
    obtain rfl := Except.ok.inj h
    rw [asciiOctets_encode_join ha hb hc hd]
    rfl
  case h_4 => cases h

theorem eq_encode_of_decodeTail {offset : Nat} {input bytes : List UInt8}
    (h : decodeTail offset input = .ok bytes) (hlen : input.length ≤ 4) :
    input = asciiOctets (encode bytes) := by
  obtain ⟨t, hread, hoctets⟩ := bind_ok h
  obtain ⟨vs, n, rfl, hvs, hvalues, hpads, -⟩ := readTail_ok hread
  rw [List.nil_append] at hvalues
  rw [Nat.zero_add] at hpads
  subst hvalues hpads
  rw [List.length_append, List.length_map, List.length_replicate] at hlen
  split at hoctets
  · cases hoctets
  split at hoctets
  · cases hoctets
  · exact eq_encode_of_tailOctets hoctets hvs (by omega)

theorem eq_encode_of_decodeFrom {offset : Nat} {input bytes : List UInt8}
    (h : decodeFrom offset input = .ok bytes) : input = asciiOctets (encode bytes) := by
  fun_induction decodeFrom offset input generalizing bytes with
  | case1 offset a b c d e rest ih =>
    obtain ⟨a', ha, h⟩ := bind_ok h
    obtain ⟨b', hb, h⟩ := bind_ok h
    obtain ⟨c', hc, h⟩ := bind_ok h
    obtain ⟨d', hd, h⟩ := bind_ok h
    obtain ⟨bytes', hrest, h⟩ := bind_ok h
    obtain rfl := Except.ok.inj h
    obtain ⟨ha', rfl⟩ := valueAt_ok ha
    obtain ⟨hb', rfl⟩ := valueAt_ok hb
    obtain ⟨hc', rfl⟩ := valueAt_ok hc
    obtain ⟨hd', rfl⟩ := valueAt_ok hd
    rw [asciiOctets_encode_join ha' hb' hc' hd', ih hrest]
  | case2 offset input hshort =>
    apply eq_encode_of_decodeTail h
    match input with
    | [] | [_] | [_, _] | [_, _, _] | [_, _, _, _] => simp
    | a :: b :: c :: d :: e :: rest => exact absurd rfl (hshort a b c d e rest)

theorem decode_eq_ok_iff {text : String} {bytes : List UInt8} :
    decode (Utf8.encode text) = .ok bytes ↔ text = String.ofList (encode bytes) := by
  constructor
  · intro h
    apply (Utf8.encode_eq_ascii_iff (encode_ascii bytes)).mp
    rw [decode] at h
    split at h
    case isTrue hempty =>
      cases h
      exact List.isEmpty_iff.mp hempty
    case isFalse =>
      split at h
      · cases h
      · exact eq_encode_of_decodeFrom h
  · rintro rfl
    exact decode_encode bytes

end Base64

end BlockFeed.Text
