import BlockFeed.Text.Hex
import BlockFeed.Proofs.Text.Utf8

/-! Octets written as hexadecimal digits, in either case, are read back. -/

namespace BlockFeed.Text.Hex

theorem digitChar_ascii : ∀ k < 16, (digitChar k).toNat < 0x80 := by decide

/-- A digit in either case has the value of the one in lower case. -/
theorem digit_lower {c : Char} {k : Nat} (hk : k < 16) (h : c.toLower = digitChar k) :
    c.toNat < 0x80 ∧ digit? (UInt8.ofNat c.toNat) = some (UInt8.ofNat k) := by
  have hc : c.toNat < 0x80 := ascii_of_toLower (h ▸ digitChar_ascii k hk)
  have hdigits : ∀ n < 0x80, ∀ k < 16, (Char.ofNat n).toLower = digitChar k →
      digit? (UInt8.ofNat (Char.ofNat n).toNat) = some (UInt8.ofNat k) := by decide +kernel
  refine ⟨hc, ?_⟩
  have hdigit := hdigits c.toNat hc k hk
  rw [Char.ofNat_toNat] at hdigit
  exact hdigit h

theorem join_digits (b : UInt8) :
    UInt8.ofNat (b.toNat / 16) * 16 + UInt8.ofNat (b.toNat % 16) = b := by
  have hb := b.toNat_lt
  apply UInt8.toNat_inj.mp
  simp only [UInt8.toNat_add, UInt8.toNat_mul, UInt8.toNat_ofNat']
  have hlit : UInt8.toNat 16 = 16 := rfl
  rw [hlit]
  omega

theorem encode_cons (b : UInt8) (bytes : List UInt8) :
    encode (b :: bytes) = digitChar (b.toNat / 16) :: digitChar (b.toNat % 16) :: encode bytes := rfl

/-- Digits in either case that stand for the octets. -/
def Spells (cs : List Char) (bytes : List UInt8) : Prop := cs.map Char.toLower = encode bytes

theorem Spells.cons {cs : List Char} {b : UInt8} {bytes : List UInt8} (h : Spells cs (b :: bytes)) :
    ∃ c d rest, cs = c :: d :: rest ∧ c.toLower = digitChar (b.toNat / 16) ∧
      d.toLower = digitChar (b.toNat % 16) ∧ Spells rest bytes := by
  rw [Spells, encode_cons] at h
  obtain ⟨c, cs, rfl, hc, h⟩ := List.map_eq_cons_iff.mp h
  obtain ⟨d, rest, rfl, hd, h⟩ := List.map_eq_cons_iff.mp h
  exact ⟨c, d, rest, rfl, hc, hd, h⟩

theorem Spells.ascii {cs : List Char} {bytes : List UInt8} (h : Spells cs bytes) :
    ∀ c ∈ cs, c.toNat < 0x80 := by
  induction bytes generalizing cs with
  | nil =>
    obtain rfl : cs = [] := List.map_eq_nil_iff.mp h
    simp
  | cons b bytes ih =>
    have hb := b.toNat_lt
    obtain ⟨c, d, rest, rfl, hc, hd, hrest⟩ := h.cons
    have hc' := (digit_lower (by omega) hc).1
    have hd' := (digit_lower (by omega) hd).1
    simpa [hc', hd'] using ih hrest

theorem Spells.append_ascii {mark cs : List Char} {bytes : List UInt8} (h : Spells cs bytes)
    (hmark : ∀ c ∈ mark, c.toNat < 0x80) : ∀ c ∈ mark ++ cs, c.toNat < 0x80 :=
  List.forall_mem_append.mpr ⟨hmark, h.ascii⟩

theorem Spells.length {cs : List Char} {bytes : List UInt8} (h : Spells cs bytes) :
    cs.length = 2 * bytes.length := by
  induction bytes generalizing cs with
  | nil =>
    obtain rfl : cs = [] := List.map_eq_nil_iff.mp h
    rfl
  | cons b bytes ih =>
    obtain ⟨c, d, rest, rfl, -, -, hrest⟩ := h.cons
    have hlen := ih hrest
    simp only [List.length_cons]
    omega

theorem Spells.decodeFrom {cs : List Char} {bytes : List UInt8} (h : Spells cs bytes) (position : Nat) :
    decodeFrom position (asciiOctets cs) = .ok bytes := by
  induction bytes generalizing cs position with
  | nil =>
    obtain rfl : cs = [] := List.map_eq_nil_iff.mp h
    rfl
  | cons b bytes ih =>
    have hb := b.toNat_lt
    obtain ⟨c, d, rest, rfl, hc, hd, hrest⟩ := h.cons
    have hhigh := (digit_lower (by omega) hc).2
    have hlow := (digit_lower (by omega) hd).2
    have hrest' := ih hrest (position + 2)
    rw [asciiOctets] at hrest' ⊢
    rw [List.map_cons, List.map_cons, Hex.decodeFrom, digitAt, hhigh, digitAt, hlow]
    simp only [bind, Except.bind, hrest', join_digits]
    rfl

theorem spells_encode (bytes : List UInt8) : Spells (encode bytes) bytes := by
  have hlower : ∀ k < 16, (digitChar k).toLower = digitChar k := by decide
  induction bytes with
  | nil => rfl
  | cons b bytes ih =>
    have hb := b.toNat_lt
    rw [Spells, encode_cons, List.map_cons, List.map_cons, hlower _ (by omega), hlower _ (by omega), ih]

theorem encode_injective {bytes bytes' : List UInt8} (h : encode bytes = encode bytes') :
    bytes = bytes' := by
  have hread := (spells_encode bytes).decodeFrom 0
  have hread' := (spells_encode bytes').decodeFrom 0
  rw [h, hread'] at hread
  exact (Except.ok.inj hread).symm

end BlockFeed.Text.Hex
