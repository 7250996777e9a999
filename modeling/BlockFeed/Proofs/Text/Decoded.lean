import BlockFeed.Proofs.Outcome
import BlockFeed.Proofs.Text.Utf8

/-! What reads as UTF-8 is what would be written: octets that are decoded are those of the characters
they are decoded to. -/

namespace BlockFeed.Text.Utf8

section Encoding

variable {v : Nat}

theorem toNat_char (h : v < 0xD800 ∨ 0xDFFF < v ∧ v < 0x110000) : (Char.ofNat v).val.toNat = v := by
  have hvalid : v.isValidChar := h
  rw [Char.ofNat, dif_pos hvalid]
  rfl

theorem encodeChar_one (h : v < 0x80) : String.utf8EncodeChar (Char.ofNat v) = [UInt8.ofNat v] := by
  rw [String.utf8EncodeChar, toNat_char (by omega)]
  simp only [if_pos (show v ≤ 127 by omega)]

theorem encodeChar_two (hlow : 0x80 ≤ v) (hhigh : v ≤ 0x7FF) :
    String.utf8EncodeChar (Char.ofNat v) =
      [UInt8.ofNat (v / 64 + 0xC0), UInt8.ofNat (v % 64 + 0x80)] := by
  have hb : v / 64 % 32 = v / 64 := by omega
  rw [String.utf8EncodeChar, toNat_char (by omega)]
  simp only [if_neg (show ¬ v ≤ 127 by omega), if_pos hhigh, hb]

theorem encodeChar_three (hlow : 0x800 ≤ v) (hhigh : v ≤ 0xFFFF) (hs : v < 0xD800 ∨ 0xDFFF < v) :
    String.utf8EncodeChar (Char.ofNat v) = [UInt8.ofNat (v / 4096 + 0xE0),
      UInt8.ofNat (v / 64 % 64 + 0x80), UInt8.ofNat (v % 64 + 0x80)] := by
  have hb : v / 4096 % 16 = v / 4096 := by omega
  rw [String.utf8EncodeChar, toNat_char (by omega)]
  simp only [if_neg (show ¬ v ≤ 127 by omega), if_neg (show ¬ v ≤ 2047 by omega), if_pos hhigh, hb]

theorem encodeChar_four (hlow : 0x10000 ≤ v) (hhigh : v ≤ 0x10FFFF) :
    String.utf8EncodeChar (Char.ofNat v) = [UInt8.ofNat (v / 262144 + 0xF0),
      UInt8.ofNat (v / 4096 % 64 + 0x80), UInt8.ofNat (v / 64 % 64 + 0x80),
      UInt8.ofNat (v % 64 + 0x80)] := by
  have hb : v / 262144 % 8 = v / 262144 := by omega
  rw [String.utf8EncodeChar, toNat_char (by omega)]
  simp only [if_neg (show ¬ v ≤ 127 by omega), if_neg (show ¬ v ≤ 2047 by omega),
    if_neg (show ¬ v ≤ 65535 by omega), hb]

end Encoding

section Reading

variable {chars : List Char} {index owed low high seen code : Nat} {bytes : List UInt8} {s : State}

/-- A character that has begun goes on with an octet within its bounds. -/
theorem exists_tail
    (h : bytes.foldlM step ⟨chars, index, some ⟨owed, low, high, seen, code⟩⟩ = .ok s)
    (hs : s.pending = none) (hlow : 0x80 ≤ low) :
    ∃ d rest, bytes = UInt8.ofNat (d + 0x80) :: rest ∧ low ≤ d + 0x80 ∧ d + 0x80 ≤ high ∧
      rest.foldlM step
        (if owed ≤ 1 then ⟨Char.ofNat (code * 64 + d) :: chars, index + 1, none⟩
          else ⟨chars, index + 1, some ⟨owed - 1, 0x80, 0xBF, seen + 1, code * 64 + d⟩⟩) = .ok s := by
  cases bytes with
  | nil =>
    rw [List.foldlM_nil] at h
    cases h
    cases hs
  | cons t rest =>
    rw [List.foldlM_cons] at h
    by_cases hb : low ≤ t.toNat ∧ t.toNat ≤ high
    · have ht : t.toNat - 0x80 + 0x80 = t.toNat := by omega
      refine ⟨t.toNat - 0x80, rest, by rw [ht, UInt8.ofNat_toNat], by omega, by omega, ?_⟩
      simp only [step, if_pos hb] at h
      by_cases ho : owed ≤ 1
      · rw [if_pos ho] at h ⊢
        exact h
      · rw [if_neg ho] at h ⊢
        exact h
    · simp only [step, if_neg hb] at h
      cases h

/-- A first octet fixes how many more there are, and bounds the second one so that there is neither an
overlong form nor a surrogate. -/
theorem lead_cases {b : Nat} {p : Pending} (h : lead? b = some p) :
    (∃ n, b = n + 0xC0 ∧ 2 ≤ n ∧ n < 32 ∧ p = ⟨1, 0x80, 0xBF, 1, n⟩) ∨
      (∃ n low high, b = n + 0xE0 ∧ n < 16 ∧ p = ⟨2, low, high, 1, n⟩ ∧ 0x80 ≤ low ∧ high ≤ 0xBF ∧
        (n = 0 → 0xA0 ≤ low) ∧ (n = 0xD → high ≤ 0x9F)) ∨
      ∃ n low high, b = n + 0xF0 ∧ n < 5 ∧ p = ⟨3, low, high, 1, n⟩ ∧ 0x80 ≤ low ∧ high ≤ 0xBF ∧
        (n = 0 → 0x90 ≤ low) ∧ (n = 4 → high ≤ 0x8F) := by
  rw [lead?] at h
  split at h
  · cases h
    exact .inl ⟨b - 0xC0, by omega, by omega, by omega, rfl⟩
  right
  split at h
  · cases h
    exact .inl ⟨0, 0xA0, 0xBF, by omega, by decide, rfl, by decide⟩
  split at h
  · cases h
    exact .inl ⟨0xD, 0x80, 0x9F, by omega, by decide, rfl, by decide⟩
  split at h
  · cases h
    exact .inl ⟨b - 0xE0, 0x80, 0xBF, by omega, by omega, rfl, by omega⟩
  right
  split at h
  · cases h
    exact ⟨0, 0x90, 0xBF, by omega, by decide, rfl, by decide⟩
  split at h
  · cases h
    exact ⟨b - 0xF0, 0x80, 0xBF, by omega, by omega, rfl, by omega⟩
  split at h
  · cases h
    exact ⟨4, 0x80, 0x8F, by omega, by decide, rfl, by decide⟩
  · cases h

/-- The octets begin with those of a character. -/
theorem exists_char (h : bytes.foldlM step ⟨chars, index, none⟩ = .ok s) (hs : s.pending = none)
    (hne : bytes ≠ []) :
    ∃ c index' rest, bytes = String.utf8EncodeChar c ++ rest ∧
      rest.foldlM step ⟨c :: chars, index', none⟩ = .ok s := by
  obtain ⟨b, rest, rfl⟩ := List.exists_cons_of_ne_nil hne
  rw [List.foldlM_cons] at h
  by_cases hone : b.toNat < 0x80
  · simp only [step, if_pos hone] at h
    refine ⟨Char.ofNat b.toNat, index + 1, rest, ?_, h⟩
    rw [encodeChar_one hone, UInt8.ofNat_toNat]
    rfl
  simp only [step, if_neg hone] at h
  split at h
  case h_2 => cases h
  case h_1 p hlead =>
  have hself : UInt8.ofNat b.toNat = b := UInt8.ofNat_toNat
  rw [← hself]
  rcases lead_cases hlead with ⟨n, hb, hn, hn', rfl⟩ | ⟨n, low, high, hb, hn, rfl, hlow, hhigh, hmin, hmax⟩ |
    ⟨n, low, high, hb, hn, rfl, hlow, hhigh, hmin, hmax⟩
  · obtain ⟨d, rest, rfl, hd, hd', h⟩ := exists_tail h hs (by decide)
    refine ⟨_, _, rest, ?_, h⟩
    have hfirst : (n * 64 + d) / 64 = n := by omega
    have hlast : (n * 64 + d) % 64 = d := by omega
    rw [encodeChar_two (by omega) (by omega), hb, hfirst, hlast]
    rfl
  · obtain ⟨d, rest, rfl, hd, hd', h⟩ := exists_tail h hs hlow
    obtain ⟨e, rest, rfl, he, he', h⟩ := exists_tail h hs (by decide)
    refine ⟨_, _, rest, ?_, h⟩
    have hfirst : ((n * 64 + d) * 64 + e) / 4096 = n := by omega
    have hmore : ((n * 64 + d) * 64 + e) / 64 % 64 = d := by omega
    have hlast : ((n * 64 + d) * 64 + e) % 64 = e := by omega
    rw [encodeChar_three (by omega) (by omega) (by omega), hb, hfirst, hmore, hlast]
    rfl
  · obtain ⟨d, rest, rfl, hd, hd', h⟩ := exists_tail h hs hlow
    obtain ⟨e, rest, rfl, he, he', h⟩ := exists_tail h hs (by decide)
    obtain ⟨f, rest, rfl, hf, hf', h⟩ := exists_tail h hs (by decide)
    refine ⟨_, _, rest, ?_, h⟩
    have hfirst : (((n * 64 + d) * 64 + e) * 64 + f) / 262144 = n := by omega
    have hmore : (((n * 64 + d) * 64 + e) * 64 + f) / 4096 % 64 = d := by omega
    have hmore' : (((n * 64 + d) * 64 + e) * 64 + f) / 64 % 64 = e := by omega
    have hlast : (((n * 64 + d) * 64 + e) * 64 + f) % 64 = f := by omega
    rw [encodeChar_four (by omega) (by omega), hb, hfirst, hmore, hmore', hlast]
    rfl

theorem encode_of_foldlM (bytes : List UInt8) {chars : List Char} {index : Nat}
    (h : bytes.foldlM step ⟨chars, index, none⟩ = .ok s) (hs : s.pending = none) :
    ∃ cs : List Char, bytes = cs.flatMap String.utf8EncodeChar ∧ s.chars = cs.reverse ++ chars := by
  by_cases hne : bytes = []
  · rw [hne, List.foldlM_nil] at h
    cases h
    exact ⟨[], hne, rfl⟩
  · obtain ⟨c, index', rest, hbytes, hrest⟩ := exists_char h hs hne
    have hlt : rest.length < bytes.length := by
      rw [hbytes, List.length_append, String.length_utf8EncodeChar]
      exact Nat.lt_add_of_pos_left (Char.utf8Size_pos c)
    obtain ⟨cs, hcs, hchars⟩ := encode_of_foldlM rest hrest hs
    refine ⟨c :: cs, ?_, ?_⟩
    · rw [hbytes, hcs, List.flatMap_cons]
    · rw [hchars, List.reverse_cons, List.append_assoc]
      rfl
  termination_by bytes.length

end Reading

/-- What is read is what would be written as these octets, and nothing else. -/
theorem decode_eq_ok_iff {bytes : List UInt8} {cs : List Char} :
    decode bytes = .ok cs ↔ encode (String.ofList cs) = bytes := by
  constructor
  · intro h
    obtain ⟨s, hfold, hfinish⟩ := bind_ok h
    rw [finish] at hfinish
    split at hfinish
    · rename_i hs
      cases hfinish
      obtain ⟨cs, hbytes, hchars⟩ := encode_of_foldlM bytes hfold hs
      rw [hchars, encode, String.toList_ofList, hbytes]
      simp
    · cases hfinish
  · rintro rfl
    rw [decode_encode, String.toList_ofList]

end BlockFeed.Text.Utf8
