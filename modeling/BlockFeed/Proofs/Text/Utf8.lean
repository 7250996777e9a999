import BlockFeed.Text.Utf8

/-! Texts in octets and back. ASCII characters take one octet each. -/

namespace BlockFeed.Text

theorem ascii_all {p : Char → Prop} (h : ∀ n < 0x80, p (Char.ofNat n)) {c : Char}
    (hc : c.toNat < 0x80) : p c := by
  have hp := h c.toNat hc
  rwa [Char.ofNat_toNat] at hp

/-- Only an ASCII character has an ASCII character as its lower case. -/
theorem ascii_of_toLower {c : Char} (h : c.toLower.toNat < 0x80) : c.toNat < 0x80 := by
  by_cases hupper : c.val ≥ 'A'.val ∧ c.val ≤ 'Z'.val
  · have hle : c.val.toNat ≤ 'Z'.val.toNat := UInt32.le_iff_toNat_le.mp hupper.2
    exact Nat.lt_of_le_of_lt hle (by decide)
  · have hself : c.toLower = c := dif_neg hupper
    rwa [hself] at h

def asciiOctets (cs : List Char) : List UInt8 := cs.map fun c => UInt8.ofNat c.toNat

theorem Utf8.encode_ascii {cs : List Char} (h : ∀ c ∈ cs, c.toNat < 0x80) :
    encode (String.ofList cs) = asciiOctets cs := by
  have hone : ∀ c : Char, c.toNat < 0x80 → String.utf8EncodeChar c = [UInt8.ofNat c.toNat] := by
    intro c hc
    exact ascii_all (p := fun c => String.utf8EncodeChar c = [UInt8.ofNat c.toNat]) (by decide) hc
  rw [encode, String.toList_ofList, asciiOctets]
  induction cs with
  | nil => rfl
  | cons c cs ih =>
    rw [List.flatMap_cons, hone c (h c List.mem_cons_self),
      ih fun d hd => h d (List.mem_cons_of_mem _ hd)]
    rfl

theorem Utf8.length_encode (s : String) : (encode s).length = s.utf8ByteSize := by
  have hs : s = String.ofList s.toList := String.ofList_toList.symm
  rw [encode, hs, String.toList_ofList, String.utf8ByteSize, String.toByteArray_ofList,
    List.utf8Encode, List.size_toByteArray]

theorem utf8ByteSize_ascii {cs : List Char} (h : ∀ c ∈ cs, c.toNat < 0x80) :
    (String.ofList cs).utf8ByteSize = cs.length := by
  rw [← Utf8.length_encode, Utf8.encode_ascii h, asciiOctets, List.length_map]

namespace Utf8

section Reading

variable {b v low high t : Nat} (chars : List Char) (index seen code : Nat)

theorem toNat_octet (h : b < 0x100) : (UInt8.ofNat b).toNat = b := by
  rw [UInt8.toNat_ofNat', Nat.mod_eq_of_lt h]

theorem step_lead {p : Pending} (hb : b < 0x100) (hhigh : 0x80 ≤ b) (h : lead? b = some p) :
    step ⟨chars, index, none⟩ (UInt8.ofNat b) = .ok ⟨chars, index + 1, some p⟩ := by
  simp only [step, toNat_octet hb, if_neg (Nat.not_lt.mpr hhigh), h]

theorem step_more {owed : Nat} (ht : t < 64) (hlow : low ≤ t + 0x80) (hhigh : t + 0x80 ≤ high)
    (howed : 1 < owed) :
    step ⟨chars, index, some ⟨owed, low, high, seen, code⟩⟩ (UInt8.ofNat (t + 0x80)) =
      .ok ⟨chars, index + 1, some ⟨owed - 1, 0x80, 0xBF, seen + 1, code * 64 + t⟩⟩ := by
  have hb : (UInt8.ofNat (t + 0x80)).toNat = t + 0x80 := toNat_octet (by omega)
  simp only [step, hb, if_pos (And.intro hlow hhigh), if_neg (Nat.not_le.mpr howed),
    Nat.add_sub_cancel]

theorem step_last {c : Char} (ht : t < 64) (hc : Char.ofNat (code * 64 + t) = c) :
    step ⟨chars, index, some ⟨1, 0x80, 0xBF, seen, code⟩⟩ (UInt8.ofNat (t + 0x80)) =
      .ok ⟨c :: chars, index + 1, none⟩ := by
  have hb : (UInt8.ofNat (t + 0x80)).toNat = t + 0x80 := toNat_octet (by omega)
  have hbounds : 0x80 ≤ t + 0x80 ∧ t + 0x80 ≤ 0xBF := by omega
  simp only [step, hb, if_pos hbounds, if_pos (Nat.le_refl 1), Nat.add_sub_cancel, hc]

theorem lead_two (hlow : 0x80 ≤ v) (hhigh : v ≤ 0x7FF) :
    lead? (v / 64 + 0xC0) = some ⟨1, 0x80, 0xBF, 1, v / 64⟩ := by
  have hb : 0xC2 ≤ v / 64 + 0xC0 ∧ v / 64 + 0xC0 ≤ 0xDF := by omega
  rw [lead?, if_pos hb, Nat.add_sub_cancel]

/-- Neither an overlong form nor a surrogate is among the characters of three octets. -/
theorem lead_three (hlow : 0x800 ≤ v) (hhigh : v ≤ 0xFFFF) (hs : v < 0xD800 ∨ 0xDFFF < v) :
    ∃ low high, lead? (v / 4096 + 0xE0) = some ⟨2, low, high, 1, v / 4096⟩ ∧
      low ≤ v / 64 % 64 + 0x80 ∧ v / 64 % 64 + 0x80 ≤ high := by
  have htwo : ¬ (0xC2 ≤ v / 4096 + 0xE0 ∧ v / 4096 + 0xE0 ≤ 0xDF) := by omega
  have hthree : 0xE1 ≤ v / 4096 + 0xE0 ∧ v / 4096 + 0xE0 ≤ 0xEF ∨ v / 4096 = 0 := by omega
  rw [lead?, if_neg htwo]
  by_cases hfirst : v / 4096 = 0
  · exact ⟨0xA0, 0xBF, by simp [hfirst], by omega, by omega⟩
  by_cases hsurrogate : v / 4096 = 0xD
  · exact ⟨0x80, 0x9F, by simp [hsurrogate], by omega, by omega⟩
  · have hne : v / 4096 + 0xE0 ≠ 0xE0 := by omega
    have hne' : v / 4096 + 0xE0 ≠ 0xED := by omega
    refine ⟨0x80, 0xBF, ?_, by omega, by omega⟩
    rw [if_neg hne, if_neg hne', if_pos (hthree.resolve_right hfirst), Nat.add_sub_cancel]

theorem lead_four (hlow : 0x10000 ≤ v) (hhigh : v ≤ 0x10FFFF) :
    ∃ low high, lead? (v / 262144 + 0xF0) = some ⟨3, low, high, 1, v / 262144⟩ ∧
      low ≤ v / 4096 % 64 + 0x80 ∧ v / 4096 % 64 + 0x80 ≤ high := by
  have hcases : v / 262144 = 0 ∨ v / 262144 = 1 ∨ v / 262144 = 2 ∨ v / 262144 = 3 ∨
      v / 262144 = 4 := by omega
  rcases hcases with h | h | h | h | h
  · exact ⟨0x90, 0xBF, by rw [h]; rfl, by omega, by omega⟩
  · exact ⟨0x80, 0xBF, by rw [h]; rfl, by omega, by omega⟩
  · exact ⟨0x80, 0xBF, by rw [h]; rfl, by omega, by omega⟩
  · exact ⟨0x80, 0xBF, by rw [h]; rfl, by omega, by omega⟩
  · exact ⟨0x80, 0x8F, by rw [h]; rfl, by omega, by omega⟩

theorem foldlM_encodeChar (c : Char) :
    (String.utf8EncodeChar c).foldlM step ⟨chars, index, none⟩ =
      .ok ⟨c :: chars, index + (String.utf8EncodeChar c).length, none⟩ := by
  have hvalid : c.toNat < 0xD800 ∨ 0xDFFF < c.toNat ∧ c.toNat < 0x110000 := c.valid
  have hself : ∀ n, n = c.toNat → Char.ofNat n = c := by
    rintro n rfl
    exact Char.ofNat_toNat c
  generalize hv : c.toNat = v at hvalid hself
  have ht : v % 64 < 64 := Nat.mod_lt v (by decide)
  have ht' : v / 64 % 64 < 64 := Nat.mod_lt _ (by decide)
  have ht'' : v / 4096 % 64 < 64 := Nat.mod_lt _ (by decide)
  rw [String.utf8EncodeChar, Char.toNat_val, hv]
  by_cases h1 : v ≤ 127
  · have hb : (UInt8.ofNat v).toNat = v := toNat_octet (by omega)
    have hstep : step ⟨chars, index, none⟩ (UInt8.ofNat v) = .ok ⟨c :: chars, index + 1, none⟩ := by
      simp only [step, hb, if_pos (show v < 0x80 by omega), hself v rfl]
    simp only [if_pos h1, List.foldlM_cons, hstep]
    rfl
  by_cases h2 : v ≤ 2047
  · have hb : v / 64 % 32 = v / 64 := by omega
    have hfirst := lead_two (by omega) h2
    have hlead := step_lead chars index (by omega) (by omega) hfirst
    have hlast := step_last chars (index + 1) 1 (v / 64) ht (hself _ (by omega))
    simp only [if_neg h1, if_pos h2, hb, List.foldlM_cons, hlead, bind, Except.bind, hlast]
    rfl
  by_cases h3 : v ≤ 65535
  · have hb : v / 4096 % 16 = v / 4096 := by omega
    obtain ⟨low, high, hfirst, hlow, hhigh⟩ := lead_three (by omega) h3 (by omega)
    have hlead := step_lead chars index (by omega) (by omega) hfirst
    have hmore := step_more chars (index + 1) 1 (v / 4096) ht' hlow hhigh (Nat.lt_succ_self 1)
    have hlast := step_last chars (index + 1 + 1) 2 (v / 4096 * 64 + v / 64 % 64) ht
      (hself _ (by omega))
    simp only [if_neg h1, if_neg h2, if_pos h3, hb, List.foldlM_cons, hlead, bind, Except.bind,
      hmore, hlast]
    rfl
  · have hb : v / 262144 % 8 = v / 262144 := by omega
    have hplain : v / 64 % 64 + 0x80 ≤ 0xBF := by omega
    obtain ⟨low, high, hfirst, hlow, hhigh⟩ := lead_four (v := v) (by omega) (by omega)
    have hlead := step_lead chars index (by omega) (by omega) hfirst
    have hmore := step_more chars (index + 1) 1 (v / 262144) ht'' hlow hhigh
      (show 1 < 3 by decide)
    have hmore' := step_more chars (index + 1 + 1) 2 (v / 262144 * 64 + v / 4096 % 64) ht'
      (Nat.le_add_left 0x80 _) hplain (Nat.lt_succ_self 1)
    have hlast := step_last chars (index + 1 + 1 + 1) 3
      ((v / 262144 * 64 + v / 4096 % 64) * 64 + v / 64 % 64) ht (hself _ (by omega))
    simp only [if_neg h1, if_neg h2, if_neg h3, hb, List.foldlM_cons, hlead, bind, Except.bind,
      hmore, hmore', hlast]
    rfl

theorem decode_encode (s : String) : decode (encode s) = .ok s.toList := by
  have hread : ∀ (cs chars : List Char) (index : Nat), ∃ index',
      (cs.flatMap String.utf8EncodeChar).foldlM step ⟨chars, index, none⟩ =
        .ok ⟨cs.reverse ++ chars, index', none⟩ := by
    intro cs
    induction cs with
    | nil => exact fun _ index => ⟨index, rfl⟩
    | cons c cs ih =>
      intro chars index
      obtain ⟨index', hrest⟩ := ih (c :: chars) (index + (String.utf8EncodeChar c).length)
      refine ⟨index', ?_⟩
      rw [List.flatMap_cons, List.foldlM_append, foldlM_encodeChar]
      simpa [bind, Except.bind] using hrest
  obtain ⟨index, hall⟩ := hread s.toList [] 0
  have hdone : finish ⟨s.toList.reverse ++ [], index, none⟩ = .ok s.toList := by simp [finish]
  rw [decode, encode, State.start, hall]
  exact hdone

end Reading

theorem encode_injective {s t : String} (h : encode s = encode t) : s = t := by
  have hread := decode_encode s
  rw [h, decode_encode t] at hread
  exact String.toList_inj.mp (Except.ok.inj hread).symm

theorem mem_encodeChar {c : Char} {b : UInt8} (h : b ∈ String.utf8EncodeChar c) :
    b.toNat = c.toNat ∨ 0x80 ≤ b.toNat := by
  have hhigh : ∀ n, 0x80 ≤ n → n < 0x100 → b = UInt8.ofNat n → 0x80 ≤ b.toNat := by
    rintro n hlow hn rfl
    rwa [toNat_octet hn]
  rw [String.utf8EncodeChar, Char.toNat_val] at h
  generalize c.toNat = v at h
  split at h
  · obtain rfl : b = UInt8.ofNat v := by simpa using h
    exact .inl (toNat_octet (by omega))
  right
  split at h
  · simp only [List.mem_cons, List.not_mem_nil, or_false] at h
    rcases h with h | h <;> exact hhigh _ (by omega) (by omega) h
  split at h
  · simp only [List.mem_cons, List.not_mem_nil, or_false] at h
    rcases h with h | h | h <;> exact hhigh _ (by omega) (by omega) h
  · simp only [List.mem_cons, List.not_mem_nil, or_false] at h
    rcases h with h | h | h | h <;> exact hhigh _ (by omega) (by omega) h

/-- Octets below 0x80 stand for ASCII characters only. -/
theorem ascii_of_mem_encode {s : String} {b : UInt8} (h : b ∈ encode s) (hb : b.toNat < 0x80) :
    Char.ofNat b.toNat ∈ s.toList := by
  obtain ⟨c, hc, hmem⟩ := List.mem_flatMap.mp h
  have hone : b.toNat = c.toNat := (mem_encodeChar hmem).resolve_right (by omega)
  rwa [hone, Char.ofNat_toNat]

end Utf8

end BlockFeed.Text
