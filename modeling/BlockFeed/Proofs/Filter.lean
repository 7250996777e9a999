import BlockFeed.Filter
import BlockFeed.Proofs.Text.Blank
import BlockFeed.Proofs.Text.Utf8

/-! How a filter spells the markets it is asked for: identifiers in hex in lower case and without the
blanks around them, all others as they are. -/

namespace BlockFeed.StreamFilter

/-- The mark `0x`, in either case, and hexadecimal digits behind it. -/
inductive IsHex : List Char → Prop where
  | intro {x : Char} {digits : List Char} (hx : x = 'x' ∨ x = 'X') (hne : digits ≠ [])
      (hd : ∀ c ∈ digits, isHexDigit c) : IsHex ('0' :: x :: digits)

/-- An identifier in hex is in lower case, with no blanks around it. -/
def Lowered (market : String) : Prop :=
  IsHex (Text.trimChars market.toList) →
    market.toList = (Text.trimChars market.toList).map Char.toLower

/-- The same identifier, which if it is in hex may have letters in the other case. -/
def Respelled (market spelling : String) : Prop :=
  spelling = market ∨
    IsHex market.toList ∧ spelling.toList.map Char.toLower = market.toList.map Char.toLower

section Case

theorem toLower_of_not_ascii {c : Char} (h : ¬ c.toNat < 0x80) : c.toLower = c := by
  refine dif_neg fun hupper => h ?_
  have hle : c.val.toNat ≤ 'Z'.val.toNat := UInt32.le_iff_toNat_le.mp hupper.2
  exact Nat.lt_of_le_of_lt hle (by decide)

/-- The case of a letter does not matter to whether it is a digit, nor to the mark. -/
theorem isHexDigit_toLower (c : Char) : isHexDigit c.toLower = isHexDigit c := by
  by_cases hc : c.toNat < 0x80
  · exact Text.ascii_all (p := fun c => isHexDigit c.toLower = isHexDigit c) (by decide +kernel) hc
  · rw [toLower_of_not_ascii hc]

theorem eq_zero_of_toLower {c : Char} (h : c.toLower = '0') : c = '0' := by
  have hc : c.toNat < 0x80 := Text.ascii_of_toLower (by rw [h]; decide)
  exact Text.ascii_all (p := fun c => c.toLower = '0' → c = '0') (by decide +kernel) hc h

theorem toLower_mark {c : Char} : c.toLower = 'x' ↔ c = 'x' ∨ c = 'X' := by
  constructor
  · intro h
    have hc : c.toNat < 0x80 := Text.ascii_of_toLower (by rw [h]; decide)
    exact Text.ascii_all (p := fun c => c.toLower = 'x' → c = 'x' ∨ c = 'X') (by decide +kernel) hc h
  · rintro (rfl | rfl) <;> rfl

theorem ascii_of_hexDigit {c : Char} (h : isHexDigit c) : c.toNat < 0x80 := by
  by_contra hc
  simp only [isHexDigit, Char.isDigit, Bool.or_eq_true, Bool.and_eq_true, decide_eq_true_eq,
    Char.le_def, UInt32.le_iff_toNat_le] at h
  have h9 : '9'.val.toNat = 0x39 := rfl
  have hf : 'f'.val.toNat = 0x66 := rfl
  have hF : 'F'.val.toNat = 0x46 := rfl
  have hself : c.val.toNat = c.toNat := rfl
  omega

theorem not_blank_of_hexDigit {c : Char} (h : isHexDigit c) : Text.isBlank c = false :=
  Text.ascii_all (p := fun c => isHexDigit c → Text.isBlank c = false) (by decide +kernel)
    (ascii_of_hexDigit h) h

end Case

theorem IsHex.of_toLower {cs cs' : List Char} (h : IsHex cs)
    (hlower : cs'.map Char.toLower = cs.map Char.toLower) : IsHex cs' := by
  obtain @⟨x, digits, hx, hne, hd⟩ := h
  obtain ⟨zero, rest, rfl, hzero, hrest⟩ := List.map_eq_cons_iff.mp hlower
  obtain ⟨x', digits', rfl, hx', hdigits⟩ := List.map_eq_cons_iff.mp hrest
  obtain rfl : zero = '0' := eq_zero_of_toLower hzero
  refine .intro (toLower_mark.mp (hx'.trans (toLower_mark.mpr hx))) ?_ ?_
  · rintro rfl
    exact hne (List.map_eq_nil_iff.mp hdigits.symm)
  · intro c hc
    obtain ⟨d, hdmem, hdc⟩ := List.mem_map.mp (hdigits ▸ List.mem_map_of_mem hc)
    rw [← isHexDigit_toLower, ← hdc, isHexDigit_toLower]
    exact hd d hdmem

theorem IsHex.trimChars {cs : List Char} (h : IsHex cs) : Text.trimChars cs = cs := by
  cases h with
  | intro hx _ hd =>
    refine Text.trimChars_of_not_blank fun c hc => ?_
    rcases List.mem_cons.mp hc with rfl | hc
    · rfl
    rcases List.mem_cons.mp hc with rfl | hc
    · rcases hx with rfl | rfl <;> rfl
    · exact not_blank_of_hexDigit (hd c hc)

theorem IsHex.ne_nil {cs : List Char} (h : IsHex cs) : cs ≠ [] := by
  cases h with
  | intro => exact List.cons_ne_nil _ _

theorem canonicalMarket_hex {market : String} (h : IsHex (Text.trimChars market.toList)) :
    canonicalMarket market = String.ofList ((Text.trimChars market.toList).map Char.toLower) := by
  rw [canonicalMarket]
  generalize Text.trimChars market.toList = cs at h ⊢
  cases h with
  | @intro x digits hx hne hd =>
    have hall : (!digits.isEmpty && digits.all isHexDigit) = true := by simpa using ⟨hne, hd⟩
    rcases hx with rfl | rfl <;> exact if_pos hall

theorem canonicalMarket_other {market : String} (h : ¬ IsHex (Text.trimChars market.toList)) :
    canonicalMarket market = market := by
  rw [canonicalMarket]
  generalize Text.trimChars market.toList = cs at h ⊢
  have hnot : ∀ {x : Char} {digits : List Char}, x = 'x' ∨ x = 'X' → cs = '0' :: x :: digits →
      ¬ (!digits.isEmpty && digits.all isHexDigit) = true := by
    rintro x digits hx rfl hall
    obtain ⟨hne, hd⟩ : digits ≠ [] ∧ ∀ c ∈ digits, isHexDigit c := by simpa using hall
    exact h (.intro hx hne hd)
  split
  · exact if_neg (hnot (.inl rfl) rfl)
  · exact if_neg (hnot (.inr rfl) rfl)
  · rfl

/-- The markets that a filter keeps as they are. -/
theorem canonicalMarket_eq_self {market : String} : canonicalMarket market = market ↔ Lowered market := by
  by_cases h : IsHex (Text.trimChars market.toList)
  · rw [canonicalMarket_hex h, Lowered, imp_iff_right h, ← String.toList_inj, String.toList_ofList]
    exact eq_comm
  · exact iff_of_true (canonicalMarket_other h) fun h' => absurd h' h

/-- Nothing but the wildcard is spelled like it. -/
theorem canonicalMarket_wildcard {market : String} (h : canonicalMarket market = Index.wildcard) :
    canonicalMarket market = market := by
  by_cases hhex : IsHex (Text.trimChars market.toList)
  · rw [canonicalMarket_hex hhex, ← String.toList_inj, String.toList_ofList] at h
    generalize Text.trimChars market.toList = cs at hhex h
    cases hhex with
    | intro => exact absurd (List.cons.inj h).1 (by decide)
  · exact canonicalMarket_other hhex

theorem Respelled.canonicalMarket {market spelling : String} (h : Respelled market spelling) :
    canonicalMarket spelling = canonicalMarket market := by
  rcases h with rfl | ⟨hhex, hlower⟩
  · rfl
  have hhex' := hhex.of_toLower hlower
  rw [canonicalMarket_hex (hhex'.trimChars.symm ▸ hhex'),
    canonicalMarket_hex (hhex.trimChars.symm ▸ hhex), hhex.trimChars, hhex'.trimChars, hlower]

theorem Respelled.not_blank {market spelling : String} (h : Respelled market spelling)
    (hm : Text.trimChars market.toList ≠ []) : Text.trimChars spelling.toList ≠ [] := by
  rcases h with rfl | ⟨hhex, hlower⟩
  · exact hm
  · have hhex' := hhex.of_toLower hlower
    rw [hhex'.trimChars]
    exact hhex'.ne_nil

theorem ofRequest_market {market : String} (h : Text.trimChars market.toList ≠ []) :
    ofRequest [market] [] = .ok ⟨[canonicalMarket market], []⟩ := by
  have hblank : ([market].any fun m => (Text.trimChars m.toList).isEmpty) = false := by simpa using h
  rw [ofRequest, hblank]
  rfl

end BlockFeed.StreamFilter
