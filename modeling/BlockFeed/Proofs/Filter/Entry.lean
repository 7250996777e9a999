import BlockFeed.Proofs.Filter
import BlockFeed.Proofs.Subaccount

/-! The entries of a request. For each identifier one spelling is kept; kept once more it stays as it
is, and no two identifiers have the same. -/

namespace BlockFeed

namespace Text.Hex

theorem digitChar_hex : ∀ k < 16, StreamFilter.isHexDigit (digitChar k) = true := by decide

/-- Every digit stands for a value, in the case in which it is written or not. -/
theorem exists_digitChar {c : Char} (h : StreamFilter.isHexDigit c) : ∃ k < 16, c.toLower = digitChar k :=
  ascii_all (p := fun c => StreamFilter.isHexDigit c → ∃ k < 16, c.toLower = digitChar k)
    (by decide +kernel) (StreamFilter.ascii_of_hexDigit h) h

theorem ofByte_ofNat {j k : Nat} (hj : j < 16) (hk : k < 16) :
    ofByte (UInt8.ofNat (16 * j + k)) = [digitChar j, digitChar k] := by
  have hb : (UInt8.ofNat (16 * j + k)).toNat = 16 * j + k := by
    rw [UInt8.toNat_ofNat', Nat.mod_eq_of_lt (by omega)]
  have hdiv : (16 * j + k) / 16 = j := by omega
  have hmod : (16 * j + k) % 16 = k := by omega
  rw [ofByte, hb, hdiv, hmod]

/-- An even number of digits stands for octets. -/
theorem exists_spells {n : Nat} {digits : List Char} (hlen : digits.length = 2 * n)
    (h : ∀ c ∈ digits, StreamFilter.isHexDigit c) : ∃ octets, octets.length = n ∧ Spells digits octets := by
  induction n generalizing digits with
  | zero =>
    obtain rfl := List.length_eq_zero_iff.mp hlen
    exact ⟨[], rfl, rfl⟩
  | succ n ih =>
    match digits with
    | [] => cases hlen
    | [c] => cases hlen
    | c :: d :: digits =>
      obtain ⟨hc, h⟩ := List.forall_mem_cons.mp h
      obtain ⟨hd, h⟩ := List.forall_mem_cons.mp h
      obtain ⟨j, hj, hcj⟩ := exists_digitChar hc
      obtain ⟨k, hk, hdk⟩ := exists_digitChar hd
      obtain ⟨octets, hoctets, hspells⟩ := ih (by simp only [List.length_cons] at hlen; omega) h
      refine ⟨UInt8.ofNat (16 * j + k) :: octets, by rw [List.length_cons, hoctets], ?_⟩
      rw [Spells] at hspells ⊢
      rw [List.map_cons, List.map_cons, hcj, hdk, hspells, encode, encode, List.flatMap_cons,
        ofByte_ofNat hj hk]
      rfl

theorem Spells.hex {digits : List Char} {octets : List UInt8} (h : Spells digits octets) :
    ∀ c ∈ digits, StreamFilter.isHexDigit c := by
  induction octets generalizing digits with
  | nil =>
    obtain rfl : digits = [] := List.map_eq_nil_iff.mp h
    nofun
  | cons b octets ih =>
    have hb := b.toNat_lt
    obtain ⟨c, d, rest, rfl, hc, hd, hrest⟩ := h.cons
    refine List.forall_mem_cons.mpr ⟨?_, List.forall_mem_cons.mpr ⟨?_, ih hrest⟩⟩
    · rw [← StreamFilter.isHexDigit_toLower, hc]
      exact digitChar_hex _ (by omega)
    · rw [← StreamFilter.isHexDigit_toLower, hd]
      exact digitChar_hex _ (by omega)

end Text.Hex

namespace StreamFilter

/-- There is nothing but blanks. -/
def Blank (market : String) : Prop := ∀ c ∈ market.toList, Text.isBlank c = true

/-- Between blanks there are 64 hexadecimal digits, perhaps with the mark in front. -/
def Names (subaccount : String) (digits : List Char) : Prop :=
  digits.length = 64 ∧ (∀ c ∈ digits, isHexDigit c) ∧
    ∃ mark ∈ SubaccountId.marks, Text.trimChars subaccount.toList = mark ++ digits

def Admissible (subaccount : String) : Prop := subaccount = Index.wildcard ∨ ∃ digits, Names subaccount digits

/-- What is kept of a market. -/
def KeptMarket (market kept : String) : Prop :=
  IsHex (Text.trimChars market.toList) ∧ kept.toList = (Text.trimChars market.toList).map Char.toLower ∨
    ¬ IsHex (Text.trimChars market.toList) ∧ kept = market

/-- The spelling of a subaccount that is kept. -/
def spelled (digits : List Char) : String := String.ofList ('0' :: 'x' :: digits.map Char.toLower)

/-- What is kept of a subaccount. -/
def KeptSubaccount (subaccount kept : String) : Prop :=
  subaccount = Index.wildcard ∧ kept = Index.wildcard ∨ ∃ digits, Names subaccount digits ∧ kept = spelled digits

/-- The same identifier in hex, or the same text. -/
def SameMarket (market market' : String) : Prop :=
  market = market' ∨
    IsHex (Text.trimChars market.toList) ∧ IsHex (Text.trimChars market'.toList) ∧
      (Text.trimChars market.toList).map Char.toLower = (Text.trimChars market'.toList).map Char.toLower

/-- The same identifier, or the same text. -/
def SameSubaccount (subaccount subaccount' : String) : Prop :=
  subaccount = subaccount' ∨
    ∃ digits digits', Names subaccount digits ∧ Names subaccount' digits' ∧
      digits.map Char.toLower = digits'.map Char.toLower

section Market

variable {market market' : String}

theorem not_blank_iff : ¬ Blank market ↔ Text.trimChars market.toList ≠ [] :=
  not_congr Text.trimChars_eq_nil_iff.symm

theorem map_toLower_toLower (cs : List Char) : (cs.map Char.toLower).map Char.toLower = cs.map Char.toLower := by
  have hlower : ∀ c : Char, c.toLower.toLower = c.toLower := by
    intro c
    by_cases hc : c.toNat < 0x80
    · exact Text.ascii_all (p := fun c => c.toLower.toLower = c.toLower) (by decide +kernel) hc
    · rw [toLower_of_not_ascii hc, toLower_of_not_ascii hc]
  rw [List.map_map]
  exact List.map_congr_left fun c _ => hlower c

theorem IsHex.map_toLower {cs : List Char} (h : IsHex cs) : IsHex (cs.map Char.toLower) :=
  h.of_toLower (map_toLower_toLower cs)

/-- In hex, what is kept is in hex and has nothing around it. -/
theorem trimChars_canonicalMarket (h : IsHex (Text.trimChars market.toList)) :
    Text.trimChars (canonicalMarket market).toList = (Text.trimChars market.toList).map Char.toLower := by
  rw [canonicalMarket_hex h, String.toList_ofList, h.map_toLower.trimChars]

theorem canonicalMarket_eq_iff : canonicalMarket market = canonicalMarket market' ↔
    SameMarket market market' := by
  constructor
  · intro h
    by_cases hhex : IsHex (Text.trimChars market.toList)
    · have htrim := trimChars_canonicalMarket hhex
      by_cases hhex' : IsHex (Text.trimChars market'.toList)
      · rw [h, trimChars_canonicalMarket hhex'] at htrim
        exact .inr ⟨hhex, hhex', htrim.symm⟩
      · rw [h, canonicalMarket_other hhex'] at htrim
        exact absurd (htrim ▸ hhex.map_toLower) hhex'
    · by_cases hhex' : IsHex (Text.trimChars market'.toList)
      · have htrim := trimChars_canonicalMarket hhex'
        rw [← h, canonicalMarket_other hhex] at htrim
        exact absurd (htrim ▸ hhex'.map_toLower) hhex
      · rw [canonicalMarket_other hhex, canonicalMarket_other hhex'] at h
        exact .inl h
  · rintro (rfl | ⟨hhex, hhex', hlower⟩)
    · rfl
    · rw [canonicalMarket_hex hhex, canonicalMarket_hex hhex', hlower]

theorem canonicalMarket_canonicalMarket (market : String) :
    canonicalMarket (canonicalMarket market) = canonicalMarket market := by
  by_cases hhex : IsHex (Text.trimChars market.toList)
  · have htrim := trimChars_canonicalMarket hhex
    refine canonicalMarket_eq_iff.mpr (.inr ⟨htrim ▸ hhex.map_toLower, hhex, ?_⟩)
    rw [htrim, map_toLower_toLower]
  · rw [canonicalMarket_other hhex, canonicalMarket_other hhex]

theorem not_blank_canonicalMarket (h : ¬ Blank market) : ¬ Blank (canonicalMarket market) := by
  by_cases hhex : IsHex (Text.trimChars market.toList)
  · rw [not_blank_iff, trimChars_canonicalMarket hhex]
    exact hhex.map_toLower.ne_nil
  · rwa [canonicalMarket_other hhex]

theorem keptMarket (market : String) : KeptMarket market (canonicalMarket market) := by
  by_cases hhex : IsHex (Text.trimChars market.toList)
  · exact .inl ⟨hhex, by rw [canonicalMarket_hex hhex, String.toList_ofList]⟩
  · exact .inr ⟨hhex, canonicalMarket_other hhex⟩

theorem SameMarket.blank (h : SameMarket market market') : Blank market ↔ Blank market' := by
  rcases h with rfl | ⟨hhex, hhex', -⟩
  · rfl
  · exact iff_of_false (not_blank_iff.mpr hhex.ne_nil) (not_blank_iff.mpr hhex'.ne_nil)

end Market

section Subaccount

variable {subaccount subaccount' stored : String} {digits digits' : List Char}

theorem spelled_inj : spelled digits = spelled digits' ↔ digits.map Char.toLower = digits'.map Char.toLower := by
  rw [spelled, spelled, String.ofList_inj, List.cons_inj_right, List.cons_inj_right]

theorem spelled_ne_wildcard (digits : List Char) : spelled digits ≠ Index.wildcard := by
  intro h
  have hchars := congrArg String.toList h
  rw [spelled, String.toList_ofList] at hchars
  exact absurd (List.cons.inj hchars).1 (by decide)

theorem Names.ne_wildcard (h : Names subaccount digits) : subaccount ≠ Index.wildcard := by
  rintro rfl
  obtain ⟨hlen, -, mark, -, htrim⟩ := h
  have hshort := congrArg List.length htrim
  rw [List.length_append, hlen] at hshort
  have hone : (Text.trimChars Index.wildcard.toList).length = 1 := by decide
  omega

/-- What is read as an identifier, and how it is written again. -/
theorem Names.ofText (h : Names subaccount digits) :
    ∃ id, SubaccountId.ofText? (Text.trim subaccount) = .ok id ∧ id.text = spelled digits := by
  obtain ⟨hlen, hhex, mark, hmark, htrim⟩ := h
  obtain ⟨octets, hoctets, hspells⟩ := Text.Hex.exists_spells (n := 32) hlen hhex
  refine ⟨⟨octets, hoctets⟩, ?_, ?_⟩
  · exact SubaccountId.ofText_eq_ok_iff.mpr ⟨mark, hmark, digits, hspells, by rw [Text.trim, htrim]⟩
  · rw [SubaccountId.text, SubaccountId.chars, spelled, hspells]

theorem names_of_ofText {id : SubaccountId} (h : SubaccountId.ofText? (Text.trim subaccount) = .ok id) :
    ∃ digits, Names subaccount digits := by
  obtain ⟨mark, hmark, digits, hspells, htrim⟩ := SubaccountId.ofText_eq_ok_iff.mp h
  rw [Text.trim, String.ofList_inj] at htrim
  refine ⟨digits, ?_, hspells.hex, mark, hmark, htrim⟩
  rw [hspells.length, id.length_octets]

theorem Names.canonicalSubaccount (h : Names subaccount digits) :
    canonicalSubaccount subaccount = .ok (spelled digits) := by
  obtain ⟨id, hid, htext⟩ := h.ofText
  rw [StreamFilter.canonicalSubaccount, if_neg h.ne_wildcard, hid]
  exact congrArg Except.ok htext

theorem canonicalSubaccount_wildcard : canonicalSubaccount Index.wildcard = .ok Index.wildcard := if_pos rfl

theorem canonicalSubaccount_refused (h : ¬ Admissible subaccount) : ∃ reason,
    SubaccountId.ofText? (Text.trim subaccount) = .error reason ∧
      canonicalSubaccount subaccount = .error (.invalidSubaccount subaccount reason) := by
  obtain ⟨hwildcard, hnames⟩ := not_or.mp h
  cases hread : SubaccountId.ofText? (Text.trim subaccount) with
  | ok id => exact absurd (names_of_ofText hread) hnames
  | error reason =>
    refine ⟨reason, rfl, ?_⟩
    rw [canonicalSubaccount, if_neg hwildcard, hread]

theorem admissible_iff : Admissible subaccount ↔ ∃ stored, canonicalSubaccount subaccount = .ok stored := by
  constructor
  · rintro (rfl | ⟨digits, h⟩)
    · exact ⟨_, canonicalSubaccount_wildcard⟩
    · exact ⟨_, h.canonicalSubaccount⟩
  · rintro ⟨stored, hstored⟩
    by_contra h
    obtain ⟨reason, -, hrefused⟩ := canonicalSubaccount_refused h
    rw [hrefused] at hstored
    cases hstored

theorem canonicalSubaccount_eq_error_iff {e : StreamFilterError} : canonicalSubaccount subaccount = .error e ↔
    ¬ Admissible subaccount ∧ ∃ reason, SubaccountId.ofText? (Text.trim subaccount) = .error reason ∧
      e = .invalidSubaccount subaccount reason := by
  by_cases had : Admissible subaccount
  · obtain ⟨stored, hstored⟩ := admissible_iff.mp had
    rw [hstored]
    exact iff_of_false nofun fun h => h.1 had
  · obtain ⟨reason, hreason, hrefused⟩ := canonicalSubaccount_refused had
    rw [hrefused, hreason, and_iff_right had]
    constructor
    · intro h
      cases h
      exact ⟨reason, rfl, rfl⟩
    · rintro ⟨_, ⟨⟩, rfl⟩
      rfl

theorem canonicalSubaccount_eq_iff : canonicalSubaccount subaccount = canonicalSubaccount subaccount' ↔
    SameSubaccount subaccount subaccount' := by
  constructor
  · intro h
    by_cases had : Admissible subaccount
    · have had' : Admissible subaccount' := admissible_iff.mpr (h ▸ admissible_iff.mp had)
      rcases had with rfl | ⟨digits, hnames⟩ <;> rcases had' with rfl | ⟨digits', hnames'⟩
      · exact .inl rfl
      · rw [canonicalSubaccount_wildcard, hnames'.canonicalSubaccount] at h
        exact absurd (Except.ok.inj h).symm (spelled_ne_wildcard digits')
      · rw [canonicalSubaccount_wildcard, hnames.canonicalSubaccount] at h
        exact absurd (Except.ok.inj h) (spelled_ne_wildcard digits)
      · rw [hnames.canonicalSubaccount, hnames'.canonicalSubaccount] at h
        exact .inr ⟨digits, digits', hnames, hnames', spelled_inj.mp (Except.ok.inj h)⟩
    · have had' : ¬ Admissible subaccount' := fun h' => had (admissible_iff.mpr (h ▸ admissible_iff.mp h'))
      obtain ⟨reason, -, hrefused⟩ := canonicalSubaccount_refused had
      obtain ⟨reason', -, hrefused'⟩ := canonicalSubaccount_refused had'
      rw [hrefused, hrefused'] at h
      -- The report holds the text that was given.
      cases h
      exact .inl rfl
  · rintro (rfl | ⟨digits, digits', hnames, hnames', hlower⟩)
    · rfl
    · rw [hnames.canonicalSubaccount, hnames'.canonicalSubaccount, spelled_inj.mpr hlower]

theorem names_spelled (h : Names subaccount digits) : Names (spelled digits) (digits.map Char.toLower) := by
  obtain ⟨hlen, hhex, -⟩ := h
  have hne : digits ≠ [] := by
    rintro rfl
    cases hlen
  have hishex : IsHex ('0' :: 'x' :: digits.map Char.toLower) :=
    (IsHex.intro (.inl rfl) hne hhex).map_toLower
  refine ⟨by rw [List.length_map, hlen], ?_, ['0', 'x'], by decide, ?_⟩
  · intro c hc
    obtain ⟨d, hd, rfl⟩ := List.mem_map.mp hc
    rw [isHexDigit_toLower]
    exact hhex d hd
  · rw [spelled, String.toList_ofList, hishex.trimChars]
    rfl

theorem keptSubaccount (h : canonicalSubaccount subaccount = .ok stored) :
    KeptSubaccount subaccount stored := by
  rcases admissible_iff.mpr ⟨stored, h⟩ with rfl | ⟨digits, hnames⟩
  · exact .inl ⟨rfl, (Except.ok.inj (canonicalSubaccount_wildcard.symm.trans h)).symm⟩
  · exact .inr ⟨digits, hnames, (Except.ok.inj (hnames.canonicalSubaccount.symm.trans h)).symm⟩

theorem canonicalSubaccount_stored (h : canonicalSubaccount subaccount = .ok stored) :
    canonicalSubaccount stored = .ok stored := by
  rcases admissible_iff.mpr ⟨stored, h⟩ with rfl | ⟨digits, hnames⟩
  · obtain rfl := Except.ok.inj (canonicalSubaccount_wildcard.symm.trans h)
    exact h
  · obtain rfl := Except.ok.inj (hnames.canonicalSubaccount.symm.trans h)
    rw [(names_spelled hnames).canonicalSubaccount, spelled_inj.mpr (map_toLower_toLower digits)]

end Subaccount

end StreamFilter

end BlockFeed
