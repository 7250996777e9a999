import BlockFeed.Proofs.Decimal
import Mathlib.Algebra.Order.Ring.Rat

/-! What is read as a decimal: plain literals, as the numbers they denote, and besides them only digits
behind a point and a sign, in that order. -/

namespace BlockFeed.Decimal

inductive Sign where
  | none
  | plus
  | minus

namespace Sign

def chars : Sign → List Char
  | none => []
  | plus => ['+']
  | minus => ['-']

def factor : Sign → ℤ
  | none => 1
  | plus => 1
  | minus => -1

end Sign

/-- A sign or none, then digits with at most one point before, among or behind them, and underscores
behind the first digit. -/
structure PlainLiteral where
  sign : Sign
  whole : List Char
  /-- What stands behind the point, if there is one. -/
  places : Option (List Char)
  grouped : Grouped (whole ++ places.getD [])

namespace PlainLiteral

variable (l : PlainLiteral)

def behind : List Char := l.places.getD []

def chars : List Char := l.sign.chars ++ (l.whole ++ l.places.elim [] ('.' :: ·))

/-- The digits behind the point, underscores not counted. -/
def scale : Nat := (bare l.behind).length

/-- The number denoted: the digits before the point, and those behind it as a fraction of one. -/
def value : ℚ := l.sign.factor * (number 0 (bare l.whole) + number 0 (bare l.behind) / 10 ^ l.scale)

def decimal : Decimal := ⟨l.sign.factor * number 0 (bare (l.whole ++ l.behind)), l.scale⟩

theorem value_decimal : l.decimal.value = l.value := by
  have hten : (10 : ℚ) ^ l.scale ≠ 0 := pow_ne_zero _ (by norm_num)
  have hdigits : number 0 (bare (l.whole ++ l.behind)) =
      number 0 (bare l.whole) * 10 ^ l.scale + number 0 (bare l.behind) := by
    have hbare : bare (l.whole ++ l.behind) = bare l.whole ++ bare l.behind := List.filter_append ..
    rw [hbare, number_append, number_eq, scale]
  simp only [Decimal.value, decimal, value, hdigits]
  push_cast
  rw [mul_div_assoc, add_div, mul_div_cancel_right₀ _ hten]

theorem unsigned : Unsigned (l.whole ++ l.places.elim [] ('.' :: ·))
    (number 0 (bare (l.whole ++ l.behind))) l.scale := by
  obtain ⟨sign, whole, places, grouped⟩ := l
  cases places with
  | none =>
    have hgrouped : Grouped whole := by simpa using grouped
    simpa [behind, scale, bare] using Unsigned.whole hgrouped
  | some ps => exact .point grouped

theorem signed : Signed l.chars l.decimal := by
  have hunsigned := l.unsigned
  rw [chars, decimal]
  cases l.sign with
  | none =>
    have hsigned := Signed.none hunsigned
    rwa [← one_mul (Nat.cast _ : ℤ)] at hsigned
  | plus =>
    have hsigned := Signed.plus hunsigned
    rwa [← one_mul (Nat.cast _ : ℤ)] at hsigned
  | minus =>
    have hsigned := Signed.minus hunsigned
    rwa [neg_eq_neg_one_mul] at hsigned

end PlainLiteral

theorem Unsigned.exists_literal {cs : List Char} {n scale : Nat} (h : Unsigned cs n scale) (sign : Sign) :
    ∃ l : PlainLiteral, l.chars = sign.chars ++ cs ∧ l.decimal = ⟨sign.factor * n, scale⟩ := by
  cases h with
  | whole hds =>
    have hgrouped : Grouped (cs ++ (none : Option (List Char)).getD []) := by simpa using hds
    refine ⟨⟨sign, cs, none, hgrouped⟩, ?_, ?_⟩
    · simp [PlainLiteral.chars]
    · simp [PlainLiteral.decimal, PlainLiteral.behind, PlainLiteral.scale, bare]
  | @point ds ps hds => exact ⟨⟨sign, ds, some ps, hds⟩, rfl, rfl⟩

theorem Signed.exists_literal {cs : List Char} {d : Decimal} (h : Signed cs d) :
    ∃ l : PlainLiteral, l.chars = cs ∧ l.decimal = d := by
  cases h with
  | none h =>
    obtain ⟨l, hchars, hdecimal⟩ := h.exists_literal .none
    exact ⟨l, hchars, by rw [hdecimal, Sign.factor, one_mul]⟩
  | plus h =>
    obtain ⟨l, hchars, hdecimal⟩ := h.exists_literal .plus
    exact ⟨l, hchars, by rw [hdecimal, Sign.factor, one_mul]⟩
  | minus h =>
    obtain ⟨l, hchars, hdecimal⟩ := h.exists_literal .minus
    exact ⟨l, hchars, by rw [hdecimal, Sign.factor, neg_one_mul]⟩

theorem eq_of_value_eq {d d' : Decimal} (hvalue : d.value = d'.value) (hscale : d.scale = d'.scale) :
    d = d' := by
  have hten : (10 : ℚ) ^ d'.scale ≠ 0 := pow_ne_zero _ (by norm_num)
  rw [value, value, hscale, div_left_inj' hten, Int.cast_inj] at hvalue
  cases d
  cases d'
  simp_all

theorem LateSigned.read {cs : List Char} {d : Decimal} (h : LateSigned cs d) :
    Decimal.read cs = .ok d := by
  have hplain : ∀ {sign : Char} {ds : List Char}, IsPlain sign → Grouped ds →
      ∀ c ∈ '.' :: sign :: ds, IsPlain c := by
    intro sign ds hsign hds c hc
    rcases List.mem_cons.mp hc with rfl | hc
    · exact .inr (.inr (.inl rfl))
    rcases List.mem_cons.mp hc with rfl | hc
    · exact hsign
    · exact (hds.all c hc).imp_right .inl
  have hpoint : '.' ∉ ([] : List Char) := nofun
  cases h with
  | @plus ds hds =>
    exact read_chars (hplain (.inr (.inr (.inr (.inl rfl)))) hds) (splitPoint_point hpoint ('+' :: ds))
      (readInteger_ok.mpr ⟨ds, hds, .inl ⟨.inr rfl, rfl⟩⟩)
  | @minus ds hds =>
    exact read_chars (hplain (.inr (.inr (.inr (.inr rfl)))) hds) (splitPoint_point hpoint ('-' :: ds))
      (readInteger_ok.mpr ⟨ds, hds, .inr ⟨rfl, rfl⟩⟩)

/-- Exactly the plain literals between blanks are read, as the number they denote and with the places they
write, and the digits whose sign stands behind a leading point, with the sign as a place. -/
theorem ofText_ok_iff (text : String) (d : Decimal) :
    ofText? text = .ok d ↔
      (∃ l : PlainLiteral, l.chars = Text.trimChars text.toList ∧ d.value = l.value ∧
        d.scale = l.scale) ∨
      LateSigned (Text.trimChars text.toList) d := by
  rw [ofText_ok]
  constructor
  · intro hread
    refine (signed_of_read hread).imp_left fun hsigned => ?_
    obtain ⟨l, hchars, rfl⟩ := hsigned.exists_literal
    exact ⟨l, hchars, l.value_decimal, rfl⟩
  · rintro (⟨l, hchars, hvalue, hscale⟩ | hlate)
    · obtain rfl : d = l.decimal := eq_of_value_eq (hvalue.trans l.value_decimal.symm) hscale
      exact hchars ▸ l.signed.read
    · exact hlate.read

/-- No literal has its sign behind a point. -/
theorem PlainLiteral.not_lateSigned (l : PlainLiteral) (d : Decimal) : ¬ LateSigned l.chars d := by
  have hno : ∀ (c : Char) (ds : List Char), c.isDigit = false → l.chars ≠ '.' :: c :: ds := by
    intro c ds hc hchars
    obtain ⟨sign, whole, places, grouped⟩ := l
    cases sign with
    | plus => exact absurd (List.cons.inj hchars).1 (by decide)
    | minus => exact absurd (List.cons.inj hchars).1 (by decide)
    | none =>
      cases whole with
      | nil =>
        cases places with
        | none => exact nomatch hchars
        | some ps => exact grouped.head_ne hc ds (List.cons.inj hchars).2
      | cons b whole =>
        obtain rfl : b = '.' := (List.cons.inj hchars).1
        exact grouped.head_ne rfl _ rfl
  intro h
  generalize hcs : l.chars = cs at h
  cases h with
  | plus _ => exact hno _ _ rfl hcs
  | minus _ => exact hno _ _ rfl hcs

/-- Five hundredths below zero, though no number is written there and one digit stands behind the
point. -/
theorem ofText_sign_behind_point :
    ofText? ".-5" = .ok ⟨-5, 2⟩ ∧
      ¬ ∃ l : PlainLiteral, l.chars = Text.trimChars ".-5".toList := by
  have hgrouped : Grouped ['5'] := grouped_of_digits (List.cons_ne_nil '5' []) (by simp)
  have hlate : LateSigned (Text.trimChars ".-5".toList) ⟨-5, 2⟩ := .minus hgrouped
  refine ⟨ofText_ok.mpr hlate.read, ?_⟩
  rintro ⟨l, hchars⟩
  exact l.not_lateSigned _ (hchars ▸ hlate)

end BlockFeed.Decimal
