import BlockFeed.Proofs.Json.Numeral
import BlockFeed.Proofs.Number.Layout

/-! Number literals are read in binary and written in decimal again. A literal of at most fifteen
digits comes out as the number it writes, or in a text with an exponent. -/

namespace BlockFeed.Json.Numeral

open Binary64 (Rounds InRange ofRat? ofNat? minExponent)
open Decimal (number)

section Powers

/-- The greatest power of ten that a number is scaled by in one step. -/
def greatestPower : ℚ := 10 ^ 308

theorem pow_le_greatestPower {k : Nat} (hk : k ≤ 308) : (10 : ℚ) ^ k ≤ greatestPower :=
  pow_le_pow_right₀ (by norm_num) hk

theorem greatestPower_lt : greatestPower < (2 ^ 53 - 1) * 2 ^ Binary64.maxExponent := by
  have hten : greatestPower = (10 ^ 154) ^ 2 := pow_mul 10 154 2
  have htwo : (2 : ℚ) ^ Binary64.maxExponent = (2 ^ 194) ^ 5 * 2 := by
    have hsplit : (2 : ℚ) ^ (194 * 5 + 1) = (2 ^ 194) ^ 5 * 2 := by rw [pow_succ, pow_mul]
    rw [← hsplit, ← zpow_natCast]
    rfl
  rw [hten, htwo]
  norm_num

theorem least_le : (2 : ℚ) ^ minExponent ≤ 1 / 10 ^ 20 := by
  have hle : (2 : ℚ) ^ minExponent ≤ 10 ^ (-20 : ℤ) := Binary64.le_ten_zpow (by decide) (by decide)
  have hinv : (10 : ℚ) ^ (-20 : ℤ) = 1 / 10 ^ 20 := by norm_num
  rwa [hinv] at hle

theorem least_mul_greatestPower : (2 : ℚ) ^ minExponent * greatestPower ≤ 1 / 10 ^ 15 := by
  have hle : (2 : ℚ) ^ minExponent ≤ 10 ^ (-323 : ℤ) := Binary64.le_ten_zpow (by decide) (by decide)
  have hpos : 0 ≤ greatestPower := by
    rw [greatestPower]
    positivity
  calc (2 : ℚ) ^ minExponent * greatestPower ≤ 10 ^ (-323 : ℤ) * greatestPower := by gcongr
    _ = 10 ^ (-323 + ((308 : ℕ) : ℤ)) := by
      rw [zpow_add₀ (by norm_num), zpow_natCast, greatestPower]
    _ = 10 ^ (-15 : ℤ) := rfl
    _ = 1 / 10 ^ 15 := by norm_num

theorem ofNat?_small {s : Nat} (hs : s < 10 ^ 15) :
    ((ofNat? s).getD Binary64.zero).value = s := by
  have hcast : (s : ℚ) < 10 ^ 15 := by exact_mod_cast hs
  have hnonneg : (0 : ℚ) ≤ s := Nat.cast_nonneg s
  have hpow := pow_le_greatestPower (by decide : 15 ≤ 308)
  obtain ⟨x, hx⟩ := Binary64.ofRat?_isSome hnonneg ((hcast.trans_le hpow).trans greatestPower_lt)
  have hrounds := Binary64.ofRat?_rounds hnonneg hx
  rw [Binary64.ofNat?_eq, hx, Option.getD_some]
  exact hrounds.exact (hs.trans (by decide)) (by decide : minExponent ≤ 0) (by simp)

theorem power_rounds {k : Nat} (hk : k ≤ 308) : Rounds (10 ^ k) (power k) := by
  have hnonneg : (0 : ℚ) ≤ 10 ^ k := by positivity
  have hle := pow_le_greatestPower hk
  obtain ⟨x, hx⟩ := Binary64.ofRat?_isSome hnonneg (hle.trans_lt greatestPower_lt)
  have hpower : power k = x := by
    have hcast : ((Nat.pow 10 k : ℕ) : ℚ) = 10 ^ k := by
      have hpow : Nat.pow 10 k = 10 ^ k := rfl
      rw [hpow]
      push_cast
      rfl
    rw [power, Binary64.ofNat?_eq, hcast, hx, Option.getD_some]
  rw [hpower]
  exact Binary64.ofRat?_rounds hnonneg hx

theorem power_exact {k : Nat} (hk : k ≤ 22) : (power k).value = 10 ^ k := by
  have hrounds := power_rounds (hk.trans (by decide : 22 ≤ 308))
  have hfive : 5 ^ k < 2 ^ 52 := (Nat.pow_le_pow_right (by decide) hk).trans_lt (by decide)
  refine hrounds.exact (j := k) hfive ?_ ?_
  · exact (by decide : minExponent ≤ 0).trans (Int.natCast_nonneg k)
  · push_cast
    rw [zpow_natCast, ← mul_pow]
    norm_num

theorem power_pos {k : Nat} (hk : k ≤ 308) : 0 < (power k).value := by
  have hge := (power_rounds hk).ge
  have hone : (1 : ℚ) ≤ 10 ^ k := one_le_pow₀ (by norm_num)
  have hleast := least_le
  linarith

theorem significand_ne_zero {x : Binary64} (h : 0 < x.value) : x.significand ≠ 0 := by
  intro hzero
  rw [Binary64.value, hzero, Nat.cast_zero, zero_mul] at h
  exact lt_irrefl _ h

end Powers

section Scaling

variable {s : Nat} {e : ℤ} {x : Binary64}

/-- Too great or too small for a text without an exponent. -/
def Far (x : Binary64) : Prop := InRange x ∧ (10 ^ 16 ≤ x.value ∨ x.value < 1 / 10 ^ 6)

/-- Scaled up, the significand is rounded once, or the number is far from the point. -/
theorem scaled_up {start : Binary64} (hstart : start.value = s) (hpos : 0 < s)
    (he : 0 ≤ e) (h : applyExponent start e = .ok x) :
    e ≤ 22 ∧ ofRat? (s * 10 ^ e) = some x ∨ Far x := by
  have hone : (1 : ℚ) ≤ s := by exact_mod_cast hpos
  have hsig : start.significand ≠ 0 := significand_ne_zero (by rw [hstart]; linarith)
  rw [applyExponent, if_pos he] at h
  split at h
  · rename_i hhigh
    have hk : e.toNat ≤ 308 := by omega
    have hpower := power_pos hk
    rw [Binary64.mul?_eq, hstart] at h
    split at h
    · rename_i y hy
      obtain rfl := Except.ok.inj h
      by_cases hsmall : e ≤ 22
      · have hexp : (10 : ℚ) ^ e = 10 ^ e.toNat := by
          rw [← zpow_natCast, Int.toNat_of_nonneg he]
        rw [power_exact (by omega), ← hexp] at hy
        exact .inl ⟨hsmall, hy⟩
      · have hrounds := Binary64.ofRat?_rounds (by positivity) hy
        have hmono : (10 : ℚ) ^ 23 ≤ 10 ^ e.toNat := pow_le_pow_right₀ (by norm_num) (by omega)
        have hscaled : (power e.toNat).value ≤ s * (power e.toNat).value :=
          le_mul_of_one_le_left hpower.le hone
        have hge := hrounds.ge
        have hpower' := (power_rounds hk).ge
        have hleast := least_le
        have hgreat : (10 : ℚ) ^ 16 ≤ y.value := by linarith
        exact .inr ⟨hrounds.inRange (significand_ne_zero (by linarith)), .inl hgreat⟩
    · cases h
  · cases h

theorem scaled_down {start : Binary64} (hstart : start.value = s) (hpos : 0 < s) (hs : s < 10 ^ 15)
    (he : e < 0) (hlow : -308 ≤ e) (h : applyExponent start e = .ok x) :
    -22 ≤ e ∧ ofRat? (s * 10 ^ e) = some x ∨ Far x := by
  have hone : (1 : ℚ) ≤ s := by exact_mod_cast hpos
  have hmost : (s : ℚ) ≤ 10 ^ 15 := by exact_mod_cast hs.le
  have hk : (-e).toNat ≤ 308 := by omega
  have hpower := power_pos hk
  have hge := (power_rounds hk).ge
  have hle := (power_rounds hk).le (by positivity)
  have hleast := least_le
  rw [applyExponent, if_neg (by omega), if_pos hlow,
    Binary64.div?_eq start (significand_ne_zero hpower), hstart] at h
  generalize hp : (power (-e).toNat).value = p at hpower hge hle h
  have hquotient : (s : ℚ) / p ≤ 10 ^ 15 := by
    have hten : (10 : ℚ) ^ 1 ≤ 10 ^ (-e).toNat := pow_le_pow_right₀ (by norm_num) (by omega)
    have hone' : 1 ≤ p := by linarith
    rw [div_le_iff₀ hpower]
    linarith
  have hnonneg : 0 ≤ (s : ℚ) / p := by positivity
  have hbelow := (hquotient.trans (pow_le_greatestPower (by decide))).trans_lt greatestPower_lt
  obtain ⟨y, hy⟩ := Binary64.ofRat?_isSome hnonneg hbelow
  rw [hy, Option.getD_some] at h
  obtain rfl := Except.ok.inj h
  by_cases hsmall : -22 ≤ e
  · have hexp : (s : ℚ) / 10 ^ (-e).toNat = s * 10 ^ e := by
      have hneg : e = -((-e).toNat : ℤ) := by omega
      rw [div_eq_mul_inv]
      conv_rhs => rw [hneg, zpow_neg, zpow_natCast]
    rw [← hp, power_exact (by omega), hexp] at hy
    exact .inl ⟨hsmall, hy⟩
  have hrounds := Binary64.ofRat?_rounds hnonneg hy
  have hle' := hrounds.le hnonneg
  have hsmaller : (s : ℚ) / p ≤ 1 / 10 ^ 7 := by
    have hmono : (10 : ℚ) ^ 23 ≤ 10 ^ (-e).toNat := pow_le_pow_right₀ (by norm_num) (by omega)
    rw [div_le_iff₀ hpower]
    linarith
  have hpos' : 0 < y.value := by
    by_contra hzero
    have hge' := hrounds.ge
    have htiny : (s : ℚ) / p ≤ 2 ^ minExponent := by linarith
    rw [div_le_iff₀ hpower] at htiny
    have hpow := pow_le_greatestPower hk
    have hunit : (1 : ℚ) ≤ 10 ^ (-e).toNat := one_le_pow₀ (by norm_num)
    have hfour : p ≤ 4 * greatestPower := by linarith
    have hmul := mul_le_mul_of_nonneg_left hfour (Binary64.two_zpow_pos minExponent).le
    have hproduct := least_mul_greatestPower
    linarith
  exact .inr ⟨hrounds.inRange (significand_ne_zero hpos'), .inr (by linarith)⟩

end Scaling

section Texts

open Decimal (Plain)

variable {x : Binary64}

theorem Far.point (h : Far x) : ¬ (-4 ≤ x.shortest.point ∧ x.shortest.point ≤ 16) := by
  obtain ⟨hrange, hfar⟩ := h
  obtain ⟨hlow, hhigh⟩ := Binary64.decimalPoint_spec hrange
  obtain ⟨hpoint, hpoint'⟩ := Binary64.point_shortest hrange
  rcases hfar with hgreat | hsmall
  · have hlt : (10 : ℚ) ^ (16 : ℤ) < 10 ^ x.decimalPoint := hgreat.trans_lt hhigh
    rw [zpow_lt_zpow_iff_right₀ (by norm_num)] at hlt
    omega
  · have hsix : (1 : ℚ) / 10 ^ 6 = 10 ^ (-6 : ℤ) := by norm_num
    have hlt := hlow.trans_lt hsmall
    rw [hsix, zpow_lt_zpow_iff_right₀ (by norm_num)] at hlt
    omega

theorem ofText_real {negative : Bool} {d : Decimal}
    (h : Decimal.ofText? (Number.real negative x).text = .ok d) :
    (-4 ≤ x.shortest.point ∧ x.shortest.point ≤ 16) ∧
      d.value = (if negative then -1 else 1) * x.shortest.value := by
  have hdigits := Binary64.digits_shortest x
  have hpoint : -4 ≤ x.shortest.point ∧ x.shortest.point ≤ 16 := by
    by_contra hout
    obtain ⟨hmark, hall⟩ := ShortDecimal.marked_exponent hdigits hout
    refine Decimal.ofText_exponent (List.mem_append_right _ hmark) ?_ d h
    intro c hc
    rcases List.mem_append.mp hc with hc | hc
    · split at hc
      · exact .inl (.inr (.inr (.inr (.inr (List.mem_singleton.mp hc)))))
      · cases hc
    · exact hall c hc
  refine ⟨hpoint, ?_⟩
  obtain ⟨n, scale, hmagnitude, hvalue⟩ := ShortDecimal.marked_magnitude hdigits hpoint
  cases negative with
  | true =>
    have hplain : Plain (Number.real true x).text ⟨-n, scale⟩ := .negative hmagnitude
    obtain rfl := Except.ok.inj (hplain.ofText.symm.trans h)
    rw [Decimal.value, ← hvalue]
    push_cast
    simp [neg_div]
  | false =>
    have hplain : Plain (Number.real false x).text ⟨n, scale⟩ := .positive hmagnitude
    obtain rfl := Except.ok.inj (hplain.ofText.symm.trans h)
    rw [Decimal.value, ← hvalue]
    push_cast
    simp

end Texts

def exponentValue : Option (Bool × List Char) → ℤ
  | none => 0
  | some (down, ds) => if down then -(number 0 ds : ℤ) else number 0 ds

def significand (n : Numeral) : Nat := number 0 (n.whole ++ n.places)

/-- The power of ten that the significand is to be multiplied by. -/
def tens (n : Numeral) : ℤ := exponentValue n.exponent - n.places.length

/-- The number that a literal writes. -/
def value (n : Numeral) : ℚ := (if n.negative then -1 else 1) * (n.significand * 10 ^ n.tens)

structure Whole (n : Numeral) : Prop where
  places : n.places = []
  exponent : n.exponent = none
  fits : number 0 n.whole ≤ if n.negative then maxMinus else maxNatural

/-- At most fifteen digits, and not so small as to vanish. -/
structure Brief (n : Numeral) : Prop where
  digits : n.significand < 10 ^ 15
  visible : n.significand = 0 ∨ -308 ≤ n.tens

section Literals

variable {n : Numeral} {m : Number} {d : Decimal}

theorem exponentSize?_eq (ds : List Char) :
    exponentSize? ds = if number 0 ds ≤ maxExponent then some (number 0 ds) else none := rfl

/-- A literal whose digits all count is scaled by the power of ten; only a hopeless exponent is
looked at by itself. -/
theorem toReal_ok (hs : n.significand < 10 ^ 15) (h : n.toReal = .ok m) :
    ∃ x, m = .real n.negative x ∧
      (applyExponent ((ofNat? n.significand).getD Binary64.zero) n.tens = .ok x ∨
        (n.significand = 0 ∨ n.tens < -308) ∧ x = Binary64.zero) := by
  have hmax : number (number 0 n.whole) n.places ≤ maxNatural := by
    rw [← Decimal.number_append]
    exact hs.le.trans (by decide)
  have hwhole := collect_all ((Decimal.le_number _ n.places).trans hmax)
  have hplaces := collect_all hmax
  have hsig : number (number 0 n.whole) n.places = n.significand := by
    rw [significand, Decimal.number_append]
  have hparts : ∀ e, e = n.tens → ofParts n.negative n.significand e = .ok m →
      ∃ x, m = .real n.negative x ∧
        (applyExponent ((ofNat? n.significand).getD Binary64.zero) n.tens = .ok x ∨
          (n.significand = 0 ∨ n.tens < -308) ∧ x = Binary64.zero) := by
    rintro e rfl hm
    obtain ⟨x, hx, happly⟩ := ofParts_ok hm
    exact ⟨x, hx, .inl happly⟩
  simp only [toReal, hwhole, hplaces, hsig, List.length_nil, Nat.sub_zero] at h
  split at h
  · rename_i hnone
    refine hparts _ ?_ h
    rw [tens, hnone, exponentValue]
    simp
  · rename_i down digits hsome
    rw [exponentSize?_eq] at h
    by_cases hsize : number 0 digits ≤ maxExponent
    · rw [if_pos hsize] at h
      refine hparts _ ?_ h
      rw [tens, hsome, exponentValue]
      cases down <;> simp <;> ring
    · rw [if_neg hsize] at h
      dsimp only at h
      split at h
      · cases h
      rename_i hhopeless
      refine ⟨Binary64.zero, (Except.ok.inj h).symm, .inr ⟨?_, rfl⟩⟩
      rw [tens, hsome, exponentValue]
      have hbig : (maxExponent : ℤ) = 0x7FFFFFFF := rfl
      cases down with
      | true =>
        simp only [if_true]
        omega
      | false =>
        left
        by_contra hne
        exact hhopeless ⟨hne, rfl⟩

theorem value_of_zero {x : Binary64} (h : x.significand = 0) : x.shortest.value = 0 := by
  rw [Binary64.shortest, if_pos h, ShortDecimal.value]
  have hzero : number 0 ['0'] = 0 := rfl
  rw [hzero, Nat.cast_zero, zero_mul]

theorem applyExponent_zero {x start : Binary64} {e : ℤ} (hstart : start.significand = 0)
    (h : applyExponent start e = .ok x) : x.significand = 0 := by
  have hvalue : start.value = 0 := by
    rw [Binary64.value, hstart, Nat.cast_zero, zero_mul]
  have hround : ofRat? 0 = some Binary64.zero := rfl
  rw [applyExponent] at h
  split at h
  · split at h
    · rw [Binary64.mul?_eq, hvalue, zero_mul, hround] at h
      obtain rfl := Except.ok.inj h
      rfl
    · obtain rfl := Except.ok.inj h
      exact hstart
  split at h
  · rename_i hlow
    have hpower := power_pos (by omega : (-e).toNat ≤ 308)
    rw [Binary64.div?_eq start (significand_ne_zero hpower), hvalue, zero_div, hround] at h
    obtain rfl := Except.ok.inj h
    rfl
  · obtain rfl := Except.ok.inj h
    exact hstart

theorem toReal_exact (hn : n.Brief) (h : n.toReal = .ok m)
    (hd : Decimal.ofText? m.text = .ok d) : d.value = n.value := by
  obtain ⟨x, rfl, happly⟩ := toReal_ok hn.digits h
  obtain ⟨hpoint, hvalue⟩ := ofText_real hd
  rw [hvalue, value]
  congr 1
  have hstart := ofNat?_small hn.digits
  generalize (ofNat? n.significand).getD Binary64.zero = start at happly hstart
  by_cases hzero : n.significand = 0
  · have hx : x.significand = 0 := by
      rcases happly with happly | ⟨-, rfl⟩
      · have hsig : start.significand = 0 := by
          by_contra hne
          have hpos := Binary64.value_pos hne
          rw [hstart, hzero, Nat.cast_zero] at hpos
          exact lt_irrefl _ hpos
        exact applyExponent_zero hsig happly
      · rfl
    rw [value_of_zero hx, hzero, Nat.cast_zero, zero_mul]
  have hpos := Nat.pos_of_ne_zero hzero
  have hlow := hn.visible.resolve_left hzero
  have happly' : applyExponent start n.tens = .ok x := by
    refine happly.resolve_right fun hnone => ?_
    omega
  have hscaled : -22 ≤ n.tens ∧ ofRat? (n.significand * 10 ^ n.tens) = some x ∨ Far x := by
    rcases le_or_gt 0 n.tens with htens | htens
    · exact (scaled_up hstart hpos htens happly').imp_left fun h => ⟨by omega, h.2⟩
    · exact scaled_down hstart hpos hn.digits htens hlow happly'
  rcases hscaled with ⟨hnear, hround⟩ | hfar
  · exact Binary64.value_shortest hpos hn.digits hnear rfl hround
  · exact absurd hpoint hfar.point

theorem toDigits_magnitude (s : Nat) : Decimal.Magnitude (Nat.toDigits 10 s) s 0 := by
  have hmagnitude := Decimal.Magnitude.whole Nat.toDigits_ne_nil fun c hc =>
    Nat.isDigit_of_mem_toDigits (by decide : 0 < 10) (by decide) hc (n := s)
  rwa [Decimal.number_toDigits] at hmagnitude

theorem natural_plain (s : Nat) : Decimal.Plain (Number.natural s).text ⟨s, 0⟩ := by
  have htext : (Number.natural s).text = String.ofList (Nat.toDigits 10 s) := by
    rw [Number.text, Nat.toString_eq_ofList_toDigits]
  rw [htext]
  exact .positive (toDigits_magnitude s)

theorem minus_plain (s : Nat) : Decimal.Plain (Number.minus s).text ⟨-s, 0⟩ := by
  have htext : (Number.minus s).text = String.ofList ('-' :: Nat.toDigits 10 s) := by
    have hsign : toString "-" = "-" := rfl
    rw [Number.text, Nat.toString_eq_ofList_toDigits, hsign]
    exact String.toList_inj.mp (by simp)
  rw [htext]
  exact .negative (toDigits_magnitude s)

theorem whole_exact (hn : n.Whole) (h : n.toNumber = .ok m)
    (hd : Decimal.ofText? m.text = .ok d) : d.value = n.value := by
  have hsig : n.significand = number 0 n.whole := by
    rw [significand, hn.places, List.append_nil]
  have htens : n.tens = 0 := by
    rw [tens, hn.places, hn.exponent]
    rfl
  have hvalue : n.value = (if n.negative then -1 else 1) * number 0 n.whole := by
    rw [value, hsig, htens, zpow_zero, mul_one]
  have hfits := hn.fits
  have hmax : number 0 n.whole ≤ maxNatural := by
    split at hfits
    · exact hfits.trans (by decide)
    · exact hfits
  have hdef : n.toNumber =
      if !n.negative then .ok (.natural (number 0 n.whole))
      else if number 0 n.whole = 0 ∨ maxMinus < number 0 n.whole then ofParts true (number 0 n.whole) 0
      else .ok (.minus (number 0 n.whole)) := by
    simp only [toNumber, hn.places, hn.exponent, collect_all hmax]
  rw [hdef] at h
  rw [hvalue]
  cases hsign : n.negative with
  | false =>
    rw [hsign] at h
    obtain rfl := Except.ok.inj h
    obtain rfl := Except.ok.inj ((natural_plain _).ofText.symm.trans hd)
    simp [Decimal.value]
  | true =>
    rw [hsign] at h hfits
    have hless : ¬ maxMinus < number 0 n.whole := not_lt.mpr hfits
    by_cases hzero : number 0 n.whole = 0
    · have hparts : ofParts true 0 0 = .ok m := by simpa [hzero] using h
      obtain ⟨x, rfl, happly⟩ := ofParts_ok hparts
      have hx := applyExponent_zero rfl happly
      rw [(ofText_real hd).2, value_of_zero hx, hzero, Nat.cast_zero]
    · have hminus : .ok (.minus (number 0 n.whole)) = (.ok m : Except Fault Number) := by
        simpa [hzero, hless] using h
      obtain rfl := Except.ok.inj hminus
      obtain rfl := Except.ok.inj ((minus_plain _).ofText.symm.trans hd)
      simp [Decimal.value]

theorem toNumber_exact (hn : n.Whole ∨ n.Brief) (h : n.toNumber = .ok m)
    (hd : Decimal.ofText? m.text = .ok d) : d.value = n.value := by
  by_cases hplain : n.places = [] ∧ n.exponent = none
  · obtain ⟨hplaces, hexponent⟩ := hplain
    rcases hn with hwhole | hbrief
    · exact whole_exact hwhole h hd
    · have hdigits := hbrief.digits
      rw [significand, hplaces, List.append_nil] at hdigits
      refine whole_exact ⟨hplaces, hexponent, ?_⟩ h hd
      split
      · exact hdigits.le.trans (by decide)
      · exact hdigits.le.trans (by decide)
  · have hbrief := hn.resolve_left fun hwhole => hplain ⟨hwhole.places, hwhole.exponent⟩
    have hreal : n.toNumber = n.toReal := by
      unfold toNumber
      split
      · rename_i hplaces hexponent _
        exact absurd ⟨hplaces, hexponent⟩ hplain
      · rfl
    rw [hreal] at h
    exact toReal_exact hbrief h hd

end Literals

end BlockFeed.Json.Numeral
