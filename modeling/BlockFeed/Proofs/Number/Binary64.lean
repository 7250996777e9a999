import BlockFeed.Number.Binary64
import Mathlib.Algebra.Order.Field.Power
import Mathlib.Data.Nat.Log
import Mathlib.Data.Rat.Cast.Order
import Mathlib.Tactic.FieldSimp
import Mathlib.Tactic.GCongr
import Mathlib.Tactic.Linarith
import Mathlib.Tactic.Positivity
import Mathlib.Tactic.Ring

/-! Rounding to binary floating point, as it acts on rational numbers: how far it may lead, which
numbers it keeps, and that it does not depend on how a number is written as a quotient. -/

namespace BlockFeed.Binary64

def value (x : Binary64) : ℚ := x.significand * 2 ^ x.exponent

def quotient (r : Nat × Nat) : ℚ := r.1 / r.2

section Quotients

variable {n d n' d' : Nat}

theorem two_zpow_pos (e : ℤ) : (0 : ℚ) < 2 ^ e := by positivity

theorem scaleBy_pos (hd : 0 < d) (n : Nat) (e : ℤ) : 0 < (scaleBy n d e).2 := by
  unfold scaleBy
  split
  · exact hd
  · rw [Nat.shiftLeft_eq]
    positivity

theorem quotient_scaleBy (n d : Nat) (e : ℤ) : quotient (scaleBy n d e) = n / d * 2 ^ e := by
  unfold scaleBy quotient
  split
  · rename_i h
    have hpow : (2 : ℚ) ^ e = 2 ^ e.toNat := by
      rw [← zpow_natCast, Int.toNat_of_nonneg h]
    rw [hpow, Nat.shiftLeft_eq]
    push_cast
    ring
  · rename_i h
    have hpow : (2 : ℚ) ^ e = (2 ^ (-e).toNat)⁻¹ := by
      rw [← zpow_natCast, Int.toNat_of_nonneg (by omega), zpow_neg, inv_inv]
    rw [hpow, Nat.shiftLeft_eq]
    push_cast
    rw [div_mul_eq_div_div, div_eq_mul_inv (_ / _)]

theorem ratio_pos (x : Binary64) : 0 < x.ratio.2 := scaleBy_pos Nat.one_pos _ _

theorem quotient_ratio (x : Binary64) : quotient x.ratio = x.value := by
  rw [ratio, quotient_scaleBy, value]
  simp

theorem roundRatio_error (hd : 0 < d) : |(roundRatio n d : ℚ) - n / d| ≤ 1 / 2 := by
  have hpos : (0 : ℚ) < d := by exact_mod_cast hd
  have hsplit : (n : ℚ) / d = (n / d : Nat) + (n % d : Nat) / d := by
    have hn : ((d * (n / d) + n % d : Nat) : ℚ) = n := by rw [Nat.div_add_mod]
    rw [← hn]
    push_cast
    field_simp
  have hrest : ((n % d : Nat) : ℚ) / d < 1 := by
    rw [div_lt_one hpos]
    exact_mod_cast Nat.mod_lt n hd
  have hnonneg : 0 ≤ ((n % d : Nat) : ℚ) / d := by positivity
  have hhalf : ∀ k : Nat, k * 2 ≤ d → (k : ℚ) / d ≤ 1 / 2 := by
    intro k hk
    rw [div_le_div_iff₀ hpos two_pos]
    exact_mod_cast (by omega : k * 2 ≤ 1 * d)
  have hhalf' : ∀ k : Nat, d ≤ k * 2 → 1 / 2 ≤ (k : ℚ) / d := by
    intro k hk
    rw [div_le_div_iff₀ two_pos hpos]
    exact_mod_cast (by omega : 1 * d ≤ k * 2)
  rw [hsplit, abs_le]
  unfold roundRatio
  dsimp only
  split
  · have := hhalf (n % d) (by omega)
    constructor <;> linarith
  split
  · have := hhalf' (n % d) (by omega)
    push_cast
    constructor <;> linarith
  · have := hhalf (n % d) (by omega)
    have := hhalf' (n % d) (by omega)
    split
    · constructor <;> linarith
    · push_cast
      constructor <;> linarith

theorem roundRatio_mul {k : Nat} (hk : 0 < k) (n d : Nat) :
    roundRatio (k * n) (k * d) = roundRatio n d := by
  have hlow : 2 * (k * (n % d)) < k * d ↔ 2 * (n % d) < d := by
    rw [Nat.mul_left_comm]
    exact Nat.mul_lt_mul_left hk
  have hhigh : k * d < 2 * (k * (n % d)) ↔ d < 2 * (n % d) := by
    rw [Nat.mul_left_comm]
    exact Nat.mul_lt_mul_left hk
  simp only [roundRatio, Nat.mul_div_mul_left _ _ hk, Nat.mul_mod_mul_left, hlow, hhigh]

theorem roundRatio_congr (hd : 0 < d) (hd' : 0 < d') (h : (n : ℚ) / d = n' / d') :
    roundRatio n d = roundRatio n' d' := by
  have hcross : d' * n = d * n' := by
    have hne : (d : ℚ) ≠ 0 := by exact_mod_cast hd.ne'
    have hne' : (d' : ℚ) ≠ 0 := by exact_mod_cast hd'.ne'
    rw [div_eq_div_iff hne hne'] at h
    have hnat : n * d' = n' * d := by exact_mod_cast h
    rw [Nat.mul_comm, hnat, Nat.mul_comm]
  calc roundRatio n d = roundRatio (d' * n) (d' * d) := (roundRatio_mul hd' n d).symm
    _ = roundRatio (d * n') (d * d') := by rw [hcross, Nat.mul_comm d' d]
    _ = roundRatio n' d' := roundRatio_mul hd n' d'

end Quotients

section Exponent

/-- At this exponent the number takes at most 53 bits, and all of them unless it is the least. -/
structure Fits (q : ℚ) (e : ℤ) : Prop where
  low : minExponent ≤ e
  below : q < 2 ^ 53 * 2 ^ e
  full : e = minExponent ∨ 2 ^ 52 * 2 ^ e ≤ q

theorem Fits.le {q : ℚ} {e e' : ℤ} (h : Fits q e) (h' : Fits q e') : e ≤ e' := by
  rcases h.full with rfl | hfull
  · exact h'.low
  have hlt := hfull.trans_lt h'.below
  have hsplit : (2 : ℚ) ^ 53 * 2 ^ e' = 2 ^ 52 * 2 ^ (e' + 1) := by
    rw [zpow_add_one₀ two_ne_zero]
    ring
  rw [hsplit, mul_lt_mul_iff_right₀ (by positivity), zpow_lt_zpow_iff_right₀ one_lt_two] at hlt
  omega

theorem Fits.unique {q : ℚ} {e e' : ℤ} (h : Fits q e) (h' : Fits q e') : e = e' :=
  (h.le h').antisymm (h'.le h)

variable {n d : Nat}

theorem log_bounds (hn : n ≠ 0) (hd : 0 < d) :
    (2 : ℚ) ^ ((n.log2 : ℤ) - d.log2 - 1) < n / d ∧
      (n : ℚ) / d < 2 ^ ((n.log2 : ℤ) - d.log2 + 1) := by
  have hpos : (0 : ℚ) < d := by exact_mod_cast hd
  have hlow : ∀ k : Nat, k ≠ 0 → (2 : ℚ) ^ (k.log2 : ℤ) ≤ k := by
    intro k hk
    rw [zpow_natCast]
    exact_mod_cast Nat.log2_self_le hk
  have hhigh : ∀ k : Nat, (k : ℚ) < 2 ^ ((k.log2 : ℤ) + 1) := by
    intro k
    have hk := Nat.lt_log2_self (n := k)
    exact_mod_cast hk
  have hnl := hlow n hn
  have hdl := hlow d hd.ne'
  have hnh := hhigh n
  have hdh := hhigh d
  constructor
  · rw [lt_div_iff₀ hpos]
    calc (2 : ℚ) ^ ((n.log2 : ℤ) - d.log2 - 1) * d
        < 2 ^ ((n.log2 : ℤ) - d.log2 - 1) * 2 ^ ((d.log2 : ℤ) + 1) := by gcongr
      _ = 2 ^ (n.log2 : ℤ) := by rw [← zpow_add₀ two_ne_zero]; congr 1; ring
      _ ≤ n := hnl
  · rw [div_lt_iff₀ hpos]
    calc (n : ℚ) < 2 ^ ((n.log2 : ℤ) + 1) := hnh
      _ = 2 ^ ((n.log2 : ℤ) - d.log2 + 1) * 2 ^ (d.log2 : ℤ) := by
        rw [← zpow_add₀ two_ne_zero]; congr 1; ring
      _ ≤ 2 ^ ((n.log2 : ℤ) - d.log2 + 1) * d := by gcongr

/-- The exponent at which all 53 bits are used, however small it is. -/
def fullExponent (n d : Nat) : ℤ :=
  let guess : ℤ := (n.log2 : ℤ) - d.log2 - 52
  if (scaleBy n d (-guess)).1 / (scaleBy n d (-guess)).2 < leastFull then guess - 1 else guess

theorem exponentOf_eq (n d : Nat) : exponentOf n d =
    if fullExponent n d < minExponent then minExponent else fullExponent n d := rfl

theorem scaled_lt_leastFull (hd : 0 < d) (e : ℤ) :
    (scaleBy n d (-e)).1 / (scaleBy n d (-e)).2 < leastFull ↔ (n : ℚ) / d < 2 ^ 52 * 2 ^ e := by
  have hscaled := quotient_scaleBy n d (-e)
  have hpos : (0 : ℚ) < (scaleBy n d (-e)).2 := by exact_mod_cast scaleBy_pos hd n (-e)
  rw [quotient, zpow_neg, ← div_eq_mul_inv] at hscaled
  rw [Nat.div_lt_iff_lt_mul (scaleBy_pos hd n (-e)), ← @Nat.cast_lt ℚ, Nat.cast_mul,
    ← div_lt_iff₀ hpos, hscaled, div_lt_iff₀ (two_zpow_pos e)]
  norm_num [leastFull]

theorem fullExponent_bounds (hn : n ≠ 0) (hd : 0 < d) :
    (2 : ℚ) ^ 52 * 2 ^ fullExponent n d ≤ n / d ∧
      (n : ℚ) / d < 2 ^ 53 * 2 ^ fullExponent n d := by
  obtain ⟨hlow, hhigh⟩ := log_bounds hn hd
  have hdef : fullExponent n d =
      if (n : ℚ) / d < 2 ^ 52 * 2 ^ ((n.log2 : ℤ) - d.log2 - 52) then (n.log2 : ℤ) - d.log2 - 52 - 1
      else (n.log2 : ℤ) - d.log2 - 52 := by
    simp only [fullExponent, scaled_lt_leastFull hd]
  generalize (n.log2 : ℤ) - d.log2 = bits at hlow hhigh hdef
  have hsplit : ∀ (k : ℕ) (e : ℤ), (2 : ℚ) ^ k * 2 ^ e = 2 ^ (k + e) := by
    intro k e
    rw [zpow_add₀ two_ne_zero, zpow_natCast]
  rw [hdef]
  split
  · rename_i hlt
    have htop : ((53 : ℕ) : ℤ) + (bits - 52 - 1) = (52 : ℕ) + (bits - 52) := by omega
    have hbottom : ((52 : ℕ) : ℤ) + (bits - 52 - 1) = bits - 1 := by omega
    rw [hsplit] at hlt
    rw [hsplit, hsplit, htop, hbottom]
    exact ⟨hlow.le, hlt⟩
  · rename_i hge
    have htop : ((53 : ℕ) : ℤ) + (bits - 52) = bits + 1 := by omega
    refine ⟨not_lt.mp hge, ?_⟩
    rwa [hsplit, htop]

theorem exponentOf_fits (hn : n ≠ 0) (hd : 0 < d) : Fits (n / d) (exponentOf n d) := by
  obtain ⟨hfull, hbelow⟩ := fullExponent_bounds hn hd
  rw [exponentOf_eq]
  split
  · rename_i hmin
    have hmono : (2 : ℚ) ^ fullExponent n d ≤ 2 ^ minExponent :=
      zpow_le_zpow_right₀ one_le_two hmin.le
    exact ⟨le_rfl, hbelow.trans_le (by gcongr), .inl rfl⟩
  · rename_i hmin
    exact ⟨not_lt.mp hmin, hbelow, .inr hfull⟩

end Exponent

section Rounding

/-- The number of the format nearest to a number that is not negative, whatever its quotient. -/
def ofRat? (q : ℚ) : Option Binary64 := ofRatio? q.num.natAbs q.den

variable {n d n' d' : Nat}

def scaled (n d : Nat) : Nat :=
  roundRatio (scaleBy n d (-exponentOf n d)).1 (scaleBy n d (-exponentOf n d)).2

def carried (s : Nat) (e : ℤ) : Binary64 :=
  if s = 2 * leastFull then ⟨leastFull, e + 1⟩ else ⟨s, e⟩

theorem value_carried (s : Nat) (e : ℤ) : (carried s e).value = s * 2 ^ e := by
  unfold carried
  split
  · rename_i h
    rw [h, value, zpow_add_one₀ two_ne_zero]
    push_cast
    ring
  · rfl

theorem ofRatio?_eq (hn : n ≠ 0) : ofRatio? n d =
    if maxExponent < (carried (scaled n d) (exponentOf n d)).exponent then none
    else some (carried (scaled n d) (exponentOf n d)) := by
  rw [ofRatio?, if_neg hn]
  rfl

theorem ofRatio?_congr (hd : 0 < d) (hd' : 0 < d') (h : (n : ℚ) / d = n' / d') :
    ofRatio? n d = ofRatio? n' d' := by
  have hne : (d : ℚ) ≠ 0 := by exact_mod_cast hd.ne'
  have hne' : (d' : ℚ) ≠ 0 := by exact_mod_cast hd'.ne'
  by_cases hn : n = 0
  · have hn' : n' = 0 := by
      have hzero : (n' : ℚ) = 0 := by simpa [hn, hne', eq_comm] using h
      exact_mod_cast hzero
    rw [hn, hn', ofRatio?, ofRatio?, if_pos rfl, if_pos rfl]
  · have hn' : n' ≠ 0 := by
      rintro rfl
      have hzero : (n : ℚ) = 0 := by simpa [hne] using h
      exact hn (by exact_mod_cast hzero)
    have hexp : exponentOf n d = exponentOf n' d' := by
      have hfits := exponentOf_fits hn hd
      rw [h] at hfits
      exact hfits.unique (exponentOf_fits hn' hd')
    have hscaled : scaled n d = scaled n' d' := by
      refine roundRatio_congr (scaleBy_pos hd _ _) (scaleBy_pos hd' _ _) ?_
      have hq := quotient_scaleBy n d (-exponentOf n d)
      have hq' := quotient_scaleBy n' d' (-exponentOf n' d')
      rw [h, hexp, ← hq'] at hq
      rw [hexp]
      exact hq
    rw [ofRatio?_eq hn, ofRatio?_eq hn', hexp, hscaled]

theorem ofRatio?_eq_ofRat? (hd : 0 < d) {q : ℚ} (h : (n : ℚ) / d = q) : ofRatio? n d = ofRat? q := by
  subst h
  refine ofRatio?_congr hd (Rat.den_pos _) ?_
  have hnonneg : (0 : ℚ) ≤ n / d := by positivity
  have hnum : 0 ≤ ((n : ℚ) / d).num := Rat.num_nonneg.mpr hnonneg
  rw [Nat.cast_natAbs, abs_of_nonneg hnum, Rat.num_div_den]

theorem scaled_error (hd : 0 < d) :
    |(scaled n d : ℚ) - n / d / 2 ^ exponentOf n d| ≤ 1 / 2 := by
  have hq := quotient_scaleBy n d (-exponentOf n d)
  rw [zpow_neg, ← div_eq_mul_inv] at hq
  rw [← hq]
  exact roundRatio_error (scaleBy_pos hd _ _)

theorem scaled_le (hn : n ≠ 0) (hd : 0 < d) : scaled n d ≤ 2 ^ 53 := by
  have hpos := two_zpow_pos (exponentOf n d)
  have hbelow := (exponentOf_fits hn hd).below
  rw [← div_lt_iff₀ hpos] at hbelow
  have herror := (abs_le.mp (scaled_error (n := n) hd)).2
  have hlt : (scaled n d : ℚ) < 2 ^ 53 + 1 := by linarith
  have hnat : scaled n d < 2 ^ 53 + 1 := by exact_mod_cast hlt
  exact Nat.le_of_lt_succ hnat

theorem le_scaled (hn : n ≠ 0) (hd : 0 < d) :
    exponentOf n d = minExponent ∨ 2 ^ 52 ≤ scaled n d := by
  refine (exponentOf_fits hn hd).full.imp_right fun hfull => ?_
  have hpos := two_zpow_pos (exponentOf n d)
  rw [← le_div_iff₀ hpos] at hfull
  have herror := (abs_le.mp (scaled_error (n := n) hd)).1
  have hlt : (2 : ℚ) ^ 52 < scaled n d + 1 := by linarith
  have hnat : 2 ^ 52 < scaled n d + 1 := by exact_mod_cast hlt
  exact Nat.le_of_lt_succ hnat

/-- How a number of the format stands to one that is rounded to it. -/
structure Rounds (q : ℚ) (x : Binary64) : Prop where
  near : |x.value - q| ≤ 2 ^ x.exponent / 2
  below : x.significand < 2 ^ 53
  full : x.exponent = minExponent ∨ 2 ^ 52 ≤ x.significand
  low : minExponent ≤ x.exponent
  high : x.exponent ≤ maxExponent

theorem ofRatio?_rounds (hd : 0 < d) {x : Binary64} (h : ofRatio? n d = some x) :
    Rounds (n / d) x := by
  by_cases hn : n = 0
  · rw [ofRatio?, if_pos hn] at h
    obtain rfl := Option.some.inj h
    refine ⟨?_, by decide, .inl rfl, by decide, by decide⟩
    have hpos := two_zpow_pos zero.exponent
    have hzero : zero.value = 0 := by simp [value, zero]
    rw [hn, hzero, Nat.cast_zero, zero_div, sub_zero, abs_zero]
    positivity
  have hfits := exponentOf_fits hn hd
  have hpos := two_zpow_pos (exponentOf n d)
  have hnear : |(scaled n d : ℚ) * 2 ^ exponentOf n d - n / d| ≤ 2 ^ exponentOf n d / 2 := by
    have hfactor : (scaled n d : ℚ) * 2 ^ exponentOf n d - n / d =
        (scaled n d - n / d / 2 ^ exponentOf n d) * 2 ^ exponentOf n d := by
      field_simp
    have herror := mul_le_mul_of_nonneg_right (scaled_error (n := n) hd) hpos.le
    rw [hfactor, abs_mul, abs_of_pos hpos]
    linarith
  rw [ofRatio?_eq hn] at h
  split at h
  · cases h
  rename_i hmax
  obtain rfl := Option.some.inj h
  have hhigh := not_lt.mp hmax
  have hvalue := value_carried (scaled n d) (exponentOf n d)
  rw [← hvalue] at hnear
  by_cases hcarry : scaled n d = 2 * leastFull
  · have hx : carried (scaled n d) (exponentOf n d) = ⟨leastFull, exponentOf n d + 1⟩ := if_pos hcarry
    rw [hx] at hhigh hnear ⊢
    refine ⟨hnear.trans ?_, (by decide : leastFull < 2 ^ 53), .inr (by decide : 2 ^ 52 ≤ leastFull), ?_,
      hhigh⟩
    · dsimp only
      rw [zpow_add_one₀ two_ne_zero]
      linarith
    · have hlow := hfits.low
      dsimp only
      omega
  · have hx : carried (scaled n d) (exponentOf n d) = ⟨scaled n d, exponentOf n d⟩ := if_neg hcarry
    rw [hx] at hhigh hnear ⊢
    have hle := scaled_le hn hd
    have hbelow : scaled n d < 2 ^ 53 := by
      have hne : scaled n d ≠ 2 ^ 53 := hcarry
      omega
    exact ⟨hnear, hbelow, le_scaled hn hd, hfits.low, hhigh⟩

/-- Only what would round past the greatest number is refused. -/
theorem ofRatio?_isSome (hd : 0 < d) (h : (n : ℚ) / d < (2 ^ 53 - 1) * 2 ^ maxExponent) :
    ∃ x, ofRatio? n d = some x := by
  by_cases hn : n = 0
  · exact ⟨zero, by rw [ofRatio?, if_pos hn]⟩
  have hfits := exponentOf_fits hn hd
  have hpos := two_zpow_pos (exponentOf n d)
  have hexp : exponentOf n d ≤ maxExponent := by
    rcases hfits.full with hmin | hfull
    · rw [hmin]
      decide
    · have hlt := hfull.trans_lt h
      have hpow : (2 : ℚ) ^ 52 * 2 ^ (exponentOf n d) < 2 ^ 52 * 2 ^ (maxExponent + 1) := by
        rw [zpow_add_one₀ two_ne_zero]
        have hmax := two_zpow_pos maxExponent
        linarith
      rw [mul_lt_mul_iff_right₀ (by positivity), zpow_lt_zpow_iff_right₀ one_lt_two] at hpow
      omega
  have hcarry : exponentOf n d = maxExponent → scaled n d ≠ 2 * leastFull := by
    intro hmax hscaled
    have herror := (abs_le.mp (scaled_error (n := n) hd)).2
    rw [← div_lt_iff₀ (two_zpow_pos maxExponent), ← hmax] at h
    rw [hscaled] at herror
    norm_num [leastFull] at herror h
    linarith
  rw [ofRatio?_eq hn]
  refine ⟨_, if_neg ?_⟩
  unfold carried
  split
  · rename_i hscaled
    have hne : exponentOf n d ≠ maxExponent := fun hmax => hcarry hmax hscaled
    dsimp only
    omega
  · exact not_lt.mpr hexp

end Rounding

section Numbers

variable {q : ℚ} {x y : Binary64}

theorem value_nonneg (x : Binary64) : 0 ≤ x.value := by
  have hpos := two_zpow_pos x.exponent
  rw [value]
  positivity

theorem value_pos (h : x.significand ≠ 0) : 0 < x.value := by
  have hpos := two_zpow_pos x.exponent
  have hs : (0 : ℚ) < x.significand := by exact_mod_cast Nat.pos_of_ne_zero h
  exact mul_pos hs hpos

theorem natAbs_num_div_den (hq : 0 ≤ q) : (q.num.natAbs : ℚ) / q.den = q := by
  rw [Nat.cast_natAbs, abs_of_nonneg (Rat.num_nonneg.mpr hq), Rat.num_div_den]

theorem ofRat?_rounds (hq : 0 ≤ q) (h : ofRat? q = some x) : Rounds q x := by
  have hrounds := ofRatio?_rounds (Rat.den_pos q) h
  rwa [natAbs_num_div_den hq] at hrounds

theorem ofRat?_isSome (hq : 0 ≤ q) (h : q < (2 ^ 53 - 1) * 2 ^ maxExponent) :
    ∃ x, ofRat? q = some x := by
  rw [← natAbs_num_div_den hq] at h
  exact ofRatio?_isSome (Rat.den_pos q) h

theorem ofNat?_eq (n : Nat) : ofNat? n = ofRat? n :=
  ofRatio?_eq_ofRat? Nat.one_pos (by simp)

theorem mul?_eq (x y : Binary64) : x.mul? y = ofRat? (x.value * y.value) := by
  refine ofRatio?_eq_ofRat? (Nat.mul_pos x.ratio_pos y.ratio_pos) ?_
  rw [← quotient_ratio, ← quotient_ratio, quotient, quotient, div_mul_div_comm]
  push_cast
  rfl

theorem div?_eq (x : Binary64) (hy : y.significand ≠ 0) : x.div? y = ofRat? (x.value / y.value) := by
  have hpos := value_pos hy
  have hnum : 0 < y.ratio.1 := by
    rw [← quotient_ratio, quotient] at hpos
    by_contra hzero
    rw [Nat.eq_zero_of_not_pos hzero] at hpos
    simp at hpos
  refine ofRatio?_eq_ofRat? (Nat.mul_pos x.ratio_pos hnum) ?_
  rw [← quotient_ratio, ← quotient_ratio, quotient, quotient, div_div_div_eq]
  push_cast
  rfl

theorem Rounds.step_le (h : Rounds q x) :
    x.exponent = minExponent ∨ (2 : ℚ) ^ 52 * 2 ^ x.exponent ≤ x.value := by
  refine h.full.imp_right fun hfull => ?_
  have hcast : (2 : ℚ) ^ 52 ≤ x.significand := by exact_mod_cast hfull
  exact mul_le_mul_of_nonneg_right hcast (two_zpow_pos _).le

theorem Rounds.le (h : Rounds q x) (hq : 0 ≤ q) : x.value ≤ 2 * q + 2 ^ minExponent := by
  have hpos := two_zpow_pos minExponent
  have hnear := (abs_le.mp h.near).2
  rcases h.step_le with hmin | hstep
  · rw [hmin] at hnear
    linarith
  · linarith

theorem Rounds.ge (h : Rounds q x) : q ≤ 2 * x.value + 2 ^ minExponent := by
  have hpos := two_zpow_pos minExponent
  have hvalue := x.value_nonneg
  have hnear := (abs_le.mp h.near).1
  rcases h.step_le with hmin | hstep
  · rw [hmin] at hnear
    linarith
  · linarith

theorem Rounds.normal (h : Rounds q x) (hq : 2 ^ 52 * 2 ^ minExponent ≤ q) :
    (2 : ℚ) ^ 52 * 2 ^ x.exponent ≤ x.value := by
  rcases h.step_le with hmin | hstep
  · by_contra hlow
    have hpos := two_zpow_pos x.exponent
    rw [not_le, value, mul_lt_mul_iff_left₀ hpos] at hlow
    have hs : (x.significand : ℚ) + 1 ≤ 2 ^ 52 := by exact_mod_cast hlow
    have hvalue := mul_le_mul_of_nonneg_right hs hpos.le
    have hnear := (abs_le.mp h.near).1
    rw [value] at hnear
    rw [← hmin] at hq
    linarith
  · exact hstep

theorem eq_of_multiples {g a b : ℚ} {i j : ℤ} (ha : a = i * g) (hb : b = j * g)
    (h : |a - b| < g) : a = b := by
  have hg : 0 < g := (abs_nonneg _).trans_lt h
  have hfactor : a - b = ((i - j : ℤ) : ℚ) * g := by
    rw [ha, hb]
    push_cast
    ring
  rw [hfactor, abs_mul, abs_of_pos hg] at h
  have hone : |((i - j : ℤ) : ℚ)| < 1 := by
    by_contra hge
    have hle := mul_le_mul_of_nonneg_right (not_lt.mp hge) hg.le
    linarith
  have hint : |i - j| < 1 := by exact_mod_cast hone
  have hzero : i - j = 0 := by
    rwa [Int.abs_lt_one_iff] at hint
  rw [ha, hb, show i = j by omega]

theorem Rounds.exact (h : Rounds q x) {m : Nat} {j : ℤ} (hm : m < 2 ^ 52) (hj : minExponent ≤ j)
    (hq : q = m * 2 ^ j) : x.value = q := by
  have hpos := two_zpow_pos x.exponent
  have hnear := h.near
  -- Both numbers are multiples of the unit of the last bit, and rounding is finer than it.
  have hexp : x.exponent ≤ j := by
    rcases h.step_le with hmin | hstep
    · rwa [hmin]
    · have hlt : (2 : ℚ) ^ x.exponent < 2 ^ (j + 1) := by
        have hjpos := two_zpow_pos j
        have hle : (m : ℚ) + 1 ≤ 2 ^ 52 := by exact_mod_cast hm
        have hupper := mul_le_mul_of_nonneg_right hle hjpos.le
        have hlower := (abs_le.mp hnear).2
        rw [zpow_add_one₀ two_ne_zero]
        by_contra hge
        linarith
      rw [zpow_lt_zpow_iff_right₀ one_lt_two] at hlt
      omega
  obtain ⟨k, hk⟩ := Int.eq_ofNat_of_zero_le (sub_nonneg.mpr hexp)
  have hmultiple : q = ((m * 2 ^ k : ℕ) : ℤ) * 2 ^ x.exponent := by
    have hsplit : j = k + x.exponent := by omega
    rw [hq, hsplit, zpow_add₀ two_ne_zero, zpow_natCast]
    push_cast
    ring
  have hvalue : x.value = ((x.significand : ℤ) : ℚ) * 2 ^ x.exponent := by
    rw [value]
    push_cast
    rfl
  refine eq_of_multiples hvalue hmultiple (hnear.trans_lt ?_)
  linarith

end Numbers

end BlockFeed.Binary64
