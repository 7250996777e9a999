import BlockFeed.Number.Shortest
import BlockFeed.Proofs.Decimal
import BlockFeed.Proofs.Number.Binary64

/-! The shortest text of a number that a decimal of fifteen digits was rounded to is that decimal:
on the decimal's grid no other number is as near. -/

namespace BlockFeed

def ShortDecimal.value (s : ShortDecimal) : ℚ :=
  Decimal.number 0 s.digits * 10 ^ (s.point - s.digits.length)

namespace Binary64

section PowersOfTen

/-- Fifty-nine powers of ten are a little less than 196 powers of two, twenty-eight a little more
than 93. -/
theorem ten_zpow_le {l b : ℤ} (h : 196 * l ≤ 59 * b) (h' : 93 * l ≤ 28 * b) :
    (10 : ℚ) ^ l ≤ 2 ^ b := by
  rcases le_or_gt 0 l with hl | hl
  · have hbase : (10 : ℚ) ^ (59 : ℕ) ≤ 2 ^ (196 : ℕ) := by norm_num
    have hpow : ((10 : ℚ) ^ l) ^ (59 : ℕ) ≤ (2 ^ b) ^ (59 : ℕ) := by
      calc ((10 : ℚ) ^ l) ^ (59 : ℕ) = (10 ^ (59 : ℕ)) ^ l := by
            rw [← zpow_natCast, ← zpow_natCast, ← zpow_mul, ← zpow_mul, mul_comm]
        _ ≤ (2 ^ (196 : ℕ)) ^ l := zpow_le_zpow_left₀ hl (by positivity) hbase
        _ = 2 ^ (196 * l) := by rw [← zpow_natCast, ← zpow_mul]; rfl
        _ ≤ 2 ^ (59 * b) := zpow_le_zpow_right₀ one_le_two h
        _ = (2 ^ b) ^ (59 : ℕ) := by rw [← zpow_natCast, ← zpow_mul, mul_comm]; rfl
    exact (pow_le_pow_iff_left₀ (by positivity) (by positivity) (by decide)).mp hpow
  · have hbase : (2 : ℚ) ^ (93 : ℕ) ≤ 10 ^ (28 : ℕ) := by norm_num
    have hneg : 0 ≤ -l := by omega
    have hpow : ((10 : ℚ) ^ l) ^ (28 : ℕ) ≤ (2 ^ b) ^ (28 : ℕ) := by
      calc ((10 : ℚ) ^ l) ^ (28 : ℕ) = ((10 ^ (28 : ℕ)) ^ (-l))⁻¹ := by
            rw [← zpow_natCast, ← zpow_natCast, ← zpow_mul, ← zpow_mul, ← zpow_neg]
            congr 1
            ring
        _ ≤ ((2 ^ (93 : ℕ)) ^ (-l))⁻¹ := by
            have hle := zpow_le_zpow_left₀ hneg (by positivity) hbase
            exact inv_anti₀ (by positivity) hle
        _ = 2 ^ (93 * l) := by
            rw [← zpow_natCast, ← zpow_mul, ← zpow_neg]
            congr 1
            push_cast
            ring
        _ ≤ 2 ^ (28 * b) := zpow_le_zpow_right₀ one_le_two h'
        _ = (2 ^ b) ^ (28 : ℕ) := by rw [← zpow_natCast, ← zpow_mul, mul_comm]; rfl
    exact (pow_le_pow_iff_left₀ (by positivity) (by positivity) (by decide)).mp hpow

theorem le_ten_zpow {l b : ℤ} (h : 59 * b ≤ 196 * l) (h' : 28 * b ≤ 93 * l) :
    (2 : ℚ) ^ b ≤ 10 ^ l := by
  have hinv : (10 : ℚ) ^ (-l) ≤ 2 ^ (-b) := ten_zpow_le (by linarith) (by linarith)
  rw [zpow_neg, zpow_neg] at hinv
  exact (inv_le_inv₀ (by positivity) (by positivity)).mp hinv

end PowersOfTen

section Grid

variable {x : Binary64}

theorem decimalRatio_pos (n : Nat) (e : ℤ) : 0 < (decimalRatio n e).2 := by
  unfold decimalRatio
  split
  · exact Nat.one_pos
  · exact Nat.pow_pos (by decide)

theorem quotient_decimalRatio (n : Nat) (e : ℤ) : quotient (decimalRatio n e) = n * 10 ^ e := by
  unfold decimalRatio quotient
  split
  · rename_i h
    have hpow : (10 : ℚ) ^ e = 10 ^ e.toNat := by
      rw [← zpow_natCast, Int.toNat_of_nonneg h]
    rw [hpow]
    simp
  · rename_i h
    have hpow : (10 : ℚ) ^ e = (10 ^ (-e).toNat)⁻¹ := by
      rw [← zpow_natCast, Int.toNat_of_nonneg (by omega), zpow_neg, inv_inv]
    rw [hpow, ← div_eq_mul_inv]
    simp

theorem readsBack_iff {n : Nat} {e : ℤ} :
    x.readsBack n e = true ↔ ofRat? (n * 10 ^ e) = some x := by
  have hread := ofRatio?_eq_ofRat? (decimalRatio_pos n e) (quotient_decimalRatio n e)
  rw [readsBack, beq_iff_eq, hread]

def below (x : Binary64) (e : ℤ) : Nat :=
  x.ratio.1 * (decimalRatio 1 e).2 / (x.ratio.2 * (decimalRatio 1 e).1)

theorem below_bounds (x : Binary64) (e : ℤ) :
    (x.below e : ℚ) * 10 ^ e ≤ x.value ∧ x.value < (x.below e + 1) * 10 ^ e := by
  have hgrid : (0 : ℚ) < 10 ^ e := by positivity
  have hdecimal : ((decimalRatio 1 e).1 : ℚ) / (decimalRatio 1 e).2 = 10 ^ e := by
    have hq := quotient_decimalRatio 1 e
    rwa [quotient, Nat.cast_one, one_mul] at hq
  have hden : (0 : ℚ) < (decimalRatio 1 e).2 := by exact_mod_cast decimalRatio_pos 1 e
  have hnum : (0 : ℚ) < (decimalRatio 1 e).1 := by
    rw [← hdecimal] at hgrid
    by_contra hle
    have hzero : ((decimalRatio 1 e).1 : ℚ) = 0 := le_antisymm (not_lt.mp hle) (Nat.cast_nonneg _)
    rw [hzero, zero_div] at hgrid
    exact lt_irrefl _ hgrid
  have hxden : (0 : ℚ) < x.ratio.2 := by exact_mod_cast x.ratio_pos
  have hpos : 0 < x.ratio.2 * (decimalRatio 1 e).1 := Nat.mul_pos x.ratio_pos (by exact_mod_cast hnum)
  have hquotient : x.value / 10 ^ e = ((x.ratio.1 * (decimalRatio 1 e).2 : ℕ) : ℚ) /
      ((x.ratio.2 * (decimalRatio 1 e).1 : ℕ) : ℚ) := by
    rw [← hdecimal, ← quotient_ratio, quotient]
    push_cast
    field_simp
  have hcast : (0 : ℚ) < ((x.ratio.2 * (decimalRatio 1 e).1 : ℕ) : ℚ) := by exact_mod_cast hpos
  rw [← le_div_iff₀ hgrid, ← div_lt_iff₀ hgrid, hquotient, le_div_iff₀ hcast, div_lt_iff₀ hcast]
  constructor
  · exact_mod_cast Nat.div_mul_le_self _ _
  · exact_mod_cast Nat.lt_mul_of_div_lt (Nat.lt_succ_self _) hpos

def tied (x : Binary64) (e : ℤ) : Nat :=
  let r := x.ratio.1 * (decimalRatio 1 e).2 % (x.ratio.2 * (decimalRatio 1 e).1)
  if 2 * r < x.ratio.2 * (decimalRatio 1 e).1 then x.below e
  else if x.ratio.2 * (decimalRatio 1 e).1 < 2 * r then x.below e + 1
  else if x.below e % 2 = 0 then x.below e else x.below e + 1

theorem tied_cases (x : Binary64) (e : ℤ) : x.tied e = x.below e ∨ x.tied e = x.below e + 1 := by
  unfold tied
  dsimp only
  split
  · exact .inl rfl
  split
  · exact .inr rfl
  split
  · exact .inl rfl
  · exact .inr rfl

theorem nearest?_eq (x : Binary64) (e : ℤ) : x.nearest? e =
    match x.readsBack (x.below e) e, x.readsBack (x.below e + 1) e with
    | true, true => some (x.tied e)
    | true, false => some (x.below e)
    | false, true => some (x.below e + 1)
    | false, false => none := rfl

theorem nearest?_some {e : ℤ} {n : Nat} (h : x.nearest? e = some n) :
    (n = x.below e ∨ n = x.below e + 1) ∧ x.readsBack n e = true := by
  rw [nearest?_eq] at h
  split at h
  · rename_i hlow hhigh
    obtain rfl := Option.some.inj h
    rcases tied_cases x e with heq | heq
    · exact ⟨.inl heq, by rw [heq, hlow]⟩
    · exact ⟨.inr heq, by rw [heq, hhigh]⟩
  · rename_i hlow hhigh
    obtain rfl := Option.some.inj h
    exact ⟨.inl rfl, hlow⟩
  · rename_i hlow hhigh
    obtain rfl := Option.some.inj h
    exact ⟨.inr rfl, hhigh⟩
  · cases h

theorem nearest?_isSome {e : ℤ} {n : Nat} (hread : x.readsBack n e = true)
    (hnear : |x.value - n * 10 ^ e| < 10 ^ e) : ∃ k, x.nearest? e = some k := by
  have hgrid : (0 : ℚ) < 10 ^ e := by positivity
  obtain ⟨hlow, hhigh⟩ := below_bounds x e
  obtain ⟨habove, hbelow⟩ := abs_lt.mp hnear
  have hle : n ≤ x.below e + 1 := by
    have hlt : (n : ℚ) * 10 ^ e < (x.below e + 2) * 10 ^ e := by linarith
    have hcast : (n : ℚ) < x.below e + 2 := lt_of_mul_lt_mul_right hlt hgrid.le
    have hnat : n < x.below e + 2 := by exact_mod_cast hcast
    omega
  have hge : x.below e ≤ n := by
    have hlt : (x.below e : ℚ) * 10 ^ e < (n + 1) * 10 ^ e := by linarith
    have hcast : (x.below e : ℚ) < n + 1 := lt_of_mul_lt_mul_right hlt hgrid.le
    have hnat : x.below e < n + 1 := by exact_mod_cast hcast
    omega
  rw [nearest?_eq]
  rcases (by omega : n = x.below e ∨ n = x.below e + 1) with rfl | rfl
  · rw [hread]
    cases x.readsBack (x.below e + 1) e with
    | true => exact ⟨_, rfl⟩
    | false => exact ⟨_, rfl⟩
  · rw [hread]
    cases x.readsBack (x.below e) e with
    | true => exact ⟨_, rfl⟩
    | false => exact ⟨_, rfl⟩

end Grid

section Search

variable {x : Binary64}

structure InRange (x : Binary64) : Prop where
  pos : x.significand ≠ 0
  below : x.significand < 2 ^ 53
  low : minExponent ≤ x.exponent
  high : x.exponent ≤ maxExponent

theorem Rounds.inRange {q : ℚ} (h : Rounds q x) (hx : x.significand ≠ 0) : InRange x :=
  ⟨hx, h.below, h.low, h.high⟩

theorem InRange.bits (h : InRange x) :
    (2 : ℚ) ^ ((x.ratio.1.log2 : ℤ) - x.ratio.2.log2 - 1) ≤ x.value ∧
      x.value < 2 ^ ((x.ratio.1.log2 : ℤ) - x.ratio.2.log2 + 1) ∧
      -1074 ≤ (x.ratio.1.log2 : ℤ) - x.ratio.2.log2 ∧
      (x.ratio.1.log2 : ℤ) - x.ratio.2.log2 ≤ 1024 := by
  have hnum : x.ratio.1 ≠ 0 := by
    intro hzero
    have hpos := value_pos h.pos
    rw [← quotient_ratio, quotient, hzero, Nat.cast_zero, zero_div] at hpos
    exact lt_irrefl _ hpos
  have hvalue : (x.ratio.1 : ℚ) / x.ratio.2 = x.value := quotient_ratio x
  obtain ⟨hlow, hhigh⟩ := log_bounds hnum x.ratio_pos
  rw [hvalue] at hlow hhigh
  generalize (x.ratio.1.log2 : ℤ) - x.ratio.2.log2 = bits at hlow hhigh ⊢
  have hpos := two_zpow_pos x.exponent
  have hleast : (2 : ℚ) ^ (-1074 : ℤ) ≤ x.value := by
    have hmono : (2 : ℚ) ^ (-1074 : ℤ) ≤ 2 ^ x.exponent := zpow_le_zpow_right₀ one_le_two h.low
    have hone : (1 : ℚ) ≤ x.significand := by exact_mod_cast Nat.one_le_iff_ne_zero.mpr h.pos
    calc (2 : ℚ) ^ (-1074 : ℤ) ≤ 1 * 2 ^ x.exponent := by rwa [one_mul]
      _ ≤ x.significand * 2 ^ x.exponent := by gcongr
  have hmost : x.value < 2 ^ (1024 : ℤ) := by
    have hmono : (2 : ℚ) ^ x.exponent ≤ 2 ^ (971 : ℤ) := zpow_le_zpow_right₀ one_le_two h.high
    have hlt : (x.significand : ℚ) < 2 ^ 53 := by exact_mod_cast h.below
    calc x.value < 2 ^ 53 * 2 ^ x.exponent := mul_lt_mul_of_pos_right hlt hpos
      _ ≤ 2 ^ 53 * 2 ^ (971 : ℤ) := by gcongr
      _ = 2 ^ (((53 : ℕ) : ℤ) + 971) := by rw [zpow_add₀ two_ne_zero, zpow_natCast]
  have hbits := hleast.trans_lt hhigh
  have hbits' := hlow.trans hmost
  rw [zpow_lt_zpow_iff_right₀ one_lt_two] at hbits hbits'
  exact ⟨hlow.le, hhigh, by omega, by omega⟩

/-- The point stands behind the first digit that is not zero. -/
theorem decimalPoint_spec (h : InRange x) :
    (10 : ℚ) ^ (x.decimalPoint - 1) ≤ x.value ∧ x.value < 10 ^ x.decimalPoint := by
  obtain ⟨hlow, hhigh, hleast, hmost⟩ := h.bits
  have hfits : ∀ p : ℤ, (x.ratio.1 * (decimalRatio 1 p).2 < (decimalRatio 1 p).1 * x.ratio.2 ↔
      x.value < 10 ^ p) := by
    intro p
    have hq := quotient_decimalRatio 1 p
    rw [Nat.cast_one, one_mul] at hq
    have hpos : (0 : ℚ) < (decimalRatio 1 p).2 := by exact_mod_cast decimalRatio_pos 1 p
    have hpos' : (0 : ℚ) < x.ratio.2 := by exact_mod_cast x.ratio_pos
    rw [← hq, ← quotient_ratio, quotient, quotient, div_lt_div_iff₀ hpos' hpos]
    exact_mod_cast Iff.rfl
  have hdef : x.decimalPoint =
      let low : ℤ := ((x.ratio.1.log2 : ℤ) - x.ratio.2.log2 - 1) * 30103 / 100000
      if x.value < 10 ^ low then low
      else if x.value < 10 ^ (low + 1) then low + 1
      else if x.value < 10 ^ (low + 2) then low + 2
      else low + 3 := by
    simp only [decimalPoint, decide_eq_true_eq, hfits]
  generalize (x.ratio.1.log2 : ℤ) - x.ratio.2.log2 = bits at hlow hhigh hleast hmost hdef
  dsimp only at hdef
  have hstart : (10 : ℚ) ^ ((bits - 1) * 30103 / 100000 - 1) ≤ x.value :=
    (ten_zpow_le (by omega) (by omega)).trans hlow
  have hend : x.value < 10 ^ ((bits - 1) * 30103 / 100000 + 3) :=
    hhigh.trans_le (le_ten_zpow (by omega) (by omega))
  generalize (bits - 1) * 30103 / 100000 = low at hstart hend hdef
  rw [hdef]
  split
  · rename_i hlt
    exact ⟨hstart, hlt⟩
  rename_i hge
  split
  · rename_i hlt
    exact ⟨by simpa using not_lt.mp hge, hlt⟩
  rename_i hge'
  split
  · rename_i hlt
    exact ⟨by simpa [add_sub_assoc] using not_lt.mp hge', hlt⟩
  · rename_i hge''
    exact ⟨by simpa [add_sub_assoc] using not_lt.mp hge'', hend⟩

theorem shortestFrom_found {point : ℤ} {found : Nat}
    (h : ∃ k, x.nearest? (point - found) = some k) (fuel count : Nat) (hle : count ≤ found)
    (hlt : found < count + fuel) :
    ∃ c k : Nat, count ≤ c ∧ c ≤ found ∧ x.nearest? (point - c) = some k ∧
      x.shortestFrom point fuel count =
        ⟨Nat.toDigits 10 k, point - c + (Nat.toDigits 10 k).length⟩ := by
  induction fuel generalizing count with
  | zero => omega
  | succ fuel ih =>
    rw [shortestFrom]
    cases hn : x.nearest? (point - count) with
    | some k => exact ⟨count, k, le_rfl, hle, hn, rfl⟩
    | none =>
      have hne : count ≠ found := by
        rintro rfl
        obtain ⟨k, hk⟩ := h
        rw [hn] at hk
        cases hk
      obtain ⟨c, k, hc, hrest⟩ := ih (count + 1) (by omega) (by omega)
      exact ⟨c, k, by omega, hrest⟩

theorem digits_shortest (x : Binary64) : ∀ c ∈ x.shortest.digits, c.isDigit := by
  have hsearch : ∀ (fuel count : Nat) (point : ℤ),
      ∀ c ∈ (x.shortestFrom point fuel count).digits, c.isDigit := by
    intro fuel
    induction fuel with
    | zero =>
      intro count point c hc
      cases hc
    | succ fuel ih =>
      intro count point c hc
      rw [shortestFrom] at hc
      split at hc
      · exact Nat.isDigit_of_mem_toDigits (by decide) (by decide) hc
      · exact ih (count + 1) point c hc
  intro c hc
  rw [shortest] at hc
  split at hc
  · obtain rfl := List.mem_singleton.mp hc
    rfl
  · exact hsearch 17 1 _ c hc

/-- A neighbour on a grid of so many digits has them, or is the next power of ten. -/
theorem length_of_neighbour {p : ℤ} {c k : Nat} (hc : 1 ≤ c)
    (hpoint : (10 : ℚ) ^ (p - 1) ≤ x.value ∧ x.value < 10 ^ p)
    (hk : k = x.below (p - c) ∨ k = x.below (p - c) + 1) :
    c ≤ (Nat.toDigits 10 k).length ∧ (Nat.toDigits 10 k).length ≤ c + 1 := by
  obtain ⟨hlow, hhigh⟩ := below_bounds x (p - c)
  have hgrid : (0 : ℚ) < 10 ^ (p - c) := by positivity
  have htop : (10 : ℚ) ^ p = 10 ^ c * 10 ^ (p - c) := by
    rw [← zpow_natCast, ← zpow_add₀ (by norm_num), add_sub_cancel]
  have hbottom : (10 : ℚ) ^ (p - 1) = 10 ^ (c - 1) * 10 ^ (p - c) := by
    rw [← zpow_natCast, ← zpow_add₀ (by norm_num), Nat.cast_sub hc]
    congr 1
    push_cast
    ring
  have hlt : x.below (p - c) < 10 ^ c := by
    have hmul : (x.below (p - c) : ℚ) * 10 ^ (p - c) < 10 ^ c * 10 ^ (p - c) := by
      rw [← htop]
      exact hlow.trans_lt hpoint.2
    exact_mod_cast lt_of_mul_lt_mul_right hmul hgrid.le
  have hge : 10 ^ (c - 1) ≤ x.below (p - c) := by
    have hmul : (10 : ℚ) ^ (c - 1) * 10 ^ (p - c) < (x.below (p - c) + 1) * 10 ^ (p - c) := by
      rw [← hbottom]
      exact hpoint.1.trans_lt hhigh
    have hnat : 10 ^ (c - 1) < x.below (p - c) + 1 := by
      exact_mod_cast lt_of_mul_lt_mul_right hmul hgrid.le
    omega
  have hpow : 10 ^ (c + 1) = 10 * 10 ^ c := by rw [Nat.pow_succ, Nat.mul_comm]
  have hpos : 0 < 10 ^ c := Nat.pow_pos (by decide)
  constructor
  · by_contra hshort
    have hone : 0 < (Nat.toDigits 10 k).length := Nat.length_toDigits_pos
    have hfew : (Nat.toDigits 10 k).length ≤ c - 1 := by omega
    have hless := (Nat.length_toDigits_le_iff (by decide) (by omega)).mp hfew
    omega
  · refine (Nat.length_toDigits_le_iff (by decide) (by omega)).mpr ?_
    omega

theorem point_shortest (h : InRange x) :
    x.decimalPoint ≤ x.shortest.point ∧ x.shortest.point ≤ x.decimalPoint + 1 := by
  have hpoint := decimalPoint_spec h
  generalize hp : x.decimalPoint = p at hpoint
  have hsearch : ∀ fuel count : Nat, 1 ≤ count → p ≤ (x.shortestFrom p fuel count).point ∧
      (x.shortestFrom p fuel count).point ≤ p + 1 := by
    intro fuel
    induction fuel with
    | zero => exact fun count _ => ⟨le_rfl, Int.le_add_one le_rfl⟩
    | succ fuel ih =>
      intro count hcount
      rw [shortestFrom]
      split
      · rename_i k hk
        obtain ⟨hlow, hhigh⟩ := length_of_neighbour hcount hpoint (nearest?_some hk).1
        dsimp only
        omega
      · exact ih (count + 1) (by omega)
  rw [shortest, if_neg h.pos, hp]
  exact hsearch 17 1 le_rfl

end Search

section Fifteen

variable {x : Binary64} {q : ℚ} {s : Nat} {e p : ℤ}

theorem exists_regrid (k : Nat) {a b : ℤ} (h : b ≤ a) :
    ∃ m : Nat, (k : ℚ) * 10 ^ a = (m : ℚ) * 10 ^ b := by
  refine ⟨k * 10 ^ (a - b).toNat, ?_⟩
  have hexp : (((a - b).toNat : ℕ) : ℤ) = a - b := by omega
  push_cast
  rw [← zpow_natCast, hexp, mul_assoc, ← zpow_add₀ (by norm_num), sub_add_cancel]

theorem normal_of_decimal (hpos : 0 < s) (hlow : -22 ≤ e) :
    (2 : ℚ) ^ 52 * 2 ^ minExponent ≤ s * 10 ^ e := by
  have hone : (1 : ℚ) ≤ s := by exact_mod_cast hpos
  have hleast : (2 : ℚ) ^ (-1022 : ℤ) ≤ 10 ^ (-22 : ℤ) := le_ten_zpow (by decide) (by decide)
  have hmono : (10 : ℚ) ^ (-22 : ℤ) ≤ 10 ^ e := zpow_le_zpow_right₀ (by norm_num) hlow
  have hscaled : (10 : ℚ) ^ e ≤ s * 10 ^ e := le_mul_of_one_le_left (by positivity) hone
  have hsplit : (2 : ℚ) ^ 52 * 2 ^ minExponent = 2 ^ (((52 : ℕ) : ℤ) + minExponent) := by
    rw [zpow_add₀ two_ne_zero, zpow_natCast]
  rw [hsplit]
  exact hleast.trans (hmono.trans hscaled)

theorem point_le (hrounds : Rounds (s * 10 ^ e) x) (hs : s < 10 ^ 15)
    (hstep : (2 : ℚ) ^ 52 * 2 ^ x.exponent ≤ x.value) (hpoint : (10 : ℚ) ^ (p - 1) ≤ x.value) :
    p ≤ 15 + e := by
  have hgrid : (0 : ℚ) < 10 ^ e := by positivity
  have hle : (s : ℚ) + 1 ≤ 10 ^ 15 := by exact_mod_cast hs
  have hupper := mul_le_mul_of_nonneg_right hle hgrid.le
  have hnear := (abs_le.mp hrounds.near).2
  have hless : x.value < 10 ^ (((15 : ℕ) : ℤ) + e) := by
    rw [zpow_add₀ (by norm_num), zpow_natCast]
    by_contra hge
    linarith
  have hpow := hpoint.trans_lt hless
  rw [zpow_lt_zpow_iff_right₀ (by norm_num)] at hpow
  omega

theorem unit_lt_grid {c : Nat} (hc : c ≤ 15) (hstep : (2 : ℚ) ^ 52 * 2 ^ x.exponent ≤ x.value)
    (hpoint : x.value < 10 ^ p) : (2 : ℚ) ^ x.exponent < 10 ^ (p - c) := by
  have hgrid : (0 : ℚ) < 10 ^ (p - c) := by positivity
  have hsplit : (10 : ℚ) ^ p = 10 ^ c * 10 ^ (p - c) := by
    rw [← zpow_natCast, ← zpow_add₀ (by norm_num), add_sub_cancel]
  have hmono : (10 : ℚ) ^ c ≤ 10 ^ 15 := pow_le_pow_right₀ (by norm_num) hc
  have hmul := mul_le_mul_of_nonneg_right hmono hgrid.le
  rw [hsplit] at hpoint
  linarith

/-- Decimals of fifteen digits are further apart than the numbers of the format. -/
theorem value_shortest (hpos : 0 < s) (hs : s < 10 ^ 15) (hlow : -22 ≤ e) (hq : q = s * 10 ^ e)
    (h : ofRat? q = some x) : x.shortest.value = q := by
  have hrounds := ofRat?_rounds (by rw [hq]; positivity) h
  have hstep := hrounds.normal (hq ▸ normal_of_decimal hpos hlow)
  have hunit := two_zpow_pos x.exponent
  have hsig : x.significand ≠ 0 := by
    intro hzero
    rw [value, hzero, Nat.cast_zero, zero_mul] at hstep
    linarith
  obtain ⟨hpoint, hpoint'⟩ := decimalPoint_spec (hrounds.inRange hsig)
  generalize hp : x.decimalPoint = p at hpoint hpoint'
  have hp15 := point_le (hq ▸ hrounds) hs hstep hpoint
  obtain ⟨found, hfound, hfound', hgrid⟩ : ∃ found : Nat, 1 ≤ found ∧ found ≤ 15 ∧
      p - found ≤ e := by
    by_cases hpe : p ≤ e
    · exact ⟨1, by omega, by omega, by omega⟩
    · exact ⟨(p - e).toNat, by omega, by omega, by omega⟩
  have hwide := unit_lt_grid hfound' hstep hpoint'
  obtain ⟨m, hm⟩ := exists_regrid s hgrid
  rw [← hq] at hm
  have hexists : ∃ k, x.nearest? (p - found) = some k := by
    refine nearest?_isSome (n := m) (readsBack_iff.mpr (by rw [← hm, h])) ?_
    rw [← hm]
    exact hrounds.near.trans_lt (by linarith)
  obtain ⟨c, k, -, hc, hk, hshortest⟩ := shortestFrom_found hexists 17 1 hfound (by omega)
  -- What is found first reads back too, and lies on the decimal's grid.
  have hkread := readsBack_iff.mp (nearest?_some hk).2
  have hkrounds := ofRat?_rounds (by positivity) hkread
  obtain ⟨i, hi⟩ := exists_regrid k (by omega : p - found ≤ p - c)
  have hsame : q = (k : ℚ) * 10 ^ (p - c) := by
    have hm' : q = ((m : ℤ) : ℚ) * 10 ^ (p - found) := by exact_mod_cast hm
    have hi' : (k : ℚ) * 10 ^ (p - c) = ((i : ℤ) : ℚ) * 10 ^ (p - found) := by exact_mod_cast hi
    refine eq_of_multiples hm' hi' ?_
    have hnear := abs_le.mp hrounds.near
    have hnear' := abs_le.mp hkrounds.near
    rw [abs_lt]
    constructor <;> linarith
  rw [shortest, if_neg hsig, hp, hshortest, ShortDecimal.value, Decimal.number_toDigits, hsame,
    add_sub_cancel_right]

end Fifteen

end Binary64

end BlockFeed
