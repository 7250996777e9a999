import BlockFeed.Json.Numeral
import BlockFeed.Proofs.Decimal
import BlockFeed.Proofs.Outcome

/-! The number that a literal's digits write, as far as it fits in 64 bits. -/

namespace BlockFeed.Json.Numeral

open Decimal (number le_number number_toDigits)

theorem number_cons (n : Nat) (c : Char) (ds : List Char) :
    number n (c :: ds) = number (n * 10 + digit c) ds := by
  rw [Decimal.number_cons, digit]

theorem collect_all {ds : List Char} {s : Nat} (h : number s ds ≤ maxNatural) :
    collect s ds = (number s ds, []) := by
  induction ds generalizing s with
  | nil => rfl
  | cons c ds ih =>
    rw [number_cons] at h ⊢
    have hfits : s * 10 + digit c ≤ maxNatural := Nat.le_trans (le_number _ ds) h
    rw [collect, if_pos hfits, ih h]

theorem toNumber_whole {ds : List Char} (h : number 0 ds ≤ maxNatural) :
    toNumber ⟨false, ds, [], none⟩ = .ok (.natural (number 0 ds)) := by
  simp only [toNumber, collect_all h]
  rfl

theorem toNumber_toDigits {n : Nat} (h : n ≤ maxNatural) :
    toNumber ⟨false, Nat.toDigits 10 n, [], none⟩ = .ok (.natural n) := by
  have hdigits := number_toDigits n
  have hread := toNumber_whole (hdigits.le.trans h)
  rwa [hdigits] at hread

section Literals

variable {n : Numeral} {m : Number}

theorem ofParts_ok {negative : Bool} {s : Nat} {e : Int} (h : ofParts negative s e = .ok m) :
    ∃ x, m = .real negative x ∧
      applyExponent ((Binary64.ofNat? s).getD Binary64.zero) e = .ok x := by
  obtain ⟨x, hx, h⟩ := bind_ok h
  exact ⟨x, (Except.ok.inj h).symm, hx⟩

theorem real_of_toReal (h : n.toReal = .ok m) : ∃ x, m = .real n.negative x := by
  simp only [toReal] at h
  split at h
  · obtain ⟨x, hx, -⟩ := ofParts_ok h
    exact ⟨x, hx⟩
  · split at h
    · obtain ⟨x, hx, -⟩ := ofParts_ok h
      exact ⟨x, hx⟩
    · split at h
      · cases h
      · exact ⟨_, (Except.ok.inj h).symm⟩

/-- Zero has no sign among the integers. -/
theorem pos_of_minus {k : Nat} (h : n.toNumber = .ok (.minus k)) : 0 < k := by
  rw [toNumber] at h
  split at h
  · split at h
    · cases h
    · split at h
      · obtain ⟨x, hx, -⟩ := ofParts_ok h
        cases hx
      · next hs =>
        obtain rfl := Number.minus.inj (Except.ok.inj h)
        omega
  · obtain ⟨x, hx⟩ := real_of_toReal h
    cases hx

end Literals

end BlockFeed.Json.Numeral
