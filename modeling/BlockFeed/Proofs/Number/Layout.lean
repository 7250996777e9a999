import BlockFeed.Proofs.Number.Shortest

/-! The layouts of a short decimal. In positional text it is a plain decimal of the same value; the
other layout is marked by an exponent. -/

namespace BlockFeed.ShortDecimal

open Decimal (number number_append number_eq number_zeros Magnitude IsPlain)

variable {s : ShortDecimal}

theorem exists_zeros (ds : List Char) :
    ∃ k, ds = (ds.reverse.dropWhile (· = '0')).reverse ++ List.replicate k '0' := by
  have hsplit : ds.reverse.takeWhile (· = '0') ++ ds.reverse.dropWhile (· = '0') = ds.reverse :=
    List.takeWhile_append_dropWhile
  have hzeros : (ds.reverse.takeWhile (· = '0')).reverse =
      List.replicate (ds.reverse.takeWhile (· = '0')).length '0' := by
    refine List.eq_replicate_iff.mpr ⟨List.length_reverse, fun c hc => ?_⟩
    simpa using List.mem_takeWhile_imp (List.mem_reverse.mp hc)
  refine ⟨(ds.reverse.takeWhile (· = '0')).length, ?_⟩
  rw [← hzeros, ← List.reverse_append, hsplit, List.reverse_reverse]

theorem trimmed_spec (hd : ∀ c ∈ s.digits, c.isDigit) :
    s.trimmed ≠ [] ∧ (∀ c ∈ s.trimmed, c.isDigit) ∧
      (number 0 s.trimmed : ℚ) * 10 ^ (s.point - s.trimmed.length) = s.value := by
  obtain ⟨k, hk⟩ := exists_zeros s.digits
  have hdef : s.trimmed = if (s.digits.reverse.dropWhile (· = '0')).reverse.isEmpty then ['0']
      else (s.digits.reverse.dropWhile (· = '0')).reverse := rfl
  rw [value]
  generalize (s.digits.reverse.dropWhile (· = '0')).reverse = ds at hk hdef
  cases ds with
  | nil =>
    have hone : s.trimmed = ['0'] := hdef
    have hzero : number 0 s.digits = 0 := by rw [hk, List.nil_append, number_zeros, Nat.zero_mul]
    have hzero' : number 0 ['0'] = 0 := rfl
    rw [hone, hzero, hzero']
    exact ⟨List.cons_ne_nil _ _, by simp, by simp⟩
  | cons c ds =>
    have hall : s.trimmed = c :: ds := hdef
    rw [hall]
    refine ⟨List.cons_ne_nil _ _, ?_, ?_⟩
    · intro d hmem
      exact hd d (hk ▸ List.mem_append_left _ hmem)
    · have hexp : s.point - ((c :: ds).length : ℤ) =
          (k : ℤ) + (s.point - ((c :: ds) ++ List.replicate k '0').length) := by
        rw [List.length_append, List.length_replicate]
        push_cast
        ring
      rw [hk, number_append, number_zeros, hexp, zpow_add₀ (by norm_num), zpow_natCast]
      push_cast
      ring

theorem mem_zeros {n : ℤ} {c : Char} (h : c ∈ zeros n) : c = '0' := List.eq_of_mem_replicate h

theorem digits_zeros (n : ℤ) : ∀ c ∈ zeros n, c.isDigit := by
  intro c hc
  rw [mem_zeros hc]
  rfl

section Positional

variable {ds : List Char} {point : ℤ}

theorem digits_append {as bs : List Char} (has : ∀ c ∈ as, c.isDigit) (hbs : ∀ c ∈ bs, c.isDigit) :
    ∀ c ∈ as ++ bs, c.isDigit :=
  fun c hc => (List.mem_append.mp hc).elim (has c) (hbs c)

theorem magnitude_behind (hne : ds ≠ []) (hd : ∀ c ∈ ds, c.isDigit) (hpoint : point ≤ 0) :
    ∃ n scale : Nat, Magnitude ('0' :: '.' :: (zeros (-point) ++ ds)) n scale ∧
      (n : ℚ) / 10 ^ scale = number 0 ds * 10 ^ (point - ds.length) := by
  have htext := Magnitude.places (List.cons_ne_nil '0' []) (by simp)
    (List.append_ne_nil_of_right_ne_nil (zeros (-point)) hne) (digits_append (digits_zeros (-point)) hd)
  refine ⟨_, _, htext, ?_⟩
  have hnumber : number 0 (zeros (-point) ++ ds) = number 0 ds := by
    rw [number_append, zeros, number_zeros, Nat.zero_mul]
  have hlength : (zeros (-point) ++ ds).length = (-point).toNat + ds.length := by
    rw [List.length_append, zeros, List.length_replicate]
  have hexp : point - ds.length = -((zeros (-point) ++ ds).length : ℤ) := by
    rw [hlength]
    omega
  have hfront : number 0 ['0'] = 0 := rfl
  rw [hnumber, hexp, zpow_neg, zpow_natCast, hfront, ← div_eq_mul_inv]
  simp

theorem magnitude_before (hne : ds ≠ []) (hd : ∀ c ∈ ds, c.isDigit) (hpoint : (ds.length : ℤ) ≤ point) :
    ∃ n scale : Nat, Magnitude (ds ++ zeros (point - ds.length) ++ ['.', '0']) n scale ∧
      (n : ℚ) / 10 ^ scale = number 0 ds * 10 ^ (point - ds.length) := by
  have htext := Magnitude.places (List.append_ne_nil_of_left_ne_nil hne (zeros (point - ds.length)))
    (digits_append hd (digits_zeros _)) (List.cons_ne_nil '0' []) (by simp)
  refine ⟨_, _, htext, ?_⟩
  have hback : number 0 ['0'] = 0 := rfl
  have hexp : point - ds.length = ((point - ds.length).toNat : ℤ) := by omega
  rw [number_append, zeros, number_zeros, hback]
  rw [hexp, zpow_natCast, Int.toNat_natCast]
  push_cast
  simp

theorem magnitude_among (hd : ∀ c ∈ ds, c.isDigit) (hlow : 0 < point) (hhigh : point < ds.length) :
    ∃ n scale : Nat, Magnitude (ds.take point.toNat ++ '.' :: ds.drop point.toNat) n scale ∧
      (n : ℚ) / 10 ^ scale = number 0 ds * 10 ^ (point - ds.length) := by
  have htake : ds.take point.toNat ≠ [] := by
    intro hnil
    rcases List.take_eq_nil_iff.mp hnil with hzero | rfl
    · omega
    · simp only [List.length_nil] at hhigh
      omega
  have hdrop : ds.drop point.toNat ≠ [] := by
    intro hnil
    have hle := List.drop_eq_nil_iff.mp hnil
    omega
  refine ⟨_, _, .places htake (fun c hc => hd c (List.mem_of_mem_take hc)) hdrop
    (fun c hc => hd c (List.mem_of_mem_drop hc)), ?_⟩
  have hnumber := number_append 0 (ds.take point.toNat) (ds.drop point.toNat)
  rw [List.take_append_drop, number_eq (number 0 (ds.take point.toNat))] at hnumber
  have hexp : point - ds.length = -((ds.drop point.toNat).length : ℤ) := by
    rw [List.length_drop]
    omega
  rw [← hnumber, hexp, zpow_neg, zpow_natCast, ← div_eq_mul_inv, List.length_drop]

end Positional

theorem marked_magnitude (hd : ∀ c ∈ s.digits, c.isDigit) (h : -4 ≤ s.point ∧ s.point ≤ 16) :
    ∃ n scale : Nat, Magnitude s.marked n scale ∧ (n : ℚ) / 10 ^ scale = s.value := by
  obtain ⟨hne, hall, hvalue⟩ := trimmed_spec hd
  have hdef : s.marked = if 0 < s.point ∧ (s.trimmed.length : ℤ) ≤ s.point then s.plain ++ ['.', '0']
      else s.plain := by
    rw [marked]
    exact if_pos h
  have hplain : s.plain = if s.point ≤ 0 then ['0', '.'] ++ zeros (-s.point) ++ s.trimmed
      else if (s.trimmed.length : ℤ) ≤ s.point then s.trimmed ++ zeros (s.point - s.trimmed.length)
      else s.trimmed.take s.point.toNat ++ '.' :: s.trimmed.drop s.point.toNat := rfl
  rw [hdef, hplain, ← hvalue]
  by_cases hlow : s.point ≤ 0
  · have hfraction : ¬ (0 < s.point ∧ (s.trimmed.length : ℤ) ≤ s.point) := by omega
    rw [if_neg hfraction, if_pos hlow]
    exact magnitude_behind hne hall hlow
  by_cases hhigh : (s.trimmed.length : ℤ) ≤ s.point
  · rw [if_pos ⟨not_le.mp hlow, hhigh⟩, if_neg hlow, if_pos hhigh]
    exact magnitude_before hne hall hhigh
  · have hfraction : ¬ (0 < s.point ∧ (s.trimmed.length : ℤ) ≤ s.point) := by omega
    rw [if_neg hfraction, if_neg hlow, if_neg hhigh]
    exact magnitude_among hall (not_le.mp hlow) (not_le.mp hhigh)

/-- The other layout is no decimal literal. -/
theorem marked_exponent (hd : ∀ c ∈ s.digits, c.isDigit) (h : ¬ (-4 ≤ s.point ∧ s.point ≤ 16)) :
    'e' ∈ s.marked ∧ ∀ c ∈ s.marked, IsPlain c ∨ c = 'e' := by
  obtain ⟨-, hall, -⟩ := trimmed_spec hd
  have hdef : s.marked = s.trimmed.take 1 ++
      (if (s.trimmed.length : ℤ) = 1 then [] else '.' :: s.trimmed.drop 1) ++ ['e'] ++
      (if s.point - 1 < 0 then ['-'] else ['+']) ++ Nat.toDigits 10 (s.point - 1).natAbs := by
    rw [marked]
    exact if_neg h
  rw [hdef]
  refine ⟨by simp, fun c hc => ?_⟩
  have hpoint : c ∈ (if (s.trimmed.length : ℤ) = 1 then [] else '.' :: s.trimmed.drop 1) →
      IsPlain c := by
    intro hmem
    split at hmem
    · cases hmem
    rcases List.mem_cons.mp hmem with rfl | hmem
    · exact .inr (.inr (.inl rfl))
    · exact .inl (hall c (List.mem_of_mem_drop hmem))
  have hsign : c ∈ (if s.point - 1 < 0 then ['-'] else ['+']) → IsPlain c := by
    intro hmem
    split at hmem
    · exact .inr (.inr (.inr (.inr (List.mem_singleton.mp hmem))))
    · exact .inr (.inr (.inr (.inl (List.mem_singleton.mp hmem))))
  simp only [List.mem_append] at hc
  rcases hc with (((hc | hc) | hc) | hc) | hc
  · exact .inl (.inl (hall c (List.mem_of_mem_take hc)))
  · exact .inl (hpoint hc)
  · exact .inr (List.mem_singleton.mp hc)
  · exact .inl (hsign hc)
  · exact .inl (.inl (Nat.isDigit_of_mem_toDigits (by decide) (by decide) hc))

end BlockFeed.ShortDecimal
