import BlockFeed.Proofs.Decimal
import Mathlib.Algebra.Order.Ring.Rat
import Mathlib.Order.Compare
import Mathlib.Algebra.Order.Ring.Cast

/-! Decimals are exact. The text of one is canonical and read back with its scale, every canonical text
is the text of what it is read as, and decimals are compared as the numbers they stand for. -/

namespace BlockFeed.Decimal

section Digits

theorem digit_lt {c : Char} (h : c.isDigit) : c.toNat - 0x30 < 10 := by
  have hbounds := digit_bounds h
  omega

theorem toDigits_digit {c : Char} (h : c.isDigit) : Nat.toDigits 10 (c.toNat - 0x30) = [c] := by
  have hbounds := digit_bounds h
  have hlt := digit_lt h
  have hsame : (c.toNat - 0x30).digitChar = c := by
    apply Char.toNat_inj.mp
    rw [Nat.toNat_digitChar_of_lt_ten hlt]
    omega
  rw [Nat.toDigits_of_lt_base hlt, hsame]

theorem digit_pos {c : Char} (h : c.isDigit) (hc : c ≠ '0') : 0 < c.toNat - 0x30 := by
  rw [Nat.pos_iff_ne_zero]
  intro hzero
  have hdigits := toDigits_digit h
  rw [hzero] at hdigits
  exact hc (List.cons.inj hdigits).1.symm

/-- Digits behind those of a number that is not zero are the digits of the number they make. -/
theorem toDigits_number {n : Nat} (hn : 0 < n) {ds : List Char} (hd : ∀ c ∈ ds, c.isDigit) :
    Nat.toDigits 10 (number n ds) = Nat.toDigits 10 n ++ ds := by
  induction ds generalizing n with
  | nil => exact (List.append_nil _).symm
  | cons c ds ih =>
    have hc : c.isDigit := hd c List.mem_cons_self
    have hnext : Nat.toDigits 10 (n * 10 + (c.toNat - 0x30)) = Nat.toDigits 10 n ++ [c] := by
      rw [← toDigits_digit hc, Nat.toDigits_append_toDigits (by decide) hn (digit_lt hc), Nat.mul_comm]
    rw [number_cons, ih (by omega) fun d hmem => hd d (List.mem_cons_of_mem c hmem), hnext,
      List.append_assoc, List.singleton_append]

theorem toDigits_number_cons {c : Char} {ds : List Char} (hc : c ≠ '0') (hd : ∀ d ∈ c :: ds, d.isDigit) :
    Nat.toDigits 10 (number 0 (c :: ds)) = c :: ds := by
  have hdigit : c.isDigit := hd c List.mem_cons_self
  rw [number_cons, Nat.zero_mul, Nat.zero_add,
    toDigits_number (digit_pos hdigit hc) fun d hmem => hd d (List.mem_cons_of_mem c hmem),
    toDigits_digit hdigit, List.singleton_append]

/-- Digits are those of the number they write, with zeros in front. -/
theorem exists_zeros_toDigits {ds : List Char} (hne : ds ≠ []) (hd : ∀ c ∈ ds, c.isDigit) :
    ∃ k, ds = List.replicate k '0' ++ Nat.toDigits 10 (number 0 ds) := by
  induction ds with
  | nil => exact absurd rfl hne
  | cons c ds ih =>
    by_cases hc : c = '0'
    · subst hc
      cases ds with
      | nil => exact ⟨0, rfl⟩
      | cons d ds =>
        obtain ⟨k, hk⟩ := ih (List.cons_ne_nil d ds) fun e hmem => hd e (List.mem_cons_of_mem '0' hmem)
        have hsame : number 0 ('0' :: d :: ds) = number 0 (d :: ds) := rfl
        exact ⟨k + 1, by rw [hsame, List.replicate_succ, List.cons_append, ← hk]⟩
    · exact ⟨0, (toDigits_number_cons hc hd).symm⟩

theorem number_pos {ds : List Char} (hd : ∀ c ∈ ds, c.isDigit) (h : ∃ c ∈ ds, c ≠ '0') :
    0 < number 0 ds := by
  obtain ⟨c, hmem, hc⟩ := h
  obtain ⟨front, back, rfl⟩ := List.append_of_mem hmem
  have hpos := digit_pos (hd c hmem) hc
  have hle := le_number (number 0 front * 10 + (c.toNat - 0x30)) back
  rw [number_append, number_cons]
  omega

end Digits

/-- A canonical text: digits without a superfluous zero in front, behind a point more of them or none,
and a minus sign only where one of them is not zero. -/
structure Canonical where
  negative : Bool
  whole : List Char
  places : List Char
  whole_ne : whole ≠ []
  digit : ∀ c ∈ whole ++ places, c.isDigit
  lead : whole.head? = some '0' → whole = ['0']
  sign : negative = true → ∃ c ∈ whole ++ places, c ≠ '0'

namespace Canonical

variable (t : Canonical)

def text : String :=
  String.ofList ((if t.negative then ['-'] else []) ++ t.whole ++
    if t.places = [] then [] else '.' :: t.places)

def magnitude : Nat := number 0 (t.whole ++ t.places)

def decimal : Decimal :=
  ⟨if t.negative then -(t.magnitude : Int) else t.magnitude, t.places.length⟩

theorem plain : Plain t.text t.decimal := by
  have hwhole : ∀ c ∈ t.whole, c.isDigit := fun c hc => t.digit c (List.mem_append_left _ hc)
  have hplaces : ∀ c ∈ t.places, c.isDigit := fun c hc => t.digit c (List.mem_append_right _ hc)
  have hmagnitude : Magnitude (t.whole ++ if t.places = [] then [] else '.' :: t.places) t.magnitude
      t.places.length := by
    rw [magnitude]
    by_cases hp : t.places = []
    · rw [hp, if_pos rfl, List.append_nil]
      exact .whole t.whole_ne hwhole
    · rw [if_neg hp, number_append, number_eq]
      exact .places t.whole_ne hwhole hp hplaces
  rw [text, decimal, List.append_assoc]
  cases t.negative with
  | true => exact .negative hmagnitude
  | false => exact .positive hmagnitude

theorem natAbs_decimal : t.decimal.unscaled.natAbs = t.magnitude := by
  rw [decimal]
  cases t.negative with
  | true => exact Int.natAbs_neg _
  | false => rfl

theorem decimal_neg : t.decimal.unscaled < 0 ↔ t.negative = true := by
  rw [decimal]
  cases hneg : t.negative with
  | true =>
    have hpos : 0 < t.magnitude := number_pos t.digit (t.sign hneg)
    simpa using hpos
  | false => simp

theorem paddedDigits_decimal : t.decimal.paddedDigits = t.whole ++ t.places := by
  have hscale : t.decimal.scale = t.places.length := rfl
  rw [paddedDigits, digits, natAbs_decimal, hscale, magnitude]
  have hdigit := t.digit
  have hlead := t.lead
  obtain ⟨c, rest, hwhole⟩ := List.exists_cons_of_ne_nil t.whole_ne
  rw [hwhole] at hdigit hlead ⊢
  by_cases hc : c = '0'
  · -- one zero stands before the point: the zeros fill up what the digits leave
    subst hc
    obtain rfl : rest = [] := (List.cons.inj (hlead rfl)).2
    rw [List.singleton_append] at hdigit ⊢
    obtain ⟨k, hk⟩ := exists_zeros_toDigits (List.cons_ne_nil '0' t.places) hdigit
    have hlen := congrArg List.length hk
    rw [List.length_append, List.length_replicate, List.length_cons] at hlen
    have hcount : t.places.length + 1 - (Nat.toDigits 10 (number 0 ('0' :: t.places))).length = k := by
      omega
    rw [hcount, ← hk]
  · rw [List.cons_append] at hdigit ⊢
    have hcount : t.places.length + 1 - (c :: (rest ++ t.places)).length = 0 := by
      simp only [List.length_cons, List.length_append]
      omega
    rw [toDigits_number_cons hc hdigit, hcount, List.replicate_zero, List.nil_append]

theorem text_decimal : t.decimal.text = t.text := by
  have hscale : t.decimal.scale = t.places.length := rfl
  have hpoint : (t.whole ++ t.places).length - t.places.length = t.whole.length := by simp
  rw [Decimal.text, chars, paddedDigits_decimal, hscale, hpoint, text]
  simp [decimal_neg]

end Canonical

section Printing

variable (d : Decimal)

theorem isDigit_paddedDigits : ∀ c ∈ d.paddedDigits, c.isDigit := by
  intro c hc
  rcases List.mem_append.mp hc with hc | hc
  · rw [(List.mem_replicate.mp hc).2]
    rfl
  · exact Nat.isDigit_of_mem_toDigits (by decide) (by decide) hc

theorem number_paddedDigits : number 0 d.paddedDigits = d.unscaled.natAbs := by
  rw [paddedDigits, number_append, number_zeros, Nat.zero_mul, digits, number_toDigits]

theorem scale_lt_length : d.scale < d.paddedDigits.length := by
  rw [paddedDigits, List.length_append, List.length_replicate]
  omega

/-- A zero in front of all digits is the only one before the point. -/
theorem length_paddedDigits (h : d.paddedDigits.head? = some '0') :
    d.paddedDigits.length = d.scale + 1 := by
  by_cases hfew : d.digits.length ≤ d.scale + 1
  · rw [paddedDigits, List.length_append, List.length_replicate]
    omega
  · have hnone : d.scale + 1 - d.digits.length = 0 := by omega
    rw [paddedDigits, hnone, List.replicate_zero, List.nil_append, digits] at h
    have hzero : d.unscaled.natAbs = 0 := by
      by_contra hne
      exact head_toDigits _ (Nat.pos_of_ne_zero hne) h
    have hone : d.digits.length = 1 := by rw [digits, hzero]; rfl
    omega

theorem exists_nonzero (h : d.unscaled < 0) : ∃ c ∈ d.paddedDigits, c ≠ '0' := by
  by_contra hzeros
  have hall : d.paddedDigits = List.replicate d.paddedDigits.length '0' :=
    List.eq_replicate_iff.mpr ⟨rfl, by simpa using hzeros⟩
  have hnumber := d.number_paddedDigits
  rw [hall, number_zeros, Nat.zero_mul] at hnumber
  omega

/-- Every decimal is the one of a canonical text. -/
theorem exists_canonical : ∃ t : Canonical, t.decimal = d := by
  have hscale := d.scale_lt_length
  obtain ⟨n, hn⟩ : ∃ n, d.paddedDigits.length = n + 1 + d.scale :=
    ⟨d.paddedDigits.length - d.scale - 1, by omega⟩
  have hsplit : d.paddedDigits.take (n + 1) ++ d.paddedDigits.drop (n + 1) = d.paddedDigits :=
    List.take_append_drop (n + 1) _
  have hwhole : (d.paddedDigits.take (n + 1)).length = n + 1 := by
    rw [List.length_take]
    omega
  have hplaces : (d.paddedDigits.drop (n + 1)).length = d.scale := by
    rw [List.length_drop]
    omega
  have hhead : (d.paddedDigits.take (n + 1)).head? = d.paddedDigits.head? := by
    rw [List.head?_take, if_neg (Nat.succ_ne_zero n)]
  refine ⟨⟨decide (d.unscaled < 0), d.paddedDigits.take (n + 1), d.paddedDigits.drop (n + 1), ?_, ?_, ?_,
    ?_⟩, ?_⟩
  · exact List.ne_nil_of_length_eq_add_one hwhole
  · exact hsplit.symm ▸ d.isDigit_paddedDigits
  · intro hzero
    have hlen := d.length_paddedDigits (hhead ▸ hzero)
    obtain ⟨c, hc⟩ : ∃ c, d.paddedDigits.take (n + 1) = [c] :=
      List.length_eq_one_iff.mp (by omega)
    rw [hc] at hzero ⊢
    rw [Option.some.inj hzero]
  · exact fun hneg => hsplit.symm ▸ d.exists_nonzero (of_decide_eq_true hneg)
  · have hmagnitude : number 0 (d.paddedDigits.take (n + 1) ++ d.paddedDigits.drop (n + 1)) =
        d.unscaled.natAbs := by rw [hsplit, number_paddedDigits]
    have hsigned : (if d.unscaled < 0 then -(d.unscaled.natAbs : Int) else d.unscaled.natAbs) =
        d.unscaled := by
      split <;> omega
    simp only [Canonical.decimal, Canonical.magnitude, hmagnitude, hplaces, decide_eq_true_eq, hsigned]

theorem ofText_text : ofText? d.text = .ok d := by
  obtain ⟨t, rfl⟩ := d.exists_canonical
  exact t.text_decimal ▸ t.plain.ofText

end Printing

section Order

theorem value_mul (d : Decimal) (k : Nat) :
    d.value * (10 ^ d.scale * 10 ^ k) = ((d.unscaled * 10 ^ k : Int) : ℚ) := by
  have hscale : (10 : ℚ) ^ d.scale ≠ 0 := pow_ne_zero _ (by norm_num)
  rw [value, ← mul_assoc, div_mul_cancel₀ _ hscale]
  push_cast
  rfl

theorem compare_eq (a b : Decimal) : a.compare b = cmp a.value b.value := by
  have hpos : (0 : ℚ) < 10 ^ a.scale * 10 ^ b.scale :=
    mul_pos (pow_pos (by norm_num) _) (pow_pos (by norm_num) _)
  have hb : b.value * (10 ^ a.scale * 10 ^ b.scale) = ((b.unscaled * 10 ^ a.scale : Int) : ℚ) := by
    rw [mul_comm ((10 : ℚ) ^ a.scale), value_mul]
  have hcast : cmp ((a.unscaled * 10 ^ b.scale : Int) : ℚ) ((b.unscaled * 10 ^ a.scale : Int) : ℚ) =
      cmp (a.unscaled * 10 ^ b.scale) (b.unscaled * 10 ^ a.scale) :=
    Int.cast_strictMono.cmp_map_eq _ _
  rw [← cmp_mul_pos_right hpos, value_mul, hb, hcast, cmp_eq_compare]
  rfl

theorem same_iff (a b : Decimal) : a.same b = true ↔ a.value = b.value := by
  rw [same, beq_iff_eq, compare_eq, cmp_eq_eq_iff]

end Order

/-- A decimal is printed canonically and read back as it was; a canonical text comes out as it went in;
and decimals are equal and ordered as their numbers are. -/
theorem exact_text_and_order :
    (∀ d : Decimal, (∃ t : Canonical, d.text = t.text) ∧ ofText? d.text = .ok d) ∧
      (∀ t : Canonical, ∃ d, ofText? t.text = .ok d ∧ d.text = t.text) ∧
      ∀ a b : Decimal, (a.same b = true ↔ a.value = b.value) ∧ a.compare b = cmp a.value b.value := by
  refine ⟨fun d => ?_, fun t => ⟨t.decimal, t.plain.ofText, t.text_decimal⟩,
    fun a b => ⟨same_iff a b, compare_eq a b⟩⟩
  obtain ⟨t, rfl⟩ := d.exists_canonical
  exact ⟨⟨t, t.text_decimal⟩, t.text_decimal ▸ t.plain.ofText⟩

end BlockFeed.Decimal
