import BlockFeed.Decimal
import BlockFeed.Proofs.Outcome
import BlockFeed.Proofs.Text.Blank
import Mathlib.Data.List.Basic
import Mathlib.Data.Rat.Defs
import Mathlib.Tactic.Ring

/-! The literals of decimals. They are read as the numbers they write, with the places they write;
what else is read has its sign behind a leading point. -/

namespace BlockFeed

namespace Decimal

def value (d : Decimal) : ℚ := d.unscaled / 10 ^ d.scale

/-- The number that digits write behind those of `n`. -/
def number (n : Nat) (ds : List Char) : Nat := ds.foldl (fun n c => n * 10 + (c.toNat - 0x30)) n

theorem number_cons (n : Nat) (c : Char) (ds : List Char) :
    number n (c :: ds) = number (n * 10 + (c.toNat - 0x30)) ds := by
  rw [number, List.foldl_cons, number]

theorem number_append (n : Nat) (ds ps : List Char) : number n (ds ++ ps) = number (number n ds) ps :=
  List.foldl_append

theorem number_eq (n : Nat) (ds : List Char) : number n ds = n * 10 ^ ds.length + number 0 ds := by
  induction ds generalizing n with
  | nil => simp [number]
  | cons c ds ih =>
    have hn := ih (n * 10 + (c.toNat - 0x30))
    have hzero := ih (0 * 10 + (c.toNat - 0x30))
    rw [number_cons, number_cons, hn, hzero, List.length_cons, Nat.pow_succ]
    ring

theorem number_toDigits (n : Nat) : number 0 (Nat.toDigits 10 n) = n := by
  have hread : Nat.ofDigitChars 10 (Nat.toDigits 10 n) 0 = n := Nat.ofDigitChars_ten_toDigits
  have hsame : ∀ (ds : List Char) (s : Nat), number s ds = Nat.ofDigitChars 10 ds s := by
    intro ds
    induction ds with
    | nil => exact fun _ => rfl
    | cons c ds ih =>
      intro s
      have hstep : s * 10 + (c.toNat - 0x30) = 10 * s + (c.toNat - '0'.toNat) := by
        rw [Nat.mul_comm]
        rfl
      rw [number_cons, ih, hstep, Nat.ofDigitChars, Nat.ofDigitChars, List.foldl_cons]
  rw [hsame, hread]

theorem le_number (n : Nat) (ds : List Char) : n ≤ number n ds := by
  have hpos : 0 < 10 ^ ds.length := Nat.pow_pos (by decide)
  have hle : n * 1 ≤ n * 10 ^ ds.length := Nat.mul_le_mul_left n hpos
  have heq := number_eq n ds
  omega

theorem head_toDigits (n : Nat) (h : 0 < n) : (Nat.toDigits 10 n).head? ≠ some '0' := by
  induction n using Nat.strongRecOn with
  | _ n ih =>
    by_cases hsmall : n < 10
    · have hdigit : ∀ n < 10, 0 < n → (Nat.toDigits 10 n).head? ≠ some '0' := by decide
      exact hdigit n hsmall h
    · have hrest := ih (n / 10) (by omega) (by omega)
      rw [Nat.toDigits_of_base_le (by omega) (by omega),
        List.head?_append_of_ne_nil _ Nat.toDigits_ne_nil]
      exact hrest

theorem number_zeros (n k : Nat) : number n (List.replicate k '0') = n * 10 ^ k := by
  induction k generalizing n with
  | zero => simp [number]
  | succ k ih =>
    have hzero : n * 10 + ('0'.toNat - 0x30) = n * 10 := rfl
    rw [List.replicate_succ, number_cons, hzero, ih, Nat.pow_succ]
    ring

/-- Digits, and behind a point more of them: the number they write and how many places it has. -/
inductive Magnitude : List Char → Nat → Nat → Prop where
  | whole {ds : List Char} (hne : ds ≠ []) (hd : ∀ c ∈ ds, c.isDigit) :
      Magnitude ds (number 0 ds) 0
  | places {ds ps : List Char} (hne : ds ≠ []) (hd : ∀ c ∈ ds, c.isDigit) (hne' : ps ≠ [])
      (hp : ∀ c ∈ ps, c.isDigit) :
      Magnitude (ds ++ '.' :: ps) (number 0 ds * 10 ^ ps.length + number 0 ps) ps.length

/-- A plain decimal text: digits with a point among them or none, a minus sign in front or none. -/
inductive Plain : String → Decimal → Prop where
  | positive {cs : List Char} {n scale : Nat} (h : Magnitude cs n scale) :
      Plain (String.ofList cs) ⟨n, scale⟩
  | negative {cs : List Char} {n scale : Nat} (h : Magnitude cs n scale) :
      Plain (String.ofList ('-' :: cs)) ⟨-n, scale⟩

/-- Digits with underscores among them, the first one bare. -/
structure Grouped (cs : List Char) : Prop where
  head : ∃ c ∈ cs.head?, c.isDigit
  all : ∀ c ∈ cs, c.isDigit ∨ c = '_'

def bare (cs : List Char) : List Char := cs.filter (· ≠ '_')

/-- At most one point before, between or behind the digits: the number they write without it and how
many stand behind it. -/
inductive Unsigned : List Char → Nat → Nat → Prop where
  | whole {ds : List Char} (h : Grouped ds) : Unsigned ds (number 0 (bare ds)) 0
  | point {ds ps : List Char} (h : Grouped (ds ++ ps)) :
      Unsigned (ds ++ '.' :: ps) (number 0 (bare (ds ++ ps))) (bare ps).length

inductive Signed : List Char → Decimal → Prop where
  | none {cs : List Char} {n scale : Nat} (h : Unsigned cs n scale) : Signed cs ⟨n, scale⟩
  | plus {cs : List Char} {n scale : Nat} (h : Unsigned cs n scale) : Signed ('+' :: cs) ⟨n, scale⟩
  | minus {cs : List Char} {n scale : Nat} (h : Unsigned cs n scale) :
      Signed ('-' :: cs) ⟨-n, scale⟩

/-- A decimal literal between blanks. -/
def Literal (text : String) (d : Decimal) : Prop := Signed (Text.trimChars text.toList) d

/-- A sign that stands behind a leading point. -/
def LateSign (text : String) : Prop :=
  ∃ c rest, Text.trimChars text.toList = '.' :: c :: rest ∧ (c = '+' ∨ c = '-')

/-- A sign behind a leading point, and digits. The sign counts as one of the places. -/
inductive LateSigned : List Char → Decimal → Prop where
  | plus {ds : List Char} (h : Grouped ds) :
      LateSigned ('.' :: '+' :: ds) ⟨number 0 (bare ds), (bare ds).length + 1⟩
  | minus {ds : List Char} (h : Grouped ds) :
      LateSigned ('.' :: '-' :: ds) ⟨-number 0 (bare ds), (bare ds).length + 1⟩

theorem ne_of_digit {c d : Char} (hc : c.isDigit) (hd : d.isDigit = false) : c ≠ d := by
  rintro rfl
  rw [hc] at hd
  cases hd

theorem digit_bounds {c : Char} (h : c.isDigit) : 0x30 ≤ c.toNat ∧ c.toNat ≤ 0x39 := by
  simp only [Char.isDigit, Bool.and_eq_true, decide_eq_true_eq, ge_iff_le, UInt32.le_iff_toNat_le] at h
  exact h

theorem not_blank_of_digit {c : Char} (h : c.isDigit) : Text.isBlank c = false := by
  have hbounds := digit_bounds h
  simp only [Text.isBlank, Bool.or_eq_false_iff, Bool.and_eq_false_iff, decide_eq_false_iff_not,
    beq_eq_false_iff_ne]
  omega

theorem bare_of_digits {ds : List Char} (h : ∀ c ∈ ds, c.isDigit) : bare ds = ds := by
  rw [bare, List.filter_eq_self]
  intro c hc
  have hne : c ≠ '_' := ne_of_digit (h c hc) rfl
  simpa using hne

theorem grouped_of_digits {ds : List Char} (hne : ds ≠ []) (h : ∀ c ∈ ds, c.isDigit) :
    Grouped ds := by
  cases ds with
  | nil => exact absurd rfl hne
  | cons c ds => exact ⟨⟨c, rfl, h c List.mem_cons_self⟩, fun d hd => .inl (h d hd)⟩

theorem Grouped.head_ne {ds : List Char} (h : Grouped ds) {c : Char} (hc : c.isDigit = false)
    (rest : List Char) : ds ≠ c :: rest := by
  rintro rfl
  obtain ⟨d, hd, hdigit⟩ := h.head
  obtain rfl : c = d := by simpa using hd
  exact ne_of_digit hdigit hc rfl

theorem Grouped.no_point {ds : List Char} (h : Grouped ds) : '.' ∉ ds := by
  intro hmem
  rcases h.all '.' hmem with h | h
  · cases h
  · cases h

section Reading

theorem readDigits_ok {cs : List Char} {n k : Nat} :
    readDigits n cs = .ok k ↔ (∀ c ∈ cs, c.isDigit ∨ c = '_') ∧ k = number n (bare cs) := by
  induction cs generalizing n with
  | nil =>
    constructor
    · rintro ⟨⟩
      exact ⟨nofun, rfl⟩
    · rintro ⟨-, rfl⟩
      rfl
  | cons c cs ih =>
    rw [readDigits]
    by_cases hline : c = '_'
    · have hbare : bare (c :: cs) = bare cs := by simp [bare, hline]
      rw [if_pos hline, ih, hbare]
      simp [hline]
    by_cases hdigit : c.isDigit
    · have hbare : bare (c :: cs) = c :: bare cs := by simp [bare, hline]
      rw [if_neg hline, if_pos hdigit, ih, hbare, number_cons]
      simp [hdigit]
    · rw [if_neg hline, if_neg hdigit]
      simp [hline, hdigit]

def readGroup (cs : List Char) : Except DecimalError.Reason Nat :=
  match cs with
  | [] => .error .noDigits
  | '_' :: _ => .error .digit
  | _ => readDigits 0 cs

theorem readNatural_eq (cs : List Char) : readNatural cs = readGroup (match cs with
    | '+' :: '+' :: _ => cs
    | '+' :: rest => rest
    | _ => cs) := rfl

theorem readGroup_ok {cs : List Char} {k : Nat} :
    readGroup cs = .ok k ↔ Grouped cs ∧ k = number 0 (bare cs) := by
  unfold readGroup
  split
  · refine ⟨nofun, fun h => ?_⟩
    obtain ⟨c, hc, -⟩ := h.1.head
    cases hc
  · exact ⟨nofun, fun h => absurd rfl (h.1.head_ne rfl _)⟩
  · rename_i hnil hline
    rw [readDigits_ok]
    refine and_congr_left fun _ => ⟨fun hall => ⟨?_, hall⟩, Grouped.all⟩
    cases cs with
    | nil => exact absurd rfl hnil
    | cons c rest =>
      refine ⟨c, rfl, (hall c List.mem_cons_self).resolve_right ?_⟩
      rintro rfl
      exact hline rest rfl

theorem readNatural_ok {cs : List Char} {k : Nat} :
    readNatural cs = .ok k ↔
      ∃ ds, Grouped ds ∧ k = number 0 (bare ds) ∧ (cs = ds ∨ cs = '+' :: ds) := by
  rw [readNatural_eq, readGroup_ok]
  split
  · constructor
    · exact fun h => absurd rfl (h.1.head_ne rfl _)
    · rintro ⟨ds, hds, -, rfl | heq⟩
      · exact absurd rfl (hds.head_ne rfl _)
      · exact absurd (List.cons.inj heq).2.symm (hds.head_ne rfl _)
  · rename_i rest _
    constructor
    · exact fun h => ⟨rest, h.1, h.2, .inr rfl⟩
    · rintro ⟨ds, hds, hk, rfl | heq⟩
      · exact absurd rfl (hds.head_ne rfl _)
      · obtain rfl := (List.cons.inj heq).2
        exact ⟨hds, hk⟩
  · rename_i hone
    constructor
    · exact fun h => ⟨cs, h.1, h.2, .inl rfl⟩
    · rintro ⟨ds, hds, hk, rfl | heq⟩
      · exact ⟨hds, hk⟩
      · exact absurd heq (hone ds)

theorem negated_ok {cs : List Char} {z : Int} :
    ((fun n : Int => -n) <$> do
      let n ← readNatural cs
      pure (n : Int)) = .ok z ↔ ∃ k, readNatural cs = .ok k ∧ -(k : Int) = z := by
  rw [map_eq_ok_iff]
  cases readNatural cs with
  | error e =>
    constructor
    · rintro ⟨_, h, _⟩
      cases h
    · rintro ⟨_, h, _⟩
      cases h
  | ok n => simp [bind, Except.bind, pure, Except.pure]

theorem readInteger_ok {cs : List Char} {z : Int} :
    readInteger cs = .ok z ↔ ∃ ds, Grouped ds ∧
      ((cs = ds ∨ cs = '+' :: ds) ∧ z = number 0 (bare ds) ∨
        cs = '-' :: ds ∧ z = -(number 0 (bare ds) : Int)) := by
  unfold readInteger
  split
  · rename_i rest
    rw [negated_ok]
    constructor
    · rintro ⟨k, hk, -⟩
      obtain ⟨ds, hds, -, rfl | heq⟩ := readNatural_ok.mp hk
      · exact absurd rfl (hds.head_ne rfl _)
      · exact absurd (List.cons.inj heq).1 (by decide)
    · rintro ⟨ds, hds, ⟨rfl | heq, -⟩ | ⟨heq, -⟩⟩
      · exact absurd rfl (hds.head_ne rfl _)
      · exact absurd (List.cons.inj heq).1 (by decide)
      · exact absurd (List.cons.inj heq).2.symm (hds.head_ne rfl _)
  · rename_i rest hplus
    rw [negated_ok]
    constructor
    · rintro ⟨k, hk, rfl⟩
      obtain ⟨ds, hds, rfl, rfl | rfl⟩ := readNatural_ok.mp hk
      · exact ⟨rest, hds, .inr ⟨rfl, rfl⟩⟩
      · exact absurd rfl (hplus ds)
    · rintro ⟨ds, hds, ⟨rfl | heq, -⟩ | ⟨heq, rfl⟩⟩
      · exact absurd rfl (hds.head_ne rfl _)
      · exact absurd (List.cons.inj heq).1 (by decide)
      · obtain rfl := (List.cons.inj heq).2
        exact ⟨_, readNatural_ok.mpr ⟨rest, hds, rfl, .inl rfl⟩, rfl⟩
  · rename_i hplus hminus
    rw [map_eq_ok_iff]
    constructor
    · rintro ⟨k, hk, rfl⟩
      obtain ⟨ds, hds, rfl, hcs⟩ := readNatural_ok.mp hk
      exact ⟨ds, hds, .inl ⟨hcs, rfl⟩⟩
    · rintro ⟨ds, hds, ⟨hcs, rfl⟩ | ⟨heq, -⟩⟩
      · exact ⟨_, readNatural_ok.mpr ⟨ds, hds, rfl, hcs⟩, rfl⟩
      · exact absurd heq (hminus ds)

theorem splitPoint_whole {cs : List Char} (h : '.' ∉ cs) : splitPoint cs = (cs, 0) := by
  have hall : ∀ c ∈ cs, decide (c ≠ '.') = true := by
    intro c hc
    have hne : c ≠ '.' := fun heq => h (heq ▸ hc)
    simpa using hne
  have htake : cs.takeWhile (· ≠ '.') = cs := List.takeWhile_eq_self_iff.mpr hall
  have hdrop : cs.dropWhile (· ≠ '.') = [] := List.dropWhile_eq_nil_iff.mpr hall
  simp only [splitPoint, htake, hdrop]
  simp

theorem splitPoint_point {ds : List Char} (h : '.' ∉ ds) (ps : List Char) :
    splitPoint (ds ++ '.' :: ps) = (ds ++ ps, (bare ps).length) := by
  have hall : ∀ c ∈ ds, decide (c ≠ '.') = true := by
    intro c hc
    have hne : c ≠ '.' := fun heq => h (heq ▸ hc)
    simpa using hne
  simp only [splitPoint, List.takeWhile_append_of_pos hall, List.dropWhile_append_of_pos hall]
  simp [bare]

def IsPlain (c : Char) : Prop := c.isDigit ∨ c = '_' ∨ c = '.' ∨ c = '+' ∨ c = '-'

theorem not_blank_of_plain {c : Char} (h : IsPlain c) : Text.isBlank c = false := by
  rcases h with h | rfl | rfl | rfl | rfl
  · exact not_blank_of_digit h
  all_goals rfl

/-- Whatever stands in front, the parts around the point are joined into the digits. -/
theorem Unsigned.split {cs : List Char} {n scale : Nat} (h : Unsigned cs n scale) :
    ∃ ds, Grouped ds ∧ n = number 0 (bare ds) ∧ (∀ c ∈ cs, IsPlain c) ∧
      ∀ front, '.' ∉ front → splitPoint (front ++ cs) = (front ++ ds, scale) := by
  cases h with
  | whole hds =>
    refine ⟨cs, hds, rfl, fun c hc => (hds.all c hc).imp_right .inl, fun front hfront => ?_⟩
    refine splitPoint_whole fun hmem => ?_
    exact (List.mem_append.mp hmem).elim hfront hds.no_point
  | @point ds ps hds =>
    have hno : '.' ∉ ds := fun hmem => hds.no_point (List.mem_append_left ps hmem)
    refine ⟨ds ++ ps, hds, rfl, ?_, fun front hfront => ?_⟩
    · intro c hc
      rcases List.mem_append.mp hc with hc | hc
      · exact (hds.all c (List.mem_append_left ps hc)).imp_right .inl
      rcases List.mem_cons.mp hc with rfl | hc
      · exact .inr (.inr (.inl rfl))
      · exact (hds.all c (List.mem_append_right ds hc)).imp_right .inl
    · have hfront' : '.' ∉ front ++ ds := fun hmem => (List.mem_append.mp hmem).elim hfront hno
      rw [← List.append_assoc, splitPoint_point hfront', List.append_assoc]

theorem read_chars {cs digits : List Char} {places : Nat} {z : Int} (hplain : ∀ c ∈ cs, IsPlain c)
    (hsplit : splitPoint cs = (digits, places)) (hread : readInteger digits = .ok z) :
    Decimal.read cs = .ok ⟨z, places⟩ := by
  have hne : cs ≠ [] := by
    rintro rfl
    obtain ⟨rfl, -⟩ := Prod.mk.inj hsplit
    cases hread
  have hno : ∀ e : Char, ¬ IsPlain e → cs.contains e = false := by
    intro e he
    rw [Bool.eq_false_iff, ne_eq, List.contains_iff_mem]
    exact fun hmem => he (hplain e hmem)
  have hempty : cs.isEmpty = false := by simpa using hne
  rw [Decimal.read, hempty, hno 'e' (by simp [IsPlain]), hno 'E' (by simp [IsPlain]), hsplit]
  simp only [bind, Except.bind, hread]
  rfl

theorem Signed.plain {cs : List Char} {d : Decimal} (h : Signed cs d) : ∀ c ∈ cs, IsPlain c := by
  have hcons : ∀ {c : Char} {cs : List Char}, IsPlain c → (∀ c ∈ cs, IsPlain c) →
      ∀ d ∈ c :: cs, IsPlain d := by
    intro c cs hc hcs d hd
    rcases List.mem_cons.mp hd with rfl | hd
    · exact hc
    · exact hcs d hd
  cases h with
  | none h =>
    obtain ⟨-, -, -, hplain, -⟩ := h.split
    exact hplain
  | plus h =>
    obtain ⟨-, -, -, hplain, -⟩ := h.split
    exact hcons (.inr (.inr (.inr (.inl rfl)))) hplain
  | minus h =>
    obtain ⟨-, -, -, hplain, -⟩ := h.split
    exact hcons (.inr (.inr (.inr (.inr rfl)))) hplain

theorem Signed.read {cs : List Char} {d : Decimal} (h : Signed cs d) : Decimal.read cs = .ok d := by
  have hplain := h.plain
  cases h with
  | none h =>
    obtain ⟨ds, hds, rfl, -, hsplit⟩ := h.split
    exact read_chars hplain (hsplit [] (by simp)) (readInteger_ok.mpr ⟨ds, hds, .inl ⟨.inl rfl, rfl⟩⟩)
  | plus h =>
    obtain ⟨ds, hds, rfl, -, hsplit⟩ := h.split
    exact read_chars hplain (hsplit ['+'] (by simp))
      (readInteger_ok.mpr ⟨ds, hds, .inl ⟨.inr rfl, rfl⟩⟩)
  | minus h =>
    obtain ⟨ds, hds, rfl, -, hsplit⟩ := h.split
    exact read_chars hplain (hsplit ['-'] (by simp)) (readInteger_ok.mpr ⟨ds, hds, .inr ⟨rfl, rfl⟩⟩)

/-- The point is taken out before the sign is looked for, so a sign behind a leading point counts. -/
theorem signed_of_read {cs : List Char} {d : Decimal} (h : Decimal.read cs = .ok d) :
    Signed cs d ∨ LateSigned cs d := by
  have hparts : ∃ z, readInteger (splitPoint cs).1 = .ok z ∧ d = ⟨z, (splitPoint cs).2⟩ := by
    unfold Decimal.read at h
    split at h
    · cases h
    split at h
    · cases h
    cases hread : readInteger (splitPoint cs).1 with
    | error e =>
      simp only [bind, Except.bind, hread] at h
      cases h
    | ok z =>
      simp only [bind, Except.bind, hread] at h
      exact ⟨z, rfl, (Except.ok.inj h).symm⟩
  obtain ⟨z, hz, rfl⟩ := hparts
  obtain ⟨ds, hds, hcases⟩ := readInteger_ok.mp hz
  by_cases hpoint : '.' ∈ cs
  · obtain ⟨front, ps, rfl, hfront⟩ := List.eq_append_cons_of_mem hpoint
    rw [splitPoint_point hfront] at hcases ⊢
    have hsign : ∀ c : Char, front ++ ps = c :: ds →
        (∃ rest, front = c :: rest ∧ rest ++ ps = ds) ∨ front = [] ∧ ps = c :: ds := by
      intro c heq
      cases front with
      | nil => exact .inr ⟨rfl, heq⟩
      | cons b rest =>
        obtain ⟨rfl, hrest⟩ := List.cons.inj heq
        exact .inl ⟨rest, rfl, hrest⟩
    rcases hcases with ⟨heq | heq, rfl⟩ | ⟨heq, rfl⟩
    · subst heq
      exact .inl (.none (.point hds))
    · rcases hsign '+' heq with ⟨rest, rfl, rfl⟩ | ⟨rfl, rfl⟩
      · exact .inl (.plus (.point hds))
      · exact .inr (.plus hds)
    · rcases hsign '-' heq with ⟨rest, rfl, rfl⟩ | ⟨rfl, rfl⟩
      · exact .inl (.minus (.point hds))
      · exact .inr (.minus hds)
  · rw [splitPoint_whole hpoint] at hcases ⊢
    rcases hcases with ⟨rfl | rfl, rfl⟩ | ⟨rfl, rfl⟩
    · exact .inl (.none (.whole hds))
    · exact .inl (.plus (.whole hds))
    · exact .inl (.minus (.whole hds))

theorem ofText_exponent {cs : List Char} (hmark : 'e' ∈ cs) (hall : ∀ c ∈ cs, IsPlain c ∨ c = 'e')
    (d : Decimal) : ofText? (String.ofList cs) ≠ .ok d := by
  have hblank : ∀ c ∈ cs, Text.isBlank c = false := by
    intro c hc
    rcases hall c hc with h | rfl
    · exact not_blank_of_plain h
    · rfl
  have hread : Decimal.read cs = .error .exponent := by
    have hne : cs.isEmpty = false := by simp [List.ne_nil_of_mem hmark]
    have hcontains : cs.contains 'e' = true := List.contains_iff_mem.mpr hmark
    rw [Decimal.read, hne, hcontains]
    rfl
  rw [ofText?, String.toList_ofList, Text.trimChars_of_not_blank hblank, hread]
  nofun

theorem ofText_ok {text : String} {d : Decimal} :
    ofText? text = .ok d ↔ Decimal.read (Text.trimChars text.toList) = .ok d := by
  rw [ofText?]
  cases Decimal.read (Text.trimChars text.toList) with
  | error reason => exact iff_of_false nofun nofun
  | ok d' => exact ⟨fun h => congrArg _ (Except.ok.inj h), fun h => congrArg _ (Except.ok.inj h)⟩

theorem literal_of_ofText {text : String} {d : Decimal} (h : ofText? text = .ok d) :
    Literal text d ∨ LateSign text := by
  rcases signed_of_read (ofText_ok.mp h) with hsigned | hlate
  · exact .inl hsigned
  refine .inr ?_
  rw [LateSign]
  generalize Text.trimChars text.toList = cs at hlate ⊢
  cases hlate with
  | plus _ => exact ⟨'+', _, rfl, .inl rfl⟩
  | minus _ => exact ⟨'-', _, rfl, .inr rfl⟩

theorem Literal.ofText {text : String} {d : Decimal} (h : Literal text d) : ofText? text = .ok d :=
  ofText_ok.mpr (Signed.read h)

theorem Magnitude.unsigned {cs : List Char} {n scale : Nat} (h : Magnitude cs n scale) :
    Unsigned cs n scale := by
  cases h with
  | whole hne hd =>
    have hunsigned := Unsigned.whole (grouped_of_digits hne hd)
    rwa [bare_of_digits hd] at hunsigned
  | @places ds ps hne hd hne' hp =>
    have hall : ∀ c ∈ ds ++ ps, c.isDigit := fun c hc => (List.mem_append.mp hc).elim (hd c) (hp c)
    have hunsigned := Unsigned.point (grouped_of_digits (by simp [hne]) hall)
    rwa [bare_of_digits hall, bare_of_digits hp, number_append, number_eq] at hunsigned

theorem literal_of_signed {cs : List Char} {d : Decimal} (h : Signed cs d) :
    Literal (String.ofList cs) d := by
  rwa [Literal, String.toList_ofList,
    Text.trimChars_of_not_blank fun c hc => not_blank_of_plain (h.plain c hc)]

theorem Plain.literal {text : String} {d : Decimal} (h : Plain text d) : Literal text d := by
  cases h with
  | positive h => exact literal_of_signed (.none h.unsigned)
  | negative h => exact literal_of_signed (.minus h.unsigned)

theorem Plain.ofText {text : String} {d : Decimal} (h : Plain text d) : ofText? text = .ok d :=
  h.literal.ofText

end Reading

end Decimal

end BlockFeed
