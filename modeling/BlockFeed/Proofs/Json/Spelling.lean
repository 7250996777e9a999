import BlockFeed.Json.Token
import Mathlib.Data.List.TakeWhile

/-! How tokens are spelled: blanks between them, any escapes in strings, any form of a number. The
scanner finds the tokens again. -/

namespace BlockFeed.Json

/-- The characters between two quotes, and the text they stand for. -/
inductive Body : List Char → List Char → Prop where
  | nil : Body [] []
  | plain {c : Char} {cs s : List Char} (hq : c ≠ '"') (hb : c ≠ '\\') (hc : 0x20 ≤ c.toNat)
      (h : Body cs s) : Body (c :: cs) (c :: s)
  | escape {e c : Char} {cs s : List Char} (he : Token.escaped? e = some c) (h : Body cs s) :
      Body ('\\' :: e :: cs) (c :: s)
  | unit {a b c d : Char} {n : Nat} {cs s : List Char} (hu : Token.unit? a b c d = some n)
      (hn : n < 0xD800 ∨ 0xDFFF < n) (h : Body cs s) :
      Body ('\\' :: 'u' :: a :: b :: c :: d :: cs) (Char.ofNat n :: s)
  | pair {a b c d a' b' c' d' : Char} {lead trail : Nat} {cs s : List Char}
      (hu : Token.unit? a b c d = some lead) (hl : 0xD800 ≤ lead ∧ lead ≤ 0xDBFF)
      (hu' : Token.unit? a' b' c' d' = some trail) (ht : 0xDC00 ≤ trail ∧ trail ≤ 0xDFFF)
      (h : Body cs s) :
      Body ('\\' :: 'u' :: a :: b :: c :: d :: '\\' :: 'u' :: a' :: b' :: c' :: d' :: cs)
        (Char.ofNat ((lead - 0xD800) * 0x400 + (trail - 0xDC00) + 0x10000) :: s)

namespace Token

theorem scanString_char {c : Char} (hq : c ≠ '"') (hb : c ≠ '\\') (hc : 0x20 ≤ c.toNat) (h : Heard)
    (cs : List Char) : scanString h (c :: cs) = scanString (h.char c) cs := by
  have hlow : ¬ c.toNat < 0x20 := by omega
  rw [scanString]
  · rw [if_neg hlow]
  · exact hq
  all_goals
    intros
    exact absurd ‹_› hb

theorem scanString_escape {e c : Char} (he : escaped? e = some c) (h : Heard) (cs : List Char) :
    scanString h ('\\' :: e :: cs) = scanString (h.char c) cs := by
  have hu : e ≠ 'u' := by
    rintro rfl
    simp [escaped?] at he
  rw [scanString]
  · rw [he]
  all_goals
    intros
    exact absurd ‹_› hu

theorem scanString_unit {a b c d : Char} {n : Nat} (hu : unit? a b c d = some n) (h : Heard)
    (cs : List Char) :
    scanString h ('\\' :: 'u' :: a :: b :: c :: d :: cs) = scanString (h.unit n) cs := by
  rw [scanString, hu]

theorem scanString_body {cs s : List Char} (h : Body cs s) (heard rest : List Char) :
    scanString (.text heard none) (cs ++ '"' :: rest) =
      (.string (.ok (String.ofList (heard.reverse ++ s))), rest) := by
  induction h generalizing heard with
  | nil => simp [scanString, Heard.close]
  | plain hq hb hc _ ih =>
    rw [List.cons_append, scanString_char hq hb hc]
    simpa [Heard.char] using ih (_ :: heard)
  | escape he _ ih =>
    rw [List.cons_append, List.cons_append, scanString_escape he]
    simpa [Heard.char] using ih (_ :: heard)
  | @unit a b c d n cs s hu hn _ ih =>
    have hunit : Heard.unit n (.text heard none) = .text (Char.ofNat n :: heard) none := by
      have hlow : ¬ (0xDC00 ≤ n ∧ n ≤ 0xDFFF) := by omega
      have hhigh : ¬ (0xD800 ≤ n ∧ n ≤ 0xDBFF) := by omega
      simp only [Heard.unit, if_neg hlow, if_neg hhigh]
    simp only [List.cons_append]
    rw [scanString_unit hu, hunit]
    simpa using ih (_ :: heard)
  | @pair a b c d a' b' c' d' lead trail cs s hu hl hu' ht _ ih =>
    have hlead : Heard.unit lead (.text heard none) = .text heard (some lead) := by
      have hlow : ¬ (0xDC00 ≤ lead ∧ lead ≤ 0xDFFF) := by omega
      simp only [Heard.unit, if_neg hlow, if_pos hl]
    have htrail : Heard.unit trail (.text heard (some lead)) =
        .text (Char.ofNat ((lead - 0xD800) * 0x400 + (trail - 0xDC00) + 0x10000) :: heard) none := by
      simp only [Heard.unit, if_pos ht]
    simp only [List.cons_append]
    rw [scanString_unit hu, hlead, scanString_unit hu', htrail]
    simpa using ih (_ :: heard)

end Token

/-- The point of a numeral and the digits behind it, if it has them. -/
inductive PlacesText : List Char → List Char → Prop where
  | none : PlacesText [] []
  | point {ds : List Char} (hne : ds ≠ []) (hd : ∀ c ∈ ds, c.isDigit) : PlacesText ('.' :: ds) ds

inductive ExponentText : List Char → Option (Bool × List Char) → Prop where
  | none : ExponentText [] none
  | bare {e : Char} {ds : List Char} (he : e = 'e' ∨ e = 'E') (hne : ds ≠ [])
      (hd : ∀ c ∈ ds, c.isDigit) : ExponentText (e :: ds) (some (false, ds))
  | plus {e : Char} {ds : List Char} (he : e = 'e' ∨ e = 'E') (hne : ds ≠ [])
      (hd : ∀ c ∈ ds, c.isDigit) : ExponentText (e :: '+' :: ds) (some (false, ds))
  | minus {e : Char} {ds : List Char} (he : e = 'e' ∨ e = 'E') (hne : ds ≠ [])
      (hd : ∀ c ∈ ds, c.isDigit) : ExponentText (e :: '-' :: ds) (some (true, ds))

/-- A numeral without its sign; no zero stands before another digit. -/
inductive UnsignedText : List Char → Numeral → Prop where
  | intro {first : Char} {whole p places e : List Char} {x : Option (Bool × List Char)}
      {negative : Bool} (hfirst : first.isDigit) (hwhole : ∀ c ∈ whole, c.isDigit)
      (hzero : first = '0' → whole = []) (hp : PlacesText p places) (he : ExponentText e x) :
      UnsignedText (first :: (whole ++ (p ++ e))) ⟨negative, first :: whole, places, x⟩

/-- How a token is written. -/
inductive Lexeme : List Char → Token → Prop where
  | openList : Lexeme ['['] .openList
  | closeList : Lexeme [']'] .closeList
  | openObject : Lexeme ['{'] .openObject
  | closeObject : Lexeme ['}'] .closeObject
  | comma : Lexeme [','] .comma
  | colon : Lexeme [':'] .colon
  | null : Lexeme ['n', 'u', 'l', 'l'] .null
  | true : Lexeme ['t', 'r', 'u', 'e'] (.bool true)
  | false : Lexeme ['f', 'a', 'l', 's', 'e'] (.bool false)
  | string {cs s : List Char} (h : Body cs s) :
      Lexeme ('"' :: (cs ++ ['"'])) (.string (.ok (String.ofList s)))
  | number {cs : List Char} {n : Numeral} (h : UnsignedText cs n) (hn : n.negative = Bool.false) :
      Lexeme cs (.number n)
  | minus {cs : List Char} {n : Numeral} (h : UnsignedText cs n) (hn : n.negative = Bool.true) :
      Lexeme ('-' :: cs) (.number n)

/-- Characters that a numeral before them would take in. -/
def Token.extends (c : Char) : Bool := c.isDigit || c = '.' || c = 'e' || c = 'E'

/-- No numeral goes on with these characters. -/
def Stops (cs : List Char) : Prop := ∀ c ∈ cs.head?, Token.extends c = false

/-- A text of tokens, with blanks around them. -/
inductive Spelled : List Char → List Token → Prop where
  | nil : Spelled [] []
  | blank {c : Char} {cs : List Char} {ts : List Token} (hc : Token.isSpace c)
      (h : Spelled cs ts) : Spelled (c :: cs) ts
  | token {l cs : List Char} {t : Token} {ts : List Token} (hl : Lexeme l t)
      (hs : (∃ n, t = .number n) → Stops cs) (h : Spelled cs ts) : Spelled (l ++ cs) (t :: ts)

namespace Token

theorem takeWhile_digits {ds rest : List Char} (hd : ∀ c ∈ ds, c.isDigit)
    (hr : ∀ c ∈ rest.head?, c.isDigit = false) : (ds ++ rest).takeWhile Char.isDigit = ds := by
  rw [List.takeWhile_append_of_pos hd]
  cases rest with
  | nil => simp
  | cons c rest =>
    have hc : c.isDigit = false := hr c (by simp)
    simp [hc]

theorem dropWhile_digits {ds rest : List Char} (hd : ∀ c ∈ ds, c.isDigit)
    (hr : ∀ c ∈ rest.head?, c.isDigit = false) : (ds ++ rest).dropWhile Char.isDigit = rest := by
  rw [List.dropWhile_append_of_pos hd]
  cases rest with
  | nil => simp
  | cons c rest =>
    have hc : c.isDigit = false := hr c (by simp)
    simp [hc]

theorem not_digit_of_stops {cs : List Char} (h : Stops cs) : ∀ c ∈ cs.head?, c.isDigit = false := by
  intro c hc
  have hx := h c hc
  simp only [Token.extends, Bool.or_eq_false_iff] at hx
  exact hx.1.1.1

/-- An exponent's sign, then its digits. -/
theorem scanExponent_text {ds rest : List Char} (n : Numeral) (hne : ds ≠ [])
    (hd : ∀ c ∈ ds, c.isDigit) (hr : Stops rest) :
    scanExponent n (ds ++ rest) = (.number { n with exponent := some (false, ds) }, rest) ∧
    scanExponent n ('+' :: (ds ++ rest)) = (.number { n with exponent := some (false, ds) }, rest) ∧
    scanExponent n ('-' :: (ds ++ rest)) = (.number { n with exponent := some (true, ds) }, rest) := by
  have hrest := not_digit_of_stops hr
  have htake := takeWhile_digits hd hrest
  have hdrop := dropWhile_digits hd hrest
  have hempty : ds.isEmpty = false := by simpa using hne
  refine ⟨?_, ?_, ?_⟩
  · cases ds with
    | nil => exact absurd rfl hne
    | cons d ds =>
      have hdigit : d.isDigit = true := hd d (by simp)
      unfold scanExponent
      split
      rename_i down cs hmark
      split at hmark
      · rename_i heq
        obtain ⟨rfl, -⟩ := List.cons.inj heq
        simp at hdigit
      · rename_i heq
        obtain ⟨rfl, -⟩ := List.cons.inj heq
        simp at hdigit
      · obtain ⟨rfl, rfl⟩ := Prod.mk.inj hmark
        rw [htake, hdrop]
        rfl
  · simp [scanExponent, htake, hdrop, hempty]
  · simp [scanExponent, htake, hdrop, hempty]

theorem scanMark_text {e rest : List Char} {x : Option (Bool × List Char)} (h : ExponentText e x)
    (hr : Stops rest) (negative : Bool) (whole places : List Char) :
    scanMark ⟨negative, whole, places, none⟩ (e ++ rest) =
      (.number ⟨negative, whole, places, x⟩, rest) := by
  cases h with
  | none =>
    cases rest with
    | nil => rfl
    | cons c rest =>
      have hc := hr c (by simp)
      simp only [Token.extends, Bool.or_eq_false_iff, decide_eq_false_iff_not] at hc
      rw [List.nil_append, scanMark]
      · intro cs heq
        exact hc.1.2 (List.cons.inj heq).1
      · intro cs heq
        exact hc.2 (List.cons.inj heq).1
  | bare he hne hd =>
    have hx := (scanExponent_text ⟨negative, whole, places, none⟩ hne hd hr).1
    rcases he with rfl | rfl <;> exact hx
  | plus he hne hd =>
    have hx := (scanExponent_text ⟨negative, whole, places, none⟩ hne hd hr).2.1
    rcases he with rfl | rfl <;> exact hx
  | minus he hne hd =>
    have hx := (scanExponent_text ⟨negative, whole, places, none⟩ hne hd hr).2.2
    rcases he with rfl | rfl <;> exact hx

/-- Neither an exponent nor what follows a numeral goes on with a digit or a point. -/
theorem head_exponent {e rest : List Char} {x : Option (Bool × List Char)} (h : ExponentText e x)
    (hr : Stops rest) : ∀ c ∈ (e ++ rest).head?, c.isDigit = false ∧ c ≠ '.' := by
  have hmark : ∀ {e : Char}, e = 'e' ∨ e = 'E' → e.isDigit = false ∧ e ≠ '.' := by
    rintro e (rfl | rfl) <;> decide
  intro c hc
  cases h with
  | none =>
    have hx := hr c hc
    simp only [Token.extends, Bool.or_eq_false_iff, decide_eq_false_iff_not] at hx
    exact ⟨hx.1.1.1, hx.1.1.2⟩
  | bare he hne hd =>
    obtain rfl : _ = c := by simpa using hc
    exact hmark he
  | plus he hne hd =>
    obtain rfl : _ = c := by simpa using hc
    exact hmark he
  | minus he hne hd =>
    obtain rfl : _ = c := by simpa using hc
    exact hmark he

theorem scanNumber_text {cs rest : List Char} {n : Numeral} (h : UnsignedText cs n)
    (hr : Stops rest) : ∃ first tail, cs = first :: tail ∧ first.isDigit ∧
      scanNumber n.negative first (tail ++ rest) = (.number n, rest) := by
  obtain @⟨first, whole, p, places, e, x, negative, hfirst, hwhole, hzero, hp, he⟩ := h
  refine ⟨first, whole ++ (p ++ e), rfl, hfirst, ?_⟩
  have hhead := head_exponent he hr
  have hnot : ¬ (first = '0' ∧ whole ≠ []) := fun hz => hz.2 (hzero hz.1)
  have hmark := scanMark_text he hr negative (first :: whole)
  cases hp with
  | none =>
    have hstop : ∀ c ∈ (e ++ rest).head?, c.isDigit = false := fun c hc => (hhead c hc).1
    simp only [List.nil_append, List.append_assoc, scanNumber, takeWhile_digits hwhole hstop,
      dropWhile_digits hwhole hstop, if_neg hnot]
    split
    · rename_i cs heq
      exact absurd rfl (hhead '.' (by simp [heq])).2
    · exact hmark []
  | point hne hd =>
    have hpoint : ∀ c ∈ ('.' :: (places ++ (e ++ rest))).head?, c.isDigit = false := by
      simp
    have hstop : ∀ c ∈ (e ++ rest).head?, c.isDigit = false := fun c hc => (hhead c hc).1
    have hempty : places.isEmpty = false := by simpa using hne
    simp only [List.cons_append, List.append_assoc, scanNumber, takeWhile_digits hwhole hpoint,
      dropWhile_digits hwhole hpoint, if_neg hnot, takeWhile_digits hd hstop,
      dropWhile_digits hd hstop, hempty]
    exact hmark places

/-- A digit starts none of the other tokens. -/
theorem scan_digit {c : Char} (h : c.isDigit) (cs : List Char) : scan c cs = scanNumber false c cs := by
  have hne : ∀ d : Char, d.isDigit = false → c ≠ d := by
    rintro d hd rfl
    rw [h] at hd
    cases hd
  simp [scan, h, hne '"' rfl, hne '[' rfl, hne ']' rfl, hne '{' rfl, hne '}' rfl, hne ',' rfl,
    hne ':' rfl, hne 'n' rfl, hne 't' rfl, hne 'f' rfl, hne '-' rfl]

theorem scan_lexeme {l cs : List Char} {t : Token} (h : Lexeme l t)
    (hs : (∃ n, t = .number n) → Stops cs) :
    ∃ c tail, l = c :: tail ∧ isSpace c = false ∧ scan c (tail ++ cs) = (t, cs) := by
  cases h with
  | @string body s h =>
    refine ⟨'"', body ++ ['"'], rfl, rfl, ?_⟩
    simpa [scan] using scanString_body h [] cs
  | @number l n h hn =>
    obtain ⟨c, tail, rfl, hc, hscan⟩ := scanNumber_text h (hs ⟨n, rfl⟩)
    refine ⟨c, tail, rfl, ?_, ?_⟩
    · have hne : ∀ d : Char, d.isDigit = false → c ≠ d := by
        rintro d hd rfl
        rw [hc] at hd
        cases hd
      simp [isSpace, hne ' ' rfl, hne '\n' rfl, hne '\t' rfl, hne '\r' rfl]
    · rw [scan_digit hc, ← hn, hscan]
  | @minus l n h hn =>
    obtain ⟨c, tail, rfl, hc, hscan⟩ := scanNumber_text h (hs ⟨n, rfl⟩)
    refine ⟨'-', c :: tail, rfl, rfl, ?_⟩
    rw [hn] at hscan
    simpa [scan, scanNegative, hc] using hscan
  | _ => exact ⟨_, _, rfl, rfl, rfl⟩

end Token

/-- A text has the tokens it spells. -/
theorem Spelled.tokens_eq {cs : List Char} {ts : List Token} (h : Spelled cs ts) :
    tokens cs = ts := by
  induction h with
  | nil => rw [tokens]
  | blank hc _ ih => rw [tokens, if_pos hc, ih]
  | token hl hs _ ih =>
    obtain ⟨c, tail, rfl, hc, hscan⟩ := Token.scan_lexeme hl hs
    rw [List.cons_append, tokens, if_neg (by simp [hc]), hscan, ih]

end BlockFeed.Json
