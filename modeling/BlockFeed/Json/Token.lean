import BlockFeed.Json.Numeral

/-! The tokens of a JSON text. A token that cannot be completed says what is wrong with it and ends
the list; so does a character that starts no token. -/

namespace BlockFeed.Json

/-- What is wrong where a text breaks off: for one who reads the value, and for one who only looks
for its end. -/
structure Break where
  read : Fault
  skip : Fault
  deriving Repr, DecidableEq

def Break.of (f : Fault) : Break := ⟨f, f⟩

/-- A complete string; one with unpaired surrogates has no text. -/
abbrev Spelling := Except Fault String

inductive Token where
  | openList
  | closeList
  | openObject
  | closeObject
  | comma
  | colon
  | null
  | bool (b : Bool)
  | number (n : Numeral)
  | string (s : Spelling)
  | brokenString (b : Break)
  | broken (b : Break)
  | stray
  deriving Repr

namespace Token

def isSpace (c : Char) : Bool := c = ' ' || c = '\n' || c = '\t' || c = '\r'

/-- The text of a string so far, the last character first, and a leading surrogate that waits for
its partner; or the first fault. -/
inductive Heard where
  | text (chars : List Char) (lead : Option Nat)
  | fault (f : Fault)
  deriving Repr

namespace Heard

def char (c : Char) : Heard → Heard
  | .text cs none => .text (c :: cs) none
  | .text _ (some _) => .fault .endOfHexEscape
  | h => h

/-- A 16-bit unit written as an escape. -/
def unit (n : Nat) : Heard → Heard
  | .text cs none =>
    if 0xDC00 ≤ n ∧ n ≤ 0xDFFF then .fault .loneSurrogate
    else if 0xD800 ≤ n ∧ n ≤ 0xDBFF then .text cs (some n)
    else .text (Char.ofNat n :: cs) none
  | .text cs (some lead) =>
    if 0xDC00 ≤ n ∧ n ≤ 0xDFFF then
      .text (Char.ofNat ((lead - 0xD800) * 0x400 + (n - 0xDC00) + 0x10000) :: cs) none
    else .fault .loneSurrogate
  | h => h

def close : Heard → Spelling
  | .text cs none => .ok (String.ofList cs.reverse)
  | .text _ (some _) => .error .endOfHexEscape
  | .fault f => .error f

/-- The string breaks off with `f`. -/
def cut (f : Fault) : Heard → Break
  | .fault g => ⟨g, f⟩
  | _ => .of f

/-- As `cut`, where a waiting surrogate is at fault first. -/
def cutUnpaired (f : Fault) : Heard → Break
  | .text _ (some _) => ⟨.endOfHexEscape, f⟩
  | h => h.cut f

end Heard

/-- The character that an escape of one letter stands for. -/
def escaped? (c : Char) : Option Char :=
  if c = '"' then some '"'
  else if c = '\\' then some '\\'
  else if c = '/' then some '/'
  else if c = 'b' then some '\x08'
  else if c = 'f' then some '\x0c'
  else if c = 'n' then some '\n'
  else if c = 'r' then some '\r'
  else if c = 't' then some '\t'
  else none

def hexValue? (c : Char) : Option Nat :=
  if '0' ≤ c ∧ c ≤ '9' then some (c.toNat - 0x30)
  else if 'a' ≤ c ∧ c ≤ 'f' then some (c.toNat - 0x57)
  else if 'A' ≤ c ∧ c ≤ 'F' then some (c.toNat - 0x37)
  else none

def unit? (a b c d : Char) : Option Nat := do
  let a ← hexValue? a
  let b ← hexValue? b
  let c ← hexValue? c
  let d ← hexValue? d
  return ((a * 16 + b) * 16 + c) * 16 + d

/-- The rest of a string behind its opening quote. An escape by number takes four octets. -/
def scanString (h : Heard) : List Char → Token × List Char
  | [] => (.brokenString (h.cut .eofString), [])
  | '"' :: cs => (.string h.close, cs)
  | '\\' :: 'u' :: a :: b :: c :: d :: cs =>
    match unit? a b c d with
    | some n => scanString (h.unit n) cs
    | none => (.brokenString (h.cut .invalidEscape), [])
  | '\\' :: 'u' :: cs =>
    if 4 ≤ (cs.flatMap String.utf8EncodeChar).length then (.brokenString (h.cut .invalidEscape), [])
    else (.brokenString (h.cut .eofString), [])
  | '\\' :: [] => (.brokenString (h.cut .eofString), [])
  | '\\' :: e :: cs =>
    match escaped? e with
    | some c => scanString (h.char c) cs
    | none => (.brokenString (h.cutUnpaired .invalidEscape), [])
  | c :: cs =>
    if c.toNat < 0x20 then (.brokenString (h.cutUnpaired .controlCharacter), [])
    else scanString (h.char c) cs

/-- The rest of a word whose first letter has been read. -/
def scanWord (t : Token) : List Char → List Char → Token × List Char
  | [], cs => (t, cs)
  | _ :: _, [] => (.broken (.of .eofValue), [])
  | e :: es, c :: cs => if c = e then scanWord t es cs else (.broken (.of .expectedIdent), [])

/-- A literal that lacks a digit before `rest`. -/
def noDigit (rest : List Char) : Token × List Char :=
  (.broken ⟨if rest.isEmpty then .eofValue else .invalidNumber, .invalidNumber⟩, [])

def scanExponent (n : Numeral) (cs : List Char) : Token × List Char :=
  let (down, cs) := match cs with
    | '+' :: cs => (false, cs)
    | '-' :: cs => (true, cs)
    | cs => (false, cs)
  let rest := cs.dropWhile Char.isDigit
  let digits := cs.takeWhile Char.isDigit
  if digits.isEmpty then noDigit rest
  else (.number { n with exponent := some (down, digits) }, rest)

/-- What may follow the digits before and after the point. -/
def scanMark (n : Numeral) (cs : List Char) : Token × List Char :=
  match cs with
  | 'e' :: rest => scanExponent n rest
  | 'E' :: rest => scanExponent n rest
  | _ => (.number n, cs)

/-- A number behind its sign and its first digit. -/
def scanNumber (negative : Bool) (first : Char) (cs : List Char) : Token × List Char :=
  let whole := cs.takeWhile Char.isDigit
  let rest := cs.dropWhile Char.isDigit
  if first = '0' ∧ whole ≠ [] then (.broken (.of .invalidNumber), [])
  else match rest with
    | '.' :: cs =>
      let places := cs.takeWhile Char.isDigit
      let rest := cs.dropWhile Char.isDigit
      if places.isEmpty then noDigit rest
      else scanMark ⟨negative, first :: whole, places, none⟩ rest
    | _ => scanMark ⟨negative, first :: whole, [], none⟩ rest

/-- A number behind a minus sign. -/
def scanNegative : List Char → Token × List Char
  | c :: cs => if c.isDigit then scanNumber true c cs else noDigit (c :: cs)
  | [] => noDigit []

/-- The token that starts with `c`, and what follows it. -/
def scan (c : Char) (cs : List Char) : Token × List Char :=
  if c = '"' then scanString (.text [] none) cs
  else if c = '[' then (.openList, cs)
  else if c = ']' then (.closeList, cs)
  else if c = '{' then (.openObject, cs)
  else if c = '}' then (.closeObject, cs)
  else if c = ',' then (.comma, cs)
  else if c = ':' then (.colon, cs)
  else if c = 'n' then scanWord .null ['u', 'l', 'l'] cs
  else if c = 't' then scanWord (.bool true) ['r', 'u', 'e'] cs
  else if c = 'f' then scanWord (.bool false) ['a', 'l', 's', 'e'] cs
  else if c = '-' then scanNegative cs
  else if c.isDigit then scanNumber false c cs
  else (.stray, [])

theorem length_dropWhile_le (p : Char → Bool) (cs : List Char) :
    (cs.dropWhile p).length ≤ cs.length :=
  (List.dropWhile_sublist p).length_le

theorem scanString_length (h : Heard) (cs : List Char) :
    (scanString h cs).2.length ≤ cs.length := by
  fun_induction scanString h cs <;> simp_all <;> omega

theorem scanWord_length (t : Token) (es cs : List Char) :
    (scanWord t es cs).2.length ≤ cs.length := by
  fun_induction scanWord t es cs <;> simp_all <;> omega

theorem scanExponent_length (n : Numeral) (cs : List Char) :
    (scanExponent n cs).2.length ≤ cs.length := by
  unfold scanExponent noDigit
  have := length_dropWhile_le Char.isDigit
  split <;> grind

theorem scanMark_length (n : Numeral) (cs : List Char) :
    (scanMark n cs).2.length ≤ cs.length := by
  unfold scanMark
  split
  · exact Nat.le_succ_of_le (scanExponent_length n _)
  · exact Nat.le_succ_of_le (scanExponent_length n _)
  · simp

theorem scanNumber_length (negative : Bool) (first : Char) (cs : List Char) :
    (scanNumber negative first cs).2.length ≤ cs.length := by
  unfold scanNumber noDigit
  have hd := length_dropWhile_le Char.isDigit
  have hm := scanMark_length
  grind

theorem scanNegative_length (cs : List Char) : (scanNegative cs).2.length ≤ cs.length := by
  have hn := scanNumber_length true
  unfold scanNegative noDigit
  grind

theorem scan_length (c : Char) (cs : List Char) : (scan c cs).2.length ≤ cs.length := by
  have ite {p : Prop} [Decidable p] {a b : Token × List Char} (ha : a.2.length ≤ cs.length)
      (hb : b.2.length ≤ cs.length) : (if p then a else b).2.length ≤ cs.length := by
    split <;> assumption
  exact ite (scanString_length _ _) <| ite (Nat.le_refl _) <| ite (Nat.le_refl _) <|
    ite (Nat.le_refl _) <| ite (Nat.le_refl _) <| ite (Nat.le_refl _) <| ite (Nat.le_refl _) <|
    ite (scanWord_length _ _ _) <| ite (scanWord_length _ _ _) <| ite (scanWord_length _ _ _) <|
    ite (scanNegative_length _) <| ite (scanNumber_length _ _ _) (Nat.zero_le _)

end Token

/-- The tokens of a text. -/
def tokens (cs : List Char) : List Token :=
  match cs with
  | [] => []
  | c :: cs =>
    if Token.isSpace c then tokens cs
    else (Token.scan c cs).1 :: tokens (Token.scan c cs).2
termination_by cs.length
decreasing_by
  · simp
  · have := Token.scan_length c cs
    simp only [List.length_cons]
    omega

end BlockFeed.Json
