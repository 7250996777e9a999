import BlockFeed.Text.Blank
import BlockFeed.Text.Quoted

/-! Exact decimals of unbounded size. A decimal keeps the number of places it was written with;
order and equality are those of the number. -/

namespace BlockFeed

/-- The number `unscaled / 10 ^ scale`, written with `scale` places. -/
structure Decimal where
  unscaled : Int
  scale : Nat
  deriving Repr, DecidableEq

inductive DecimalError.Reason where
  | empty
  | exponent
  | digit
  | noDigits
  deriving Repr, DecidableEq

structure DecimalError where
  text : String
  reason : DecimalError.Reason
  deriving Repr, DecidableEq

def DecimalError.Reason.message : DecimalError.Reason → String
  | .empty => "empty"
  | .exponent => "exponent notation"
  | .digit => "invalid digit found in string"
  | .noDigits => "cannot parse integer from empty string"

def DecimalError.message (e : DecimalError) : String :=
  s!"invalid decimal {Text.quoted e.text}: {e.reason.message}"

namespace Decimal

/-- Digits with underscores among them, the first one bare, on top of `n`. -/
def readDigits (n : Nat) : List Char → Except DecimalError.Reason Nat
  | [] => .ok n
  | c :: rest =>
    if c = '_' then readDigits n rest
    else if c.isDigit then readDigits (n * 10 + (c.toNat - 0x30)) rest
    else .error .digit

/-- An unsigned integer; one plus sign may stand in front. -/
def readNatural (cs : List Char) : Except DecimalError.Reason Nat :=
  let cs := match cs with
    | '+' :: '+' :: _ => cs
    | '+' :: rest => rest
    | _ => cs
  match cs with
  | [] => .error .noDigits
  | '_' :: _ => .error .digit
  | _ => readDigits 0 cs

def readInteger : List Char → Except DecimalError.Reason Int
  | '-' :: '+' :: rest => (fun n => -(n : Int)) <$> readNatural ('-' :: '+' :: rest)
  | '-' :: rest => (fun n => -(n : Int)) <$> readNatural rest
  | cs => Int.ofNat <$> readNatural cs

/-- The characters around the first point, joined, and how many of them count as places. -/
def splitPoint (cs : List Char) : List Char × Nat :=
  let whole := cs.takeWhile (· ≠ '.')
  let places := (cs.dropWhile (· ≠ '.')).drop 1
  (whole ++ places, (places.filter (· ≠ '_')).length)

def read (cs : List Char) : Except DecimalError.Reason Decimal :=
  if cs.isEmpty then .error .empty
  else if cs.contains 'e' || cs.contains 'E' then .error .exponent
  else do
    let (digits, places) := splitPoint cs
    let n ← readInteger digits
    return ⟨n, places⟩

/-- Reads a decimal between blanks. The sign and the digits are read after the parts around the
point are joined. -/
def ofText? (text : String) : Except DecimalError Decimal :=
  match read (Text.trimChars text.toList) with
  | .ok d => .ok d
  | .error reason => .error ⟨text, reason⟩

/-- The digits of the unscaled number. -/
def digits (d : Decimal) : List Char := Nat.toDigits 10 d.unscaled.natAbs

/-- The digits with zeros in front, so that one stands before the point. -/
def paddedDigits (d : Decimal) : List Char :=
  List.replicate (d.scale + 1 - d.digits.length) '0' ++ d.digits

def chars (d : Decimal) : List Char :=
  let ds := d.paddedDigits
  let whole := ds.take (ds.length - d.scale)
  let places := ds.drop (ds.length - d.scale)
  (if d.unscaled < 0 then ['-'] else []) ++ whole ++ (if d.scale = 0 then [] else '.' :: places)

def text (d : Decimal) : String := String.ofList d.chars

instance : ToString Decimal := ⟨text⟩

/-- The order of the numbers, whatever their scales. -/
def compare (a b : Decimal) : Ordering :=
  Ord.compare (a.unscaled * Nat.pow 10 b.scale) (b.unscaled * Nat.pow 10 a.scale)

/-- Equality of the numbers. -/
def same (a b : Decimal) : Bool := a.compare b == .eq

end Decimal

end BlockFeed
