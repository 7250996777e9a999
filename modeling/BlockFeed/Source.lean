import BlockFeed.Event.Text
import BlockFeed.Text.Blank
import BlockFeed.Text.Utf8

/-! Batches from a stream of octets, one JSON text a line. Blank lines are passed over, and a bad
line costs no more than itself. -/

namespace BlockFeed

inductive SourceError where
  /-- There is no such stream. -/
  | absent
  | notText (fault : Text.Utf8.Fault)
  | malformed (line : Nat) (fault : Json.Fault)
  deriving Repr, DecidableEq

def SourceError.message : SourceError → String
  | .absent => "failed to read event batch: No such file or directory (os error 2)"
  | .notText fault => s!"failed to read event batch: {fault.message}"
  | .malformed line fault => s!"invalid event batch on line {line}: {fault.message}"

/-- What is left of a stream, and how many lines of text have been read. -/
structure Source where
  rest : List UInt8
  line : Nat
  deriving Repr, DecidableEq

namespace Source

def ofOctets (bytes : List UInt8) : Source := ⟨bytes, 0⟩

/-- The first line, with its line feed if it has one, and all that follows. -/
def splitLine : List UInt8 → List UInt8 × List UInt8
  | [] => ([], [])
  | b :: rest => if b = 0x0A then ([b], rest) else ((b :: (splitLine rest).1), (splitLine rest).2)

theorem length_splitLine_le (bytes : List UInt8) : (splitLine bytes).2.length ≤ bytes.length := by
  induction bytes with
  | nil => simp [splitLine]
  | cons b rest ih =>
    simp only [splitLine]
    split <;> simp <;> omega

theorem length_splitLine_lt {bytes : List UInt8} (h : bytes ≠ []) :
    (splitLine bytes).2.length < bytes.length := by
  cases bytes with
  | nil => contradiction
  | cons b rest =>
    have := length_splitLine_le rest
    simp only [splitLine]
    split <;> simp <;> omega

/-- What the line numbered `line` holds, if it is not blank. -/
def readText (line : Nat) (text : List Char) : Option (Except SourceError Batch) :=
  match Text.trimChars text with
  | [] => none
  | trimmed => some ((Batch.ofText? (String.ofList trimmed)).mapError (.malformed line))

/-- The next batch or error; nothing at the end. -/
def next (s : Source) : Option (Except SourceError Batch) × Source :=
  if s.rest = [] then (none, s)
  else
    match Text.Utf8.decode (splitLine s.rest).1 with
    | .error fault => (some (.error (.notText fault)), ⟨(splitLine s.rest).2, s.line⟩)
    | .ok text =>
      match readText (s.line + 1) text with
      | some result => (some result, ⟨(splitLine s.rest).2, s.line + 1⟩)
      | none => next ⟨(splitLine s.rest).2, s.line + 1⟩
  termination_by s.rest.length
  decreasing_by exact length_splitLine_lt (by assumption)

end Source

end BlockFeed
