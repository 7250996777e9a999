import BlockFeed.Settings

/-! Which log events pass. A filter is a list of directives, of which the one with the longest
target that begins an event's own target judges it. -/

namespace BlockFeed

inductive LogLevel where
  | error
  | warn
  | info
  | debug
  | trace
  deriving Repr, DecidableEq

namespace LogLevel

def all : List LogLevel := [error, warn, info, debug, trace]

/-- The verbosity; none at all is 0. -/
def rank : LogLevel → Nat
  | error => 1
  | warn => 2
  | info => 3
  | debug => 4
  | trace => 5

def name : LogLevel → String
  | error => "ERROR"
  | warn => "WARN"
  | info => "INFO"
  | debug => "DEBUG"
  | trace => "TRACE"

end LogLevel

/-- Something that may be logged. -/
structure LogEvent where
  target : String
  level : LogLevel
  fields : List String

structure LogDirective where
  /-- No target stands for all of them. -/
  target : Option String
  /-- Judges only what happens inside certain spans. -/
  spanOnly : Bool
  /-- Judges only events with all these fields. -/
  fields : List String
  /-- The highest rank that passes. -/
  rank : Nat
  deriving Repr, DecidableEq

namespace LogDirective

/-- A level by its number or its name, in any letter case. -/
def rank? (text : List Char) : Option Nat :=
  match Text.natBelow? UInt64.size text with
  | some n => if n ≤ 5 then some n else none
  | none =>
    let word := (String.ofList text).map Char.toUpper
    if word = "OFF" then some 0
    else (LogLevel.all.find? (·.name = word)).map LogLevel.rank

/-- Splits a text before the first of some characters. -/
def splitBefore (marks : List Char) (text : List Char) : List Char × List Char :=
  (text.takeWhile fun c => !marks.contains c, text.dropWhile fun c => !marks.contains c)

/-- The fields between braces, each perhaps with a value. -/
def fields? (text : List Char) : Option (List (String × Bool)) :=
  let fields := (String.ofList text).splitOn ","
  if fields.contains "" then none
  else some (fields.map fun f => (((f.splitOn "=").head?).getD f, f.contains '='))

/-- What stands in brackets, as the fields it names and whether it is about spans, and what follows
the brackets. -/
def span? (text : List Char) : Option ((List String × Bool) × List Char) :=
  match splitBefore [']', '\x7b'] text with
  | (_, ']' :: rest) => some (([], true), rest)
  | (name, _ :: inner) =>
    match splitBefore ['\x7d'] inner with
    | (fields, _ :: ']' :: rest) => do
      let fields ← fields? fields
      return ((fields.map Prod.fst, !name.isEmpty || fields.any Prod.snd), rest)
    | _ => none
  | _ => none

/-- What a directive may begin with. -/
def opens (c : Char) : Bool := c.isAlphanum || c == '-' || c == ':' || c == '_' || c == '['

/-- Reads `target=level`, `target` or `level`; a target may end in brackets that tell spans and
fields. Blanks belong to what they stand beside. -/
def ofText? (text : List Char) : Option LogDirective :=
  let (target, rest) := splitBefore ['=', '['] text
  let named := if target.isEmpty then none else some (String.ofList target)
  let level (d : LogDirective) : List Char → Option LogDirective
    | [] => some d
    | '=' :: word =>
      if text.head?.any Text.isBlank then none
      else if word.isEmpty then some d
      else (rank? word).map ({ d with rank := · })
    | _ => none
  if !((Text.trimChars text).head?.any opens) then none
  else match rest with
    | [] => match rank? target with
      | some rank => some ⟨none, false, [], rank⟩
      | none => some ⟨named, false, [], 5⟩
    | '[' :: inner => do
      let ((fields, spanOnly), rest) ← span? inner
      level ⟨named, spanOnly, fields, 5⟩ rest
    | rest => level ⟨named, false, [], 5⟩ rest

def judges (d : LogDirective) (e : LogEvent) : Bool :=
  !d.spanOnly && d.target.all (fun t => t.toList.isPrefixOf e.target.toList) &&
    d.fields.all e.fields.contains

/-- The order in which directives are asked: the longer target first, then the more fields. -/
def before (a b : LogDirective) : Bool :=
  let size (d : LogDirective) : Nat := (d.target.map fun t => t.utf8ByteSize + 1).getD 0
  if size a ≠ size b then size b < size a
  else if a.fields.length ≠ b.fields.length then b.fields.length < a.fields.length
  else b.fields < a.fields

end LogDirective

/-- The directives of a filter. Of two for the same target and fields, the later one counts. -/
structure LogFilter where
  directives : List LogDirective
  deriving Repr, DecidableEq

namespace LogFilter

/-- The directives that are always in force. -/
def builtIn : List LogDirective :=
  [⟨some "chain_stream", false, [], 3⟩, ⟨some "tower", false, [], 2⟩, ⟨some "h2", false, [], 2⟩,
   ⟨some "hyper", false, [], 2⟩]

/-- Directives between commas, with the built-in ones on top. Those that cannot be read are left out,
and if none is left, errors pass. -/
def ofText (text : String) : LogFilter :=
  let read := ((text.splitOn ",").map String.toList).filterMap LogDirective.ofText?
  ⟨(if read.isEmpty then [⟨none, false, [], 1⟩] else read) ++ builtIn⟩

def ofLookup (lookup : String → Option String) : LogFilter := ofText ((lookup "RUST_LOG").getD "")

/-- The directive that judges an event: the first in order, and the last of its like. -/
def judge? (f : LogFilter) (e : LogEvent) : Option LogDirective :=
  (f.directives.filter (·.judges e)).foldl (fun best d => match best with
    | some b => if b.before d then some b else some d
    | none => some d) none

def passes (f : LogFilter) (e : LogEvent) : Bool :=
  (f.judge? e).any fun d => e.level.rank ≤ d.rank

end LogFilter

end BlockFeed
