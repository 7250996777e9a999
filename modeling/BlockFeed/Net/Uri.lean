import BlockFeed.Text.Utf8

/-! URIs, as far as a client needs them: which texts are one, and their parts. -/

namespace BlockFeed.Net

/-- The parts of a URI. The path keeps its query, and is empty where there is only an authority. -/
structure Uri where
  scheme : Option (List UInt8)
  authority : List UInt8
  path : List UInt8
  deriving Repr, DecidableEq

namespace Uri

def octets (s : String) : List UInt8 := Text.Utf8.encode s

def isLetter (b : UInt8) : Bool := (0x41 ≤ b && b ≤ 0x5A) || (0x61 ≤ b && b ≤ 0x7A)

def isDigit (b : UInt8) : Bool := 0x30 ≤ b && b ≤ 0x39

def isSchemeOctet (b : UInt8) : Bool := isLetter b || isDigit b || (octets "+-.~").contains b

/-- What may stand in an authority, a percent sign aside. -/
def isAuthorityOctet (b : UInt8) : Bool :=
  isLetter b || isDigit b || (octets "!$&'()*+,-.:;=@[]_~").contains b

def endsAuthority (b : UInt8) : Bool := (octets "/?#").contains b

def isPathOctet (b : UInt8) : Bool :=
  b == 0x21 || b == 0x22 || (0x24 ≤ b && b ≤ 0x3B) || b == 0x3D || (0x40 ≤ b && b ≤ 0x5F) ||
    0x61 ≤ b

def isQueryOctet (b : UInt8) : Bool :=
  b == 0x21 || (0x24 ≤ b && b ≤ 0x3B) || b == 0x3D || 0x3F ≤ b

/-- What an authority has shown so far. A colon or percent sign inside a user name or brackets does
not count. -/
structure Seen where
  colons : Nat
  opened : Bool
  closed : Bool
  percent : Bool
  /-- The last octet was an at sign. -/
  userEnds : Bool

def Seen.step (s : Seen) (b : UInt8) : Option Seen :=
  let s := { s with userEnds := false }
  if b = 0x3A then if 8 ≤ s.colons then none else some { s with colons := s.colons + 1 }
  else if b = 0x5B then if s.percent || s.opened then none else some { s with opened := true }
  else if b = 0x5D then
    if !s.opened || s.closed then none
    else some { s with closed := true, colons := 0, percent := false }
  else if b = 0x40 then some { s with colons := 0, percent := false, userEnds := true }
  else if b = 0x25 then some { s with percent := true }
  else if isAuthorityOctet b then some s
  else none

def isAuthority (bytes : List UInt8) : Bool :=
  match bytes.foldlM Seen.step ⟨0, false, false, false, false⟩ with
  | some s => s.opened == s.closed && s.colons ≤ 1 && !s.userEnds && !s.percent
  | none => false

/-- The path up to a fragment, if all octets are allowed. -/
def path? (bytes : List UInt8) : Option (List UInt8) :=
  let path := bytes.takeWhile fun b => b != 0x3F && b != 0x23
  match bytes.drop path.length with
  | 0x3F :: rest =>
    let query := rest.takeWhile (· != 0x23)
    if path.all isPathOctet && query.all isQueryOctet then some (path ++ 0x3F :: query) else none
  | _ => if path.all isPathOctet then some path else none

/-- The scheme before `://` and what follows it. -/
def splitScheme? (bytes : List UInt8) : Option (List UInt8 × List UInt8) :=
  match bytes.dropWhile isSchemeOctet with
  | 0x3A :: 0x2F :: 0x2F :: rest => some (bytes.takeWhile isSchemeOctet, rest)
  | _ => none

def ofText? (s : String) : Option Uri :=
  let bytes := octets s
  match bytes with
  | [] => none
  | [0x2A] => some ⟨none, [], [0x2A]⟩
  | 0x2F :: _ => (path? bytes).map fun path => ⟨none, [], path⟩
  | _ =>
    match splitScheme? bytes with
    | none => if isAuthority bytes then some ⟨none, bytes, []⟩ else none
    | some (scheme, rest) =>
      let authority := rest.takeWhile fun b => !endsAuthority b
      if authority.isEmpty || 64 < scheme.length || !isAuthority authority then none
      else (path? (rest.drop authority.length)).map fun path => ⟨some scheme, authority, path⟩

/-- The path without its query. -/
def route (uri : Uri) : List UInt8 :=
  match uri.path.takeWhile (· != 0x3F) with
  | [] => octets "/"
  | path => path

end Uri

end BlockFeed.Net
