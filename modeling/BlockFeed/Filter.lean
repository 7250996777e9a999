import BlockFeed.Block.Index
import BlockFeed.Subaccount
import BlockFeed.Text.Blank

/-! The filter of one client: the markets and the subaccounts it asks for. Identifiers are kept in
the spelling that records carry. -/

namespace BlockFeed

structure StreamFilter where
  markets : List String
  subaccounts : List String
  deriving Repr, DecidableEq

inductive StreamFilterError where
  | emptyMarket
  | invalidSubaccount (value : String) (reason : IdentifierError)
  deriving Repr, DecidableEq

/-- The request field that is at fault. -/
def StreamFilterError.field : StreamFilterError → String
  | .emptyMarket => "market_ids"
  | .invalidSubaccount _ _ => "subaccount_ids"

def StreamFilterError.message : StreamFilterError → String
  | .emptyMarket => "market id filter entries must not be empty"
  | .invalidSubaccount value reason =>
    s!"invalid subaccount id {Text.quoted value}: {reason.message}"

namespace StreamFilter

def isHexDigit (c : Char) : Bool :=
  c.isDigit || ('a' ≤ c && c ≤ 'f') || ('A' ≤ c && c ≤ 'F')

/-- Identifiers in hex go to lower case; all others are kept as they are, blanks included. -/
def canonicalMarket (value : String) : String :=
  let canonical (digits : List Char) : String :=
    if !digits.isEmpty && digits.all isHexDigit then
      String.ofList ('0' :: 'x' :: digits.map Char.toLower)
    else value
  match Text.trimChars value.toList with
  | '0' :: 'x' :: digits => canonical digits
  | '0' :: 'X' :: digits => canonical digits
  | _ => value

def canonicalSubaccount (value : String) : Except StreamFilterError String :=
  if value = Index.wildcard then .ok value
  else match SubaccountId.ofText? (Text.trim value) with
    | .ok id => .ok id.text
    | .error e => .error (.invalidSubaccount value e)

/-- A filter from the lists of a request. A blank market is reported before any subaccount. -/
def ofRequest (markets subaccounts : List String) : Except StreamFilterError StreamFilter :=
  if markets.any fun m => (Text.trimChars m.toList).isEmpty then .error .emptyMarket
  else do
    let subaccounts ← subaccounts.mapM canonicalSubaccount
    return ⟨markets.map canonicalMarket, subaccounts⟩

/-- The filter that admits everything. -/
def all : StreamFilter := ⟨[], []⟩

def admitsSubaccount (f : StreamFilter) (id : SubaccountId) : Bool :=
  Index.isWildcard f.subaccounts || f.subaccounts.contains id.text

end StreamFilter

end BlockFeed
