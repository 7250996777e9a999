import BlockFeed.Decode
import BlockFeed.Proofs.Decimal
import BlockFeed.Proofs.Json.Reading
import BlockFeed.Proofs.Subaccount
import BlockFeed.Proofs.Text.Base64

/-! The format of event payloads: which JSON trees stand for which values. -/

namespace BlockFeed.Payload.Format

open Json (Shape Content)

/-- A decimal is a string. -/
def decimal : Shape Decimal := fun n d => ∃ text, n = .string (.ok text) ∧ Decimal.Plain text d

/-- Octets are a string in base64; `null` has none. -/
def octets : Shape (List UInt8) := fun n bytes =>
  n = .null ∧ bytes = [] ∨ n = .string (.ok (String.ofList (Text.Base64.encode bytes)))

/-- A hash is known by its digits, none by the empty text. -/
def hash : Shape String := fun n text => ∃ bytes, octets n bytes ∧
  text = if bytes = [] then "" else String.ofList ('0' :: 'x' :: Text.Hex.encode bytes)

/-- An account is known by its address, none by the empty text. -/
def account : Shape String := fun n address => ∃ bytes, octets n bytes ∧
  if bytes = [] then address = "" else Text.Bech32.encode? "inj" bytes = some address

/-- The texts of a subaccount: at most 32 octets in base64, or the 64 digits of 32 octets in either
case. It is known by `0x` and the digits in lower case. -/
inductive SubaccountText : String → SubaccountId → Prop where
  | base64 {bytes : List UInt8} {id : SubaccountId} (hlen : bytes.length ≤ 32)
      (hid : id.text = String.ofList ('0' :: 'x' ::
        Text.Hex.encode (List.replicate (32 - bytes.length) 0 ++ bytes))) :
      SubaccountText (String.ofList (Text.Base64.encode bytes)) id
  | digits {cs : List Char} {bytes : List UInt8} {id : SubaccountId} (hlen : bytes.length = 32)
      (hcs : cs.map Char.toLower = Text.Hex.encode bytes)
      (hid : id.text = String.ofList ('0' :: 'x' :: Text.Hex.encode bytes)) :
      SubaccountText (String.ofList ('0' :: 'x' :: cs)) id

def subaccount : Shape SubaccountId := fun n id =>
  ∃ text, n = .string (.ok text) ∧ SubaccountText text id

/-- An order type goes by its name or by its number. -/
def orderType : Shape OrderType := fun n t =>
  n = .string (.ok t.name) ∨
    ∃ k, OrderType.all[k]? = some t ∧ n = .number ⟨false, Nat.toDigits 10 k, [], none⟩

def balances : Shape Balances := .record id fun get b =>
  get.Has "available_balance" decimal b.available ∧ get.Has "total_balance" decimal b.total

def depositEntry : Shape DepositEntry := .record id fun get d =>
  get.Has "subaccount_id" subaccount d.subaccount ∧ get.Has "deposit" balances d.balances

def denomDeposits : Shape DenomDeposits := .record id fun get u =>
  get.Has "denom" .string u.denom ∧ get.HasOr "deposits" (.list depositEntry) [] u.deposits

def orderInfo : Shape OrderInfo := .record id fun get o =>
  get.Has "subaccount_id" subaccount o.subaccount ∧
  get.HasOr "fee_recipient" .string "" o.feeRecipient ∧ get.Has "price" decimal o.price ∧
  get.Has "quantity" decimal o.quantity ∧ get.HasOr "cid" .string "" o.cid

def spotOrder : Shape SpotOrder := .record id fun get o =>
  get.Has "order_info" orderInfo o.info ∧ get.Has "order_type" orderType o.orderType ∧
  get.Has "fillable" decimal o.fillable ∧
  get.HasOr "trigger_price" (.nullable decimal) none o.triggerPrice ∧
  get.HasOr "order_hash" hash "" o.orderHash

def derivativeOrder : Shape DerivativeOrder := .record id fun get o =>
  get.Has "order_info" orderInfo o.info ∧ get.Has "order_type" orderType o.orderType ∧
  get.Has "margin" decimal o.margin ∧ get.Has "fillable" decimal o.fillable ∧
  get.HasOr "trigger_price" (.nullable decimal) none o.triggerPrice ∧
  get.HasOr "order_hash" hash "" o.orderHash

def marketOrder : Shape MarketOrder := .record id fun get o =>
  get.Has "order_info" orderInfo o.info ∧ get.Has "order_type" orderType o.orderType ∧
  get.Has "margin" decimal o.margin ∧
  get.HasOr "trigger_price" (.nullable decimal) none o.triggerPrice ∧
  get.HasOr "order_hash" hash "" o.orderHash

/-- What was left to fill of a market order is what was cancelled of it. -/
def marketOrderCancel : Shape DerivativeOrder := .record id fun get o => ∃ m quantity,
  get.Has "market_order" marketOrder m ∧ get.Has "cancel_quantity" decimal quantity ∧
  o = ⟨m.info, m.orderType, m.margin, quantity, m.triggerPrice, m.orderHash⟩

def spotFill : Shape SpotFill := .record id fun get f =>
  get.Has "quantity" decimal f.quantity ∧ get.Has "price" decimal f.price ∧
  get.Has "subaccount_id" subaccount f.subaccount ∧ get.Has "fee" decimal f.fee ∧
  get.HasOr "order_hash" hash "" f.orderHash ∧
  get.HasOr "fee_recipient_address" account "" f.feeRecipient ∧ get.HasOr "cid" .string "" f.cid

def positionDelta : Shape PositionDelta := .record id fun get p =>
  get.HasOr "is_long" .bool false p.isLong ∧ get.Has "execution_quantity" decimal p.quantity ∧
  get.Has "execution_margin" decimal p.margin ∧ get.Has "execution_price" decimal p.price

def derivativeFill : Shape DerivativeFill := .record id fun get f =>
  get.Has "subaccount_id" subaccount f.subaccount ∧
  get.HasOr "position_delta" (.nullable positionDelta) none f.positionDelta ∧
  get.Has "payout" decimal f.payout ∧ get.Has "fee" decimal f.fee ∧
  get.HasOr "order_hash" hash "" f.orderHash ∧
  get.HasOr "fee_recipient_address" account "" f.feeRecipient ∧ get.HasOr "cid" .string "" f.cid

/-- A position's direction goes by two keys. -/
def holdingKey (key : String) : String := if key = "isLong" then "is_long" else key

def holding : Shape Holding := .record holdingKey fun get p =>
  get.HasOr "is_long" .bool false p.isLong ∧ get.Has "quantity" decimal p.quantity ∧
  get.Has "entry_price" decimal p.entryPrice ∧ get.Has "margin" decimal p.margin ∧
  get.Has "cumulative_funding_entry" decimal p.cumulativeFundingEntry

def subaccountHolding : Shape SubaccountHolding := .record id fun get h =>
  get.Has "position" holding h.holding ∧ get.Has "subaccount_id" subaccount h.subaccount

def feedPrice : Shape FeedPrice := .record id fun get p =>
  get.Has "price_id" .string p.priceId ∧ get.Has "ema_price" decimal p.emaPrice

end BlockFeed.Payload.Format
