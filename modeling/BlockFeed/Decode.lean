import BlockFeed.Event
import BlockFeed.Payload.Order
import BlockFeed.Payload.Trade

/-! Events decode into records. Every attribute a topic reads is read completely and in a fixed
order; the first that is missing or malformed fails the whole event. -/

namespace BlockFeed

/-- What is wrong with an attribute. -/
inductive DecodeError.Cause where
  | missing
  | malformed (fault : Json.Fault)
  | invalidDecimal (error : DecimalError)
  /-- A value, as its text, that is neither a string nor a number nor `null`. -/
  | notDecimal (value : String)
  | unpaired (prices symbols : Nat)
  deriving Repr, DecidableEq

inductive DecodeError where
  | unexpectedTopic (tag : String)
  | attribute (field : String) (cause : DecodeError.Cause)
  deriving Repr, DecidableEq

def DecodeError.Cause.message : DecodeError.Cause → String
  | .missing => "missing attribute"
  | .malformed f => f.message
  | .invalidDecimal e => e.message
  | .notDecimal v => s!"expected a decimal, got {v}"
  | .unpaired prices symbols => s!"{prices} prices for {symbols} symbols"

def DecodeError.message : DecodeError → String
  | .unexpectedTopic tag => s!"unexpected topic: {tag}"
  | .attribute field cause => s!"failed to decode {field}: {cause.message}"

/-- A result of decoding. -/
abbrev Decoded (α : Type) := Except DecodeError α

namespace Event

open Json (Reader)

/-- Only events of the topic `t` are read. -/
def expect (e : Event) (t : Topic) : Decoded Unit :=
  if e.tag = t.tag then .ok () else .error (.unexpectedTopic e.tag)

def parse {α : Type} (r : Reader α) (key value : String) : Decoded α :=
  match r.run value with
  | .ok a => .ok a
  | .error f => .error (.attribute key (.malformed f))

def required {α : Type} (e : Event) (key : String) (r : Reader α) : Decoded α :=
  match e.attribute? key with
  | none => .error (.attribute key .missing)
  | some value => parse r key value

/-- An attribute that is absent or `null` stands for `a`. -/
def optional {α : Type} (e : Event) (key : String) (r : Reader α) (a : α) : Decoded α :=
  match e.attribute? key with
  | none => .ok a
  | some value => (·.getD a) <$> parse (Reader.nullable r) key value

def decimalOf (key text : String) : Decoded Decimal :=
  match Decimal.ofText? text with
  | .ok d => .ok d
  | .error e => .error (.attribute key (.invalidDecimal e))

def requiredDecimal (e : Event) (key : String) : Decoded Decimal := do
  decimalOf key (← e.required key Reader.string)

/-- A decimal written as a string or as a bare number, if there is one. -/
def optionalDecimal (e : Event) (key : String) : Decoded (Option Decimal) := do
  match ← e.optional key Reader.any .null with
  | .null => return none
  | .string text => some <$> decimalOf key text
  | .number n => some <$> decimalOf key n.text
  | v => .error (.attribute key (.notDecimal v.text))

def market (e : Event) : Decoded String := e.required "market_id" Reader.string

end Event

/-- Updates by subaccount in the making, and the place of each subaccount among them. -/
structure DepositUpdate.Grouping where
  updates : List DepositUpdate
  slots : List (SubaccountId × Nat)

namespace DepositUpdate

namespace Grouping

def empty : Grouping := ⟨[], []⟩

/-- A subaccount that has no place yet gets one behind all others. -/
def slot (g : Grouping) (subaccount : SubaccountId) : Nat × Grouping :=
  match g.slots.lookup subaccount with
  | some i => (i, g)
  | none =>
    let i := g.updates.length
    (i, ⟨g.updates ++ [⟨subaccount, []⟩], (subaccount, i) :: g.slots⟩)

def add (g : Grouping) (subaccount : SubaccountId) (entry : DenomBalances) : Grouping :=
  let (i, g) := g.slot subaccount
  { g with updates := g.updates.modify i fun u => { u with deposits := u.deposits ++ [entry] } }

/-- Adds what a denom brings, entry by entry. -/
def addAll (g : Grouping) (u : Payload.DenomDeposits) : Grouping :=
  u.deposits.foldl (fun g d => g.add d.subaccount ⟨u.denom, d.balances⟩) g

end Grouping

/-- Regroups the entries of all denoms by subaccount. -/
def regroup (updates : List Payload.DenomDeposits) : List DepositUpdate :=
  (updates.foldl Grouping.addAll .empty).updates

end DepositUpdate

def SpotOrder.update (o : SpotOrder) (status : OrderStatus) (market : String) : SpotOrderUpdate :=
  ⟨status, o.orderHash, o.info.cid, market, o⟩

def DerivativeOrder.update (o : DerivativeOrder) (status : OrderStatus) (market : String)
    (isMarket : Bool) : DerivativeOrderUpdate :=
  ⟨status, o.orderHash, o.info.cid, market, o, isMarket⟩

namespace Decode

open Json (Reader)

def subaccountDeposits (e : Event) : Decoded (List DepositUpdate) := do
  e.expect .subaccountDeposit
  let updates ← e.optional "deposit_updates" (Reader.list Payload.denomDeposits) []
  return DepositUpdate.regroup updates

/-- Buys first, then sells. -/
def spotOrders (e : Event) : Decoded (List SpotOrderUpdate) := do
  e.expect .spotOrders
  let market ← e.market
  let buys ← e.optional "buy_orders" (Reader.list Payload.spotOrder) []
  let sells ← e.optional "sell_orders" (Reader.list Payload.spotOrder) []
  return (buys ++ sells).map (·.update .booked market)

def cancelSpotOrder (e : Event) : Decoded SpotOrderUpdate := do
  e.expect .cancelSpotOrder
  let market ← e.market
  let order ← e.required "order" Payload.spotOrder
  return order.update .cancelled market

def derivativeOrders (e : Event) : Decoded (List DerivativeOrderUpdate) := do
  e.expect .derivativeOrders
  let market ← e.market
  let buys ← e.optional "buy_orders" (Reader.list Payload.derivativeOrder) []
  let sells ← e.optional "sell_orders" (Reader.list Payload.derivativeOrder) []
  return (buys ++ sells).map (·.update .booked market false)

def cancelDerivativeOrder (e : Event) : Decoded DerivativeOrderUpdate := do
  e.expect .cancelDerivativeOrder
  let market ← e.market
  if ← e.optional "isLimitCancel" Reader.bool false then
    let order ← e.required "limit_order" Payload.derivativeOrder
    return order.update .cancelled market false
  else
    let order ← e.required "market_order_cancel" Payload.marketOrderCancel
    return order.update .cancelled market true

/-- Trades are numbered later, so they have no id yet. -/
def spotTrades (e : Event) : Decoded (List SpotTrade) := do
  e.expect .spotTrades
  let market ← e.market
  let isBuy ← e.optional "is_buy" Reader.bool false
  let executionType ← e.optional "executionType" Reader.string ""
  let fills ← e.optional "trades" (Reader.list Payload.spotFill) []
  return fills.map fun f =>
    { market, isBuy, executionType, quantity := f.quantity, price := f.price,
      subaccount := f.subaccount, fee := f.fee, orderHash := f.orderHash,
      feeRecipient := f.feeRecipient, cid := f.cid, tradeId := "" }

def derivativeTrades (e : Event) : Decoded (List DerivativeTrade) := do
  e.expect .derivativeTrades
  let market ← e.market
  let isBuy ← e.optional "is_buy" Reader.bool false
  let isLiquidation ← e.optional "is_liquidation" Reader.bool false
  let cumulativeFunding ← e.optionalDecimal "cumulative_funding"
  let executionType ← e.optional "executionType" Reader.string ""
  let fills ← e.optional "trades" (Reader.list Payload.derivativeFill) []
  return fills.map fun f =>
    { market, isBuy, executionType, subaccount := f.subaccount, positionDelta := f.positionDelta,
      payout := f.payout, fee := f.fee, orderHash := f.orderHash, feeRecipient := f.feeRecipient,
      cid := f.cid, tradeId := "", isLiquidation, cumulativeFunding }

def positions (e : Event) : Decoded (List Position) := do
  e.expect .positions
  let market ← e.market
  let holdings ← e.optional "positions" (Reader.list Payload.subaccountHolding) []
  return holdings.map fun h =>
    { market, subaccount := h.subaccount, isLong := h.holding.isLong,
      quantity := h.holding.quantity, entryPrice := h.holding.entryPrice,
      margin := h.holding.margin, cumulativeFundingEntry := h.holding.cumulativeFundingEntry }

/-- The symbol of a price is its feed, its price the moving average. -/
def pythPrices (e : Event) : Decoded (List OraclePrice) := do
  e.expect .pythPrices
  let prices ← e.optional "prices" (Reader.list Payload.feedPrice) []
  return prices.map fun p => ⟨p.priceId, p.emaPrice, .pyth⟩

/-- Symbols and prices are two lists, paired by position. -/
def bandIbcPrices (e : Event) : Decoded (List OraclePrice) := do
  e.expect .bandIbcPrices
  let symbols ← e.optional "symbols" (Reader.list Reader.string) []
  let prices ← e.optional "prices" (Reader.list Reader.string) []
  if symbols.length ≠ prices.length then
    .error (.attribute "prices" (.unpaired prices.length symbols.length))
  else
    (symbols.zip prices).mapM fun (symbol, price) => do
      return ⟨symbol, ← Event.decimalOf "prices" price, .bandIbc⟩

def providerPrice (e : Event) : Decoded OraclePrice := do
  e.expect .providerPrice
  let symbol ← e.required "symbol" Reader.string
  let price ← e.requiredDecimal "price"
  return ⟨symbol, price, .provider⟩

def priceFeedPrice (e : Event) : Decoded OraclePrice := do
  e.expect .priceFeedPrice
  let symbol ← e.required "base" Reader.string
  let price ← e.requiredDecimal "price"
  return ⟨symbol, price, .priceFeed⟩

/-- The records of an event of a topic. -/
def ofTopic (e : Event) : Topic → Decoded (List Record)
  | .subaccountDeposit => (·.map .deposit) <$> subaccountDeposits e
  | .spotOrders => (·.map .spotOrder) <$> spotOrders e
  | .derivativeOrders => (·.map .derivativeOrder) <$> derivativeOrders e
  | .cancelSpotOrder => (fun u => [.spotOrder u]) <$> cancelSpotOrder e
  | .cancelDerivativeOrder => (fun u => [.derivativeOrder u]) <$> cancelDerivativeOrder e
  | .spotTrades => (·.map .spotTrade) <$> spotTrades e
  | .derivativeTrades => (·.map .derivativeTrade) <$> derivativeTrades e
  | .positions => (·.map .position) <$> positions e
  | .pythPrices => (·.map .oraclePrice) <$> pythPrices e
  | .bandIbcPrices => (·.map .oraclePrice) <$> bandIbcPrices e
  | .providerPrice => (fun p => [.oraclePrice p]) <$> providerPrice e
  | .priceFeedPrice => (fun p => [.oraclePrice p]) <$> priceFeedPrice e

end Decode

/-- The records of an event, by the topic its tag names. -/
def Event.decode (e : Event) : Decoded (List Record) :=
  match Topic.ofTag? e.tag with
  | some t => Decode.ofTopic e t
  | none => .error (.unexpectedTopic e.tag)

end BlockFeed
