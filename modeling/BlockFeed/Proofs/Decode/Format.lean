import BlockFeed.Proofs.Deposit
import BlockFeed.Proofs.Payload.Format

/-! The format of events: what the attributes of each topic hold, and the records that an event
documents. -/

namespace BlockFeed.Event

open Json (Node Shape)
open Payload

variable {α : Type}

/-- The attribute's value is JSON for `a`. -/
def Holds (e : Event) (key : String) (s : Shape α) (a : α) : Prop :=
  ∃ text n, e.attribute? key = some text ∧ n.IsText text ∧ s n a

/-- An attribute that may be absent or `null`. -/
def MayHold (e : Event) (key : String) (s : Shape α) (a : Option α) : Prop :=
  e.attribute? key = none ∧ a = none ∨ e.Holds key (.nullable s) a

/-- An attribute that may be absent or `null` where `d` is meant. -/
def HoldsOr (e : Event) (key : String) (s : Shape α) (d a : α) : Prop :=
  ∃ held, e.MayHold key s held ∧ a = held.getD d

/-- The records that an event's attributes hold, one for each element in payload order; deposits
are one for each subaccount, where it first appears. -/
inductive Documents (e : Event) : List Record → Prop where
  | subaccountDeposit {updates : List DenomDeposits} (htag : e.tag = Topic.subaccountDeposit.tag)
      (hupdates : e.HoldsOr "deposit_updates" (.list Format.denomDeposits) [] updates) :
      Documents e ((DepositUpdate.bySubaccount (DepositUpdate.entries updates)).map .deposit)
  | spotOrders {market : String} {buys sells : List SpotOrder} (htag : e.tag = Topic.spotOrders.tag)
      (hmarket : e.Holds "market_id" .string market)
      (hbuys : e.HoldsOr "buy_orders" (.list Format.spotOrder) [] buys)
      (hsells : e.HoldsOr "sell_orders" (.list Format.spotOrder) [] sells) :
      Documents e ((buys ++ sells).map fun o =>
        .spotOrder ⟨.booked, o.orderHash, o.info.cid, market, o⟩)
  | derivativeOrders {market : String} {buys sells : List DerivativeOrder}
      (htag : e.tag = Topic.derivativeOrders.tag) (hmarket : e.Holds "market_id" .string market)
      (hbuys : e.HoldsOr "buy_orders" (.list Format.derivativeOrder) [] buys)
      (hsells : e.HoldsOr "sell_orders" (.list Format.derivativeOrder) [] sells) :
      Documents e ((buys ++ sells).map fun o =>
        .derivativeOrder ⟨.booked, o.orderHash, o.info.cid, market, o, false⟩)
  | cancelSpotOrder {market : String} {o : SpotOrder} (htag : e.tag = Topic.cancelSpotOrder.tag)
      (hmarket : e.Holds "market_id" .string market) (horder : e.Holds "order" Format.spotOrder o) :
      Documents e [.spotOrder ⟨.cancelled, o.orderHash, o.info.cid, market, o⟩]
  | cancelLimitOrder {market : String} {o : DerivativeOrder}
      (htag : e.tag = Topic.cancelDerivativeOrder.tag) (hmarket : e.Holds "market_id" .string market)
      (hlimit : e.HoldsOr "isLimitCancel" .bool false true)
      (horder : e.Holds "limit_order" Format.derivativeOrder o) :
      Documents e [.derivativeOrder ⟨.cancelled, o.orderHash, o.info.cid, market, o, false⟩]
  | cancelMarketOrder {market : String} {o : DerivativeOrder}
      (htag : e.tag = Topic.cancelDerivativeOrder.tag) (hmarket : e.Holds "market_id" .string market)
      (hlimit : e.HoldsOr "isLimitCancel" .bool false false)
      (horder : e.Holds "market_order_cancel" Format.marketOrderCancel o) :
      Documents e [.derivativeOrder ⟨.cancelled, o.orderHash, o.info.cid, market, o, true⟩]
  | spotTrades {market executionType : String} {isBuy : Bool} {fills : List SpotFill}
      (htag : e.tag = Topic.spotTrades.tag) (hmarket : e.Holds "market_id" .string market)
      (hbuy : e.HoldsOr "is_buy" .bool false isBuy)
      (htype : e.HoldsOr "executionType" .string "" executionType)
      (hfills : e.HoldsOr "trades" (.list Format.spotFill) [] fills) :
      Documents e (fills.map fun f => .spotTrade
        { market, isBuy, executionType, quantity := f.quantity, price := f.price,
          subaccount := f.subaccount, fee := f.fee, orderHash := f.orderHash,
          feeRecipient := f.feeRecipient, cid := f.cid, tradeId := "" })
  | derivativeTrades {market executionType : String} {isBuy isLiquidation : Bool}
      {cumulativeFunding : Option Decimal} {fills : List DerivativeFill}
      (htag : e.tag = Topic.derivativeTrades.tag) (hmarket : e.Holds "market_id" .string market)
      (hbuy : e.HoldsOr "is_buy" .bool false isBuy)
      (hliquidation : e.HoldsOr "is_liquidation" .bool false isLiquidation)
      (hfunding : e.MayHold "cumulative_funding" Format.decimal cumulativeFunding)
      (htype : e.HoldsOr "executionType" .string "" executionType)
      (hfills : e.HoldsOr "trades" (.list Format.derivativeFill) [] fills) :
      Documents e (fills.map fun f => .derivativeTrade
        { market, isBuy, executionType, subaccount := f.subaccount, positionDelta := f.positionDelta,
          payout := f.payout, fee := f.fee, orderHash := f.orderHash, feeRecipient := f.feeRecipient,
          cid := f.cid, tradeId := "", isLiquidation, cumulativeFunding })
  | positions {market : String} {holdings : List SubaccountHolding}
      (htag : e.tag = Topic.positions.tag) (hmarket : e.Holds "market_id" .string market)
      (hholdings : e.HoldsOr "positions" (.list Format.subaccountHolding) [] holdings) :
      Documents e (holdings.map fun h => .position
        { market, subaccount := h.subaccount, isLong := h.holding.isLong,
          quantity := h.holding.quantity, entryPrice := h.holding.entryPrice,
          margin := h.holding.margin, cumulativeFundingEntry := h.holding.cumulativeFundingEntry })
  | pythPrices {prices : List FeedPrice} (htag : e.tag = Topic.pythPrices.tag)
      (hprices : e.HoldsOr "prices" (.list Format.feedPrice) [] prices) :
      Documents e (prices.map fun p => .oraclePrice ⟨p.priceId, p.emaPrice, .pyth⟩)
  | bandIbcPrices {symbols : List String} {prices : List Decimal}
      (htag : e.tag = Topic.bandIbcPrices.tag)
      (hsymbols : e.HoldsOr "symbols" (.list .string) [] symbols)
      (hprices : e.HoldsOr "prices" (.list Format.decimal) [] prices)
      (hlen : symbols.length = prices.length) :
      Documents e ((symbols.zip prices).map fun p => .oraclePrice ⟨p.1, p.2, .bandIbc⟩)
  | providerPrice {symbol : String} {price : Decimal} (htag : e.tag = Topic.providerPrice.tag)
      (hsymbol : e.Holds "symbol" .string symbol) (hprice : e.Holds "price" Format.decimal price) :
      Documents e [.oraclePrice ⟨symbol, price, .provider⟩]
  | priceFeedPrice {base : String} {price : Decimal} (htag : e.tag = Topic.priceFeedPrice.tag)
      (hbase : e.Holds "base" .string base) (hprice : e.Holds "price" Format.decimal price) :
      Documents e [.oraclePrice ⟨base, price, .priceFeed⟩]

end BlockFeed.Event
