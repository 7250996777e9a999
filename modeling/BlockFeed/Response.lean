import BlockFeed.Block

/-! What is sent to a client: a request, and the response that carries one block. Decimals and
identifiers go as text. -/

namespace BlockFeed

structure Request where
  markets : List String
  subaccounts : List String
  deriving Repr, DecidableEq

namespace Response

structure Balances where
  available : String
  total : String
  deriving Repr, DecidableEq

structure DenomBalances where
  denom : String
  balances : Option Balances
  deriving Repr, DecidableEq

structure DepositUpdate where
  subaccount : String
  deposits : List DenomBalances
  deriving Repr, DecidableEq

structure OrderInfo where
  subaccount : String
  feeRecipient : String
  price : String
  quantity : String
  cid : String
  deriving Repr, DecidableEq

structure SpotOrder where
  market : String
  info : Option OrderInfo
  orderType : String
  fillable : String
  triggerPrice : Option String
  orderHash : String
  deriving Repr, DecidableEq

structure SpotOrderUpdate where
  status : Int32
  orderHash : String
  cid : String
  order : Option SpotOrder
  deriving DecidableEq

structure DerivativeOrder where
  market : String
  info : Option OrderInfo
  orderType : String
  margin : String
  fillable : String
  triggerPrice : Option String
  orderHash : String
  isMarket : Bool
  deriving Repr, DecidableEq

structure DerivativeOrderUpdate where
  status : Int32
  orderHash : String
  cid : String
  order : Option DerivativeOrder
  deriving DecidableEq

structure SpotTrade where
  market : String
  isBuy : Bool
  executionType : String
  quantity : String
  price : String
  subaccount : String
  fee : String
  orderHash : String
  feeRecipient : String
  cid : String
  tradeId : String
  deriving Repr, DecidableEq

structure PositionDelta where
  isLong : Bool
  quantity : String
  margin : String
  price : String
  deriving Repr, DecidableEq

structure DerivativeTrade where
  market : String
  isBuy : Bool
  executionType : String
  subaccount : String
  positionDelta : Option PositionDelta
  payout : String
  fee : String
  orderHash : String
  feeRecipient : String
  cid : String
  tradeId : String
  isLiquidation : Bool
  deriving Repr, DecidableEq

structure Position where
  market : String
  subaccount : String
  isLong : Bool
  quantity : String
  entryPrice : String
  margin : String
  cumulativeFundingEntry : String
  deriving Repr, DecidableEq

structure OraclePrice where
  symbol : String
  price : String
  oracle : String
  deriving Repr, DecidableEq

end Response

structure Response where
  height : UInt64
  deposits : List Response.DepositUpdate
  spotOrders : List Response.SpotOrderUpdate
  derivativeOrders : List Response.DerivativeOrderUpdate
  spotTrades : List Response.SpotTrade
  derivativeTrades : List Response.DerivativeTrade
  positions : List Response.Position
  oraclePrices : List Response.OraclePrice
  deriving DecidableEq

/-- The number of a status and its name on the wire. -/
def OrderStatus.number : OrderStatus → Int32
  | .booked => 1
  | .matched => 2
  | .cancelled => 3

/-- The names that statuses have on the wire, each at its number; the first stands for none. -/
def OrderStatus.wireNames : List String :=
  ["ORDER_UPDATE_STATUS_UNSPECIFIED", "ORDER_UPDATE_STATUS_BOOKED", "ORDER_UPDATE_STATUS_MATCHED",
   "ORDER_UPDATE_STATUS_CANCELLED"]

namespace Response

def Balances.of (b : BlockFeed.Balances) : Balances := ⟨b.available.text, b.total.text⟩

def DenomBalances.of (d : BlockFeed.DenomBalances) : DenomBalances :=
  ⟨d.denom, some (Balances.of d.balances)⟩

def DepositUpdate.of (u : BlockFeed.DepositUpdate) : DepositUpdate :=
  ⟨u.subaccount.text, u.deposits.map DenomBalances.of⟩

def OrderInfo.of (i : BlockFeed.OrderInfo) : OrderInfo :=
  ⟨i.subaccount.text, i.feeRecipient, i.price.text, i.quantity.text, i.cid⟩

def SpotOrderUpdate.of (u : BlockFeed.SpotOrderUpdate) : SpotOrderUpdate where
  status := u.status.number
  orderHash := u.orderHash
  cid := u.cid
  order := some {
    market := u.market
    info := some (OrderInfo.of u.order.info)
    orderType := u.order.orderType.name
    fillable := u.order.fillable.text
    triggerPrice := u.order.triggerPrice.map Decimal.text
    orderHash := u.order.orderHash }

def DerivativeOrderUpdate.of (u : BlockFeed.DerivativeOrderUpdate) : DerivativeOrderUpdate where
  status := u.status.number
  orderHash := u.orderHash
  cid := u.cid
  order := some {
    market := u.market
    info := some (OrderInfo.of u.order.info)
    orderType := u.order.orderType.name
    margin := u.order.margin.text
    fillable := u.order.fillable.text
    triggerPrice := u.order.triggerPrice.map Decimal.text
    orderHash := u.order.orderHash
    isMarket := u.isMarket }

def SpotTrade.of (t : BlockFeed.SpotTrade) : SpotTrade where
  market := t.market
  isBuy := t.isBuy
  executionType := t.executionType
  quantity := t.quantity.text
  price := t.price.text
  subaccount := t.subaccount.text
  fee := t.fee.text
  orderHash := t.orderHash
  feeRecipient := t.feeRecipient
  cid := t.cid
  tradeId := t.tradeId

def PositionDelta.of (d : BlockFeed.PositionDelta) : PositionDelta :=
  ⟨d.isLong, d.quantity.text, d.margin.text, d.price.text⟩

/-- The funding that a trade carries is not sent. -/
def DerivativeTrade.of (t : BlockFeed.DerivativeTrade) : DerivativeTrade where
  market := t.market
  isBuy := t.isBuy
  executionType := t.executionType
  subaccount := t.subaccount.text
  positionDelta := t.positionDelta.map PositionDelta.of
  payout := t.payout.text
  fee := t.fee.text
  orderHash := t.orderHash
  feeRecipient := t.feeRecipient
  cid := t.cid
  tradeId := t.tradeId
  isLiquidation := t.isLiquidation

def Position.of (p : BlockFeed.Position) : Position where
  market := p.market
  subaccount := p.subaccount.text
  isLong := p.isLong
  quantity := p.quantity.text
  entryPrice := p.entryPrice.text
  margin := p.margin.text
  cumulativeFundingEntry := p.cumulativeFundingEntry.text

def OraclePrice.of (p : BlockFeed.OraclePrice) : OraclePrice :=
  ⟨p.symbol, p.price.text, p.oracle.label⟩

def ofSelection (s : Selection) : Response where
  height := s.height
  deposits := s.deposits.map DepositUpdate.of
  spotOrders := s.spotOrders.map SpotOrderUpdate.of
  derivativeOrders := s.derivativeOrders.map DerivativeOrderUpdate.of
  spotTrades := s.spotTrades.map SpotTrade.of
  derivativeTrades := s.derivativeTrades.map DerivativeTrade.of
  positions := s.positions.map Position.of
  oraclePrices := s.oraclePrices.map OraclePrice.of

end Response

end BlockFeed
