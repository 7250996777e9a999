import BlockFeed.Decimal
import BlockFeed.Subaccount

/-! The records that events of a block decode into. -/

namespace BlockFeed

inductive OrderType where
  | unspecified
  | buy
  | sell
  | stopBuy
  | stopSell
  | takeBuy
  | takeSell
  | buyPo
  | sellPo
  | buyAtomic
  | sellAtomic
  deriving Repr, DecidableEq

namespace OrderType

/-- Every order type, each at its number. -/
def all : List OrderType :=
  [unspecified, buy, sell, stopBuy, stopSell, takeBuy, takeSell, buyPo, sellPo, buyAtomic,
   sellAtomic]

def name : OrderType → String
  | unspecified => "UNSPECIFIED"
  | buy => "BUY"
  | sell => "SELL"
  | stopBuy => "STOP_BUY"
  | stopSell => "STOP_SELL"
  | takeBuy => "TAKE_BUY"
  | takeSell => "TAKE_SELL"
  | buyPo => "BUY_PO"
  | sellPo => "SELL_PO"
  | buyAtomic => "BUY_ATOMIC"
  | sellAtomic => "SELL_ATOMIC"

def ofName? (s : String) : Option OrderType := all.find? (·.name = s)

def ofNumber? : Int → Option OrderType
  | .ofNat n => all[n]?
  | .negSucc _ => none

end OrderType

inductive OrderStatus where
  | booked
  | matched
  | cancelled
  deriving Repr, DecidableEq

def OrderStatus.name : OrderStatus → String
  | .booked => "booked"
  | .matched => "matched"
  | .cancelled => "cancelled"

/-- Where a price comes from. -/
inductive Oracle where
  | pyth
  | bandIbc
  | provider
  | priceFeed
  deriving Repr, DecidableEq

def Oracle.label : Oracle → String
  | .pyth => "pyth"
  | .bandIbc => "bandibc"
  | .provider => "provider"
  | .priceFeed => "pricefeed"

structure Balances where
  available : Decimal
  total : Decimal
  deriving DecidableEq

structure DenomBalances where
  denom : String
  balances : Balances
  deriving DecidableEq

/-- The balance changes of one subaccount. -/
structure DepositUpdate where
  subaccount : SubaccountId
  deposits : List DenomBalances
  deriving DecidableEq

structure OrderInfo where
  subaccount : SubaccountId
  feeRecipient : String
  price : Decimal
  quantity : Decimal
  cid : String
  deriving DecidableEq

structure SpotOrder where
  info : OrderInfo
  orderType : OrderType
  fillable : Decimal
  triggerPrice : Option Decimal
  orderHash : String
  deriving DecidableEq

structure SpotOrderUpdate where
  status : OrderStatus
  orderHash : String
  cid : String
  market : String
  order : SpotOrder
  deriving DecidableEq

structure DerivativeOrder where
  info : OrderInfo
  orderType : OrderType
  margin : Decimal
  fillable : Decimal
  triggerPrice : Option Decimal
  orderHash : String
  deriving DecidableEq

structure DerivativeOrderUpdate where
  status : OrderStatus
  orderHash : String
  cid : String
  market : String
  order : DerivativeOrder
  isMarket : Bool
  deriving DecidableEq

structure SpotTrade where
  market : String
  isBuy : Bool
  executionType : String
  quantity : Decimal
  price : Decimal
  subaccount : SubaccountId
  fee : Decimal
  orderHash : String
  feeRecipient : String
  cid : String
  tradeId : String
  deriving DecidableEq

structure PositionDelta where
  isLong : Bool
  quantity : Decimal
  margin : Decimal
  price : Decimal
  deriving DecidableEq

structure DerivativeTrade where
  market : String
  isBuy : Bool
  executionType : String
  subaccount : SubaccountId
  positionDelta : Option PositionDelta
  payout : Decimal
  fee : Decimal
  orderHash : String
  feeRecipient : String
  cid : String
  tradeId : String
  isLiquidation : Bool
  cumulativeFunding : Option Decimal
  deriving DecidableEq

structure Position where
  market : String
  subaccount : SubaccountId
  isLong : Bool
  quantity : Decimal
  entryPrice : Decimal
  margin : Decimal
  cumulativeFundingEntry : Decimal
  deriving DecidableEq

structure OraclePrice where
  symbol : String
  price : Decimal
  oracle : Oracle
  deriving DecidableEq

inductive Record where
  | deposit (update : DepositUpdate)
  | spotOrder (update : SpotOrderUpdate)
  | derivativeOrder (update : DerivativeOrderUpdate)
  | spotTrade (trade : SpotTrade)
  | derivativeTrade (trade : DerivativeTrade)
  | position (position : Position)
  | oraclePrice (price : OraclePrice)
  deriving DecidableEq

end BlockFeed
