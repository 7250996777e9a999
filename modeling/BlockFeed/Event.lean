/-! The raw events of a block: tagged lists of attributes. -/

namespace BlockFeed

structure Attribute where
  key : String
  value : String
  index : Bool
  deriving Repr, DecidableEq

structure Event where
  tag : String
  attributes : List Attribute
  deriving Repr, DecidableEq

/-- Everything that is emitted for one block. -/
structure Batch where
  height : UInt64
  events : List Event
  deriving Repr, DecidableEq

/-- An attribute that is indexed. -/
def Attribute.indexed (key value : String) : Attribute := ⟨key, value, true⟩

/-- The value of the first attribute of that key. -/
def Event.attribute? (e : Event) (key : String) : Option String :=
  (e.attributes.find? (·.key = key)).map (·.value)

inductive Topic where
  | subaccountDeposit
  | spotOrders
  | derivativeOrders
  | cancelSpotOrder
  | cancelDerivativeOrder
  | spotTrades
  | derivativeTrades
  | positions
  | pythPrices
  | bandIbcPrices
  | providerPrice
  | priceFeedPrice
  deriving Repr, DecidableEq

namespace Topic

def all : List Topic :=
  [subaccountDeposit, spotOrders, derivativeOrders, cancelSpotOrder, cancelDerivativeOrder,
   spotTrades, derivativeTrades, positions, pythPrices, bandIbcPrices, providerPrice,
   priceFeedPrice]

/-- The type tag of the topic's events. -/
def tag : Topic → String
  | subaccountDeposit => "injective.exchange.v1beta1.EventBatchDepositUpdate"
  | spotOrders => "injective.exchange.v1beta1.EventNewSpotOrders"
  | derivativeOrders => "injective.exchange.v1beta1.EventNewDerivativeOrders"
  | cancelSpotOrder => "injective.exchange.v1beta1.EventCancelSpotOrder"
  | cancelDerivativeOrder => "injective.exchange.v1beta1.EventCancelDerivativeOrder"
  | spotTrades => "injective.exchange.v1beta1.EventBatchSpotExecution"
  | derivativeTrades => "injective.exchange.v1beta1.EventBatchDerivativeExecution"
  | positions => "injective.exchange.v1beta1.EventBatchDerivativePosition"
  | pythPrices => "injective.oracle.v1beta1.EventSetPythPrices"
  | bandIbcPrices => "injective.oracle.v1beta1.SetBandIBCPriceEvent"
  | providerPrice => "injective.oracle.v1beta1.SetProviderPriceEvent"
  | priceFeedPrice => "injective.oracle.v1beta1.SetPriceFeedPriceEvent"

/-- The short name in metrics. -/
def label : Topic → String
  | subaccountDeposit => "subaccount_deposit"
  | spotOrders => "spot_orders"
  | derivativeOrders => "derivative_orders"
  | cancelSpotOrder => "cancel_spot_order"
  | cancelDerivativeOrder => "cancel_derivative_order"
  | spotTrades => "batch_spot_execution"
  | derivativeTrades => "batch_derivative_execution"
  | positions => "batch_derivative_position"
  | pythPrices => "pyth_prices"
  | bandIbcPrices => "band_ibc_prices"
  | providerPrice => "provider_price"
  | priceFeedPrice => "price_feed_price"

def ofTag? (tag : String) : Option Topic := all.find? (·.tag = tag)

end Topic

end BlockFeed
