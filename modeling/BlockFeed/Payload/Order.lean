import BlockFeed.Payload.Scalar

/-! Deposits and orders as event payloads hold them. -/

namespace BlockFeed.Payload

open Json (Reader)
open Json.RecordReader

def balances : Reader Balances :=
  (Balances.mk <$> required "available_balance" decimal <*>
    required "total_balance" decimal).reader "DepositWire"

/-- The balances of one subaccount in a list for one denom. -/
structure DepositEntry where
  subaccount : SubaccountId
  balances : Balances

def depositEntry : Reader DepositEntry :=
  (DepositEntry.mk <$> required "subaccount_id" subaccount <*>
    required "deposit" balances).reader "DepositEntryWire"

/-- The balance changes in one denom. -/
structure DenomDeposits where
  denom : String
  deposits : List DepositEntry

def denomDeposits : Reader DenomDeposits :=
  (DenomDeposits.mk <$> required "denom" Reader.string <*>
    defaulted "deposits" (Reader.list depositEntry) []).reader "DepositUpdateWire"

def orderInfo : Reader OrderInfo :=
  (OrderInfo.mk <$> required "subaccount_id" subaccount <*>
    defaulted "fee_recipient" Reader.string "" <*> required "price" decimal <*>
    required "quantity" decimal <*> defaulted "cid" Reader.string "").reader "OrderInfoWire"

def spotOrder : Reader SpotOrder :=
  (SpotOrder.mk <$> required "order_info" orderInfo <*> required "order_type" orderType <*>
    required "fillable" decimal <*> defaulted "trigger_price" nullableDecimal none <*>
    defaulted "order_hash" hash "").reader "SpotOrderWire"

def derivativeOrder : Reader DerivativeOrder :=
  (DerivativeOrder.mk <$> required "order_info" orderInfo <*> required "order_type" orderType <*>
    required "margin" decimal <*> required "fillable" decimal <*>
    defaulted "trigger_price" nullableDecimal none <*>
    defaulted "order_hash" hash "").reader "DerivativeOrderWire"

/-- A market order, which has no fillable quantity until it is cancelled. -/
structure MarketOrder where
  info : OrderInfo
  orderType : OrderType
  margin : Decimal
  triggerPrice : Option Decimal
  orderHash : String

def marketOrder : Reader MarketOrder :=
  (MarketOrder.mk <$> required "order_info" orderInfo <*> required "order_type" orderType <*>
    required "margin" decimal <*> defaulted "trigger_price" nullableDecimal none <*>
    defaulted "order_hash" hash "").reader "DerivativeMarketOrderWire"

/-- The order of a market cancel: what is left to fill is what was cancelled. -/
def MarketOrder.cancelled (o : MarketOrder) (quantity : Decimal) : DerivativeOrder :=
  ⟨o.info, o.orderType, o.margin, quantity, o.triggerPrice, o.orderHash⟩

def marketOrderCancel : Reader DerivativeOrder :=
  (MarketOrder.cancelled <$> required "market_order" marketOrder <*>
    required "cancel_quantity" decimal).reader "MarketOrderCancelWire"

end BlockFeed.Payload
