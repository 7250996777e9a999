import BlockFeed.Payload.Scalar

/-! Trades, positions and prices as event payloads hold them. -/

namespace BlockFeed.Payload

open Json (Reader)
open Json.RecordReader

structure SpotFill where
  quantity : Decimal
  price : Decimal
  subaccount : SubaccountId
  fee : Decimal
  orderHash : String
  feeRecipient : String
  cid : String

def spotFill : Reader SpotFill :=
  (SpotFill.mk <$> required "quantity" decimal <*> required "price" decimal <*>
    required "subaccount_id" subaccount <*> required "fee" decimal <*>
    defaulted "order_hash" hash "" <*> defaulted "fee_recipient_address" account "" <*>
    defaulted "cid" Reader.string "").reader "TradeLogWire"

def positionDelta : Reader PositionDelta :=
  (PositionDelta.mk <$> defaulted "is_long" Reader.bool false <*>
    required "execution_quantity" decimal <*> required "execution_margin" decimal <*>
    required "execution_price" decimal).reader "PositionDeltaWire"

structure DerivativeFill where
  subaccount : SubaccountId
  positionDelta : Option PositionDelta
  payout : Decimal
  fee : Decimal
  orderHash : String
  feeRecipient : String
  cid : String

def derivativeFill : Reader DerivativeFill :=
  (DerivativeFill.mk <$> required "subaccount_id" subaccount <*>
    defaulted "position_delta" (Reader.nullable positionDelta) none <*>
    required "payout" decimal <*> required "fee" decimal <*>
    defaulted "order_hash" hash "" <*> defaulted "fee_recipient_address" account "" <*>
    defaulted "cid" Reader.string "").reader "DerivativeTradeLogWire"

/-- A position apart from its market and its owner. -/
structure Holding where
  isLong : Bool
  quantity : Decimal
  entryPrice : Decimal
  margin : Decimal
  cumulativeFundingEntry : Decimal

def holding : Reader Holding :=
  (Holding.mk <$> aliased "is_long" "isLong" Reader.bool false <*> required "quantity" decimal <*>
    required "entry_price" decimal <*> required "margin" decimal <*>
    required "cumulative_funding_entry" decimal).reader "PositionWire"

structure SubaccountHolding where
  holding : Holding
  subaccount : SubaccountId

def subaccountHolding : Reader SubaccountHolding :=
  (SubaccountHolding.mk <$> required "position" holding <*>
    required "subaccount_id" subaccount).reader "SubaccountPositionWire"

structure FeedPrice where
  priceId : String
  emaPrice : Decimal

def feedPrice : Reader FeedPrice :=
  (FeedPrice.mk <$> required "price_id" Reader.string <*>
    required "ema_price" decimal).reader "PythPriceWire"

end BlockFeed.Payload
