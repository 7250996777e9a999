import BlockFeed.Protobuf.Message
import BlockFeed.Response

/-! Requests and responses as Protocol Buffers: the number, name and type of every field. -/

namespace BlockFeed

open Protobuf

def Request.message : Message Request where
  name := "StreamRequest"
  empty := ⟨[], []⟩
  fields := [
    .strings 1 "market_ids" (·.markets) fun r v => { r with markets := v },
    .strings 2 "subaccount_ids" (·.subaccounts) fun r v => { r with subaccounts := v }]

namespace Response

def Balances.message : Message Balances where
  name := "Deposit"
  empty := ⟨"", ""⟩
  fields := [
    .string 1 "available_balance" (·.available) fun b v => { b with available := v },
    .string 2 "total_balance" (·.total) fun b v => { b with total := v }]

def DenomBalances.message : Message DenomBalances where
  name := "SubaccountDeposit"
  empty := ⟨"", none⟩
  fields := [
    .string 1 "denom" (·.denom) fun d v => { d with denom := v },
    .message Balances.message 2 "deposit" (·.balances) fun d v => { d with balances := v }]

def DepositUpdate.message : Message DepositUpdate where
  name := "SubaccountDeposits"
  empty := ⟨"", []⟩
  fields := [
    .string 1 "subaccount_id" (·.subaccount) fun u v => { u with subaccount := v },
    .messages DenomBalances.message 2 "deposits" (·.deposits) fun u v => { u with deposits := v }]

def OrderInfo.message : Message OrderInfo where
  name := "OrderInfo"
  empty := ⟨"", "", "", "", ""⟩
  fields := [
    .string 1 "subaccount_id" (·.subaccount) fun i v => { i with subaccount := v },
    .string 2 "fee_recipient" (·.feeRecipient) fun i v => { i with feeRecipient := v },
    .string 3 "price" (·.price) fun i v => { i with price := v },
    .string 4 "quantity" (·.quantity) fun i v => { i with quantity := v },
    .string 5 "cid" (·.cid) fun i v => { i with cid := v }]

def SpotOrder.message : Message SpotOrder where
  name := "SpotOrder"
  empty := ⟨"", none, "", "", none, ""⟩
  fields := [
    .string 1 "market_id" (·.market) fun o v => { o with market := v },
    .message OrderInfo.message 2 "order_info" (·.info) fun o v => { o with info := v },
    .string 3 "order_type" (·.orderType) fun o v => { o with orderType := v },
    .string 4 "fillable" (·.fillable) fun o v => { o with fillable := v },
    .optionalString 5 "trigger_price" (·.triggerPrice) fun o v => { o with triggerPrice := v },
    .string 6 "order_hash" (·.orderHash) fun o v => { o with orderHash := v }]

def SpotOrderUpdate.message : Message SpotOrderUpdate where
  name := "SpotOrderUpdate"
  empty := ⟨0, "", "", none⟩
  fields := [
    .enumeration 1 "status" (·.status) fun u v => { u with status := v },
    .string 2 "order_hash" (·.orderHash) fun u v => { u with orderHash := v },
    .string 3 "cid" (·.cid) fun u v => { u with cid := v },
    .message SpotOrder.message 4 "order" (·.order) fun u v => { u with order := v }]

def DerivativeOrder.message : Message DerivativeOrder where
  name := "DerivativeOrder"
  empty := ⟨"", none, "", "", "", none, "", false⟩
  fields := [
    .string 1 "market_id" (·.market) fun o v => { o with market := v },
    .message OrderInfo.message 2 "order_info" (·.info) fun o v => { o with info := v },
    .string 3 "order_type" (·.orderType) fun o v => { o with orderType := v },
    .string 4 "margin" (·.margin) fun o v => { o with margin := v },
    .string 5 "fillable" (·.fillable) fun o v => { o with fillable := v },
    .optionalString 6 "trigger_price" (·.triggerPrice) fun o v => { o with triggerPrice := v },
    .string 7 "order_hash" (·.orderHash) fun o v => { o with orderHash := v },
    .bool 8 "is_market" (·.isMarket) fun o v => { o with isMarket := v }]

def DerivativeOrderUpdate.message : Message DerivativeOrderUpdate where
  name := "DerivativeOrderUpdate"
  empty := ⟨0, "", "", none⟩
  fields := [
    .enumeration 1 "status" (·.status) fun u v => { u with status := v },
    .string 2 "order_hash" (·.orderHash) fun u v => { u with orderHash := v },
    .string 3 "cid" (·.cid) fun u v => { u with cid := v },
    .message DerivativeOrder.message 4 "order" (·.order) fun u v => { u with order := v }]

def SpotTrade.message : Message SpotTrade where
  name := "SpotTrade"
  empty := ⟨"", false, "", "", "", "", "", "", "", "", ""⟩
  fields := [
    .string 1 "market_id" (·.market) fun t v => { t with market := v },
    .bool 2 "is_buy" (·.isBuy) fun t v => { t with isBuy := v },
    .string 3 "execution_type" (·.executionType) fun t v => { t with executionType := v },
    .string 4 "quantity" (·.quantity) fun t v => { t with quantity := v },
    .string 5 "price" (·.price) fun t v => { t with price := v },
    .string 6 "subaccount_id" (·.subaccount) fun t v => { t with subaccount := v },
    .string 7 "fee" (·.fee) fun t v => { t with fee := v },
    .string 8 "order_hash" (·.orderHash) fun t v => { t with orderHash := v },
    .string 9 "fee_recipient_address" (·.feeRecipient) fun t v => { t with feeRecipient := v },
    .string 10 "cid" (·.cid) fun t v => { t with cid := v },
    .string 11 "trade_id" (·.tradeId) fun t v => { t with tradeId := v }]

def PositionDelta.message : Message PositionDelta where
  name := "PositionDelta"
  empty := ⟨false, "", "", ""⟩
  fields := [
    .bool 1 "is_long" (·.isLong) fun d v => { d with isLong := v },
    .string 2 "execution_quantity" (·.quantity) fun d v => { d with quantity := v },
    .string 3 "execution_margin" (·.margin) fun d v => { d with margin := v },
    .string 4 "execution_price" (·.price) fun d v => { d with price := v }]

def DerivativeTrade.message : Message DerivativeTrade where
  name := "DerivativeTrade"
  empty := ⟨"", false, "", "", none, "", "", "", "", "", "", false⟩
  fields := [
    .string 1 "market_id" (·.market) fun t v => { t with market := v },
    .bool 2 "is_buy" (·.isBuy) fun t v => { t with isBuy := v },
    .string 3 "execution_type" (·.executionType) fun t v => { t with executionType := v },
    .string 4 "subaccount_id" (·.subaccount) fun t v => { t with subaccount := v },
    .message PositionDelta.message 5 "position_delta" (·.positionDelta)
      fun t v => { t with positionDelta := v },
    .string 6 "payout" (·.payout) fun t v => { t with payout := v },
    .string 7 "fee" (·.fee) fun t v => { t with fee := v },
    .string 8 "order_hash" (·.orderHash) fun t v => { t with orderHash := v },
    .string 9 "fee_recipient_address" (·.feeRecipient) fun t v => { t with feeRecipient := v },
    .string 10 "cid" (·.cid) fun t v => { t with cid := v },
    .string 11 "trade_id" (·.tradeId) fun t v => { t with tradeId := v },
    .bool 12 "is_liquidation" (·.isLiquidation) fun t v => { t with isLiquidation := v }]

def Position.message : Message Position where
  name := "Position"
  empty := ⟨"", "", false, "", "", "", ""⟩
  fields := [
    .string 1 "market_id" (·.market) fun p v => { p with market := v },
    .string 2 "subaccount_id" (·.subaccount) fun p v => { p with subaccount := v },
    .bool 3 "is_long" (·.isLong) fun p v => { p with isLong := v },
    .string 4 "quantity" (·.quantity) fun p v => { p with quantity := v },
    .string 5 "entry_price" (·.entryPrice) fun p v => { p with entryPrice := v },
    .string 6 "margin" (·.margin) fun p v => { p with margin := v },
    .string 7 "cumulative_funding_entry" (·.cumulativeFundingEntry)
      fun p v => { p with cumulativeFundingEntry := v }]

def OraclePrice.message : Message OraclePrice where
  name := "OraclePrice"
  empty := ⟨"", "", ""⟩
  fields := [
    .string 1 "symbol" (·.symbol) fun p v => { p with symbol := v },
    .string 2 "price" (·.price) fun p v => { p with price := v },
    .string 3 "r#type" (·.oracle) fun p v => { p with oracle := v }]

def message : Message Response where
  name := "StreamResponse"
  empty := ⟨0, [], [], [], [], [], [], []⟩
  fields := [
    .word 1 "block_height" (·.height) fun r v => { r with height := v },
    .messages DepositUpdate.message 2 "subaccount_deposits" (·.deposits)
      fun r v => { r with deposits := v },
    .messages SpotOrderUpdate.message 3 "spot_orders" (·.spotOrders)
      fun r v => { r with spotOrders := v },
    .messages DerivativeOrderUpdate.message 4 "derivative_orders" (·.derivativeOrders)
      fun r v => { r with derivativeOrders := v },
    .messages SpotTrade.message 5 "spot_trades" (·.spotTrades)
      fun r v => { r with spotTrades := v },
    .messages DerivativeTrade.message 6 "derivative_trades" (·.derivativeTrades)
      fun r v => { r with derivativeTrades := v },
    .messages Position.message 7 "positions" (·.positions)
      fun r v => { r with positions := v },
    .messages OraclePrice.message 8 "oracle_prices" (·.oraclePrices)
      fun r v => { r with oraclePrices := v }]

end Response

end BlockFeed
