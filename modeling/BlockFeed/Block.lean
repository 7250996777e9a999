import BlockFeed.Block.Keyed
import BlockFeed.Decode

/-! The block: everything that the events of one height decode into, and what a client may see of
it. -/

namespace BlockFeed

structure Block where
  height : UInt64
  deposits : List DepositUpdate
  spotOrders : KeyedRecords SpotOrderUpdate
  derivativeOrders : KeyedRecords DerivativeOrderUpdate
  spotTrades : KeyedRecords SpotTrade
  derivativeTrades : KeyedRecords DerivativeTrade
  positions : KeyedRecords Position
  oraclePrices : List OraclePrice
  /-- How many trades of both kinds have been numbered. -/
  trades : Nat
  deriving DecidableEq

/-- The part of a block that one client sees. -/
structure Selection where
  height : UInt64
  deposits : List DepositUpdate
  spotOrders : List SpotOrderUpdate
  derivativeOrders : List DerivativeOrderUpdate
  spotTrades : List SpotTrade
  derivativeTrades : List DerivativeTrade
  positions : List Position
  oraclePrices : List OraclePrice
  deriving DecidableEq

namespace Block

def empty (height : UInt64) : Block :=
  ⟨height, [], .empty, .empty, .empty, .empty, .empty, [], 0⟩

/-- The id of the block's `k`-th trade. -/
def tradeId (height : UInt64) (k : Nat) : String := s!"{height.toNat}_{k}"

/-- Adds a record. Trades of both kinds are numbered together. -/
def push (b : Block) : Record → Block
  | .deposit u => { b with deposits := b.deposits ++ [u] }
  | .spotOrder u => { b with spotOrders := b.spotOrders.push u }
  | .derivativeOrder u => { b with derivativeOrders := b.derivativeOrders.push u }
  | .spotTrade t =>
    { b with spotTrades := b.spotTrades.push { t with tradeId := tradeId b.height b.trades }
             trades := b.trades + 1 }
  | .derivativeTrade t =>
    { b with
      derivativeTrades := b.derivativeTrades.push { t with tradeId := tradeId b.height b.trades }
      trades := b.trades + 1 }
  | .position p => { b with positions := b.positions.push p }
  | .oraclePrice p => { b with oraclePrices := b.oraclePrices ++ [p] }

def aggregate (height : UInt64) (records : List Record) : Block :=
  records.foldl push (empty height)

/-- The block of a batch, or the error of its first event that does not decode. -/
def ofBatch (batch : Batch) : Decoded Block := do
  let records ← batch.events.mapM Event.decode
  return aggregate batch.height records.flatten

def recordCount (b : Block) : Nat :=
  b.deposits.length + b.spotOrders.length + b.derivativeOrders.length + b.spotTrades.length +
    b.derivativeTrades.length + b.positions.length + b.oraclePrices.length

/-- What a filter admits. Deposits are judged by subaccount alone and prices always pass. -/
def select (b : Block) (f : StreamFilter) : Except FilterError Selection := do
  return {
    height := b.height
    deposits := b.deposits.filter (f.admitsSubaccount ·.subaccount)
    spotOrders := ← b.spotOrders.select f
    derivativeOrders := ← b.derivativeOrders.select f
    spotTrades := ← b.spotTrades.select f
    derivativeTrades := ← b.derivativeTrades.select f
    positions := ← b.positions.select f
    oraclePrices := b.oraclePrices }

end Block

end BlockFeed
