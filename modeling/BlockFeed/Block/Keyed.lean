import BlockFeed.Filter
import BlockFeed.Record

/-! Record sets indexed by market and by subaccount. -/

namespace BlockFeed

/-- Records that belong to a market and a subaccount. -/
class Keyed (α : Type) where
  market : α → String
  subaccount : α → SubaccountId

instance : Keyed SpotTrade := ⟨(·.market), (·.subaccount)⟩
instance : Keyed DerivativeTrade := ⟨(·.market), (·.subaccount)⟩
instance : Keyed SpotOrderUpdate := ⟨(·.market), (·.order.info.subaccount)⟩
instance : Keyed DerivativeOrderUpdate := ⟨(·.market), (·.order.info.subaccount)⟩
instance : Keyed Position := ⟨(·.market), (·.subaccount)⟩

/-- A record is known by its place among the records, in both indices. -/
structure KeyedRecords (α : Type) where
  records : List α
  byMarket : Index Nat
  bySubaccount : Index Nat
  length : Nat
  deriving DecidableEq

namespace KeyedRecords

variable {α : Type}

def empty : KeyedRecords α := ⟨[], .empty, .empty, 0⟩

def push [Keyed α] (k : KeyedRecords α) (r : α) : KeyedRecords α where
  records := k.records ++ [r]
  byMarket := k.byMarket.insert (Keyed.market r) k.records.length
  bySubaccount := k.bySubaccount.insert (Keyed.subaccount r).text k.records.length
  length := k.length + 1

/-- The records at some places. -/
def pick (k : KeyedRecords α) (places : List Nat) : List α := places.filterMap (k.records[·]?)

/-- The records of one market, in the order they were added. -/
def market (k : KeyedRecords α) (id : String) : List α := k.pick (k.byMarket.get id)

/-- The records that both sides of a filter admit. -/
def select (k : KeyedRecords α) (f : StreamFilter) : Except FilterError (List α) :=
  k.pick <$> k.byMarket.filterMulti k.bySubaccount f.markets f.subaccounts

end KeyedRecords

end BlockFeed
