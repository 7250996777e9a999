import BlockFeed.Block
import BlockFeed.Proofs.Block.Keyed

/-! An aggregated block holds its records kind by kind, each kind under both indices, and gives a
client all that its filter admits and nothing else. -/

namespace BlockFeed

namespace Record

def deposit? : Record → Option DepositUpdate
  | .deposit u => some u
  | _ => none

def spotOrder? : Record → Option SpotOrderUpdate
  | .spotOrder u => some u
  | _ => none

def derivativeOrder? : Record → Option DerivativeOrderUpdate
  | .derivativeOrder u => some u
  | _ => none

def spotTrade? : Record → Option SpotTrade
  | .spotTrade t => some t
  | _ => none

def derivativeTrade? : Record → Option DerivativeTrade
  | .derivativeTrade t => some t
  | _ => none

def position? : Record → Option Position
  | .position p => some p
  | _ => none

def oraclePrice? : Record → Option OraclePrice
  | .oraclePrice p => some p
  | _ => none

def isTrade : Record → Bool
  | .spotTrade _ => true
  | .derivativeTrade _ => true
  | _ => false

/-- A trade under the id given; any other record as it is. -/
def withTradeId (id : String) : Record → Record
  | .spotTrade t => .spotTrade { t with tradeId := id }
  | .derivativeTrade t => .derivativeTrade { t with tradeId := id }
  | r => r

end Record

namespace Block

/-- The records with their trades numbered from `k` on. -/
def numbered (height : UInt64) : Nat → List Record → List Record
  | _, [] => []
  | k, r :: rs =>
    r.withTradeId (tradeId height k) :: numbered height (k + if r.isTrade then 1 else 0) rs

/-- Numbers change nothing that is read off a record without its trade id. -/
theorem filterMap_numbered {α : Type} {part : Record → Option α}
    (h : ∀ id r, part (r.withTradeId id) = part r) (height : UInt64) (k : Nat) (rs : List Record) :
    (numbered height k rs).filterMap part = rs.filterMap part := by
  induction rs generalizing k with
  | nil => rfl
  | cons r rs ih => rw [numbered, List.filterMap_cons, List.filterMap_cons, h, ih]

@[simp] theorem height_push (b : Block) (r : Record) : (b.push r).height = b.height := by
  cases r <;> rfl

theorem height_foldl_push (b : Block) (records : List Record) :
    (records.foldl push b).height = b.height := by
  induction records generalizing b with
  | nil => rfl
  | cons r records ih => rw [List.foldl_cons, ih, height_push]

structure Holds (b : Block) (rs : List Record) : Prop where
  deposits : b.deposits = rs.filterMap Record.deposit?
  spotOrders : b.spotOrders.Holds (rs.filterMap Record.spotOrder?)
  derivativeOrders : b.derivativeOrders.Holds (rs.filterMap Record.derivativeOrder?)
  spotTrades : b.spotTrades.Holds (rs.filterMap Record.spotTrade?)
  derivativeTrades : b.derivativeTrades.Holds (rs.filterMap Record.derivativeTrade?)
  positions : b.positions.Holds (rs.filterMap Record.position?)
  oraclePrices : b.oraclePrices = rs.filterMap Record.oraclePrice?

theorem holds_empty (height : UInt64) : (empty height).Holds [] where
  deposits := rfl
  spotOrders := KeyedRecords.holds_empty
  derivativeOrders := KeyedRecords.holds_empty
  spotTrades := KeyedRecords.holds_empty
  derivativeTrades := KeyedRecords.holds_empty
  positions := KeyedRecords.holds_empty
  oraclePrices := rfl

section Push

variable (b : Block) (r : Record)

theorem deposits_push : (b.push r).deposits = b.deposits ++ r.deposit?.toList := by
  cases r <;> simp [push, Record.deposit?]

theorem oraclePrices_push : (b.push r).oraclePrices = b.oraclePrices ++ r.oraclePrice?.toList := by
  cases r <;> simp [push, Record.oraclePrice?]

theorem spotOrders_push :
    (b.push r).spotOrders = r.spotOrder?.elim b.spotOrders b.spotOrders.push := by
  cases r <;> rfl

theorem derivativeOrders_push : (b.push r).derivativeOrders =
    r.derivativeOrder?.elim b.derivativeOrders b.derivativeOrders.push := by
  cases r <;> rfl

theorem spotTrades_push : (b.push r).spotTrades =
    (r.withTradeId (tradeId b.height b.trades)).spotTrade?.elim b.spotTrades b.spotTrades.push := by
  cases r <;> rfl

theorem derivativeTrades_push : (b.push r).derivativeTrades =
    (r.withTradeId (tradeId b.height b.trades)).derivativeTrade?.elim b.derivativeTrades
      b.derivativeTrades.push := by
  cases r <;> rfl

theorem positions_push : (b.push r).positions = r.position?.elim b.positions b.positions.push := by
  cases r <;> rfl

theorem trades_push : (b.push r).trades = b.trades + if r.isTrade then 1 else 0 := by
  cases r <;> rfl

end Push

section Parts

variable (id : String) (r : Record)

@[simp] theorem deposit?_withTradeId : (r.withTradeId id).deposit? = r.deposit? := by
  cases r <;> rfl

@[simp] theorem spotOrder?_withTradeId : (r.withTradeId id).spotOrder? = r.spotOrder? := by
  cases r <;> rfl

@[simp] theorem derivativeOrder?_withTradeId :
    (r.withTradeId id).derivativeOrder? = r.derivativeOrder? := by
  cases r <;> rfl

@[simp] theorem position?_withTradeId : (r.withTradeId id).position? = r.position? := by
  cases r <;> rfl

@[simp] theorem oraclePrice?_withTradeId : (r.withTradeId id).oraclePrice? = r.oraclePrice? := by
  cases r <;> rfl

end Parts

theorem filterMap_concat {α : Type} (part : Record → Option α) (rs : List Record) (r : Record) :
    (rs ++ [r]).filterMap part = rs.filterMap part ++ (part r).toList := by
  rw [List.filterMap_append, List.filterMap_cons, List.filterMap_nil]
  cases part r <;> rfl

theorem Holds.push {b : Block} {rs : List Record} (h : b.Holds rs) (r : Record) :
    (b.push r).Holds (rs ++ [r.withTradeId (tradeId b.height b.trades)]) where
  deposits := by rw [deposits_push, filterMap_concat, h.deposits, deposit?_withTradeId]
  spotOrders := by
    rw [spotOrders_push, filterMap_concat, spotOrder?_withTradeId]
    exact h.spotOrders.push? _
  derivativeOrders := by
    rw [derivativeOrders_push, filterMap_concat, derivativeOrder?_withTradeId]
    exact h.derivativeOrders.push? _
  spotTrades := by
    rw [spotTrades_push, filterMap_concat]
    exact h.spotTrades.push? _
  derivativeTrades := by
    rw [derivativeTrades_push, filterMap_concat]
    exact h.derivativeTrades.push? _
  positions := by
    rw [positions_push, filterMap_concat, position?_withTradeId]
    exact h.positions.push? _
  oraclePrices := by
    rw [oraclePrices_push, filterMap_concat, h.oraclePrices, oraclePrice?_withTradeId]

theorem Holds.foldl_push {b : Block} {rs : List Record} (h : b.Holds rs) (records : List Record) :
    (records.foldl Block.push b).Holds (rs ++ numbered b.height b.trades records) := by
  induction records generalizing b rs with
  | nil => rwa [numbered, List.append_nil]
  | cons r records ih =>
    have hrest := ih (h.push r)
    rw [height_push, trades_push, List.append_assoc] at hrest
    exact hrest

theorem holds_aggregate (height : UInt64) (records : List Record) :
    (aggregate height records).Holds (numbered height 0 records) :=
  (holds_empty height).foldl_push records

/-- What a filter admits of the records of a block: of trades, as the block numbers them. -/
structure Entitles (f : StreamFilter) (height : UInt64) (records : List Record)
    (s : Selection) : Prop where
  deposits : s.deposits =
    (records.filterMap Record.deposit?).filter (Index.Admits f.subaccounts ·.subaccount.text)
  spotOrders : f.Entitled (records.filterMap Record.spotOrder?) s.spotOrders
  derivativeOrders : f.Entitled (records.filterMap Record.derivativeOrder?) s.derivativeOrders
  spotTrades : f.Entitled ((numbered height 0 records).filterMap Record.spotTrade?) s.spotTrades
  derivativeTrades :
    f.Entitled ((numbered height 0 records).filterMap Record.derivativeTrade?) s.derivativeTrades
  positions : f.Entitled (records.filterMap Record.position?) s.positions
  oraclePrices : s.oraclePrices = records.filterMap Record.oraclePrice?
  height : s.height = height

/-- No filter is refused on an aggregated block, and the client gets exactly its part. -/
theorem select_aggregate (height : UInt64) (records : List Record) (f : StreamFilter) :
    ∃ s, (aggregate height records).select f = .ok s ∧ Entitles f height records s := by
  have h := holds_aggregate height records
  obtain ⟨spotOrders, hso, hso'⟩ := h.spotOrders.entitled f
  obtain ⟨derivativeOrders, hdo, hdo'⟩ := h.derivativeOrders.entitled f
  obtain ⟨spotTrades, hst, hst'⟩ := h.spotTrades.entitled f
  obtain ⟨derivativeTrades, hdt, hdt'⟩ := h.derivativeTrades.entitled f
  obtain ⟨positions, hp, hp'⟩ := h.positions.entitled f
  have hprices := h.oraclePrices
  have hdeposits := h.deposits
  rw [filterMap_numbered spotOrder?_withTradeId] at hso'
  rw [filterMap_numbered derivativeOrder?_withTradeId] at hdo'
  rw [filterMap_numbered position?_withTradeId] at hp'
  rw [filterMap_numbered oraclePrice?_withTradeId] at hprices
  rw [filterMap_numbered deposit?_withTradeId] at hdeposits
  -- the test of a deposit and the lookup of a keyed record say the same
  have hadmits : (fun u : DepositUpdate => f.admitsSubaccount u.subaccount) =
      (decide <| Index.Admits f.subaccounts ·.subaccount.text) := by
    funext u
    rw [Bool.eq_iff_iff, f.admitsSubaccount_iff, decide_eq_true_iff]
  refine ⟨⟨(aggregate height records).height,
    (aggregate height records).deposits.filter (f.admitsSubaccount ·.subaccount), spotOrders,
    derivativeOrders, spotTrades, derivativeTrades, positions,
    (aggregate height records).oraclePrices⟩, ?_,
    ⟨?_, hso', hdo', hst', hdt', hp', hprices, height_foldl_push _ records⟩⟩
  · simp only [select, hso, hdo, hst, hdt, hp]
    rfl
  · rw [hadmits, hdeposits]

end Block

end BlockFeed
