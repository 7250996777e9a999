import BlockFeed.Proofs.Block.Entitlement
import BlockFeed.Proofs.Decimal
import Mathlib.Data.List.Nodup

/-! Trades of both kinds are numbered together, in the order of the records. The ids of a block are
distinct, those of blocks of different heights too, and a block numbered once is numbered as before. -/

namespace BlockFeed

namespace Record

def tradeId? : Record → Option String
  | .spotTrade t => some t.tradeId
  | .derivativeTrade t => some t.tradeId
  | _ => none

theorem withTradeId_of_not_trade {r : Record} (h : r.isTrade = false) (id : String) :
    r.withTradeId id = r := by
  cases r <;> first | rfl | cases h

@[simp] theorem isTrade_withTradeId (r : Record) (id : String) :
    (r.withTradeId id).isTrade = r.isTrade := by
  cases r <;> rfl

theorem tradeId?_withTradeId (r : Record) (id : String) :
    (r.withTradeId id).tradeId? = if r.isTrade then some id else none := by
  cases r <;> rfl

end Record

namespace Block

section Ids

theorem tradeId_toList (height : UInt64) (k : Nat) :
    (tradeId height k).toList = Nat.toDigits 10 height.toNat ++ '_' :: Nat.toDigits 10 k := by
  have hmark : (toString "_").toList = ['_'] := rfl
  rw [tradeId]
  simp [hmark]

/-- No digit is an underscore, so the first one ends the height. -/
theorem takeWhile_tradeId (height : UInt64) (k : Nat) :
    (tradeId height k).toList.takeWhile (· ≠ '_') = Nat.toDigits 10 height.toNat := by
  have hdigits : ∀ c ∈ Nat.toDigits 10 height.toNat, decide (c ≠ '_') = true := by
    intro c hc
    have hdigit := Nat.isDigit_of_mem_toDigits (by decide) (by decide) hc
    exact decide_eq_true (Decimal.ne_of_digit hdigit rfl)
  rw [tradeId_toList, List.takeWhile_append_of_pos hdigits]
  simp

theorem tradeId_inj {height height' : UInt64} {k k' : Nat} (h : tradeId height k = tradeId height' k') :
    height = height' ∧ k = k' := by
  have hfront : Nat.toDigits 10 height.toNat = Nat.toDigits 10 height'.toNat := by
    rw [← takeWhile_tradeId height k, h, takeWhile_tradeId]
  have hheight : height.toNat = height'.toNat := by
    rw [← Decimal.number_toDigits height.toNat, hfront, Decimal.number_toDigits]
  have hback : Nat.toDigits 10 k = Nat.toDigits 10 k' := by
    have hchars := congrArg String.toList h
    rw [tradeId_toList, tradeId_toList, hfront] at hchars
    exact (List.cons.inj (List.append_cancel_left hchars)).2
  have hk : k = k' := by rw [← Decimal.number_toDigits k, hback, Decimal.number_toDigits]
  exact ⟨UInt64.toNat_inj.mp hheight, hk⟩

/-- The ids of a block's trades, spot trades first. -/
def tradeIds (b : Block) : List String :=
  b.spotTrades.records.map (·.tradeId) ++ b.derivativeTrades.records.map (·.tradeId)

theorem filterMap_tradeId (rs : List Record) :
    ((rs.filterMap Record.spotTrade?).map (·.tradeId) ++
      (rs.filterMap Record.derivativeTrade?).map (·.tradeId)).Perm (rs.filterMap Record.tradeId?) := by
  induction rs with
  | nil => exact .refl _
  | cons r rs ih =>
    cases r with
    | spotTrade t => exact ih.cons t.tradeId
    | derivativeTrade t => exact List.perm_middle.trans (ih.cons t.tradeId)
    | _ => exact ih

theorem Holds.tradeIds_perm {b : Block} {rs : List Record} (h : b.Holds rs) :
    b.tradeIds.Perm (rs.filterMap Record.tradeId?) := by
  rw [tradeIds, h.spotTrades.records, h.derivativeTrades.records]
  exact filterMap_tradeId rs

theorem filterMap_tradeId_numbered (height : UInt64) (k : Nat) (rs : List Record) :
    (numbered height k rs).filterMap Record.tradeId? =
      (List.range' k (rs.countP Record.isTrade)).map (tradeId height) := by
  induction rs generalizing k with
  | nil => rfl
  | cons r rs ih =>
    rw [numbered, List.filterMap_cons, Record.tradeId?_withTradeId, ih]
    by_cases hr : r.isTrade
    · simp [hr, List.range'_succ]
    · simp [hr]

theorem tradeIds_aggregate (height : UInt64) (records : List Record) :
    (aggregate height records).tradeIds.Perm
      ((List.range' 0 (records.countP Record.isTrade)).map (tradeId height)) := by
  rw [← filterMap_tradeId_numbered]
  exact (holds_aggregate height records).tradeIds_perm

theorem nodup_tradeIds (height : UInt64) (records : List Record) :
    (aggregate height records).tradeIds.Nodup := by
  have hinj : Function.Injective (tradeId height) := fun _ _ h => (tradeId_inj h).2
  exact (tradeIds_aggregate height records).nodup_iff.mpr (List.Nodup.map hinj List.nodup_range')

theorem mem_tradeIds {height : UInt64} {records : List Record} {id : String}
    (h : id ∈ (aggregate height records).tradeIds) : ∃ k, id = tradeId height k := by
  obtain ⟨k, -, hk⟩ := List.mem_map.mp ((tradeIds_aggregate height records).mem_iff.mp h)
  exact ⟨k, hk.symm⟩

end Ids

section Again

/-- A record is added whatever id it brings. -/
theorem push_withTradeId (b : Block) (r : Record) (id : String) :
    b.push (r.withTradeId id) = b.push r := by
  cases r <;> rfl

theorem foldl_push_numbered (b : Block) (height : UInt64) (k : Nat) (rs : List Record) :
    (numbered height k rs).foldl push b = rs.foldl push b := by
  induction rs generalizing b k with
  | nil => rfl
  | cons r rs ih => rw [numbered, List.foldl_cons, List.foldl_cons, push_withTradeId, ih]

theorem filter_numbered (height : UInt64) (k : Nat) (rs : List Record) :
    (numbered height k rs).filter Record.isTrade = numbered height k (rs.filter Record.isTrade) := by
  induction rs generalizing k with
  | nil => rfl
  | cons r rs ih =>
    rw [numbered]
    by_cases hr : r.isTrade
    · rw [List.filter_cons_of_pos (by simpa using hr), List.filter_cons_of_pos hr, numbered, ih]
    · rw [List.filter_cons_of_neg (by simpa using hr), List.filter_cons_of_neg hr, ih]
      simp [hr]

/-- The block without what is no trade. -/
def onlyTrades (b : Block) : Block :=
  { empty b.height with
    spotTrades := b.spotTrades, derivativeTrades := b.derivativeTrades, trades := b.trades }

theorem onlyTrades_push (b : Block) (r : Record) :
    (b.push r).onlyTrades = if r.isTrade then b.onlyTrades.push r else b.onlyTrades := by
  cases r <;> rfl

theorem onlyTrades_foldl_push (b : Block) (rs : List Record) :
    (rs.foldl push b).onlyTrades = (rs.filter Record.isTrade).foldl push b.onlyTrades := by
  induction rs generalizing b with
  | nil => rfl
  | cons r rs ih =>
    rw [List.foldl_cons, ih, onlyTrades_push]
    by_cases hr : r.isTrade
    · rw [if_pos hr, List.filter_cons_of_pos hr, List.foldl_cons]
    · rw [if_neg hr, List.filter_cons_of_neg hr]

end Again

/-- The `k`-th trade, from 0 and of whichever kind, bears the id of the height and `k`. Nothing else
is changed. -/
structure Numbers (height : UInt64) (records entered : List Record) : Prop where
  length : entered.length = records.length
  trade : ∀ (i : Nat) (r : Record), records[i]? = some r → r.isTrade → entered[i]? =
    some (r.withTradeId s!"{height.toNat}_{(records.take i).countP Record.isTrade}")
  other : ∀ (i : Nat) (r : Record), records[i]? = some r → r.isTrade = false → entered[i]? = some r

theorem getElem?_numbered (height : UInt64) (k : Nat) (rs : List Record) (i : Nat) :
    (numbered height k rs)[i]? = rs[i]?.map
      (·.withTradeId (tradeId height (k + (rs.take i).countP Record.isTrade))) := by
  induction rs generalizing k i with
  | nil => rfl
  | cons r rs ih =>
    rw [numbered]
    cases i with
    | zero => rfl
    | succ i =>
      rw [List.getElem?_cons_succ, List.getElem?_cons_succ, ih, List.take_succ_cons,
        List.countP_cons, Nat.add_assoc, Nat.add_comm (ite _ _ _)]

theorem numbers_numbered (height : UInt64) (records : List Record) :
    Numbers height records (numbered height 0 records) where
  length := by
    have hlen : ∀ k, (numbered height k records).length = records.length := by
      induction records with
      | nil => exact fun _ => rfl
      | cons r rs ih => exact fun k => congrArg (· + 1) (ih _)
    exact hlen 0
  trade := by
    intro i r hr _
    rw [getElem?_numbered, hr, Nat.zero_add]
    rfl
  other := by
    intro i r hr hother
    rw [getElem?_numbered, hr, Option.map_some, Record.withTradeId_of_not_trade hother]

/-- A block holds its records with the trades numbered, no two of its trades share an id, nor do trades
of blocks of different heights, and its records, or its trades alone, make the same block again. -/
theorem aggregate_numbers (height : UInt64) (records : List Record) :
    (aggregate height records).Holds (numbered height 0 records) ∧
      Numbers height records (numbered height 0 records) ∧
      (aggregate height records).tradeIds.Nodup ∧
      (∀ height' records', height' ≠ height →
        (aggregate height records).tradeIds.Disjoint (aggregate height' records').tradeIds) ∧
      aggregate height (numbered height 0 records) = aggregate height records ∧
      aggregate height ((numbered height 0 records).filter Record.isTrade) =
        (aggregate height records).onlyTrades := by
  refine ⟨holds_aggregate height records, numbers_numbered height records,
    nodup_tradeIds height records, ?_, foldl_push_numbered _ height 0 records, ?_⟩
  · intro height' records' hne id hid hid'
    obtain ⟨k, rfl⟩ := mem_tradeIds hid
    obtain ⟨k', hk'⟩ := mem_tradeIds hid'
    exact hne (tradeId_inj hk').1.symm
  · have hagain : aggregate height (numbered height 0 (records.filter Record.isTrade)) =
        aggregate height (records.filter Record.isTrade) := foldl_push_numbered _ height 0 _
    rw [filter_numbered, hagain]
    exact (onlyTrades_foldl_push (empty height) records).symm

end Block

end BlockFeed
