import BlockFeed.Block
import BlockFeed.Proofs.Block.Entitlement
import BlockFeed.Proofs.Outcome
import BlockFeed.Response

/-! The block of a batch: its height, the first event that stands in its way, and why a filter can
always be applied to it. -/

namespace BlockFeed

/-- `source` is the error of the first event of the batch that does not decode. -/
def Batch.FirstFault (batch : Batch) (source : DecodeError) : Prop :=
  ∃ before event rest, batch.events = before ++ event :: rest ∧
    (∀ e ∈ before, ∃ records, e.decode = .ok records) ∧ event.decode = .error source

namespace KeyedRecords

variable {α : Type}

/-- Both indices have entries, or none has: no filter is refused. -/
def Paired (k : KeyedRecords α) : Prop := k.byMarket.isEmpty = k.bySubaccount.isEmpty

theorem Holds.paired [Keyed α] {k : KeyedRecords α} {rs : List α} (h : k.Holds rs) : k.Paired :=
  h.isEmpty_eq

theorem Paired.select_ok {k : KeyedRecords α} (h : k.Paired) (f : StreamFilter) :
    ∃ records, k.select f = .ok records := by
  rw [Paired] at h
  rw [select, Index.filterMulti]
  rw [h]
  cases k.bySubaccount.isEmpty with
  | true => exact ⟨_, rfl⟩
  | false => exact ⟨_, rfl⟩

end KeyedRecords

namespace Block

theorem ofBatch_error {batch : Batch} {source : DecodeError} (h : ofBatch batch = .error source) :
    batch.FirstFault source := by
  rw [ofBatch] at h
  cases hm : batch.events.mapM Event.decode with
  | error source' =>
    simp only [hm] at h
    cases h
    exact mapM_eq_error_iff.mp hm
  | ok records =>
    simp only [hm] at h
    cases h

theorem ofBatch_ok {batch : Batch} {block : Block} (h : ofBatch batch = .ok block) :
    ∃ records, block = aggregate batch.height records := by
  rw [ofBatch] at h
  cases hm : batch.events.mapM Event.decode with
  | error source =>
    simp only [hm] at h
    cases h
  | ok records =>
    simp only [hm] at h
    cases h
    exact ⟨records.flatten, rfl⟩

theorem height_ofBatch {batch : Batch} {block : Block} (h : ofBatch batch = .ok block) :
    block.height = batch.height := by
  obtain ⟨records, rfl⟩ := ofBatch_ok h
  exact height_foldl_push _ records

theorem heights_ofBatch {blocks : List Block} {batches : List Batch}
    (h : blocks.map .ok = batches.map ofBatch) : blocks.map height = batches.map Batch.height := by
  induction blocks generalizing batches with
  | nil =>
    cases batches with
    | nil => rfl
    | cons batch batches => cases h
  | cons block blocks ih =>
    cases batches with
    | nil => cases h
    | cons batch batches =>
      obtain ⟨hb, hr⟩ := List.cons.inj h
      rw [List.map_cons, List.map_cons, ih hr, height_ofBatch hb.symm]

structure Paired (b : Block) : Prop where
  spotOrders : b.spotOrders.Paired
  derivativeOrders : b.derivativeOrders.Paired
  spotTrades : b.spotTrades.Paired
  derivativeTrades : b.derivativeTrades.Paired
  positions : b.positions.Paired

theorem paired_aggregate (height : UInt64) (records : List Record) :
    (aggregate height records).Paired := by
  have h := holds_aggregate height records
  exact ⟨h.spotOrders.paired, h.derivativeOrders.paired, h.spotTrades.paired,
    h.derivativeTrades.paired, h.positions.paired⟩

theorem Paired.select_ok {b : Block} (h : b.Paired) (f : StreamFilter) :
    ∃ selection, b.select f = .ok selection ∧ selection.height = b.height := by
  obtain ⟨spotOrders, hso⟩ := h.spotOrders.select_ok f
  obtain ⟨derivativeOrders, hdo⟩ := h.derivativeOrders.select_ok f
  obtain ⟨spotTrades, hst⟩ := h.spotTrades.select_ok f
  obtain ⟨derivativeTrades, hdt⟩ := h.derivativeTrades.select_ok f
  obtain ⟨positions, hp⟩ := h.positions.select_ok f
  simp only [select, hso, hdo, hst, hdt, hp]
  exact ⟨_, rfl, rfl⟩

/-- No filter is refused on the block of a batch. -/
theorem select_ofBatch {batch : Batch} {block : Block} (h : ofBatch batch = .ok block)
    (f : StreamFilter) : ∃ selection, block.select f = .ok selection ∧ selection.height = block.height := by
  obtain ⟨records, rfl⟩ := ofBatch_ok h
  exact (paired_aggregate batch.height records).select_ok f

end Block

end BlockFeed
