import BlockFeed.Block.Keyed
import BlockFeed.Proofs.Block.Index

/-! Both indices of a record set hold every record's place, so no filter is refused, and the
selection is all that the filter admits. -/

namespace BlockFeed

/-- The places that satisfy `p` hold the records that satisfy `q`. -/
theorem filterMap_places {α : Type} (records : List α) {p : Nat → Bool} {q : α → Bool}
    (h : ∀ i r, records[i]? = some r → p i = q r) :
    ((List.range records.length).filter p).filterMap (records[·]?) = records.filter q := by
  induction records generalizing p with
  | nil => rfl
  | cons r records ih =>
    have hrest : ((List.range records.length).filter fun i => p (i + 1)).filterMap (records[·]?) =
        records.filter q := ih fun i r' hr' => h (i + 1) r' hr'
    have hfirst : p 0 = q r := h 0 r rfl
    rw [List.filterMap_filter] at hrest ⊢
    rw [List.length_cons, List.range_succ_eq_map, List.filterMap_cons, List.filterMap_map]
    have htail : (List.range records.length).filterMap
        ((fun i => if p i then (r :: records)[i]? else none) ∘ Nat.succ) = records.filter q := hrest
    rw [htail, hfirst]
    cases hq : q r <;> simp [hq]

namespace StreamFilter

variable {α : Type} [Keyed α]

def Admits (f : StreamFilter) (r : α) : Prop :=
  Index.Admits f.markets (Keyed.market r) ∧ Index.Admits f.subaccounts (Keyed.subaccount r).text

instance (f : StreamFilter) (r : α) : Decidable (f.Admits r) := inferInstanceAs (Decidable (_ ∧ _))

theorem admitsSubaccount_iff (f : StreamFilter) (id : SubaccountId) :
    f.admitsSubaccount id = true ↔ Index.Admits f.subaccounts id.text := by
  rw [admitsSubaccount, Bool.or_eq_true, Index.isWildcard_iff, List.contains_iff_mem, or_assoc]
  rfl

/-- The records a filter admits, each once, and those of any one market in their order. -/
structure Entitled (f : StreamFilter) (records selected : List α) : Prop where
  perm : selected.Perm (records.filter (f.Admits ·))
  ordered : ∀ market, selected.filter (Keyed.market · = market) =
    (records.filter (f.Admits ·)).filter (Keyed.market · = market)

theorem Entitled.of_ordered [DecidableEq α] {f : StreamFilter} {records selected : List α}
    (h : ∀ market, selected.filter (Keyed.market · = market) =
      (records.filter (f.Admits ·)).filter (Keyed.market · = market)) :
    f.Entitled records selected where
  perm := by
    rw [List.perm_iff_count]
    intro r
    have hcount : ∀ l : List α,
        (l.filter (Keyed.market · = Keyed.market r)).count r = l.count r := fun l =>
      List.count_filter (by simp)
    rw [← hcount selected, h, hcount]
  ordered := h

end StreamFilter

namespace KeyedRecords

variable {α : Type} [Keyed α] {k : KeyedRecords α} {rs : List α}

structure Holds (k : KeyedRecords α) (rs : List α) : Prop where
  records : k.records = rs
  byMarket : k.byMarket.Covers (rs.map Keyed.market)
  bySubaccount : k.bySubaccount.Covers (rs.map fun r => (Keyed.subaccount r).text)

theorem holds_empty : (empty : KeyedRecords α).Holds [] :=
  ⟨rfl, Index.covers_empty, Index.covers_empty⟩

theorem Holds.push (h : k.Holds rs) (r : α) : (k.push r).Holds (rs ++ [r]) where
  records := by rw [KeyedRecords.push, h.records]
  byMarket := by
    have hins := h.byMarket.insert (Keyed.market r)
    rw [List.length_map, ← h.records] at hins
    rw [List.map_append, ← h.records]
    exact hins
  bySubaccount := by
    have hins := h.bySubaccount.insert (Keyed.subaccount r).text
    rw [List.length_map, ← h.records] at hins
    rw [List.map_append, ← h.records]
    exact hins

theorem Holds.isEmpty_eq (h : k.Holds rs) : k.byMarket.isEmpty = k.bySubaccount.isEmpty := by
  rw [h.byMarket.isEmpty_eq, h.bySubaccount.isEmpty_eq, List.isEmpty_map, List.isEmpty_map]

/-- A record that may be of another kind. -/
theorem Holds.push? (h : k.Holds rs) (r? : Option α) :
    (r?.elim k k.push).Holds (rs ++ r?.toList) := by
  cases r? with
  | none => rwa [Option.toList_none, List.append_nil]
  | some r => exact h.push r

/-- One market after the other; under each, what the subaccounts admit. -/
theorem Holds.select_eq (h : k.Holds rs) (f : StreamFilter) :
    k.select f = .ok ((k.byMarket.asked f.markets).eraseDups.flatMap fun market =>
      rs.filter fun r =>
        Keyed.market r = market ∧ Index.Admits f.subaccounts (Keyed.subaccount r).text) := by
  have hlen : (rs.map Keyed.market).length =
      (rs.map fun r => (Keyed.subaccount r).text).length := by
    rw [List.length_map, List.length_map]
  have hpick : ∀ market, ((places (rs.map Keyed.market) market).filter
      ((k.bySubaccount.admitted f.subaccounts).contains ·)).filterMap (rs[·]?) =
        rs.filter fun r =>
          Keyed.market r = market ∧ Index.Admits f.subaccounts (Keyed.subaccount r).text := by
    intro market
    rw [places, List.length_map, List.filter_filter]
    apply filterMap_places
    intro i r hr
    have hother : i ∈ k.bySubaccount.admitted f.subaccounts ↔
        Index.Admits f.subaccounts (Keyed.subaccount r).text := by
      rw [h.bySubaccount.mem_admitted]
      simp [hr]
    rw [Bool.eq_iff_iff]
    simp [hr, hother, and_comm]
  rw [select, h.byMarket.filterMulti h.bySubaccount hlen]
  simp only [pick, h.records, Functor.map, Except.map, List.filterMap_flatMap, hpick]

/-- Of what stands under one market, another market takes nothing. -/
theorem filter_market_filter (rs : List α) (p : α → Prop) [DecidablePred p]
    (market market' : String) :
    (rs.filter fun r => Keyed.market r = market' ∧ p r).filter (Keyed.market · = market) =
      if market' = market then rs.filter fun r => Keyed.market r = market ∧ p r else [] := by
  rw [List.filter_filter]
  by_cases hm : market' = market
  · rw [if_pos hm, hm]
    apply List.filter_congr
    intro r _
    by_cases hr : Keyed.market r = market <;> simp [hr]
  · rw [if_neg hm, List.filter_eq_nil_iff]
    intro r _ hr
    simp only [Bool.and_eq_true, decide_eq_true_eq] at hr
    exact hm (hr.2.1.symm.trans hr.1)

theorem Holds.entitled [DecidableEq α] (h : k.Holds rs) (f : StreamFilter) :
    ∃ selected, k.select f = .ok selected ∧ f.Entitled rs selected := by
  refine ⟨_, h.select_eq f, .of_ordered fun market => ?_⟩
  have hone := filter_market_filter rs
    (fun r => Index.Admits f.subaccounts (Keyed.subaccount r).text) market
  simp only [List.filter_flatMap, hone]
  rw [flatMap_ite_eq (nodup_eraseDups _), List.filter_filter]
  by_cases hasked : market ∈ k.byMarket.asked f.markets
  · rw [if_pos (List.mem_eraseDups.mpr hasked)]
    apply List.filter_congr
    intro r hr
    by_cases hm : Keyed.market r = market
    · have hadmits : Index.Admits f.markets market :=
        (h.byMarket.mem_asked (hm ▸ List.mem_map_of_mem hr)).mp hasked
      simp [StreamFilter.Admits, hm, hadmits]
    · simp [hm]
  · rw [if_neg fun hmem => hasked (List.mem_eraseDups.mp hmem), eq_comm, List.filter_eq_nil_iff]
    intro r hr hadmits
    simp only [Bool.and_eq_true, decide_eq_true_eq] at hadmits
    obtain ⟨hm, hr'⟩ := hadmits
    exact hasked ((h.byMarket.mem_asked (hm ▸ List.mem_map_of_mem hr)).mpr (hm ▸ hr'.1))

end KeyedRecords

end BlockFeed
