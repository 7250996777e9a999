import BlockFeed.Proofs.Block.Index
import Mathlib.Data.Set.Card

/-! What two indices select together, whatever they hold: nothing says that they were built from the same
values, and a value may stand in many lists. -/

namespace BlockFeed.Index

variable {ι : Type}

/-- The value stands under a key that the filter admits. -/
def Offers (x : Index ι) (filter : List String) (i : ι) : Prop :=
  ∃ e ∈ x.entries, i ∈ e.2 ∧ Admits filter e.1

theorem mem_admitted_iff (x : Index ι) (filter : List String) (i : ι) :
    i ∈ x.admitted filter ↔ x.Offers filter i := by
  rw [admitted]
  by_cases hall : isWildcard filter = true
  · rw [if_pos hall, List.mem_flatMap]
    constructor
    · rintro ⟨e, he, hi⟩
      exact ⟨e, he, hi, admits_of_isWildcard hall e.1⟩
    · rintro ⟨e, he, hi, -⟩
      exact ⟨e, he, hi⟩
  · rw [if_neg hall, List.mem_flatMap]
    constructor
    · rintro ⟨key, hkey, hi⟩
      obtain ⟨e, he, heq, hi⟩ := (mem_lookup x.ordered).mp hi
      exact ⟨e, he, hi, (admits_iff_mem hall).mpr (heq ▸ hkey)⟩
    · rintro ⟨e, he, hi, hkey⟩
      exact ⟨e.1, (admits_iff_mem hall).mp hkey, (mem_lookup x.ordered).mpr ⟨e, he, rfl, hi⟩⟩

theorem not_offers_of_empty {x : Index ι} (hx : x.entries = []) (filter : List String) (i : ι) :
    ¬ x.Offers filter i := by
  rintro ⟨e, he, -⟩
  rw [hx] at he
  exact List.not_mem_nil he

/-- Exactly the values that both filters offer, each once. Values with equal contents count apart. -/
structure Intersects (x y : Index ι) (filter filter' : List String) (selected : List ι) : Prop where
  mem : ∀ i, i ∈ selected ↔ x.Offers filter i ∧ y.Offers filter' i
  nodup : selected.Nodup
  apart : ∀ {V : Type} [DecidableEq V] (content : ι → V) (v : V), (selected.map content).count v =
    {i | (x.Offers filter i ∧ y.Offers filter' i) ∧ content i = v}.ncard

theorem Intersects.of_mem_nodup {x y : Index ι} {filter filter' : List String} {selected : List ι}
    (hmem : ∀ i, i ∈ selected ↔ x.Offers filter i ∧ y.Offers filter' i) (hnodup : selected.Nodup) :
    x.Intersects y filter filter' selected where
  mem := hmem
  nodup := hnodup
  apart := by
    classical
    intro V _ content v
    have hset : {i | (x.Offers filter i ∧ y.Offers filter' i) ∧ content i = v} =
        ((selected.filter (content · = v)).toFinset : Set ι) := by
      ext i
      simp [hmem]
    rw [hset, Set.ncard_coe_finset, List.toFinset_card_of_nodup (hnodup.filter _), List.count,
      List.countP_map, List.countP_eq_length_filter]
    rfl

section Selection

variable [DecidableEq ι] (x y : Index ι) (filter filter' : List String)

theorem filterMulti_of_empty (hx : x.entries = []) (hy : y.entries = []) :
    x.filterMulti y filter filter' = .ok [] := by
  simp [filterMulti, isEmpty, hx, hy]

theorem filterMulti_of_xor (h : Xor (x.entries = []) (y.entries = [])) :
    x.filterMulti y filter filter' = .error .invalidParameters := by
  rcases h with ⟨hx, hy⟩ | ⟨hy, hx⟩ <;> simp [filterMulti, isEmpty, hx, hy]

theorem filterMulti_of_ne (hx : x.entries ≠ []) (hy : y.entries ≠ []) :
    x.filterMulti y filter filter' = .ok ((x.admitted filter).filter
      ((y.admitted filter').contains ·)).eraseDups := by
  simp [filterMulti, isEmpty, hx, hy]

/-- Two indices of which one alone is empty are refused, all others intersect. -/
theorem filterMulti_intersects :
    (x.filterMulti y filter filter' = .error .invalidParameters ↔
      Xor (x.entries = []) (y.entries = [])) ∧
    (¬ Xor (x.entries = []) (y.entries = []) →
      ∃ selected, x.filterMulti y filter filter' = .ok selected ∧
        x.Intersects y filter filter' selected) := by
  have hok : ¬ Xor (x.entries = []) (y.entries = []) →
      ∃ selected, x.filterMulti y filter filter' = .ok selected ∧
        x.Intersects y filter filter' selected := by
    intro hboth
    rw [xor_iff_not_iff, not_not] at hboth
    by_cases hx : x.entries = []
    · have hnone := not_offers_of_empty hx filter
      refine ⟨[], filterMulti_of_empty x y filter filter' hx (hboth.mp hx), ?_⟩
      exact .of_mem_nodup (fun i => by simp [hnone i]) List.nodup_nil
    · refine ⟨_, filterMulti_of_ne x y filter filter' hx (mt hboth.mpr hx), ?_⟩
      refine .of_mem_nodup (fun i => ?_) (nodup_eraseDups _)
      rw [List.mem_eraseDups, List.mem_filter, List.contains_iff_mem, mem_admitted_iff,
        mem_admitted_iff]
  refine ⟨⟨fun herror => ?_, filterMulti_of_xor x y filter filter'⟩, hok⟩
  by_contra hboth
  obtain ⟨selected, hselected, -⟩ := hok hboth
  rw [herror] at hselected
  cases hselected

end Selection

/-- The second index holds one of two values under a repeated key: that one is selected. -/
example :
    (⟨[("m1", [0, 1])], by simp⟩ : Index Nat).filterMulti ⟨[("s1", [0, 0])], by simp⟩ []
      ["s1", "s1"] = .ok [0] := by decide

end BlockFeed.Index
