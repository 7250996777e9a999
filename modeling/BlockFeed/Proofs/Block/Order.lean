import BlockFeed.Proofs.Block.Intersection
import Mathlib.Data.List.Sort

/-! In what order two indices select: one key of the first filter after the other, as the filter names
them. That is the order in which the values first appear in the first index only if the filter names
its keys that way. -/

namespace BlockFeed

section Ranks

variable {ι κ : Type}

/-- Of two arrangements that rise by their ranks, one is the other exactly if the one's rank never
rises where the other's falls. -/
theorem eq_iff_of_ranks {r r' : ι → Nat} {l l' : List ι} (hl : l.Pairwise fun i j => r i < r j)
    (hl' : l'.Pairwise fun i j => r' i < r' j) (hperm : l.Perm l') :
    l = l' ↔ ∀ i ∈ l, ∀ j ∈ l, r i < r j → r' i < r' j := by
  constructor
  · rintro rfl i hi j hj
    have hself : ∀ i ∈ l, r i < r i → r' i < r' i := fun i _ hlt => absurd hlt (Nat.lt_irrefl _)
    have hrises : l.Pairwise fun i j => r i < r j → r' i < r' j := by
      refine hl'.imp ?_
      intro i j hlt _
      exact hlt
    have hfalls : l.Pairwise (flip fun i j => r i < r j → r' i < r' j) :=
      hl.imp fun {_ _} hlt hgt => absurd hgt (Nat.lt_asymm hlt)
    exact hrises.forall_of_forall_of_flip hself hfalls hi hj
  · intro h
    have hrises : l.Pairwise fun i j => r' i < r' j :=
      hl.imp_of_mem fun hi hj hlt => h _ hi _ hj hlt
    exact hperm.eq_of_pairwise (fun _ _ _ _ hlt hgt => absurd hgt (Nat.lt_asymm hlt)) hrises hl'

/-- Blocks that share nothing are put together in one way only. -/
theorem flatMap_injective {f : κ → List ι} (hdisjoint : ∀ k k' i, i ∈ f k → i ∈ f k' → k = k')
    {ks ks' : List κ} (hks : ∀ k ∈ ks, f k ≠ []) (hks' : ∀ k ∈ ks', f k ≠ [])
    (h : ks.flatMap f = ks'.flatMap f) : ks = ks' := by
  induction ks generalizing ks' with
  | nil =>
    cases ks' with
    | nil => rfl
    | cons k' ks' =>
      rw [List.flatMap_nil, List.flatMap_cons, eq_comm, List.append_eq_nil_iff] at h
      exact absurd h.1 (hks' k' List.mem_cons_self)
  | cons k ks ih =>
    obtain ⟨hk, hrest⟩ := List.forall_mem_cons.mp hks
    cases ks' with
    | nil =>
      rw [List.flatMap_nil, List.flatMap_cons, List.append_eq_nil_iff] at h
      exact absurd h.1 hk
    | cons k' ks' =>
      obtain ⟨hk', hrest'⟩ := List.forall_mem_cons.mp hks'
      obtain ⟨i, is, hi⟩ := List.exists_cons_of_ne_nil hk
      obtain ⟨i', is', hi'⟩ := List.exists_cons_of_ne_nil hk'
      have hheads : i = i' := by
        rw [List.flatMap_cons, List.flatMap_cons, hi, hi'] at h
        exact (List.cons.inj h).1
      have hmem : i ∈ f k := hi ▸ List.mem_cons_self
      have hmem' : i ∈ f k' := hheads ▸ hi' ▸ List.mem_cons_self
      obtain rfl := hdisjoint k k' i hmem hmem'
      rw [List.flatMap_cons, List.flatMap_cons, List.append_cancel_left_eq] at h
      rw [ih hrest hrest' h]

/-- Keys that bring nothing can be left out. -/
theorem flatMap_eq_filter_flatMap {f g : κ → List ι} {q : κ → Bool} {ks : List κ}
    (hkept : ∀ k ∈ ks, q k = true → f k = g k) (hnone : ∀ k ∈ ks, ¬ q k = true → f k = []) :
    ks.flatMap f = (ks.filter q).flatMap g := by
  induction ks with
  | nil => rfl
  | cons k ks ih =>
    obtain ⟨hk, hks⟩ := List.forall_mem_cons.mp hkept
    obtain ⟨hk', hks'⟩ := List.forall_mem_cons.mp hnone
    rw [List.flatMap_cons, ih hks hks']
    by_cases hq : q k = true
    · rw [List.filter_cons_of_pos hq, List.flatMap_cons, hk hq]
    · rw [List.filter_cons_of_neg hq, hk' hq, List.nil_append]

end Ranks

namespace Index

variable {ι : Type} [DecidableEq ι] (x y : Index ι) (filter filter' : List String)

omit [DecidableEq ι] in
/-- All values: key by key, and under a key as they stand. -/
def values : List ι := x.entries.flatMap Prod.snd

/-- What both filters offer, in the order of first appearance in the first index. -/
def inOrder : List ι :=
  x.values.eraseDups.filter fun i => (x.admitted filter).contains i && (y.admitted filter').contains i

/-- What both filters offer, in the order in which the first filter comes to it. -/
def asVisited : List ι := (x.admitted filter).eraseDups.filter ((y.admitted filter').contains ·)

/-- The keys that the first filter asks for and that have something the second one offers. -/
def bringing : List String :=
  (x.asked filter).eraseDups.filter fun key => (x.get key).any ((y.admitted filter').contains ·)

/-- No value stands under two keys, or twice under one. -/
structure Apart (x : Index ι) : Prop where
  once : ∀ key, (x.get key).Nodup
  one : ∀ key key' i, i ∈ x.get key → i ∈ x.get key' → key = key'

variable {x y filter filter'}

theorem filterMulti_eq_asVisited (hx : x.entries ≠ []) (hy : y.entries ≠ []) :
    x.filterMulti y filter filter' = .ok (x.asVisited y filter filter') := by
  rw [filterMulti_of_ne x y filter filter' hx hy, eraseDups_filter]
  rfl

theorem mem_asVisited {i : ι} :
    i ∈ x.asVisited y filter filter' ↔ i ∈ x.admitted filter ∧ i ∈ y.admitted filter' := by
  rw [asVisited, List.mem_filter, List.mem_eraseDups, List.contains_iff_mem]

theorem mem_inOrder {i : ι} :
    i ∈ x.inOrder y filter filter' ↔ i ∈ x.admitted filter ∧ i ∈ y.admitted filter' := by
  rw [inOrder, List.mem_filter, Bool.and_eq_true, List.contains_iff_mem, List.contains_iff_mem]
  refine and_iff_right_of_imp fun ⟨hi, _⟩ => ?_
  obtain ⟨e, he, hmem, -⟩ := (mem_admitted_iff x filter i).mp hi
  exact List.mem_eraseDups.mpr (List.mem_flatMap.mpr ⟨e, he, hmem⟩)

theorem asVisited_perm : (x.asVisited y filter filter').Perm (x.inOrder y filter filter') := by
  have hvisited : (x.asVisited y filter filter').Nodup := (nodup_eraseDups _).filter _
  have hordered : (x.inOrder y filter filter').Nodup := (nodup_eraseDups _).filter _
  rw [List.perm_ext_iff_of_nodup hvisited hordered]
  exact fun i => mem_asVisited.trans mem_inOrder.symm

theorem asVisited_eq_inOrder_iff : x.asVisited y filter filter' = x.inOrder y filter filter' ↔
    ∀ i ∈ x.asVisited y filter filter', ∀ j ∈ x.asVisited y filter filter',
      (x.admitted filter).idxOf i < (x.admitted filter).idxOf j → x.values.idxOf i < x.values.idxOf j :=
  eq_iff_of_ranks ((pairwise_idxOf_eraseDups _).filter _) ((pairwise_idxOf_eraseDups _).filter _)
    asVisited_perm

theorem asVisited_of_isWildcard (h : isWildcard filter = true) :
    x.asVisited y filter filter' = x.inOrder y filter filter' := by
  have hall : x.admitted filter = x.values := if_pos h
  rw [asVisited_eq_inOrder_iff, hall]
  exact fun i _ j _ hlt => hlt

theorem asVisited_congr_second {other : List String} (h : ∀ key, key ∈ other ↔ key ∈ filter') :
    x.asVisited y filter other = x.asVisited y filter filter' := by
  have hadmits : ∀ key, Admits other key ↔ Admits filter' key := by
    intro key
    simp only [Admits, h, List.eq_nil_iff_forall_not_mem]
  refine List.filter_congr fun i _ => ?_
  rw [Bool.eq_iff_iff, List.contains_iff_mem, List.contains_iff_mem, mem_admitted_iff,
    mem_admitted_iff, Offers, Offers]
  simp only [hadmits]

theorem eraseDups_admitted :
    (x.admitted filter).eraseDups = ((x.asked filter).eraseDups.flatMap x.get).eraseDups := by
  rw [admitted_eq, eraseDups_flatMap_eraseDups]

omit [DecidableEq ι] in
theorem asked_congr {other : List String} (h : other.eraseDups = filter.eraseDups) :
    (x.asked other).eraseDups = (x.asked filter).eraseDups := by
  have hmem : ∀ key, key ∈ other ↔ key ∈ filter := by
    intro key
    rw [← List.mem_eraseDups, h, List.mem_eraseDups]
  have hwildcard : isWildcard other = true ↔ isWildcard filter = true := by
    simp only [isWildcard_iff, hmem, List.eq_nil_iff_forall_not_mem]
  rw [asked, asked]
  by_cases hall : isWildcard filter = true
  · rw [if_pos hall, if_pos (hwildcard.mpr hall)]
  · rw [if_neg hall, if_neg (mt hwildcard.mp hall), h]

theorem asVisited_congr_first {other : List String} (h : other.eraseDups = filter.eraseDups) :
    x.asVisited y other filter' = x.asVisited y filter filter' := by
  rw [asVisited, eraseDups_admitted, asked_congr h, ← eraseDups_admitted, asVisited]

section Apart

/-- What a key of the first index has that the second filter offers. -/
def brought (x y : Index ι) (filter' : List String) (key : String) : List ι :=
  (x.get key).filter ((y.admitted filter').contains ·)

theorem brought_ne_nil {key : String} : x.brought y filter' key ≠ [] ↔
    ((x.get key).any fun i => (y.admitted filter').contains i) = true := by
  rw [brought, ne_eq, List.filter_eq_nil_iff, List.any_eq_true]
  push Not
  rfl

theorem mem_bringing {key : String} : key ∈ x.bringing y filter filter' ↔
    key ∈ x.asked filter ∧ x.brought y filter' key ≠ [] := by
  rw [bringing, List.mem_filter, List.mem_eraseDups, brought_ne_nil]

variable (h : x.Apart)

include h

theorem Apart.disjoint (key key' : String) (i : ι) (hi : i ∈ x.brought y filter' key)
    (hi' : i ∈ x.brought y filter' key') : key = key' :=
  h.one key key' i (List.mem_filter.mp hi).1 (List.mem_filter.mp hi').1

theorem Apart.asVisited_eq : x.asVisited y filter filter' =
    (x.bringing y filter filter').flatMap (x.brought y filter') := by
  rw [asVisited, admitted_eq x, eraseDups_flatMap h.once h.one, List.filter_flatMap]
  refine flatMap_eq_filter_flatMap (fun _ _ _ => rfl) fun key _ hnone => ?_
  by_contra hsome
  exact hnone (brought_ne_nil.mp hsome)

theorem Apart.inOrder_eq : x.inOrder y filter filter' =
    (x.keys.filter (· ∈ x.bringing y filter filter')).flatMap (x.brought y filter') := by
  rw [inOrder, values, ← flatMap_get, eraseDups_flatMap h.once h.one,
    eraseDups_of_nodup x.nodup_keys, List.filter_flatMap]
  refine flatMap_eq_filter_flatMap (fun key _ hkey => ?_) fun key _ hkey => ?_
  · refine List.filter_congr fun i hi => ?_
    have hasked := (mem_bringing.mp (of_decide_eq_true hkey)).1
    have hadmitted : i ∈ x.admitted filter := by
      rw [admitted_eq x]
      exact List.mem_flatMap.mpr ⟨key, hasked, hi⟩
    rw [List.contains_iff_mem.mpr hadmitted, Bool.true_and]
  · rw [List.filter_eq_nil_iff]
    intro i hi hboth
    obtain ⟨hadmitted, hother⟩ := Bool.and_eq_true_iff.mp hboth
    rw [List.contains_iff_mem, admitted_eq x, List.mem_flatMap] at hadmitted
    obtain ⟨key', hasked, hi'⟩ := hadmitted
    obtain rfl := h.one key key' i hi hi'
    have hbrought : x.brought y filter' key ≠ [] :=
      List.ne_nil_of_mem (List.mem_filter.mpr ⟨hi, hother⟩)
    exact hkey (decide_eq_true (mem_bringing.mpr ⟨hasked, hbrought⟩))

omit h in
theorem bringing_perm : (x.bringing y filter filter').Perm
    (x.keys.filter (· ∈ x.bringing y filter filter')) := by
  have hbringing : (x.bringing y filter filter').Nodup := (nodup_eraseDups _).filter _
  rw [List.perm_ext_iff_of_nodup hbringing (x.nodup_keys.filter _)]
  intro key
  rw [List.mem_filter, decide_eq_true_eq]
  refine (and_iff_right_of_imp fun hkey => ?_).symm
  obtain ⟨i, hi⟩ := List.exists_mem_of_ne_nil _ (mem_bringing.mp hkey).2
  obtain ⟨e, he, rfl, -⟩ := (mem_lookup x.ordered).mp (List.mem_filter.mp hi).1
  exact List.mem_map_of_mem he

/-- Where each value has one place, it is the order of the keys that decides. -/
theorem Apart.asVisited_eq_inOrder_iff : x.asVisited y filter filter' = x.inOrder y filter filter' ↔
    (x.bringing y filter filter').Pairwise (· < ·) := by
  have hsorted : (x.keys.filter (· ∈ x.bringing y filter filter')).Pairwise (· < ·) :=
    x.ordered.filter _
  have hbrings : ∀ key ∈ x.bringing y filter filter', x.brought y filter' key ≠ [] :=
    fun key hkey => (mem_bringing.mp hkey).2
  rw [h.asVisited_eq, h.inOrder_eq]
  constructor
  · intro hsame
    rw [flatMap_injective h.disjoint hbrings (fun key hkey => hbrings key ?_) hsame]
    · exact hsorted
    · exact of_decide_eq_true (List.mem_filter.mp hkey).2
  · intro hrises
    have hkeys := bringing_perm.eq_of_pairwise
      (fun _ _ _ _ hlt hgt => absurd hgt (String.lt_asymm hlt)) hrises hsorted
    rw [← hkeys]

theorem Apart.asVisited_eq_iff (other : List String) :
    x.asVisited y other filter' = x.asVisited y filter filter' ↔
      x.bringing y other filter' = x.bringing y filter filter' := by
  rw [h.asVisited_eq, h.asVisited_eq]
  constructor
  · exact flatMap_injective h.disjoint (fun key hkey => (mem_bringing.mp hkey).2)
      fun key hkey => (mem_bringing.mp hkey).2
  · intro hkeys
    rw [hkeys]

end Apart

/-- What is selected comes in the order in which the first filter comes to it. The second filter has no
say in that, nor do keys that the first one repeats, but the order of its keys does. -/
structure Arranges (x y : Index ι) (filter filter' : List String) (selected : List ι) : Prop where
  visited : selected = x.asVisited y filter filter'
  perm : selected.Perm (x.inOrder y filter filter')
  inOrder_iff : selected = x.inOrder y filter filter' ↔ ∀ i ∈ selected, ∀ j ∈ selected,
    (x.admitted filter).idxOf i < (x.admitted filter).idxOf j → x.values.idxOf i < x.values.idxOf j
  wildcard : isWildcard filter = true → selected = x.inOrder y filter filter'
  second : ∀ other, (∀ key, key ∈ other ↔ key ∈ filter') → x.filterMulti y filter other = .ok selected
  again : ∀ other, other.eraseDups = filter.eraseDups → x.filterMulti y other filter' = .ok selected
  apart : x.Apart → (selected = x.inOrder y filter filter' ↔
      (x.bringing y filter filter').Pairwise (· < ·)) ∧
    ∀ other, x.filterMulti y other filter' = .ok selected ↔
      x.bringing y other filter' = x.bringing y filter filter'

theorem filterMulti_arranges (hx : x.entries ≠ []) (hy : y.entries ≠ []) (filter filter' : List String) :
    ∃ selected, x.filterMulti y filter filter' = .ok selected ∧
      x.Arranges y filter filter' selected := by
  refine ⟨x.asVisited y filter filter', filterMulti_eq_asVisited hx hy, ?_⟩
  exact {
    visited := rfl
    perm := asVisited_perm
    inOrder_iff := asVisited_eq_inOrder_iff
    wildcard := asVisited_of_isWildcard
    second := fun other h => by rw [filterMulti_eq_asVisited hx hy, asVisited_congr_second h]
    again := fun other h => by rw [filterMulti_eq_asVisited hx hy, asVisited_congr_first h]
    apart := fun h => ⟨h.asVisited_eq_inOrder_iff, fun other => by
      rw [filterMulti_eq_asVisited hx hy, Except.ok.injEq, h.asVisited_eq_iff]⟩ }

section Markets

/-- Two markets with one value each. -/
def twoMarkets : Index Nat := ⟨[("m1", [0]), ("m2", [1])], by decide⟩

def oneAccount : Index Nat := ⟨[("s1", [0, 1])], by decide⟩

theorem filterMulti_arranges_twoMarkets : twoMarkets.entries ≠ [] ∧ oneAccount.entries ≠ [] ∧
    ∃ selected, twoMarkets.filterMulti oneAccount ["m2", "m1", "m2"] ["*"] = .ok selected ∧
      twoMarkets.Arranges oneAccount ["m2", "m1", "m2"] ["*"] selected :=
  have hmarkets : twoMarkets.entries ≠ [] := by decide
  have haccount : oneAccount.entries ≠ [] := by decide
  ⟨hmarkets, haccount, filterMulti_arranges hmarkets haccount ["m2", "m1", "m2"] ["*"]⟩

/-- The same two markets, named in two orders, select in two orders. -/
theorem filterMulti_twoMarkets_turned :
    twoMarkets.filterMulti oneAccount ["m2", "m1"] [] = .ok [1, 0] ∧
      twoMarkets.inOrder oneAccount ["m2", "m1"] [] = [0, 1] ∧
      twoMarkets.filterMulti oneAccount ["m1", "m2"] [] = .ok [0, 1] := by
  decide

end Markets

end Index

end BlockFeed
