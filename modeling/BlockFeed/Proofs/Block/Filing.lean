import BlockFeed.Block
import BlockFeed.Proofs.Block.Keyed
import Mathlib.Data.List.Nodup

/-! Every record that is pushed is filed twice: in each index once, as the same place, under its own key. -/

namespace BlockFeed

namespace Index

/-- Under each key stand the places of its records, in the order in which the records came, and each
place stands in one list only. -/
structure Files {α : Type} (x : Index Nat) (key : α → String) (rs : List α) : Prop where
  places : ∀ e ∈ x.entries,
    e.2 = (List.range rs.length).filter fun i => rs[i]?.map key = some e.1
  records : ∀ e ∈ x.entries, e.2.filterMap (rs[·]?) = rs.filter (key · = e.1)
  nonempty : ∀ e ∈ x.entries, e.2 ≠ []
  once : (x.entries.flatMap Prod.snd).Perm (List.range rs.length)

namespace Covers

variable {x : Index Nat} {keys : List String}

theorem entry_eq (h : x.Covers keys) {e : String × List Nat} (he : e ∈ x.entries) :
    e.2 = places keys e.1 := by
  rw [← h.get]
  exact (lookup_of_mem x.ordered he).symm

theorem entry_ne_nil (h : x.Covers keys) {e : String × List Nat} (he : e ∈ x.entries) : e.2 ≠ [] := by
  intro hnil
  have hkey : e.1 ∈ keys := (h.keys e.1).mp (List.mem_map_of_mem he)
  obtain ⟨i, hi⟩ := List.mem_iff_getElem?.mp hkey
  have hmem : i ∈ e.2 := by
    rw [h.entry_eq he]
    exact mem_places.mpr hi
  rw [hnil] at hmem
  exact List.not_mem_nil hmem

/-- No place has two keys, so the lists share nothing. -/
theorem nodup_flatMap (h : x.Covers keys) : (x.keys.flatMap x.get).Nodup := by
  rw [List.nodup_flatMap]
  refine ⟨fun key _ => ?_, x.nodup_keys.imp fun {key key'} hne i hi hi' => ?_⟩
  · rw [h.get]
    exact List.nodup_range.filter _
  · rw [h.get] at hi hi'
    exact hne (Option.some.inj ((mem_places.mp hi).symm.trans (mem_places.mp hi')))

theorem perm_range (h : x.Covers keys) :
    (x.entries.flatMap Prod.snd).Perm (List.range keys.length) := by
  rw [← flatMap_get, List.perm_ext_iff_of_nodup h.nodup_flatMap List.nodup_range]
  intro i
  rw [List.mem_flatMap, List.mem_range]
  constructor
  · rintro ⟨key, -, hi⟩
    rw [h.get] at hi
    exact (List.getElem?_eq_some_iff.mp (mem_places.mp hi)).1
  · intro hi
    have hkey : keys[i]? = some keys[i] := List.getElem?_eq_getElem hi
    refine ⟨keys[i], (h.keys _).mpr (List.getElem_mem hi), ?_⟩
    rw [h.get]
    exact mem_places.mpr hkey

theorem files {α : Type} {key : α → String} {rs : List α} (h : x.Covers (rs.map key)) :
    x.Files key rs where
  places := by
    intro e he
    rw [h.entry_eq he, BlockFeed.places, List.length_map]
    simp only [List.getElem?_map]
  records := by
    intro e he
    rw [h.entry_eq he, BlockFeed.places, List.length_map]
    apply filterMap_places
    intro i r hr
    simp [hr]
  nonempty := fun _ he => h.entry_ne_nil he
  once := by
    have hperm := h.perm_range
    rwa [List.length_map] at hperm

end Covers

end Index

namespace KeyedRecords

variable {α : Type} [Keyed α] {k : KeyedRecords α} {rs : List α}

theorem Holds.foldl_push (h : k.Holds rs) (rs' : List α) :
    (rs'.foldl KeyedRecords.push k).Holds (rs ++ rs') := by
  induction rs' generalizing k rs with
  | nil => rwa [List.append_nil]
  | cons r rs' ih =>
    have hrest := ih (h.push r)
    rwa [List.append_assoc] at hrest

/-- Both indices file the same records, and no filter is refused. -/
structure Filed (k : KeyedRecords α) (rs : List α) : Prop where
  records : k.records = rs
  byMarket : k.byMarket.Files Keyed.market rs
  bySubaccount : k.bySubaccount.Files (fun r => (Keyed.subaccount r).text) rs
  empty_iff : k.byMarket.entries = [] ↔ k.bySubaccount.entries = []
  length : k.length = rs.length
  select : ∀ f : StreamFilter, ∃ selected, k.select f = .ok selected

theorem length_push (k : KeyedRecords α) (r : α) : (k.push r).length = k.length + 1 := rfl

theorem length_foldl_push (k : KeyedRecords α) (rs : List α) :
    (rs.foldl KeyedRecords.push k).length = k.length + rs.length := by
  induction rs generalizing k with
  | nil => rfl
  | cons r rs ih =>
    rw [List.foldl_cons, ih, length_push, List.length_cons]
    omega

theorem Holds.filed (h : k.Holds rs) (hlen : k.length = rs.length) : k.Filed rs where
  records := h.records
  byMarket := h.byMarket.files
  bySubaccount := h.bySubaccount.files
  empty_iff := by
    rw [← List.isEmpty_iff, ← List.isEmpty_iff]
    exact Bool.eq_iff_iff.mp h.isEmpty_eq
  length := hlen
  select := fun f => ⟨_, h.select_eq f⟩

theorem filed_foldl_push (rs : List α) : (rs.foldl KeyedRecords.push .empty).Filed rs :=
  (holds_empty.foldl_push rs).filed ((length_foldl_push .empty rs).trans (Nat.zero_add _))

end KeyedRecords

namespace Block

theorem recordCount_push (b : Block) (r : Record) : (b.push r).recordCount = b.recordCount + 1 := by
  cases r <;> simp only [push, recordCount, KeyedRecords.length_push, List.length_append,
    List.length_singleton] <;> omega

theorem recordCount_foldl_push (b : Block) (records : List Record) :
    (records.foldl push b).recordCount = b.recordCount + records.length := by
  induction records generalizing b with
  | nil => rfl
  | cons r records ih =>
    rw [List.foldl_cons, ih, recordCount_push, List.length_cons]
    omega

/-- Pushed records are filed under both of their keys, and a block counts all that went into it. -/
theorem filed_pushes {α : Type} [Keyed α] (rs : List α) (height : UInt64) (records : List Record) :
    (rs.foldl KeyedRecords.push .empty).Filed rs ∧
      (aggregate height records).recordCount = records.length := by
  have hcount := recordCount_foldl_push (empty height) records
  have hnone : (empty height).recordCount = 0 := rfl
  rw [hnone, Nat.zero_add] at hcount
  exact ⟨KeyedRecords.filed_foldl_push rs, hcount⟩

end Block

end BlockFeed
