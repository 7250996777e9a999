import BlockFeed.Block.Index
import Mathlib.Data.List.Basic
import Mathlib.Data.List.Induction
import Mathlib.Data.List.Nodup

/-! An index covers the keys it was built from: under each key stand the places of that key. What
two such indices select is then a matter of the keys alone. -/

namespace BlockFeed

section Duplicates

variable {α κ : Type} [DecidableEq κ]

theorem nodup_eraseDups (l : List κ) : l.eraseDups.Nodup := by
  induction hn : l.length using Nat.strongRecOn generalizing l with
  | ind n ih =>
    cases l with
    | nil => exact List.nodup_nil
    | cons k l =>
      have hshort : (l.filter fun k' => !k' == k).length < n := by
        rw [← hn, List.length_cons]
        exact Nat.lt_succ_of_le (List.length_filter_le _ _)
      have hfirst : k ∉ (l.filter fun k' => !k' == k).eraseDups := fun hk => by
        simpa using (List.mem_filter.mp (List.mem_eraseDups.mp hk)).2
      rw [List.eraseDups_cons]
      exact List.nodup_cons.mpr ⟨hfirst, ih _ hshort _ rfl⟩

theorem eraseDups_of_nodup [DecidableEq α] {l : List α} (h : l.Nodup) : l.eraseDups = l := by
  induction l with
  | nil => simp
  | cons a l ih =>
    obtain ⟨ha, hl⟩ := List.nodup_cons.mp h
    have hfilter : l.filter (fun b => !b == a) = l := by
      rw [List.filter_eq_self]
      intro b hb
      have hne : b ≠ a := fun he => ha (he ▸ hb)
      simpa using hne
    rw [List.eraseDups_cons, hfilter, ih hl]

theorem eraseDups_concat (ks : List κ) (k : κ) :
    (ks ++ [k]).eraseDups = if k ∈ ks then ks.eraseDups else ks.eraseDups ++ [k] := by
  have hone : [k].eraseDups = [k] := eraseDups_of_nodup (by simp)
  rw [List.eraseDups_append]
  by_cases hk : k ∈ ks
  · have hnone : [k].removeAll ks = [] := by simpa [List.removeAll] using hk
    rw [hnone, if_pos hk, List.eraseDups_nil, List.append_nil]
  · have hnew : [k].removeAll ks = [k] := by simpa [List.removeAll] using hk
    rw [hnew, hone, if_neg hk]

/-- Without its later occurrences a key stands where it came first. -/
theorem pairwise_idxOf_eraseDups (ks : List κ) :
    ks.eraseDups.Pairwise fun k k' => ks.idxOf k < ks.idxOf k' := by
  induction ks using List.reverseRecOn with
  | nil => simp
  | append_singleton ks k ih =>
    have hold : ∀ k', k' ∈ ks → (ks ++ [k]).idxOf k' = ks.idxOf k' := fun k' hk' =>
      List.idxOf_append_of_mem hk'
    have hkept : ks.eraseDups.Pairwise fun k₁ k₂ => (ks ++ [k]).idxOf k₁ < (ks ++ [k]).idxOf k₂ := by
      refine ih.imp_of_mem fun {k₁ k₂} h₁ h₂ hlt => ?_
      rwa [hold k₁ (List.mem_eraseDups.mp h₁), hold k₂ (List.mem_eraseDups.mp h₂)]
    rw [eraseDups_concat]
    by_cases hk : k ∈ ks
    · rwa [if_pos hk]
    · rw [if_neg hk, List.pairwise_append]
      refine ⟨hkept, List.pairwise_singleton _ k, fun k' hk' k'' hk'' => ?_⟩
      obtain rfl : k'' = k := List.mem_singleton.mp hk''
      have hmem : k' ∈ ks := List.mem_eraseDups.mp hk'
      rw [hold k' hmem, List.idxOf_append_of_notMem hk]
      exact Nat.lt_add_right _ (List.idxOf_lt_length_of_mem hmem)

theorem eraseDups_filter (p : κ → Bool) (ks : List κ) :
    (ks.filter p).eraseDups = ks.eraseDups.filter p := by
  induction ks using List.reverseRecOn with
  | nil => rfl
  | append_singleton ks k ih =>
    rw [List.filter_append, eraseDups_concat]
    by_cases hp : p k = true
    · have hkept : [k].filter p = [k] := List.filter_cons_of_pos hp
      have hmem : k ∈ ks.filter p ↔ k ∈ ks := by simp [List.mem_filter, hp]
      rw [hkept, eraseDups_concat, ih]
      by_cases hk : k ∈ ks
      · rw [if_pos hk, if_pos (hmem.mpr hk)]
      · rw [if_neg hk, if_neg (mt hmem.mp hk), List.filter_append, hkept]
    · have hnone : [k].filter p = [] := List.filter_cons_of_neg hp
      rw [hnone, List.append_nil, ih]
      by_cases hk : k ∈ ks
      · rw [if_pos hk]
      · rw [if_neg hk, List.filter_append, hnone, List.append_nil]

/-- A key that comes again brings nothing new. -/
theorem eraseDups_flatMap_eraseDups [DecidableEq α] (f : κ → List α) (ks : List κ) :
    (ks.flatMap f).eraseDups = (ks.eraseDups.flatMap f).eraseDups := by
  induction ks using List.reverseRecOn with
  | nil => rfl
  | append_singleton ks k ih =>
    have hlast : ∀ ks, (ks ++ [k]).flatMap f = ks.flatMap f ++ f k := fun ks => by
      rw [List.flatMap_append, List.flatMap_singleton]
    rw [hlast, List.eraseDups_append, eraseDups_concat]
    by_cases hk : k ∈ ks
    · have hnone : (f k).removeAll (ks.flatMap f) = [] := by
        rw [List.removeAll, List.filter_eq_nil_iff]
        intro a ha
        simpa using ⟨k, hk, ha⟩
      rw [hnone, List.eraseDups_nil, List.append_nil, if_pos hk, ih]
    · have hsame : (f k).removeAll (ks.flatMap f) = (f k).removeAll (ks.eraseDups.flatMap f) := by
        refine List.filter_congr fun a _ => ?_
        simp
      rw [if_neg hk, hlast, List.eraseDups_append, hsame, ih]

/-- Of lists that share nothing, one per key, each key's list stays where the key comes first. -/
theorem eraseDups_flatMap [DecidableEq α] {f : κ → List α} (hnodup : ∀ k, (f k).Nodup)
    (hdisjoint : ∀ k k' a, a ∈ f k → a ∈ f k' → k = k') (ks : List κ) :
    (ks.flatMap f).eraseDups = ks.eraseDups.flatMap f := by
  have hapart : ks.eraseDups.Pairwise (Function.onFun List.Disjoint f) :=
    (nodup_eraseDups ks).imp fun {k k'} hne a ha ha' => hne (hdisjoint k k' a ha ha')
  have honce : (ks.eraseDups.flatMap f).Nodup := List.nodup_flatMap.mpr ⟨fun k _ => hnodup k, hapart⟩
  rw [eraseDups_flatMap_eraseDups, eraseDups_of_nodup honce]

theorem flatMap_ite_eq {ks : List κ} (h : ks.Nodup) (k : κ) (l : List α) :
    ks.flatMap (fun k' => if k' = k then l else []) = if k ∈ ks then l else [] := by
  induction ks with
  | nil => simp
  | cons k' ks ih =>
    obtain ⟨hk', hks⟩ := List.nodup_cons.mp h
    rw [List.flatMap_cons, ih hks]
    by_cases he : k' = k
    · subst he
      simp [hk']
    · have hne : k ≠ k' := fun hk => he hk.symm
      simp [he, hne]

end Duplicates

/-- The places at which a key stands, in order. -/
def places (keys : List String) (key : String) : List Nat :=
  (List.range keys.length).filter (keys[·]? = some key)

theorem mem_places {keys : List String} {key : String} {i : Nat} :
    i ∈ places keys key ↔ keys[i]? = some key := by
  constructor
  · intro h
    simpa using (List.mem_filter.mp h).2
  · intro h
    obtain ⟨hi, -⟩ := List.getElem?_eq_some_iff.mp h
    exact List.mem_filter.mpr ⟨List.mem_range.mpr hi, by simpa using h⟩

theorem places_concat (keys : List String) (new key : String) :
    places (keys ++ [new]) key = places keys key ++ if new = key then [keys.length] else [] := by
  have hold : (List.range keys.length).filter (fun i => (keys ++ [new])[i]? = some key) =
      places keys key := by
    apply List.filter_congr
    intro i hi
    rw [List.getElem?_append_left (List.mem_range.mp hi)]
  have hnew : [keys.length].filter (fun i => (keys ++ [new])[i]? = some key) =
      if new = key then [keys.length] else [] := by
    by_cases he : new = key <;> simp [he]
  rw [places, List.length_append, List.length_singleton, List.range_succ, List.filter_append,
    hold, hnew]

namespace Index

variable {ι : Type}

def keys (x : Index ι) : List String := x.entries.map Prod.fst

/-- The list under a key, empty where the key is none of the entries'. -/
def lookup (entries : List (String × List ι)) (key : String) : List ι :=
  match entries.find? (·.1 = key) with
  | some e => e.2
  | none => []

@[simp] theorem lookup_nil (key : String) : lookup ([] : List (String × List ι)) key = [] := rfl

theorem lookup_cons (k : String) (is : List ι) (entries : List (String × List ι)) (key : String) :
    lookup ((k, is) :: entries) key = if k = key then is else lookup entries key := by
  by_cases hk : k = key <;> simp [lookup, hk]

theorem lookup_of_lt {entries : List (String × List ι)} {key : String}
    (h : ∀ k ∈ entries.map Prod.fst, key < k) : lookup entries key = [] := by
  have hnone : entries.find? (·.1 = key) = none := by
    rw [List.find?_eq_none]
    intro e he hkey
    have hkey : e.1 = key := by simpa using hkey
    exact String.lt_irrefl key (hkey ▸ h e.1 (List.mem_map_of_mem he))
  rw [lookup, hnone]

theorem lookup_insertEntry {entries : List (String × List ι)}
    (h : (entries.map Prod.fst).Pairwise (· < ·)) (new key : String) (i : ι) :
    lookup (insertEntry new i entries) key =
      lookup entries key ++ if new = key then [i] else [] := by
  induction entries with
  | nil => simp only [insertEntry, lookup_cons, lookup_nil, List.nil_append]
  | cons e entries ih =>
    obtain ⟨k, is⟩ := e
    obtain ⟨hafter, hrest⟩ := List.pairwise_cons.mp h
    by_cases hlt : new < k
    · have hins : insertEntry new i ((k, is) :: entries) = (new, [i]) :: (k, is) :: entries := by
        simp [insertEntry, hlt]
      -- no key of the index is as small as the new one
      have hnone : lookup ((k, is) :: entries) new = [] := by
        apply lookup_of_lt
        intro k' hk'
        rcases List.mem_cons.mp hk' with rfl | hk'
        · exact hlt
        · exact String.lt_trans hlt (hafter k' hk')
      rw [hins, lookup_cons]
      by_cases hk : new = key
      · rw [if_pos hk, if_pos hk, ← hk, hnone, List.nil_append]
      · rw [if_neg hk, if_neg hk, List.append_nil]
    by_cases heq : k = new
    · have hins : insertEntry new i ((k, is) :: entries) = (k, is ++ [i]) :: entries := by
        simp [insertEntry, heq]
      rw [hins, lookup_cons, lookup_cons, heq]
      by_cases hk : new = key
      · rw [if_pos hk, if_pos hk, if_pos hk]
      · rw [if_neg hk, if_neg hk, if_neg hk, List.append_nil]
    · have hins : insertEntry new i ((k, is) :: entries) =
          (k, is) :: insertEntry new i entries := by
        simp [insertEntry, hlt, heq]
      rw [hins, lookup_cons, lookup_cons, ih hrest]
      by_cases hk : k = key
      · have hne : new ≠ key := fun he => heq (hk.trans he.symm)
        rw [if_pos hk, if_pos hk, if_neg hne, List.append_nil]
      · rw [if_neg hk, if_neg hk]

theorem get_insert (x : Index ι) (new key : String) (i : ι) :
    (x.insert new i).get key = x.get key ++ if new = key then [i] else [] :=
  lookup_insertEntry x.ordered new key i

theorem nodup_keys (x : Index ι) : x.keys.Nodup := x.ordered.imp fun h => String.ne_of_lt h

theorem lookup_of_mem {entries : List (String × List ι)}
    (h : (entries.map Prod.fst).Pairwise (· < ·)) {e : String × List ι} (he : e ∈ entries) :
    lookup entries e.1 = e.2 := by
  induction entries with
  | nil => exact absurd he List.not_mem_nil
  | cons first entries ih =>
    obtain ⟨k, is⟩ := first
    obtain ⟨hafter, hrest⟩ := List.pairwise_cons.mp h
    rw [lookup_cons]
    rcases List.mem_cons.mp he with rfl | he
    · rw [if_pos rfl]
    · have hlt : k < e.1 := hafter e.1 (List.mem_map_of_mem he)
      rw [if_neg (String.ne_of_lt hlt), ih hrest he]

theorem mem_lookup {entries : List (String × List ι)}
    (h : (entries.map Prod.fst).Pairwise (· < ·)) {key : String} {i : ι} :
    i ∈ lookup entries key ↔ ∃ e ∈ entries, e.1 = key ∧ i ∈ e.2 := by
  constructor
  · intro hi
    cases hfind : entries.find? (·.1 = key) with
    | none =>
      rw [lookup, hfind] at hi
      exact absurd hi List.not_mem_nil
    | some e =>
      rw [lookup, hfind] at hi
      have hkey : e.1 = key := by simpa using List.find?_some hfind
      exact ⟨e, List.mem_of_find?_eq_some hfind, hkey, hi⟩
  · rintro ⟨e, he, rfl, hi⟩
    rwa [lookup_of_mem h he]

theorem flatMap_lookup {entries : List (String × List ι)}
    (h : (entries.map Prod.fst).Pairwise (· < ·)) :
    (entries.map Prod.fst).flatMap (lookup entries) = entries.flatMap Prod.snd := by
  induction entries with
  | nil => rfl
  | cons e entries ih =>
    obtain ⟨k, is⟩ := e
    obtain ⟨hafter, hrest⟩ := List.pairwise_cons.mp h
    have htail : (entries.map Prod.fst).flatMap (lookup ((k, is) :: entries)) =
        (entries.map Prod.fst).flatMap (lookup entries) := by
      apply List.flatMap_congr
      intro k' hk'
      have hne : k ≠ k' := fun he => String.lt_irrefl k (by simpa [← he] using hafter k' hk')
      rw [lookup_cons, if_neg hne]
    rw [List.map_cons, List.flatMap_cons, htail, ih hrest, lookup_cons, if_pos rfl,
      List.flatMap_cons]

theorem flatMap_get (x : Index ι) : x.keys.flatMap x.get = x.entries.flatMap Prod.snd :=
  flatMap_lookup x.ordered

/-- What a filter says of one key. -/
def Admits (filter : List String) (key : String) : Prop :=
  filter = [] ∨ wildcard ∈ filter ∨ key ∈ filter

instance (filter : List String) (key : String) : Decidable (Admits filter key) :=
  inferInstanceAs (Decidable (_ ∨ _ ∨ _))

theorem isWildcard_iff {filter : List String} :
    isWildcard filter = true ↔ filter = [] ∨ wildcard ∈ filter := by
  simp [isWildcard]

theorem admits_of_isWildcard {filter : List String} (h : isWildcard filter = true) (key : String) :
    Admits filter key :=
  or_assoc.mp (.inl (isWildcard_iff.mp h))

theorem admits_iff_mem {filter : List String} (h : ¬ isWildcard filter = true) {key : String} :
    Admits filter key ↔ key ∈ filter := by
  rw [Admits, ← or_assoc, or_iff_right (mt isWildcard_iff.mpr h)]

/-- The keys whose values a filter asks for, in the order in which it asks. -/
def asked (x : Index ι) (filter : List String) : List String :=
  if isWildcard filter then x.keys else filter

theorem admitted_eq (x : Index ι) (filter : List String) :
    x.admitted filter = (x.asked filter).flatMap x.get := by
  rw [admitted, asked]
  by_cases h : isWildcard filter = true
  · rw [if_pos h, if_pos h, flatMap_get]
  · rw [if_neg h, if_neg h]

/-- The index holds the places of every key, and has entries for no other. -/
structure Covers (x : Index Nat) (keys : List String) : Prop where
  get : ∀ key, x.get key = places keys key
  keys : ∀ key, key ∈ x.keys ↔ key ∈ keys

theorem covers_empty : Covers .empty [] where
  get := fun _ => rfl
  keys := fun _ => Iff.rfl

namespace Covers

variable {x y : Index Nat} {keys others : List String}

theorem insert (h : x.Covers keys) (new : String) :
    (x.insert new keys.length).Covers (keys ++ [new]) where
  get := by
    intro key
    rw [get_insert, h.get, places_concat]
  keys := by
    intro key
    have hkeys : key ∈ (x.insert new keys.length).keys ↔ key = new ∨ key ∈ x.keys :=
      mem_keys_insertEntry
    rw [hkeys, h.keys, List.mem_append, List.mem_singleton]
    exact Or.comm

theorem isEmpty_eq (h : x.Covers keys) : x.isEmpty = keys.isEmpty := by
  cases hk : keys with
  | nil =>
    have hnone : x.entries = [] := by
      rw [← List.map_eq_nil_iff (f := Prod.fst), List.eq_nil_iff_forall_not_mem]
      intro key hmem
      have hkey := (h.keys key).mp hmem
      simp [hk] at hkey
    simp [isEmpty, hnone]
  | cons key rest =>
    have hmem : key ∈ x.keys := (h.keys key).mpr (by simp [hk])
    have hsome : x.entries ≠ [] := by
      intro hnone
      simp [Index.keys, hnone] at hmem
    simp [isEmpty, hsome]

theorem mem_asked (h : x.Covers keys) {filter : List String} {key : String} (hkey : key ∈ keys) :
    key ∈ x.asked filter ↔ Admits filter key := by
  rw [asked]
  by_cases hw : isWildcard filter = true
  · rw [if_pos hw, h.keys]
    exact iff_of_true hkey (admits_of_isWildcard hw key)
  · rw [if_neg hw, admits_iff_mem hw]

theorem mem_admitted (h : x.Covers keys) {filter : List String} {i : Nat} :
    i ∈ x.admitted filter ↔ ∃ key, keys[i]? = some key ∧ Admits filter key := by
  rw [admitted_eq, List.mem_flatMap]
  constructor
  · rintro ⟨key, hasked, hi⟩
    rw [h.get] at hi
    have hkey := mem_places.mp hi
    exact ⟨key, hkey, (h.mem_asked (List.mem_of_getElem? hkey)).mp hasked⟩
  · rintro ⟨key, hkey, hadmits⟩
    refine ⟨key, (h.mem_asked (List.mem_of_getElem? hkey)).mpr hadmits, ?_⟩
    rw [h.get]
    exact mem_places.mpr hkey

/-- Two indices of as many keys never refuse a filter. They select one key of the first after the
other, and under each the places that the second admits. -/
theorem filterMulti (h : x.Covers keys) (h' : y.Covers others) (hlen : keys.length = others.length)
    (filter filter' : List String) :
    x.filterMulti y filter filter' = .ok ((x.asked filter).eraseDups.flatMap fun key =>
      (places keys key).filter ((y.admitted filter').contains ·)) := by
  have hempty : x.isEmpty = y.isEmpty := by
    rw [h.isEmpty_eq, h'.isEmpty_eq, Bool.eq_iff_iff, List.isEmpty_iff_length_eq_zero,
      List.isEmpty_iff_length_eq_zero, hlen]
  have hselect : ((x.admitted filter).filter ((y.admitted filter').contains ·)).eraseDups =
      (x.asked filter).eraseDups.flatMap fun key =>
        (places keys key).filter ((y.admitted filter').contains ·) := by
    rw [admitted_eq x, List.filter_flatMap]
    have hget : ∀ key, x.get key = places keys key := h.get
    simp only [hget]
    apply eraseDups_flatMap
    · intro key
      exact (List.nodup_range.filter _).filter _
    · intro key key' i hi hi'
      have hkey := mem_places.mp (List.mem_filter.mp hi).1
      have hkey' := mem_places.mp (List.mem_filter.mp hi').1
      exact Option.some.inj (hkey.symm.trans hkey')
  simp only [Index.filterMulti, hselect, ← hempty]
  cases hx : x.isEmpty with
  | false => rfl
  | true =>
    have hkeys : keys = [] := List.isEmpty_iff.mp (h.isEmpty_eq.symm.trans hx)
    subst hkeys
    simp [places]

end Covers

end Index

end BlockFeed
