import BlockFeed.Decode
import BlockFeed.Proofs.Block.Index
import Mathlib.Data.List.Induction

/-! Deposits regrouped by subaccount: the subaccounts in the order in which they first appear, each
with all of its entries and no other's. -/

namespace BlockFeed

section Firsts

variable {κ : Type} [DecidableEq κ]

/-- Of a list taken apart by key nothing is lost and nothing is doubled. -/
theorem perm_flatMap_filter {α : Type} (key : α → κ) {ks : List κ} (hnodup : ks.Nodup) {l : List α}
    (hall : ∀ a ∈ l, key a ∈ ks) : (ks.flatMap fun k => l.filter (key · = k)).Perm l := by
  induction ks generalizing l with
  | nil =>
    obtain rfl : l = [] := List.eq_nil_iff_forall_not_mem.mpr fun a ha => List.not_mem_nil (hall a ha)
    exact .nil
  | cons k ks ih =>
    obtain ⟨hk, hks⟩ := List.nodup_cons.mp hnodup
    have hothers : (ks.flatMap fun k' => l.filter (key · = k')) =
        ks.flatMap fun k' => (l.filter fun a => !decide (key a = k)).filter (key · = k') := by
      apply List.flatMap_congr
      intro k' hk'
      rw [List.filter_filter]
      apply List.filter_congr
      intro a _
      have hne : k' ≠ k := fun he => hk (he ▸ hk')
      by_cases ha : key a = k' <;> simp [ha, hne]
    have hrest : ∀ a ∈ l.filter fun a => !decide (key a = k), key a ∈ ks := by
      intro a ha
      obtain ⟨ha, hne⟩ := List.mem_filter.mp ha
      exact (List.mem_cons.mp (hall a ha)).resolve_left (by simpa using hne)
    rw [List.flatMap_cons, hothers]
    exact ((ih hks hrest).append_left _).trans (List.filter_append_perm _ l)

end Firsts

namespace DepositUpdate

/-- The entries of all denoms in payload order, each with its subaccount. -/
def entries (updates : List Payload.DenomDeposits) : List (SubaccountId × DenomBalances) :=
  updates.flatMap fun u => u.deposits.map fun d => (d.subaccount, ⟨u.denom, d.balances⟩)

/-- The entries of one subaccount. -/
def entriesOf (es : List (SubaccountId × DenomBalances)) (id : SubaccountId) : List DenomBalances :=
  (es.filter (·.1 = id)).map Prod.snd

def bySubaccount (es : List (SubaccountId × DenomBalances)) : List DepositUpdate :=
  (es.map Prod.fst).eraseDups.map fun id => ⟨id, entriesOf es id⟩

theorem entriesOf_concat (es : List (SubaccountId × DenomBalances)) (k id : SubaccountId)
    (entry : DenomBalances) :
    entriesOf (es ++ [(k, entry)]) id = entriesOf es id ++ if k = id then [entry] else [] := by
  rw [entriesOf, List.filter_append, List.map_append, entriesOf]
  by_cases h : k = id <;> simp [h]

theorem entriesOf_eq_nil {es : List (SubaccountId × DenomBalances)} {k : SubaccountId}
    (h : k ∉ es.map Prod.fst) : entriesOf es k = [] := by
  rw [entriesOf, List.map_eq_nil_iff, List.filter_eq_nil_iff]
  intro e he heq
  have hkey : e.1 = k := by simpa using heq
  exact h (hkey ▸ List.mem_map_of_mem he)

namespace Grouping

/-- The updates are those of the subaccounts `ids`, and the slots tell where each of them stands. -/
structure Tracks (g : Grouping) (ids : List SubaccountId) (held : SubaccountId → List DenomBalances) :
    Prop where
  updates : g.updates = ids.map fun id => ⟨id, held id⟩
  slots : ∀ id i, g.slots.lookup id = some i ↔ ids[i]? = some id

variable {g : Grouping} {ids : List SubaccountId} {held : SubaccountId → List DenomBalances}
  {k : SubaccountId}

theorem tracks_empty : empty.Tracks [] fun _ => [] where
  updates := rfl
  slots := by simp [empty]

theorem Tracks.slot_of_mem (h : g.Tracks ids held) (hk : k ∈ ids) :
    ∃ i, g.slot k = (i, g) ∧ ids[i]? = some k := by
  obtain ⟨i, hi⟩ := List.mem_iff_getElem?.mp hk
  refine ⟨i, ?_, hi⟩
  rw [slot, (h.slots k i).mpr hi]

theorem Tracks.slots_concat (h : g.Tracks ids held) (hk : k ∉ ids) (id : SubaccountId) (i : Nat) :
    ((k, ids.length) :: g.slots).lookup id = some i ↔ (ids ++ [k])[i]? = some id := by
  rw [List.lookup_cons]
  by_cases hid : id = k
  · have hbehind : (ids ++ [k])[i]? = some k ↔ i = ids.length := by
      constructor
      · intro hi
        by_contra hne
        have hold : ids[i]? = some k := by
          rwa [List.getElem?_append_left (by grind)] at hi
        exact hk (List.mem_of_getElem? hold)
      · rintro rfl
        exact List.getElem?_concat_length
    rw [hid, hbehind]
    simp [eq_comm]
  · have hother : (id == k) = false := beq_false_of_ne hid
    rw [hother]
    show g.slots.lookup id = some i ↔ _
    rw [h.slots]
    grind

theorem Tracks.slot_of_not_mem (h : g.Tracks ids held) (hk : k ∉ ids) (hheld : held k = []) :
    ∃ g', g.slot k = (ids.length, g') ∧ g'.Tracks (ids ++ [k]) held := by
  have hlen : g.updates.length = ids.length := by rw [h.updates, List.length_map]
  have hnone : g.slots.lookup k = none := by
    cases hslot : g.slots.lookup k with
    | none => rfl
    | some i => exact absurd (List.mem_of_getElem? ((h.slots k i).mp hslot)) hk
  refine ⟨⟨g.updates ++ [⟨k, []⟩], (k, ids.length) :: g.slots⟩, ?_, ?_, h.slots_concat hk⟩
  · rw [slot, hnone, hlen]
  · rw [h.updates, List.map_append, List.map_singleton, hheld]

/-- An entry put at the place of `k` joins what `k` has. -/
theorem Tracks.modify (h : g.Tracks ids held) {i : Nat} (hi : ids[i]? = some k)
    (entry : DenomBalances) :
    Tracks { g with updates := g.updates.modify i fun u => { u with deposits := u.deposits ++ [entry] } }
      ids fun id => held id ++ if k = id then [entry] else [] where
  updates := by
    apply List.ext_getElem?
    intro j
    rw [List.getElem?_modify, h.updates, List.getElem?_map, List.getElem?_map]
    cases hj : ids[j]? with
    | none => rfl
    | some id =>
      -- the slots tell the places of different subaccounts apart
      have hplace : i = j ↔ k = id := by
        constructor
        · rintro rfl
          exact Option.some.inj (hi.symm.trans hj)
        · rintro rfl
          exact Option.some.inj (((h.slots k i).mpr hi).symm.trans ((h.slots k j).mpr hj))
      by_cases hk : k = id
      · simp [hplace.mpr hk, hk]
      · simp [mt hplace.mp hk, hk]
  slots := h.slots

theorem Tracks.add (h : g.Tracks ids held) (hheld : k ∉ ids → held k = []) (entry : DenomBalances) :
    (g.add k entry).Tracks (if k ∈ ids then ids else ids ++ [k])
      fun id => held id ++ if k = id then [entry] else [] := by
  by_cases hk : k ∈ ids
  · obtain ⟨i, hslot, hi⟩ := h.slot_of_mem hk
    rw [if_pos hk, Grouping.add, hslot]
    exact h.modify hi entry
  · obtain ⟨g', hslot, hg'⟩ := h.slot_of_not_mem hk (hheld hk)
    rw [if_neg hk, Grouping.add, hslot]
    exact hg'.modify List.getElem?_concat_length entry

theorem tracks_foldl_add (es : List (SubaccountId × DenomBalances)) :
    (es.foldl (fun g e => g.add e.1 e.2) empty).Tracks (es.map Prod.fst).eraseDups (entriesOf es) := by
  induction es using List.reverseRecOn with
  | nil => exact tracks_empty
  | append_singleton es e ih =>
    obtain ⟨k, entry⟩ := e
    have hnone : k ∉ (es.map Prod.fst).eraseDups → entriesOf es k = [] := fun hk =>
      entriesOf_eq_nil fun hmem => hk (List.mem_eraseDups.mpr hmem)
    have hstep := ih.add hnone entry
    have hheld : (fun id => entriesOf es id ++ if k = id then [entry] else []) =
        entriesOf (es ++ [(k, entry)]) := funext fun id => (entriesOf_concat es k id entry).symm
    rw [List.foldl_concat, List.map_append, List.map_singleton, eraseDups_concat, ← hheld]
    simpa only [List.mem_eraseDups] using hstep

theorem foldl_addAll (updates : List Payload.DenomDeposits) (g : Grouping) :
    updates.foldl addAll g = (entries updates).foldl (fun g e => g.add e.1 e.2) g := by
  rw [entries, List.foldl_flatMap]
  simp only [List.foldl_map]
  rfl

end Grouping

theorem regroup_eq (updates : List Payload.DenomDeposits) :
    regroup updates = bySubaccount (entries updates) := by
  rw [regroup, Grouping.foldl_addAll, (Grouping.tracks_foldl_add _).updates, bySubaccount]

/-- The subaccounts of the entries, each once and where it first appears, with the subsequence of its
entries. All entries are there, and none under another subaccount. -/
structure Regroups (es : List (SubaccountId × DenomBalances)) (grouped : List DepositUpdate) : Prop where
  nodup : (grouped.map (·.subaccount)).Nodup
  mem : ∀ id, id ∈ grouped.map (·.subaccount) ↔ id ∈ es.map Prod.fst
  ordered : (grouped.map (·.subaccount)).Pairwise fun id id' =>
    (es.map Prod.fst).idxOf id < (es.map Prod.fst).idxOf id'
  deposits : ∀ u ∈ grouped, u.deposits = (es.filter (·.1 = u.subaccount)).map Prod.snd
  perm : (grouped.flatMap fun u => u.deposits.map (u.subaccount, ·)).Perm es
  total : (grouped.flatMap (·.deposits)).length = es.length

theorem entriesOf_tagged (es : List (SubaccountId × DenomBalances)) (id : SubaccountId) :
    (entriesOf es id).map (id, ·) = es.filter (·.1 = id) := by
  rw [entriesOf, List.map_map]
  conv_rhs => rw [← List.map_id (es.filter (·.1 = id))]
  apply List.map_congr_left
  intro e he
  obtain rfl : e.1 = id := by simpa using (List.mem_filter.mp he).2
  rfl

theorem regroups_bySubaccount (es : List (SubaccountId × DenomBalances)) :
    Regroups es (bySubaccount es) := by
  have hids : (bySubaccount es).map (·.subaccount) = (es.map Prod.fst).eraseDups := by
    rw [bySubaccount, List.map_map]
    exact List.map_id _
  have hperm : ((bySubaccount es).flatMap fun u => u.deposits.map (u.subaccount, ·)).Perm es := by
    rw [bySubaccount, List.flatMap_map]
    simp only [entriesOf_tagged]
    apply perm_flatMap_filter Prod.fst (nodup_eraseDups _)
    exact fun e he => List.mem_eraseDups.mpr (List.mem_map_of_mem he)
  refine ⟨?_, ?_, ?_, ?_, hperm, ?_⟩
  · rw [hids]
    exact nodup_eraseDups _
  · intro id
    rw [hids, List.mem_eraseDups]
  · rw [hids]
    exact pairwise_idxOf_eraseDups _
  · intro u hu
    obtain ⟨id, -, rfl⟩ := List.mem_map.mp hu
    rfl
  · rw [← hperm.length_eq, List.length_flatMap, List.length_flatMap]
    simp only [List.length_map]

end DepositUpdate

end BlockFeed
