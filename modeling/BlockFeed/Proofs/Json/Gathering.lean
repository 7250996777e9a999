import BlockFeed.Json.Record
import BlockFeed.Proofs.Outcome
import Mathlib.Data.List.Nodup

/-! What the reader of a record has in hand before it builds the record: nodes under the names of
fields, each name once, whether they come from an object or from a list. -/

namespace BlockFeed.Json

theorem ListEnd.read_eq_ok_iff {stop : ListEnd} : stop.read = .ok () ↔ stop = .closed := by
  cases stop <;> simp [ListEnd.read]

theorem ListEnd.close_eq_ok_iff {stop : ListEnd} : stop.close = .ok () ↔ stop = .closed := by
  cases stop <;> simp [ListEnd.close, ListEnd.read]

theorem ObjectEnd.read_eq_ok_iff {stop : ObjectEnd} : stop.read = .ok () ↔ stop = .closed := by
  cases stop <;> simp [ObjectEnd.read]

namespace RecordReader

section Lookup

variable {entries entries' : List (String × Node)} {name : String} {n : Node}

theorem lookup_eq_some_iff (h : (entries.map Prod.fst).Nodup) :
    lookup entries name = some n ↔ (name, n) ∈ entries := by
  induction entries with
  | nil => simp [lookup]
  | cons e entries ih =>
    obtain ⟨hfirst, hrest⟩ := List.nodup_cons.mp h
    by_cases he : e.1 = name
    · have hnot : (name, n) ∉ entries := by
        intro hmem
        exact hfirst (he ▸ List.mem_map_of_mem hmem)
      have hfind : lookup (e :: entries) name = some e.2 := by simp [lookup, he]
      rw [hfind, List.mem_cons, Option.some.injEq]
      constructor
      · rintro rfl
        exact .inl (Prod.ext he.symm rfl)
      · rintro (rfl | hmem)
        · rfl
        · exact absurd hmem hnot
    · have hfind : lookup (e :: entries) name = lookup entries name := by simp [lookup, he]
      have hne : (name, n) ≠ e := fun heq => he (by rw [← heq])
      rw [hfind, ih hrest, List.mem_cons, or_iff_right hne]

theorem lookup_eq_none_iff : lookup entries name = none ↔ name ∉ entries.map Prod.fst := by
  rw [lookup, Option.map_eq_none_iff, List.find?_eq_none]
  constructor
  · intro h hmem
    obtain ⟨e, he, hname⟩ := List.mem_map.mp hmem
    exact h e he (decide_eq_true hname)
  · intro h e he hname
    exact h (of_decide_eq_true hname ▸ List.mem_map_of_mem he)

end Lookup

section Members

variable {fields : List Field} {members : List (Spelling × Node)}

/-- The field a member belongs to. -/
def fieldOf? (fields : List Field) (key : Spelling) : Option Field := key.toOption.bind (find? fields)

/-- The members that belong to a field, under the field's name. -/
def held (fields : List Field) (members : List (Spelling × Node)) : List (String × Node) :=
  members.filterMap fun m => (fieldOf? fields m.1).map fun f => (f.name, m.2)

/-- A member that can be read past: it checks as a field, or can be passed over. -/
def Passable (fields : List Field) (depth : Nat) (m : Spelling × Node) : Prop :=
  ∃ key, m.1 = .ok key ∧ match find? fields key with
    | some f => f.check depth m.2 = .ok ()
    | none => m.2.skip = .ok ()

theorem held_cons_none {m : Spelling × Node} (h : fieldOf? fields m.1 = none) :
    held fields (m :: members) = held fields members :=
  List.filterMap_cons_none (by rw [h]; rfl)

theorem held_cons_some {m : Spelling × Node} {f : Field} (h : fieldOf? fields m.1 = some f) :
    held fields (m :: members) = (f.name, m.2) :: held fields members :=
  List.filterMap_cons_some (b := (f.name, m.2)) (by rw [h]; rfl)

theorem gather_seen_eq_ok_iff {depth : Nat} {seen out : List (String × Node)}
    (hseen : (seen.map Prod.fst).Nodup) :
    gather fields depth seen members = .ok out ↔
      (∀ m ∈ members, Passable fields depth m) ∧
        out = (held fields members).reverse ++ seen ∧ (out.map Prod.fst).Nodup := by
  induction members generalizing seen with
  | nil =>
    constructor
    · intro h
      obtain rfl := Except.ok.inj h
      exact ⟨List.forall_mem_nil _, rfl, hseen⟩
    · rintro ⟨-, rfl, -⟩
      rfl
  | cons m members ih =>
    obtain ⟨key, n⟩ := m
    rw [List.forall_mem_cons, and_assoc, gather, bind_eq_ok_iff]
    cases key with
    | error f =>
      have hnot : ¬ Passable fields depth (.error f, n) := by
        rintro ⟨key, hkey, -⟩
        exact nomatch hkey
      simp [hnot]
    | ok key =>
      cases hf : find? fields key with
      | none =>
        have hpass : Passable fields depth (.ok key, n) ↔ n.skip = .ok () := by simp [Passable, hf]
        have hheld : held fields ((.ok key, n) :: members) = held fields members := held_cons_none hf
        simp only [Except.ok.injEq, exists_eq_left', hf, bind_unit_eq_ok_iff, ih hseen, hpass, hheld]
      | some f =>
        have hpass : Passable fields depth (.ok key, n) ↔ f.check depth n = .ok () := by
          simp [Passable, hf]
        have hheld : held fields ((.ok key, n) :: members) = (f.name, n) :: held fields members :=
          held_cons_some hf
        rw [hpass, hheld, List.reverse_cons, List.append_assoc, List.singleton_append]
        by_cases hnew : f.name ∈ seen.map Prod.fst
        · -- The field would be held twice.
          have htwice : ¬ (((held fields members).reverse ++ (f.name, n) :: seen).map Prod.fst).Nodup := by
            intro h
            rw [List.map_append] at h
            exact (List.nodup_cons.mp h.of_append_right).1 hnew
          have hany : seen.any (·.1 = f.name) = true := by simpa using hnew
          simp only [Except.ok.injEq, exists_eq_left', hf, hany, if_true]
          constructor
          · exact nofun
          · rintro ⟨-, -, rfl, hout⟩
            exact absurd hout htwice
        · have hany : seen.any (·.1 = f.name) = false := by
            rw [List.any_eq_false]
            intro e he heq
            exact hnew (of_decide_eq_true heq ▸ List.mem_map_of_mem he)
          have hseen' : (((f.name, n) :: seen).map Prod.fst).Nodup := List.nodup_cons.mpr ⟨hnew, hseen⟩
          simp only [Except.ok.injEq, exists_eq_left', hf, hany, Bool.false_eq_true, if_false,
            bind_unit_eq_ok_iff, ih hseen']

/-- Members are gathered exactly where each can be read past and no field is given twice. -/
theorem gather_eq_ok_iff {depth : Nat} {out : List (String × Node)} :
    gather fields depth [] members = .ok out ↔
      (∀ m ∈ members, Passable fields depth m) ∧ out = (held fields members).reverse ∧
        ((held fields members).map Prod.fst).Nodup := by
  have hnil : (([] : List (String × Node)).map Prod.fst).Nodup := List.nodup_nil
  rw [gather_seen_eq_ok_iff hnil, List.append_nil]
  refine and_congr_right fun _ => and_congr_right ?_
  rintro rfl
  rw [List.map_reverse, List.nodup_reverse]

end Members

section Items

variable {depth : Nat} {stop : ListEnd} {fields : List Field} {items : List Node}

/-- Items are aligned, and the list ends where it should, exactly where there are no more of them
than fields and each checks as the field in its place. -/
theorem align_eq_ok_iff {seen : List (String × Node)} :
    align depth stop fields items = .ok (seen, .ok ()) ↔
      stop = .closed ∧ items.length ≤ fields.length ∧
        (∀ p ∈ fields.zip items, p.1.check depth p.2 = .ok ()) ∧
        seen = (fields.zip items).map fun p => (p.1.name, p.2) := by
  induction fields generalizing items seen with
  | nil =>
    cases items with
    | nil =>
      rw [align, Except.ok.injEq, Prod.mk.injEq, ListEnd.close_eq_ok_iff]
      simp [and_comm]
    | cons n items => simp [align]
  | cons f fields ih =>
    cases items with
    | nil =>
      rw [align, bind_unit_eq_ok_iff, ListEnd.read_eq_ok_iff]
      simp [pure, Except.pure, eq_comm]
    | cons n items =>
      rw [align, bind_unit_eq_ok_iff, bind_eq_ok_iff, List.zip_cons_cons, List.forall_mem_cons,
        List.length_cons, List.length_cons, Nat.succ_le_succ_iff, List.map_cons]
      constructor
      · rintro ⟨hcheck, ⟨seen', close⟩, halign, hseen⟩
        obtain ⟨rfl, rfl⟩ := Prod.mk.inj (Except.ok.inj hseen)
        obtain ⟨hstop, hlen, hrest, rfl⟩ := ih.mp halign
        exact ⟨hstop, hlen, ⟨hcheck, hrest⟩, rfl⟩
      · rintro ⟨hstop, hlen, ⟨hcheck, hrest⟩, rfl⟩
        exact ⟨hcheck, _, ih.mpr ⟨hstop, hlen, hrest, rfl⟩, rfl⟩

end Items

end RecordReader

end BlockFeed.Json
