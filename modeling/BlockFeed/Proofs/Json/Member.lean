import BlockFeed.Proofs.Json.Slot

/-! Where a record that was read had its fields: in the members of an object, or in places of a
list. -/

namespace BlockFeed.Json

/-- What a record has under a name, or in its place where the record is written as a list. -/
def Node.member? (name : String) (place : Nat) : Node → Option Node
  | .object members _ => (members.find? fun m => m.1.toOption = some name).map Prod.snd
  | .list items _ => items[place]?
  | _ => none

namespace RecordReader

variable {α β : Type} {fields : List Field} {f : Field}

section Hand

theorem lookup_reverse {entries : List (String × Node)} (h : (entries.map Prod.fst).Nodup)
    (name : String) : lookup entries.reverse name = lookup entries name := by
  have hreverse : (entries.reverse.map Prod.fst).Nodup := by
    rwa [List.map_reverse, List.nodup_reverse]
  ext n
  rw [lookup_eq_some_iff hreverse, List.mem_reverse, lookup_eq_some_iff h]

/-- Where no field has an alias, a key stands for the field of its name. -/
theorem fieldOf_eq_some (hplain : ∀ f ∈ fields, f.alias? = none) {key : Spelling}
    (h : fieldOf? fields key = some f) : key.toOption = some f.name := by
  obtain ⟨key', hkey, hfind⟩ := Option.bind_eq_some_iff.mp h
  have hnone := hplain f (List.mem_of_find?_eq_some hfind)
  have hname := List.find?_some hfind
  simp only [hnone, reduceCtorEq, decide_false, Bool.or_false, decide_eq_true_eq] at hname
  rw [hkey, hname]

theorem fieldOf_ne_none (hf : f ∈ fields) {key : Spelling} (hkey : key.toOption = some f.name) :
    fieldOf? fields key ≠ none := by
  rw [fieldOf?, hkey, Option.bind_some]
  intro hnone
  have hno := List.find?_eq_none.mp hnone f hf
  simp at hno

theorem lookup_held (hplain : ∀ f ∈ fields, f.alias? = none) (hf : f ∈ fields)
    (members : List (Spelling × Node)) : lookup (held fields members) f.name =
      (members.find? fun m => m.1.toOption = some f.name).map Prod.snd := by
  induction members with
  | nil => rfl
  | cons m members ih =>
    cases hfield : fieldOf? fields m.1 with
    | none =>
      have hother : ¬ m.1.toOption = some f.name := fun hkey => fieldOf_ne_none hf hkey hfield
      rw [held_cons_none hfield, ih, List.find?_cons_of_neg (by simpa using hother)]
    | some g =>
      have hkey := fieldOf_eq_some hplain hfield
      rw [held_cons_some hfield]
      by_cases hname : g.name = f.name
      · rw [List.find?_cons_of_pos (by simp [hkey, hname])]
        simp [lookup, hname]
      · rw [List.find?_cons_of_neg (by simp [hkey, hname]), ← ih]
        simp [lookup, hname]

theorem lookup_zip {place : Nat} (hnodup : (fields.map Field.name).Nodup)
    (hplace : fields[place]? = some f) (items : List Node) :
    lookup ((fields.zip items).map fun p => (p.1.name, p.2)) f.name = items[place]? := by
  induction fields generalizing place items with
  | nil => cases hplace
  | cons g fields ih =>
    obtain ⟨hfirst, hrest⟩ := List.nodup_cons.mp hnodup
    cases items with
    | nil => rfl
    | cons n items =>
      cases place with
      | zero =>
        obtain rfl := Option.some.inj hplace
        simp [lookup]
      | succ place =>
        have hother : g.name ≠ f.name := by
          intro hname
          exact hfirst (hname ▸ List.mem_map_of_mem (List.mem_of_getElem? hplace))
        rw [List.getElem?_cons_succ, ← ih hrest hplace]
        simp [lookup, hother]

end Hand

/-- A record is built from members, and a field's node among them is what stands in its place. -/
theorem build_of_reader {rr : RecordReader α} {record : String} {depth : Nat} {n : Node} {a : α}
    (hplain : ∀ f ∈ rr.fields, f.alias? = none) (hnodup : (rr.fields.map Field.name).Nodup)
    (h : rr.reader record depth n = .ok a) :
    ∃ ms : Members, rr.build (depth - 1) ms = .ok a ∧
      ∀ place f, rr.fields[place]? = some f → ms.node? f.name = n.member? f.name place := by
  cases n with
  | object members stop =>
    obtain ⟨-, -, seen, hgather, hbuild⟩ := reader_object_eq_ok_iff.mp h
    obtain ⟨-, rfl, honce⟩ := gather_eq_ok_iff.mp hgather
    refine ⟨_, hbuild, fun place f hf => ?_⟩
    exact (lookup_reverse honce f.name).trans (lookup_held hplain (List.mem_of_getElem? hf) members)
  | list items stop =>
    obtain ⟨-, seen, halign, hbuild⟩ := reader_list_eq_ok_iff.mp h
    obtain ⟨-, -, -, rfl⟩ := align_eq_ok_iff.mp halign
    exact ⟨_, hbuild, fun place f hf => lookup_zip hnodup hf items⟩
  | _ => cases h

theorem seq_build {rf : RecordReader (α → β)} {rx : RecordReader α} {depth : Nat} {ms : Members} {b : β}
    (h : (rf <*> rx).build depth ms = .ok b) :
    ∃ g a, rf.build depth ms = .ok g ∧ rx.build depth ms = .ok a ∧ g a = b := by
  obtain ⟨g, hg, h⟩ := bind_ok h
  obtain ⟨a, ha, h⟩ := bind_ok h
  exact ⟨g, a, hg, ha, Except.ok.inj h⟩

theorem map_build {g : α → β} {rx : RecordReader α} {depth : Nat} {ms : Members} {b : β}
    (h : (g <$> rx).build depth ms = .ok b) : ∃ a, rx.build depth ms = .ok a ∧ g a = b := by
  have hseq : ((pure g : RecordReader (α → β)) <*> rx).build depth ms = .ok b := h
  obtain ⟨_, a, hg, ha, rfl⟩ := seq_build hseq
  obtain rfl := Except.ok.inj hg
  exact ⟨a, ha, rfl⟩

theorem defaulted_build {name : String} {r : Reader α} {a default : α} {depth : Nat} {ms : Members}
    (h : (defaulted name r default).build depth ms = .ok a) :
    match ms.node? name with
    | some n => r depth n = .ok a
    | none => a = default := by
  dsimp only [defaulted, field] at h
  cases hnode : ms.node? name with
  | some n => rwa [hnode] at h
  | none =>
    rw [hnode] at h
    exact (Except.ok.inj h).symm

end RecordReader

end BlockFeed.Json
