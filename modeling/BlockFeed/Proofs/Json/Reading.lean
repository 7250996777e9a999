import BlockFeed.Proofs.Json.Gathering
import BlockFeed.Proofs.Json.Tree

/-! Which trees stand for which values, and readers that read them so. A record is an object of its
fields in any order, among members it does not know. -/

namespace BlockFeed.Json

/-- Which trees stand for which values. -/
abbrev Shape (α : Type) := Node → α → Prop

/-- What stands under each key of an object. -/
abbrev Content := String → Option Node

namespace Shape

variable {α : Type}

def string : Shape String := fun n s => n = .string (.ok s)

def bool : Shape Bool := fun n b => n = .bool b

def list (s : Shape α) : Shape (List α) := fun n as =>
  ∃ items, n = .list items .closed ∧ List.Forall₂ s items as

def nullable (s : Shape α) : Shape (Option α) := fun n a =>
  n = .null ∧ a = none ∨ ∃ b, a = some b ∧ s n b

/-- No value is written as `null`. -/
def Solid (s : Shape α) : Prop := ∀ a, ¬ s .null a

/-- Members under the names that `rename` gives their keys. -/
def renamed (rename : String → String) (members : List (String × Node)) : List (String × Node) :=
  members.map fun m => (rename m.1, m.2)

/-- An object in which no two keys name the same. -/
def Object (rename : String → String) (n : Node) (get : Content) : Prop :=
  ∃ members, n = .object (Node.keyed members) .closed ∧ (∀ m ∈ members, m.2.Whole) ∧
    ((renamed rename members).map Prod.fst).Nodup ∧ get = RecordReader.lookup (renamed rename members)

/-- A record with its members in any order, some of them unknown. -/
def record (rename : String → String) (fields : Content → α → Prop) : Shape α := fun n a =>
  ∃ get, Object rename n get ∧ fields get a

theorem solid_string : Solid string := fun _ h => nomatch h

theorem solid_bool : Solid bool := fun _ h => nomatch h

theorem solid_list (s : Shape α) : Solid (list s) := by
  rintro as ⟨items, h, -⟩
  cases h

theorem solid_record (rename : String → String) (fields : Content → α → Prop) :
    Solid (record rename fields) := by
  rintro a ⟨get, ⟨members, h, -⟩, -⟩
  cases h

end Shape

namespace Content

variable {α : Type}

/-- A member that every record has. -/
def Has (get : Content) (name : String) (s : Shape α) (a : α) : Prop :=
  ∃ n, get name = some n ∧ s n a

/-- A member that may be left out where `d` is meant. -/
def HasOr (get : Content) (name : String) (s : Shape α) (d a : α) : Prop :=
  get name = none ∧ a = d ∨ get.Has name s a

end Content

theorem enter_eq_ok_iff {depth inner : Nat} :
    enter depth = .ok inner ↔ 1 < depth ∧ inner = depth - 1 := by
  rw [enter]
  split
  · simp
    omega
  · simp [eq_comm]
    omega

namespace Reader

variable {α β : Type}

/-- `r` reads the trees of the shape as what they stand for, where `k` containers may be opened. -/
def Follows (r : Reader α) (k : Nat) (s : Shape α) : Prop :=
  ∀ n a, s n a → ∀ depth, k < depth → r depth n = .ok a

/-- `r` reads the trees of the shape as what they stand for, and no others. -/
def Exact (r : Reader α) (s : Shape α) : Prop := ∀ depth n a, r depth n = .ok a ↔ s n a

theorem Exact.follows {r : Reader α} {s : Shape α} (h : r.Exact s) (k : Nat) : r.Follows k s :=
  fun n a hn depth _ => (h depth n a).mpr hn

theorem string_exact : string.Exact Shape.string := by
  intro depth n s
  constructor
  · intro h
    unfold string at h
    split at h
    · cases h
      rfl
    · cases h
  · rintro rfl
    rfl

theorem bool_exact : bool.Exact Shape.bool := by
  intro depth n b
  constructor
  · intro h
    unfold bool at h
    split at h
    · cases h
      rfl
    · cases h
  · rintro rfl
    rfl

theorem string_follows (k : Nat) : string.Follows k Shape.string := string_exact.follows k

theorem bool_follows (k : Nat) : bool.Follows k Shape.bool := bool_exact.follows k

theorem readItems_eq_ok_iff {r : Node → Except Fault α} {items : List Node} {as : List α} :
    readItems r items = .ok as ↔ List.Forall₂ (fun n a => r n = .ok a) items as := by
  induction items generalizing as with
  | nil => simp [readItems, eq_comm]
  | cons n items ih =>
    rw [readItems, bind_eq_ok_iff]
    constructor
    · rintro ⟨a, ha, h⟩
      obtain ⟨as, has, h⟩ := bind_ok h
      obtain rfl := Except.ok.inj h
      exact .cons ha (ih.mp has)
    · rintro (_ | ⟨ha, has⟩)
      refine ⟨_, ha, ?_⟩
      rw [ih.mpr has]
      rfl

theorem enter_ok {k depth : Nat} (h : k + 1 < depth) : enter depth = .ok (depth - 1) :=
  enter_eq_ok_iff.mpr ⟨by omega, rfl⟩

theorem Follows.list {r : Reader α} {k : Nat} {s : Shape α} (h : r.Follows k s) :
    (list r).Follows (k + 1) (Shape.list s) := by
  rintro n as ⟨items, rfl, hitems⟩ depth hdepth
  have hread : readItems (r (depth - 1)) items = .ok as :=
    readItems_eq_ok_iff.mpr (hitems.imp fun n a hs => h n a hs (depth - 1) (by omega))
  rw [Reader.list, enter_ok hdepth]
  simp only [bind, Except.bind, hread]
  rfl

theorem nullable_of_ne_null {n : Node} (h : n ≠ .null) (r : Reader α) (depth : Nat) :
    nullable r depth n = some <$> r depth n := by
  cases n <;> first | rfl | exact absurd rfl h

theorem Follows.nullable {r : Reader α} {k : Nat} {s : Shape α} (h : r.Follows k s) (hs : s.Solid) :
    (nullable r).Follows k (Shape.nullable s) := by
  rintro n a (⟨rfl, rfl⟩ | ⟨b, rfl, hb⟩) depth hdepth
  · rfl
  · have hn : n ≠ .null := by
      rintro rfl
      exact hs b hb
    rw [nullable_of_ne_null hn, h n b hb depth hdepth]
    rfl

theorem Exact.nullable {r : Reader α} {s : Shape α} (h : r.Exact s) (hs : s.Solid) : (nullable r).Exact s.nullable := by
  intro depth n a
  by_cases hn : n = .null
  · subst hn
    constructor
    · intro ha
      exact .inl ⟨rfl, (Except.ok.inj ha).symm⟩
    · rintro (⟨-, rfl⟩ | ⟨b, -, hb⟩)
      · rfl
      · exact absurd hb (hs b)
  · rw [nullable_of_ne_null hn, map_eq_ok_iff]
    constructor
    · rintro ⟨b, hb, rfl⟩
      exact .inr ⟨b, rfl, (h depth n b).mp hb⟩
    · rintro (⟨hnull, -⟩ | ⟨b, rfl, hb⟩)
      · exact absurd hnull hn
      · exact ⟨b, (h depth n b).mpr hb, rfl⟩

theorem Follows.andThen {r : Reader α} {f : α → Except Fault β} {k : Nat} {s : Shape α} {s' : Shape β}
    (h : r.Follows k s) (hf : ∀ n b, s' n b → ∃ a, s n a ∧ f a = .ok b) :
    (r.andThen f).Follows k s' := by
  intro n b hb depth hdepth
  obtain ⟨a, ha, hfa⟩ := hf n b hb
  rw [Reader.andThen, h n a ha depth hdepth]
  exact hfa

theorem Exact.andThen {r : Reader α} {f : α → Except Fault β} {s : Shape α} {s' : Shape β} (h : r.Exact s)
    (hf : ∀ n b, (∃ a, s n a ∧ f a = .ok b) ↔ s' n b) : (r.andThen f).Exact s' := by
  intro depth n b
  rw [Reader.andThen, bind_eq_ok_iff, ← hf n b]
  exact exists_congr fun a => and_congr_left fun _ => h depth n a

end Reader

namespace RecordReader

section Gathering

variable {fields : List Field} {members : List (String × Node)}

/-- The members that belong to a field, under the field's name. -/
def known (fields : List Field) (members : List (String × Node)) : List (String × Node) :=
  members.filterMap fun m => (find? fields m.1).map fun f => (f.name, m.2)

theorem known_cons_none {m : String × Node} (h : find? fields m.1 = none) :
    known fields (m :: members) = known fields members := by
  rw [known, List.filterMap_cons_none (by rw [h]; rfl), known]

theorem known_cons_some {m : String × Node} {f : Field} (h : find? fields m.1 = some f) :
    known fields (m :: members) = (f.name, m.2) :: known fields members := by
  rw [known, List.filterMap_cons_some (b := (f.name, m.2)) (by rw [h]; rfl), known]

theorem held_keyed (fields : List Field) (members : List (String × Node)) :
    held fields (Node.keyed members) = known fields members := by
  rw [held, Node.keyed, List.filterMap_map, known]
  rfl

/-- Members whose known ones check are gathered, the others passed over. -/
theorem gather_keyed {depth : Nat} (hw : ∀ m ∈ members, m.2.Whole)
    (hcheck : ∀ m ∈ members, ∀ f, find? fields m.1 = some f → f.check depth m.2 = .ok ())
    (hnodup : ((known fields members).map Prod.fst).Nodup) :
    gather fields depth [] (Node.keyed members) = .ok (known fields members).reverse := by
  rw [gather_eq_ok_iff, held_keyed]
  refine ⟨?_, rfl, hnodup⟩
  intro _ hkeyed
  obtain ⟨m, hm, rfl⟩ := List.mem_map.mp hkeyed
  refine ⟨m.1, rfl, ?_⟩
  cases hf : find? fields m.1 with
  | none => exact (hw m hm).skip_ok
  | some f => exact hcheck m hm f hf

/-- The keys by which the fields go, and no others, are renamed to the fields' names. -/
def Renames (rename : String → String) (fields : List Field) : Prop :=
  ∀ key, rename key = match find? fields key with
    | some f => f.name
    | none => key

theorem name_of_find? {key : String} {f : Field} (h : find? fields key = some f)
    (halias : f.alias? ≠ some key) : f.name = key := by
  have hfound := List.find?_some h
  simpa [halias] using hfound

theorem renames_id (h : fields.all (·.alias?.isNone)) : Renames id fields := by
  intro key
  cases hf : find? fields key with
  | none => rfl
  | some f =>
    have hnone : f.alias? = none := by
      simpa using List.all_eq_true.mp h f (List.mem_of_find?_eq_some hf)
    exact (name_of_find? hf (by simp [hnone])).symm

/-- Fields that go by their names, but for one that goes by `other` too. -/
theorem renames_alias {name other : String}
    (h : fields.all fun f => f.alias?.isNone || f.alias? == some other)
    (hother : (find? fields other).map Field.name = some name) :
    Renames (fun key => if key = other then name else key) fields := by
  intro key
  show (if key = other then name else key) = _
  by_cases hkey : key = other
  · subst hkey
    obtain ⟨f, hf, rfl⟩ := Option.map_eq_some_iff.mp hother
    rw [if_pos rfl, hf]
  · rw [if_neg hkey]
    cases hf : find? fields key with
    | none => rfl
    | some f =>
      have halias : f.alias? ≠ some key := by
        intro heq
        have hcheck := List.all_eq_true.mp h f (List.mem_of_find?_eq_some hf)
        rw [heq] at hcheck
        exact hkey (by simpa using hcheck)
      exact (name_of_find? hf halias).symm

theorem known_sublist {rename : String → String} (h : Renames rename fields)
    (members : List (String × Node)) : (known fields members).Sublist (Shape.renamed rename members) := by
  induction members with
  | nil => exact List.Sublist.slnil
  | cons m members ih =>
    have hkey := h m.1
    cases hf : find? fields m.1 with
    | none =>
      rw [known_cons_none hf]
      exact ih.cons _
    | some f =>
      rw [hf] at hkey
      rw [known_cons_some hf, Shape.renamed, List.map_cons, hkey]
      exact ih.cons_cons _

/-- Under a field's name stands the same among the known members as among all. -/
theorem lookup_known {rename : String → String} (h : Renames rename fields)
    (hnodup : ((Shape.renamed rename members).map Prod.fst).Nodup) {f : Field} (hf : f ∈ fields) :
    lookup (known fields members).reverse f.name = lookup (Shape.renamed rename members) f.name := by
  have hsub := known_sublist h members
  have hnodup' : ((known fields members).reverse.map Prod.fst).Nodup := by
    rw [List.map_reverse, List.nodup_reverse]
    exact (hsub.map Prod.fst).nodup hnodup
  have hmatch : ∃ g, find? fields f.name = some g := by
    have hsome : (find? fields f.name).isSome := by
      rw [find?, List.find?_isSome]
      exact ⟨f, hf, by simp⟩
    exact Option.isSome_iff_exists.mp hsome
  ext n
  rw [lookup_eq_some_iff hnodup', lookup_eq_some_iff hnodup, List.mem_reverse]
  constructor
  · exact fun hmem => hsub.subset hmem
  · intro hmem
    obtain ⟨m, hm, heq⟩ := List.mem_map.mp hmem
    obtain ⟨hname, hn⟩ := Prod.mk.inj heq
    have hkey := h m.1
    cases hg : find? fields m.1 with
    | none =>
      rw [hg] at hkey
      obtain ⟨g, hfound⟩ := hmatch
      rw [← hname, hkey, hg] at hfound
      cases hfound
    | some g =>
      rw [hg] at hkey
      exact List.mem_filterMap.mpr ⟨m, hm, by rw [hg, ← hname, ← hn, hkey]; rfl⟩

end Gathering

variable {α β : Type}

/-- On objects with this content the record is read as `a`. -/
structure Reads (rr : RecordReader α) (k : Nat) (get : Content) (a : α) : Prop where
  check : ∀ depth, k < depth → ∀ f ∈ rr.fields, ∀ n, get f.name = some n → f.check depth n = .ok ()
  build : ∀ depth, k < depth → ∀ ms : Members, (∀ f ∈ rr.fields, ms.node? f.name = get f.name) →
    rr.build depth ms = .ok a

variable {k : Nat} {get : Content}

theorem Reads.seq {rf : RecordReader (α → β)} {rx : RecordReader α} {f : α → β} {a : α}
    (hf : rf.Reads k get f) (hx : rx.Reads k get a) : (rf <*> rx).Reads k get (f a) where
  check depth hdepth g hg n hn := by
    rcases List.mem_append.mp hg with hg | hg
    · exact hf.check depth hdepth g hg n hn
    · exact hx.check depth hdepth g hg n hn
  build depth hdepth ms hms := by
    have hbuildf := hf.build depth hdepth ms fun g hg => hms g (List.mem_append_left _ hg)
    have hbuildx := hx.build depth hdepth ms fun g hg => hms g (List.mem_append_right _ hg)
    simp only [Seq.seq, bind, Except.bind, hbuildf, hbuildx]
    rfl

theorem Reads.map {rx : RecordReader α} {a : α} (f : α → β) (hx : rx.Reads k get a) :
    (f <$> rx).Reads k get (f a) :=
  have hf : (pure f : RecordReader (α → β)).Reads k get f :=
    ⟨fun _ _ _ hg => absurd hg List.not_mem_nil, fun _ _ _ _ => rfl⟩
  hf.seq hx

variable {name : String} {r : Reader α} {s : Shape α} {a d : α}

theorem field_has (hr : r.Follows k s) (h : get.Has name s a) (alias? : Option String)
    (absent : Fault → Except Fault α) : (field name r alias? absent).Reads k get a where
  check depth hdepth f hf n hn := by
    obtain rfl := List.mem_singleton.mp hf
    obtain ⟨m, hm, hs⟩ := h
    obtain rfl : m = n := Option.some.inj (hm.symm.trans hn)
    simp only [bind, Except.bind, hr m a hs depth hdepth]
    rfl
  build depth hdepth ms hms := by
    obtain ⟨m, hm, hs⟩ := h
    have hnode : ms.node? name = some m := (hms _ List.mem_cons_self).trans hm
    simp only [field, hnode, hr m a hs depth hdepth]

theorem field_none (h : get name = none) (alias? : Option String) :
    (field name r alias? fun _ => .ok d).Reads k get d where
  check depth hdepth f hf n hn := by
    obtain rfl := List.mem_singleton.mp hf
    cases h.symm.trans hn
  build depth hdepth ms hms := by
    have hnode : ms.node? name = none := (hms _ List.mem_cons_self).trans h
    simp only [field, hnode]

theorem required_reads (hr : r.Follows k s) (h : get.Has name s a) :
    (required name r).Reads k get a := field_has hr h _ _

theorem defaulted_reads (hr : r.Follows k s) (h : get.HasOr name s d a) :
    (defaulted name r d).Reads k get a := by
  rcases h with ⟨hn, rfl⟩ | h
  · exact field_none hn _
  · exact field_has hr h _ _

theorem aliased_reads (hr : r.Follows k s) (h : get.HasOr name s d a) (other : String) :
    (aliased name other r d).Reads k get a := by
  rcases h with ⟨hn, rfl⟩ | h
  · exact field_none hn _
  · exact field_has hr h _ _

/-- A record that reads the content of its shape's objects follows the shape. -/
theorem follows {rr : RecordReader α} {rename : String → String} {fields : Content → α → Prop}
    (hrename : Renames rename rr.fields) (h : ∀ get a, fields get a → rr.Reads k get a)
    (record : String) : (rr.reader record).Follows (k + 1) (Shape.record rename fields) := by
  rintro n a ⟨get, ⟨members, rfl, hw, hnodup, rfl⟩, ha⟩ depth hdepth
  have hreads := h _ a ha
  have hbelow : k < depth - 1 := by omega
  have hcheck : ∀ m ∈ members, ∀ f, find? rr.fields m.1 = some f →
      f.check (depth - 1) m.2 = .ok () := by
    intro m hm f hf
    have hkey := hrename m.1
    rw [hf] at hkey
    have hlookup : lookup (Shape.renamed rename members) f.name = some m.2 :=
      (lookup_eq_some_iff hnodup).mpr (List.mem_map.mpr ⟨m, hm, by rw [hkey]⟩)
    exact hreads.check _ hbelow f (List.mem_of_find?_eq_some hf) m.2 hlookup
  have hknown := ((known_sublist hrename members).map Prod.fst).nodup hnodup
  have hgather := gather_keyed hw hcheck hknown
  have hbuild := hreads.build _ hbelow ⟨lookup (known rr.fields members).reverse, .missingField⟩
    fun f hf => lookup_known hrename hnodup hf
  rw [reader, Reader.enter_ok hdepth]
  simp only [bind, Except.bind, hgather, ObjectEnd.read, hbuild]

end RecordReader

end BlockFeed.Json
