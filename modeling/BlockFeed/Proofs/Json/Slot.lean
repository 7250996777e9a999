import BlockFeed.Proofs.Json.Kind

/-! The reader of a record reads exactly the trees of its slots' kind. It does not tell the order of an
object's members, nor whether unknown ones are among them. -/

namespace BlockFeed.Json

namespace Slot

/-- What a slot asks of the node given to it, if there is one. -/
def Supplied (s : Slot) : Option Node → Prop
  | some n => s.kind.Admits n
  | none => s.needed = false

theorem ofKey?_mem {slots : List Slot} {key : Spelling} {s : Slot} (h : ofKey? slots key = some s) :
    s ∈ slots := by
  obtain ⟨text, -, hfind⟩ := Option.bind_eq_some_iff.mp h
  exact List.mem_of_find?_eq_some hfind

theorem mem_of_filled {slots : List Slot} {members : List (Spelling × Node)} :
    ∀ e ∈ filled slots members, e.1 ∈ slots := by
  intro e he
  obtain ⟨m, -, hm⟩ := List.mem_filterMap.mp he
  obtain ⟨s, hs, rfl⟩ := Option.map_eq_some_iff.mp hm
  exact ofKey?_mem hs

theorem mem_filled {slots : List Slot} {members : List (Spelling × Node)} {m : Spelling × Node}
    (hm : m ∈ members) {s : Slot} (hs : ofKey? slots m.1 = some s) : (s, m.2) ∈ filled slots members :=
  List.mem_filterMap.mpr ⟨m, hm, by rw [hs]; rfl⟩

theorem filled_unknown {slots : List Slot} {members : List (Spelling × Node)}
    (h : ∀ m ∈ members, Unknown slots m) : filled slots members = [] := by
  refine List.filterMap_eq_nil_iff.mpr fun m hm => ?_
  obtain ⟨key, hkey, hnone, -⟩ := h m hm
  simp [ofKey?, hkey, Except.toOption, hnone]

theorem filled_perm {slots : List Slot} {changed further members' : List (Spelling × Node)}
    (hfurther : ∀ m ∈ further, Unknown slots m) (hperm : members'.Perm (changed ++ further)) :
    (filled slots members').Perm (filled slots changed) := by
  have happend : filled slots (changed ++ further) = filled slots changed := by
    rw [filled, List.filterMap_append, ← filled, ← filled, filled_unknown hfurther, List.append_nil]
  exact happend ▸ hperm.filterMap _

theorem filled_alike {slots : List Slot} {members changed : List (Spelling × Node)}
    (h : List.Forall₂ (Member slots) members changed) :
    Alike (filled slots members) (filled slots changed) := by
  refine List.rel_filterMap ?_ h
  rintro m m' ⟨hkey, hvalue⟩
  simp only [hkey]
  cases hs : ofKey? slots m.1 with
  | none => exact .none
  | some s =>
    rw [hs] at hvalue
    exact .some ⟨rfl, hvalue⟩

theorem zip_sublist (slots : List Slot) (items : List Node) :
    ((slots.zip items).map Prod.fst).Sublist slots := by
  induction slots generalizing items with
  | nil => exact List.Sublist.slnil
  | cons s slots ih =>
    cases items with
    | nil => exact List.nil_sublist _
    | cons n items => exact (ih items).cons_cons s

theorem mem_of_zip {slots : List Slot} {items : List Node} : ∀ e ∈ slots.zip items, e.1 ∈ slots :=
  fun _ he => (List.of_mem_zip he).1

theorem zip_once {slots : List Slot} (hslots : (slots.map Slot.name).Nodup) (items : List Node) :
    ((slots.zip items).map (·.1.name)).Nodup := by
  have hsub := ((zip_sublist slots items).map Slot.name).nodup hslots
  rwa [List.map_map] at hsub

/-- The nodes given, under the names of their slots. -/
def named (given : List (Slot × Node)) : List (String × Node) := given.map fun e => (e.1.name, e.2)

section Given

variable {slots : List Slot} {given given' : List (Slot × Node)} {seen seen' : List (String × Node)}

open RecordReader (lookup)

theorem lookup_eq_some_iff (honce : (given.map (·.1.name)).Nodup) (hseen : seen.Perm (named given))
    {name : String} {n : Node} :
    lookup seen name = some n ↔ ∃ s, (s, n) ∈ given ∧ s.name = name := by
  have hnodup : (seen.map Prod.fst).Nodup := by
    rw [(hseen.map Prod.fst).nodup_iff, named, List.map_map]
    exact honce
  rw [RecordReader.lookup_eq_some_iff hnodup, hseen.mem_iff, named, List.mem_map]
  constructor
  · rintro ⟨e, he, heq⟩
    obtain ⟨rfl, rfl⟩ := Prod.mk.inj heq
    exact ⟨e.1, he, rfl⟩
  · rintro ⟨s, hs, rfl⟩
    exact ⟨(s, n), hs, rfl⟩

theorem eq_of_name_eq (hslots : (slots.map Slot.name).Nodup) {s t : Slot} (hs : s ∈ slots)
    (ht : t ∈ slots) (h : s.name = t.name) : s = t :=
  List.inj_on_of_nodup_map hslots hs ht h

/-- Every slot is supplied exactly where what is given is of its slot's kind and nothing is missing. -/
theorem supplied_iff (hslots : (slots.map Slot.name).Nodup) (hsub : ∀ e ∈ given, e.1 ∈ slots)
    (honce : (given.map (·.1.name)).Nodup) (hseen : seen.Perm (named given)) :
    (∀ s ∈ slots, s.Supplied (lookup seen s.name)) ↔ Complete slots given := by
  constructor
  · intro h
    refine ⟨?_, honce, ?_⟩
    · intro e he
      have hfound : lookup seen e.1.name = some e.2 :=
        (lookup_eq_some_iff honce hseen).mpr ⟨e.1, he, rfl⟩
      have hsupplied := h e.1 (hsub e he)
      rwa [hfound] at hsupplied
    · intro s hs hneeded
      have hsupplied := h s hs
      cases hfound : lookup seen s.name with
      | none =>
        rw [hfound] at hsupplied
        exact absurd hneeded (by simp [show s.needed = false from hsupplied])
      | some n =>
        obtain ⟨t, ht, hname⟩ := (lookup_eq_some_iff honce hseen).mp hfound
        obtain rfl := eq_of_name_eq hslots (hsub _ ht) hs hname
        exact List.mem_map_of_mem ht
  · intro h s hs
    cases hfound : lookup seen s.name with
    | none =>
      refine Bool.eq_false_iff.mpr fun hneeded => ?_
      obtain ⟨e, he, rfl⟩ := List.mem_map.mp (h.needed s hs hneeded)
      have hfound' : lookup seen e.1.name = some e.2 :=
        (lookup_eq_some_iff honce hseen).mpr ⟨e.1, he, rfl⟩
      cases hfound.symm.trans hfound'
    | some n =>
      obtain ⟨t, ht, hname⟩ := (lookup_eq_some_iff honce hseen).mp hfound
      obtain rfl := eq_of_name_eq hslots (hsub _ ht) hs hname
      exact h.admitted _ ht

theorem Alike.names (h : Alike given given') : given'.map (·.1.name) = given.map (·.1.name) := by
  induction h with
  | nil => rfl
  | cons hslot _ ih => rw [List.map_cons, List.map_cons, hslot.1, ih]

theorem Alike.exists_of_mem (h : Alike given given') {s : Slot} {n : Node} (hs : (s, n) ∈ given) :
    ∃ n', (s, n') ∈ given' ∧ s.kind.Rearranged n n' := by
  induction h with
  | nil => exact nomatch hs
  | @cons e e' _ _ hslot _ ih =>
    rcases List.mem_cons.mp hs with rfl | hs
    · obtain ⟨rfl, halike⟩ := hslot
      exact ⟨e'.2, List.mem_cons_self, halike⟩
    · obtain ⟨n', hn', halike⟩ := ih hs
      exact ⟨n', List.mem_cons_of_mem _ hn', halike⟩

/-- What is looked up for a slot is the same, rearranged. -/
theorem Alike.lookup (h : Alike given given') (hslots : (slots.map Slot.name).Nodup)
    (hsub : ∀ e ∈ given, e.1 ∈ slots) (honce : (given.map (·.1.name)).Nodup)
    (hseen : seen.Perm (named given)) (hseen' : seen'.Perm (named given')) {s : Slot} (hs : s ∈ slots) :
    Option.Rel s.kind.Rearranged (lookup seen s.name) (lookup seen' s.name) := by
  have honce' : (given'.map (·.1.name)).Nodup := h.names ▸ honce
  cases hfound : RecordReader.lookup seen s.name with
  | some n =>
    obtain ⟨t, ht, hname⟩ := (lookup_eq_some_iff honce hseen).mp hfound
    obtain rfl := eq_of_name_eq hslots (hsub _ ht) hs hname
    obtain ⟨n', hn', halike⟩ := h.exists_of_mem ht
    rw [(lookup_eq_some_iff honce' hseen').mpr ⟨t, hn', rfl⟩]
    exact .some halike
  | none =>
    have hmissing : RecordReader.lookup seen' s.name = none := by
      rw [RecordReader.lookup_eq_none_iff] at hfound ⊢
      have hnames : (named given').map Prod.fst = (named given).map Prod.fst := by
        rw [named, named, List.map_map, List.map_map]
        exact h.names
      rwa [(hseen'.map Prod.fst).mem_iff, hnames, ← (hseen.map Prod.fst).mem_iff]
    rw [hmissing]
    exact .none

end Given

end Slot

namespace RecordReader

/-- A field goes by the keys of its slot and checks what the slot's kind admits. -/
structure Fits (k : Nat) (f : Field) (s : Slot) : Prop where
  name : f.name = s.name
  alias? : f.alias? = s.alias?
  check : f.check.Obeys k s.kind

theorem Fits.check_iff {k : Nat} {f : Field} {s : Slot} (h : Fits k f s) {depth : Nat} (hdepth : k < depth)
    {n : Node} : f.check depth n = .ok () ↔ s.kind.Admits n := by
  rw [← h.check.ok_iff n depth hdepth]
  exact ⟨fun hok => ⟨(), hok⟩, fun ⟨_, hok⟩ => hok⟩

section Fields

variable {k : Nat} {fields : List Field} {slots : List Slot}

theorem find?_fits (h : List.Forall₂ (Fits k) fields slots) (key : String) :
    Option.Rel (Fits k) (find? fields key) (Slot.find? slots key) := by
  induction h with
  | nil => exact .none
  | @cons f s fields slots hfits _ ih =>
    rw [find?, Slot.find?, List.find?_cons, List.find?_cons, hfits.name, hfits.alias?]
    cases (s.name = key || s.alias? = some key : Bool) with
    | true => exact .some hfits
    | false => exact ih

theorem fieldOf?_fits (h : List.Forall₂ (Fits k) fields slots) (key : Spelling) :
    Option.Rel (Fits k) (fieldOf? fields key) (Slot.ofKey? slots key) := by
  cases key with
  | error f => exact .none
  | ok text => exact find?_fits h text

theorem held_eq_named (h : List.Forall₂ (Fits k) fields slots) (members : List (Spelling × Node)) :
    held fields members = Slot.named (Slot.filled slots members) := by
  rw [held, Slot.named, Slot.filled, List.map_filterMap]
  refine List.filterMap_congr fun m _ => ?_
  have hrel := fieldOf?_fits h m.1
  generalize fieldOf? fields m.1 = f?, Slot.ofKey? slots m.1 = s? at hrel ⊢
  cases hrel with
  | none => rfl
  | some hfits => simp [hfits.name]

theorem passable_iff (h : List.Forall₂ (Fits k) fields slots) {depth : Nat} (hdepth : k < depth)
    (m : Spelling × Node) :
    Passable fields depth m ↔
      (∃ s, Slot.ofKey? slots m.1 = some s ∧ s.kind.Admits m.2) ∨ Slot.Unknown slots m := by
  obtain ⟨key, n⟩ := m
  cases key with
  | error f => simp [Passable, Slot.Unknown, Slot.ofKey?, Except.toOption]
  | ok key =>
    have hrel := find?_fits h key
    simp only [Passable, Slot.Unknown, Slot.ofKey?, Except.toOption, Except.ok.injEq, exists_eq_left',
      Option.bind_some]
    generalize find? fields key = f?, Slot.find? slots key = s? at hrel ⊢
    cases hrel with
    | none => simp [Node.skip_eq_ok_iff]
    | @some f s hfits =>
      simp [hfits.check_iff hdepth]

theorem passable_unknown (h : List.Forall₂ (Fits k) fields slots) {m : Spelling × Node}
    (hm : Slot.Unknown slots m) (depth : Nat) : Passable fields depth m := by
  obtain ⟨key, hkey, hnone, hunbroken⟩ := hm
  have hrel := find?_fits h key
  rw [hnone] at hrel
  refine ⟨key, hkey, ?_⟩
  generalize find? fields key = f? at hrel ⊢
  cases hrel with
  | none => exact Node.skip_eq_ok_iff.mpr hunbroken

theorem passable_member (h : List.Forall₂ (Fits k) fields slots) {m m' : Spelling × Node}
    (hm : Slot.Member slots m m') {depth : Nat} (hpass : Passable fields depth m) :
    Passable fields depth m' := by
  obtain ⟨key, hkey, hread⟩ := hpass
  obtain ⟨hkey', hvalue⟩ := hm
  have hrel := find?_fits h key
  have hof : Slot.ofKey? slots m.1 = Slot.find? slots key := by rw [hkey]; rfl
  rw [hof] at hvalue
  refine ⟨key, hkey'.trans hkey, ?_⟩
  generalize find? fields key = f?, Slot.find? slots key = s? at hrel hread hvalue ⊢
  cases hrel with
  | none => exact hvalue ▸ hread
  | some hfits => exact hfits.check.same _ _ hvalue depth () hread

theorem passable_changed (h : List.Forall₂ (Fits k) fields slots)
    {members changed : List (Spelling × Node)}
    (hchanged : List.Forall₂ (Slot.Member slots) members changed) {depth : Nat}
    (hpass : ∀ m ∈ members, Passable fields depth m) : ∀ m ∈ changed, Passable fields depth m := by
  induction hchanged with
  | nil => exact List.forall_mem_nil _
  | cons hmember _ ih =>
    obtain ⟨hfirst, hrest⟩ := List.forall_mem_cons.mp hpass
    exact List.forall_mem_cons.mpr ⟨passable_member h hmember hfirst, ih hrest⟩

theorem zip_eq_named (h : List.Forall₂ (Fits k) fields slots) (items : List Node) :
    ((fields.zip items).map fun p => (p.1.name, p.2)) = Slot.named (slots.zip items) := by
  induction h generalizing items with
  | nil => rfl
  | cons hfits _ ih =>
    cases items with
    | nil => rfl
    | cons n items =>
      rw [List.zip_cons_cons, List.map_cons, hfits.name, ih]
      rfl

theorem zip_check_iff (h : List.Forall₂ (Fits k) fields slots) {depth : Nat} (hdepth : k < depth)
    (items : List Node) :
    (∀ p ∈ fields.zip items, p.1.check depth p.2 = .ok ()) ↔
      ∀ e ∈ slots.zip items, e.1.kind.Admits e.2 := by
  induction h generalizing items with
  | nil => exact iff_of_true (List.forall_mem_nil _) (List.forall_mem_nil _)
  | cons hfits _ ih =>
    cases items with
    | nil => exact iff_of_true (List.forall_mem_nil _) (List.forall_mem_nil _)
    | cons n items =>
      rw [List.zip_cons_cons, List.zip_cons_cons, List.forall_mem_cons, List.forall_mem_cons, ih,
        hfits.check_iff hdepth]

theorem zip_check_alike (h : List.Forall₂ (Fits k) fields slots) {depth : Nat} {items items' : List Node}
    (hlen : items'.length = items.length) (halike : Slot.Alike (slots.zip items) (slots.zip items'))
    (hcheck : ∀ p ∈ fields.zip items, p.1.check depth p.2 = .ok ()) :
    ∀ p ∈ fields.zip items', p.1.check depth p.2 = .ok () := by
  induction h generalizing items items' with
  | nil => exact List.forall_mem_nil _
  | cons hfits _ ih =>
    cases items' with
    | nil => exact List.forall_mem_nil _
    | cons n' items' =>
      cases items with
      | nil => cases hlen
      | cons n items =>
        obtain ⟨hslot, hrest⟩ := List.forall₂_cons.mp halike
        obtain ⟨hfirst, hothers⟩ := List.forall_mem_cons.mp hcheck
        exact List.forall_mem_cons.mpr ⟨hfits.check.same _ _ hslot.2 depth () hfirst,
          ih (Nat.succ.inj hlen) hrest hothers⟩

end Fields

variable {α β : Type}

/-- `rr` builds a record exactly where every slot is supplied, and the same record where the slots are
supplied with the same rearranged. -/
structure Obeys (rr : RecordReader α) (k : Nat) (slots : List Slot) : Prop where
  fits : List.Forall₂ (Fits k) rr.fields slots
  ok_iff : ∀ depth, k < depth → ∀ ms : Members,
    (∃ a, rr.build depth ms = .ok a) ↔ ∀ s ∈ slots, s.Supplied (ms.node? s.name)
  same : ∀ depth (ms ms' : Members),
    (∀ s ∈ slots, Option.Rel s.kind.Rearranged (ms.node? s.name) (ms'.node? s.name)) →
      ∀ a, rr.build depth ms = .ok a → rr.build depth ms' = .ok a

variable {k : Nat} {slots : List Slot}

theorem Obeys.seq {rf : RecordReader (α → β)} {rx : RecordReader α} {ss ts : List Slot}
    (hf : rf.Obeys k ss) (hx : rx.Obeys k ts) : (rf <*> rx).Obeys k (ss ++ ts) where
  fits := List.rel_append hf.fits hx.fits
  ok_iff depth hdepth ms := by
    rw [List.forall_mem_append, ← hf.ok_iff depth hdepth ms, ← hx.ok_iff depth hdepth ms]
    constructor
    · rintro ⟨b, h⟩
      obtain ⟨f, hbuildf, h⟩ := bind_ok h
      obtain ⟨a, hbuildx, -⟩ := bind_ok h
      exact ⟨⟨f, hbuildf⟩, a, hbuildx⟩
    · rintro ⟨⟨f, hbuildf⟩, a, hbuildx⟩
      exact ⟨f a, bind_eq_ok_iff.mpr ⟨f, hbuildf, bind_eq_ok_iff.mpr ⟨a, hbuildx, rfl⟩⟩⟩
  same depth ms ms' halike b h := by
    obtain ⟨hss, hts⟩ := List.forall_mem_append.mp halike
    obtain ⟨f, hbuildf, h⟩ := bind_ok h
    obtain ⟨a, hbuildx, h⟩ := bind_ok h
    exact bind_eq_ok_iff.mpr ⟨f, hf.same depth ms ms' hss f hbuildf,
      bind_eq_ok_iff.mpr ⟨a, hx.same depth ms ms' hts a hbuildx, h⟩⟩

theorem Obeys.map {rx : RecordReader α} (f : α → β) (hx : rx.Obeys k slots) :
    (f <$> rx).Obeys k slots :=
  have hf : (pure f : RecordReader (α → β)).Obeys k [] :=
    ⟨.nil, fun _ _ _ => iff_of_true ⟨f, rfl⟩ (List.forall_mem_nil _), fun _ _ _ _ _ h => h⟩
  hf.seq hx

theorem field_obeys {r : Reader α} {s : Slot} (hr : r.Obeys k s.kind) {absent : Fault → Except Fault α}
    (habsent : ∀ fault, (∃ a, absent fault = .ok a) ↔ s.needed = false)
    (hsame : ∀ fault fault' a, absent fault = .ok a → absent fault' = .ok a) :
    (field s.name r s.alias? absent).Obeys k [s] where
  fits := .cons ⟨rfl, rfl, hr.check⟩ .nil
  ok_iff depth hdepth ms := by
    rw [List.forall_mem_singleton]
    simp only [field]
    cases ms.node? s.name with
    | some n => exact hr.ok_iff n depth hdepth
    | none => exact habsent _
  same depth ms ms' halike a h := by
    have hslot := List.forall_mem_singleton.mp halike
    simp only [field] at h ⊢
    generalize ms.node? s.name = given, ms'.node? s.name = given' at hslot h ⊢
    cases hslot with
    | some hnode => exact hr.same _ _ hnode depth a h
    | none => exact hsame _ _ a h

theorem required_obeys {r : Reader α} {kind : Kind} (hr : r.Obeys k kind) (name : String) :
    (required name r).Obeys k [.required name kind] :=
  field_obeys (s := .required name kind) hr (fun _ => by simp [Slot.required]) (fun _ _ _ h => nomatch h)

theorem defaulted_obeys {r : Reader α} {kind : Kind} (hr : r.Obeys k kind) (name : String) (a : α) :
    (defaulted name r a).Obeys k [.defaulted name kind] :=
  field_obeys (s := .defaulted name kind) hr (fun _ => iff_of_true ⟨a, rfl⟩ rfl) fun _ _ _ h => h

theorem aliased_obeys {r : Reader α} {kind : Kind} (hr : r.Obeys k kind) (name other : String) (a : α) :
    (aliased name other r a).Obeys k [.aliased name other kind] :=
  field_obeys (s := .aliased name other kind) hr (fun _ => iff_of_true ⟨a, rfl⟩ rfl) fun _ _ _ h => h

theorem reader_object_eq_ok_iff {rr : RecordReader α} {record : String} {depth : Nat}
    {members : List (Spelling × Node)} {stop : ObjectEnd} {a : α} :
    rr.reader record depth (.object members stop) = .ok a ↔ 1 < depth ∧ stop = .closed ∧
      ∃ seen, gather rr.fields (depth - 1) [] members = .ok seen ∧
        rr.build (depth - 1) ⟨lookup seen, .missingField⟩ = .ok a := by
  rw [reader, bind_eq_ok_iff]
  constructor
  · rintro ⟨inner, henter, h⟩
    obtain ⟨hdepth, rfl⟩ := enter_eq_ok_iff.mp henter
    obtain ⟨seen, hgather, h⟩ := bind_ok h
    obtain ⟨hstop, hbuild⟩ := bind_unit_eq_ok_iff.mp h
    exact ⟨hdepth, ObjectEnd.read_eq_ok_iff.mp hstop, seen, hgather, hbuild⟩
  · rintro ⟨hdepth, rfl, seen, hgather, hbuild⟩
    exact ⟨depth - 1, enter_eq_ok_iff.mpr ⟨hdepth, rfl⟩,
      bind_eq_ok_iff.mpr ⟨seen, hgather, bind_unit_eq_ok_iff.mpr ⟨rfl, hbuild⟩⟩⟩

theorem reader_list_eq_ok_iff {rr : RecordReader α} {record : String} {depth : Nat}
    {items : List Node} {stop : ListEnd} {a : α} :
    rr.reader record depth (.list items stop) = .ok a ↔ 1 < depth ∧
      ∃ seen, align (depth - 1) stop rr.fields items = .ok (seen, .ok ()) ∧
        rr.build (depth - 1) ⟨lookup seen, fun name =>
          .wrongLength (rr.fields.findIdx (·.name = name)) record rr.fields.length⟩ = .ok a := by
  rw [reader, bind_eq_ok_iff]
  constructor
  · rintro ⟨inner, henter, h⟩
    obtain ⟨hdepth, rfl⟩ := enter_eq_ok_iff.mp henter
    obtain ⟨⟨seen, close⟩, halign, h⟩ := bind_ok h
    obtain ⟨b, hbuild, h⟩ := bind_ok h
    obtain ⟨rfl, h⟩ := bind_unit_eq_ok_iff.mp h
    obtain rfl := Except.ok.inj h
    exact ⟨hdepth, seen, halign, hbuild⟩
  · rintro ⟨hdepth, seen, halign, hbuild⟩
    exact ⟨depth - 1, enter_eq_ok_iff.mpr ⟨hdepth, rfl⟩, bind_eq_ok_iff.mpr ⟨_, halign,
      bind_eq_ok_iff.mpr ⟨a, hbuild, rfl⟩⟩⟩

variable {rr : RecordReader α}

theorem Obeys.object_ok_iff (h : rr.Obeys k slots) (hslots : (slots.map Slot.name).Nodup)
    {depth : Nat} (hdepth : k + 1 < depth) (record : String) (members : List (Spelling × Node))
    (stop : ObjectEnd) :
    (∃ a, rr.reader record depth (.object members stop) = .ok a) ↔
      (Kind.record slots).Admits (.object members stop) := by
  have hinner : k < depth - 1 := by omega
  have hperm := List.reverse_perm (Slot.named (Slot.filled slots members))
  constructor
  · rintro ⟨a, ha⟩
    obtain ⟨-, rfl, seen, hgather, hbuild⟩ := reader_object_eq_ok_iff.mp ha
    obtain ⟨hpass, rfl, honce⟩ := gather_eq_ok_iff.mp hgather
    rw [held_eq_named h.fits] at honce hbuild
    rw [Slot.named, List.map_map] at honce
    have hsupplied := (h.ok_iff _ hinner _).mp ⟨a, hbuild⟩
    refine .object ?_ ((Slot.supplied_iff hslots Slot.mem_of_filled honce hperm).mp hsupplied)
    intro m hm
    exact ((passable_iff h.fits hinner m).mp (hpass m hm)).imp_left fun ⟨s, hs, _⟩ => ⟨s, hs⟩
  · rintro (⟨hmembers, hcomplete⟩ | _)
    have hsupplied := (Slot.supplied_iff hslots Slot.mem_of_filled hcomplete.once hperm).mpr hcomplete
    obtain ⟨a, hbuild⟩ := (h.ok_iff _ hinner ⟨lookup _, .missingField⟩).mpr hsupplied
    refine ⟨a, reader_object_eq_ok_iff.mpr ⟨by omega, rfl, _, gather_eq_ok_iff.mpr ⟨?_, rfl, ?_⟩, ?_⟩⟩
    · intro m hm
      refine (passable_iff h.fits hinner m).mpr ((hmembers m hm).imp_left ?_)
      rintro ⟨s, hs⟩
      exact ⟨s, hs, hcomplete.admitted _ (Slot.mem_filled hm hs)⟩
    · rw [held_eq_named h.fits, Slot.named, List.map_map]
      exact hcomplete.once
    · rw [held_eq_named h.fits]
      exact hbuild

theorem Obeys.list_ok_iff (h : rr.Obeys k slots) (hslots : (slots.map Slot.name).Nodup)
    {depth : Nat} (hdepth : k + 1 < depth) (record : String) (items : List Node) (stop : ListEnd) :
    (∃ a, rr.reader record depth (.list items stop) = .ok a) ↔
      (Kind.record slots).Admits (.list items stop) := by
  have hinner : k < depth - 1 := by omega
  have hlen : rr.fields.length = slots.length := h.fits.length_eq
  have hsupplied := Slot.supplied_iff hslots Slot.mem_of_zip (Slot.zip_once hslots items) (.refl _)
  constructor
  · rintro ⟨a, ha⟩
    obtain ⟨-, seen, halign, hbuild⟩ := reader_list_eq_ok_iff.mp ha
    obtain ⟨rfl, hfew, -, rfl⟩ := align_eq_ok_iff.mp halign
    rw [zip_eq_named h.fits] at hbuild
    exact .list (hlen ▸ hfew) (hsupplied.mp ((h.ok_iff _ hinner _).mp ⟨a, hbuild⟩))
  · rintro (_ | ⟨hfew, hcomplete⟩)
    obtain ⟨a, hbuild⟩ := (h.ok_iff _ hinner ⟨lookup _, _⟩).mpr (hsupplied.mpr hcomplete)
    refine ⟨a, reader_list_eq_ok_iff.mpr ⟨by omega, _, align_eq_ok_iff.mpr
      ⟨rfl, hlen ▸ hfew, (zip_check_iff h.fits hinner items).mpr hcomplete.admitted,
        (zip_eq_named h.fits items).symm⟩, hbuild⟩⟩

theorem Obeys.object_same (h : rr.Obeys k slots) (hslots : (slots.map Slot.name).Nodup)
    {record : String} {depth : Nat} {members changed further members' : List (Spelling × Node)}
    (hchanged : List.Forall₂ (Slot.Member slots) members changed)
    (hfurther : ∀ m ∈ further, Slot.Unknown slots m) (hperm : members'.Perm (changed ++ further))
    {a : α} (ha : rr.reader record depth (.object members .closed) = .ok a) :
    rr.reader record depth (.object members' .closed) = .ok a := by
  obtain ⟨hdepth, -, seen, hgather, hbuild⟩ := reader_object_eq_ok_iff.mp ha
  obtain ⟨hpass, rfl, honce⟩ := gather_eq_ok_iff.mp hgather
  have halike := Slot.filled_alike hchanged
  have hfilled := Slot.filled_perm hfurther hperm
  rw [held_eq_named h.fits, Slot.named, List.map_map] at honce
  rw [held_eq_named h.fits] at hbuild
  have hchecked := passable_changed h.fits hchanged hpass
  refine reader_object_eq_ok_iff.mpr ⟨hdepth, rfl, _, gather_eq_ok_iff.mpr ⟨?_, rfl, ?_⟩, ?_⟩
  · intro m hm
    rcases List.mem_append.mp (hperm.mem_iff.mp hm) with hm | hm
    · exact hchecked m hm
    · exact passable_unknown h.fits (hfurther m hm) _
  · rw [held_eq_named h.fits, Slot.named, List.map_map, (hfilled.map _).nodup_iff]
    exact (halike.names ▸ honce : ((Slot.filled slots changed).map (·.1.name)).Nodup)
  · rw [held_eq_named h.fits]
    refine h.same _ _ _ (fun s hs => ?_) a hbuild
    exact halike.lookup hslots Slot.mem_of_filled honce (List.reverse_perm _)
      ((List.reverse_perm _).trans (hfilled.map _)) hs

theorem Obeys.list_same (h : rr.Obeys k slots) (hslots : (slots.map Slot.name).Nodup) {record : String}
    {depth : Nat} {items items' : List Node} (hlen : items'.length = items.length)
    (halike : Slot.Alike (slots.zip items) (slots.zip items')) {a : α}
    (ha : rr.reader record depth (.list items .closed) = .ok a) :
    rr.reader record depth (.list items' .closed) = .ok a := by
  obtain ⟨hdepth, seen, halign, hbuild⟩ := reader_list_eq_ok_iff.mp ha
  obtain ⟨-, hfew, hcheck, rfl⟩ := align_eq_ok_iff.mp halign
  refine reader_list_eq_ok_iff.mpr ⟨hdepth, _, align_eq_ok_iff.mpr ⟨rfl, hlen ▸ hfew,
    zip_check_alike h.fits hlen halike hcheck, rfl⟩, ?_⟩
  rw [zip_eq_named h.fits] at hbuild ⊢
  refine h.same _ _ _ (fun s hs => ?_) a hbuild
  exact halike.lookup hslots Slot.mem_of_zip (Slot.zip_once hslots items) (.refl _) (.refl _) hs

/-- The reader of a record reads exactly the trees of its slots' kind, rearranged ones as the same. -/
theorem Obeys.reader (h : rr.Obeys k slots) (hslots : (slots.map Slot.name).Nodup) (record : String) :
    (rr.reader record).Obeys (k + 1) (.record slots) where
  ok_iff n depth hdepth := by
    cases n with
    | object members stop => exact h.object_ok_iff hslots hdepth record members stop
    | list items stop => exact h.list_ok_iff hslots hdepth record items stop
    | _ =>
      constructor
      · rintro ⟨a, ha⟩
        cases ha
      · intro hn
        cases hn
  same := by
    rintro _ _ (⟨hchanged, hfurther, hperm⟩ | ⟨hlen, halike⟩) depth a ha
    · exact h.object_same hslots hchanged hfurther hperm ha
    · exact h.list_same hslots hlen halike ha

end RecordReader

end BlockFeed.Json
