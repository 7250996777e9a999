import BlockFeed.Proofs.Json.Reading

/-! Kinds of trees: which trees a reader takes at all, and which it does not tell apart. What it makes
of them is left open. -/

namespace BlockFeed.Json

/-- A kind of trees, and when a tree is another one with its records rearranged. -/
structure Kind where
  Admits : Node → Prop
  Rearranged : Node → Node → Prop
  null_iff : ∀ {n n'}, Rearranged n n' → (n' = .null ↔ n = .null)

namespace Kind

variable {α : Type}

/-- Trees that stand for a value of the shape. There is nothing to rearrange in them. -/
def scalar (s : Shape α) : Kind where
  Admits n := ∃ a, s n a
  Rearranged n n' := n' = n
  null_iff h := by rw [h]

def list (kind : Kind) : Kind where
  Admits n := ∃ items, n = .list items .closed ∧ ∀ m ∈ items, kind.Admits m
  Rearranged n n' := ∃ items items', n = .list items .closed ∧ n' = .list items' .closed ∧
    List.Forall₂ kind.Rearranged items items'
  null_iff := by
    rintro n n' ⟨items, items', rfl, rfl, -⟩
    simp

def nullable (kind : Kind) : Kind where
  Admits n := n = .null ∨ kind.Admits n
  Rearranged n n' := n = .null ∧ n' = .null ∨ kind.Rearranged n n'
  null_iff := by
    rintro n n' (⟨rfl, rfl⟩ | h)
    · rfl
    · exact kind.null_iff h

/-- `text` is JSON for a tree of the kind. -/
def Accepts (kind : Kind) (text : String) : Prop :=
  ∃ n, Document.ofText text = ⟨n, false⟩ ∧ kind.Admits n

/-- Both texts are JSON, and the tree of the second is that of the first rearranged. -/
def Rewritten (kind : Kind) (text text' : String) : Prop :=
  ∃ n n', Document.ofText text = ⟨n, false⟩ ∧ Document.ofText text' = ⟨n', false⟩ ∧
    kind.Rearranged n n'

end Kind

/-- A field as it shows in the trees of a record. -/
structure Slot where
  name : String
  alias? : Option String
  needed : Bool
  kind : Kind

namespace Slot

def required (name : String) (kind : Kind) : Slot := ⟨name, none, true, kind⟩

def defaulted (name : String) (kind : Kind) : Slot := ⟨name, none, false, kind⟩

def aliased (name other : String) (kind : Kind) : Slot := ⟨name, some other, false, kind⟩

/-- The slot that goes by a key. -/
def find? (slots : List Slot) (key : String) : Option Slot :=
  slots.find? fun s => s.name = key || s.alias? = some key

def ofKey? (slots : List Slot) (key : Spelling) : Option Slot := key.toOption.bind (find? slots)

/-- The members of an object that belong to slots. -/
def filled (slots : List Slot) (members : List (Spelling × Node)) : List (Slot × Node) :=
  members.filterMap fun m => (ofKey? slots m.1).map fun s => (s, m.2)

/-- A member whose key has a text, under which no slot goes, and whose value is any tree. -/
def Unknown (slots : List Slot) (m : Spelling × Node) : Prop :=
  ∃ key, m.1 = .ok key ∧ find? slots key = none ∧ m.2.Unbroken

/-- What stands in the slots is of their kinds, none of them is given twice and none is missing. -/
structure Complete (slots : List Slot) (given : List (Slot × Node)) : Prop where
  admitted : ∀ e ∈ given, e.1.kind.Admits e.2
  once : (given.map (·.1.name)).Nodup
  needed : ∀ s ∈ slots, s.needed = true → s ∈ given.map Prod.fst

/-- The same slots, each with what stood in it rearranged. -/
def Alike : List (Slot × Node) → List (Slot × Node) → Prop :=
  List.Forall₂ fun e e' => e'.1 = e.1 ∧ e.1.kind.Rearranged e.2 e'.2

/-- The member of another object that takes the place of a member: a slot's value may be
rearranged, an unknown member is kept as it is. -/
def Member (slots : List Slot) (m m' : Spelling × Node) : Prop :=
  m'.1 = m.1 ∧ match ofKey? slots m.1 with
    | some s => s.kind.Rearranged m.2 m'.2
    | none => m'.2 = m.2

theorem Member.of_find? {slots : List Slot} {key : String} {n n' : Node} {s : Slot}
    (hs : find? slots key = some s) (h : s.kind.Rearranged n n') :
    Member slots (.ok key, n) (.ok key, n') :=
  ⟨rfl, by simpa [ofKey?, Except.toOption, hs] using h⟩

end Slot

namespace Kind

/-- A record: an object with members for its slots in any order, among unknown ones, or a list of
values for the slots in their order, of which the last may be left out. -/
inductive RecordAdmits (slots : List Slot) : Node → Prop where
  | object {members : List (Spelling × Node)}
      (hmembers : ∀ m ∈ members, (∃ s, Slot.ofKey? slots m.1 = some s) ∨ Slot.Unknown slots m)
      (hcomplete : Slot.Complete slots (Slot.filled slots members)) :
      RecordAdmits slots (.object members .closed)
  | list {items : List Node} (hlen : items.length ≤ slots.length)
      (hcomplete : Slot.Complete slots (slots.zip items)) : RecordAdmits slots (.list items .closed)

/-- An object with its members, rearranged themselves, in any order and among further unknown ones; a
list with its items rearranged. -/
inductive RecordRearranged (slots : List Slot) : Node → Node → Prop where
  | object {members changed further members' : List (Spelling × Node)}
      (hchanged : List.Forall₂ (Slot.Member slots) members changed)
      (hfurther : ∀ m ∈ further, Slot.Unknown slots m)
      (hperm : members'.Perm (changed ++ further)) :
      RecordRearranged slots (.object members .closed) (.object members' .closed)
  | list {items items' : List Node} (hlen : items'.length = items.length)
      (halike : Slot.Alike (slots.zip items) (slots.zip items')) :
      RecordRearranged slots (.list items .closed) (.list items' .closed)

def record (slots : List Slot) : Kind where
  Admits := RecordAdmits slots
  Rearranged := RecordRearranged slots
  null_iff h := by cases h <;> simp

end Kind

namespace Reader

variable {α β : Type}

/-- `r` reads exactly the trees of the kind where `k` containers may be opened, and makes the same of a
tree that is rearranged. -/
structure Obeys (r : Reader α) (k : Nat) (kind : Kind) : Prop where
  ok_iff : ∀ n depth, k < depth → ((∃ a, r depth n = .ok a) ↔ kind.Admits n)
  same : ∀ n n', kind.Rearranged n n' → ∀ depth a, r depth n = .ok a → r depth n' = .ok a

variable {r : Reader α} {k : Nat} {kind : Kind} {s : Shape α}

theorem Exact.obeys (h : r.Exact s) (k : Nat) : r.Obeys k (.scalar s) where
  ok_iff n depth _ := exists_congr fun a => h depth n a
  same := by
    rintro n n' rfl depth a ha
    exact ha

theorem list_eq_ok_iff {depth : Nat} {items : List Node} {stop : ListEnd} {as : List α} :
    list r depth (.list items stop) = .ok as ↔ 1 < depth ∧ stop = .closed ∧
      List.Forall₂ (fun n a => r (depth - 1) n = .ok a) items as := by
  rw [list, bind_eq_ok_iff]
  constructor
  · rintro ⟨inner, henter, h⟩
    obtain ⟨hdepth, rfl⟩ := enter_eq_ok_iff.mp henter
    obtain ⟨as, hitems, h⟩ := bind_ok h
    obtain ⟨hstop, h⟩ := bind_unit_eq_ok_iff.mp h
    obtain rfl := Except.ok.inj h
    exact ⟨hdepth, ListEnd.read_eq_ok_iff.mp hstop, readItems_eq_ok_iff.mp hitems⟩
  · rintro ⟨hdepth, rfl, hitems⟩
    refine ⟨depth - 1, enter_eq_ok_iff.mpr ⟨hdepth, rfl⟩, ?_⟩
    rw [readItems_eq_ok_iff.mpr hitems]
    rfl

theorem exists_forall₂ {R : Node → α → Prop} {items : List Node} :
    (∃ as, List.Forall₂ R items as) ↔ ∀ n ∈ items, ∃ a, R n a := by
  induction items with
  | nil => simp
  | cons n items ih =>
    rw [List.forall_mem_cons, ← ih]
    constructor
    · rintro ⟨_, _ | ⟨ha, has⟩⟩
      exact ⟨⟨_, ha⟩, _, has⟩
    · rintro ⟨⟨a, ha⟩, as, has⟩
      exact ⟨a :: as, .cons ha has⟩

theorem Obeys.list (h : r.Obeys k kind) : (list r).Obeys (k + 1) kind.list where
  ok_iff n depth hdepth := by
    cases n with
    | list items stop =>
      simp only [list_eq_ok_iff, exists_and_left, exists_forall₂, h.ok_iff _ (depth - 1) (by omega)]
      constructor
      · rintro ⟨-, rfl, hitems⟩
        exact ⟨items, rfl, hitems⟩
      · rintro ⟨_, ⟨⟩, hitems⟩
        exact ⟨by omega, rfl, hitems⟩
    | _ => simp [Reader.list, Kind.list]
  same := by
    rintro _ _ ⟨items, items', rfl, rfl, halike⟩ depth as has
    obtain ⟨hdepth, -, hitems⟩ := list_eq_ok_iff.mp has
    refine list_eq_ok_iff.mpr ⟨hdepth, rfl, ?_⟩
    clear has
    induction halike generalizing as with
    | nil => exact hitems
    | cons hsame _ ih =>
      cases hitems with
      | cons ha hrest => exact .cons (h.same _ _ hsame _ _ ha) (ih _ hrest)

theorem Obeys.nullable (h : r.Obeys k kind) : (nullable r).Obeys k kind.nullable where
  ok_iff n depth hdepth := by
    by_cases hn : n = .null
    · subst hn
      exact iff_of_true ⟨none, rfl⟩ (.inl rfl)
    · simp only [nullable_of_ne_null hn, map_eq_ok_iff, Kind.nullable, hn, false_or,
        ← h.ok_iff n depth hdepth]
      constructor
      · rintro ⟨_, a, ha, -⟩
        exact ⟨a, ha⟩
      · rintro ⟨a, ha⟩
        exact ⟨some a, a, ha, rfl⟩
  same := by
    rintro n n' (⟨rfl, rfl⟩ | halike) depth a ha
    · exact ha
    · by_cases hn : n = .null
      · obtain rfl := (kind.null_iff halike).mpr hn
        exact hn ▸ ha
      · rw [nullable_of_ne_null hn, map_eq_ok_iff] at ha
        obtain ⟨b, hb, rfl⟩ := ha
        rw [nullable_of_ne_null (mt (kind.null_iff halike).mp hn), h.same n n' halike depth b hb]
        rfl

/-- A field's check takes what the field's reader takes. -/
theorem Obeys.check (h : r.Obeys k kind) :
    Obeys (fun depth n => do let _ ← r depth n : Reader Unit) k kind where
  ok_iff n depth hdepth := by
    rw [← h.ok_iff n depth hdepth]
    constructor
    · rintro ⟨u, hu⟩
      obtain ⟨a, ha, -⟩ := bind_ok hu
      exact ⟨a, ha⟩
    · rintro ⟨a, ha⟩
      exact ⟨(), by rw [ha]; rfl⟩
  same n n' halike depth u hu := by
    obtain ⟨a, ha, hu⟩ := bind_ok hu
    rw [h.same n n' halike depth a ha]
    exact hu

theorem run_eq_ok_iff {text : String} {a : α} :
    r.run text = .ok a ↔ ∃ n, Document.ofText text = ⟨n, false⟩ ∧ r maxDepth n = .ok a := by
  rw [run, bind_eq_ok_iff]
  constructor
  · rintro ⟨b, hb, h⟩
    split at h
    · cases h
    · next htrailing =>
      obtain rfl := Except.ok.inj h
      exact ⟨_, by rw [← Bool.eq_false_iff.mpr htrailing], hb⟩
  · rintro ⟨n, hdoc, ha⟩
    exact ⟨a, by rw [hdoc]; exact ha, by rw [hdoc]; rfl⟩

theorem Obeys.run_ok_iff (h : r.Obeys k kind) (hk : k < maxDepth) (text : String) :
    (∃ a, r.run text = .ok a) ↔ kind.Accepts text := by
  simp only [run_eq_ok_iff]
  rw [exists_comm]
  simp only [exists_and_left, h.ok_iff _ _ hk, Kind.Accepts]

theorem Obeys.run_same (h : r.Obeys k kind) {text text' : String} (hsame : kind.Rewritten text text')
    {a : α} (ha : r.run text = .ok a) : r.run text' = .ok a := by
  obtain ⟨n, n', hdoc, hdoc', halike⟩ := hsame
  obtain ⟨m, hm, hread⟩ := run_eq_ok_iff.mp ha
  obtain rfl : n = m := congrArg Document.root (hdoc.symm.trans hm)
  exact run_eq_ok_iff.mpr ⟨n', hdoc', h.same n n' halike _ _ hread⟩

end Reader

end BlockFeed.Json
