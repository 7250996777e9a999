import BlockFeed.Json.Reader
import BlockFeed.Proofs.Json.Spelling
import BlockFeed.Proofs.Outcome

/-! Whole trees and their texts. A text that spells the tokens of a tree, in whatever way, is read
as that tree. -/

namespace BlockFeed.Json

theorem ListEnd.skip_eq_ok_iff {stop : ListEnd} : stop.skip = .ok () ↔ stop = .closed := by
  cases stop <;> simp [ListEnd.skip, ListEnd.read]

theorem ObjectEnd.skip_eq_ok_iff {stop : ObjectEnd} : stop.skip = .ok () ↔ stop = .closed := by
  cases stop <;> simp [ObjectEnd.skip, ObjectEnd.read]

namespace Node

/-- Members whose keys have a text. -/
def keyed (members : List (String × Node)) : List (Spelling × Node) :=
  members.map fun m => (.ok m.1, m.2)

theorem keyed_cons (m : String × Node) (members : List (String × Node)) :
    keyed (m :: members) = (.ok m.1, m.2) :: keyed members := rfl

/-- A tree of a text that nowhere breaks off. -/
inductive Whole : Node → Prop where
  | null : Whole .null
  | bool (b : Bool) : Whole (.bool b)
  | number (n : Numeral) : Whole (.number n)
  | string (s : String) : Whole (.string (.ok s))
  | list {items : List Node} (h : ∀ n ∈ items, Whole n) : Whole (.list items .closed)
  | object {members : List (String × Node)} (h : ∀ m ∈ members, Whole m.2) :
      Whole (.object (keyed members) .closed)

mutual

/-- The tokens of a tree's text. -/
def tokens : Node → List Token
  | .null => [.null]
  | .bool b => [.bool b]
  | .number n => [.number n]
  | .string s => [.string s]
  | .list items _ => .openList :: ((itemTokens items).tail ++ [.closeList])
  | .object members _ => .openObject :: ((memberTokens members).tail ++ [.closeObject])
  | .broken _ => []

/-- A comma before every item. -/
def itemTokens : List Node → List Token
  | [] => []
  | n :: rest => .comma :: (tokens n ++ itemTokens rest)

def memberToken : Spelling × Node → List Token
  | (key, n) => .string key :: .colon :: tokens n

def memberTokens : List (Spelling × Node) → List Token
  | [] => []
  | m :: rest => .comma :: (memberToken m ++ memberTokens rest)

end

/-- `text` is JSON for the tree `n`. -/
def IsText (n : Node) (text : String) : Prop := n.Whole ∧ Spelled text.toList n.tokens

theorem Whole.tokens_cons {n : Node} (h : n.Whole) :
    ∃ t ts, n.tokens = t :: ts ∧ t ≠ .closeList := by
  cases h <;> simp [tokens]

theorem step_firstItem {t : Token} (h : t ≠ .closeList) (frames : List Frame) :
    step (.firstItem frames) t = step (.value (.list [] :: frames)) t := by
  cases t <;> first | rfl | exact absurd rfl h

theorem step_item {t : Token} (h : t ≠ .closeList) (items : List Node) (frames : List Frame) :
    step (.item items frames) t = step (.value (.list items :: frames)) t := by
  cases t <;> first | rfl | exact absurd rfl h

/-- Reading goes over the whole of `n` and stands behind it. -/
def Reads (n : Node) : Prop :=
  ∀ frames, n.tokens.foldl step (.value frames) = .after n frames

theorem foldl_itemTokens {rest : List Node} (hw : ∀ n ∈ rest, n.Whole) (hr : ∀ n ∈ rest, n.Reads)
    (n : Node) (items : List Node) (frames : List Frame) :
    (itemTokens rest ++ [Token.closeList]).foldl step (.after n (.list items :: frames)) =
      .after (.list ((n :: items).reverse ++ rest) .closed) frames := by
  induction rest generalizing n items with
  | nil => simp [itemTokens, step]
  | cons m rest ih =>
    obtain ⟨t, ts, ht, hclose⟩ := (hw m List.mem_cons_self).tokens_cons
    have hm := hr m List.mem_cons_self (.list (n :: items) :: frames)
    rw [ht, List.foldl_cons] at hm
    have hrest := ih (fun k hk => hw k (List.mem_cons_of_mem _ hk))
      (fun k hk => hr k (List.mem_cons_of_mem _ hk)) m (n :: items)
    rw [itemTokens, ht, List.cons_append, List.cons_append, List.cons_append, List.foldl_cons,
      List.foldl_cons, step, step_item hclose, List.append_assoc, List.foldl_append, hm, hrest]
    simp

theorem foldl_memberTokens {rest : List (String × Node)} (hr : ∀ m ∈ rest, m.2.Reads)
    (n : Node) (key : Spelling) (members : List (Spelling × Node)) (frames : List Frame) :
    (memberTokens (keyed rest) ++ [Token.closeObject]).foldl step
        (.after n (.object members key :: frames)) =
      .after (.object (((key, n) :: members).reverse ++ keyed rest) .closed)
        frames := by
  induction rest generalizing n key members with
  | nil => simp [keyed, memberTokens, step]
  | cons m rest ih =>
    have hm := hr m List.mem_cons_self (.object ((key, n) :: members) (.ok m.1) :: frames)
    have hrest := ih (fun k hk => hr k (List.mem_cons_of_mem _ hk)) m.2 (.ok m.1) ((key, n) :: members)
    rw [keyed_cons, memberTokens, memberToken, List.cons_append, List.foldl_cons, List.cons_append,
      List.cons_append, List.cons_append, List.cons_append, List.foldl_cons, List.foldl_cons, step, step,
      beginKey, step, List.append_assoc, List.foldl_append, hm, hrest]
    · simp
    · nofun

theorem Whole.reads {n : Node} (h : n.Whole) : n.Reads := by
  induction h with
  | null => exact fun _ => rfl
  | bool b => exact fun _ => rfl
  | number n => exact fun _ => rfl
  | string s => exact fun _ => rfl
  | @list items hw ih =>
    intro frames
    cases items with
    | nil => rfl
    | cons n rest =>
      obtain ⟨t, ts, ht, hclose⟩ := (hw n List.mem_cons_self).tokens_cons
      have hn := ih n List.mem_cons_self (.list [] :: frames)
      rw [ht, List.foldl_cons] at hn
      have hrest := foldl_itemTokens (fun k hk => hw k (List.mem_cons_of_mem _ hk))
        (fun k hk => ih k (List.mem_cons_of_mem _ hk)) n [] frames
      rw [tokens, itemTokens, List.tail_cons, List.foldl_cons, List.append_assoc, ht,
        List.cons_append, List.foldl_cons, step, beginValue, step_firstItem hclose,
        List.foldl_append, hn, hrest]
      rfl
  | @object members hw ih =>
    intro frames
    cases members with
    | nil => rfl
    | cons m rest =>
      have hm := ih m List.mem_cons_self (.object [] (.ok m.1) :: frames)
      have hrest := foldl_memberTokens (fun k hk => ih k (List.mem_cons_of_mem _ hk)) m.2 (.ok m.1)
        [] frames
      rw [tokens, keyed_cons, memberTokens, memberToken, List.tail_cons, List.foldl_cons,
        List.append_assoc, List.cons_append, List.cons_append, List.foldl_cons, List.foldl_cons,
        step, beginValue, step, beginKey, step, List.foldl_append, hm, hrest]
      · rfl
      · nofun

theorem IsText.ofText {n : Node} {text : String} (h : n.IsText text) :
    Document.ofText text = ⟨n, false⟩ := by
  rw [Document.ofText, h.2.tokens_eq, Document.ofTokens, h.1.reads]
  rfl

/-- A tree of a text that nowhere breaks off, its strings in whatever spelling. -/
inductive Unbroken : Node → Prop where
  | null : Unbroken .null
  | bool (b : Bool) : Unbroken (.bool b)
  | number (n : Numeral) : Unbroken (.number n)
  | string (s : Spelling) : Unbroken (.string s)
  | list {items : List Node} (h : ∀ n ∈ items, Unbroken n) : Unbroken (.list items .closed)
  | object {members : List (Spelling × Node)} (h : ∀ m ∈ members, Unbroken m.2) :
      Unbroken (.object members .closed)

mutual

theorem unbroken_of_skip (n : Node) (h : n.skip = .ok ()) : n.Unbroken := by
  cases n with
  | null => exact .null
  | bool b => exact .bool b
  | number n => exact .number n
  | string s => exact .string s
  | broken b => exact nomatch h
  | list items stop =>
    obtain ⟨hitems, hstop⟩ := bind_unit_eq_ok_iff.mp h
    obtain rfl := ListEnd.skip_eq_ok_iff.mp hstop
    exact .list (unbroken_of_skipItems items hitems)
  | object members stop =>
    obtain ⟨hmembers, hstop⟩ := bind_unit_eq_ok_iff.mp h
    obtain rfl := ObjectEnd.skip_eq_ok_iff.mp hstop
    exact .object (unbroken_of_skipMembers members hmembers)

theorem unbroken_of_skipItems (items : List Node) (h : skipItems items = .ok ()) :
    ∀ n ∈ items, n.Unbroken := by
  cases items with
  | nil => exact List.forall_mem_nil _
  | cons n rest =>
    obtain ⟨hfirst, hrest⟩ := bind_unit_eq_ok_iff.mp h
    exact List.forall_mem_cons.mpr ⟨unbroken_of_skip n hfirst, unbroken_of_skipItems rest hrest⟩

theorem unbroken_of_skipMembers (members : List (Spelling × Node))
    (h : skipMembers members = .ok ()) : ∀ m ∈ members, m.2.Unbroken := by
  cases members with
  | nil => exact List.forall_mem_nil _
  | cons m rest =>
    obtain ⟨key, n⟩ := m
    obtain ⟨hfirst, hrest⟩ := bind_unit_eq_ok_iff.mp h
    rw [skipMember] at hfirst
    exact List.forall_mem_cons.mpr ⟨unbroken_of_skip n hfirst, unbroken_of_skipMembers rest hrest⟩

end

theorem skipItems_ok {items : List Node} (h : ∀ n ∈ items, n.skip = .ok ()) :
    skipItems items = .ok () := by
  induction items with
  | nil => rfl
  | cons n rest ih =>
    rw [skipItems, h n List.mem_cons_self]
    exact ih fun k hk => h k (List.mem_cons_of_mem _ hk)

theorem skipMembers_ok {members : List (Spelling × Node)} (h : ∀ m ∈ members, m.2.skip = .ok ()) :
    skipMembers members = .ok () := by
  induction members with
  | nil => rfl
  | cons m rest ih =>
    rw [skipMembers, skipMember, h m List.mem_cons_self]
    exact ih fun k hk => h k (List.mem_cons_of_mem _ hk)

/-- Exactly the unbroken trees are passed over, whatever they hold and however deep they are. -/
theorem skip_eq_ok_iff {n : Node} : n.skip = .ok () ↔ n.Unbroken := by
  constructor
  · exact unbroken_of_skip n
  · intro h
    induction h with
    | null => simp [skip]
    | bool b => simp [skip]
    | number n => simp [skip]
    | string s => simp [skip]
    | list _ ih =>
      rw [skip, skipItems_ok ih]
      rfl
    | object _ ih =>
      rw [skip, skipMembers_ok ih]
      rfl

theorem Whole.unbroken {n : Node} (h : n.Whole) : n.Unbroken := by
  induction h with
  | null => exact .null
  | bool b => exact .bool b
  | number n => exact .number n
  | string s => exact .string (.ok s)
  | list _ ih => exact .list ih
  | object _ ih =>
    refine .object fun _ hkeyed => ?_
    obtain ⟨m, hm, rfl⟩ := List.mem_map.mp hkeyed
    exact ih m hm

theorem Whole.skip_ok {n : Node} (h : n.Whole) : n.skip = .ok () := skip_eq_ok_iff.mpr h.unbroken

section Values

variable {depth : Nat} {v : Value}

theorem value_list {items : List Node} {stop : ListEnd} (h : (Node.list items stop).value depth = .ok v) :
    ∃ vs, v = .list vs := by
  rw [value] at h
  obtain ⟨k, -, h⟩ := bind_ok h
  obtain ⟨vs, -, h⟩ := bind_ok h
  obtain ⟨-, -, h⟩ := bind_ok h
  exact ⟨vs, (Except.ok.inj h).symm⟩

theorem value_object {members : List (Spelling × Node)} {stop : ObjectEnd}
    (h : (Node.object members stop).value depth = .ok v) : ∃ ms, v = .object ms := by
  rw [value] at h
  obtain ⟨k, -, h⟩ := bind_ok h
  obtain ⟨vs, -, h⟩ := bind_ok h
  obtain ⟨-, -, h⟩ := bind_ok h
  exact ⟨_, (Except.ok.inj h).symm⟩

/-- What the value of a tree tells of the tree, where it is not a list or an object. -/
inductive Valued : Node → Value → Prop where
  | null : Valued .null .null
  | bool (b : Bool) : Valued (.bool b) (.bool b)
  | number {n : Numeral} {x : Number} (h : n.toNumber = .ok x) : Valued (.number n) (.number x)
  | string (s : String) : Valued (.string (.ok s)) (.string s)
  | list (items : List Node) (stop : ListEnd) (vs : List Value) : Valued (.list items stop) (.list vs)
  | object (members : List (Spelling × Node)) (stop : ObjectEnd) (ms : List (String × Value)) :
      Valued (.object members stop) (.object ms)

theorem valued_of_value {n : Node} (h : n.value depth = .ok v) : n.Valued v := by
  cases n with
  | null =>
    obtain rfl := Except.ok.inj h
    exact .null
  | bool b =>
    obtain rfl := Except.ok.inj h
    exact .bool b
  | number n =>
    obtain ⟨x, hx, rfl⟩ := map_eq_ok_iff.mp h
    exact .number hx
  | string s =>
    obtain ⟨text, rfl, rfl⟩ := map_eq_ok_iff.mp h
    exact .string text
  | list items stop =>
    obtain ⟨vs, rfl⟩ := value_list h
    exact .list items stop vs
  | object members stop =>
    obtain ⟨ms, rfl⟩ := value_object h
    exact .object members stop ms
  | broken b => cases h

theorem value_number {n : Numeral} {x : Number} (h : n.toNumber = .ok x) :
    (Node.number n).value depth = .ok (.number x) :=
  map_eq_ok_iff.mpr ⟨x, h, rfl⟩

end Values

end Node

theorem Reader.run_text {α : Type} (r : Reader α) {n : Node} {text : String} (h : n.IsText text) :
    r.run text = r maxDepth n := by
  rw [run, h.ofText]
  cases r maxDepth n <;> rfl

end BlockFeed.Json
