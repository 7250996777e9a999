/-! An index: lists of values under keys, with keys in order, and the selection of what two indices
of the same values admit. -/

namespace BlockFeed

/-- Lists of values by key. The values stand for shared things and are told apart by identity. -/
structure Index (ι : Type) where
  entries : List (String × List ι)
  ordered : (entries.map Prod.fst).Pairwise (· < ·)

namespace Index

variable {ι : Type}

instance [DecidableEq ι] : DecidableEq (Index ι) := fun a b =>
  if h : a.entries = b.entries then
    .isTrue (by cases a; cases b; simp_all)
  else .isFalse fun e => h (congrArg entries e)

def empty : Index ι := ⟨[], .nil⟩

def isEmpty (x : Index ι) : Bool := x.entries.isEmpty

/-- Appends a value to the list of its key. -/
def insertEntry (key : String) (i : ι) : List (String × List ι) → List (String × List ι)
  | [] => [(key, [i])]
  | (k, is) :: rest =>
    if key < k then (key, [i]) :: (k, is) :: rest
    else if k = key then (k, is ++ [i]) :: rest
    else (k, is) :: insertEntry key i rest

theorem mem_keys_insertEntry {key k : String} {i : ι} {entries : List (String × List ι)} :
    k ∈ (insertEntry key i entries).map Prod.fst ↔ k = key ∨ k ∈ entries.map Prod.fst := by
  induction entries with
  | nil => simp [insertEntry]
  | cons e rest ih =>
    obtain ⟨k', is⟩ := e
    simp only [insertEntry]
    split
    · simp
    · split
      · rename_i h
        simp [h]
      · simp only [List.map_cons, List.mem_cons, ih]
        grind

theorem ordered_insertEntry {key : String} {i : ι} {entries : List (String × List ι)}
    (h : (entries.map Prod.fst).Pairwise (· < ·)) :
    ((insertEntry key i entries).map Prod.fst).Pairwise (· < ·) := by
  induction entries with
  | nil => simp [insertEntry]
  | cons e rest ih =>
    obtain ⟨k, is⟩ := e
    simp only [List.map_cons, List.pairwise_cons] at h
    simp only [insertEntry]
    split
    · rename_i hlt
      simp only [List.map_cons, List.pairwise_cons, List.mem_cons]
      exact ⟨fun a ha => ha.elim (· ▸ hlt) fun ha => String.lt_trans hlt (h.1 a ha), h⟩
    · split
      · simpa only [List.map_cons, List.pairwise_cons] using h
      · rename_i hlt hne
        simp only [List.map_cons, List.pairwise_cons]
        refine ⟨fun a ha => ?_, ih h.2⟩
        rcases mem_keys_insertEntry.mp ha with rfl | ha
        · exact Std.lt_of_le_of_ne (String.not_lt.mp hlt) hne
        · exact h.1 a ha

def insert (x : Index ι) (key : String) (i : ι) : Index ι :=
  ⟨insertEntry key i x.entries, ordered_insertEntry x.ordered⟩

def get (x : Index ι) (key : String) : List ι :=
  match x.entries.find? (·.1 = key) with
  | some e => e.2
  | none => []

/-- The filter entry that stands for every key. -/
def wildcard : String := "*"

def isWildcard (filter : List String) : Bool := filter.isEmpty || filter.contains wildcard

/-- The values under the keys of a filter, one key after the other; all of them in key order where
the filter admits every key. -/
def admitted (x : Index ι) (filter : List String) : List ι :=
  if isWildcard filter then x.entries.flatMap Prod.snd else filter.flatMap x.get

end Index

inductive FilterError where
  | invalidParameters
  deriving Repr, DecidableEq

def FilterError.message : FilterError → String
  | .invalidParameters => "invalid parameters"

/-- The values that both filters admit, each once, in the order of the first selection. -/
def Index.filterMulti {ι : Type} [DecidableEq ι] (first second : Index ι)
    (firstFilter secondFilter : List String) : Except FilterError (List ι) :=
  if first.isEmpty && second.isEmpty then .ok []
  else if first.isEmpty || second.isEmpty then .error .invalidParameters
  else
    let others := second.admitted secondFilter
    .ok ((first.admitted firstFilter).filter (others.contains ·)).eraseDups

end BlockFeed
