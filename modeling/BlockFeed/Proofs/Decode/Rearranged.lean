import BlockFeed.Proofs.Decode.Entry

/-! The members of a payload's records may stand in any order and among others. -/

namespace BlockFeed

open Json (Kind Node Prints PrintsMembers Slot Spelling Value)
open Payload

/-- An event whose payloads are rearranged decodes to the same records, and to the same error where it
fails for something else. -/
theorem Event.decode_rearranged {t : Topic} {e e' : Event} (htag : e.tag = t.tag) (htag' : e'.tag = t.tag)
    (hvaried : ∀ d ∈ t.demands e.attribute?, d.Varied e.attribute? e'.attribute?) :
    (∀ records, e.decode = .ok records → e'.decode = .ok records) ∧
    ((∀ d ∈ t.demands e.attribute?,
        d.Met e.attribute? ∨ e'.attribute? d.key = e.attribute? d.key) → e'.decode = e.decode) := by
  have h := Decode.decode_obeys htag
  have hsame : e'.tag = e.tag := htag'.trans htag.symm
  exact ⟨fun _ hok => h.varied hsame hvaried hok,
    fun hmet => h.same e' hsame fun d hd => ⟨hvaried d hd, hmet d hd⟩⟩

namespace Event

/-- Lists in one another. -/
def nested : Nat → Value
  | 0 => .null
  | n + 1 => .list [nested n]

theorem nested_prints (n : Nat) : ∃ node, Prints (nested n) node := by
  induction n with
  | zero => exact ⟨_, .null⟩
  | succ n ih =>
    obtain ⟨node, h⟩ := ih
    exact ⟨_, .list (.cons h .nil)⟩

def positionsOf (payload : Value) : Event :=
  ⟨Topic.positions.tag,
    [.indexed "market_id" (Value.string "m").text, .indexed "positions" payload.text]⟩

theorem positionsOf_market (payload : Value) :
    (positionsOf payload).attribute? "market_id" = some (Value.string "m").text := rfl

theorem positionsOf_positions (payload : Value) :
    (positionsOf payload).attribute? "positions" = some payload.text := rfl

def position : Value :=
  .list [.object [("position", .object [("isLong", .bool true), ("quantity", .string "1"),
      ("entry_price", .string "2.5"), ("margin", .string "3"), ("cumulative_funding_entry", .string "0")]),
    ("subaccount_id", .string "AQ==")]]

/-- All members the other way round, each object with one more of them. -/
def positionRearranged : Value :=
  .list [.object [("note", nested 200), ("subaccount_id", .string "AQ=="),
    ("position", .object [("quantities", .object [("quantity", .null)]),
      ("cumulative_funding_entry", .string "0"), ("margin", .string "3"), ("entry_price", .string "2.5"),
      ("quantity", .string "1"), ("isLong", .bool true)])]]

/-- The members the other way round, behind an unknown one. -/
theorem rearranged_reverse {slots : List Slot} {members changed : List (Spelling × Node)} {key : String}
    {n : Node} (hchanged : List.Forall₂ (Slot.Member slots) members changed)
    (hkey : Slot.find? slots key = none) (hn : n.Unbroken) :
    (Kind.record slots).Rearranged (.object members .closed)
      (.object ((.ok key, n) :: changed.reverse) .closed) := by
  have hperm : ((.ok key, n) :: changed.reverse).Perm (changed ++ [(.ok key, n)]) :=
    ((List.reverse_perm changed).cons _).trans (List.perm_append_singleton _ _).symm
  exact .object hchanged (List.forall_mem_singleton.mpr ⟨key, rfl, hkey, hn⟩) hperm

theorem position_rearranged : ∃ n n', Prints position n ∧ Prints positionRearranged n' ∧
    Tree.subaccountHolding.list.Rearranged n n' := by
  obtain ⟨deep, hdeep⟩ := nested_prints 200
  have hholding : PrintsMembers _ _ := .cons "isLong" (.bool true) (.cons "quantity" (.string "1")
    (.cons "entry_price" (.string "2.5") (.cons "margin" (.string "3")
      (.cons "cumulative_funding_entry" (.string "0") .nil))))
  have hmore : Prints (.object [("quantity", .null)]) _ := .object (.cons "quantity" .null .nil)
  have hholding' : PrintsMembers _ _ := .cons "quantities" hmore
    (.cons "cumulative_funding_entry" (.string "0") (.cons "margin" (.string "3")
      (.cons "entry_price" (.string "2.5") (.cons "quantity" (.string "1")
        (.cons "isLong" (.bool true) .nil)))))
  refine ⟨_, _, .list (.cons (.object (.cons "position" (.object hholding)
      (.cons "subaccount_id" (.string "AQ==") .nil))) .nil),
    .list (.cons (.object (.cons "note" hdeep (.cons "subaccount_id" (.string "AQ==")
      (.cons "position" (.object hholding') .nil)))) .nil), _, _, rfl, rfl, .cons ?_ .nil⟩
  refine rearranged_reverse (.cons (.of_find? rfl ?_) (.cons (.of_find? rfl rfl) .nil)) rfl
    hdeep.whole.unbroken
  exact rearranged_reverse (.cons (.of_find? rfl rfl) (.cons (.of_find? rfl rfl)
    (.cons (.of_find? rfl rfl) (.cons (.of_find? rfl rfl) (.cons (.of_find? rfl rfl) .nil))))) rfl
    hmore.whole.unbroken

/-- A position is read as before among members of any depth, and behind them. -/
theorem decode_rearranged_position :
    let e := positionsOf position
    let e' := positionsOf positionRearranged
    let records : List Record := [.position
      { market := "m", subaccount := ⟨List.replicate 31 0 ++ [1], rfl⟩, isLong := true,
        quantity := ⟨1, 0⟩, entryPrice := ⟨25, 1⟩, margin := ⟨3, 0⟩, cumulativeFundingEntry := ⟨0, 0⟩ }]
    (∀ d ∈ Topic.positions.demands e.attribute?, d.Varied e.attribute? e'.attribute?) ∧
      e.decode = .ok records ∧ e'.decode = .ok records := by
  intro e e' records
  have hdecode : e.decode = .ok records := by decide +kernel
  obtain ⟨n, n', hn, hn', halike⟩ := position_rearranged
  have hvaried : ∀ d ∈ Topic.positions.demands e.attribute?, d.Varied e.attribute? e'.attribute? := by
    refine List.forall_mem_cons.mpr ⟨Demand.varied_of_eq ?_, List.forall_mem_singleton.mpr ?_⟩
    · exact (positionsOf_market _).trans (positionsOf_market _).symm
    · rw [Demand.Varied, positionsOf_positions, positionsOf_positions]
      exact .rewritten ⟨n, n', hn.isText.ofText, hn'.isText.ofText, .inr halike⟩
  exact ⟨hvaried, hdecode, (decode_rearranged rfl rfl hvaried).1 records hdecode⟩

end Event

end BlockFeed
