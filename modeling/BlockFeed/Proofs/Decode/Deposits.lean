import BlockFeed.Proofs.Decode.Fidelity

/-! The deposits of an event: whatever denoms and accounts its payload lists, and however it spells them,
each account comes out once, with its own entries. -/

namespace BlockFeed.Decode

open Json (Reader Value Prints PrintsItems)
open Payload (DenomDeposits)
open Payload.Format (SubaccountText)
open DepositUpdate

variable {e : Event}

theorem subaccountDeposits_of_read {updates : List DenomDeposits}
    (htag : e.tag = Topic.subaccountDeposit.tag)
    (hread : e.optional "deposit_updates" (Reader.list Payload.denomDeposits) [] = .ok updates) :
    subaccountDeposits e = .ok (bySubaccount (entries updates)) := by
  rw [subaccountDeposits, expect_ok htag, hread, ← regroup_eq]
  rfl

theorem read_of_subaccountDeposits {grouped : List DepositUpdate}
    (h : subaccountDeposits e = .ok grouped) : ∃ updates,
      e.optional "deposit_updates" (Reader.list Payload.denomDeposits) [] = .ok updates ∧
      grouped = bySubaccount (entries updates) := by
  obtain ⟨-, -, h⟩ := bind_ok h
  obtain ⟨updates, hread, h⟩ := bind_ok h
  cases h
  exact ⟨updates, hread, regroup_eq updates⟩

/-- A payload of the documented format is regrouped, and so is any other that is read at all. -/
theorem subaccountDeposits_regroups (htag : e.tag = Topic.subaccountDeposit.tag) :
    (∀ updates, e.HoldsOr "deposit_updates" (.list Payload.Format.denomDeposits) [] updates →
      ∃ grouped, subaccountDeposits e = .ok grouped ∧ Regroups (entries updates) grouped) ∧
    ∀ grouped, subaccountDeposits e = .ok grouped → ∃ updates,
      e.optional "deposit_updates" (Reader.list Payload.denomDeposits) [] = .ok updates ∧
      Regroups (entries updates) grouped := by
  constructor
  · intro updates hupdates
    have hread := list_ok hupdates Payload.denomDeposits_follows (by decide)
    exact ⟨_, subaccountDeposits_of_read htag hread, regroups_bySubaccount _⟩
  · intro grouped h
    obtain ⟨updates, hread, rfl⟩ := read_of_subaccountDeposits h
    exact ⟨updates, hread, regroups_bySubaccount _⟩

section Example

/-- The member of a payload that changes the balances of one account. -/
def entryValue (account balance : String) : Value :=
  .object [("subaccount_id", .string account),
    ("deposit", .object [("available_balance", .string balance), ("total_balance", .string balance)])]

theorem entryValue_follows {account balance : String} {id : SubaccountId} {d : Decimal}
    (haccount : SubaccountText account id) (hbalance : Decimal.Plain balance d) :
    ∃ n, Prints (entryValue account balance) n ∧ Payload.Format.depositEntry n ⟨id, ⟨d, d⟩⟩ := by
  have hbalances : Json.PrintsMembers _ _ :=
    .cons "available_balance" (.string balance) (.cons "total_balance" (.string balance) .nil)
  have hmembers : Json.PrintsMembers _ _ :=
    .cons "subaccount_id" (.string account) (.cons "deposit" (.object hbalances) .nil)
  have houter : ["subaccount_id", "deposit"].Nodup := by decide
  have hinner : ["available_balance", "total_balance"].Nodup := by decide
  refine ⟨_, .object hmembers, _, ⟨_, rfl, hmembers.whole, houter, rfl⟩,
    ⟨_, rfl, _, rfl, haccount⟩, ⟨_, rfl, ?_⟩⟩
  exact ⟨_, ⟨_, rfl, hbalances.whole, hinner, rfl⟩, ⟨_, rfl, _, rfl, hbalance⟩,
    ⟨_, rfl, _, rfl, hbalance⟩⟩

def accountOf (last : UInt8) : SubaccountId := ⟨List.replicate 31 0 ++ [last], by simp⟩

def denomValue (denom : String) (deposits : List Value) : Value :=
  .object [("denom", .string denom), ("deposits", .list deposits)]

theorem denomValue_follows (denom : String) {vs : List Value} {ns : List Json.Node}
    {ds : List Payload.DepositEntry} (hprints : PrintsItems vs ns)
    (hds : List.Forall₂ Payload.Format.depositEntry ns ds) :
    ∃ n, Prints (denomValue denom vs) n ∧ Payload.Format.denomDeposits n ⟨denom, ds⟩ := by
  have hmembers : Json.PrintsMembers _ _ :=
    .cons "denom" (.string denom) (.cons "deposits" (.list hprints) .nil)
  have hkeys : ["denom", "deposits"].Nodup := by decide
  exact ⟨_, .object hmembers, _, ⟨_, rfl, hmembers.whole, hkeys, rfl⟩, ⟨_, rfl, rfl⟩,
    .inr ⟨_, rfl, _, rfl, hds⟩⟩

def twoSpellings : Event :=
  ⟨Topic.subaccountDeposit.tag, [.indexed "deposit_updates" (Value.list [
    denomValue "inj" [entryValue "AQ==" "1", entryValue "Ag==" "2"],
    denomValue "usdt" [entryValue (accountOf 1).text "3"]]).text]⟩

/-- One account, in base64 and in hexadecimal. -/
theorem subaccountDeposits_twoSpellings :
    let updates : List DenomDeposits :=
      [⟨"inj", [⟨accountOf 1, ⟨⟨1, 0⟩, ⟨1, 0⟩⟩⟩, ⟨accountOf 2, ⟨⟨2, 0⟩, ⟨2, 0⟩⟩⟩]⟩,
        ⟨"usdt", [⟨accountOf 1, ⟨⟨3, 0⟩, ⟨3, 0⟩⟩⟩]⟩]
    twoSpellings.tag = Topic.subaccountDeposit.tag ∧
    twoSpellings.HoldsOr "deposit_updates" (.list Payload.Format.denomDeposits) [] updates ∧
    subaccountDeposits twoSpellings =
      .ok [⟨accountOf 1, [⟨"inj", ⟨⟨1, 0⟩, ⟨1, 0⟩⟩⟩, ⟨"usdt", ⟨⟨3, 0⟩, ⟨3, 0⟩⟩⟩]⟩,
        ⟨accountOf 2, [⟨"inj", ⟨⟨2, 0⟩, ⟨2, 0⟩⟩⟩]⟩] ∧
    ∃ grouped, subaccountDeposits twoSpellings = .ok grouped ∧
      Regroups (entries updates) grouped := by
  intro updates
  have hone : Decimal.Plain "1" ⟨1, 0⟩ := .positive (.whole (List.cons_ne_nil '1' []) (by simp))
  have htwo : Decimal.Plain "2" ⟨2, 0⟩ := .positive (.whole (List.cons_ne_nil '2' []) (by simp))
  have hthree : Decimal.Plain "3" ⟨3, 0⟩ := .positive (.whole (List.cons_ne_nil '3' []) (by simp))
  have hbase64 : SubaccountText (String.ofList (Text.Base64.encode [1])) (accountOf 1) :=
    .base64 (by decide) rfl
  have hother : SubaccountText (String.ofList (Text.Base64.encode [2])) (accountOf 2) :=
    .base64 (by decide) rfl
  have hdigits : SubaccountText (accountOf 1).text (accountOf 1) :=
    .digits (accountOf 1).length_octets (Text.Hex.spells_encode _) rfl
  obtain ⟨n₁, hn₁, h₁⟩ := entryValue_follows hbase64 hone
  obtain ⟨n₂, hn₂, h₂⟩ := entryValue_follows hother htwo
  obtain ⟨n₃, hn₃, h₃⟩ := entryValue_follows hdigits hthree
  obtain ⟨inj, hinj, hinj'⟩ := denomValue_follows "inj" (.cons hn₁ (.cons hn₂ .nil))
    (.cons h₁ (.cons h₂ .nil))
  obtain ⟨usdt, husdt, husdt'⟩ := denomValue_follows "usdt" (.cons hn₃ .nil) (.cons h₃ .nil)
  have htext := (Prints.list (.cons hinj (.cons husdt .nil))).isText
  have hholds : twoSpellings.HoldsOr "deposit_updates" (.list Payload.Format.denomDeposits) [] updates :=
    ⟨some updates, .inr ⟨_, _, rfl, htext, .inr ⟨updates, rfl, _, rfl, .cons hinj' (.cons husdt' .nil)⟩⟩,
      rfl⟩
  have hgrouped : bySubaccount (entries updates) =
      [⟨accountOf 1, [⟨"inj", ⟨⟨1, 0⟩, ⟨1, 0⟩⟩⟩, ⟨"usdt", ⟨⟨3, 0⟩, ⟨3, 0⟩⟩⟩]⟩,
        ⟨accountOf 2, [⟨"inj", ⟨⟨2, 0⟩, ⟨2, 0⟩⟩⟩]⟩] := by decide +kernel
  have hread := list_ok hholds Payload.denomDeposits_follows (by decide)
  exact ⟨rfl, hholds, hgrouped ▸ subaccountDeposits_of_read rfl hread,
    (subaccountDeposits_regroups rfl).1 updates hholds⟩

end Example

end BlockFeed.Decode
