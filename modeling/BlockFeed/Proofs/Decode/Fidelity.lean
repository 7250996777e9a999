import BlockFeed.Proofs.Decode.Format
import BlockFeed.Proofs.Json.Printing
import BlockFeed.Proofs.Payload.Reading

/-! Events decode to exactly the records they document. -/

namespace BlockFeed

open Json (Reader Shape maxDepth)
open Payload

theorem Topic.ofTag_tag (t : Topic) : ofTag? t.tag = some t := by
  cases t <;> decide

namespace Event

section Attributes

variable {α : Type} {e : Event} {key : String} {r : Reader α} {k : Nat} {s : Shape α} {a d : α}

theorem parse_ok {n : Json.Node} {text : String} (hr : r.Follows k s) (hk : k < maxDepth)
    (ht : n.IsText text) (hs : s n a) (key : String) : parse r key text = .ok a := by
  rw [parse, r.run_text ht, hr n a hs maxDepth hk]

theorem required_ok (h : e.Holds key s a) (hr : r.Follows k s) (hk : k < maxDepth) :
    e.required key r = .ok a := by
  obtain ⟨text, n, hvalue, ht, hs⟩ := h
  rw [required, hvalue]
  exact parse_ok hr hk ht hs key

theorem optional_ok (h : e.HoldsOr key s d a) (hr : r.Follows k s) (hs : s.Solid)
    (hk : k < maxDepth) : e.optional key r d = .ok a := by
  obtain ⟨held, hmay, rfl⟩ := h
  rcases hmay with ⟨hnone, rfl⟩ | ⟨text, n, hvalue, ht, hn⟩
  · rw [optional, hnone]
    rfl
  · have hparse := parse_ok (hr.nullable hs) hk ht hn key
    rw [optional, hvalue]
    simp only [hparse]
    rfl

theorem optional_error {n : Json.Node} {text : String} {f : Json.Fault}
    (hvalue : e.attribute? key = some text) (ht : n.IsText text)
    (hr : Reader.nullable r maxDepth n = .error f) (d : α) :
    e.optional key r d = .error (.attribute key (.malformed f)) := by
  have hparse : parse (Reader.nullable r) key text = .error (.attribute key (.malformed f)) := by
    rw [parse, Reader.run_text _ ht, hr]
  rw [optional, hvalue]
  simp only [hparse]
  rfl

theorem decimalOf_plain {text : String} {x : Decimal} (h : Decimal.Plain text x) (key : String) :
    decimalOf key text = .ok x := by
  rw [decimalOf, h.ofText]

theorem requiredDecimal_ok {x : Decimal} (h : e.Holds key Format.decimal x) :
    e.requiredDecimal key = .ok x := by
  obtain ⟨text, n, hvalue, ht, written, hn, hx⟩ := h
  have hread : e.required key Reader.string = .ok written :=
    required_ok ⟨text, n, hvalue, ht, hn⟩ (Reader.string_follows 0) (by decide)
  rw [requiredDecimal, hread]
  exact decimalOf_plain hx key

theorem optionalDecimal_ok {x : Option Decimal} (h : e.MayHold key Format.decimal x) :
    e.optionalDecimal key = .ok x := by
  rcases h with ⟨hnone, rfl⟩ | ⟨text, n, hvalue, ht, hn⟩
  · rw [optionalDecimal, optional, hnone]
    rfl
  · rw [optionalDecimal, optional, hvalue]
    rcases hn with ⟨rfl, rfl⟩ | ⟨x, rfl, written, rfl, hx⟩
    · have hparse : parse (Reader.nullable Reader.any) key text = .ok none := by
        rw [parse, Reader.run_text _ ht]
        rfl
      simp only [hparse]
      rfl
    · have hparse : parse (Reader.nullable Reader.any) key text = .ok (some (.string written)) := by
        rw [parse, Reader.run_text _ ht]
        rfl
      have hdecimal := decimalOf_plain hx key
      simp only [hparse, Functor.map, Except.map, bind, Except.bind, Option.getD_some, hdecimal]

/-- Decimals in a list are texts in a list. -/
theorem written_decimals {n : Json.Node} {ds : List Decimal} (h : Shape.list Format.decimal n ds) :
    ∃ texts, Shape.list .string n texts ∧ List.Forall₂ Decimal.Plain texts ds := by
  obtain ⟨items, rfl, hitems⟩ := h
  suffices ∃ texts, List.Forall₂ Shape.string items texts ∧ List.Forall₂ Decimal.Plain texts ds by
    obtain ⟨texts, htexts, hplain⟩ := this
    exact ⟨texts, ⟨items, rfl, htexts⟩, hplain⟩
  induction hitems with
  | nil => exact ⟨[], .nil, .nil⟩
  | cons hd _ ih =>
    obtain ⟨text, hn, hplain⟩ := hd
    obtain ⟨texts, htexts, hrest⟩ := ih
    exact ⟨text :: texts, .cons hn htexts, .cons hplain hrest⟩

theorem holdsOr_written_decimals {ds : List Decimal}
    (h : e.HoldsOr key (.list Format.decimal) [] ds) :
    ∃ texts, e.HoldsOr key (.list .string) [] texts ∧ List.Forall₂ Decimal.Plain texts ds := by
  obtain ⟨held, ⟨hnone, rfl⟩ | ⟨text, n, hvalue, ht, ⟨hn, rfl⟩ | ⟨held, rfl, hn⟩⟩, rfl⟩ := h
  · exact ⟨[], ⟨none, .inl ⟨hnone, rfl⟩, rfl⟩, .nil⟩
  · exact ⟨[], ⟨none, .inr ⟨text, n, hvalue, ht, .inl ⟨hn, rfl⟩⟩, rfl⟩, .nil⟩
  · obtain ⟨texts, htexts, hplain⟩ := written_decimals hn
    exact ⟨texts, ⟨some texts, .inr ⟨text, n, hvalue, ht, .inr ⟨texts, rfl, htexts⟩⟩, rfl⟩, hplain⟩

end Attributes

end Event

namespace Decode

open Event

variable {e : Event}

theorem expect_ok {t : Topic} (h : e.tag = t.tag) : e.expect t = .ok () := by
  rw [expect, if_pos h]

theorem market_ok {m : String} (h : e.Holds "market_id" .string m) : e.market = .ok m :=
  required_ok h (Reader.string_follows 0) (by decide)

theorem bool_ok {key : String} {b : Bool} (h : e.HoldsOr key .bool false b) :
    e.optional key Reader.bool false = .ok b :=
  optional_ok h (Reader.bool_follows 0) Shape.solid_bool (by decide)

theorem text_ok {key text : String} (h : e.HoldsOr key .string "" text) :
    e.optional key Reader.string "" = .ok text :=
  optional_ok h (Reader.string_follows 0) Shape.solid_string (by decide)

theorem list_ok {α : Type} {key : String} {r : Reader α} {k : Nat} {s : Shape α} {as : List α}
    (h : e.HoldsOr key (.list s) [] as) (hr : r.Follows k s) (hk : k + 1 < maxDepth) :
    e.optional key (Reader.list r) [] = .ok as :=
  optional_ok h hr.list (Shape.solid_list s) hk

/-- Texts of decimals are paired with their symbols. -/
theorem pairs_ok {symbols texts : List String} {prices : List Decimal}
    (h : List.Forall₂ Decimal.Plain texts prices) :
    (symbols.zip texts).mapM (fun p => do
        return (⟨p.1, ← decimalOf "prices" p.2, .bandIbc⟩ : OraclePrice)) =
      .ok ((symbols.zip prices).map fun p => ⟨p.1, p.2, .bandIbc⟩) := by
  induction h generalizing symbols with
  | nil =>
    rw [List.zip_nil_right, List.zip_nil_right]
    rfl
  | @cons text price texts prices hplain _ ih =>
    cases symbols with
    | nil => rfl
    | cons symbol symbols =>
      rw [List.zip_cons_cons, List.zip_cons_cons, List.mapM_cons, ih]
      simp only [decimalOf_plain hplain, bind, Except.bind]
      rfl

end Decode

open Decode Event

/-- An event decodes to the records it documents, and to no others. -/
theorem Event.decode_of_documents {e : Event} {records : List Record} (h : e.Documents records) :
    e.decode = .ok records := by
  have hdecode : ∀ {t : Topic}, e.tag = t.tag → e.decode = ofTopic e t := by
    intro t htag
    rw [Event.decode, htag, Topic.ofTag_tag]
  cases h with
  | subaccountDeposit htag hupdates =>
    rw [hdecode htag, ofTopic, subaccountDeposits, expect_ok htag,
      list_ok hupdates denomDeposits_follows (by decide), ← DepositUpdate.regroup_eq]
    rfl
  | spotOrders htag hmarket hbuys hsells =>
    rw [hdecode htag, ofTopic, Decode.spotOrders, expect_ok htag, market_ok hmarket,
      list_ok hbuys spotOrder_follows (by decide), list_ok hsells spotOrder_follows (by decide)]
    exact congrArg Except.ok List.map_map
  | derivativeOrders htag hmarket hbuys hsells =>
    rw [hdecode htag, ofTopic, Decode.derivativeOrders, expect_ok htag, market_ok hmarket,
      list_ok hbuys derivativeOrder_follows (by decide),
      list_ok hsells derivativeOrder_follows (by decide)]
    exact congrArg Except.ok List.map_map
  | cancelSpotOrder htag hmarket horder =>
    rw [hdecode htag, ofTopic, Decode.cancelSpotOrder, expect_ok htag, market_ok hmarket,
      required_ok horder spotOrder_follows (by decide)]
    rfl
  | cancelLimitOrder htag hmarket hlimit horder =>
    rw [hdecode htag, ofTopic, cancelDerivativeOrder, expect_ok htag, market_ok hmarket,
      bool_ok hlimit, required_ok horder derivativeOrder_follows (by decide)]
    rfl
  | cancelMarketOrder htag hmarket hlimit horder =>
    rw [hdecode htag, ofTopic, cancelDerivativeOrder, expect_ok htag, market_ok hmarket,
      bool_ok hlimit, required_ok horder marketOrderCancel_follows (by decide)]
    rfl
  | spotTrades htag hmarket hbuy htype hfills =>
    rw [hdecode htag, ofTopic, Decode.spotTrades, expect_ok htag, market_ok hmarket, bool_ok hbuy,
      text_ok htype, list_ok hfills spotFill_follows (by decide)]
    exact congrArg Except.ok List.map_map
  | derivativeTrades htag hmarket hbuy hliquidation hfunding htype hfills =>
    rw [hdecode htag, ofTopic, Decode.derivativeTrades, expect_ok htag, market_ok hmarket,
      bool_ok hbuy, bool_ok hliquidation, optionalDecimal_ok hfunding, text_ok htype,
      list_ok hfills derivativeFill_follows (by decide)]
    exact congrArg Except.ok List.map_map
  | positions htag hmarket hholdings =>
    rw [hdecode htag, ofTopic, Decode.positions, expect_ok htag, market_ok hmarket,
      list_ok hholdings subaccountHolding_follows (by decide)]
    exact congrArg Except.ok List.map_map
  | pythPrices htag hprices =>
    rw [hdecode htag, ofTopic, Decode.pythPrices, expect_ok htag,
      list_ok hprices feedPrice_follows (by decide)]
    exact congrArg Except.ok List.map_map
  | @bandIbcPrices symbols prices htag hsymbols hprices hlen =>
    obtain ⟨texts, htexts, hplain⟩ := holdsOr_written_decimals hprices
    have hpaired : ¬ symbols.length ≠ texts.length :=
      not_not_intro (hlen.trans hplain.length_eq.symm)
    have hsymbols' := list_ok hsymbols (Reader.string_follows 0) (by decide)
    have htexts' := list_ok htexts (Reader.string_follows 0) (by decide)
    have hread : Decode.bandIbcPrices e =
        .ok ((symbols.zip prices).map fun p => ⟨p.1, p.2, .bandIbc⟩) := by
      rw [Decode.bandIbcPrices, expect_ok htag, hsymbols', htexts', ← pairs_ok hplain]
      exact if_neg hpaired
    rw [hdecode htag, ofTopic, hread]
    exact congrArg Except.ok List.map_map
  | providerPrice htag hsymbol hprice =>
    rw [hdecode htag, ofTopic, Decode.providerPrice, expect_ok htag,
      required_ok hsymbol (Reader.string_follows 0) (by decide), requiredDecimal_ok hprice]
    rfl
  | priceFeedPrice htag hbase hprice =>
    rw [hdecode htag, ofTopic, Decode.priceFeedPrice, expect_ok htag,
      required_ok hbase (Reader.string_follows 0) (by decide), requiredDecimal_ok hprice]
    rfl

/-- A fill of account 1, whose recipient is `null` and whose order is left out. -/
theorem Event.decode_spot_fill :
    (⟨Topic.spotTrades.tag, [.indexed "market_id" (Json.Value.string "m").text,
        .indexed "is_buy" (Json.Value.bool true).text,
        .indexed "trades" (Json.Value.list [.object [("price", .string "-0.50"),
          ("quantity", .string "12"), ("subaccount_id", .string "AQ=="), ("fee", .string "0.0"),
          ("fee_recipient_address", .null), ("cid", .string "a\"b")]]).text]⟩ : Event).decode =
      .ok [.spotTrade
        { market := "m", isBuy := true, executionType := "", quantity := ⟨12, 0⟩, price := ⟨-50, 2⟩,
          subaccount := ⟨List.replicate 31 0 ++ [1], rfl⟩, fee := ⟨0, 1⟩, orderHash := "",
          feeRecipient := "", cid := "a\"b", tradeId := "" }] := by
  have hprice : Decimal.Plain "-0.50" ⟨-50, 2⟩ := .negative
    (.places (List.cons_ne_nil '0' []) (by simp) (List.cons_ne_nil '5' ['0']) (by simp))
  have hquantity : Decimal.Plain "12" ⟨12, 0⟩ := .positive
    (.whole (List.cons_ne_nil '1' ['2']) (by simp))
  have hfee : Decimal.Plain "0.0" ⟨0, 1⟩ := .positive
    (.places (List.cons_ne_nil '0' []) (by simp) (List.cons_ne_nil '0' []) (by simp))
  have haccount : Format.SubaccountText (String.ofList (Text.Base64.encode [1]))
      ⟨List.replicate 31 0 ++ [1], rfl⟩ := .base64 (by decide) rfl
  have hmembers : Json.PrintsMembers _ _ := .cons "price" (.string "-0.50")
    (.cons "quantity" (.string "12") (.cons "subaccount_id" (.string "AQ==")
      (.cons "fee" (.string "0.0") (.cons "fee_recipient_address" .null
        (.cons "cid" (.string "a\"b") .nil)))))
  have hmarket := (Json.Prints.string "m").isText
  have hbuy := (Json.Prints.bool true).isText
  have htrades := (Json.Prints.list (.cons (.object hmembers) .nil)).isText
  refine decode_of_documents (.spotTrades rfl ⟨_, _, rfl, hmarket, rfl⟩
    ⟨some true, .inr ⟨_, _, rfl, hbuy, .inr ⟨true, rfl, rfl⟩⟩, rfl⟩ ⟨none, .inl ⟨rfl, rfl⟩, rfl⟩
    ⟨some [⟨⟨12, 0⟩, ⟨-50, 2⟩, ⟨List.replicate 31 0 ++ [1], rfl⟩, ⟨0, 1⟩, "", "", "a\"b"⟩],
      .inr ⟨_, _, rfl, htrades, .inr ⟨_, rfl, _, rfl, .cons ?_ .nil⟩⟩, rfl⟩)
  exact ⟨_, ⟨_, rfl, hmembers.whole, by decide, rfl⟩, ⟨_, rfl, _, rfl, hquantity⟩,
    ⟨_, rfl, _, rfl, hprice⟩, ⟨_, rfl, _, rfl, haccount⟩, ⟨_, rfl, _, rfl, hfee⟩,
    .inl ⟨rfl, rfl⟩, .inr ⟨_, rfl, [], .inl ⟨rfl, rfl⟩, rfl⟩, .inr ⟨_, rfl, rfl⟩⟩

/-- Trades of one fill, whose `cid` is `null`. -/
def Event.nullCid : Event :=
  ⟨Topic.spotTrades.tag, [.indexed "market_id" (Json.Value.string "m").text,
    .indexed "trades" (Json.Value.list [.object [("quantity", .string "1"),
      ("price", .string "2.50"), ("subaccount_id", .string ""), ("fee", .string "0"),
      ("order_hash", .null), ("fee_recipient_address", .null), ("cid", .null)]]).text]⟩

/-- A member that may be left out is not for that reason nullable. -/
theorem Event.decode_nullCid :
    nullCid.decode = .error (.attribute "trades" (.malformed (.wrongType .null "a string"))) := by
  have hmarket := (Json.Prints.string "m").isText
  have hfills := (Json.Prints.list (.cons (.object (.cons "quantity" (.string "1")
    (.cons "price" (.string "2.50") (.cons "subaccount_id" (.string "") (.cons "fee" (.string "0")
      (.cons "order_hash" .null (.cons "fee_recipient_address" .null
        (.cons "cid" .null .nil)))))))) .nil)).isText
  have hbuy : nullCid.HoldsOr "is_buy" .bool false false := ⟨none, .inl ⟨rfl, rfl⟩, rfl⟩
  have htype : nullCid.HoldsOr "executionType" .string "" "" := ⟨none, .inl ⟨rfl, rfl⟩, rfl⟩
  have htrades : nullCid.optional "trades" (Reader.list spotFill) [] =
      .error (.attribute "trades" (.malformed (.wrongType .null "a string"))) :=
    optional_error rfl hfills rfl []
  show ofTopic nullCid .spotTrades = _
  rw [ofTopic, Decode.spotTrades, expect_ok rfl, market_ok ⟨_, _, rfl, hmarket, rfl⟩, bool_ok hbuy,
    text_ok htype, htrades]
  rfl

end BlockFeed
