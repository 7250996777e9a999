import BlockFeed.Proofs.Decode.Attribute

/-! What each topic demands of an event, in the order in which it looks. An event is decoded as a whole
or not at all. -/

namespace BlockFeed

open Json (Reader maxDepth)
open Payload

/-- The demands of a topic on its events, in reading order. A derivative cancel holds one order or the
other, by its flag. -/
def Topic.demands (get : Demand.Values) : Topic → List Demand
  | subaccountDeposit => [.optional "deposit_updates" Tree.denomDeposits.list]
  | spotOrders => [.required "market_id" Tree.text, .optional "buy_orders" Tree.spotOrder.list,
    .optional "sell_orders" Tree.spotOrder.list]
  | derivativeOrders => [.required "market_id" Tree.text,
    .optional "buy_orders" Tree.derivativeOrder.list, .optional "sell_orders" Tree.derivativeOrder.list]
  | cancelSpotOrder => [.required "market_id" Tree.text, .required "order" Tree.spotOrder]
  | cancelDerivativeOrder => [.required "market_id" Tree.text, .optional "isLimitCancel" Tree.flag,
    if Demand.flag get "isLimitCancel" then .required "limit_order" Tree.derivativeOrder
    else .required "market_order_cancel" Tree.marketOrderCancel]
  | spotTrades => [.required "market_id" Tree.text, .optional "is_buy" Tree.flag,
    .optional "executionType" Tree.text, .optional "trades" Tree.spotFill.list]
  | derivativeTrades => [.required "market_id" Tree.text, .optional "is_buy" Tree.flag,
    .optional "is_liquidation" Tree.flag, .optional "cumulative_funding" Tree.looseDecimal,
    .optional "executionType" Tree.text, .optional "trades" Tree.derivativeFill.list]
  | positions => [.required "market_id" Tree.text, .optional "positions" Tree.subaccountHolding.list]
  | pythPrices => [.optional "prices" Tree.feedPrice.list]
  | bandIbcPrices => [.optional "symbols" Tree.text.list, .optional "prices" Tree.text.list,
    .paired "prices" "symbols", .optional "prices" Tree.decimal.list]
  | providerPrice => [.required "symbol" Tree.text, .required "price" Tree.decimal]
  | priceFeedPrice => [.required "base" Tree.text, .required "price" Tree.decimal]

namespace Decode

open Demand

variable {α : Type} {e : Event}

theorem text_attribute_obeys (key : String) :
    Obeys (·.required key Reader.string) e [.required key Tree.text] :=
  required_obeys (text_obeys 0) (by decide) _

theorem market_obeys : Obeys Event.market e [.required "market_id" Tree.text] :=
  text_attribute_obeys "market_id"

theorem flag_attribute_obeys (key : String) :
    Obeys (·.optional key Reader.bool false) e [.optional key Tree.flag] :=
  optional_obeys (flag_obeys 0) (by decide) _ _

theorem list_attribute_obeys {r : Reader α} {k : Nat} {kind : Json.Kind} (hr : r.Obeys k kind)
    (hk : k + 1 < maxDepth) (key : String) :
    Obeys (·.optional key (Reader.list r) []) e [.optional key kind.list] :=
  optional_obeys hr.list hk _ _

theorem subaccountDeposits_obeys (htag : e.tag = Topic.subaccountDeposit.tag) :
    Obeys subaccountDeposits e (Topic.subaccountDeposit.demands e.attribute?) :=
  (expect_obeys htag).bind fun _ _ =>
  (list_attribute_obeys denomDeposits_obeys (by decide) "deposit_updates").bind fun _ _ =>
  .pure _

theorem spotOrders_obeys (htag : e.tag = Topic.spotOrders.tag) :
    Obeys spotOrders e (Topic.spotOrders.demands e.attribute?) :=
  (expect_obeys htag).bind fun _ _ =>
  market_obeys.bind fun _ _ =>
  (list_attribute_obeys spotOrder_obeys (by decide) "buy_orders").bind fun _ _ =>
  (list_attribute_obeys spotOrder_obeys (by decide) "sell_orders").bind fun _ _ =>
  .pure _

theorem derivativeOrders_obeys (htag : e.tag = Topic.derivativeOrders.tag) :
    Obeys derivativeOrders e (Topic.derivativeOrders.demands e.attribute?) :=
  (expect_obeys htag).bind fun _ _ =>
  market_obeys.bind fun _ _ =>
  (list_attribute_obeys derivativeOrder_obeys (by decide) "buy_orders").bind fun _ _ =>
  (list_attribute_obeys derivativeOrder_obeys (by decide) "sell_orders").bind fun _ _ =>
  .pure _

theorem cancelSpotOrder_obeys (htag : e.tag = Topic.cancelSpotOrder.tag) :
    Obeys cancelSpotOrder e (Topic.cancelSpotOrder.demands e.attribute?) :=
  (expect_obeys htag).bind fun _ _ =>
  market_obeys.bind fun _ _ =>
  (required_obeys spotOrder_obeys (by decide) "order").bind fun _ _ =>
  .pure _

/-- The flag that is read is the one the demands go by. -/
theorem flag_of_optional {key : String} {b : Bool} (h : e.optional key Reader.bool false = .ok b) :
    flag e.attribute? key = b := by
  rw [Event.optional] at h
  cases hvalue : e.attribute? key with
  | none =>
    rw [hvalue] at h
    obtain rfl := Except.ok.inj h
    simp [flag, hvalue]
  | some text =>
    rw [hvalue] at h
    obtain ⟨read, hread, rfl⟩ := map_eq_ok_iff.mp h
    obtain ⟨n, hdoc, hread⟩ := Reader.run_eq_ok_iff.mp (parse_eq_ok_iff.mp hread)
    rcases (Reader.bool_exact.nullable Json.Shape.solid_bool maxDepth n read).mp hread with
      ⟨rfl, rfl⟩ | ⟨b, rfl, rfl⟩
    · simp [flag, hvalue, hdoc]
    · simp [flag, hvalue, hdoc]

theorem cancelDerivativeOrder_obeys (htag : e.tag = Topic.cancelDerivativeOrder.tag) :
    Obeys cancelDerivativeOrder e (Topic.cancelDerivativeOrder.demands e.attribute?) := by
  refine (expect_obeys htag).bind fun _ _ => market_obeys.bind fun _ _ =>
    (flag_attribute_obeys "isLimitCancel").bind fun isLimit hflag => ?_
  rw [flag_of_optional hflag]
  cases isLimit with
  | true =>
    exact (required_obeys derivativeOrder_obeys (by decide) "limit_order").bind fun _ _ => .pure _
  | false =>
    exact (required_obeys marketOrderCancel_obeys (by decide) "market_order_cancel").bind
      fun _ _ => .pure _

theorem spotTrades_obeys (htag : e.tag = Topic.spotTrades.tag) :
    Obeys spotTrades e (Topic.spotTrades.demands e.attribute?) :=
  (expect_obeys htag).bind fun _ _ =>
  market_obeys.bind fun _ _ =>
  (flag_attribute_obeys "is_buy").bind fun _ _ =>
  (optional_obeys (text_obeys 0) (by decide) "executionType" "").bind fun _ _ =>
  (list_attribute_obeys spotFill_obeys (by decide) "trades").bind fun _ _ =>
  .pure _

theorem derivativeTrades_obeys (htag : e.tag = Topic.derivativeTrades.tag) :
    Obeys derivativeTrades e (Topic.derivativeTrades.demands e.attribute?) :=
  (expect_obeys htag).bind fun _ _ =>
  market_obeys.bind fun _ _ =>
  (flag_attribute_obeys "is_buy").bind fun _ _ =>
  (flag_attribute_obeys "is_liquidation").bind fun _ _ =>
  (optionalDecimal_obeys "cumulative_funding").bind fun _ _ =>
  (optional_obeys (text_obeys 0) (by decide) "executionType" "").bind fun _ _ =>
  (list_attribute_obeys derivativeFill_obeys (by decide) "trades").bind fun _ _ =>
  .pure _

theorem positions_obeys (htag : e.tag = Topic.positions.tag) :
    Obeys positions e (Topic.positions.demands e.attribute?) :=
  (expect_obeys htag).bind fun _ _ =>
  market_obeys.bind fun _ _ =>
  (list_attribute_obeys subaccountHolding_obeys (by decide) "positions").bind fun _ _ =>
  .pure _

theorem pythPrices_obeys (htag : e.tag = Topic.pythPrices.tag) :
    Obeys pythPrices e (Topic.pythPrices.demands e.attribute?) :=
  (expect_obeys htag).bind fun _ _ =>
  (list_attribute_obeys feedPrice_obeys (by decide) "prices").bind fun _ _ =>
  .pure _

theorem bandIbcPrices_obeys (htag : e.tag = Topic.bandIbcPrices.tag) :
    Obeys bandIbcPrices e (Topic.bandIbcPrices.demands e.attribute?) :=
  (expect_obeys htag).bind fun _ _ =>
  (list_attribute_obeys (text_obeys 0) (by decide) "symbols").bind fun _ hsymbols =>
  (list_attribute_obeys (text_obeys 0) (by decide) "prices").bind fun _ hprices =>
  paired_obeys (optional_texts hsymbols).1 (optional_texts hprices).1 fun hlen =>
  decimals_obeys (optional_texts hprices).2 hlen

theorem providerPrice_obeys (htag : e.tag = Topic.providerPrice.tag) :
    Obeys providerPrice e (Topic.providerPrice.demands e.attribute?) :=
  (expect_obeys htag).bind fun _ _ =>
  (text_attribute_obeys "symbol").bind fun _ _ =>
  (requiredDecimal_obeys "price").bind fun _ _ =>
  .pure _

theorem priceFeedPrice_obeys (htag : e.tag = Topic.priceFeedPrice.tag) :
    Obeys priceFeedPrice e (Topic.priceFeedPrice.demands e.attribute?) :=
  (expect_obeys htag).bind fun _ _ =>
  (text_attribute_obeys "base").bind fun _ _ =>
  (requiredDecimal_obeys "price").bind fun _ _ =>
  .pure _

theorem ofTopic_obeys {t : Topic} (htag : e.tag = t.tag) :
    Obeys (ofTopic · t) e (t.demands e.attribute?) := by
  cases t with
  | subaccountDeposit => exact (subaccountDeposits_obeys htag).map _
  | spotOrders => exact (spotOrders_obeys htag).map _
  | derivativeOrders => exact (derivativeOrders_obeys htag).map _
  | cancelSpotOrder => exact (cancelSpotOrder_obeys htag).map _
  | cancelDerivativeOrder => exact (cancelDerivativeOrder_obeys htag).map _
  | spotTrades => exact (spotTrades_obeys htag).map _
  | derivativeTrades => exact (derivativeTrades_obeys htag).map _
  | positions => exact (positions_obeys htag).map _
  | pythPrices => exact (pythPrices_obeys htag).map _
  | bandIbcPrices => exact (bandIbcPrices_obeys htag).map _
  | providerPrice => exact (providerPrice_obeys htag).map _
  | priceFeedPrice => exact (priceFeedPrice_obeys htag).map _

/-- An event of a topic meets the topic's demands, or the first that it does not meet is reported. -/
theorem decode_obeys {t : Topic} (htag : e.tag = t.tag) :
    Obeys Event.decode e (t.demands e.attribute?) := by
  have h := ofTopic_obeys htag
  have hdecode : ∀ e' : Event, e'.tag = e.tag → e'.decode = ofTopic e' t := by
    intro e' htag'
    rw [Event.decode, htag', htag, Topic.ofTag_tag]
  have hself := hdecode e rfl
  exact {
    met := fun records hok => h.met records (hself ▸ hok)
    unmet := fun error herror => h.unmet error (hself ▸ herror)
    same := fun e' htag' hsame => by
      rw [hdecode e' htag', hself]
      exact h.same e' htag' hsame }

end Decode

/-- Only the first values of a topic's keys count. All demands on them have to be met, and the first that
is not is the one reported. -/
theorem Event.decode_demands (t : Topic) (attributes : List Attribute) :
    let e : Event := ⟨t.tag, attributes⟩
    let demands := t.demands e.attribute?
    (∀ attributes', (∀ d ∈ demands,
        (⟨t.tag, attributes'⟩ : Event).attribute? d.key = e.attribute? d.key) →
      (⟨t.tag, attributes'⟩ : Event).decode = e.decode) ∧
    ((∃ records, e.decode = .ok records) ↔ ∀ d ∈ demands, d.Met e.attribute?) ∧
    ∀ error, e.decode = .error error →
      ∃ key cause, Demand.FirstUnmet e.attribute? demands key ∧ error = .attribute key cause := by
  intro e demands
  have h : Decode.Obeys Event.decode e demands := Decode.decode_obeys rfl
  exact ⟨fun _ hkeys => h.frame rfl hkeys, h.ok_iff, h.unmet⟩

/-- Symbols and prices are counted before the prices are looked at, in whatever order they stand. -/
example :
    (⟨Topic.bandIbcPrices.tag, [.indexed "prices" "[\"1\", \"x\"]", .indexed "symbols" "[\"a\"]",
        .indexed "symbols" "1"]⟩ : Event).decode =
      .error (.attribute "prices" (.unpaired 2 1)) := by decide +kernel

end BlockFeed
