import BlockFeed.Proofs.Json.Slot
import BlockFeed.Proofs.Payload.Identifier

/-! Of which kind the trees of each payload are, down to their scalars. -/

namespace BlockFeed.Payload

open Json (Kind Node Reader Shape)
open Json.Reader (string_exact bool_exact)
open Json.RecordReader (required_obeys defaulted_obeys aliased_obeys)

namespace Tree

def text : Kind := .scalar Shape.string

def flag : Kind := .scalar Shape.bool

/-- A decimal is a string that can be read as one. -/
def decimalShape : Shape Decimal := fun n d =>
  ∃ text, n = .string (.ok text) ∧ Decimal.ofText? text = .ok d

def decimal : Kind := .scalar decimalShape

def nullableDecimal : Kind := .scalar (.nullable decimalShape)

/-- Where a bare number may stand for a decimal, it is read from the text of that number. -/
def looseShape : Shape Decimal := fun n d => decimalShape n d ∨
  ∃ literal x, n = .number literal ∧ literal.toNumber = .ok x ∧ Decimal.ofText? x.text = .ok d

def looseDecimal : Kind := .scalar looseShape

def subaccount : Kind := .scalar Format.subaccount

def hash : Kind := .scalar Format.hash

def account : Kind := .scalar Format.account

/-- An order type is known by its name or by its number, however that is written. -/
def orderTypeShape : Shape OrderType := fun n t =>
  n = .string (.ok t.name) ∨
    ∃ literal k, n = .number literal ∧ literal.toNumber = .ok (.natural k) ∧ OrderType.all[k]? = some t

def orderType : Kind := .scalar orderTypeShape

def balances : Kind := .record [.required "available_balance" decimal, .required "total_balance" decimal]

def depositEntry : Kind := .record [.required "subaccount_id" subaccount, .required "deposit" balances]

def denomDeposits : Kind := .record [.required "denom" text, .defaulted "deposits" depositEntry.list]

def orderInfo : Kind := .record [.required "subaccount_id" subaccount, .defaulted "fee_recipient" text,
  .required "price" decimal, .required "quantity" decimal, .defaulted "cid" text]

def spotOrder : Kind := .record [.required "order_info" orderInfo, .required "order_type" orderType,
  .required "fillable" decimal, .defaulted "trigger_price" nullableDecimal, .defaulted "order_hash" hash]

def derivativeOrder : Kind := .record [.required "order_info" orderInfo,
  .required "order_type" orderType, .required "margin" decimal, .required "fillable" decimal,
  .defaulted "trigger_price" nullableDecimal, .defaulted "order_hash" hash]

def marketOrder : Kind := .record [.required "order_info" orderInfo, .required "order_type" orderType,
  .required "margin" decimal, .defaulted "trigger_price" nullableDecimal, .defaulted "order_hash" hash]

def marketOrderCancel : Kind :=
  .record [.required "market_order" marketOrder, .required "cancel_quantity" decimal]

def spotFill : Kind := .record [.required "quantity" decimal, .required "price" decimal,
  .required "subaccount_id" subaccount, .required "fee" decimal, .defaulted "order_hash" hash,
  .defaulted "fee_recipient_address" account, .defaulted "cid" text]

def positionDelta : Kind := .record [.defaulted "is_long" flag, .required "execution_quantity" decimal,
  .required "execution_margin" decimal, .required "execution_price" decimal]

def derivativeFill : Kind := .record [.required "subaccount_id" subaccount,
  .defaulted "position_delta" positionDelta.nullable, .required "payout" decimal,
  .required "fee" decimal, .defaulted "order_hash" hash, .defaulted "fee_recipient_address" account,
  .defaulted "cid" text]

def holding : Kind := .record [.aliased "is_long" "isLong" flag, .required "quantity" decimal,
  .required "entry_price" decimal, .required "margin" decimal,
  .required "cumulative_funding_entry" decimal]

def subaccountHolding : Kind :=
  .record [.required "position" holding, .required "subaccount_id" subaccount]

def feedPrice : Kind := .record [.required "price_id" text, .required "ema_price" decimal]

end Tree

section Scalars

theorem parseDecimal_eq_ok_iff {text : String} {d : Decimal} :
    parseDecimal text = .ok d ↔ Decimal.ofText? text = .ok d := by
  rw [parseDecimal]
  cases Decimal.ofText? text <;> simp

theorem decimal_exact : decimal.Exact Tree.decimalShape := by
  refine string_exact.andThen fun n d => ?_
  simp only [parseDecimal_eq_ok_iff]
  rfl

theorem nullableDecimal_exact : nullableDecimal.Exact (.nullable Tree.decimalShape) := by
  refine (string_exact.nullable Shape.solid_string).andThen fun n d => ?_
  constructor
  · rintro ⟨_, ⟨rfl, rfl⟩ | ⟨text, rfl, rfl⟩, h⟩
    · exact .inl ⟨rfl, (Except.ok.inj h).symm⟩
    · obtain ⟨d, hd, rfl⟩ := map_eq_ok_iff.mp h
      exact .inr ⟨d, rfl, text, rfl, parseDecimal_eq_ok_iff.mp hd⟩
  · rintro (⟨rfl, rfl⟩ | ⟨d, rfl, text, rfl, hd⟩)
    · exact ⟨none, .inl ⟨rfl, rfl⟩, rfl⟩
    · exact ⟨some text, .inr ⟨text, rfl, rfl⟩,
        map_eq_ok_iff.mpr ⟨d, parseDecimal_eq_ok_iff.mpr hd, rfl⟩⟩

theorem ofName_eq_some_iff {name : String} {t : OrderType} :
    OrderType.ofName? name = some t ↔ name = t.name := by
  constructor
  · intro h
    have hname := List.find?_some h
    exact (of_decide_eq_true hname).symm
  · rintro rfl
    exact ofName_name t

/-- The numbers of order types are far below the greatest integer. -/
theorem orderTypeOfNumber_eq_ok_iff {i : Nat} {t : OrderType} :
    (if i ≤ maxInteger then orderTypeOfNumber i else .error .noVariant) = .ok t ↔
      OrderType.all[i]? = some t := by
  have hnumber : orderTypeOfNumber i = .ok t ↔ OrderType.all[i]? = some t := by
    have hof : OrderType.ofNumber? (i : Int) = OrderType.all[i]? := rfl
    rw [orderTypeOfNumber, hof]
    cases OrderType.all[i]? <;> simp
  split
  · exact hnumber
  · next hlarge =>
    have hnone : OrderType.all[i]? = none := by
      refine List.getElem?_eq_none ?_
      have hlen : OrderType.all.length ≤ maxInteger := by decide
      omega
    simp [hnone]

theorem orderType_exact : orderType.Exact Tree.orderTypeShape := by
  intro depth n t
  rw [orderType, Reader.andThen, bind_eq_ok_iff]
  constructor
  · rintro ⟨v, hv, h⟩
    cases Node.valued_of_value hv with
    | string name =>
      simp only at h
      split at h
      · next hname =>
        obtain rfl := Except.ok.inj h
        exact .inl (ofName_eq_some_iff.mp hname ▸ rfl)
      · cases h
    | @number literal x hx =>
      cases x with
      | natural i => exact .inr ⟨literal, i, rfl, hx, orderTypeOfNumber_eq_ok_iff.mp h⟩
      | minus i =>
        obtain ⟨j, rfl⟩ := Nat.exists_eq_succ_of_ne_zero (Json.Numeral.pos_of_minus hx).ne'
        cases h
      | real negative x => cases h
    | _ => cases h
  · rintro (rfl | ⟨literal, i, rfl, hnumber, hi⟩)
    · refine ⟨.string t.name, rfl, ?_⟩
      simp only [ofName_name]
    · exact ⟨.number (.natural i), Node.value_number hnumber, orderTypeOfNumber_eq_ok_iff.mpr hi⟩

end Scalars

section Records

theorem text_obeys (k : Nat) : Reader.string.Obeys k Tree.text :=
  string_exact.obeys k

theorem flag_obeys (k : Nat) : Reader.bool.Obeys k Tree.flag :=
  bool_exact.obeys k

theorem decimal_obeys (k : Nat) : decimal.Obeys k Tree.decimal :=
  decimal_exact.obeys k

theorem nullableDecimal_obeys (k : Nat) : nullableDecimal.Obeys k Tree.nullableDecimal :=
  nullableDecimal_exact.obeys k

theorem subaccount_obeys (k : Nat) : subaccount.Obeys k Tree.subaccount :=
  have hexact : subaccount.Exact Format.subaccount := fun _ _ _ => subaccount_eq_ok_iff
  hexact.obeys k

theorem hash_obeys (k : Nat) : hash.Obeys k Tree.hash :=
  hash_exact.obeys k

theorem account_obeys (k : Nat) : account.Obeys k Tree.account :=
  account_exact.obeys k

theorem orderType_obeys (k : Nat) : orderType.Obeys k Tree.orderType :=
  orderType_exact.obeys k

theorem balances_obeys : balances.Obeys 1 Tree.balances :=
  (((required_obeys (decimal_obeys 0) "available_balance").map Balances.mk).seq
    (required_obeys (decimal_obeys 0) "total_balance")).reader (by decide) _

theorem depositEntry_obeys : depositEntry.Obeys 2 Tree.depositEntry :=
  (((required_obeys (subaccount_obeys 1) "subaccount_id").map DepositEntry.mk).seq
    (required_obeys balances_obeys "deposit")).reader (by decide) _

theorem denomDeposits_obeys : denomDeposits.Obeys 4 Tree.denomDeposits :=
  (((required_obeys (text_obeys 3) "denom").map DenomDeposits.mk).seq
    (defaulted_obeys depositEntry_obeys.list "deposits" [])).reader (by decide) _

theorem orderInfo_obeys : orderInfo.Obeys 1 Tree.orderInfo :=
  ((((((required_obeys (subaccount_obeys 0) "subaccount_id").map OrderInfo.mk).seq
    (defaulted_obeys (text_obeys 0) "fee_recipient" "")).seq
    (required_obeys (decimal_obeys 0) "price")).seq
    (required_obeys (decimal_obeys 0) "quantity")).seq
    (defaulted_obeys (text_obeys 0) "cid" "")).reader (by decide) _

theorem spotOrder_obeys : spotOrder.Obeys 2 Tree.spotOrder :=
  ((((((required_obeys orderInfo_obeys "order_info").map SpotOrder.mk).seq
    (required_obeys (orderType_obeys 1) "order_type")).seq
    (required_obeys (decimal_obeys 1) "fillable")).seq
    (defaulted_obeys (nullableDecimal_obeys 1) "trigger_price" none)).seq
    (defaulted_obeys (hash_obeys 1) "order_hash" "")).reader (by decide) _

theorem derivativeOrder_obeys : derivativeOrder.Obeys 2 Tree.derivativeOrder :=
  (((((((required_obeys orderInfo_obeys "order_info").map DerivativeOrder.mk).seq
    (required_obeys (orderType_obeys 1) "order_type")).seq
    (required_obeys (decimal_obeys 1) "margin")).seq
    (required_obeys (decimal_obeys 1) "fillable")).seq
    (defaulted_obeys (nullableDecimal_obeys 1) "trigger_price" none)).seq
    (defaulted_obeys (hash_obeys 1) "order_hash" "")).reader (by decide) _

theorem marketOrder_obeys : marketOrder.Obeys 2 Tree.marketOrder :=
  ((((((required_obeys orderInfo_obeys "order_info").map MarketOrder.mk).seq
    (required_obeys (orderType_obeys 1) "order_type")).seq
    (required_obeys (decimal_obeys 1) "margin")).seq
    (defaulted_obeys (nullableDecimal_obeys 1) "trigger_price" none)).seq
    (defaulted_obeys (hash_obeys 1) "order_hash" "")).reader (by decide) _

theorem marketOrderCancel_obeys : marketOrderCancel.Obeys 3 Tree.marketOrderCancel :=
  (((required_obeys marketOrder_obeys "market_order").map MarketOrder.cancelled).seq
    (required_obeys (decimal_obeys 2) "cancel_quantity")).reader (by decide) _

theorem spotFill_obeys : spotFill.Obeys 1 Tree.spotFill :=
  ((((((((required_obeys (decimal_obeys 0) "quantity").map SpotFill.mk).seq
    (required_obeys (decimal_obeys 0) "price")).seq
    (required_obeys (subaccount_obeys 0) "subaccount_id")).seq
    (required_obeys (decimal_obeys 0) "fee")).seq
    (defaulted_obeys (hash_obeys 0) "order_hash" "")).seq
    (defaulted_obeys (account_obeys 0) "fee_recipient_address" "")).seq
    (defaulted_obeys (text_obeys 0) "cid" "")).reader (by decide) _

theorem positionDelta_obeys : positionDelta.Obeys 1 Tree.positionDelta :=
  (((((defaulted_obeys (flag_obeys 0) "is_long" false).map PositionDelta.mk).seq
    (required_obeys (decimal_obeys 0) "execution_quantity")).seq
    (required_obeys (decimal_obeys 0) "execution_margin")).seq
    (required_obeys (decimal_obeys 0) "execution_price")).reader (by decide) _

theorem derivativeFill_obeys : derivativeFill.Obeys 2 Tree.derivativeFill :=
  ((((((((required_obeys (subaccount_obeys 1) "subaccount_id").map DerivativeFill.mk).seq
    (defaulted_obeys positionDelta_obeys.nullable "position_delta" none)).seq
    (required_obeys (decimal_obeys 1) "payout")).seq
    (required_obeys (decimal_obeys 1) "fee")).seq
    (defaulted_obeys (hash_obeys 1) "order_hash" "")).seq
    (defaulted_obeys (account_obeys 1) "fee_recipient_address" "")).seq
    (defaulted_obeys (text_obeys 1) "cid" "")).reader (by decide) _

theorem holding_obeys : holding.Obeys 1 Tree.holding :=
  ((((((aliased_obeys (flag_obeys 0) "is_long" "isLong" false).map Holding.mk).seq
    (required_obeys (decimal_obeys 0) "quantity")).seq
    (required_obeys (decimal_obeys 0) "entry_price")).seq
    (required_obeys (decimal_obeys 0) "margin")).seq
    (required_obeys (decimal_obeys 0) "cumulative_funding_entry")).reader (by decide) _

theorem subaccountHolding_obeys : subaccountHolding.Obeys 2 Tree.subaccountHolding :=
  (((required_obeys holding_obeys "position").map SubaccountHolding.mk).seq
    (required_obeys (subaccount_obeys 1) "subaccount_id")).reader (by decide) _

theorem feedPrice_obeys : feedPrice.Obeys 1 Tree.feedPrice :=
  (((required_obeys (text_obeys 0) "price_id").map FeedPrice.mk).seq
    (required_obeys (decimal_obeys 0) "ema_price")).reader (by decide) _

end Records

end BlockFeed.Payload
