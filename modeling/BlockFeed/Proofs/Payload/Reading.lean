import BlockFeed.Proofs.Json.Numeral
import BlockFeed.Proofs.Payload.Format

/-! Every payload reader follows its format. -/

namespace BlockFeed.Payload

open Json (Reader Shape Content)
open Json.Reader (Follows string_exact string_follows bool_follows)
open Json.RecordReader

section Scalars

variable (k : Nat)

theorem parseDecimal_plain {text : String} {d : Decimal} (h : Decimal.Plain text d) :
    parseDecimal text = .ok d := by
  rw [parseDecimal, h.ofText]

theorem decimal_follows : decimal.Follows k Format.decimal := by
  refine (string_follows k).andThen ?_
  rintro n d ⟨text, rfl, hd⟩
  exact ⟨text, rfl, parseDecimal_plain hd⟩

theorem nullableDecimal_follows : nullableDecimal.Follows k (.nullable Format.decimal) := by
  refine ((string_follows k).nullable Shape.solid_string).andThen ?_
  rintro n d (⟨rfl, rfl⟩ | ⟨d, rfl, text, rfl, hd⟩)
  · exact ⟨none, .inl ⟨rfl, rfl⟩, rfl⟩
  · refine ⟨some text, .inr ⟨text, rfl, rfl⟩, ?_⟩
    simp only [parseDecimal_plain hd]
    rfl

theorem parseBase64_encode (what : String) (bytes : List UInt8) :
    parseBase64 what (String.ofList (Text.Base64.encode bytes)) = .ok bytes := by
  rw [parseBase64, Text.Base64.decode_encode]

theorem parseBase64_eq_ok_iff {what text : String} {bytes : List UInt8} :
    parseBase64 what text = .ok bytes ↔ text = String.ofList (Text.Base64.encode bytes) := by
  constructor
  · intro h
    rw [parseBase64] at h
    split at h
    case h_1 octets hread =>
      cases h
      exact Text.Base64.decode_eq_ok_iff.mp hread
    case h_2 => cases h
  · rintro rfl
    exact parseBase64_encode what bytes

theorem octets_exact : octets.Exact Format.octets := by
  refine (string_exact.nullable Shape.solid_string).andThen fun n bytes => ?_
  constructor
  · rintro ⟨_, ⟨rfl, rfl⟩ | ⟨text, rfl, rfl⟩, h⟩
    · exact .inl ⟨rfl, (Except.ok.inj h).symm⟩
    · exact .inr (congrArg (fun s => Json.Node.string (.ok s)) (parseBase64_eq_ok_iff.mp h))
  · rintro (⟨rfl, rfl⟩ | rfl)
    · exact ⟨none, .inl ⟨rfl, rfl⟩, rfl⟩
    · exact ⟨some _, .inr ⟨_, rfl, rfl⟩, parseBase64_encode "base64" bytes⟩

theorem hash_exact : hash.Exact Format.hash := by
  refine octets_exact.andThen fun n text => exists_congr fun bytes => and_congr_right fun _ => ?_
  rw [Except.ok.injEq, hashText]
  cases bytes <;> simp [eq_comm]

theorem account_exact : account.Exact Format.account := by
  refine octets_exact.andThen fun n address => exists_congr fun bytes => and_congr_right fun _ => ?_
  cases bytes with
  | nil => simp [eq_comm]
  | cons b bytes =>
    have hmark : accountMark = "inj" := rfl
    simp only [List.isEmpty_cons, Bool.false_eq_true, if_false, reduceCtorEq, hmark]
    cases Text.Bech32.encode? "inj" (b :: bytes) <;> simp

theorem hash_follows : hash.Follows k Format.hash := hash_exact.follows k

theorem account_follows : account.Follows k Format.account := account_exact.follows k

/-- Base64 never has the length of a marked identifier. -/
theorem parseSubaccount_encode (bytes : List UInt8) :
    parseSubaccount (String.ofList (Text.Base64.encode bytes)) =
      refuseIdentifier (SubaccountId.ofOctets? bytes) := by
  have hsize : (String.ofList (Text.Base64.encode bytes)).utf8ByteSize ≠ 2 + 2 * SubaccountId.size := by
    have hmod := Text.Base64.utf8ByteSize_encode bytes
    rw [SubaccountId.size]
    omega
  rw [parseSubaccount, if_neg fun h => hsize h.1, parseBase64_encode]
  rfl

theorem parseSubaccount_base64 {id : SubaccountId} {bytes : List UInt8}
    (hlen : bytes.length ≤ SubaccountId.size) (hid : id.octets = SubaccountId.padded bytes) :
    parseSubaccount (String.ofList (Text.Base64.encode bytes)) = .ok id := by
  rw [parseSubaccount_encode, SubaccountId.ofOctets_padded hlen hid]
  rfl

theorem parseSubaccount_digits {id : SubaccountId} {cs : List Char}
    (h : Text.Hex.Spells cs id.octets) :
    parseSubaccount (String.ofList ('0' :: 'x' :: cs)) = .ok id := by
  have hmark : ['0', 'x'] ∈ SubaccountId.marks := by decide
  have hread : SubaccountId.ofText? (String.ofList ('0' :: 'x' :: cs)) = .ok id :=
    SubaccountId.ofText_eq_ok_iff.mpr ⟨['0', 'x'], hmark, cs, h, rfl⟩
  have hmarked : (String.ofList ('0' :: 'x' :: cs)).utf8ByteSize = 2 + 2 * SubaccountId.size ∧
      (String.ofList ('0' :: 'x' :: cs)).toList.take 2 = ['0', 'x'] :=
    ⟨SubaccountId.utf8ByteSize_mark_append hmark h, by rw [String.toList_ofList]; rfl⟩
  rw [parseSubaccount, if_pos hmarked, hread]
  rfl

theorem subaccount_follows : subaccount.Follows k Format.subaccount := by
  refine (string_follows k).andThen ?_
  rintro n id ⟨text, rfl, htext⟩
  refine ⟨text, rfl, ?_⟩
  cases htext with
  | base64 hlen hid => exact parseSubaccount_base64 hlen (SubaccountId.textOf_injective hid)
  | @digits cs bytes id hlen hcs hid =>
    obtain rfl : id.octets = bytes := SubaccountId.textOf_injective hid
    exact parseSubaccount_digits hcs

theorem ofName_name (t : OrderType) : OrderType.ofName? t.name = some t := by
  cases t <;> decide

theorem orderTypeOfNumber_ok {i : Nat} {t : OrderType} (h : OrderType.all[i]? = some t) :
    orderTypeOfNumber (i : Int) = .ok t := by
  have hnumber : OrderType.ofNumber? (i : Int) = some t := h
  rw [orderTypeOfNumber, hnumber]

theorem orderType_follows : orderType.Follows k Format.orderType := by
  rintro n t (rfl | ⟨i, hi, rfl⟩) depth -
  · simp only [orderType, Reader.andThen, Reader.any, Json.Node.value]
    simp [bind, Except.bind, ofName_name]
  · have hsmall : i < 11 := (List.getElem?_eq_some_iff.mp hi).1
    have hmax : i ≤ maxInteger := Nat.le_trans (Nat.le_of_lt hsmall) (by decide)
    have hword : i ≤ Json.Numeral.maxNatural := Nat.le_trans (Nat.le_of_lt hsmall) (by decide)
    have hread : Reader.any depth (.number ⟨false, Nat.toDigits 10 i, [], none⟩) =
        .ok (.number (.natural i)) := by
      rw [Reader.any, Json.Node.value, Json.Numeral.toNumber_toDigits hword]
      rfl
    rw [orderType, Reader.andThen, hread]
    simp only [bind, Except.bind, if_pos hmax, orderTypeOfNumber_ok hi]

end Scalars

section Orders

theorem balances_follows : balances.Follows 1 Format.balances := by
  refine follows (renames_id rfl) ?_ _
  rintro get b ⟨havailable, htotal⟩
  exact ((required_reads (decimal_follows 0) havailable).map Balances.mk).seq
    (required_reads (decimal_follows 0) htotal)

theorem depositEntry_follows : depositEntry.Follows 2 Format.depositEntry := by
  refine follows (renames_id rfl) ?_ _
  rintro get d ⟨hsubaccount, hbalances⟩
  exact ((required_reads (subaccount_follows 1) hsubaccount).map DepositEntry.mk).seq
    (required_reads balances_follows hbalances)

theorem denomDeposits_follows : denomDeposits.Follows 4 Format.denomDeposits := by
  refine follows (renames_id rfl) ?_ _
  rintro get u ⟨hdenom, hdeposits⟩
  exact ((required_reads (string_follows 3) hdenom).map DenomDeposits.mk).seq
    (defaulted_reads depositEntry_follows.list hdeposits)

theorem orderInfo_follows : orderInfo.Follows 1 Format.orderInfo := by
  refine follows (renames_id rfl) ?_ _
  rintro get o ⟨hsubaccount, hrecipient, hprice, hquantity, hcid⟩
  exact (((((required_reads (subaccount_follows 0) hsubaccount).map OrderInfo.mk).seq
    (defaulted_reads (string_follows 0) hrecipient)).seq
    (required_reads (decimal_follows 0) hprice)).seq
    (required_reads (decimal_follows 0) hquantity)).seq
    (defaulted_reads (string_follows 0) hcid)

theorem spotOrder_follows : spotOrder.Follows 2 Format.spotOrder := by
  refine follows (renames_id rfl) ?_ _
  rintro get o ⟨hinfo, htype, hfillable, htrigger, hhash⟩
  exact (((((required_reads orderInfo_follows hinfo).map SpotOrder.mk).seq
    (required_reads (orderType_follows 1) htype)).seq
    (required_reads (decimal_follows 1) hfillable)).seq
    (defaulted_reads (nullableDecimal_follows 1) htrigger)).seq
    (defaulted_reads (hash_follows 1) hhash)

theorem derivativeOrder_follows : derivativeOrder.Follows 2 Format.derivativeOrder := by
  refine follows (renames_id rfl) ?_ _
  rintro get o ⟨hinfo, htype, hmargin, hfillable, htrigger, hhash⟩
  exact ((((((required_reads orderInfo_follows hinfo).map DerivativeOrder.mk).seq
    (required_reads (orderType_follows 1) htype)).seq
    (required_reads (decimal_follows 1) hmargin)).seq
    (required_reads (decimal_follows 1) hfillable)).seq
    (defaulted_reads (nullableDecimal_follows 1) htrigger)).seq
    (defaulted_reads (hash_follows 1) hhash)

theorem marketOrder_follows : marketOrder.Follows 2 Format.marketOrder := by
  refine follows (renames_id rfl) ?_ _
  rintro get o ⟨hinfo, htype, hmargin, htrigger, hhash⟩
  exact (((((required_reads orderInfo_follows hinfo).map MarketOrder.mk).seq
    (required_reads (orderType_follows 1) htype)).seq
    (required_reads (decimal_follows 1) hmargin)).seq
    (defaulted_reads (nullableDecimal_follows 1) htrigger)).seq
    (defaulted_reads (hash_follows 1) hhash)

theorem marketOrderCancel_follows : marketOrderCancel.Follows 3 Format.marketOrderCancel := by
  refine follows (renames_id rfl) ?_ _
  rintro get o ⟨m, quantity, horder, hquantity, rfl⟩
  exact ((required_reads marketOrder_follows horder).map MarketOrder.cancelled).seq
    (required_reads (decimal_follows 2) hquantity)

end Orders

section Trades

theorem spotFill_follows : spotFill.Follows 1 Format.spotFill := by
  refine follows (renames_id rfl) ?_ _
  rintro get f ⟨hquantity, hprice, hsubaccount, hfee, hhash, hrecipient, hcid⟩
  exact (((((((required_reads (decimal_follows 0) hquantity).map SpotFill.mk).seq
    (required_reads (decimal_follows 0) hprice)).seq
    (required_reads (subaccount_follows 0) hsubaccount)).seq
    (required_reads (decimal_follows 0) hfee)).seq
    (defaulted_reads (hash_follows 0) hhash)).seq
    (defaulted_reads (account_follows 0) hrecipient)).seq
    (defaulted_reads (string_follows 0) hcid)

theorem positionDelta_follows : positionDelta.Follows 1 Format.positionDelta := by
  refine follows (renames_id rfl) ?_ _
  rintro get p ⟨hlong, hquantity, hmargin, hprice⟩
  exact ((((defaulted_reads (bool_follows 0) hlong).map PositionDelta.mk).seq
    (required_reads (decimal_follows 0) hquantity)).seq
    (required_reads (decimal_follows 0) hmargin)).seq
    (required_reads (decimal_follows 0) hprice)

theorem derivativeFill_follows : derivativeFill.Follows 2 Format.derivativeFill := by
  refine follows (renames_id rfl) ?_ _
  rintro get f ⟨hsubaccount, hdelta, hpayout, hfee, hhash, hrecipient, hcid⟩
  have hpositions := positionDelta_follows.nullable (Shape.solid_record _ _)
  exact (((((((required_reads (subaccount_follows 1) hsubaccount).map DerivativeFill.mk).seq
    (defaulted_reads hpositions hdelta)).seq
    (required_reads (decimal_follows 1) hpayout)).seq
    (required_reads (decimal_follows 1) hfee)).seq
    (defaulted_reads (hash_follows 1) hhash)).seq
    (defaulted_reads (account_follows 1) hrecipient)).seq
    (defaulted_reads (string_follows 1) hcid)

theorem holding_follows : holding.Follows 1 Format.holding := by
  refine follows (renames_alias rfl rfl) ?_ _
  rintro get p ⟨hlong, hquantity, hprice, hmargin, hfunding⟩
  exact (((((aliased_reads (bool_follows 0) hlong "isLong").map Holding.mk).seq
    (required_reads (decimal_follows 0) hquantity)).seq
    (required_reads (decimal_follows 0) hprice)).seq
    (required_reads (decimal_follows 0) hmargin)).seq
    (required_reads (decimal_follows 0) hfunding)

theorem subaccountHolding_follows : subaccountHolding.Follows 2 Format.subaccountHolding := by
  refine follows (renames_id rfl) ?_ _
  rintro get h ⟨hholding, hsubaccount⟩
  exact ((required_reads holding_follows hholding).map SubaccountHolding.mk).seq
    (required_reads (subaccount_follows 1) hsubaccount)

theorem feedPrice_follows : feedPrice.Follows 1 Format.feedPrice := by
  refine follows (renames_id rfl) ?_ _
  rintro get p ⟨hid, hprice⟩
  exact ((required_reads (string_follows 0) hid).map FeedPrice.mk).seq
    (required_reads (decimal_follows 0) hprice)

end Trades

end BlockFeed.Payload
