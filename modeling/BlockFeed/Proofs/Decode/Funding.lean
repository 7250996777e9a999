import BlockFeed.Proofs.Decode.Fidelity
import BlockFeed.Proofs.Json.Rounding

/-! The cumulative funding of derivative trades. It is the number that its text writes, unless the
text is a number literal too long for binary floating point. -/

namespace BlockFeed

open Json (Node Numeral Number Reader maxDepth)

namespace Event

def without (e : Event) (key : String) : Event :=
  { e with attributes := e.attributes.filter (·.key ≠ key) }

/-- The number that a JSON value stands for where a decimal may stand, `null` for none. -/
inductive Denotes : Node → Option ℚ → Prop where
  | null : Denotes .null none
  | string {text : String} {d : Decimal} (h : Decimal.Literal text d) :
      Denotes (.string (.ok text)) (some d.value)
  | number (n : Numeral) : Denotes (.number n) (some n.value)

/-- Number literals that are integers of 64 bits or have at most fifteen digits; strings without a
sign behind a leading point; everything else. -/
def Kept : Node → Prop
  | .number n => n.Whole ∨ n.Brief
  | .string (.ok text) => ¬ Decimal.LateSign text
  | _ => True

section Attributes

variable {e : Event} {key other : String}

theorem attribute?_without (h : other ≠ key) : (e.without key).attribute? other = e.attribute? other := by
  have hfind : ∀ as : List Attribute,
      (as.filter (·.key ≠ key)).find? (·.key = other) = as.find? (·.key = other) := by
    intro as
    rw [List.find?_filter]
    congr 1
    funext a
    by_cases ha : a.key = other
    · simp [ha, h]
    · simp [ha]
  rw [attribute?, attribute?, without, hfind]

theorem required_without {α : Type} (h : other ≠ key) (r : Reader α) :
    (e.without key).required other r = e.required other r := by
  rw [required, required, attribute?_without h]

theorem optional_without {α : Type} (h : other ≠ key) (r : Reader α) (a : α) :
    (e.without key).optional other r a = e.optional other r a := by
  rw [optional, optional, attribute?_without h]

theorem attribute?_without_self : (e.without key).attribute? key = none := by
  have hfind : (e.attributes.filter (·.key ≠ key)).find? (·.key = key) = none := by
    rw [List.find?_eq_none]
    intro a ha
    simpa using (List.mem_filter.mp ha).2
  rw [attribute?, without, hfind]
  rfl

def decimalOfValue (key : String) : Json.Value → Decoded (Option Decimal)
  | .null => .ok none
  | .string s => some <$> decimalOf key s
  | .number m => some <$> decimalOf key m.text
  | v => .error (.attribute key (.notDecimal v.text))

variable {text : String} {n : Node}

theorem optionalDecimal_of_value {v : Option Json.Value} (hvalue : e.attribute? key = some text)
    (ht : n.IsText text) (hv : Reader.nullable Reader.any maxDepth n = .ok v) :
    e.optionalDecimal key = decimalOfValue key (v.getD .null) := by
  have hparse : parse (Reader.nullable Reader.any) key text = .ok v := by
    rw [parse, Reader.run_text _ ht, hv]
  have hread : e.optional key Reader.any .null = .ok (v.getD .null) := by
    rw [optional, hvalue]
    simp only [hparse]
    rfl
  rw [optionalDecimal, hread]
  cases v.getD .null <;> rfl

theorem optionalDecimal_of_fault {f : Json.Fault} (hvalue : e.attribute? key = some text)
    (ht : n.IsText text) (hf : Reader.nullable Reader.any maxDepth n = .error f) :
    e.optionalDecimal key = .error (.attribute key (.malformed f)) := by
  rw [optionalDecimal, optional_error hvalue ht hf]
  rfl

theorem decimalOf_cases (key s : String) :
    (∃ cause, some <$> decimalOf key s = .error (.attribute key cause)) ∨
      ∃ d, some <$> decimalOf key s = .ok (some d) ∧ Decimal.ofText? s = .ok d := by
  rw [decimalOf]
  cases hd : Decimal.ofText? s with
  | error f => exact .inl ⟨.invalidDecimal f, rfl⟩
  | ok d => exact .inr ⟨d, rfl, rfl⟩

/-- A decimal that may be absent fails under its key, or is the number of a value that is kept. -/
theorem optionalDecimal_exact (hvalue : e.attribute? key = some text) (ht : n.IsText text)
    (hn : Kept n) :
    (∃ cause, e.optionalDecimal key = .error (.attribute key cause)) ∨
      ∃ d, e.optionalDecimal key = .ok d ∧ Denotes n (d.map Decimal.value) := by
  cases hv : Reader.nullable Reader.any maxDepth n with
  | error f => exact .inl ⟨_, optionalDecimal_of_fault hvalue ht hv⟩
  | ok v =>
    rw [optionalDecimal_of_value hvalue ht hv]
    cases n with
    | null =>
      obtain rfl := Except.ok.inj hv
      exact .inr ⟨none, rfl, .null⟩
    | bool b =>
      obtain rfl := Except.ok.inj hv
      exact .inl ⟨_, rfl⟩
    | number m =>
      -- The number has been through binary floating point and is read from its text again.
      obtain ⟨w, hw, rfl⟩ := map_eq_ok_iff.mp hv
      obtain ⟨k, hk, rfl⟩ := map_eq_ok_iff.mp hw
      rcases decimalOf_cases key k.text with hfailed | ⟨d, hok, hd⟩
      · exact .inl hfailed
      · refine .inr ⟨some d, hok, ?_⟩
        rw [Option.map_some, Numeral.toNumber_exact hn hk hd]
        exact .number m
    | string s =>
      cases s with
      | error f => cases ht.1
      | ok s =>
        obtain rfl := Except.ok.inj hv
        rcases decimalOf_cases key s with hfailed | ⟨d, hok, hd⟩
        · exact .inl hfailed
        · exact .inr ⟨some d, hok, .string ((Decimal.literal_of_ofText hd).resolve_right hn)⟩
    | list items stop =>
      obtain ⟨w, hw, rfl⟩ := map_eq_ok_iff.mp hv
      obtain ⟨vs, rfl⟩ := Node.value_list hw
      exact .inl ⟨_, rfl⟩
    | object members stop =>
      obtain ⟨w, hw, rfl⟩ := map_eq_ok_iff.mp hv
      obtain ⟨ms, rfl⟩ := Node.value_object hw
      exact .inl ⟨_, rfl⟩
    | broken b => cases ht.1

end Attributes

end Event

namespace Decode

open Event

def withFunding (d : Option Decimal) (t : DerivativeTrade) : DerivativeTrade :=
  { t with cumulativeFunding := d }

variable {e : Event}

theorem market_without {key : String} (h : "market_id" ≠ key) : (e.without key).market = e.market :=
  required_without h _

/-- The attribute is read for itself, and the trades differ in nothing else. -/
theorem derivativeTrades_of_ok {d : Option Decimal}
    (hd : e.optionalDecimal "cumulative_funding" = .ok d) :
    derivativeTrades e =
      List.map (withFunding d) <$> derivativeTrades (e.without "cumulative_funding") := by
  have hnone : (e.without "cumulative_funding").optionalDecimal "cumulative_funding" = .ok none := by
    rw [optionalDecimal, Event.optional, attribute?_without_self]
    rfl
  have hexpect : (e.without "cumulative_funding").expect .derivativeTrades =
      e.expect .derivativeTrades := rfl
  rw [derivativeTrades, derivativeTrades, hexpect, market_without (by decide),
    optional_without (by decide), optional_without (by decide), optional_without (by decide),
    optional_without (by decide), hnone, hd]
  simp only [map_bind, map_pure, List.map_map]
  rfl

/-- What fails before the attribute is read fails without it too. -/
theorem derivativeTrades_of_error {f : DecodeError}
    (hf : e.optionalDecimal "cumulative_funding" = .error f) :
    derivativeTrades e = .error f ∨ ∃ f', derivativeTrades e = .error f' ∧
      derivativeTrades (e.without "cumulative_funding") = .error f' := by
  have hexpect : (e.without "cumulative_funding").expect .derivativeTrades =
      e.expect .derivativeTrades := rfl
  rw [derivativeTrades, derivativeTrades, hexpect, market_without (by decide),
    optional_without (by decide), optional_without (by decide), hf]
  cases e.expect .derivativeTrades with
  | error f' => exact .inr ⟨f', rfl, rfl⟩
  | ok _ =>
    cases e.market with
    | error f' => exact .inr ⟨f', rfl, rfl⟩
    | ok market =>
      cases e.optional "is_buy" Reader.bool false with
      | error f' => exact .inr ⟨f', rfl, rfl⟩
      | ok isBuy =>
        cases e.optional "is_liquidation" Reader.bool false with
        | error f' => exact .inr ⟨f', rfl, rfl⟩
        | ok isLiquidation => exact .inl rfl

/-- Derivative trades whose funding is a JSON value that is kept: decoding fails at the funding, or
fails as it would without it, or gives the trades with exactly the number that the value stands
for. -/
theorem derivativeTrades_funding {text : String} {n : Node}
    (hvalue : e.attribute? "cumulative_funding" = some text) (ht : n.IsText text) (hn : Kept n) :
    (∃ cause, derivativeTrades e = .error (.attribute "cumulative_funding" cause)) ∨
      (∃ f, derivativeTrades e = .error f ∧
        derivativeTrades (e.without "cumulative_funding") = .error f) ∨
      ∃ trades d, derivativeTrades (e.without "cumulative_funding") = .ok trades ∧
        derivativeTrades e = .ok (trades.map (withFunding d)) ∧
        Denotes n (d.map Decimal.value) := by
  rcases optionalDecimal_exact hvalue ht hn with ⟨cause, hfailed⟩ | ⟨d, hok, hdenotes⟩
  · rcases derivativeTrades_of_error hfailed with hfunding | hother
    · exact .inl ⟨cause, hfunding⟩
    · exact .inr (.inl hother)
  · have hsame := derivativeTrades_of_ok hok
    cases htrades : derivativeTrades (e.without "cumulative_funding") with
    | error f =>
      rw [htrades] at hsame
      exact .inr (.inl ⟨f, hsame, rfl⟩)
    | ok trades =>
      rw [htrades] at hsame
      exact .inr (.inr ⟨trades, d, rfl, hsame, hdenotes⟩)

def fundedBy (funding : String) : Event :=
  ⟨Topic.derivativeTrades.tag, [.indexed "market_id" (Json.Value.string "m").text,
    .indexed "cumulative_funding" funding,
    .indexed "trades" (Json.Value.list [.object [("subaccount_id", .string ""),
      ("payout", .string "0"), ("fee", .string "0")]]).text]⟩

def unfunded : DerivativeTrade :=
  { market := "m", isBuy := false, executionType := "", subaccount := ⟨List.replicate 32 0, rfl⟩,
    positionDelta := none, payout := ⟨0, 0⟩, fee := ⟨0, 0⟩, orderHash := "", feeRecipient := "",
    cid := "", tradeId := "", isLiquidation := false, cumulativeFunding := none }

theorem derivativeTrades_unfunded (funding : String) :
    derivativeTrades ((fundedBy funding).without "cumulative_funding") = .ok [unfunded] := by
  have hmarket := (Json.Prints.string "m").isText
  have hmembers : Json.PrintsMembers _ _ := .cons "subaccount_id" (.string "")
    (.cons "payout" (.string "0") (.cons "fee" (.string "0") .nil))
  have hfills := (Json.Prints.list (.cons (.object hmembers) .nil)).isText
  have hzero : Decimal.Plain "0" ⟨0, 0⟩ := .positive
    (.whole (List.cons_ne_nil '0' []) (by simp))
  have haccount : Payload.Format.SubaccountText (String.ofList (Text.Base64.encode []))
      ⟨List.replicate 32 0, rfl⟩ := .base64 (by decide) rfl
  have hnone : ((fundedBy funding).without "cumulative_funding").optionalDecimal "cumulative_funding" =
      .ok none := by
    rw [optionalDecimal, Event.optional, attribute?_without_self]
    rfl
  have hread : ((fundedBy funding).without "cumulative_funding").HoldsOr "trades"
      (.list Payload.Format.derivativeFill) []
      [⟨⟨List.replicate 32 0, rfl⟩, none, ⟨0, 0⟩, ⟨0, 0⟩, "", "", ""⟩] := by
    refine ⟨some _, .inr ⟨_, _, rfl, hfills, .inr ⟨_, rfl, _, rfl, .cons ?_ .nil⟩⟩, rfl⟩
    exact ⟨_, ⟨_, rfl, hmembers.whole, by decide, rfl⟩, ⟨_, rfl, _, rfl, haccount⟩,
      .inl ⟨rfl, rfl⟩, ⟨_, rfl, _, rfl, hzero⟩, ⟨_, rfl, _, rfl, hzero⟩,
      .inl ⟨rfl, rfl⟩, .inl ⟨rfl, rfl⟩, .inl ⟨rfl, rfl⟩⟩
  rw [derivativeTrades, expect_ok rfl, market_ok ⟨_, _, rfl, hmarket, rfl⟩,
    bool_ok ⟨none, .inl ⟨rfl, rfl⟩, rfl⟩, bool_ok ⟨none, .inl ⟨rfl, rfl⟩, rfl⟩, hnone,
    text_ok ⟨none, .inl ⟨rfl, rfl⟩, rfl⟩, list_ok hread Payload.derivativeFill_follows (by decide)]
  rfl

def fraction (ps : List Char) : Numeral := ⟨false, ['0'], ps, none⟩

theorem fraction_text {ps : List Char} (hne : ps ≠ []) (hd : ∀ c ∈ ps, c.isDigit) :
    (Node.number (fraction ps)).IsText (String.ofList ('0' :: '.' :: ps)) := by
  have hunsigned : Json.UnsignedText ('0' :: ([] ++ ('.' :: ps ++ []))) (fraction ps) :=
    .intro rfl (by simp) (fun _ => rfl) (.point hne hd) .none
  have hspelled := Json.Spelled.token (.number hunsigned rfl) (fun _ => by simp [Json.Stops]) .nil
  refine ⟨.number _, ?_⟩
  rw [String.toList_ofList]
  simpa [Node.tokens] using hspelled

theorem derivativeTrades_fraction {ps : List Char} {m : Number} {d : Decimal} (hne : ps ≠ [])
    (hd : ∀ c ∈ ps, c.isDigit) (hm : (fraction ps).toNumber = .ok m)
    (htext : Decimal.ofText? m.text = .ok d) :
    derivativeTrades (fundedBy (String.ofList ('0' :: '.' :: ps))) =
      .ok [withFunding (some d) unfunded] := by
  have hread : Reader.nullable Reader.any maxDepth (.number (fraction ps)) = .ok (some (.number m)) := by
    rw [Reader.nullable_of_ne_null (by nofun), Reader.any, Node.value, hm]
    rfl
  have hfunding : (fundedBy (String.ofList ('0' :: '.' :: ps))).optionalDecimal "cumulative_funding" =
      .ok (some d) := by
    rw [optionalDecimal_of_value rfl (fraction_text hne hd) hread]
    show some <$> decimalOf "cumulative_funding" m.text = _
    rw [decimalOf, htext]
    rfl
  rw [derivativeTrades_of_ok hfunding, derivativeTrades_unfunded]
  rfl

/-- A quarter stays a quarter. -/
theorem derivativeTrades_funding_quarter :
    (fundedBy "0.25").attribute? "cumulative_funding" = some "0.25" ∧
      (Node.number (fraction ['2', '5'])).IsText "0.25" ∧ Kept (.number (fraction ['2', '5'])) ∧
      ∃ trades d, derivativeTrades ((fundedBy "0.25").without "cumulative_funding") = .ok trades ∧
        derivativeTrades (fundedBy "0.25") = .ok (trades.map (withFunding d)) ∧
        Denotes (.number (fraction ['2', '5'])) (d.map Decimal.value) := by
  have htext : (Node.number (fraction ['2', '5'])).IsText "0.25" :=
    fraction_text (by decide) (by simp)
  have hkept : Kept (.number (fraction ['2', '5'])) := .inr ⟨by decide, .inr (by decide)⟩
  have hnumber : (fraction ['2', '5']).toNumber = .ok (.real false ⟨0x10000000000000, -54⟩) := by
    decide +kernel
  have hdecimal : Decimal.ofText? (Number.real false ⟨0x10000000000000, -54⟩).text = .ok ⟨25, 2⟩ := by
    decide +kernel
  have hok : derivativeTrades (fundedBy "0.25") = .ok [withFunding (some ⟨25, 2⟩) unfunded] :=
    derivativeTrades_fraction (by decide) (by simp) hnumber hdecimal
  refine ⟨rfl, htext, hkept, ?_⟩
  rcases derivativeTrades_funding (e := fundedBy "0.25") rfl htext hkept with
    ⟨cause, hfailed⟩ | ⟨f, hfailed, -⟩ | hexact
  · rw [hok] at hfailed
    cases hfailed
  · rw [hok] at hfailed
    cases hfailed
  · exact hexact

/-- Nineteen digits are more than binary floating point holds: the trade carries another number
than the one that is written. -/
theorem derivativeTrades_funding_rounded :
    (Node.number (fraction "1234567890123456789".toList)).IsText "0.1234567890123456789" ∧
      derivativeTrades (fundedBy "0.1234567890123456789") =
        .ok [withFunding (some ⟨12345678901234568, 17⟩) unfunded] ∧
      ¬ Denotes (.number (fraction "1234567890123456789".toList))
        (some (Decimal.value ⟨12345678901234568, 17⟩)) := by
  have hne : "1234567890123456789".toList ≠ [] := by decide
  have hdigits : ∀ c ∈ "1234567890123456789".toList, c.isDigit := by simp
  have hnumber : (fraction "1234567890123456789".toList).toNumber =
      .ok (.real false ⟨8895999183877727, -56⟩) := by
    decide +kernel
  have hdecimal : Decimal.ofText? (Number.real false ⟨8895999183877727, -56⟩).text =
      .ok ⟨12345678901234568, 17⟩ := by
    decide +kernel
  refine ⟨fraction_text hne hdigits, derivativeTrades_fraction hne hdigits hnumber hdecimal, ?_⟩
  have hwritten : (fraction "1234567890123456789".toList).value =
      1234567890123456789 * 10 ^ (-19 : ℤ) := by
    have hsignificand : (fraction "1234567890123456789".toList).significand = 1234567890123456789 := by
      decide +kernel
    have htens : (fraction "1234567890123456789".toList).tens = -19 := by decide
    rw [Numeral.value, hsignificand, htens]
    norm_num [fraction]
  intro h
  generalize hq : some (Decimal.value ⟨12345678901234568, 17⟩) = q at h
  cases h
  rw [hwritten, Decimal.value] at hq
  norm_num at hq

end Decode

end BlockFeed
