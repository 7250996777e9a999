import BlockFeed.Proofs.Block
import BlockFeed.Proofs.Decode.Fidelity
import BlockFeed.Proofs.Filter

/-! A client that asks for one market, by an identifier it saw in a record. A record set is known by the
identifiers as they came in, so all of the market is selected or nothing. -/

namespace BlockFeed

namespace KeyedRecords

variable {α : Type} [Keyed α] {k : KeyedRecords α} {rs selected : List α} {f : StreamFilter}
  {market : String}

theorem Holds.market_eq (h : k.Holds rs) (market : String) :
    k.market market = rs.filter (Keyed.market · = market) := by
  rw [KeyedRecords.market, pick, h.byMarket.get, h.records, places, List.length_map]
  apply filterMap_places
  intro i r hr
  simp [hr]

/-- Where all subaccounts are admitted, the market filter alone decides. -/
theorem Holds.select_market [DecidableEq α] (h : k.Holds rs) (hall : f.subaccounts = [])
    (hs : k.select f = .ok selected) (market : String) :
    selected.filter (Keyed.market · = market) =
      if Index.Admits f.markets market then k.market market else [] := by
  obtain ⟨selected', hs', hentitled⟩ := h.entitled f
  obtain rfl : selected' = selected := Except.ok.inj (hs'.symm.trans hs)
  have hsubaccount : ∀ r : α, Index.Admits f.subaccounts (Keyed.subaccount r).text :=
    fun _ => .inl hall
  rw [hentitled.ordered, List.filter_filter, h.market_eq]
  by_cases hadmits : Index.Admits f.markets market
  · rw [if_pos hadmits]
    apply List.filter_congr
    intro r _
    by_cases hr : Keyed.market r = market <;> simp [StreamFilter.Admits, hr, hadmits, hsubaccount r]
  · rw [if_neg hadmits, List.filter_eq_nil_iff]
    intro r _ hr
    obtain ⟨hmarket, hr⟩ : Keyed.market r = market ∧ f.Admits r := by simpa using hr
    exact hadmits (hmarket ▸ hr.1)

theorem Holds.admits_of_mem [DecidableEq α] (h : k.Holds rs) (hall : f.subaccounts = [])
    (hs : k.select f = .ok selected) (hm : market ∈ selected.map Keyed.market) :
    Index.Admits f.markets market := by
  obtain ⟨r, hr, hmarket⟩ := List.mem_map.mp hm
  have hmem : r ∈ selected.filter (Keyed.market · = market) :=
    List.mem_filter.mpr ⟨hr, decide_eq_true hmarket⟩
  by_contra hnot
  rw [h.select_market hall hs, if_neg hnot] at hmem
  exact absurd hmem List.not_mem_nil

theorem Holds.mem_of_delivered (h : k.Holds rs)
    (hs : selected.filter (Keyed.market · = market) = k.market market)
    (hm : market ∈ k.records.map Keyed.market) : market ∈ selected.map Keyed.market := by
  obtain ⟨r, hr, hmarket⟩ := List.mem_map.mp hm
  have hmem : r ∈ k.market market := by
    rw [h.market_eq, ← h.records]
    exact List.mem_filter.mpr ⟨hr, decide_eq_true hmarket⟩
  rw [← hs] at hmem
  exact List.mem_map.mpr ⟨r, (List.mem_filter.mp hmem).1, hmarket⟩

end KeyedRecords

/-- The markets that keyed records carry. -/
def Block.markets (b : Block) : List String :=
  b.spotOrders.records.map Keyed.market ++ b.derivativeOrders.records.map Keyed.market ++
    b.spotTrades.records.map Keyed.market ++ b.derivativeTrades.records.map Keyed.market ++
    b.positions.records.map Keyed.market

def Selection.markets (s : Selection) : List String :=
  s.spotOrders.map Keyed.market ++ s.derivativeOrders.map Keyed.market ++
    s.spotTrades.map Keyed.market ++ s.derivativeTrades.map Keyed.market ++
    s.positions.map Keyed.market

namespace Block

/-- The selection has all records of the market, kind by kind. -/
structure Delivers (b : Block) (market : String) (s : Selection) : Prop where
  spotOrders : s.spotOrders.filter (Keyed.market · = market) = b.spotOrders.market market
  derivativeOrders :
    s.derivativeOrders.filter (Keyed.market · = market) = b.derivativeOrders.market market
  spotTrades : s.spotTrades.filter (Keyed.market · = market) = b.spotTrades.market market
  derivativeTrades :
    s.derivativeTrades.filter (Keyed.market · = market) = b.derivativeTrades.market market
  positions : s.positions.filter (Keyed.market · = market) = b.positions.market market

structure Selects (b : Block) (f : StreamFilter) (s : Selection) : Prop where
  spotOrders : b.spotOrders.select f = .ok s.spotOrders
  derivativeOrders : b.derivativeOrders.select f = .ok s.derivativeOrders
  spotTrades : b.spotTrades.select f = .ok s.spotTrades
  derivativeTrades : b.derivativeTrades.select f = .ok s.derivativeTrades
  positions : b.positions.select f = .ok s.positions

theorem selects_of_select {b : Block} {f : StreamFilter} {s : Selection} (h : b.select f = .ok s) :
    b.Selects f s := by
  obtain ⟨spotOrders, hso, h⟩ := bind_ok h
  obtain ⟨derivativeOrders, hdo, h⟩ := bind_ok h
  obtain ⟨spotTrades, hst, h⟩ := bind_ok h
  obtain ⟨derivativeTrades, hdt, h⟩ := bind_ok h
  obtain ⟨positions, hp, h⟩ := bind_ok h
  cases h
  exact ⟨hso, hdo, hst, hdt, hp⟩

section Market

variable {b : Block} {rs : List Record} {f : StreamFilter} {s : Selection} {market : String}

theorem Holds.delivers (h : b.Holds rs) (hs : b.Selects f s) (hall : f.subaccounts = [])
    (hadmits : Index.Admits f.markets market) : b.Delivers market s where
  spotOrders := by rw [h.spotOrders.select_market hall hs.spotOrders, if_pos hadmits]
  derivativeOrders := by
    rw [h.derivativeOrders.select_market hall hs.derivativeOrders, if_pos hadmits]
  spotTrades := by rw [h.spotTrades.select_market hall hs.spotTrades, if_pos hadmits]
  derivativeTrades := by
    rw [h.derivativeTrades.select_market hall hs.derivativeTrades, if_pos hadmits]
  positions := by rw [h.positions.select_market hall hs.positions, if_pos hadmits]

theorem Holds.admits_of_mem_markets (h : b.Holds rs) (hs : b.Selects f s) (hall : f.subaccounts = [])
    (hm : market ∈ s.markets) : Index.Admits f.markets market := by
  simp only [Selection.markets, List.mem_append] at hm
  rcases hm with (((hm | hm) | hm) | hm) | hm
  · exact h.spotOrders.admits_of_mem hall hs.spotOrders hm
  · exact h.derivativeOrders.admits_of_mem hall hs.derivativeOrders hm
  · exact h.spotTrades.admits_of_mem hall hs.spotTrades hm
  · exact h.derivativeTrades.admits_of_mem hall hs.derivativeTrades hm
  · exact h.positions.admits_of_mem hall hs.positions hm

theorem Holds.mem_markets_of_delivers (h : b.Holds rs) (hs : b.Delivers market s)
    (hm : market ∈ b.markets) : market ∈ s.markets := by
  simp only [markets, Selection.markets, List.mem_append] at hm ⊢
  rcases hm with (((hm | hm) | hm) | hm) | hm
  · exact .inl (.inl (.inl (.inl (h.spotOrders.mem_of_delivered hs.spotOrders hm))))
  · exact .inl (.inl (.inl (.inr (h.derivativeOrders.mem_of_delivered hs.derivativeOrders hm))))
  · exact .inl (.inl (.inr (h.spotTrades.mem_of_delivered hs.spotTrades hm)))
  · exact .inl (.inr (h.derivativeTrades.mem_of_delivered hs.derivativeTrades hm))
  · exact .inr (h.positions.mem_of_delivered hs.positions hm)

end Market

/-- The filter of one market admits it if it keeps the identifier as it is. -/
theorem admits_canonicalMarket (market : String) :
    Index.Admits [StreamFilter.canonicalMarket market] market ↔ StreamFilter.Lowered market := by
  rw [← StreamFilter.canonicalMarket_eq_self]
  constructor
  · rintro (hnil | hwildcard | hmem)
    · cases hnil
    · exact StreamFilter.canonicalMarket_wildcard (List.mem_singleton.mp hwildcard).symm
    · exact (List.mem_singleton.mp hmem).symm
  · intro hself
    exact .inr (.inr (List.mem_singleton.mpr hself.symm))

section OneFill

/-- Spot trades of a market, with one fill of account 1. -/
def fillIn (market : String) : Event :=
  ⟨Topic.spotTrades.tag, [.indexed "market_id" (Json.Value.string market).text,
    .indexed "trades" (Json.Value.list [.object [("quantity", .string "1"),
      ("price", .string "2.50"), ("subaccount_id", .string "AQ=="), ("fee", .string "0")]]).text]⟩

def tradeIn (market : String) : SpotTrade :=
  { market, isBuy := false, executionType := "", quantity := ⟨1, 0⟩, price := ⟨250, 2⟩,
    subaccount := ⟨List.replicate 31 0 ++ [1], rfl⟩, fee := ⟨0, 0⟩, orderHash := "", feeRecipient := "",
    cid := "", tradeId := "" }

theorem decode_fillIn (market : String) : (fillIn market).decode = .ok [.spotTrade (tradeIn market)] := by
  have hmarket := (Json.Prints.string market).isText
  have hmembers : Json.PrintsMembers _ _ := .cons "quantity" (.string "1")
    (.cons "price" (.string "2.50") (.cons "subaccount_id" (.string "AQ==")
      (.cons "fee" (.string "0") .nil)))
  have hfills := (Json.Prints.list (.cons (.object hmembers) .nil)).isText
  have hquantity : Decimal.Plain "1" ⟨1, 0⟩ := .positive (.whole (List.cons_ne_nil '1' []) (by simp))
  have hprice : Decimal.Plain "2.50" ⟨250, 2⟩ := .positive
    (.places (List.cons_ne_nil '2' []) (by simp) (List.cons_ne_nil '5' ['0']) (by simp))
  have hfee : Decimal.Plain "0" ⟨0, 0⟩ := .positive (.whole (List.cons_ne_nil '0' []) (by simp))
  have haccount : Payload.Format.SubaccountText (String.ofList (Text.Base64.encode [1]))
      ⟨List.replicate 31 0 ++ [1], rfl⟩ := .base64 (by decide) rfl
  have hread : (fillIn market).HoldsOr "trades" (.list Payload.Format.spotFill) []
      [⟨⟨1, 0⟩, ⟨250, 2⟩, ⟨List.replicate 31 0 ++ [1], rfl⟩, ⟨0, 0⟩, "", "", ""⟩] := by
    refine ⟨some _, .inr ⟨_, _, rfl, hfills, .inr ⟨_, rfl, _, rfl, .cons ?_ .nil⟩⟩, rfl⟩
    exact ⟨_, ⟨_, rfl, hmembers.whole, by decide, rfl⟩, ⟨_, rfl, _, rfl, hquantity⟩,
      ⟨_, rfl, _, rfl, hprice⟩, ⟨_, rfl, _, rfl, haccount⟩, ⟨_, rfl, _, rfl, hfee⟩,
      .inl ⟨rfl, rfl⟩, .inl ⟨rfl, rfl⟩, .inl ⟨rfl, rfl⟩⟩
  show Decode.ofTopic (fillIn market) .spotTrades = _
  rw [Decode.ofTopic, Decode.spotTrades, Decode.expect_ok rfl,
    Decode.market_ok ⟨_, _, rfl, hmarket, rfl⟩, Decode.bool_ok ⟨none, .inl ⟨rfl, rfl⟩, rfl⟩,
    Decode.text_ok ⟨none, .inl ⟨rfl, rfl⟩, rfl⟩, Decode.list_ok hread Payload.spotFill_follows (by decide)]
  rfl

theorem ofBatch_fillIn (height : UInt64) (market : String) :
    ofBatch ⟨height, [fillIn market]⟩ = .ok (aggregate height [.spotTrade (tradeIn market)]) := by
  rw [ofBatch, List.mapM_cons, decode_fillIn]
  rfl

end OneFill

/-- A client that asks for the market of a record by its identifier, with letters in either case if that is
in hex, is let in. It gets all records of the market if the identifier came in lower case or not in hex, and
none otherwise. -/
theorem select_seen_market {batch : Batch} {b : Block} {market spelling : String}
    (hb : ofBatch batch = .ok b) (hm : market ∈ b.markets)
    (hblank : Text.trimChars market.toList ≠ []) (hspelling : StreamFilter.Respelled market spelling) :
    ∃ f s, StreamFilter.ofRequest [spelling] [] = .ok f ∧ b.select f = .ok s ∧
      (b.Delivers market s ↔ StreamFilter.Lowered market) ∧
      (¬ StreamFilter.Lowered market → market ∉ s.markets) := by
  obtain ⟨records, rfl⟩ := ofBatch_ok hb
  have hholds := holds_aggregate batch.height records
  have hf := StreamFilter.ofRequest_market (hspelling.not_blank hblank)
  rw [hspelling.canonicalMarket] at hf
  obtain ⟨s, hs, -⟩ := select_ofBatch hb ⟨[StreamFilter.canonicalMarket market], []⟩
  have hselects := selects_of_select hs
  have hnone : ¬ StreamFilter.Lowered market → market ∉ s.markets := fun hnot hmem =>
    hnot ((admits_canonicalMarket market).mp (hholds.admits_of_mem_markets hselects rfl hmem))
  refine ⟨_, s, hf, hs, ⟨?_, ?_⟩, hnone⟩
  · intro hdelivers
    by_contra hnot
    exact hnone hnot (hholds.mem_markets_of_delivers hdelivers hm)
  · exact fun hlowered => hholds.delivers hselects rfl ((admits_canonicalMarket market).mpr hlowered)

/-- An identifier in lower case, asked for in upper case. -/
theorem select_seen_market_upperCase :
    let b := aggregate 7 [.spotTrade (tradeIn "0xab")]
    let s : Selection := ⟨7, [], [], [], [{ tradeIn "0xab" with tradeId := "7_0" }], [], [], []⟩
    ofBatch ⟨7, [fillIn "0xab"]⟩ = .ok b ∧ "0xab" ∈ b.markets ∧
      StreamFilter.Respelled "0xab" "0XAB" ∧ StreamFilter.Lowered "0xab" ∧
      StreamFilter.ofRequest ["0XAB"] [] = .ok ⟨["0xab"], []⟩ ∧
      b.select ⟨["0xab"], []⟩ = .ok s ∧ b.Delivers "0xab" s := by
  intro b s
  have hb := ofBatch_fillIn 7 "0xab"
  have hmarket : "0xab" ∈ b.markets := by decide +kernel
  have htext : "0xab".toList = ['0', 'x', 'a', 'b'] := by decide +kernel
  have hhex : StreamFilter.IsHex "0xab".toList := by
    rw [htext]
    exact .intro (.inl rfl) (List.cons_ne_nil 'a' ['b']) (by simp [StreamFilter.isHexDigit])
  have hcase : "0XAB".toList.map Char.toLower = "0xab".toList.map Char.toLower := by decide +kernel
  have hrespelled : StreamFilter.Respelled "0xab" "0XAB" := .inr ⟨hhex, hcase⟩
  have hlowered : StreamFilter.Lowered "0xab" := fun _ => by decide +kernel
  have hf : StreamFilter.ofRequest ["0XAB"] [] = .ok ⟨["0xab"], []⟩ := by decide +kernel
  have hs : b.select ⟨["0xab"], []⟩ = .ok s := by decide +kernel
  obtain ⟨f', s', hf', hs', hdelivers, -⟩ :=
    select_seen_market hb hmarket (by decide +kernel) hrespelled
  obtain rfl := Except.ok.inj (hf'.symm.trans hf)
  obtain rfl := Except.ok.inj (hs'.symm.trans hs)
  exact ⟨hb, hmarket, hrespelled, hlowered, hf, hs, hdelivers.mpr hlowered⟩

/-- A trade whose market has capitals in its identifier is kept from a client that asks for just that
identifier. -/
theorem select_capitals_missed :
    let b := aggregate 7 [.spotTrade (tradeIn "0xAB")]
    ofBatch ⟨7, [fillIn "0xAB"]⟩ = .ok b ∧ "0xAB" ∈ b.markets ∧
      StreamFilter.ofRequest ["0xAB"] [] = .ok ⟨["0xab"], []⟩ ∧
      b.select ⟨["0xab"], []⟩ = .ok ⟨7, [], [], [], [], [], [], []⟩ ∧
      ¬ b.Delivers "0xAB" ⟨7, [], [], [], [], [], [], []⟩ := by
  intro b
  have hheld : b.spotTrades.market "0xAB" = [{ tradeIn "0xAB" with tradeId := "7_0" }] := by
    decide +kernel
  refine ⟨ofBatch_fillIn 7 "0xAB", by decide +kernel, by decide +kernel, by decide +kernel, ?_⟩
  intro hdelivers
  have hnone := hdelivers.spotTrades
  rw [hheld] at hnone
  exact absurd hnone (List.cons_ne_nil _ _).symm

end Block

end BlockFeed
