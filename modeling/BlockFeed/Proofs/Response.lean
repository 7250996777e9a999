import BlockFeed.Proofs.Decimal.Exact
import BlockFeed.Proofs.Payload.Reading
import BlockFeed.Response

/-! A response read back. Every record of a selection comes out of it in its place and with every
field but one: the wire has no place for the funding of a derivative trade. -/

namespace BlockFeed

def OrderStatus.ofNumber? (n : Int32) : Option OrderStatus :=
  [booked, matched, cancelled].find? (·.number = n)

def Oracle.ofLabel? (label : String) : Option Oracle :=
  [pyth, bandIbc, provider, priceFeed].find? (·.label = label)

/-- A trade without the funding of its market. -/
def DerivativeTrade.unfunded (t : DerivativeTrade) : DerivativeTrade :=
  { t with cumulativeFunding := none }

def Selection.unfunded (s : Selection) : Selection :=
  { s with derivativeTrades := s.derivativeTrades.map DerivativeTrade.unfunded }

namespace Response

section Scalars

def decimal? (text : String) : Option Decimal := (Decimal.ofText? text).toOption

def subaccount? (text : String) : Option SubaccountId := (SubaccountId.ofText? text).toOption

/-- What may be absent, absent as it is or read. -/
def optional? {α β : Type} (read : α → Option β) : Option α → Option (Option β)
  | none => some none
  | some a => some <$> read a

@[simp] theorem decimal_text (d : Decimal) : decimal? d.text = some d := by
  rw [decimal?, d.ofText_text]
  rfl

@[simp] theorem subaccount_text (id : SubaccountId) : subaccount? id.text = some id := by
  rw [subaccount?, id.ofText_text]
  rfl

@[simp] theorem ofNumber_number (s : OrderStatus) : OrderStatus.ofNumber? s.number = some s := by
  cases s <;> decide

@[simp] theorem ofLabel_label (o : Oracle) : Oracle.ofLabel? o.label = some o := by
  cases o <;> decide

theorem optional_map {α β γ : Type} {read : α → Option β} {write : γ → α} {keep : γ → β}
    (h : ∀ c, read (write c) = some (keep c)) (c? : Option γ) :
    optional? read (c?.map write) = some (c?.map keep) := by
  cases c? with
  | none => rfl
  | some c => simp [optional?, h]

@[simp] theorem optional_text (d? : Option Decimal) :
    optional? decimal? (d?.map Decimal.text) = some d? := by
  rw [optional_map decimal_text, Option.map_id']

theorem mapM_map {α β γ : Type} {read : α → Option β} {write : γ → α} {keep : γ → β}
    (h : ∀ c, read (write c) = some (keep c)) (cs : List γ) :
    (cs.map write).mapM read = some (cs.map keep) := by
  induction cs with
  | nil => rfl
  | cons c cs ih => simp [h, ih]

end Scalars

section Records

def Balances.read? (b : Balances) : Option BlockFeed.Balances := do
  return ⟨← decimal? b.available, ← decimal? b.total⟩

def DenomBalances.read? (d : DenomBalances) : Option BlockFeed.DenomBalances := do
  return ⟨d.denom, ← (← d.balances).read?⟩

def DepositUpdate.read? (u : DepositUpdate) : Option BlockFeed.DepositUpdate := do
  return ⟨← subaccount? u.subaccount, ← u.deposits.mapM DenomBalances.read?⟩

def OrderInfo.read? (i : OrderInfo) : Option BlockFeed.OrderInfo := do
  return ⟨← subaccount? i.subaccount, i.feeRecipient, ← decimal? i.price, ← decimal? i.quantity, i.cid⟩

def SpotOrderUpdate.read? (u : SpotOrderUpdate) : Option BlockFeed.SpotOrderUpdate := do
  let o ← u.order
  let order : BlockFeed.SpotOrder := ⟨← (← o.info).read?, ← OrderType.ofName? o.orderType,
    ← decimal? o.fillable, ← optional? decimal? o.triggerPrice, o.orderHash⟩
  return ⟨← OrderStatus.ofNumber? u.status, u.orderHash, u.cid, o.market, order⟩

def DerivativeOrderUpdate.read? (u : DerivativeOrderUpdate) :
    Option BlockFeed.DerivativeOrderUpdate := do
  let o ← u.order
  let order : BlockFeed.DerivativeOrder := ⟨← (← o.info).read?, ← OrderType.ofName? o.orderType,
    ← decimal? o.margin, ← decimal? o.fillable, ← optional? decimal? o.triggerPrice, o.orderHash⟩
  return ⟨← OrderStatus.ofNumber? u.status, u.orderHash, u.cid, o.market, order, o.isMarket⟩

def SpotTrade.read? (t : SpotTrade) : Option BlockFeed.SpotTrade := do
  return ⟨t.market, t.isBuy, t.executionType, ← decimal? t.quantity, ← decimal? t.price,
    ← subaccount? t.subaccount, ← decimal? t.fee, t.orderHash, t.feeRecipient, t.cid, t.tradeId⟩

def PositionDelta.read? (d : PositionDelta) : Option BlockFeed.PositionDelta := do
  return ⟨d.isLong, ← decimal? d.quantity, ← decimal? d.margin, ← decimal? d.price⟩

def DerivativeTrade.read? (t : DerivativeTrade) : Option BlockFeed.DerivativeTrade := do
  return ⟨t.market, t.isBuy, t.executionType, ← subaccount? t.subaccount,
    ← optional? PositionDelta.read? t.positionDelta, ← decimal? t.payout, ← decimal? t.fee, t.orderHash,
    t.feeRecipient, t.cid, t.tradeId, t.isLiquidation, none⟩

def Position.read? (p : Position) : Option BlockFeed.Position := do
  return ⟨p.market, ← subaccount? p.subaccount, p.isLong, ← decimal? p.quantity,
    ← decimal? p.entryPrice, ← decimal? p.margin, ← decimal? p.cumulativeFundingEntry⟩

def OraclePrice.read? (p : OraclePrice) : Option BlockFeed.OraclePrice := do
  return ⟨p.symbol, ← decimal? p.price, ← Oracle.ofLabel? p.oracle⟩

@[simp] theorem Balances.read_of (b : BlockFeed.Balances) : (of b).read? = some b := by
  simp [of, read?]

@[simp] theorem DenomBalances.read_of (d : BlockFeed.DenomBalances) : (of d).read? = some d := by
  simp [of, read?]

@[simp] theorem DepositUpdate.read_of (u : BlockFeed.DepositUpdate) : (of u).read? = some u := by
  simp [of, read?, mapM_map DenomBalances.read_of]

@[simp] theorem OrderInfo.read_of (i : BlockFeed.OrderInfo) : (of i).read? = some i := by
  simp [of, read?]

@[simp] theorem SpotOrderUpdate.read_of (u : BlockFeed.SpotOrderUpdate) : (of u).read? = some u := by
  simp [of, read?, Payload.ofName_name]

@[simp] theorem DerivativeOrderUpdate.read_of (u : BlockFeed.DerivativeOrderUpdate) :
    (of u).read? = some u := by
  simp [of, read?, Payload.ofName_name]

@[simp] theorem SpotTrade.read_of (t : BlockFeed.SpotTrade) : (of t).read? = some t := by
  simp [of, read?]

@[simp] theorem PositionDelta.read_of (d : BlockFeed.PositionDelta) : (of d).read? = some d := by
  simp [of, read?]

@[simp] theorem DerivativeTrade.read_of (t : BlockFeed.DerivativeTrade) :
    (of t).read? = some t.unfunded := by
  simp [of, read?, optional_map PositionDelta.read_of, DerivativeTrade.unfunded]

@[simp] theorem Position.read_of (p : BlockFeed.Position) : (of p).read? = some p := by
  simp [of, read?]

@[simp] theorem OraclePrice.read_of (p : BlockFeed.OraclePrice) : (of p).read? = some p := by
  simp [of, read?]

end Records

/-- The selection of a response, if each of its records can be read. -/
def read? (r : Response) : Option Selection := do
  return {
    height := r.height
    deposits := ← r.deposits.mapM DepositUpdate.read?
    spotOrders := ← r.spotOrders.mapM SpotOrderUpdate.read?
    derivativeOrders := ← r.derivativeOrders.mapM DerivativeOrderUpdate.read?
    spotTrades := ← r.spotTrades.mapM SpotTrade.read?
    derivativeTrades := ← r.derivativeTrades.mapM DerivativeTrade.read?
    positions := ← r.positions.mapM Position.read?
    oraclePrices := ← r.oraclePrices.mapM OraclePrice.read? }

theorem read_ofSelection (s : Selection) : (ofSelection s).read? = some s.unfunded := by
  simp [ofSelection, read?, Selection.unfunded, mapM_map DepositUpdate.read_of,
    mapM_map SpotOrderUpdate.read_of, mapM_map DerivativeOrderUpdate.read_of,
    mapM_map SpotTrade.read_of, mapM_map DerivativeTrade.read_of, mapM_map Position.read_of,
    mapM_map OraclePrice.read_of]

theorem ofSelection_unfunded (s : Selection) : ofSelection s.unfunded = ofSelection s := by
  simp only [ofSelection, Selection.unfunded, List.map_map]
  rfl

theorem ofSelection_eq_iff (s t : Selection) :
    ofSelection s = ofSelection t ↔ s.unfunded = t.unfunded := by
  constructor
  · intro h
    have hread := read_ofSelection s
    rw [h, read_ofSelection t] at hread
    exact (Option.some.inj hread).symm
  · intro h
    rw [← ofSelection_unfunded s, h, ofSelection_unfunded]

/-- A response has the records of a selection, as many of each kind and in the same order. -/
structure Carries (r : Response) (s : Selection) : Prop where
  height : r.height = s.height
  deposits : List.Forall₂ (fun v u => v.read? = some u) r.deposits s.deposits
  spotOrders : List.Forall₂ (fun v u => v.read? = some u) r.spotOrders s.spotOrders
  derivativeOrders : List.Forall₂ (fun v u => v.read? = some u) r.derivativeOrders s.derivativeOrders
  spotTrades : List.Forall₂ (fun v t => v.read? = some t) r.spotTrades s.spotTrades
  derivativeTrades :
    List.Forall₂ (fun v t => v.read? = some t.unfunded) r.derivativeTrades s.derivativeTrades
  positions : List.Forall₂ (fun v p => v.read? = some p) r.positions s.positions
  oraclePrices : List.Forall₂ (fun v p => v.read? = some p) r.oraclePrices s.oraclePrices

theorem forall₂_map {α γ : Type} {write : γ → α} {R : α → γ → Prop} (h : ∀ c, R (write c) c)
    (cs : List γ) : List.Forall₂ R (cs.map write) cs := by
  rw [List.forall₂_map_left_iff, List.forall₂_same]
  exact fun c _ => h c

theorem carries_ofSelection (s : Selection) : (ofSelection s).Carries s where
  height := rfl
  deposits := forall₂_map DepositUpdate.read_of s.deposits
  spotOrders := forall₂_map SpotOrderUpdate.read_of s.spotOrders
  derivativeOrders := forall₂_map DerivativeOrderUpdate.read_of s.derivativeOrders
  spotTrades := forall₂_map SpotTrade.read_of s.spotTrades
  derivativeTrades := forall₂_map DerivativeTrade.read_of s.derivativeTrades
  positions := forall₂_map Position.read_of s.positions
  oraclePrices := forall₂_map OraclePrice.read_of s.oraclePrices

/-- A response has every record of its selection in order, and two selections have the same response
exactly if they agree in everything but the funding of derivative trades. -/
theorem whole_but_funding :
    (∀ s, (ofSelection s).Carries s ∧ (ofSelection s).read? = some s.unfunded) ∧
      ∀ s t, ofSelection s = ofSelection t ↔ s.unfunded = t.unfunded :=
  ⟨fun s => ⟨carries_ofSelection s, read_ofSelection s⟩, ofSelection_eq_iff⟩

/-- A block with one derivative trade. -/
def oneTrade (funding : Option Decimal) : Selection where
  height := 7
  deposits := []
  spotOrders := []
  derivativeOrders := []
  spotTrades := []
  derivativeTrades := [⟨"m", false, "", ⟨List.replicate SubaccountId.size 0, rfl⟩, none, ⟨0, 0⟩, ⟨0, 0⟩,
    "", "", "", "7_0", false, funding⟩]
  positions := []
  oraclePrices := []

theorem funding_unsent : oneTrade none ≠ oneTrade (some ⟨25, 2⟩) ∧
    ofSelection (oneTrade none) = ofSelection (oneTrade (some ⟨25, 2⟩)) := by
  have hsame : (oneTrade none).unfunded = (oneTrade (some ⟨25, 2⟩)).unfunded := rfl
  exact ⟨by decide, (ofSelection_eq_iff _ _).mpr hsame⟩

end Response

end BlockFeed
