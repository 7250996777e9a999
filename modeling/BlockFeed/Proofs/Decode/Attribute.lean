import BlockFeed.Proofs.Decode.Demand
import BlockFeed.Proofs.Decode.Funding
import BlockFeed.Proofs.Payload.Kind

/-! The steps of decoding: each reads one attribute and meets one demand on it. -/

namespace BlockFeed.Decode

open Demand Payload
open Json (Document Kind Node Reader Shape maxDepth)

variable {α β : Type} {e : Event} {demands : List Demand} {f : Event → Decoded α}

/-- `p` reads the texts of a kind, rearranged ones as the same, and names the attribute where it does
not. -/
structure Answers (p : String → Decoded α) (key : String) (kind : Kind) : Prop where
  ok_iff : ∀ text, (∃ a, p text = .ok a) ↔ kind.Accepts text
  same : ∀ text text', kind.Rewritten text text' → ∀ a, p text = .ok a → p text' = .ok a
  blames : ∀ text, Blames key (p text)

section Attributes

variable {key : String} {kind : Kind} {k : Nat}

theorem blames_parse (r : Reader α) (text : String) : Blames key (Event.parse r key text) := by
  rw [Event.parse]
  cases r.run text with
  | ok a => exact .ok a
  | error f => exact .error (.malformed f)

theorem blames_decimalOf (text : String) : Blames key (Event.decimalOf key text) := by
  rw [Event.decimalOf]
  cases Decimal.ofText? text with
  | ok d => exact .ok d
  | error f => exact .error (.invalidDecimal f)

theorem blames_decimalOfValue (v : Json.Value) : Blames key (Event.decimalOfValue key v) := by
  cases v with
  | null => exact .ok none
  | string s => exact (blames_decimalOf s).map some
  | number x => exact (blames_decimalOf x.text).map some
  | _ => exact .error (.notDecimal _)

theorem parse_eq_ok_iff {r : Reader α} {text : String} {a : α} :
    Event.parse r key text = .ok a ↔ r.run text = .ok a := by
  rw [Event.parse]
  cases r.run text <;> simp

theorem parse_answers {r : Reader α} (hr : r.Obeys k kind) (hk : k < maxDepth) (key : String) :
    Answers (Event.parse r key) key kind where
  ok_iff text := by
    simp only [parse_eq_ok_iff]
    exact hr.run_ok_iff hk text
  same text text' hsame a ha := parse_eq_ok_iff.mpr (hr.run_same hsame (parse_eq_ok_iff.mp ha))
  blames := blames_parse r

/-- A reader whose values are looked at again, where there is nothing to rearrange. -/
theorem parse_bind_answers {r : Reader α} {f : α → Decoded β}
    (hadmits : ∀ n, (∃ b a, r maxDepth n = .ok a ∧ f a = .ok b) ↔ kind.Admits n)
    (hsame : ∀ n n', kind.Rearranged n n' → n' = n)
    (hblames : ∀ a, Blames key (f a)) : Answers (fun text => Event.parse r key text >>= f) key kind where
  ok_iff text := by
    simp only [bind_eq_ok_iff, parse_eq_ok_iff, Reader.run_eq_ok_iff]
    constructor
    · rintro ⟨b, a, ⟨n, hdoc, ha⟩, hb⟩
      exact ⟨n, hdoc, (hadmits n).mp ⟨b, a, ha, hb⟩⟩
    · rintro ⟨n, hdoc, hn⟩
      obtain ⟨b, a, ha, hb⟩ := (hadmits n).mpr hn
      exact ⟨b, a, ⟨n, hdoc, ha⟩, hb⟩
  same := by
    rintro text text' ⟨n, n', hdoc, hdoc', halike⟩ b h
    obtain rfl := hsame n n' halike
    have hrun : r.run text' = r.run text := by rw [Reader.run, Reader.run, hdoc, hdoc']
    rwa [Event.parse, hrun, ← Event.parse]
  blames text := (blames_parse r text).bind hblames

/-- What is made of the value of an attribute, or of none. -/
def valueOr (key : String) (absent : Decoded α) (p : String → Decoded α) (e : Event) : Decoded α :=
  match e.attribute? key with
  | none => absent
  | some text => p text

variable {p : String → Decoded α} {absent : Decoded α}

theorem valueOr_obeys {d : Demand} (hp : Answers p d.key kind)
    (hmet : ∀ get : Values, d.Met get ↔
      (get d.key = none → ∃ a, absent = .ok a) ∧ ∀ text, get d.key = some text → kind.Accepts text)
    (hvaried : ∀ get get' : Values, d.Varied get get' → Reworded kind (get d.key) (get' d.key))
    (hblames : Blames d.key absent) : Obeys (valueOr d.key absent p) e [d] := by
  refine obeys_of_ok_iff ?_ ?_ ?_
  · rw [hmet, valueOr]
    cases e.attribute? d.key with
    | none => simp
    | some text => simp [hp.ok_iff]
  · rw [valueOr]
    cases e.attribute? d.key with
    | none => exact hblames
    | some text => exact hp.blames text
  · rintro e' hd (hmet' | hkey)
    · have hvalue := hvaried _ _ hd
      have haccepts := ((hmet _).mp hmet').2
      rw [valueOr, valueOr]
      generalize e.attribute? d.key = text?, e'.attribute? d.key = text?' at hvalue haccepts ⊢
      cases hvalue with
      | same => rfl
      | @rewritten text text' hrewritten =>
        obtain ⟨a, ha⟩ := (hp.ok_iff text).mpr (haccepts text rfl)
        exact (hp.same _ _ hrewritten a ha).trans ha.symm
    · rw [valueOr, valueOr, hkey]

theorem valueOr_missing_obeys (hp : Answers p key kind) :
    Obeys (valueOr key (.error (.attribute key .missing)) p) e [.required key kind] := by
  refine valueOr_obeys (d := .required key kind) hp (fun get => ?_) (fun _ _ h => h) (.error _)
  cases hvalue : get key with
  | none => simp [Met, Demand.key, hvalue]
  | some text => simp [Met, Demand.key, hvalue]

theorem valueOr_ok_obeys (hp : Answers p key kind.nullable) (a : α) :
    Obeys (valueOr key (.ok a) p) e [.optional key kind] := by
  refine valueOr_obeys (d := .optional key kind) hp (fun get => ?_) (fun _ _ h => h) (.ok a)
  exact ⟨fun h => ⟨fun _ => ⟨a, rfl⟩, h⟩, And.right⟩

theorem required_obeys {r : Reader α} (hr : r.Obeys k kind) (hk : k < maxDepth) (key : String) :
    Obeys (·.required key r) e [.required key kind] := by
  have hread : (fun e : Event => e.required key r) =
      valueOr key (.error (.attribute key .missing)) (Event.parse r key) := by
    funext e
    unfold Event.required valueOr
    cases e.attribute? key <;> rfl
  exact hread ▸ valueOr_missing_obeys (parse_answers hr hk key)

theorem optional_obeys {r : Reader α} (hr : r.Obeys k kind) (hk : k < maxDepth) (key : String)
    (a : α) : Obeys (·.optional key r a) e [.optional key kind] := by
  have hread : (fun e : Event => e.optional key r a) =
      fun e => (·.getD a) <$> valueOr key (.ok none) (Event.parse (Reader.nullable r) key) e := by
    funext e
    unfold Event.optional valueOr
    cases e.attribute? key <;> rfl
  exact hread ▸ (valueOr_ok_obeys (parse_answers hr.nullable hk key) none).map _

theorem decimalOf_eq_ok_iff {text : String} {d : Decimal} :
    Event.decimalOf key text = .ok d ↔ Decimal.ofText? text = .ok d := by
  rw [Event.decimalOf]
  cases Decimal.ofText? text <;> simp

theorem requiredDecimal_obeys (key : String) :
    Obeys (·.requiredDecimal key) e [.required key Tree.decimal] := by
  have hread : (fun e : Event => e.requiredDecimal key) =
      valueOr key (.error (.attribute key .missing)) fun text =>
        Event.parse Reader.string key text >>= Event.decimalOf key := by
    funext e
    unfold Event.requiredDecimal Event.required valueOr
    cases e.attribute? key <;> rfl
  refine hread ▸ valueOr_missing_obeys
    (parse_bind_answers (fun n => ?_) (fun _ _ h => h) blames_decimalOf)
  simp only [Reader.string_exact _ _ _, decimalOf_eq_ok_iff]
  rfl

theorem looseDecimal_admits_iff (n : Node) :
    (∃ d v, Reader.nullable Reader.any maxDepth n = .ok v ∧
      Event.decimalOfValue key (v.getD .null) = .ok d) ↔ Tree.looseDecimal.nullable.Admits n := by
  constructor
  · rintro ⟨d, v, hv, hd⟩
    by_cases hn : n = .null
    · exact .inl hn
    · rw [Reader.nullable_of_ne_null hn] at hv
      obtain ⟨w, hw, rfl⟩ := map_eq_ok_iff.mp hv
      refine .inr ?_
      cases Node.valued_of_value hw with
      | null => exact absurd rfl hn
      | string text =>
        obtain ⟨d, hd, -⟩ := map_eq_ok_iff.mp hd
        exact ⟨d, .inl ⟨text, rfl, decimalOf_eq_ok_iff.mp hd⟩⟩
      | @number literal x hx =>
        obtain ⟨d, hd, -⟩ := map_eq_ok_iff.mp hd
        exact ⟨d, .inr ⟨literal, x, rfl, hx, decimalOf_eq_ok_iff.mp hd⟩⟩
      | _ => cases hd
  · rintro (rfl | ⟨d, ⟨text, rfl, hd⟩ | ⟨literal, x, rfl, hx, hd⟩⟩)
    · exact ⟨none, none, rfl, rfl⟩
    · exact ⟨some d, some (.string text), rfl,
        map_eq_ok_iff.mpr ⟨d, decimalOf_eq_ok_iff.mpr hd, rfl⟩⟩
    · exact ⟨some d, some (.number x), map_eq_ok_iff.mpr ⟨_, Node.value_number hx, rfl⟩,
        map_eq_ok_iff.mpr ⟨d, decimalOf_eq_ok_iff.mpr hd, rfl⟩⟩

theorem optionalDecimal_obeys (key : String) :
    Obeys (·.optionalDecimal key) e [.optional key Tree.looseDecimal] := by
  have hread : (fun e : Event => e.optionalDecimal key) = valueOr key (.ok none) fun text =>
      Event.parse (Reader.nullable Reader.any) key text >>= fun v =>
        Event.decimalOfValue key (v.getD .null) := by
    funext e
    unfold Event.optionalDecimal Event.optional valueOr
    cases e.attribute? key with
    | none => rfl
    | some text =>
      simp only
      cases Event.parse (Reader.nullable Reader.any) key text with
      | error error => rfl
      | ok v =>
        simp only [Functor.map, Except.map, bind, Except.bind]
        cases v.getD .null <;> rfl
  refine hread ▸ valueOr_ok_obeys
    (parse_bind_answers looseDecimal_admits_iff ?_ fun v => blames_decimalOfValue _) none
  rintro n n' (⟨rfl, rfl⟩ | halike)
  · rfl
  · exact halike

end Attributes

section Band

variable {key : String} {texts : List String}

theorem forall₂_string_iff {depth : Nat} {items : List Node} :
    List.Forall₂ (fun n s => Reader.string depth n = .ok s) items texts ↔
      items = texts.map fun s => .string (.ok s) := by
  simp only [Reader.string_exact _ _ _, Shape.string]
  induction texts generalizing items with
  | nil => simp
  | cons s texts ih =>
    constructor
    · rintro (_ | ⟨rfl, hrest⟩)
      rw [ih.mp hrest]
      rfl
    · rintro rfl
      exact .cons rfl (ih.mpr rfl)

/-- Texts that are read under a key: how many there are, and whether all of them are decimals. -/
theorem optional_texts (h : e.optional key (Reader.list Reader.string) [] = .ok texts) :
    size e.attribute? key = texts.length ∧
      ((Demand.optional key Tree.decimal.list).Met e.attribute? ↔
        ∀ s ∈ texts, ∃ d, Decimal.ofText? s = .ok d) := by
  rw [Event.optional] at h
  cases hvalue : e.attribute? key with
  | none =>
    rw [hvalue] at h
    obtain rfl := Except.ok.inj h
    refine ⟨by simp [size, hvalue], iff_of_true ?_ (List.forall_mem_nil _)⟩
    intro text htext
    cases hvalue.symm.trans htext
  | some text =>
    rw [hvalue] at h
    obtain ⟨read, hread, rfl⟩ := map_eq_ok_iff.mp h
    obtain ⟨n, hdoc, hread⟩ := Reader.run_eq_ok_iff.mp (parse_eq_ok_iff.mp hread)
    have hmet : (Demand.optional key Tree.decimal.list).Met e.attribute? ↔
        n = .null ∨ Tree.decimal.list.Admits n := by
      constructor
      · intro hd
        obtain ⟨m, hm, hadmits⟩ := hd text hvalue
        obtain rfl : n = m := congrArg Document.root (hdoc.symm.trans hm)
        exact hadmits
      · intro hadmits text' htext
        obtain rfl := Option.some.inj (hvalue.symm.trans htext)
        exact ⟨n, hdoc, hadmits⟩
    rw [hmet]
    by_cases hn : n = .null
    · subst hn
      obtain rfl := Except.ok.inj hread
      exact ⟨by simp [size, hvalue, hdoc], iff_of_true (.inl rfl) (List.forall_mem_nil _)⟩
    · rw [Reader.nullable_of_ne_null hn] at hread
      obtain ⟨texts, htexts, rfl⟩ := map_eq_ok_iff.mp hread
      cases n with
      | list items stop =>
        obtain ⟨-, rfl, hitems⟩ := Reader.list_eq_ok_iff.mp htexts
        obtain rfl := forall₂_string_iff.mp hitems
        refine ⟨by simp [size, hvalue, hdoc], ?_⟩
        simp [Kind.list, Tree.decimal, Kind.scalar, Tree.decimalShape]
      | _ => cases htexts

/-- Lists of different lengths are refused before anything is made of them. -/
theorem paired_obeys {symbols prices : List String} {other : String}
    (hsymbols : size e.attribute? other = symbols.length)
    (hprices : size e.attribute? key = prices.length)
    (hf : symbols.length = prices.length → Obeys f e demands) :
    Obeys (fun e => if symbols.length ≠ prices.length then
      .error (.attribute key (.unpaired prices.length symbols.length)) else f e) e
        (.paired key other :: demands) := by
  have hmet : (Demand.paired key other).Met e.attribute? ↔ symbols.length = prices.length := by
    rw [Met, hprices, hsymbols, eq_comm]
  by_cases hlen : symbols.length = prices.length
  · simp only [ne_eq, hlen, not_true_eq_false, if_false]
    have hpaired : Obeys (fun _ => .ok ()) e [.paired key other] :=
      obeys_of_ok_iff (iff_of_true ⟨(), rfl⟩ (hmet.mpr hlen)) (.ok ()) fun _ _ _ => rfl
    exact hpaired.bind fun _ _ => hf hlen
  · simp only [ne_eq, hlen, not_false_eq_true, if_true]
    exact obeys_of_not_met (mt hmet.mp hlen) _ demands

/-- Texts that have been read are all made decimals, or one of them is not. -/
theorem decimals_obeys {symbols prices : List String} {oracle : Oracle}
    (hprices : (Demand.optional key Tree.decimal.list).Met e.attribute? ↔
      ∀ s ∈ prices, ∃ d, Decimal.ofText? s = .ok d) (hlen : symbols.length = prices.length) :
    Obeys (fun _ => (symbols.zip prices).mapM fun (symbol, price) => do
      return (⟨symbol, ← Event.decimalOf key price, oracle⟩ : OraclePrice)) e
        [.optional key Tree.decimal.list] := by
  refine obeys_of_ok_iff ?_ ?_ fun _ _ _ => rfl
  · have hpairs : (symbols.zip prices).map Prod.snd = prices := List.map_snd_zip hlen.ge
    rw [mapM_ok_iff, hprices, ← hpairs, List.forall_mem_map, hpairs]
    refine forall₂_congr fun p _ => ?_
    simp only [bind_eq_ok_iff, decimalOf_eq_ok_iff]
    exact ⟨fun ⟨_, d, hd, _⟩ => ⟨d, hd⟩, fun ⟨d, hd⟩ => ⟨_, d, hd, rfl⟩⟩
  · refine blames_mapM ?_ _
    rintro ⟨symbol, price⟩
    exact (blames_decimalOf price).bind fun d => .ok (⟨symbol, d, oracle⟩ : OraclePrice)

end Band

end BlockFeed.Decode
