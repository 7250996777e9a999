import BlockFeed.Block
import BlockFeed.Proofs.Filter.Entry
import Mathlib.Data.List.Forall2

/-! From the lists of a request to a filter. What is accepted, what is reported of the rest and what is
kept; other spellings of the same identifiers give the same filter, and other identifiers do not. -/

namespace BlockFeed.StreamFilter

variable {markets subaccounts markets' subaccounts' : List String} {f : StreamFilter}

theorem any_blank_iff : (markets.any fun m => (Text.trimChars m.toList).isEmpty) = true ↔
    ∃ m ∈ markets, Blank m := by
  simp only [List.any_eq_true, List.isEmpty_iff, Text.trimChars_eq_nil_iff, Blank]

theorem ofRequest_of_blank (h : ∃ m ∈ markets, Blank m) : ofRequest markets subaccounts = .error .emptyMarket :=
  if_pos (any_blank_iff.mpr h)

theorem ofRequest_of_not_blank (h : ¬ ∃ m ∈ markets, Blank m) : ofRequest markets subaccounts =
    subaccounts.mapM canonicalSubaccount >>= fun ss => .ok ⟨markets.map canonicalMarket, ss⟩ :=
  if_neg fun hany => h (any_blank_iff.mp hany)

theorem ofRequest_eq_ok_iff : ofRequest markets subaccounts = .ok f ↔ (¬ ∃ m ∈ markets, Blank m) ∧
    markets.map canonicalMarket = f.markets ∧
      subaccounts.map canonicalSubaccount = f.subaccounts.map .ok := by
  by_cases hblank : ∃ m ∈ markets, Blank m
  · rw [ofRequest_of_blank hblank]
    exact iff_of_false nofun fun h => h.1 hblank
  · rw [ofRequest_of_not_blank hblank, bind_eq_ok_iff, and_iff_right hblank]
    constructor
    · rintro ⟨ss, hss, hf⟩
      cases hf
      exact ⟨rfl, mapM_eq_ok_iff.mp hss⟩
    · rintro ⟨hmarkets, hsubaccounts⟩
      exact ⟨f.subaccounts, mapM_eq_ok_iff.mpr hsubaccounts, by rw [hmarkets]⟩

theorem ofRequest_eq_error_iff (h : ¬ ∃ m ∈ markets, Blank m) {e : StreamFilterError} :
    ofRequest markets subaccounts = .error e ↔ subaccounts.mapM canonicalSubaccount = .error e := by
  rw [ofRequest_of_not_blank h]
  cases subaccounts.mapM canonicalSubaccount with
  | error e' => exact ⟨fun h => by cases h; rfl, fun h => by cases h; rfl⟩
  | ok ss => exact ⟨nofun, nofun⟩

/-- An error that is reported of a subaccount is the first. -/
theorem ofRequest_eq_invalid_iff {value : String} {reason : IdentifierError} :
    ofRequest markets subaccounts = .error (.invalidSubaccount value reason) ↔
      (¬ ∃ m ∈ markets, Blank m) ∧ ∃ before rest, subaccounts = before ++ value :: rest ∧
        (∀ v ∈ before, Admissible v) ∧ ¬ Admissible value ∧
          SubaccountId.ofText? (Text.trim value) = .error reason := by
  by_cases hblank : ∃ m ∈ markets, Blank m
  · rw [ofRequest_of_blank hblank]
    exact iff_of_false nofun fun h => h.1 hblank
  rw [ofRequest_eq_error_iff hblank, mapM_eq_error_iff, and_iff_right hblank]
  constructor
  · rintro ⟨before, value', rest, hsplit, hbefore, he⟩
    obtain ⟨hbad, reason', hreason, he'⟩ := canonicalSubaccount_eq_error_iff.mp he
    cases he'
    exact ⟨before, rest, hsplit, fun v hv => admissible_iff.mpr (hbefore v hv), hbad, hreason⟩
  · rintro ⟨before, rest, hsplit, hbefore, hbad, hreason⟩
    exact ⟨before, value, rest, hsplit, fun v hv => admissible_iff.mp (hbefore v hv),
      canonicalSubaccount_eq_error_iff.mpr ⟨hbad, reason, hreason, rfl⟩⟩

theorem exists_ofRequest_iff : (∃ f, ofRequest markets subaccounts = .ok f) ↔
    (¬ ∃ m ∈ markets, Blank m) ∧ ∀ v ∈ subaccounts, Admissible v := by
  have hadmissible : (∀ v ∈ subaccounts, Admissible v) ↔
      ∃ ss, subaccounts.mapM canonicalSubaccount = .ok ss :=
    (forall₂_congr fun v _ => admissible_iff).trans mapM_ok_iff.symm
  by_cases hblank : ∃ m ∈ markets, Blank m
  · rw [ofRequest_of_blank hblank]
    exact iff_of_false nofun fun h => h.1 hblank
  · simp only [ofRequest_of_not_blank hblank, bind_eq_ok_iff]
    rw [and_iff_right hblank, hadmissible]
    exact ⟨fun ⟨_, ss, hss, _⟩ => ⟨ss, hss⟩, fun ⟨ss, hss⟩ => ⟨_, ss, hss, rfl⟩⟩

theorem ofRequest_rebuilt (h : ofRequest markets subaccounts = .ok f) :
    ofRequest f.markets f.subaccounts = .ok f := by
  obtain ⟨hblank, hmarkets, hsubaccounts⟩ := ofRequest_eq_ok_iff.mp h
  refine ofRequest_eq_ok_iff.mpr ⟨?_, ?_, ?_⟩
  · rintro ⟨m, hm, hmblank⟩
    rw [← hmarkets] at hm
    obtain ⟨m', hm', rfl⟩ := List.mem_map.mp hm
    exact not_blank_canonicalMarket (fun hb => hblank ⟨m', hm', hb⟩) hmblank
  · simp only [← hmarkets, List.map_map, Function.comp_def, canonicalMarket_canonicalMarket]
  · refine List.map_congr_left fun stored hstored => ?_
    have hmem : .ok stored ∈ subaccounts.map canonicalSubaccount :=
      hsubaccounts ▸ List.mem_map_of_mem hstored
    obtain ⟨v, -, hv⟩ := List.mem_map.mp hmem
    exact canonicalSubaccount_stored hv

theorem ofRequest_eq_emptyMarket_iff :
    ofRequest markets subaccounts = .error .emptyMarket ↔ ∃ m ∈ markets, Blank m := by
  by_cases hblank : ∃ m ∈ markets, Blank m
  · exact iff_of_true (ofRequest_of_blank hblank) hblank
  · refine iff_of_false (fun h => ?_) hblank
    obtain ⟨before, value, rest, -, -, he⟩ := mapM_eq_error_iff.mp ((ofRequest_eq_error_iff hblank).mp h)
    obtain ⟨-, reason, -, he'⟩ := canonicalSubaccount_eq_error_iff.mp he
    cases he'

theorem map_eq_map_iff_forall₂ {α β : Type} {g : α → β} {l l' : List α} :
    l.map g = l'.map g ↔ List.Forall₂ (fun a a' => g a = g a') l l' := by
  rw [← List.forall₂_eq_eq_eq, List.forall₂_map_left_iff, List.forall₂_map_right_iff]

theorem map_canonicalMarket_iff : markets.map canonicalMarket = markets'.map canonicalMarket ↔
    List.Forall₂ SameMarket markets markets' := by
  simp only [map_eq_map_iff_forall₂, canonicalMarket_eq_iff]

theorem map_canonicalSubaccount_iff :
    subaccounts.map canonicalSubaccount = subaccounts'.map canonicalSubaccount ↔
      List.Forall₂ SameSubaccount subaccounts subaccounts' := by
  simp only [map_eq_map_iff_forall₂, canonicalSubaccount_eq_iff]

theorem exists_blank_iff (h : List.Forall₂ SameMarket markets markets') :
    (∃ m ∈ markets, Blank m) ↔ ∃ m ∈ markets', Blank m := by
  induction h with
  | nil => rfl
  | cons hm _ ih => simp only [List.exists_mem_cons_iff, hm.blank, ih]

theorem mapM_canonicalSubaccount (h : List.Forall₂ SameSubaccount subaccounts subaccounts') :
    subaccounts.mapM canonicalSubaccount = subaccounts'.mapM canonicalSubaccount := by
  induction h with
  | nil => rfl
  | cons hv _ ih => rw [List.mapM_cons, List.mapM_cons, canonicalSubaccount_eq_iff.mpr hv, ih]

theorem ofRequest_same (hmarkets : List.Forall₂ SameMarket markets markets')
    (hsubaccounts : List.Forall₂ SameSubaccount subaccounts subaccounts') :
    ofRequest markets' subaccounts' = ofRequest markets subaccounts := by
  have hiff := exists_blank_iff hmarkets
  by_cases hblank : ∃ m ∈ markets, Blank m
  · rw [ofRequest_of_blank hblank, ofRequest_of_blank (hiff.mp hblank)]
  · rw [ofRequest_of_not_blank hblank, ofRequest_of_not_blank (mt hiff.mpr hblank),
      map_canonicalMarket_iff.mpr hmarkets, mapM_canonicalSubaccount hsubaccounts]

theorem kept_of_ofRequest (h : ofRequest markets subaccounts = .ok f) :
    List.Forall₂ KeptMarket markets f.markets ∧ List.Forall₂ KeptSubaccount subaccounts f.subaccounts := by
  obtain ⟨-, hmarkets, hsubaccounts⟩ := ofRequest_eq_ok_iff.mp h
  constructor
  · rw [← hmarkets, List.forall₂_map_right_iff, List.forall₂_same]
    exact fun m _ => keptMarket m
  · rw [← List.forall₂_eq_eq_eq, List.forall₂_map_left_iff, List.forall₂_map_right_iff] at hsubaccounts
    exact hsubaccounts.imp fun _ _ => keptSubaccount

/-- How the lists of a request are read. -/
structure Canonical (markets subaccounts : List String) : Prop where
  accepted : (∃ f, ofRequest markets subaccounts = .ok f) ↔
    (¬ ∃ m ∈ markets, Blank m) ∧ ∀ v ∈ subaccounts, Admissible v
  emptyMarket : ofRequest markets subaccounts = .error .emptyMarket ↔ ∃ m ∈ markets, Blank m
  invalidSubaccount : ∀ value reason,
    ofRequest markets subaccounts = .error (.invalidSubaccount value reason) ↔
      (¬ ∃ m ∈ markets, Blank m) ∧ ∃ before rest, subaccounts = before ++ value :: rest ∧
        (∀ v ∈ before, Admissible v) ∧ ¬ Admissible value ∧
          SubaccountId.ofText? (Text.trim value) = .error reason
  kept : ∀ f, ofRequest markets subaccounts = .ok f →
    List.Forall₂ KeptMarket markets f.markets ∧ List.Forall₂ KeptSubaccount subaccounts f.subaccounts
  rebuilt : ∀ f, ofRequest markets subaccounts = .ok f → ofRequest f.markets f.subaccounts = .ok f
  /-- Two requests for the same identifiers are the same, also where they are refused. -/
  same : ∀ markets' subaccounts', List.Forall₂ SameMarket markets markets' →
    List.Forall₂ SameSubaccount subaccounts subaccounts' →
      ofRequest markets' subaccounts' = ofRequest markets subaccounts ∧
      ∀ f f', ofRequest markets subaccounts = .ok f → ofRequest markets' subaccounts' = .ok f' →
        f' = f ∧ ∀ b : Block, b.select f' = b.select f
  /-- Requests for other identifiers do not give the same filter. -/
  apart : ∀ f markets' subaccounts', ofRequest markets subaccounts = .ok f →
    ofRequest markets' subaccounts' = .ok f →
      List.Forall₂ SameMarket markets markets' ∧ List.Forall₂ SameSubaccount subaccounts subaccounts'

theorem canonical_ofRequest (markets subaccounts : List String) : Canonical markets subaccounts where
  accepted := exists_ofRequest_iff
  emptyMarket := ofRequest_eq_emptyMarket_iff
  invalidSubaccount _ _ := ofRequest_eq_invalid_iff
  kept _ := kept_of_ofRequest
  rebuilt _ := ofRequest_rebuilt
  same markets' subaccounts' hmarkets hsubaccounts := by
    have hsame := ofRequest_same hmarkets hsubaccounts
    refine ⟨hsame, fun f f' hf hf' => ?_⟩
    rw [hsame, hf] at hf'
    obtain rfl := Except.ok.inj hf'
    exact ⟨rfl, fun _ => rfl⟩
  apart f markets' subaccounts' hf hf' := by
    obtain ⟨-, hmarkets, hsubaccounts⟩ := ofRequest_eq_ok_iff.mp hf
    obtain ⟨-, hmarkets', hsubaccounts'⟩ := ofRequest_eq_ok_iff.mp hf'
    exact ⟨map_canonicalMarket_iff.mp (hmarkets.trans hmarkets'.symm),
      map_canonicalSubaccount_iff.mp (hsubaccounts.trans hsubaccounts'.symm)⟩

example : ofRequest ["INJ/USDT", " 0XAB"] ["*"] = .ok ⟨["INJ/USDT", "0xab"], ["*"]⟩ := by decide +kernel

end BlockFeed.StreamFilter
