import BlockFeed.Decode
import BlockFeed.Proofs.Json.Kind

/-! What decoding demands of an event's attributes, one after the other. The first demand that is not
met is the one reported. -/

namespace BlockFeed

open Json (Document Kind)

inductive Demand where
  /-- There is such an attribute, of the kind. -/
  | required (key : String) (kind : Kind)
  /-- Such an attribute, if there is one, is `null` or of the kind. -/
  | optional (key : String) (kind : Kind)
  /-- The list under `key` is as long as the one under `other`. -/
  | paired (key other : String)

namespace Demand

/-- The first value of each key. -/
abbrev Values := String → Option String

/-- The length of a list, of which none may stand for an empty one. -/
def size (get : Values) (key : String) : Nat :=
  match (get key).map fun text => (Document.ofText text).root with
  | some (.list items _) => items.length
  | _ => 0

/-- A flag that is down where none stands. -/
def flag (get : Values) (key : String) : Bool :=
  match (get key).map fun text => (Document.ofText text).root with
  | some (.bool b) => b
  | _ => false

/-- The attribute that does not do where the demand is not met. -/
def key : Demand → String
  | required key _ => key
  | optional key _ => key
  | paired key _ => key

def Met (get : Values) : Demand → Prop
  | required key kind => ∃ text, get key = some text ∧ kind.Accepts text
  | optional key kind => ∀ text, get key = some text → kind.nullable.Accepts text
  | paired key other => size get key = size get other

/-- The first demand that is not met is one for `key`. -/
def FirstUnmet (get : Values) (demands : List Demand) (key : String) : Prop :=
  ∃ before d after, demands = before ++ d :: after ∧ (∀ b ∈ before, b.Met get) ∧ ¬ d.Met get ∧
    d.key = key

/-- The same text, if any, or one whose tree is the first one's rearranged. -/
inductive Reworded (kind : Kind) : Option String → Option String → Prop where
  | same (text? : Option String) : Reworded kind text? text?
  | rewritten {text text' : String} (h : kind.Rewritten text text') :
      Reworded kind (some text) (some text')

/-- The attribute that is demanded is reworded at most. -/
def Varied (get get' : Values) : Demand → Prop
  | required key kind => Reworded kind (get key) (get' key)
  | optional key kind => Reworded kind.nullable (get key) (get' key)
  | paired _ _ => True

variable {get get' : Values} {demands demands' : List Demand} {key : String}

theorem FirstUnmet.append_right (h : FirstUnmet get demands key) (demands' : List Demand) :
    FirstUnmet get (demands ++ demands') key := by
  obtain ⟨before, d, after, rfl, hbefore, hd, hkey⟩ := h
  exact ⟨before, d, after ++ demands', List.append_assoc .., hbefore, hd, hkey⟩

theorem FirstUnmet.append_left (h : FirstUnmet get demands' key) (hmet : ∀ d ∈ demands, d.Met get) :
    FirstUnmet get (demands ++ demands') key := by
  obtain ⟨before, d, after, rfl, hbefore, hd, hkey⟩ := h
  exact ⟨demands ++ before, d, after, (List.append_assoc ..).symm,
    List.forall_mem_append.mpr ⟨hmet, hbefore⟩, hd, hkey⟩

theorem varied_of_eq {d : Demand} (h : get' d.key = get d.key) : d.Varied get get' := by
  cases d with
  | required key kind =>
    rw [Varied, show get' key = get key from h]
    exact .same _
  | optional key kind =>
    rw [Varied, show get' key = get key from h]
    exact .same _
  | paired key other => trivial

theorem firstUnmet_singleton {d : Demand} (h : ¬ d.Met get) : FirstUnmet get [d] d.key :=
  ⟨[], d, [], rfl, List.forall_mem_nil _, h, rfl⟩

end Demand

open Demand

namespace Decode

variable {α β : Type}

/-- On the event `e` the step `f` comes to an end where the demands are met, and else names the first
that is not. It only looks at these attributes, and does not tell one that meets its demand from the same
reworded. -/
structure Obeys (f : Event → Decoded α) (e : Event) (demands : List Demand) : Prop where
  met : ∀ a, f e = .ok a → ∀ d ∈ demands, d.Met e.attribute?
  unmet : ∀ error, f e = .error error →
    ∃ key cause, FirstUnmet e.attribute? demands key ∧ error = .attribute key cause
  same : ∀ e' : Event, e'.tag = e.tag → (∀ d ∈ demands, d.Varied e.attribute? e'.attribute? ∧
    (d.Met e.attribute? ∨ e'.attribute? d.key = e.attribute? d.key)) → f e' = f e

variable {e e' : Event} {demands demands' : List Demand} {f : Event → Decoded α}

theorem Obeys.frame (h : Obeys f e demands) (htag : e'.tag = e.tag)
    (hkeys : ∀ d ∈ demands, e'.attribute? d.key = e.attribute? d.key) : f e' = f e :=
  h.same e' htag fun d hd => ⟨varied_of_eq (hkeys d hd), .inr (hkeys d hd)⟩

theorem Obeys.varied (h : Obeys f e demands) (htag : e'.tag = e.tag)
    (hvaried : ∀ d ∈ demands, d.Varied e.attribute? e'.attribute?) {a : α} (ha : f e = .ok a) :
    f e' = .ok a :=
  (h.same e' htag fun d hd => ⟨hvaried d hd, .inl (h.met a ha d hd)⟩).trans ha

theorem Obeys.ok_iff (h : Obeys f e demands) :
    (∃ a, f e = .ok a) ↔ ∀ d ∈ demands, d.Met e.attribute? := by
  constructor
  · rintro ⟨a, ha⟩
    exact h.met a ha
  · intro hmet
    cases hf : f e with
    | ok a => exact ⟨a, rfl⟩
    | error error =>
      obtain ⟨key, cause, ⟨before, d, after, rfl, -, hunmet, -⟩, -⟩ := h.unmet error hf
      exact absurd (hmet d (by simp)) hunmet

theorem Obeys.pure (a : α) : Obeys (fun _ => .ok a) e [] where
  met _ _ := List.forall_mem_nil _
  unmet := nofun
  same _ _ _ := rfl

theorem Obeys.bind {g : α → Event → Decoded β} (hf : Obeys f e demands)
    (hg : ∀ a, f e = .ok a → Obeys (g a) e demands') :
    Obeys (fun e => f e >>= fun a => g a e) e (demands ++ demands') where
  met b h := by
    obtain ⟨a, ha, hb⟩ := bind_ok h
    exact List.forall_mem_append.mpr ⟨hf.met a ha, (hg a ha).met b hb⟩
  unmet error h := by
    cases ha : f e with
    | error error' =>
      rw [ha] at h
      obtain rfl := Except.error.inj h
      obtain ⟨key, cause, hfirst, herror⟩ := hf.unmet _ ha
      exact ⟨key, cause, hfirst.append_right _, herror⟩
    | ok a =>
      rw [ha] at h
      obtain ⟨key, cause, hfirst, herror⟩ := (hg a ha).unmet error h
      exact ⟨key, cause, hfirst.append_left (hf.met a ha), herror⟩
  same e' htag hsame := by
    obtain ⟨hfirst, hrest⟩ := List.forall_mem_append.mp hsame
    simp only [hf.same e' htag hfirst]
    cases ha : f e with
    | error error => rfl
    | ok a => exact (hg a ha).same e' htag hrest

theorem Obeys.map (hf : Obeys f e demands) (g : α → β) : Obeys (fun e => g <$> f e) e demands := by
  have h := hf.bind fun a _ => Obeys.pure (g a)
  rw [List.append_nil] at h
  exact h

theorem expect_obeys {t : Topic} (htag : e.tag = t.tag) : Obeys (·.expect t) e [] where
  met _ _ := List.forall_mem_nil _
  unmet _ h := by
    rw [Event.expect, if_pos htag] at h
    cases h
  same e' htag' _ := by rw [Event.expect, Event.expect, htag']

/-- If it fails it names the attribute. -/
inductive Blames (key : String) : Decoded α → Prop where
  | ok (a : α) : Blames key (.ok a)
  | error (cause : DecodeError.Cause) : Blames key (.error (.attribute key cause))

section Blame

variable {key : String} {x : Decoded α}

theorem Blames.cause (h : Blames key x) {error : DecodeError} (hx : x = .error error) :
    ∃ cause, error = .attribute key cause := by
  subst hx
  cases h with
  | error cause => exact ⟨cause, rfl⟩

theorem Blames.bind {g : α → Decoded β} (h : Blames key x) (hg : ∀ a, Blames key (g a)) :
    Blames key (x >>= g) := by
  cases h with
  | ok a => exact hg a
  | error cause => exact .error cause

theorem Blames.map (h : Blames key x) (g : α → β) : Blames key (g <$> x) := by
  cases h with
  | ok a => exact .ok (g a)
  | error cause => exact .error cause

theorem blames_mapM {g : α → Decoded β} (hg : ∀ a, Blames key (g a)) (as : List α) :
    Blames key (as.mapM g) := by
  induction as with
  | nil => exact .ok []
  | cons a as ih =>
    rw [List.mapM_cons]
    exact (hg a).bind fun b => ih.bind fun bs => .ok (b :: bs)

/-- A step for one demand. -/
theorem obeys_of_ok_iff {d : Demand} (hok : (∃ a, f e = .ok a) ↔ d.Met e.attribute?)
    (hblames : Blames d.key (f e))
    (hsame : ∀ e' : Event, d.Varied e.attribute? e'.attribute? →
      d.Met e.attribute? ∨ e'.attribute? d.key = e.attribute? d.key → f e' = f e) :
    Obeys f e [d] where
  met a ha := List.forall_mem_singleton.mpr (hok.mp ⟨a, ha⟩)
  unmet error h := by
    obtain ⟨cause, rfl⟩ := hblames.cause h
    refine ⟨d.key, cause, firstUnmet_singleton fun hd => ?_, rfl⟩
    obtain ⟨a, ha⟩ := hok.mpr hd
    cases h.symm.trans ha
  same e' _ hboth := by
    obtain ⟨hvaried, heither⟩ := List.forall_mem_singleton.mp hboth
    exact hsame e' hvaried heither

/-- A step that ends here, whatever would be demanded behind. -/
theorem obeys_of_not_met {d : Demand} (h : ¬ d.Met e.attribute?) (cause : DecodeError.Cause)
    (demands : List Demand) :
    Obeys (fun _ => (.error (.attribute d.key cause) : Decoded α)) e (d :: demands) where
  met := nofun
  unmet _ herror :=
    ⟨d.key, cause, (firstUnmet_singleton h).append_right demands, (Except.error.inj herror).symm⟩
  same _ _ _ := rfl

end Blame

end Decode

end BlockFeed
