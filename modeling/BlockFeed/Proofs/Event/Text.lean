import BlockFeed.Event.Text
import BlockFeed.Proofs.Json.Numeral
import BlockFeed.Proofs.Json.Printing
import BlockFeed.Proofs.Json.Reading

/-! The format of batches. The text of a batch is in the format, and is read as the batch. -/

namespace BlockFeed

open Json (Node Reader Shape Prints PrintsItems PrintsMembers maxDepth)
open Json.Reader (Follows string_follows bool_follows)
open Json.RecordReader

/-- An integer of 64 bits is written by its digits. -/
def Json.Shape.word : Shape UInt64 := fun n w => n = .number ⟨false, Nat.toDigits 10 w.toNat, [], none⟩

theorem Json.Reader.word_follows (k : Nat) : Reader.word.Follows k .word := by
  rintro n w rfl depth -
  have hmax : w.toNat ≤ Json.Numeral.maxNatural := Nat.le_of_lt_succ w.toNat_lt
  rw [Reader.word, Json.Numeral.toNumber_toDigits hmax]
  simp only [bind, Except.bind, UInt64.ofNat_toNat]

def Attribute.format : Shape Attribute := .record id fun get a =>
  get.Has "key" .string a.key ∧ get.Has "value" .string a.value ∧
  get.HasOr "index" .bool false a.index

def Event.format : Shape Event := .record id fun get e =>
  get.Has "type" .string e.tag ∧ get.HasOr "attributes" (.list Attribute.format) [] e.attributes

def Batch.format : Shape Batch := .record id fun get b =>
  get.Has "height" .word b.height ∧ get.HasOr "events" (.list Event.format) [] b.events

section Reading

theorem Attribute.follows_format : Attribute.reader.Follows 1 Attribute.format := by
  refine follows (renames_id rfl) ?_ _
  rintro get a ⟨hkey, hvalue, hindex⟩
  exact (((required_reads (string_follows 0) hkey).map Attribute.mk).seq
    (required_reads (string_follows 0) hvalue)).seq (defaulted_reads (bool_follows 0) hindex)

theorem Event.follows_format : Event.reader.Follows 3 Event.format := by
  refine follows (renames_id rfl) ?_ _
  rintro get e ⟨htag, hattributes⟩
  exact ((required_reads (string_follows 2) htag).map Event.mk).seq
    (defaulted_reads Attribute.follows_format.list hattributes)

theorem Batch.follows_format : Batch.reader.Follows 5 Batch.format := by
  refine follows (renames_id rfl) ?_ _
  rintro get b ⟨hheight, hevents⟩
  exact ((required_reads (Reader.word_follows 4) hheight).map Batch.mk).seq
    (defaulted_reads Event.follows_format.list hevents)

theorem Batch.ofText_format {n : Node} {text : String} {b : Batch} (ht : n.IsText text)
    (hb : Batch.format n b) : Batch.ofText? text = .ok b := by
  rw [Batch.ofText?, Reader.run_text _ ht]
  exact Batch.follows_format n b hb maxDepth (by decide)

end Reading

section Printing

theorem printed_list {α : Type} {write : α → Json.Value} {s : Shape α}
    (h : ∀ a, ∃ n, Prints (write a) n ∧ s n a) (as : List α) :
    ∃ items, PrintsItems (as.map write) items ∧ List.Forall₂ s items as := by
  induction as with
  | nil => exact ⟨[], .nil, .nil⟩
  | cons a as ih =>
    obtain ⟨n, hprints, hs⟩ := h a
    obtain ⟨items, hrest, hall⟩ := ih
    exact ⟨n :: items, .cons hprints hrest, .cons hs hall⟩

theorem Attribute.printed (a : Attribute) : ∃ n, Prints a.toJson n ∧ Attribute.format n a := by
  have hmembers := PrintsMembers.cons "key" (.string a.key)
    (.cons "value" (.string a.value) (.cons "index" (.bool a.index) .nil))
  refine ⟨_, .object hmembers, _, ⟨_, rfl, hmembers.whole, by simp [Shape.renamed], rfl⟩, ?_⟩
  exact ⟨⟨_, rfl, rfl⟩, ⟨_, rfl, rfl⟩, .inr ⟨_, rfl, rfl⟩⟩

theorem Event.printed (e : Event) : ∃ n, Prints e.toJson n ∧ Event.format n e := by
  obtain ⟨items, hprints, hattributes⟩ := printed_list Attribute.printed e.attributes
  have hmembers := PrintsMembers.cons "type" (.string e.tag)
    (.cons "attributes" (.list hprints) .nil)
  refine ⟨_, .object hmembers, _, ⟨_, rfl, hmembers.whole, by simp [Shape.renamed], rfl⟩, ?_⟩
  exact ⟨⟨_, rfl, rfl⟩, .inr ⟨_, rfl, items, rfl, hattributes⟩⟩

theorem Batch.printed (b : Batch) : ∃ n, Prints b.toJson n ∧ Batch.format n b := by
  obtain ⟨items, hprints, hevents⟩ := printed_list Event.printed b.events
  have hmembers := PrintsMembers.cons "height" (.natural b.height.toNat)
    (.cons "events" (.list hprints) .nil)
  refine ⟨_, .object hmembers, _, ⟨_, rfl, hmembers.whole, by simp [Shape.renamed], rfl⟩, ?_⟩
  exact ⟨⟨_, rfl, rfl⟩, .inr ⟨_, rfl, items, rfl, hevents⟩⟩

end Printing

theorem Batch.ofText_text (b : Batch) : Batch.ofText? b.text = .ok b := by
  obtain ⟨n, hprints, hformat⟩ := b.printed
  exact Batch.ofText_format hprints.isText hformat

/-- The text of a batch is one line without blanks at its ends. -/
theorem Batch.text_line (b : Batch) : Json.Visible b.text.toList ∧
    ∃ inner, b.text.toList = '{' :: inner ++ ['}'] := by
  obtain ⟨n, hprints, -⟩ := b.printed
  have htext : b.text.toList = b.toJson.chars := String.toList_ofList
  rw [htext]
  exact ⟨hprints.visible, _, rfl⟩

end BlockFeed
