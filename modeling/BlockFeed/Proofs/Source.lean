import BlockFeed.Proofs.Event.Text
import BlockFeed.Proofs.Text.Blank
import BlockFeed.Proofs.Text.Utf8
import BlockFeed.Source

/-! What a source gives call by call. From the texts of batches on lines of their own it gives the
batches, and then nothing more. -/

namespace BlockFeed

open Text (isBlank trimChars)

namespace Source

/-- The answers to so many calls one after another. -/
def answers : Nat → Source → List (Option (Except SourceError Batch))
  | 0, _ => []
  | n + 1, s => (next s).1 :: answers n (next s).2

theorem splitLine_feed {line : List UInt8} (h : 0x0A ∉ line) (rest : List UInt8) :
    splitLine (line ++ 0x0A :: rest) = (line ++ [0x0A], rest) := by
  induction line with
  | nil => rfl
  | cons b line ih =>
    have hb : b ≠ 0x0A := fun heq => h (heq ▸ List.mem_cons_self)
    have hline : 0x0A ∉ line := fun hmem => h (List.mem_cons_of_mem b hmem)
    rw [List.cons_append, splitLine, if_neg hb, ih hline]
    rfl

theorem splitLine_last {line : List UInt8} (h : 0x0A ∉ line) : splitLine line = (line, []) := by
  induction line with
  | nil => rfl
  | cons b line ih =>
    have hb : b ≠ 0x0A := fun heq => h (heq ▸ List.mem_cons_self)
    have hline : 0x0A ∉ line := fun hmem => h (List.mem_cons_of_mem b hmem)
    rw [splitLine, if_neg hb, ih hline]

theorem next_end (line : Nat) : next ⟨[], line⟩ = (none, ⟨[], line⟩) := by
  rw [next, if_pos rfl]

theorem answers_end (n line : Nat) : answers n ⟨[], line⟩ = List.replicate n none := by
  induction n with
  | zero => rfl
  | succ n ih => rw [answers, next_end, ih, List.replicate_succ]

theorem next_line {bytes rest : List UInt8} {text : String} {line : Nat}
    {result : Except SourceError Batch} (hne : bytes ≠ [])
    (hsplit : splitLine bytes = (Text.Utf8.encode text, rest))
    (hread : readText (line + 1) text.toList = some result) :
    next ⟨bytes, line⟩ = (some result, ⟨rest, line + 1⟩) := by
  have hdecode : Text.Utf8.decode (Text.Utf8.encode text) = .ok text.toList :=
    Text.Utf8.decode_encode text
  rw [next, if_neg hne]
  simp only [hsplit, hdecode, hread]

theorem encode_append (s t : String) :
    Text.Utf8.encode (s ++ t) = Text.Utf8.encode s ++ Text.Utf8.encode t := by
  rw [Text.Utf8.encode, String.toList_append, List.flatMap_append]
  rfl

theorem readText_text (b : Batch) (line : Nat) {blanks : String}
    (hblank : ∀ c ∈ blanks.toList, isBlank c = true) :
    readText line (b.text ++ blanks).toList = some (.ok b) := by
  obtain ⟨-, inner, hinner⟩ := b.text_line
  have htrim : trimChars (b.text ++ blanks).toList = b.text.toList := by
    rw [String.toList_append]
    refine Text.trimChars_append ?_ ?_ hblank
    · rw [hinner]
      rintro c ⟨⟩
      rfl
    · rw [hinner, List.getLast?_append]
      rintro c ⟨⟩
      rfl
  have hread : Batch.ofText? (String.ofList b.text.toList) = .ok b := by
    rw [String.ofList_toList, b.ofText_text]
  rw [readText, htrim]
  split
  · rename_i hnil
    rw [hinner] at hnil
    cases hnil
  · rw [hread]
    rfl

theorem no_feed_text (b : Batch) : (0x0A : UInt8) ∉ Text.Utf8.encode b.text := by
  intro hmem
  have hchar := Text.Utf8.ascii_of_mem_encode hmem (by decide)
  have hvisible := b.text_line.1 _ hchar
  revert hvisible
  decide

theorem encode_text_ne_nil (b : Batch) (rest : List UInt8) :
    Text.Utf8.encode b.text ++ rest ≠ [] := by
  obtain ⟨-, inner, hinner⟩ := b.text_line
  rw [Text.Utf8.encode, hinner]
  exact List.cons_ne_nil _ _

/-- Texts of batches joined by line feeds: as many calls give the batches in their order, and no
call after them gives anything. -/
theorem answers_joined (batches : List Batch) (more : Nat) :
    answers (batches.length + more)
        (ofOctets (Text.Utf8.encode ("\n".intercalate (batches.map Batch.text)))) =
      (batches.map fun b => some (.ok b)) ++ List.replicate more none := by
  suffices hline : ∀ line, answers (batches.length + more)
      ⟨Text.Utf8.encode ("\n".intercalate (batches.map Batch.text)), line⟩ =
        (batches.map fun b => some (.ok b)) ++ List.replicate more none from hline 0
  induction batches with
  | nil =>
    intro line
    rw [List.length_nil, Nat.zero_add, List.map_nil, String.intercalate_nil]
    exact answers_end more line
  | cons b batches ih =>
    intro line
    have hcount : (b :: batches).length + more = batches.length + more + 1 := by
      rw [List.length_cons]
      omega
    rw [hcount, answers]
    cases batches with
    | nil =>
      have hblank : ∀ c ∈ "".toList, isBlank c = true := by simp
      have hsplit : splitLine (Text.Utf8.encode b.text) = (Text.Utf8.encode (b.text ++ ""), []) := by
        rw [String.append_empty, splitLine_last (no_feed_text b)]
      have hne : Text.Utf8.encode b.text ≠ [] := by simpa using encode_text_ne_nil b []
      rw [List.map_cons, List.map_nil, String.intercalate_singleton,
        next_line hne hsplit (readText_text b (line + 1) hblank)]
      exact congrArg (some (.ok b) :: ·) (ih (line + 1))
    | cons c batches =>
      have hblank : ∀ c ∈ "\n".toList, isBlank c = true := by simp [isBlank]
      have hfeed : Text.Utf8.encode "\n" = [0x0A] := by decide
      generalize hrest : "\n".intercalate ((c :: batches).map Batch.text) = rest at ih
      have hjoined : "\n".intercalate ((b :: c :: batches).map Batch.text) = b.text ++ "\n" ++ rest := by
        rw [← hrest, List.map_cons, List.map_cons, String.intercalate_cons_cons]
      have hbytes : Text.Utf8.encode (b.text ++ "\n" ++ rest) =
          Text.Utf8.encode b.text ++ 0x0A :: Text.Utf8.encode rest := by
        rw [encode_append, encode_append, hfeed, List.append_assoc]
        rfl
      have hsplit : splitLine (Text.Utf8.encode (b.text ++ "\n" ++ rest)) =
          (Text.Utf8.encode (b.text ++ "\n"), Text.Utf8.encode rest) := by
        rw [hbytes, splitLine_feed (no_feed_text b), encode_append, hfeed]
      have hne : Text.Utf8.encode (b.text ++ "\n" ++ rest) ≠ [] := by
        rw [hbytes]
        exact encode_text_ne_nil b _
      rw [hjoined, next_line hne hsplit (readText_text b (line + 1) hblank)]
      exact congrArg (some (.ok b) :: ·) (ih (line + 1))

end Source

end BlockFeed
