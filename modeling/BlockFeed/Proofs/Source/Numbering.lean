import BlockFeed.Proofs.Source.Lines

/-! The number that a bad line is reported under. It is that of the physical line only as long as
every line in front is text. -/

namespace BlockFeed.Source

open Text.Utf8 (encode)

section Answers

variable {line own : List UInt8} {before later blanks rest : List (List UInt8)}
  {number : Nat} {result : Except SourceError Batch}

theorem Gives.malformed_iff {fault : Json.Fault} {counted : Nat} :
    Gives counted line (.error (.malformed number fault)) ↔ number = counted ∧
      ∃ text, encode text = line ∧ Batch.ofText? (Text.trim text) = .error fault := by
  constructor
  · rintro (_ | ⟨htext, hread⟩ | _)
    exact ⟨rfl, _, htext, hread⟩
  · rintro ⟨rfl, text, htext, hread⟩
    exact .malformed htext hread

theorem Gives.of_text {text : String} (h : Gives number line result) (htext : encode text = line) :
    result = (Batch.ofText? (Text.trim text)).mapError (.malformed number) := by
  cases h with
  | batch hown hread =>
    rw [← Text.Utf8.encode_injective (hown.trans htext.symm), hread]
    rfl
  | malformed hown hread =>
    rw [← Text.Utf8.encode_injective (hown.trans htext.symm), hread]
    rfl
  | notText hno _ => exact absurd ⟨text, htext⟩ hno

theorem countP_taken (p : List UInt8 → Bool) :
    (blanks ++ own :: rest ++ [line]).countP p =
      (blanks ++ [own]).countP p + (rest ++ [line]).countP p := by
  rw [← List.countP_append]
  simp

theorem counted_text {bytes : List UInt8} (h : IsText line) :
    (ofOctets bytes).line + (before ++ [line]).countP (IsText ·) = before.countP (IsText ·) + 1 := by
  rw [List.countP_append, List.countP_singleton, if_pos (decide_eq_true h)]
  exact Nat.zero_add _

/-- A line that is not blank is the first such line, or that one stands in front of it. -/
theorem cut_cases (hblanks : ∀ b ∈ blanks, IsBlank b) (hline : ¬ IsBlank line)
    (h : blanks ++ own :: rest = before ++ line :: later) :
    (blanks = before ∧ own = line) ∨
      ∃ more, before = blanks ++ own :: more ∧ rest = more ++ line :: later := by
  rcases List.append_eq_append_iff.mp h with ⟨more, hbefore, hrest⟩ | ⟨more, hfront, hrest⟩
  · cases more with
    | nil =>
      rw [List.append_nil] at hbefore
      exact .inl ⟨hbefore.symm, (List.cons.inj hrest).1⟩
    | cons first more =>
      obtain ⟨rfl, hmore⟩ := List.cons.inj hrest
      exact .inr ⟨more, hbefore, hmore⟩
  · cases more with
    | nil =>
      rw [List.append_nil] at hfront
      exact .inl ⟨hfront, (List.cons.inj hrest).1.symm⟩
    | cons first more =>
      obtain ⟨rfl, -⟩ := List.cons.inj hrest
      exact absurd (hblanks line (hfront ▸ List.mem_append_right before List.mem_cons_self)) hline

/-- Whatever is answered is what a line gives, the line behind as many others as there were calls. -/
theorem exists_line (i : Nat) (s : Source) (h : (next (after i s)).1 = some result) :
    ∃ before line later, lines s.rest = before ++ line :: later ∧ (spoken before).length = i ∧
      ¬ IsBlank line ∧ Gives (s.line + (before ++ [line]).countP (IsText ·)) line result := by
  induction i generalizing s with
  | zero =>
    have hcall := next_call s
    rw [after] at h
    rw [h] at hcall
    cases hcall with
    | @answer blanks line _ _ hlines hblanks hline hcount hgives =>
      exact ⟨blanks, line, _, hlines, by rw [spoken_eq_nil hblanks]; rfl, hline, hcount ▸ hgives⟩
  | succ i ih =>
    have hcall := next_call s
    rw [after] at h
    generalize (next s).1 = answer, (next s).2 = s' at hcall h
    obtain ⟨before, line, later, hlines', hbefore, hline, hgives⟩ := ih s' h
    cases hcall with
    | @answer blanks own _ _ hlines hblanks hown hcount _ =>
      refine ⟨blanks ++ own :: before, line, later, ?_, ?_, hline, ?_⟩
      · rw [hlines, hlines', List.append_assoc, List.cons_append]
      · rw [spoken_append_cons hblanks hown, List.length_cons, hbefore]
      · rw [countP_taken, ← Nat.add_assoc, ← hcount]
        exact hgives
    | nothing _ hrest =>
      rw [hrest, lines_nil] at hlines'
      exact absurd hlines'.symm (by simp)

/-- Every line that is not blank is answered, after as many calls as such lines are in front of it. -/
theorem exists_answer (before : List (List UInt8)) (s : Source)
    (hlines : lines s.rest = before ++ line :: later) (hline : ¬ IsBlank line) :
    ∃ result, (next (after (spoken before).length s)).1 = some result ∧
      Gives (s.line + (before ++ [line]).countP (IsText ·)) line result := by
  have hcall := next_call s
  generalize hanswer : (next s).1 = answer, hleft : (next s).2 = s' at hcall
  cases hcall with
  | @answer blanks own result _ hown hblanks hspoken hcount hgives =>
    rcases cut_cases hblanks hline (hown.symm.trans hlines) with ⟨rfl, rfl⟩ | ⟨more, rfl, hmore⟩
    · refine ⟨result, ?_, hcount ▸ hgives⟩
      rw [spoken_eq_nil hblanks]
      exact hanswer
    · obtain ⟨result, hresult, hgives'⟩ := exists_answer more s' hmore hline
      refine ⟨result, ?_, ?_⟩
      · rw [spoken_append_cons hblanks hspoken, List.length_cons, after, hleft]
        exact hresult
      · rw [countP_taken, ← Nat.add_assoc, ← hcount]
        exact hgives'
  | nothing hblanks _ =>
    rw [hlines] at hblanks
    exact absurd (hblanks line (by simp)) hline
  termination_by before.length

end Answers

/-- A line that does not parse is reported, and under one more than the lines of text in front of it:
under its own number exactly when all those lines are text. -/
theorem malformed_number (bytes : List UInt8) (i number : Nat) (fault : Json.Fault) :
    (next (after i (ofOctets bytes))).1 = some (.error (.malformed number fault)) ↔
      ∃ before line later, lines bytes = before ++ line :: later ∧ (spoken before).length = i ∧
        ¬ IsBlank line ∧
        (∃ text, encode text = line ∧ Batch.ofText? (Text.trim text) = .error fault) ∧
        number = before.countP (IsText ·) + 1 ∧
        (number = before.length + 1 ↔ ∀ b ∈ before, IsText b) := by
  constructor
  · intro h
    obtain ⟨before, line, later, hlines, hbefore, hline, hgives⟩ := exists_line i (ofOctets bytes) h
    obtain ⟨hcounted, text, htext, hread⟩ := Gives.malformed_iff.mp hgives
    have hnumber : number = before.countP (IsText ·) + 1 := hcounted.trans (counted_text ⟨text, htext⟩)
    refine ⟨before, line, later, hlines, hbefore, hline, ⟨text, htext, hread⟩, hnumber, ?_⟩
    rw [hnumber, Nat.add_right_cancel_iff, List.countP_eq_length]
    simp
  · rintro ⟨before, line, later, hlines, rfl, hline, ⟨text, htext, hread⟩, hnumber, -⟩
    obtain ⟨result, hresult, hgives⟩ := exists_answer before (ofOctets bytes) hlines hline
    have hbad := hgives.of_text htext
    rw [hread, counted_text ⟨text, htext⟩, ← hnumber] at hbad
    rw [hresult, hbad]
    rfl

/-- Behind a line that is not text, the second line of the stream is reported as the first. -/
theorem malformed_number_behind_notText :
    (next (after 1 (ofOctets [0xFF, 0x0A, 0x78, 0x0A]))).1 =
        some (.error (.malformed 1 .expectedValue)) ∧
      lines [0xFF, 0x0A, 0x78, 0x0A] = [[0xFF, 0x0A], [0x78, 0x0A]] ∧ ¬ IsText [0xFF, 0x0A] ∧
      Batch.ofText? (Text.trim "x\n") = .error .expectedValue ∧ encode "x\n" = [0x78, 0x0A] :=
  ⟨by decide +kernel, by decide, by decide, by decide +kernel, by decide⟩

end BlockFeed.Source
