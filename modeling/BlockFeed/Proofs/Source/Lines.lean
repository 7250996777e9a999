import BlockFeed.Proofs.Source
import BlockFeed.Proofs.Text.Decoded
import Mathlib.Data.List.SplitBy

/-! A stream as its physical lines. One call takes off the blank lines in front and one line more,
whatever that line holds, so that many calls go through the lines one by one. -/

namespace BlockFeed.Source

open Text (isBlank)
open Text.Utf8 (encode decode)

/-- The physical lines, each with the line feed that ends it; the last one may have none. -/
def lines (bytes : List UInt8) : List (List UInt8) := bytes.splitBy fun b _ => b != 0x0A

theorem splitLine_append (bytes : List UInt8) :
    (splitLine bytes).1 ++ (splitLine bytes).2 = bytes := by
  induction bytes with
  | nil => rfl
  | cons b bytes ih =>
    rw [splitLine]
    split
    · rfl
    · exact congrArg (b :: ·) ih

theorem splitLine_ne_nil {bytes : List UInt8} (h : bytes ≠ []) : (splitLine bytes).1 ≠ [] := by
  obtain ⟨b, bytes, rfl⟩ := List.exists_cons_of_ne_nil h
  rw [splitLine]
  split <;> exact List.cons_ne_nil _ _

/-- A line feed is the last octet of its line. -/
theorem isChain_splitLine (bytes : List UInt8) :
    (splitLine bytes).1.IsChain fun b _ => (b != 0x0A) = true := by
  induction bytes with
  | nil => exact List.isChain_nil
  | cons b bytes ih =>
    rw [splitLine]
    split
    · exact List.isChain_singleton b
    · rename_i hb
      exact ih.cons fun _ _ => by simpa using hb

/-- Only the last line has no line feed. -/
theorem getLast_splitLine {bytes : List UInt8} (h : (splitLine bytes).2 ≠ []) :
    (splitLine bytes).1.getLast? = some 0x0A := by
  induction bytes with
  | nil => exact absurd rfl h
  | cons b bytes ih =>
    rw [splitLine] at h ⊢
    split
    · rename_i hb
      rw [hb]
      rfl
    · rename_i hb
      rw [if_neg hb] at h
      rw [List.getLast?_cons, ih h]
      rfl

@[simp] theorem lines_nil : lines [] = [] := List.splitBy_nil _

theorem lines_cons {bytes : List UInt8} (h : bytes ≠ []) :
    lines bytes = (splitLine bytes).1 :: lines (splitLine bytes).2 := by
  have hfirst : lines (splitLine bytes).1 = [(splitLine bytes).1] :=
    List.splitBy_of_isChain (splitLine_ne_nil h) (isChain_splitLine bytes)
  have hcut : ∀ b ∈ (splitLine bytes).1.getLast?, ∀ b' ∈ (splitLine bytes).2.head?,
      (b != 0x0A) = false := by
    intro b hb b' hb'
    have hmore : (splitLine bytes).2 ≠ [] := by
      intro hnil
      rw [hnil] at hb'
      cases hb'
    rw [getLast_splitLine hmore] at hb
    cases hb
    rfl
  calc lines bytes = lines ((splitLine bytes).1 ++ (splitLine bytes).2) := by
        rw [splitLine_append]
    _ = lines (splitLine bytes).1 ++ lines (splitLine bytes).2 := List.splitBy_append hcut
    _ = (splitLine bytes).1 :: lines (splitLine bytes).2 := by
        rw [hfirst, List.singleton_append]

example : lines [0x0A, 0x78, 0x0D, 0x0A, 0x79] = [[0x0A], [0x78, 0x0D, 0x0A], [0x79]] := by decide

def IsText (line : List UInt8) : Prop := ∃ text, encode text = line

def IsBlank (line : List UInt8) : Prop :=
  ∃ text, encode text = line ∧ ∀ c ∈ text.toList, isBlank c = true

theorem IsBlank.isText {line : List UInt8} (h : IsBlank line) : IsText line := by
  obtain ⟨text, htext, -⟩ := h
  exact ⟨text, htext⟩

section Decoding

variable {line : List UInt8} {cs : List Char} {fault : Text.Utf8.Fault}

theorem isText_of_decode (h : decode line = .ok cs) : IsText line :=
  ⟨String.ofList cs, Text.Utf8.decode_eq_ok_iff.mp h⟩

theorem not_isText_of_decode (h : decode line = .error fault) : ¬ IsText line := by
  rintro ⟨text, rfl⟩
  rw [Text.Utf8.decode_encode] at h
  cases h

theorem isBlank_iff_of_decode (h : decode line = .ok cs) :
    IsBlank line ↔ ∀ c ∈ cs, isBlank c = true := by
  constructor
  · rintro ⟨text, rfl, hblank⟩
    rw [Text.Utf8.decode_encode] at h
    cases h
    exact hblank
  · intro hblank
    refine ⟨String.ofList cs, Text.Utf8.decode_eq_ok_iff.mp h, ?_⟩
    rwa [String.toList_ofList]

theorem not_isBlank_of_decode (h : decode line = .error fault) : ¬ IsBlank line :=
  fun hblank => not_isText_of_decode h hblank.isText

instance : DecidablePred IsText := fun line =>
  match h : decode line with
  | .ok _ => .isTrue (isText_of_decode h)
  | .error _ => .isFalse (not_isText_of_decode h)

instance : DecidablePred IsBlank := fun line =>
  match h : decode line with
  | .ok cs => decidable_of_iff (cs.all isBlank = true) <| by
      rw [isBlank_iff_of_decode h, List.all_eq_true]
  | .error _ => .isFalse (not_isBlank_of_decode h)

end Decoding

/-- What a line holds that counts as the line of this number. -/
inductive Gives (number : Nat) (line : List UInt8) : Except SourceError Batch → Prop
  | batch {text b} (htext : encode text = line) (hread : Batch.ofText? (Text.trim text) = .ok b) :
      Gives number line (.ok b)
  | malformed {text fault} (htext : encode text = line)
      (hread : Batch.ofText? (Text.trim text) = .error fault) :
      Gives number line (.error (.malformed number fault))
  | notText {fault} (htext : ¬ IsText line) (hfault : decode line = .error fault) :
      Gives number line (.error (.notText fault))

/-- What one call does. Blank lines are taken off and counted; the first other line is taken off,
counted if it is text, and answered with what it holds. -/
inductive Call (s : Source) : Option (Except SourceError Batch) → Source → Prop
  | answer {blanks line result s'} (hlines : lines s.rest = blanks ++ line :: lines s'.rest)
      (hblanks : ∀ b ∈ blanks, IsBlank b) (hline : ¬ IsBlank line)
      (hcount : s'.line = s.line + (blanks ++ [line]).countP (IsText ·))
      (hgives : Gives s'.line line result) : Call s (some result) s'
  | nothing {s'} (hblanks : ∀ b ∈ lines s.rest, IsBlank b) (hrest : s'.rest = []) : Call s none s'

theorem Call.cons {s s' : Source} {line : List UInt8} {result : Except SourceError Batch}
    (hlines : lines s.rest = line :: lines s'.rest) (hline : ¬ IsBlank line)
    (hcount : s'.line = s.line + [line].countP (IsText ·)) (hgives : Gives s'.line line result) :
    Call s (some result) s' := by
  have hfront : lines s.rest = [] ++ line :: lines s'.rest := hlines
  exact .answer hfront (fun b hb => absurd hb List.not_mem_nil) hline hcount hgives

/-- A blank line in front is one more that is taken off. -/
theorem Call.cons_blank {s s' : Source} {line rest : List UInt8}
    {answer : Option (Except SourceError Batch)} (hline : lines s.rest = line :: lines rest)
    (hblank : IsBlank line) (h : Call ⟨rest, s.line + 1⟩ answer s') : Call s answer s' := by
  cases h with
  | @answer blanks own result _ hlines hblanks hown hcount hgives =>
    have hfront : lines s.rest = line :: blanks ++ own :: lines s'.rest := by
      rw [hline, hlines, List.cons_append]
    refine .answer hfront (List.forall_mem_cons.mpr ⟨hblank, hblanks⟩) hown ?_ hgives
    rw [hcount, List.cons_append, List.countP_cons_of_pos (by simpa using hblank.isText)]
    exact Nat.add_right_comm s.line 1 _
  | nothing hblanks hrest =>
    refine .nothing ?_ hrest
    rw [hline]
    exact List.forall_mem_cons.mpr ⟨hblank, hblanks⟩

theorem readText_eq_none_iff {number : Nat} {cs : List Char} :
    readText number cs = none ↔ ∀ c ∈ cs, isBlank c = true := by
  rw [← Text.trimChars_eq_nil_iff, readText]
  split
  · rename_i hnil
    exact iff_of_true rfl hnil
  · rename_i hne
    exact iff_of_false (fun h => by cases h) hne

theorem readText_eq_some {number : Nat} {cs : List Char} {result : Except SourceError Batch}
    (h : readText number cs = some result) :
    result = (Batch.ofText? (String.ofList (Text.trimChars cs))).mapError (.malformed number) := by
  rw [readText] at h
  split at h
  · cases h
  · exact (Option.some.inj h).symm

theorem gives_of_readText {number : Nat} {line : List UInt8} {cs : List Char}
    {result : Except SourceError Batch} (hdecode : decode line = .ok cs)
    (hread : readText number cs = some result) : Gives number line result := by
  have htext : encode (String.ofList cs) = line := Text.Utf8.decode_eq_ok_iff.mp hdecode
  have htrim : Text.trim (String.ofList cs) = String.ofList (Text.trimChars cs) := by
    rw [Text.trim, String.toList_ofList]
  rw [readText_eq_some hread, ← htrim]
  cases hparse : Batch.ofText? (Text.trim (String.ofList cs)) with
  | ok b => exact .batch htext hparse
  | error fault => exact .malformed htext hparse

theorem next_call (s : Source) : Call s (next s).1 (next s).2 := by
  fun_induction next s with
  | case1 s hnil =>
    refine .nothing ?_ hnil
    rw [hnil, lines_nil]
    exact fun b hb => absurd hb List.not_mem_nil
  | case2 s hne fault hdecode =>
    have htext : ¬ IsText (splitLine s.rest).1 := not_isText_of_decode hdecode
    refine .cons (lines_cons hne) (not_isBlank_of_decode hdecode) ?_ (.notText htext hdecode)
    simp [htext]
  | case3 s hne cs hdecode result hread =>
    have hline : ¬ IsBlank (splitLine s.rest).1 := by
      intro hblank
      have hnone : readText (s.line + 1) cs = none :=
        readText_eq_none_iff.mpr ((isBlank_iff_of_decode hdecode).mp hblank)
      rw [hread] at hnone
      cases hnone
    refine .cons (lines_cons hne) hline ?_ (gives_of_readText hdecode hread)
    simp [isText_of_decode hdecode]
  | case4 s hne cs hdecode hread ih =>
    have hblank : IsBlank (splitLine s.rest).1 :=
      (isBlank_iff_of_decode hdecode).mpr (readText_eq_none_iff.mp hread)
    exact ih.cons_blank (lines_cons hne) hblank

/-- What is left after so many calls. -/
def after : Nat → Source → Source
  | 0, s => s
  | n + 1, s => after n (next s).2

/-- The lines that are answered. -/
def spoken (lines : List (List UInt8)) : List (List UInt8) := lines.filter fun line => ¬ IsBlank line

section Calls

variable {blanks rest : List (List UInt8)} {line : List UInt8}

theorem spoken_eq_nil (h : ∀ b ∈ blanks, IsBlank b) : spoken blanks = [] :=
  List.filter_eq_nil_iff.mpr fun b hb => by simpa using h b hb

theorem spoken_append_cons (hblanks : ∀ b ∈ blanks, IsBlank b) (hline : ¬ IsBlank line) :
    spoken (blanks ++ line :: rest) = line :: spoken rest := by
  have hfront : (blanks.filter fun line => ¬ IsBlank line) = [] := spoken_eq_nil hblanks
  rw [spoken, List.filter_append, hfront, List.nil_append,
    List.filter_cons_of_pos (by simpa using hline)]
  rfl

theorem next_after_end (i number : Nat) : (next (after i ⟨[], number⟩)).1 = none := by
  induction i with
  | zero => rw [after, next_end]
  | succ i ih => rw [after, next_end, ih]

theorem exists_results (s : Source) :
    ∃ results, List.Forall₂ (fun line result => ∃ number, Gives number line result)
        (spoken (lines s.rest)) results ∧ ∀ i, (next (after i s)).1 = results[i]? := by
  have hcall := next_call s
  generalize hanswer : (next s).1 = answer, hleft : (next s).2 = s' at hcall
  cases hcall with
  | @answer blanks line result _ hlines hblanks hline hcount hgives =>
    have hlt : (lines s'.rest).length < (lines s.rest).length := by
      rw [hlines, List.length_append, List.length_cons]
      omega
    obtain ⟨results, hall, hanswers⟩ := exists_results s'
    refine ⟨result :: results, ?_, fun i => ?_⟩
    · rw [hlines, spoken_append_cons hblanks hline]
      exact .cons ⟨_, hgives⟩ hall
    · cases i with
      | zero => exact hanswer
      | succ i => rw [after, hleft, hanswers, List.getElem?_cons_succ]
  | nothing hblanks hrest =>
    refine ⟨[], ?_, fun i => ?_⟩
    · rw [spoken_eq_nil hblanks]
      exact .nil
    · cases i with
      | zero => exact hanswer
      | succ i =>
        obtain ⟨rest, number⟩ := s'
        cases hrest
        rw [after, hleft, next_after_end]
        rfl
  termination_by (lines s.rest).length

theorem exists_taken (i : Nat) (s : Source) :
    ∃ taken, lines s.rest = taken ++ lines (after i s).rest ∧
      spoken taken = (spoken (lines s.rest)).take i := by
  induction i generalizing s with
  | zero => exact ⟨[], rfl, rfl⟩
  | succ i ih =>
    have hcall := next_call s
    rw [after]
    generalize (next s).1 = answer, (next s).2 = s' at hcall ⊢
    obtain ⟨taken, hleft, htaken⟩ := ih s'
    cases hcall with
    | @answer blanks line _ _ hlines hblanks hline hcount hgives =>
      refine ⟨blanks ++ line :: taken, ?_, ?_⟩
      · rw [hlines, List.append_assoc, List.cons_append, ← hleft]
      · rw [hlines, spoken_append_cons hblanks hline, spoken_append_cons hblanks hline, htaken,
          List.take_succ_cons]
    | nothing hblanks hrest =>
      rw [hrest, lines_nil] at hleft
      have hend : lines (after i s').rest = [] := (List.append_eq_nil_iff.mp hleft.symm).2
      refine ⟨lines s.rest, ?_, ?_⟩
      · rw [hend, List.append_nil]
      · rw [spoken_eq_nil hblanks, List.take_nil]

end Calls

/-- The calls go through the lines. The lines that are not blank are answered one for one with what
they hold, and nothing is answered behind them. After `i` calls the first `i` of those lines are gone
with the blank ones among them, and a call takes its own line and the blank ones in front. -/
theorem calls_follow_lines (s : Source) :
    (∃ results, List.Forall₂ (fun line result => ∃ number, Gives number line result)
        (spoken (lines s.rest)) results ∧ ∀ i, (next (after i s)).1 = results[i]?) ∧
      ∀ i, (∃ taken, lines s.rest = taken ++ lines (after i s).rest ∧
          spoken taken = (spoken (lines s.rest)).take i) ∧
        Call (after i s) (next (after i s)).1 (next (after i s)).2 :=
  ⟨exists_results s, fun i => ⟨exists_taken i s, next_call (after i s)⟩⟩

end BlockFeed.Source
