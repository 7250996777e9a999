import BlockFeed.Text.Blank
import Mathlib.Data.List.TakeWhile

/-! Trimming. What neither starts nor ends in a blank is kept, and blanks behind it go. -/

namespace BlockFeed.Text

theorem dropWhile_head {cs : List Char} (h : ∀ c ∈ cs.head?, isBlank c = false) :
    cs.dropWhile isBlank = cs := by
  cases cs with
  | nil => rfl
  | cons c cs => exact List.dropWhile_cons_of_neg (by simp [h c rfl])

theorem trimChars_append {cs blanks : List Char} (hfirst : ∀ c ∈ cs.head?, isBlank c = false)
    (hlast : ∀ c ∈ cs.getLast?, isBlank c = false) (hblank : ∀ c ∈ blanks, isBlank c = true) :
    trimChars (cs ++ blanks) = cs := by
  have hall : ∀ c ∈ blanks.reverse, isBlank c = true := by simpa using hblank
  have hback : cs.reverse.dropWhile isBlank = cs.reverse :=
    dropWhile_head (by rwa [List.head?_reverse])
  cases cs with
  | nil =>
    have hgone : blanks.dropWhile isBlank = [] := List.dropWhile_eq_nil_iff.mpr hblank
    rw [List.nil_append, trimChars, hgone]
    rfl
  | cons c cs =>
    have hfront : (c :: cs ++ blanks).dropWhile isBlank = c :: cs ++ blanks := dropWhile_head hfirst
    rw [trimChars, hfront, List.reverse_append, List.dropWhile_append_of_pos hall, hback,
      List.reverse_reverse]

theorem trimChars_eq_nil_iff {cs : List Char} : trimChars cs = [] ↔ ∀ c ∈ cs, isBlank c = true := by
  constructor
  · intro h
    by_contra hcs
    obtain ⟨c, rest, hfront⟩ :=
      List.exists_cons_of_ne_nil (fun hnil => hcs (List.dropWhile_eq_nil_iff.mp hnil))
    have hfirst : ¬ isBlank c = true := by
      have hhead := List.head?_dropWhile_not isBlank cs
      rw [hfront] at hhead
      simpa using hhead
    rw [trimChars, hfront, List.reverse_eq_nil_iff, List.dropWhile_eq_nil_iff] at h
    exact hfirst (h c (List.mem_reverse.mpr List.mem_cons_self))
  · intro h
    rw [trimChars, List.dropWhile_eq_nil_iff.mpr h]
    rfl

theorem trimChars_of_not_blank {cs : List Char} (h : ∀ c ∈ cs, isBlank c = false) :
    trimChars cs = cs := by
  have hnone : ∀ c ∈ ([] : List Char), isBlank c = true := by simp
  have htrim := trimChars_append (fun c hc => h c (List.mem_of_mem_head? hc))
    (fun c hc => h c (List.mem_of_mem_getLast? hc)) hnone
  rwa [List.append_nil] at htrim

end BlockFeed.Text
