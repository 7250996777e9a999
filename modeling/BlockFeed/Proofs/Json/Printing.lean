import BlockFeed.Proofs.Decimal
import BlockFeed.Proofs.Json.Tree
import Mathlib.Data.List.Basic

/-! The compact text of a value is a text of the value's tree. -/

namespace BlockFeed.Json

section Strings

theorem unit_escape : ∀ n < 0x20,
    Token.unit? '0' '0' (Value.hexDigit (n / 16)) (Value.hexDigit (n % 16)) = some n := by decide

/-- A character is escaped so that it is read back, before whatever follows. -/
theorem Body.escape_append {cs s : List Char} (h : Body cs s) (c : Char) :
    Body (Value.escape c ++ cs) (c :: s) := by
  by_cases hq : c = '"'
  · subst hq
    exact .escape rfl h
  by_cases hb : c = '\\'
  · subst hb
    exact .escape rfl h
  by_cases hlow : c.toNat < 0x20
  · by_cases hletter : c = '\x08' ∨ c = '\x0c' ∨ c = '\n' ∨ c = '\r' ∨ c = '\t'
    · rcases hletter with rfl | rfl | rfl | rfl | rfl <;> exact .escape rfl h
    · obtain ⟨h1, h2, h3, h4, h5⟩ : c ≠ '\x08' ∧ c ≠ '\x0c' ∧ c ≠ '\n' ∧ c ≠ '\r' ∧ c ≠ '\t' := by
        simpa only [not_or] using hletter
      have hunit := Body.unit (unit_escape c.toNat hlow) (.inl (by omega)) h
      rw [Char.ofNat_toNat] at hunit
      simpa [Value.escape, hq, hb, h1, h2, h3, h4, h5, hlow] using hunit
  · have hne : ∀ d : Char, d.toNat < 0x20 → c ≠ d := by
      rintro d hd rfl
      exact hlow hd
    have hplain := Body.plain hq hb (Nat.le_of_not_lt hlow) h
    simpa [Value.escape, hq, hb, hne '\x08' (by decide), hne '\x0c' (by decide),
      hne '\n' (by decide), hne '\r' (by decide), hne '\t' (by decide), hlow] using hplain

theorem body_escape (s : List Char) : Body (s.flatMap Value.escape) s := by
  induction s with
  | nil => exact .nil
  | cons c s ih => exact ih.escape_append c

theorem lexeme_stringChars (s : String) : Lexeme (Value.stringChars s) (.string (.ok s)) := by
  have hlexeme := Lexeme.string (body_escape s.toList)
  rw [String.ofList_toList] at hlexeme
  exact hlexeme

end Strings

section Integers

/-- The digits of a natural number are a numeral. -/
theorem unsignedText_toDigits (n : Nat) (negative : Bool) :
    UnsignedText (Nat.toDigits 10 n) ⟨negative, Nat.toDigits 10 n, [], none⟩ := by
  have hdigits : ∀ c ∈ Nat.toDigits 10 n, c.isDigit :=
    fun c hc => Nat.isDigit_of_mem_toDigits (by omega) (by omega) hc
  have hhead := Decimal.head_toDigits n
  have hzero : n = 0 → Nat.toDigits 10 n = ['0'] := by
    rintro rfl
    rfl
  cases hd : Nat.toDigits 10 n with
  | nil => exact absurd hd Nat.toDigits_ne_nil
  | cons first whole =>
    rw [hd] at hdigits hhead hzero
    have hsingle : first = '0' → whole = [] := by
      rintro rfl
      have hn : n = 0 := by
        by_contra hne
        exact hhead (by omega) rfl
      exact (List.cons.inj (hzero hn)).2
    have htext : UnsignedText (first :: (whole ++ ([] ++ []))) ⟨negative, first :: whole, [], none⟩ :=
      .intro (hdigits first List.mem_cons_self)
        (fun c hc => hdigits c (List.mem_cons_of_mem _ hc)) hsingle .none .none
    simpa using htext

theorem chars_natural (n : Nat) : (Value.number (.natural n)).chars = Nat.toDigits 10 n := by
  simp [Value.chars, Number.text, Nat.toString_eq_repr]

end Integers

mutual

/-- The tree of a value without broken numbers. -/
inductive Prints : Value → Node → Prop where
  | null : Prints .null .null
  | bool (b : Bool) : Prints (.bool b) (.bool b)
  | natural (n : Nat) : Prints (.number (.natural n)) (.number ⟨false, Nat.toDigits 10 n, [], none⟩)
  | string (s : String) : Prints (.string s) (.string (.ok s))
  | list {vs : List Value} {ns : List Node} (h : PrintsItems vs ns) :
      Prints (.list vs) (.list ns .closed)
  | object {ms : List (String × Value)} {ns : List (String × Node)} (h : PrintsMembers ms ns) :
      Prints (.object ms) (.object (Node.keyed ns) .closed)

inductive PrintsItems : List Value → List Node → Prop where
  | nil : PrintsItems [] []
  | cons {v : Value} {vs : List Value} {n : Node} {ns : List Node} (h : Prints v n)
      (hs : PrintsItems vs ns) : PrintsItems (v :: vs) (n :: ns)

inductive PrintsMembers : List (String × Value) → List (String × Node) → Prop where
  | nil : PrintsMembers [] []
  | cons (key : String) {v : Value} {ms : List (String × Value)} {n : Node}
      {ns : List (String × Node)} (h : Prints v n) (hs : PrintsMembers ms ns) :
      PrintsMembers ((key, v) :: ms) ((key, n) :: ns)

end

theorem Spelled.mark {c : Char} {t : Token} {cs : List Char} {ts : List Token} (hl : Lexeme [c] t)
    (ht : ∀ n, t ≠ .number n) (h : Spelled cs ts) : Spelled (c :: cs) (t :: ts) :=
  .token hl (fun ⟨n, hn⟩ => absurd hn (ht n)) h

theorem stops_cons {c : Char} (h : Token.extends c = false) (cs : List Char) : Stops (c :: cs) := by
  intro d hd
  obtain rfl : c = d := by simpa using hd
  exact h

theorem spelled_member (key : String) {v : Value} {n : Node} {cs : List Char} {ts : List Token}
    (h : Spelled (v.chars ++ cs) (n.tokens ++ ts)) :
    Spelled (Value.memberChars (key, v) ++ cs) (Node.memberToken (.ok key, n) ++ ts) := by
  have hkey := Spelled.token (lexeme_stringChars key) (fun ⟨_, hn⟩ => nomatch hn)
    (.mark .colon nofun h)
  simpa [Value.memberChars, Node.memberToken] using hkey

mutual

/-- The text of a value, before one that no numeral would go on with. -/
theorem Prints.spelled {v : Value} {n : Node} (h : Prints v n) {cs : List Char} {ts : List Token}
    (hs : Stops cs) (hrest : Spelled cs ts) : Spelled (v.chars ++ cs) (n.tokens ++ ts) :=
  match h with
  | .null => .token .null (fun ⟨_, hn⟩ => nomatch hn) hrest
  | .bool true => .token .true (fun ⟨_, hn⟩ => nomatch hn) hrest
  | .bool false => .token .false (fun ⟨_, hn⟩ => nomatch hn) hrest
  | .natural n => by
    have hlexeme : Lexeme (Nat.toDigits 10 n) (.number ⟨false, Nat.toDigits 10 n, [], none⟩) :=
      .number (unsignedText_toDigits n false) rfl
    rw [chars_natural]
    exact .token hlexeme (fun _ => hs) hrest
  | .string s => .token (lexeme_stringChars s) (fun ⟨_, hn⟩ => nomatch hn) hrest
  | .list h => by
    have hclose : Spelled (']' :: cs) (.closeList :: ts) := .mark .closeList nofun hrest
    have hitems := h.spelled (stops_cons rfl cs) hclose
    have hlist := Spelled.mark .openList nofun hitems
    simpa [Value.chars, Node.tokens] using hlist
  | .object h => by
    have hclose : Spelled ('}' :: cs) (.closeObject :: ts) := .mark .closeObject nofun hrest
    have hmembers := h.spelled (stops_cons rfl cs) hclose
    have hobject := Spelled.mark .openObject nofun hmembers
    simpa [Value.chars, Node.tokens] using hobject

theorem PrintsItems.spelled {vs : List Value} {ns : List Node} (h : PrintsItems vs ns)
    {cs : List Char} {ts : List Token} (hs : Stops cs) (hrest : Spelled cs ts) :
    Spelled (Value.itemsChars vs ++ cs) ((Node.itemTokens ns).tail ++ ts) :=
  match h with
  | .nil => hrest
  | .cons h .nil => by
    have hone := h.spelled hs hrest
    simpa [Value.itemsChars, Node.itemTokens] using hone
  | .cons h (.cons h' hs') => by
    have hmore := (PrintsItems.cons h' hs').spelled hs hrest
    have hone := h.spelled (stops_cons rfl _) (.mark .comma nofun hmore)
    simpa [Value.itemsChars, Node.itemTokens] using hone

theorem PrintsMembers.spelled {ms : List (String × Value)} {ns : List (String × Node)}
    (h : PrintsMembers ms ns) {cs : List Char} {ts : List Token} (hs : Stops cs)
    (hrest : Spelled cs ts) :
    Spelled (Value.membersChars ms ++ cs) ((Node.memberTokens (Node.keyed ns)).tail ++ ts) :=
  match h with
  | .nil => hrest
  | .cons key h .nil => by
    have hone := spelled_member key (h.spelled hs hrest)
    simpa [Value.membersChars, Node.keyed, Node.memberTokens] using hone
  | .cons key h (.cons key' h' hs') => by
    have hmore := (PrintsMembers.cons key' h' hs').spelled hs hrest
    have hone := spelled_member key (h.spelled (stops_cons rfl _) (.mark .comma nofun hmore))
    simpa [Value.membersChars, Node.keyed, Node.memberTokens] using hone

end

mutual

theorem Prints.whole {v : Value} {n : Node} (h : Prints v n) : n.Whole :=
  match h with
  | .null => .null
  | .bool b => .bool b
  | .natural _ => .number _
  | .string s => .string s
  | .list h => .list h.whole
  | .object h => .object h.whole

theorem PrintsItems.whole {vs : List Value} {ns : List Node} (h : PrintsItems vs ns) :
    ∀ n ∈ ns, n.Whole :=
  match h with
  | .nil => by simp
  | .cons h hs => by simpa using ⟨h.whole, hs.whole⟩

theorem PrintsMembers.whole {ms : List (String × Value)} {ns : List (String × Node)}
    (h : PrintsMembers ms ns) : ∀ m ∈ ns, m.2.Whole :=
  match h with
  | .nil => by simp
  | .cons key h hs => by
    intro m hm
    rcases List.mem_cons.mp hm with rfl | hm
    · exact h.whole
    · exact hs.whole m hm

end

/-- Characters none of which is a control. -/
def Visible (cs : List Char) : Prop := ∀ c ∈ cs, 0x20 ≤ c.toNat

theorem Visible.nil : Visible [] := fun _ hc => nomatch hc

theorem Visible.cons {c : Char} {cs : List Char} (hc : 0x20 ≤ c.toNat) (h : Visible cs) :
    Visible (c :: cs) := by
  intro d hd
  rcases List.mem_cons.mp hd with rfl | hd
  · exact hc
  · exact h d hd

theorem Visible.append {cs ds : List Char} (h : Visible cs) (h' : Visible ds) :
    Visible (cs ++ ds) := by
  intro c hc
  exact (List.mem_append.mp hc).elim (h c) (h' c)

theorem visible_escape (c : Char) : Visible (Value.escape c) := by
  by_cases hascii : c.toNat < 0x80
  · have hall : ∀ n < 0x80, (Value.escape (Char.ofNat n)).all (0x20 ≤ ·.toNat) := by decide
    have hc := hall c.toNat hascii
    rw [Char.ofNat_toNat, List.all_eq_true] at hc
    exact fun d hd => of_decide_eq_true (hc d hd)
  · have hne : ∀ d : Char, d.toNat < 0x80 → c ≠ d := by
      rintro d hd rfl
      exact hascii hd
    have hself : Value.escape c = [c] := by
      have hcontrol : ¬ c.toNat < 0x20 := by omega
      simp [Value.escape, hne '"' (by decide), hne '\\' (by decide), hne '\x08' (by decide),
        hne '\x0c' (by decide), hne '\n' (by decide), hne '\r' (by decide), hne '\t' (by decide),
        hcontrol]
    rw [hself]
    exact .cons (by omega) .nil

theorem visible_stringChars (s : String) : Visible (Value.stringChars s) := by
  have hbody : Visible (s.toList.flatMap Value.escape) := by
    intro c hc
    obtain ⟨d, -, hd⟩ := List.mem_flatMap.mp hc
    exact visible_escape d c hd
  exact (hbody.append (.cons (by decide) .nil)).cons (by decide)

theorem visible_member (key : String) {v : Value} (h : Visible v.chars) :
    Visible (Value.memberChars (key, v)) :=
  (visible_stringChars key).append (h.cons (by decide))

mutual

theorem Prints.visible {v : Value} {n : Node} (h : Prints v n) : Visible v.chars :=
  match h with
  | .null => show Visible ['n', 'u', 'l', 'l'] by simp [Visible]
  | .bool true => show Visible ['t', 'r', 'u', 'e'] by simp [Visible]
  | .bool false => show Visible ['f', 'a', 'l', 's', 'e'] by simp [Visible]
  | .natural n => by
    intro c hc
    rw [chars_natural] at hc
    have hdigit := Nat.isDigit_of_mem_toDigits (by omega) (by omega) hc
    exact Nat.le_trans (by decide) (Decimal.digit_bounds hdigit).1
  | .string s => visible_stringChars s
  | .list h => (h.visible.append (.cons (by decide) .nil)).cons (by decide)
  | .object h => (h.visible.append (.cons (by decide) .nil)).cons (by decide)

theorem PrintsItems.visible {vs : List Value} {ns : List Node} (h : PrintsItems vs ns) :
    Visible (Value.itemsChars vs) :=
  match h with
  | .nil => .nil
  | .cons h .nil => h.visible
  | .cons h (.cons h' hs') => h.visible.append ((PrintsItems.cons h' hs').visible.cons (by decide))

theorem PrintsMembers.visible {ms : List (String × Value)} {ns : List (String × Node)}
    (h : PrintsMembers ms ns) : Visible (Value.membersChars ms) :=
  match h with
  | .nil => .nil
  | .cons key h .nil => visible_member key h.visible
  | .cons key h (.cons key' h' hs') =>
    (visible_member key h.visible).append ((PrintsMembers.cons key' h' hs').visible.cons (by decide))

end

theorem Prints.isText {v : Value} {n : Node} (h : Prints v n) : n.IsText v.text := by
  refine ⟨h.whole, ?_⟩
  have hstop : Stops [] := by simp [Stops]
  have hspelled := h.spelled hstop .nil
  simpa [Value.text] using hspelled

end BlockFeed.Json
