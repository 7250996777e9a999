import BlockFeed.Text.Base64
import BlockFeed.Proofs.Text.Utf8

/-! Octets written in base64 are read back. -/

namespace BlockFeed.Text.Base64

/-- The symbols of octets, the last group filled with padding. -/
def encode (bytes : List UInt8) : List Char :=
  encodeBare bytes ++ List.replicate ((3 - bytes.length % 3) % 3) '='

theorem encode_cons (a b c : UInt8) (rest : List UInt8) :
    encode (a :: b :: c :: rest) =
      symbol (a.toNat / 4) :: symbol (a.toNat % 4 * 16 + b.toNat / 16) ::
        symbol (b.toNat % 16 * 4 + c.toNat / 64) :: symbol (c.toNat % 64) :: encode rest := by
  have hlen : (a :: b :: c :: rest).length % 3 = rest.length % 3 := by
    simp only [List.length_cons]
    omega
  rw [encode, encodeBare, hlen]
  rfl

def symbolOctet (v : Nat) : UInt8 := UInt8.ofNat (symbol v).toNat

section Symbols

variable (a b c : UInt8)

theorem asciiOctets_encode_one : asciiOctets (encode [a]) =
    [symbolOctet (a.toNat / 4), symbolOctet (a.toNat % 4 * 16), pad, pad] := rfl

theorem asciiOctets_encode_two : asciiOctets (encode [a, b]) =
    [symbolOctet (a.toNat / 4), symbolOctet (a.toNat % 4 * 16 + b.toNat / 16),
      symbolOctet (b.toNat % 16 * 4), pad] := rfl

theorem asciiOctets_encode_cons (rest : List UInt8) : asciiOctets (encode (a :: b :: c :: rest)) =
    symbolOctet (a.toNat / 4) :: symbolOctet (a.toNat % 4 * 16 + b.toNat / 16) ::
      symbolOctet (b.toNat % 16 * 4 + c.toNat / 64) :: symbolOctet (c.toNat % 64) ::
      asciiOctets (encode rest) := by
  rw [encode_cons]
  rfl

end Symbols

theorem symbol_ascii : ∀ v < 64, (symbol v).toNat < 0x80 := by decide

theorem value_symbolOctet : ∀ v < 64, value? (symbolOctet v) = some v := by decide

theorem symbolOctet_ne_pad : ∀ v < 64, symbolOctet v ≠ pad := by decide

theorem valueAt_symbolOctet {v : Nat} (h : v < 64) (offset : Nat) :
    valueAt offset (symbolOctet v) = .ok v := by
  rw [valueAt, value_symbolOctet v h]

theorem readTail_symbol {v : Nat} (h : v < 64) (offset position : Nat) (vs : List Nat) (last : UInt8)
    (rest : List UInt8) :
    readTail offset position ⟨vs, 0, last⟩ (symbolOctet v :: rest) =
      readTail offset (position + 1) ⟨vs ++ [v], 0, symbolOctet v⟩ rest := by
  rw [readTail, if_neg (symbolOctet_ne_pad v h), if_neg (Nat.lt_irrefl 0), value_symbolOctet v h]

theorem readTail_pad {position : Nat} (h : 2 ≤ position) (offset : Nat) (t : Tail)
    (rest : List UInt8) :
    readTail offset position t (pad :: rest) =
      readTail offset (position + 1) { t with pads := t.pads + 1 } rest := by
  rw [readTail, if_pos rfl, if_neg (by omega)]

section Joining

/-! An octet from the symbols that share out its bits, among them bits of its neighbours. -/

theorem join_first (a : UInt8) {x : Nat} (hx : x < 16) :
    UInt8.ofNat (a.toNat / 4 * 4 + (a.toNat % 4 * 16 + x) / 16) = a := by
  have hsum : a.toNat / 4 * 4 + (a.toNat % 4 * 16 + x) / 16 = a.toNat := by omega
  rw [hsum, UInt8.ofNat_toNat]

theorem join_second (b : UInt8) (x : Nat) {y : Nat} (hy : y < 4) :
    UInt8.ofNat ((x * 16 + b.toNat / 16) % 16 * 16 + (b.toNat % 16 * 4 + y) / 4) = b := by
  have hb := b.toNat_lt
  have hsum : (x * 16 + b.toNat / 16) % 16 * 16 + (b.toNat % 16 * 4 + y) / 4 = b.toNat := by omega
  rw [hsum, UInt8.ofNat_toNat]

theorem join_third (c : UInt8) (x : Nat) :
    UInt8.ofNat ((x * 4 + c.toNat / 64) % 4 * 64 + c.toNat % 64) = c := by
  have hc := c.toNat_lt
  have hsum : (x * 4 + c.toNat / 64) % 4 * 64 + c.toNat % 64 = c.toNat := by omega
  rw [hsum, UInt8.ofNat_toNat]

end Joining

section Groups

variable (offset : Nat) (a b c : UInt8)

theorem decodeTail_one : decodeTail offset (asciiOctets (encode [a])) = .ok [a] := by
  have ha := a.toNat_lt
  have hlast : a.toNat % 4 * 16 % 16 = 0 := by omega
  have hjoin := join_first a (x := 0) (by omega)
  rw [asciiOctets_encode_one, decodeTail, readTail_symbol (by omega), readTail_symbol (by omega),
    readTail_pad (by omega), readTail_pad (by omega), readTail]
  simpa [bind, Except.bind, tailOctets, hlast] using hjoin

theorem decodeTail_two : decodeTail offset (asciiOctets (encode [a, b])) = .ok [a, b] := by
  have ha := a.toNat_lt
  have hb := b.toNat_lt
  have hlast : b.toNat % 16 * 4 % 4 = 0 := by omega
  have hfirst := join_first a (x := b.toNat / 16) (by omega)
  have hsecond := join_second b (a.toNat % 4) (y := 0) (by omega)
  rw [Nat.add_zero] at hsecond
  rw [asciiOctets_encode_two, decodeTail, readTail_symbol (by omega), readTail_symbol (by omega),
    readTail_symbol (by omega), readTail_pad (by omega), readTail]
  simp only [bind, Except.bind, tailOctets, hlast, hfirst, hsecond, List.nil_append, List.cons_append]
  simp

theorem decodeTail_three : decodeTail offset (asciiOctets (encode [a, b, c])) = .ok [a, b, c] := by
  have ha := a.toNat_lt
  have hb := b.toNat_lt
  have hc := c.toNat_lt
  have hfirst := join_first a (x := b.toNat / 16) (by omega)
  have hsecond := join_second b (a.toNat % 4) (y := c.toNat / 64) (by omega)
  have hthird := join_third c (b.toNat % 16)
  have hnil : asciiOctets (encode []) = [] := rfl
  rw [asciiOctets_encode_cons, hnil, decodeTail, readTail_symbol (by omega),
    readTail_symbol (by omega), readTail_symbol (by omega), readTail_symbol (by omega), readTail]
  simp only [bind, Except.bind, tailOctets, hfirst, hsecond, hthird, List.nil_append,
    List.cons_append]
  simp

end Groups

/-- Text of more than three octets begins with a whole group of symbols. -/
theorem decodeFrom_group (offset : Nat) (a b c : UInt8) {e : UInt8} {input bytes : List UInt8}
    (h : decodeFrom (offset + 4) (e :: input) = .ok bytes) :
    decodeFrom offset (symbolOctet (a.toNat / 4) ::
        symbolOctet (a.toNat % 4 * 16 + b.toNat / 16) ::
        symbolOctet (b.toNat % 16 * 4 + c.toNat / 64) :: symbolOctet (c.toNat % 64) :: e :: input) =
      .ok (a :: b :: c :: bytes) := by
  have ha := a.toNat_lt
  have hb := b.toNat_lt
  have hc := c.toNat_lt
  have hfirst := join_first a (x := b.toNat / 16) (by omega)
  have hsecond := join_second b (a.toNat % 4) (y := c.toNat / 64) (by omega)
  have hthird := join_third c (b.toNat % 16)
  rw [decodeFrom, valueAt_symbolOctet (by omega), valueAt_symbolOctet (by omega),
    valueAt_symbolOctet (by omega), valueAt_symbolOctet (by omega)]
  simp only [bind, Except.bind, h, hfirst, hsecond, hthird]
  rfl

theorem length_encode (bytes : List UInt8) : (encode bytes).length % 4 = 0 := by
  match bytes with
  | [] => rfl
  | [a] => simp [encode, encodeBare]
  | [a, b] => simp [encode, encodeBare]
  | a :: b :: c :: rest =>
    have hrest := length_encode rest
    rw [encode_cons]
    simp only [List.length_cons]
    omega

theorem encode_ascii (bytes : List UInt8) : ∀ c ∈ encode bytes, c.toNat < 0x80 := by
  match bytes with
  | [] => simp [encode, encodeBare]
  | [a] =>
    have ha := a.toNat_lt
    have h1 := symbol_ascii (a.toNat / 4) (by omega)
    have h2 := symbol_ascii (a.toNat % 4 * 16) (by omega)
    simp [encode, encodeBare, h1, h2]
  | [a, b] =>
    have ha := a.toNat_lt
    have hb := b.toNat_lt
    have h1 := symbol_ascii (a.toNat / 4) (by omega)
    have h2 := symbol_ascii (a.toNat % 4 * 16 + b.toNat / 16) (by omega)
    have h3 := symbol_ascii (b.toNat % 16 * 4) (by omega)
    simp [encode, encodeBare, h1, h2, h3]
  | a :: b :: c :: rest =>
    have ha := a.toNat_lt
    have hb := b.toNat_lt
    have hc := c.toNat_lt
    have h1 := symbol_ascii (a.toNat / 4) (by omega)
    have h2 := symbol_ascii (a.toNat % 4 * 16 + b.toNat / 16) (by omega)
    have h3 := symbol_ascii (b.toNat % 16 * 4 + c.toNat / 64) (by omega)
    have h4 := symbol_ascii (c.toNat % 64) (by omega)
    have hrest := encode_ascii rest
    rw [encode_cons]
    simpa [h1, h2, h3, h4] using hrest

theorem utf8ByteSize_encode (bytes : List UInt8) :
    (String.ofList (encode bytes)).utf8ByteSize % 4 = 0 := by
  rw [utf8ByteSize_ascii (encode_ascii bytes)]
  exact length_encode bytes

theorem decodeFrom_encode (offset : Nat) (bytes : List UInt8) (h : bytes ≠ []) :
    decodeFrom offset (asciiOctets (encode bytes)) = .ok bytes := by
  match bytes with
  | [] => exact absurd rfl h
  | [a] => exact decodeTail_one offset a
  | [a, b] => exact decodeTail_two offset a b
  | [a, b, c] =>
    have htail := decodeTail_three offset a b c
    rw [asciiOctets_encode_cons] at htail ⊢
    exact htail
  | a :: b :: c :: d :: rest =>
    have hrest := decodeFrom_encode (offset + 4) (d :: rest) (List.cons_ne_nil d rest)
    rw [asciiOctets_encode_cons]
    cases hinput : asciiOctets (encode (d :: rest)) with
    | nil =>
      rw [hinput] at hrest
      cases hrest
    | cons e input =>
      rw [hinput] at hrest
      exact decodeFrom_group offset a b c hrest

theorem decode_encode (bytes : List UInt8) :
    decode (Utf8.encode (String.ofList (encode bytes))) = .ok bytes := by
  rw [Utf8.encode_ascii (encode_ascii bytes)]
  by_cases hnil : bytes = []
  · subst hnil
    rfl
  · have hread := decodeFrom_encode 0 bytes hnil
    have hne : asciiOctets (encode bytes) ≠ [] := by
      intro heq
      rw [heq] at hread
      cases hread
    have hempty : (asciiOctets (encode bytes)).isEmpty = false := by simpa using hne
    have hstray : strayLast? (asciiOctets (encode bytes)) = none := by
      have hlen := length_encode bytes
      rw [strayLast?, if_neg]
      rw [asciiOctets, List.length_map]
      omega
    rw [decode, hempty, hstray]
    exact hread

end BlockFeed.Text.Base64
