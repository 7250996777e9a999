import BlockFeed.Text.Bech32
import Mathlib.Data.Nat.Bitwise
import Mathlib.Tactic.Ring

/-! Addresses are read back. The checksum is linear, so the six symbols that make up for zeros in
their place verify; and octets come out of their groups of five bits as they went in. -/

namespace BlockFeed.Text.Bech32

section Checksum

/-- What a bit that is shifted out brings back in. -/
def back (bit generator top : Nat) : Nat := if top.testBit bit then generator else 0

theorem back_xor (bit generator a b : Nat) :
    back bit generator (a ^^^ b) = back bit generator a ^^^ back bit generator b := by
  simp only [back, Nat.testBit_xor]
  cases a.testBit bit <;> cases b.testBit bit <;> simp

theorem back_lt {generator : Nat} (h : generator < 2 ^ 30) (bit top : Nat) :
    back bit generator top < 2 ^ 30 := by
  rw [back]
  split
  · exact h
  · exact Nat.two_pow_pos 30

theorem step_eq (check v : Nat) : step check v =
    (check &&& 0x1FFFFFF) <<< 5 ^^^ v ^^^ back 0 0x3B6A57B2 (check >>> 25) ^^^
      back 1 0x26508E6D (check >>> 25) ^^^ back 2 0x1EA119FA (check >>> 25) ^^^
      back 3 0x3D4233DD (check >>> 25) ^^^ back 4 0x2A1462B3 (check >>> 25) := by
  have hmix : ∀ bit generator acc,
      (if (check >>> 25 >>> bit) &&& 1 = 1 then acc ^^^ generator else acc) =
        acc ^^^ back bit generator (check >>> 25) := by
    intro bit generator acc
    rw [back, Nat.testBit, Nat.and_comm 1]
    have hbit := Nat.mod_two_eq_zero_or_one (check >>> 25 >>> bit)
    rw [← Nat.and_one_is_mod] at hbit
    rcases hbit with hbit | hbit <;> simp [hbit]
  simp only [step, hmix]

theorem step_xor (a b u v : Nat) : step (a ^^^ b) (u ^^^ v) = step a u ^^^ step b v := by
  simp only [step_eq, Nat.shiftRight_xor_distrib, Nat.and_xor_distrib_right,
    Nat.shiftLeft_xor_distrib, back_xor]
  ac_rfl

/-- Values apart from the zeros in their place. -/
theorem foldl_step_xor (a b : Nat) (vs : List Nat) : vs.foldl step (a ^^^ b) =
    (List.replicate vs.length 0).foldl step a ^^^ vs.foldl step b := by
  induction vs generalizing a b with
  | nil => rfl
  | cons v vs ih =>
    have hstep := step_xor a b 0 v
    rw [Nat.zero_xor] at hstep
    rw [List.foldl_cons, hstep, ih, List.length_cons, List.replicate_succ, List.foldl_cons,
      List.foldl_cons]

theorem step_lt {v : Nat} (h : v < 2 ^ 30) (check : Nat) : step check v < 2 ^ 30 := by
  have hshift : (check &&& 0x1FFFFFF) <<< 5 < 2 ^ 30 := by
    have hle : check &&& 0x1FFFFFF ≤ 0x1FFFFFF := Nat.and_le_right
    rw [Nat.shiftLeft_eq]
    omega
  rw [step_eq]
  have h0 := Nat.xor_lt_two_pow hshift h
  have h1 := Nat.xor_lt_two_pow h0 (back_lt (by decide : 0x3B6A57B2 < 2 ^ 30) 0 (check >>> 25))
  have h2 := Nat.xor_lt_two_pow h1 (back_lt (by decide : 0x26508E6D < 2 ^ 30) 1 (check >>> 25))
  have h3 := Nat.xor_lt_two_pow h2 (back_lt (by decide : 0x1EA119FA < 2 ^ 30) 2 (check >>> 25))
  have h4 := Nat.xor_lt_two_pow h3 (back_lt (by decide : 0x3D4233DD < 2 ^ 30) 3 (check >>> 25))
  exact Nat.xor_lt_two_pow h4 (back_lt (by decide) 4 (check >>> 25))

theorem polymod_lt {values : List Nat} (h : ∀ v ∈ values, v < 2 ^ 30) :
    polymod values < 2 ^ 30 := by
  rw [polymod]
  suffices hfold : ∀ check < 2 ^ 30, values.foldl step check < 2 ^ 30 from
    hfold 1 (Nat.one_lt_two_pow (by decide))
  induction values with
  | nil => exact fun check hcheck => hcheck
  | cons v values ih =>
    intro check _
    obtain ⟨hv, hrest⟩ := List.forall_mem_cons.mp h
    exact ih hrest _ (step_lt hv check)

/-- A number of thirty bits is made up of its groups of five. -/
theorem step_shift {x : Nat} (h : x < 2 ^ 30) : step (x >>> 5) (x &&& 31) = x := by
  have htop : x >>> 5 >>> 25 = 0 := by
    rw [← Nat.shiftRight_add, Nat.shiftRight_eq_div_pow]
    exact Nat.div_eq_of_lt h
  have hlow : x >>> 5 &&& 0x1FFFFFF = x >>> 5 := by
    have hmask : (0x1FFFFFF : Nat) = 2 ^ 25 - 1 := rfl
    have hlt : x >>> 5 < 2 ^ 25 := by
      rw [Nat.shiftRight_eq_div_pow]
      omega
    rw [hmask, Nat.and_two_pow_sub_one_of_lt_two_pow hlt]
  have hnone : ∀ bit generator, back bit generator 0 = 0 := fun bit generator => by simp [back]
  simp only [step_eq, htop, hlow, hnone, Nat.xor_zero]
  apply Nat.eq_of_testBit_eq
  intro i
  have hmask : (31 : Nat) = 2 ^ 5 - 1 := rfl
  rw [Nat.testBit_xor, Nat.testBit_shiftLeft, Nat.testBit_shiftRight, Nat.testBit_and, hmask,
    Nat.testBit_two_pow_sub_one]
  by_cases hi : 5 ≤ i
  · have hsum : 5 + (i - 5) = i := by omega
    simp [hi, hsum, Nat.not_lt.mpr hi]
  · simp [hi, Nat.lt_of_not_le hi]

/-- The groups of five bits of a checksum. -/
def checkGroups (check : Nat) : List Nat :=
  [25, 20, 15, 10, 5, 0].map fun shift => (check >>> shift) &&& 31

theorem foldl_checkGroups {check : Nat} (h : check < 2 ^ 30) :
    (checkGroups check).foldl step 0 = check := by
  have hzero : check >>> 30 = 0 := by
    rw [Nat.shiftRight_eq_div_pow]
    exact Nat.div_eq_of_lt h
  have hgroup : ∀ shift, step (check >>> (shift + 5)) (check >>> shift &&& 31) = check >>> shift := by
    intro shift
    rw [Nat.shiftRight_add]
    exact step_shift (Nat.lt_of_le_of_lt (Nat.shiftRight_le check shift) h)
  have hfirst := hgroup 25
  rw [hzero] at hfirst
  simp only [checkGroups, List.map_cons, List.map_nil, List.foldl_cons, List.foldl_nil]
  rw [hfirst, hgroup 20, hgroup 15, hgroup 10, hgroup 5, hgroup 0, Nat.shiftRight_zero]

theorem expand_lt (readable : List Char) : ∀ v ∈ expand readable, v < 2 ^ 30 := by
  intro v hv
  simp only [expand, List.mem_append, List.mem_map, List.mem_singleton] at hv
  rcases hv with (⟨c, -, rfl⟩ | rfl) | ⟨c, -, rfl⟩
  · have hc : c.toNat < 0xD800 ∨ 0xDFFF < c.toNat ∧ c.toNat < 0x110000 := c.valid
    have hle := Nat.shiftRight_le c.toNat 5
    omega
  · exact Nat.two_pow_pos 30
  · have hle : c.toNat &&& 31 ≤ 31 := Nat.and_le_right
    omega

/-- What the checksum makes up for comes to one. -/
theorem polymod_checksum (readable : List Char) {data : List Nat} (h : ∀ v ∈ data, v < 2 ^ 30) :
    polymod (expand readable ++ data ++ checksum readable data) = 1 := by
  have hzeros : ([0, 0, 0, 0, 0, 0] : List Nat) = List.replicate 6 0 := rfl
  have hbound : polymod (expand readable ++ data ++ [0, 0, 0, 0, 0, 0]) < 2 ^ 30 := by
    apply polymod_lt
    intro v hv
    rcases List.mem_append.mp hv with hv | hv
    · exact (List.mem_append.mp hv).elim (expand_lt readable v) (h v)
    · rw [hzeros] at hv
      rw [(List.mem_replicate.mp hv).2]
      exact Nat.two_pow_pos 30
  have hcheck : checksum readable data =
      checkGroups (polymod (expand readable ++ data ++ [0, 0, 0, 0, 0, 0]) ^^^ 1) := rfl
  have happend : ∀ values, polymod (expand readable ++ data ++ values) =
      values.foldl step (polymod (expand readable ++ data)) := fun _ => List.foldl_append
  have hlen : ∀ check, (checkGroups check).length = 6 := fun _ => rfl
  have hgroups := foldl_checkGroups (Nat.xor_lt_two_pow hbound (by decide : 1 < 2 ^ 30))
  have hfold := foldl_step_xor (polymod (expand readable ++ data)) 0 (checksum readable data)
  rw [Nat.xor_zero, hcheck, hlen, hgroups, ← hzeros, ← happend] at hfold
  rw [hcheck, hfold, ← happend, ← Nat.xor_assoc, Nat.xor_self, Nat.zero_xor]

end Checksum

section Regrouping

theorem length_bits (width n : Nat) : (bits width n).length = width := by simp [bits]

theorem bits_succ (width n : Nat) : bits (width + 1) n = n.testBit width :: bits width n := by
  rw [bits, List.range_succ, List.reverse_append, List.reverse_singleton, List.singleton_append,
    List.map_cons]
  rfl

theorem ofBits_cons (b : Bool) (bs : List Bool) :
    ofBits (b :: bs) = 2 ^ bs.length * b.toNat + ofBits bs := by
  have hstart : ∀ (bs : List Bool) n,
      bs.foldl (fun n b => 2 * n + b.toNat) n = 2 ^ bs.length * n + ofBits bs := by
    intro bs
    induction bs with
    | nil => simp [ofBits]
    | cons b bs ih =>
      intro n
      rw [ofBits, List.foldl_cons, List.foldl_cons, ih, ih, List.length_cons, Nat.pow_succ]
      ring
  rw [ofBits, List.foldl_cons, hstart, Nat.mul_zero, Nat.zero_add]

theorem ofBits_bits (width n : Nat) : ofBits (bits width n) = n % 2 ^ width := by
  induction width with
  | zero => simp [bits, ofBits, Nat.mod_one]
  | succ width ih =>
    rw [bits_succ, ofBits_cons, length_bits, ih, Nat.mod_pow_succ, Nat.toNat_testBit, Nat.add_comm]

theorem bits_group : ∀ a b c d e : Bool, bits 5 (ofBits [a, b, c, d, e]) = [a, b, c, d, e] := by
  decide

theorem ofBits_lt : ∀ a b c d e : Bool, ofBits [a, b, c, d, e] < 32 := by decide

/-- The groups hold the bits, and fewer than five zeros behind them. -/
theorem flatMap_groups (bs : List Bool) : ∃ filling, filling < 5 ∧
    (groups bs).flatMap (bits 5) = bs ++ List.replicate filling false ∧
    (groups bs).length * 5 = bs.length + filling ∧ ∀ v ∈ groups bs, v < 32 := by
  fun_induction groups bs with
  | case1 => exact ⟨0, by decide, rfl, rfl, by simp⟩
  | case2 a b c d e rest ih =>
    obtain ⟨filling, hlt, hbits, hlen, hgroups⟩ := ih
    refine ⟨filling, hlt, ?_, ?_, ?_⟩
    · rw [List.flatMap_cons, bits_group, hbits]
      rfl
    · simp only [List.length_cons]
      omega
    · exact List.forall_mem_cons.mpr ⟨ofBits_lt a b c d e, hgroups⟩
  | case3 short hne hfew =>
    match short with
    | [a] => exact ⟨4, by decide, by simp [bits_group], rfl, by simpa using ofBits_lt a _ _ _ _⟩
    | [a, b] => exact ⟨3, by decide, by simp [bits_group], rfl, by simpa using ofBits_lt a b _ _ _⟩
    | [a, b, c] =>
      exact ⟨2, by decide, by simp [bits_group], rfl, by simpa using ofBits_lt a b c _ _⟩
    | [a, b, c, d] =>
      exact ⟨1, by decide, by simp [bits_group], rfl, by simpa using ofBits_lt a b c d _⟩
    | a :: b :: c :: d :: e :: rest => exact absurd rfl (hfew a b c d e rest)

/-- The octets that bits make up; fewer than eight at the end make up none. -/
def octets : List Bool → List UInt8
  | a :: b :: c :: d :: e :: f :: g :: h :: rest =>
    UInt8.ofNat (ofBits [a, b, c, d, e, f, g, h]) :: octets rest
  | _ => []

theorem octets_bits (bytes : List UInt8) {rest : List Bool} (h : rest.length < 8) :
    octets ((bytes.flatMap fun b => bits 8 b.toNat) ++ rest) = bytes := by
  induction bytes with
  | nil =>
    rw [List.flatMap_nil, List.nil_append]
    fun_cases octets rest with
    | case1 => simp only [List.length_cons] at h; omega
    | case2 => rfl
  | cons b bytes ih =>
    have hbits := ofBits_bits 8 b.toNat
    rw [Nat.mod_eq_of_lt b.toNat_lt] at hbits
    have hoctet : octets (bits 8 b.toNat ++ ((bytes.flatMap fun b => bits 8 b.toNat) ++ rest)) =
        UInt8.ofNat (ofBits (bits 8 b.toNat)) ::
          octets ((bytes.flatMap fun b => bits 8 b.toNat) ++ rest) := rfl
    rw [List.flatMap_cons, List.append_assoc, hoctet, hbits, UInt8.ofNat_toNat, ih]

/-- The octets in groups of five bits, without what fills the last one. -/
def ungroup (data : List Nat) : List UInt8 := octets (data.flatMap (bits 5))

theorem ungroup_regroup (bytes : List UInt8) : ungroup (regroup bytes) = bytes := by
  obtain ⟨filling, hlt, hbits, -⟩ := flatMap_groups (bytes.flatMap fun b => bits 8 b.toNat)
  rw [ungroup, regroup, hbits]
  apply octets_bits
  rw [List.length_replicate]
  omega

theorem regroup_lt (bytes : List UInt8) : ∀ v ∈ regroup bytes, v < 32 := by
  obtain ⟨filling, -, -, -, hgroups⟩ := flatMap_groups (bytes.flatMap fun b => bits 8 b.toNat)
  exact hgroups

theorem length_regroup (bytes : List UInt8) : (regroup bytes).length = (8 * bytes.length + 4) / 5 := by
  obtain ⟨filling, hlt, -, hlen, -⟩ := flatMap_groups (bytes.flatMap fun b => bits 8 b.toNat)
  have hbits : (bytes.flatMap fun b => bits 8 b.toNat).length = 8 * bytes.length := by
    rw [List.length_flatMap]
    simp only [length_bits, List.map_const', List.sum_replicate_nat, Nat.mul_comm]
  rw [hbits] at hlen
  rw [regroup]
  omega

end Regrouping

section Reading

/-- The five bits of a symbol. -/
def value? (c : Char) : Option Nat := alphabet.idxOf? c

/-- The octets of an address, if it has this readable part and its checksum verifies. -/
def decode? (readable address : String) : Option (List UInt8) := do
  guard ((readable.toList ++ ['1']).isPrefixOf address.toList)
  let values ← (address.toList.drop (readable.length + 1)).mapM value?
  guard (polymod (expand readable.toList ++ values) = 1)
  return ungroup (values.take (values.length - 6))

theorem value_symbol : ∀ v < 32, value? (symbol v) = some v := by decide

theorem mapM_value_symbol {values : List Nat} (h : ∀ v ∈ values, v < 32) :
    (values.map symbol).mapM value? = some values := by
  induction values with
  | nil => rfl
  | cons v values ih =>
    obtain ⟨hv, hrest⟩ := List.forall_mem_cons.mp h
    simp [value_symbol v hv, ih hrest]

theorem length_checksum (readable : List Char) (data : List Nat) :
    (checksum readable data).length = 6 := rfl

theorem checksum_lt (readable : List Char) (data : List Nat) :
    ∀ v ∈ checksum readable data, v < 32 := by
  intro v hv
  obtain ⟨shift, -, rfl⟩ := List.mem_map.mp hv
  exact Nat.lt_succ_of_le Nat.and_le_right

/-- An address of octets: the readable part, the separator, their groups of five bits, and six symbols
with which the checksum comes to one. -/
structure Names (readable address : String) (bytes : List UInt8) : Prop where
  length : address.length = readable.length + 1 + (8 * bytes.length + 4) / 5 + 6
  chars : ∃ check : List Nat, check.length = 6 ∧ (∀ v ∈ check, v < 32) ∧
    address.toList = readable.toList ++ '1' :: (regroup bytes ++ check).map symbol ∧
    polymod (expand readable.toList ++ regroup bytes ++ check) = 1
  groups : ungroup (regroup bytes) = bytes
  read : decode? readable address = some bytes

variable {readable address : String} {bytes : List UInt8}

theorem encode_eq_some_iff : encode? readable bytes = some address ↔
    readable.length + 1 + (8 * bytes.length + 4) / 5 + 6 ≤ maxLength ∧
      address = String.ofList (readable.toList ++ '1' ::
        (regroup bytes ++ checksum readable.toList (regroup bytes)).map symbol) := by
  rw [encode?, length_regroup]
  split
  case isTrue hlong => simp [Nat.not_le.mpr hlong]
  case isFalse hshort =>
    rw [Option.some.injEq, eq_comm]
    exact (and_iff_right (Nat.not_lt.mp hshort)).symm

theorem decode_symbols (readable : String) {data check : List Nat} (hdata : ∀ v ∈ data, v < 32)
    (hcheck : ∀ v ∈ check, v < 32) (hlen : check.length = 6)
    (hone : polymod (expand readable.toList ++ data ++ check) = 1) :
    decode? readable (String.ofList (readable.toList ++ '1' :: (data ++ check).map symbol)) =
      some (ungroup data) := by
  have hmark : (readable.toList ++ ['1']).isPrefixOf
      (readable.toList ++ '1' :: (data ++ check).map symbol) = true := by simp
  have hdrop : (readable.toList ++ '1' :: (data ++ check).map symbol).drop (readable.length + 1) =
      (data ++ check).map symbol := by
    rw [← String.length_toList, List.drop_append]
    simp
  have htake : (data ++ check).take ((data ++ check).length - 6) = data := by
    rw [List.length_append, hlen, Nat.add_sub_cancel, List.take_left]
  rw [List.append_assoc] at hone
  rw [decode?, String.toList_ofList, hmark, hdrop,
    mapM_value_symbol (List.forall_mem_append.mpr ⟨hdata, hcheck⟩)]
  simp only [guard, hone, if_true, Option.bind_eq_bind, Option.bind_some, Option.pure_def, htake]

theorem names_of_encode (h : encode? readable bytes = some address) : Names readable address bytes := by
  obtain ⟨-, rfl⟩ := encode_eq_some_iff.mp h
  have hone := polymod_checksum readable.toList fun v hv =>
    Nat.lt_trans (regroup_lt bytes v hv) (by decide : 32 < 2 ^ 30)
  have hcheck := checksum_lt readable.toList (regroup bytes)
  have hread := decode_symbols readable (regroup_lt bytes) hcheck rfl hone
  rw [ungroup_regroup] at hread
  refine ⟨?_, ⟨checksum readable.toList (regroup bytes), rfl, hcheck, String.toList_ofList, hone⟩,
    ungroup_regroup bytes, hread⟩
  simp only [String.length_ofList, List.length_append, List.length_cons, List.length_map,
    length_regroup, length_checksum, String.length_toList]
  omega

end Reading

end BlockFeed.Text.Bech32
