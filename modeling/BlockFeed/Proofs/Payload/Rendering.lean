import BlockFeed.Proofs.Json.Member
import BlockFeed.Proofs.Payload.Reading
import BlockFeed.Proofs.Text.Bech32
import BlockFeed.Proofs.Text.Canonical

/-! Hashes and accounts come in base64 and are written as digits and as addresses. Nothing is lost on
the way: the base64 that came in can be told from what is written. -/

namespace BlockFeed.Payload

open Json (Node Members Reader)
open Json.RecordReader (build_of_reader seq_build map_build defaulted_build)
open Text.Bech32 (Names)

/-- The octets of a hash, from its text. -/
def hashOctets? (text : String) : Option (List UInt8) :=
  match text.toList with
  | [] => some []
  | '0' :: 'x' :: digits => (Text.Hex.decode (Text.Utf8.encode (String.ofList digits))).toOption
  | _ => none

def base64 (bytes : List UInt8) : String := String.ofList (Text.Base64.encode bytes)

theorem base64_injective {bytes bytes' : List UInt8} (h : base64 bytes = base64 bytes') :
    bytes = bytes' := by
  have hread := Text.Base64.decode_encode bytes
  have hread' := Text.Base64.decode_encode bytes'
  rw [base64, base64] at h
  rw [h, hread'] at hread
  exact (Except.ok.inj hread).symm

theorem octets_text {text : String} {bytes : List UInt8} :
    Format.octets (.string (.ok text)) bytes ↔ text = base64 bytes := by
  simp [Format.octets, base64]

section Hashes

theorem hashOctets_hashText (bytes : List UInt8) : hashOctets? (hashText bytes) = some bytes := by
  cases bytes with
  | nil => rfl
  | cons b bytes =>
    have hspells := Text.Hex.spells_encode (b :: bytes)
    have hdecode : Text.Hex.decode (Text.asciiOctets (Text.Hex.encode (b :: bytes))) =
        .ok (b :: bytes) := hspells.decodeFrom 0
    have hdigits : hashOctets? (hashText (b :: bytes)) = (Text.Hex.decode (Text.Utf8.encode
        (String.ofList (Text.Hex.encode (b :: bytes))))).toOption := by
      rw [hashText, List.isEmpty_cons, if_neg Bool.false_ne_true, hashOctets?, String.toList_ofList]
      rfl
    rw [hdigits, Text.Utf8.encode_ascii hspells.ascii, hdecode]
    rfl

theorem hashText_injective {bytes bytes' : List UInt8} (h : hashText bytes = hashText bytes') :
    bytes = bytes' := by
  have hread := hashOctets_hashText bytes
  rw [h, hashOctets_hashText bytes'] at hread
  exact (Option.some.inj hread).symm

/-- What is written for what a record has, or does not have, in a field that is empty by default. -/
def Writes (r : Reader String) (n? : Option Node) (written : String) : Prop :=
  match n? with
  | some n => ∃ depth, r depth n = .ok written
  | none => written = ""

theorem hash_writes {text written : String} (h : Writes hash (some (.string (.ok text))) written) :
    ∃ bytes, text = base64 bytes ∧ written = hashText bytes := by
  obtain ⟨depth, hread⟩ := h
  obtain ⟨bytes, hbytes, rfl⟩ := (hash_exact depth _ _).mp hread
  refine ⟨bytes, octets_text.mp hbytes, ?_⟩
  cases bytes <;> rfl

theorem hash_blank {n? : Option Node} {written : String} (h : Writes hash n? written)
    (hblank : n? ∈ [none, some .null, some (.string (.ok ""))]) : written = "" := by
  simp only [List.mem_cons, List.not_mem_nil, or_false] at hblank
  rcases hblank with rfl | rfl | rfl
  · exact h
  · obtain ⟨depth, hread⟩ := h
    exact (Except.ok.inj hread).symm
  · obtain ⟨depth, hread⟩ := h
    exact (Except.ok.inj hread).symm

end Hashes

section Accounts

theorem account_eq_ok_iff {bytes : List UInt8} (hne : bytes ≠ []) (depth : Nat) {address : String} :
    account depth (.string (.ok (base64 bytes))) = .ok address ↔
      Text.Bech32.encode? "inj" bytes = some address := by
  rw [account_exact depth _ _, Format.account]
  constructor
  · rintro ⟨bytes', hbytes, haddress⟩
    obtain rfl := base64_injective (octets_text.mp hbytes)
    rwa [if_neg hne] at haddress
  · intro haddress
    exact ⟨bytes, octets_text.mpr rfl, by rwa [if_neg hne]⟩

theorem account_writes {bytes : List UInt8} (hne : bytes ≠ []) {written : String}
    (h : Writes account (some (.string (.ok (base64 bytes)))) written) :
    Text.Bech32.encode? "inj" bytes = some written := by
  obtain ⟨depth, hread⟩ := h
  exact (account_eq_ok_iff hne depth).mp hread

end Accounts

section Records

/-- A record read from a node, what it has there for its order's hash, and the hash as written. -/
inductive HashRead (n : Node) : Option Node → String → Prop where
  | spotOrder {depth : Nat} {o : SpotOrder} (h : spotOrder depth n = .ok o) :
      HashRead n (n.member? "order_hash" 4) o.orderHash
  | derivativeOrder {depth : Nat} {o : DerivativeOrder} (h : derivativeOrder depth n = .ok o) :
      HashRead n (n.member? "order_hash" 5) o.orderHash
  | marketOrder {depth : Nat} {o : MarketOrder} (h : marketOrder depth n = .ok o) :
      HashRead n (n.member? "order_hash" 4) o.orderHash
  | spotFill {depth : Nat} {f : SpotFill} (h : spotFill depth n = .ok f) :
      HashRead n (n.member? "order_hash" 4) f.orderHash
  | derivativeFill {depth : Nat} {f : DerivativeFill} (h : derivativeFill depth n = .ok f) :
      HashRead n (n.member? "order_hash" 4) f.orderHash

/-- A trade read from a node, what it has there for the account its fee goes to, and its address. -/
inductive AccountRead (n : Node) : Option Node → String → Prop where
  | spotFill {depth : Nat} {f : SpotFill} (h : spotFill depth n = .ok f) :
      AccountRead n (n.member? "fee_recipient_address" 5) f.feeRecipient
  | derivativeFill {depth : Nat} {f : DerivativeFill} (h : derivativeFill depth n = .ok f) :
      AccountRead n (n.member? "fee_recipient_address" 5) f.feeRecipient

theorem writes_of_build {name : String} {r : Reader String} {written : String} {depth : Nat}
    {ms : Members} (h : (Json.RecordReader.defaulted name r "").build depth ms = .ok written) :
    Writes r (ms.node? name) written := by
  have hfield := defaulted_build h
  cases hnode : ms.node? name with
  | some n =>
    rw [hnode] at hfield
    exact ⟨depth, hfield⟩
  | none =>
    rw [hnode] at hfield
    exact hfield

variable {depth : Nat} {n : Node}

theorem spotOrder_writes {o : SpotOrder} (h : spotOrder depth n = .ok o) :
    Writes hash (n.member? "order_hash" 4) o.orderHash := by
  obtain ⟨ms, hbuild, hms⟩ := build_of_reader (by decide) (by decide) h
  obtain ⟨_, _, h4, hhash, rfl⟩ := seq_build hbuild
  obtain ⟨_, _, h3, -, rfl⟩ := seq_build h4
  obtain ⟨_, _, h2, -, rfl⟩ := seq_build h3
  obtain ⟨_, _, h1, -, rfl⟩ := seq_build h2
  obtain ⟨_, -, rfl⟩ := map_build h1
  exact hms 4 _ rfl ▸ writes_of_build hhash

theorem derivativeOrder_writes {o : DerivativeOrder} (h : derivativeOrder depth n = .ok o) :
    Writes hash (n.member? "order_hash" 5) o.orderHash := by
  obtain ⟨ms, hbuild, hms⟩ := build_of_reader (by decide) (by decide) h
  obtain ⟨_, _, h5, hhash, rfl⟩ := seq_build hbuild
  obtain ⟨_, _, h4, -, rfl⟩ := seq_build h5
  obtain ⟨_, _, h3, -, rfl⟩ := seq_build h4
  obtain ⟨_, _, h2, -, rfl⟩ := seq_build h3
  obtain ⟨_, _, h1, -, rfl⟩ := seq_build h2
  obtain ⟨_, -, rfl⟩ := map_build h1
  exact hms 5 _ rfl ▸ writes_of_build hhash

theorem marketOrder_writes {o : MarketOrder} (h : marketOrder depth n = .ok o) :
    Writes hash (n.member? "order_hash" 4) o.orderHash := by
  obtain ⟨ms, hbuild, hms⟩ := build_of_reader (by decide) (by decide) h
  obtain ⟨_, _, h4, hhash, rfl⟩ := seq_build hbuild
  obtain ⟨_, _, h3, -, rfl⟩ := seq_build h4
  obtain ⟨_, _, h2, -, rfl⟩ := seq_build h3
  obtain ⟨_, _, h1, -, rfl⟩ := seq_build h2
  obtain ⟨_, -, rfl⟩ := map_build h1
  exact hms 4 _ rfl ▸ writes_of_build hhash

theorem spotFill_writes {f : SpotFill} (h : spotFill depth n = .ok f) :
    Writes hash (n.member? "order_hash" 4) f.orderHash ∧
      Writes account (n.member? "fee_recipient_address" 5) f.feeRecipient := by
  obtain ⟨ms, hbuild, hms⟩ := build_of_reader (by decide) (by decide) h
  obtain ⟨_, _, h6, -, rfl⟩ := seq_build hbuild
  obtain ⟨_, _, h5, haccount, rfl⟩ := seq_build h6
  obtain ⟨_, _, h4, hhash, rfl⟩ := seq_build h5
  obtain ⟨_, _, h3, -, rfl⟩ := seq_build h4
  obtain ⟨_, _, h2, -, rfl⟩ := seq_build h3
  obtain ⟨_, _, h1, -, rfl⟩ := seq_build h2
  obtain ⟨_, -, rfl⟩ := map_build h1
  exact ⟨hms 4 _ rfl ▸ writes_of_build hhash, hms 5 _ rfl ▸ writes_of_build haccount⟩

theorem derivativeFill_writes {f : DerivativeFill} (h : derivativeFill depth n = .ok f) :
    Writes hash (n.member? "order_hash" 4) f.orderHash ∧
      Writes account (n.member? "fee_recipient_address" 5) f.feeRecipient := by
  obtain ⟨ms, hbuild, hms⟩ := build_of_reader (by decide) (by decide) h
  obtain ⟨_, _, h6, -, rfl⟩ := seq_build hbuild
  obtain ⟨_, _, h5, haccount, rfl⟩ := seq_build h6
  obtain ⟨_, _, h4, hhash, rfl⟩ := seq_build h5
  obtain ⟨_, _, h3, -, rfl⟩ := seq_build h4
  obtain ⟨_, _, h2, -, rfl⟩ := seq_build h3
  obtain ⟨_, _, h1, -, rfl⟩ := seq_build h2
  obtain ⟨_, -, rfl⟩ := map_build h1
  exact ⟨hms 4 _ rfl ▸ writes_of_build hhash, hms 5 _ rfl ▸ writes_of_build haccount⟩

theorem HashRead.writes {n? : Option Node} {written : String} (h : HashRead n n? written) :
    Writes hash n? written := by
  cases h with
  | spotOrder h => exact spotOrder_writes h
  | derivativeOrder h => exact derivativeOrder_writes h
  | marketOrder h => exact marketOrder_writes h
  | spotFill h => exact (spotFill_writes h).1
  | derivativeFill h => exact (derivativeFill_writes h).1

theorem AccountRead.writes {n? : Option Node} {written : String} (h : AccountRead n n? written) :
    Writes account n? written := by
  cases h with
  | spotFill h => exact (spotFill_writes h).2
  | derivativeFill h => exact (derivativeFill_writes h).2

end Records

/-- The base64 of a hash can be told from the digits that are written for it, and the octets of an
account from its address. -/
theorem rendering_lossless :
    (∀ n text written, HashRead n (some (.string (.ok text))) written →
      ∃ bytes, hashOctets? written = some bytes ∧ base64 bytes = text) ∧
    (∀ n n' text text' written, HashRead n (some (.string (.ok text))) written →
      HashRead n' (some (.string (.ok text'))) written → text = text') ∧
    (∀ n, ∀ n? ∈ [none, some .null, some (.string (.ok ""))], ∀ written,
      HashRead n n? written → written = "") ∧
    (∀ bytes ≠ [], "inj1".length + (8 * bytes.length + 4) / 5 + 6 ≤ 1023 → ∃ address,
      Names "inj" address bytes ∧
      (∀ depth, account depth (.string (.ok (base64 bytes))) = .ok address) ∧
      ∀ n written, AccountRead n (some (.string (.ok (base64 bytes)))) written → written = address) ∧
    (∀ bytes ≠ [], ∀ bytes' ≠ [], ∀ n n' written,
      AccountRead n (some (.string (.ok (base64 bytes)))) written →
      AccountRead n' (some (.string (.ok (base64 bytes')))) written → bytes = bytes') := by
  refine ⟨?_, ?_, ?_, ?_, ?_⟩
  · intro n text written h
    obtain ⟨bytes, rfl, rfl⟩ := hash_writes h.writes
    exact ⟨bytes, hashOctets_hashText bytes, rfl⟩
  · intro n n' text text' written h h'
    obtain ⟨bytes, rfl, rfl⟩ := hash_writes h.writes
    obtain ⟨bytes', rfl, hsame⟩ := hash_writes h'.writes
    rw [hashText_injective hsame]
  · intro n n? hblank written h
    exact hash_blank h.writes hblank
  · intro bytes hne hfits
    obtain ⟨address, haddress⟩ : ∃ address, Text.Bech32.encode? "inj" bytes = some address :=
      ⟨_, Text.Bech32.encode_eq_some_iff.mpr ⟨hfits, rfl⟩⟩
    refine ⟨address, Text.Bech32.names_of_encode haddress,
      fun depth => (account_eq_ok_iff hne depth).mpr haddress, ?_⟩
    intro n written h
    have hwritten := account_writes hne h.writes
    rw [haddress] at hwritten
    exact (Option.some.inj hwritten).symm
  · intro bytes hne bytes' hne' n n' written h h'
    have hread := (Text.Bech32.names_of_encode (account_writes hne h.writes)).read
    have hread' := (Text.Bech32.names_of_encode (account_writes hne' h'.writes)).read
    rw [hread] at hread'
    exact Option.some.inj hread'

end BlockFeed.Payload
