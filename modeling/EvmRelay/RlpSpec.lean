import EvmRelay.BigEndian

namespace EvmRelay.RlpSpec

-- Recursive length prefix, as the Ethereum specification writes it. Payloads
-- of 2^64 bytes and more have no encoding; users bound their lengths instead.
inductive Item where
  | str (bytes : List UInt8)
  | list (items : List Item)

def header (short long size : Nat) : List UInt8 :=
  if size ≤ 55 then [UInt8.ofNat (short + size)]
  else UInt8.ofNat (long + BigEndian.byteLength size) :: BigEndian.minimal size

def stringHeader (size : Nat) : List UInt8 := header 0x80 0xB7 size
def listHeader (size : Nat) : List UInt8 := header 0xC0 0xF7 size

-- A byte below 0x80 is its own encoding; everything else carries a header.
def encodeString (bytes : List UInt8) : List UInt8 :=
  if bytes.length = 1 ∧ bytes.headD 0 < 0x80 then bytes else stringHeader bytes.length ++ bytes

-- A scalar is the string of its shortest big-endian numeral.
def encodeScalar (n : Nat) : List UInt8 := encodeString (BigEndian.minimal n)

def encodeList (payload : List UInt8) : List UInt8 := listHeader payload.length ++ payload

mutual
def encode : Item → List UInt8
  | .str bytes => encodeString bytes
  | .list items => listHeader (encodeItems items).length ++ encodeItems items
def encodeItems : List Item → List UInt8
  | [] => []
  | item :: rest => encode item ++ encodeItems rest
end

-- Every way to announce a list payload, shortest or not.
inductive AnnouncesList : Nat → List UInt8 → Prop where
  | short (small : size ≤ 55) : AnnouncesList size [UInt8.ofNat (0xC0 + size)]
  | long (some : digits ≠ []) (few : digits.length ≤ 8) :
      AnnouncesList (BigEndian.value digits) (UInt8.ofNat (0xF7 + digits.length) :: digits)

theorem header_short (small : size ≤ 55) : header short long size = [UInt8.ofNat (short + size)] :=
  if_pos small

theorem header_long (large : ¬ size ≤ 55) :
    header short long size = UInt8.ofNat (long + BigEndian.byteLength size) :: BigEndian.minimal size :=
  if_neg large

theorem header_pos (short long size : Nat) : 0 < (header short long size).length := by
  unfold header
  split <;> simp

theorem byteLength_le_eight (size : Nat) (small : size < 2 ^ 64) : BigEndian.byteLength size ≤ 8 :=
  BigEndian.byteLength_le small

theorem header_length : (header short long size).length = if size ≤ 55 then 1 else 1 + BigEndian.byteLength size := by
  unfold header
  split <;> simp [Nat.add_comm]

theorem header_first (short long : Nat) (small : size < 2 ^ 64) (joined : short + 55 = long) (byte : long + 8 < 256) :
    ∃ first more, header short long size = first :: more ∧ short ≤ first.toNat ∧ first.toNat ≤ long + 8 := by
  have few := byteLength_le_eight size small
  by_cases brief : size ≤ 55
  · refine ⟨_,_,header_short brief,?_⟩
    rw [UInt8.toNat_ofNat',Nat.mod_eq_of_lt (by omega)]
    omega
  · refine ⟨_,_,header_long brief,?_⟩
    rw [UInt8.toNat_ofNat',Nat.mod_eq_of_lt (by omega)]
    omega

theorem encodeString_literal (small : byte.toNat < 0x80) : encodeString [byte] = [byte] := by
  have below : byte < 0x80 := small
  simp [encodeString,below]

theorem encodeString_headed (headed : bytes.length ≠ 1 ∨ 0x80 ≤ (bytes.headD 0).toNat) :
    encodeString bytes = stringHeader bytes.length ++ bytes := by
  apply if_neg
  intro literal
  have below : (bytes.headD 0).toNat < 0x80 := literal.2
  omega

theorem encodeString_short (small : bytes.length ≤ 55) : (encodeString bytes).length ≤ bytes.length + 1 := by
  unfold encodeString
  split
  · exact Nat.le_succ _
  · rw [List.length_append,stringHeader,header_short small,List.length_singleton,Nat.add_comm]

theorem encodeList_short (small : payload.length ≤ 55) : (encodeList payload).length = payload.length + 1 := by
  rw [encodeList,List.length_append,listHeader,header_short small,List.length_singleton,Nat.add_comm]

theorem encodeScalar_zero : encodeScalar 0 = [0x80] := by
  rw [encodeScalar,BigEndian.minimal_zero]
  rfl

theorem minimal_byte (positive : n ≠ 0) (small : n < 256) : BigEndian.minimal n = [UInt8.ofNat n] := by
  have width : BigEndian.byteLength n = 0 + 1 :=
    BigEndian.byteLength_eq (Nat.one_le_iff_ne_zero.mpr positive) (by simpa using small)
  rw [BigEndian.minimal,width]
  rfl

theorem encodeScalar_small (positive : n ≠ 0) (small : n < 0x80) : encodeScalar n = [UInt8.ofNat n] := by
  have byte : (UInt8.ofNat n).toNat = n := by rw [UInt8.toNat_ofNat',Nat.mod_eq_of_lt (by omega)]
  rw [encodeScalar,minimal_byte positive (by omega),encodeString_literal (by omega)]

theorem encodeScalar_large (large : 0x80 ≤ n) :
    encodeScalar n = stringHeader (BigEndian.byteLength n) ++ BigEndian.minimal n := by
  rw [encodeScalar,encodeString_headed,BigEndian.minimal_length]
  by_cases single : n < 256
  · right
    rw [minimal_byte (by omega) single,List.headD_cons,UInt8.toNat_ofNat',Nat.mod_eq_of_lt single]
    exact large
  left
  rw [BigEndian.minimal_length]
  intro one
  have bound := BigEndian.lt_byteLength n
  rw [one] at bound
  omega

theorem encodeString_pos (bytes : List UInt8) : 0 < (encodeString bytes).length := by
  have positive := header_pos 0x80 0xB7 bytes.length
  unfold encodeString
  split
  · omega
  · rw [List.length_append]
    exact Nat.lt_of_lt_of_le positive (Nat.le_add_right _ _)

theorem encode_pos (item : Item) : 0 < (encode item).length := by
  cases item with
  | str bytes => rw [encode]; exact encodeString_pos bytes
  | list items =>
    have positive := header_pos 0xC0 0xF7 (encodeItems items).length
    rw [encode,List.length_append]
    exact Nat.lt_of_lt_of_le positive (Nat.le_add_right _ _)

theorem listHeader_announces (small : size < 2 ^ 64) : AnnouncesList size (listHeader size) := by
  unfold listHeader
  by_cases short : size ≤ 55
  · rw [header_short short]
    exact .short short
  have positive := BigEndian.byteLength_pos (show size ≠ 0 by omega)
  have digits : BigEndian.minimal size ≠ [] := by
    intro none
    have size := BigEndian.minimal_length size
    rw [none] at size
    simp at size
    omega
  have announced := AnnouncesList.long digits (by rw [BigEndian.minimal_length]; exact byteLength_le_eight size small)
  rw [BigEndian.value_minimal,BigEndian.minimal_length] at announced
  rwa [header_long short]

theorem listHeader_shortest (announced : AnnouncesList size bytes) : (listHeader size).length ≤ bytes.length ∧
      (bytes.length = (listHeader size).length → bytes = listHeader size) := by
  cases announced with
  | short small =>
    rw [listHeader,header_short small]
    exact ⟨Nat.le_refl _,fun _ => rfl⟩
  | @long digits some few =>
    have least : BigEndian.byteLength (BigEndian.value digits) ≤ digits.length :=
      BigEndian.byteLength_le (BigEndian.value_lt ..)
    have positive : 0 < digits.length := List.length_pos_iff.mpr some
    rw [listHeader]
    by_cases short : BigEndian.value digits ≤ 55
    · rw [header_short short]
      simp only [List.length_cons,List.length_nil]
      exact ⟨by omega,fun same => by omega⟩
    rw [header_long short]
    simp only [List.length_cons,BigEndian.minimal_length]
    refine ⟨by omega,?_⟩
    intro same
    have exact_ : BigEndian.byteLength (BigEndian.value digits) = digits.length := by omega
    rw [BigEndian.minimal,exact_,BigEndian.fixed_value]

end EvmRelay.RlpSpec
