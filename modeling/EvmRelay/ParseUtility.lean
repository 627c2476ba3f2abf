import EvmRelay.MachineWords

namespace EvmRelay

abbrev Text := List UInt8

namespace ParseUtility

def hexNibble (c : UInt8) : Option UInt8 :=
  if 0x30 ≤ c ∧ c ≤ 0x39 then some (c - 0x30)
  else if 0x61 ≤ c ∧ c ≤ 0x66 then some (10 + (c - 0x61))
  else if 0x41 ≤ c ∧ c ≤ 0x46 then some (10 + (c - 0x41))
  else none

def trimHexPrefix (value : Text) : Text :=
  match value with
  | zero :: x :: rest => if zero = 0x30 ∧ (x = 0x78 ∨ x = 0x58) then rest else value
  | _ => value

-- std::from_chars in base 16 on a text it has to use up: hexadecimal digits of
-- either case, and a number that fits.
def fromCharsHex (value : Text) : Option (BitVec 64) := do
  let digits ← value.mapM hexNibble
  let number := digits.foldl (fun number digit => 16 * number + digit.toNat) 0
  if number < 2 ^ 64 then some (BitVec.ofNat 64 number) else none

def uint64Hex (value : Text) : Option (BitVec 64) :=
  if trimHexPrefix value = [] then none else fromCharsHex (trimHexPrefix value)

def decimalDigit (c : UInt8) : Option UInt8 := if 0x30 ≤ c ∧ c ≤ 0x39 then some (c - 0x30) else none

-- std::from_chars in base 10, likewise: at least one digit, no sign.
def fromCharsDecimal (width : Nat) (value : Text) : Option (BitVec width) :=
  if value = [] then none
  else do
    let digits ← value.mapM decimalDigit
    let number := digits.foldl (fun number digit => 10 * number + digit.toNat) 0
    if number < 2 ^ width then some (BitVec.ofNat width number) else none

def uint16Decimal (value : Text) : Option (BitVec 16) := fromCharsDecimal 16 value

-- std::to_chars in base 16: lower case, no leading zeros.
def toCharsHex (value : BitVec 64) : Text :=
  (Nat.toDigits 16 value.toNat).map fun c => UInt8.ofNat c.toNat

def uint64HexQuantity (value : BitVec 64) : Text :=
  if value = 0 then ascii "0x0" else ascii "0x" ++ toCharsHex value

-- The digit loop shared by hex_bytes and hex_array. Both have rejected a text
-- with an odd number of digits before it starts.
def hexPairs : Text → Option (List UInt8)
  | [] => some []
  | [_] => none
  | high :: low :: rest => do
    let high ← hexNibble high
    let low ← hexNibble low
    let bytes ← hexPairs rest
    return (high <<< 4 ||| low) :: bytes

def hexBytes (value : Text) : Option (List UInt8) := hexPairs (trimHexPrefix value)

def hexArray (count : Nat) (value : Text) : Option (FixedBytes count) := do
  let bytes ← hexPairs (trimHexPrefix value)
  if exact : bytes.length = count then some ⟨bytes,exact⟩ else none

def hexAlphabet (nibble : UInt8) : UInt8 := if nibble < 10 then 0x30 + nibble else 0x57 + nibble

def hexBytesString (bytes : List UInt8) : Text :=
  ascii "0x" ++ bytes.flatMap fun (byte : UInt8) => [hexAlphabet (byte >>> 4),hexAlphabet (byte &&& 0x0f)]

def hexArrayString (value : FixedBytes count) : Text := hexBytesString value.toList

def asciiLower (value : Text) : Text := value.map fun ch => if 0x41 ≤ ch ∧ ch ≤ 0x5a then ch - 0x41 + 0x61 else ch

theorem asciiLower_hexAlphabet (small : nibble < 16) : asciiLower [hexAlphabet nibble] = [hexAlphabet nibble] := by
  have every : ∀ nibble : Fin 16,asciiLower [hexAlphabet (UInt8.ofNat nibble)] = [hexAlphabet (UInt8.ofNat nibble)] := by decide
  simpa using every ⟨nibble.toNat,UInt8.lt_iff_toNat_lt.mp small⟩

theorem asciiLower_append : asciiLower (front ++ back) = asciiLower front ++ asciiLower back :=
  List.map_append

theorem asciiLower_hexBytesString : asciiLower (hexBytesString bytes) = hexBytesString bytes := by
  unfold hexBytesString
  rw [asciiLower_append]
  congr 1
  induction bytes with
  | nil => rfl
  | cons byte rest ih =>
    have high : byte >>> 4 < 16 := by
      rw [UInt8.lt_iff_toNat_lt,UInt8.toNat_shiftRight]
      have small := byte.toNat_lt
      simp only [Nat.shiftRight_eq_div_pow]
      exact Nat.div_lt_of_lt_mul small
    have low : byte &&& 0x0f < 16 := by
      rw [UInt8.lt_iff_toNat_lt,UInt8.toNat_and]
      exact Nat.lt_succ_of_le Nat.and_le_right
    rw [List.flatMap_cons,asciiLower_append,ih]
    congr 1
    rw [← List.singleton_append,asciiLower_append,asciiLower_hexAlphabet high,asciiLower_hexAlphabet low]

theorem hexNibble_digitChar (small : digit < 16) :
    hexNibble (UInt8.ofNat (Nat.digitChar digit).toNat) = some (UInt8.ofNat digit) := by
  interval_cases digit <;> decide

theorem toDigits_read (base : Nat) (atLeast : 1 < base) (atMost : base ≤ 16) : ∃ digits : List UInt8,
    ((Nat.toDigits base number).map fun c => UInt8.ofNat c.toNat).mapM hexNibble = some digits ∧
      digits.foldl (fun number digit => base * number + digit.toNat) 0 = number := by
  induction number using Nat.strong_induction_on with
  | _ number ih =>
    by_cases small : number < base
    · refine ⟨[UInt8.ofNat number],?_,?_⟩
      · rw [Nat.toDigits_of_lt_base small]
        simp [hexNibble_digitChar (small.trans_le atMost)]
      · simp only [List.foldl_cons,List.foldl_nil,UInt8.toNat_ofNat',Nat.mul_zero,Nat.zero_add]
        omega
    · have last : number % base < base := Nat.mod_lt _ (by omega)
      obtain ⟨digits,read,value⟩ := ih (number / base) (Nat.div_lt_self (by omega) atLeast)
      refine ⟨digits ++ [UInt8.ofNat (number % base)],?_,?_⟩
      · have front : 0 < number / base := Nat.div_pos (by omega) (by omega)
        have spelled : Nat.toDigits base number = Nat.toDigits base (number / base) ++ Nat.toDigits base (number % base) := by
          rw [Nat.toDigits_append_toDigits atLeast front last,Nat.div_add_mod]
        rw [spelled,List.map_append,List.mapM_append,read,Nat.toDigits_of_lt_base last]
        simp [hexNibble_digitChar (last.trans_le atMost)]
      · have digit : (UInt8.ofNat (number % base)).toNat = number % base := by
          rw [UInt8.toNat_ofNat']
          omega
        rw [List.foldl_append,value,List.foldl_cons,List.foldl_nil,digit,Nat.div_add_mod]

end ParseUtility
end EvmRelay
