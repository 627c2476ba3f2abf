import EvmRelay.Base64
import EvmRelay.Enr
import EvmRelay.ParseUtility
import Mathlib.Data.List.DropRight

namespace EvmRelay.Enr

abbrev kEnrMaxBytes : Nat := 300
abbrev kEnrPrefixLen : Nat := 4
abbrev kEnrPrefix : Text := ascii "enr:"
abbrev kBase64UpperCount : UInt8 := 26
abbrev kBase64LowerCount : UInt8 := 26
abbrev kBase64DigitCount : UInt8 := 10
abbrev kBase64LowerStart : UInt8 := kBase64UpperCount
abbrev kBase64DigitStart : UInt8 := kBase64UpperCount + kBase64LowerCount
abbrev kBase64DashIndex : UInt8 := 62
abbrev kBase64UnderIndex : UInt8 := 63
abbrev kBase64Invalid : UInt8 := 0xFF
abbrev kBase64BitsPerChar : Nat := 6
abbrev kBase64BitsPerByte : Nat := 8

def base64UrlTable (ch : UInt8) : UInt8 :=
  if 0x41 ≤ ch ∧ ch - 0x41 < kBase64UpperCount then ch - 0x41
  else if 0x61 ≤ ch ∧ ch - 0x61 < kBase64LowerCount then kBase64LowerStart + (ch - 0x61)
  else if 0x30 ≤ ch ∧ ch - 0x30 < kBase64DigitCount then kBase64DigitStart + (ch - 0x30)
  else if ch = 0x2d then kBase64DashIndex
  else if ch = 0x5f then kBase64UnderIndex
  else kBase64Invalid

-- The loop of base64url_decode. The accumulator is 32 bits wide; what is
-- shifted out of it has been written already.
def decodeChars : Text → BitVec 32 → Nat → Except Discv5Error (List UInt8)
  | [],_,_ => .ok []
  | ch :: rest,accumulator,bits =>
    let val := base64UrlTable ch
    if val = kBase64Invalid then .error .kEnrBase64DecodeFailed
    else
      let accumulator := accumulator <<< kBase64BitsPerChar ||| val.toBitVec.setWidth 32
      let bits := bits + kBase64BitsPerChar
      if bits ≥ kBase64BitsPerByte then do
        let bits := bits - kBase64BitsPerByte
        let out ← decodeChars rest accumulator bits
        return UInt8.ofBitVec ((accumulator >>> bits).setWidth 8) :: out
      else decodeChars rest accumulator bits

def base64urlDecode (body : Text) : Except Discv5Error (List UInt8) :=
  decodeChars (body.rdropWhile (· = 0x3d)) 0 0

def decodeUnbounded : Text → Nat → Nat → Except Discv5Error (List UInt8)
  | [],_,_ => .ok []
  | ch :: rest,accumulator,bits =>
    let val := base64UrlTable ch
    if val = kBase64Invalid then .error .kEnrBase64DecodeFailed
    else
      let accumulator := accumulator * 64 + val.toNat
      let bits := bits + kBase64BitsPerChar
      if bits ≥ kBase64BitsPerByte then do
        let bits := bits - kBase64BitsPerByte
        let out ← decodeUnbounded rest accumulator bits
        return UInt8.ofNat (accumulator / 2 ^ bits) :: out
      else decodeUnbounded rest accumulator bits

theorem base64UrlTable_known : ∀ ch ∈ Base64.alphabet,(base64UrlTable ch).toNat = Base64.alphabet.idxOf ch := by decide +kernel

theorem base64UrlTable_valid_iff : base64UrlTable ch ≠ kBase64Invalid ↔ ch ∈ Base64.alphabet := by
  have all : ∀ n < 256,base64UrlTable (UInt8.ofNat n) ≠ kBase64Invalid ↔ UInt8.ofNat n ∈ Base64.alphabet := by decide +kernel
  simpa using all ch.toNat ch.toNat_lt

theorem accumulator_byte {accumulator : BitVec 32} (same : accumulator.toNat = n % 2 ^ 32) (few : bits ≤ 24) :
    UInt8.ofBitVec ((accumulator >>> bits).setWidth 8) = UInt8.ofNat (n / 2 ^ bits) := by
  have split : 2 ^ 32 = 2 ^ bits * 2 ^ (32 - bits) := by rw [← Nat.pow_add,Nat.add_sub_cancel' (by omega)]
  apply UInt8.toNat_inj.mp
  rw [UInt8.toNat_ofBitVec,BitVec.toNat_setWidth,BitVec.toNat_ushiftRight,UInt8.toNat_ofNat',same,Nat.shiftRight_eq_div_pow,split,
    Nat.mod_mul_right_div_self,Nat.mod_mod_of_dvd _ (Nat.pow_dvd_pow 2 (by omega))]

-- Only the low bits of the accumulator are ever written, and those are right.
theorem decodeChars_unbounded (text : Text) (same : accumulator.toNat = n % 2 ^ 32) (few : bits < 8) :
    decodeChars text accumulator bits = decodeUnbounded text n bits := by
  induction text generalizing accumulator n bits with
  | nil => rfl
  | cons ch rest ih =>
    rw [decodeChars,decodeUnbounded]
    dsimp only [kBase64BitsPerChar,kBase64BitsPerByte]
    by_cases valid : base64UrlTable ch = kBase64Invalid
    · rw [if_pos valid,if_pos valid]
    have small : (base64UrlTable ch).toNat < 64 := by
      have known := base64UrlTable_valid_iff.mp valid
      rw [base64UrlTable_known ch known]
      exact Base64.idxOf_lt known
    have next : (accumulator <<< 6 ||| (base64UrlTable ch).toBitVec.setWidth 32).toNat = (n * 64 + (base64UrlTable ch).toNat) % 2 ^ 32 := by
      have low : (base64UrlTable ch).toNat % 2 ^ 32 = (base64UrlTable ch).toNat := by omega
      rw [BitVec.toNat_or,BitVec.toNat_shiftLeft,BitVec.toNat_setWidth,UInt8.toNat_toBitVec,low,Nat.shiftLeft_eq,Nat.mul_comm,
        show 2 ^ 32 = 2 ^ 6 * 2 ^ 26 from rfl,Nat.mul_mod_mul_left,← Nat.two_pow_add_eq_or_of_lt small]
      omega
    split_ifs with full
    · rw [ih next (by omega),accumulator_byte next (by omega)]
    · rw [ih next (by omega)]

theorem leading_byte (small : low < 64 ^ count) :
    (n * 64 ^ count + low) / 2 ^ ((bits + 6 * count) % 8) / 256 ^ ((bits + 6 * count) / 8) = n / 2 ^ bits := by
  rw [show 256 = 2 ^ 8 from rfl,← Nat.pow_mul,Nat.div_div_eq_div_mul,← Nat.pow_add,Nat.mod_add_div,Nat.add_comm bits,Nat.pow_add,
    Nat.pow_mul,← Nat.div_div_eq_div_mul,Nat.add_comm,Nat.add_mul_div_right _ _ (by positivity),
    Nat.div_eq_of_lt small,Nat.zero_add]

theorem decodeUnbounded_known (known : ∀ ch ∈ text,ch ∈ Base64.alphabet) (few : bits < 8) : decodeUnbounded text n bits =
    .ok (BigEndian.fixed ((bits + 6 * text.length) / 8)
      ((n * 64 ^ text.length + Base64.value text) / 2 ^ ((bits + 6 * text.length) % 8))) := by
  induction text generalizing n bits with
  | nil =>
    rw [List.length_nil,Nat.add_zero,Nat.div_eq_of_lt few]
    rfl
  | cons ch rest ih =>
    have first := known ch List.mem_cons_self
    have later := fun ch member => known ch (List.mem_cons_of_mem _ member)
    have number : n * 64 ^ (ch :: rest).length + Base64.value (ch :: rest) =
        (n * 64 + Base64.alphabet.idxOf ch) * 64 ^ rest.length + Base64.value rest := by
      rw [List.length_cons,Base64.value]
      ring
    rw [decodeUnbounded]
    dsimp only [kBase64BitsPerChar,kBase64BitsPerByte]
    rw [if_neg (base64UrlTable_valid_iff.mpr first),base64UrlTable_known ch first,number]
    generalize n * 64 + Base64.alphabet.idxOf ch = n
    split_ifs with full
    · have count : (bits + 6 * (ch :: rest).length) / 8 = 1 + (bits + 6 - 8 + 6 * rest.length) / 8 := by
        rw [List.length_cons]
        omega
      have left : (bits + 6 * (ch :: rest).length) % 8 = (bits + 6 - 8 + 6 * rest.length) % 8 := by
        rw [List.length_cons]
        omega
      rw [ih later (by omega),count,left,BigEndian.fixed_append,leading_byte (Base64.value_lt later)]
      rfl
    · rw [ih later (by omega),List.length_cons,Nat.mul_succ,Nat.add_right_comm,Nat.add_assoc]

theorem decodeUnbounded_unknown (unknown : ¬ ∀ ch ∈ text,ch ∈ Base64.alphabet) :
    decodeUnbounded text n bits = .error .kEnrBase64DecodeFailed := by
  induction text generalizing n bits with
  | nil => exact absurd nofun unknown
  | cons ch rest ih =>
    rw [decodeUnbounded]
    dsimp only
    by_cases first : ch ∈ Base64.alphabet
    · have later : ¬ ∀ ch ∈ rest,ch ∈ Base64.alphabet := fun all => unknown (List.forall_mem_cons.mpr ⟨first,all⟩)
      rw [if_neg (base64UrlTable_valid_iff.mpr first),ih later,ih later]
      split
      · rfl
      · rfl
    · rw [if_pos (not_not.mp (mt base64UrlTable_valid_iff.mp first))]

theorem encode_stripped (bytes : List UInt8) (count : Nat) :
    (Base64.encode bytes ++ List.replicate count 0x3d).rdropWhile (· = 0x3d) = Base64.encode bytes := by
  have plain : (Base64.encode bytes).rdropWhile (· = 0x3d) = Base64.encode bytes := by
    refine List.rdropWhile_eq_self_iff.mpr fun some last => ?_
    have known := Base64.digits_known _ _ _ (List.getLast_mem some)
    rw [of_decide_eq_true last] at known
    exact absurd known (by decide +kernel)
  rw [List.rdropWhile,List.reverse_append,List.reverse_replicate,List.dropWhile_append_of_pos fun c member => ?_]
  · exact plain
  · exact decide_eq_true (List.eq_of_mem_replicate member)

-- The text is taken for the bits of its characters, of which the last ones that
-- make no whole byte are dropped; nothing depends on the width of the accumulator.
theorem base64url_codec : (∀ bytes,base64urlDecode (Base64.encode bytes) = .ok bytes ∧
      base64urlDecode (Base64.encode bytes ++ Base64.padding bytes) = .ok bytes) ∧
    (∀ body out,base64urlDecode body = .ok out ↔ (∀ ch ∈ body.rdropWhile (· = 0x3d),ch ∈ Base64.alphabet) ∧
      out = Base64.leading (body.rdropWhile (· = 0x3d))) ∧
    ∀ body,base64urlDecode body = decodeUnbounded (body.rdropWhile (· = 0x3d)) 0 0 := by
  have unbounded (body : Text) : base64urlDecode body = decodeUnbounded (body.rdropWhile (· = 0x3d)) 0 0 :=
    decodeChars_unbounded _ rfl (by decide)
  have decoded (body : Text) (known : ∀ ch ∈ body.rdropWhile (· = 0x3d),ch ∈ Base64.alphabet) :
      base64urlDecode body = .ok (Base64.leading (body.rdropWhile (· = 0x3d))) := by
    rw [unbounded,decodeUnbounded_known known (by decide),Nat.zero_mul,Nat.zero_add,Nat.zero_add]
    rfl
  have encoded (bytes : List UInt8) (count : Nat) : base64urlDecode (Base64.encode bytes ++ List.replicate count 0x3d) = .ok bytes := by
    rw [decoded,encode_stripped,Base64.leading_encode]
    rw [encode_stripped]
    exact Base64.digits_known _ _
  refine ⟨fun bytes => ⟨?_,encoded bytes _⟩,fun body out => ?_,unbounded⟩
  · have bare := encoded bytes 0
    rwa [List.replicate_zero,List.append_nil] at bare
  · by_cases known : ∀ ch ∈ body.rdropWhile (· = 0x3d),ch ∈ Base64.alphabet
    · rw [decoded body known,and_iff_right known,Except.ok.injEq,eq_comm]
    · rw [unbounded,decodeUnbounded_unknown known]
      exact iff_of_false nofun fun both => known both.1

def decodeUri (enrUri : Text) : Except Discv5Error (List UInt8) :=
  if enrUri.length < kEnrPrefixLen ∨ enrUri.take kEnrPrefixLen ≠ kEnrPrefix then .error .kEnrMissingPrefix
  else base64urlDecode (enrUri.drop kEnrPrefixLen)

def parse (crypto : Crypto) (text : AddressText) (enrUri : Text) : Checked Discv5Error EnrRecord :=
  match decodeUri enrUri with
  | .error error => .error (.returned error)
  | .ok raw =>
    if small : raw.length ≤ kEnrMaxBytes then
      decodeRlp text ⟨raw,Nat.lt_of_le_of_lt small (by decide)⟩ >>= verifySignature crypto
    else .error (.returned .kEnrTooLarge)

end EvmRelay.Enr
