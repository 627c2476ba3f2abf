import EvmRelay.FrameCipher

namespace EvmRelay.Rlpx

inductive AuthError where
  | kEciesDecryptFailed | kInvalidAuthMessage | kInvalidAckMessage | kSharedSecretFailed | kSignatureInvalid
  | kInvalidPublicKey
  deriving DecidableEq

-- The primitives of the handshake, among them the AES-128-CTR keystream of a
-- key and an IV.
structure AuthCrypto where
  sharedSecret : FixedBytes 64 → FixedBytes 32 → Option (FixedBytes 32)
  publicKey : FixedBytes 32 → Option (FixedBytes 64)
  signRecoverable : FixedBytes 32 → FixedBytes 32 → Option (FixedBytes 65)
  sha256 : List UInt8 → FixedBytes 32
  hmacSha256 : FixedBytes 32 → List UInt8 → FixedBytes 32
  aes128Keystream : FixedBytes 16 → FixedBytes 16 → Nat → UInt8
  keccak256 : List UInt8 → FixedBytes 32

namespace Ecies

abbrev kUncompressedPubKeySize : Nat := 65
abbrev kAesBlockSize : Nat := 16
abbrev kEciesMacSize : Nat := 32
abbrev kEciesOverheadSize : Nat := kUncompressedPubKeySize + kAesBlockSize + kEciesMacSize

structure EciesKeys where
  encKey : FixedBytes 16
  macKey : FixedBytes 32

variable (crypto : AuthCrypto)

def deriveKeys (secret : FixedBytes 32) : EciesKeys :=
  let kdfOut := (crypto.sha256 ([0,0,0,1] ++ secret.toList)).toList
  ⟨.copy 16 kdfOut,crypto.sha256 (kdfOut.drop 16)⟩

-- The output is cut to the length that EVP_EncryptUpdate reports.
def aes128Ctr (data : List UInt8) (key iv : FixedBytes 16) : List UInt8 :=
  Keystream.mask (crypto.aes128Keystream key iv) 0 (data.take (intLength data.length))

def encrypt (ephemeralPriv : FixedBytes 32) (iv : FixedBytes 16) (plaintext : List UInt8)
    (recipientPublicKey : FixedBytes 64) (sharedMacData : List UInt8) : Except AuthError (List UInt8) :=
  match crypto.publicKey ephemeralPriv with
  | none => .error .kInvalidPublicKey
  | some ephemeralPub =>
    match crypto.sharedSecret recipientPublicKey ephemeralPriv with
    | none => .error .kSharedSecretFailed
    | some secret =>
      let keys := deriveKeys crypto secret
      let ciphertext := aes128Ctr crypto plaintext keys.encKey iv
      let mac := crypto.hmacSha256 keys.macKey (iv.toList ++ ciphertext ++ sharedMacData)
      .ok (4 :: ephemeralPub.toList ++ iv.toList ++ ciphertext ++ mac.toList)

def decryptParts (ephemeralPub : FixedBytes 64) (iv : FixedBytes 16) (ciphertext mac : List UInt8)
    (recipientPrivateKey : FixedBytes 32) (sharedMacData : List UInt8) : Except AuthError (List UInt8) :=
  match crypto.sharedSecret ephemeralPub recipientPrivateKey with
  | none => .error .kSharedSecretFailed
  | some secret =>
    let keys := deriveKeys crypto secret
    if mac ≠ (crypto.hmacSha256 keys.macKey (iv.toList ++ ciphertext ++ sharedMacData)).toList then
      .error .kEciesDecryptFailed
    else .ok (aes128Ctr crypto ciphertext keys.encKey iv)

def decrypt (message : List UInt8) (recipientPrivateKey : FixedBytes 32) (sharedMacData : List UInt8) :
    Except AuthError (List UInt8) :=
  if message.length < kEciesOverheadSize then .error .kEciesDecryptFailed
  else
    let ctOffset := kUncompressedPubKeySize + kAesBlockSize
    let ctLen := message.length - kEciesOverheadSize
    decryptParts crypto (.copy 64 (message.drop 1)) (.copy 16 (message.drop kUncompressedPubKeySize))
      ((message.drop ctOffset).take ctLen) ((message.drop (ctOffset + ctLen)).take kEciesMacSize)
      recipientPrivateKey sharedMacData

variable {crypto}

theorem aes128Ctr_length (small : data.length < 2 ^ 31) : (aes128Ctr crypto data key iv).length = data.length := by
  have whole := intLength_small small
  rw [aes128Ctr,Keystream.mask_length,whole,List.take_length]

theorem aes128Ctr_fits : (aes128Ctr crypto data key iv).length < sizeLimit := by
  rw [aes128Ctr,Keystream.mask_length,List.length_take]
  have int : intLength data.length < 2 ^ 31 := by
    unfold intLength
    split
    · assumption
    · decide
  exact Nat.lt_of_le_of_lt (Nat.min_le_left _ _) (Nat.lt_trans int (by decide))

theorem decrypt_fits (decrypted : decrypt crypto message priv macData = .ok plain) : plain.length < sizeLimit := by
  unfold decrypt decryptParts at decrypted
  split at decrypted
  · cases decrypted
  split at decrypted
  · cases decrypted
  dsimp only at decrypted
  split_ifs at decrypted
  cases decrypted
  exact aes128Ctr_fits

theorem decrypt_wire (iv : FixedBytes 16) (mac : FixedBytes 32) (macData : List UInt8) :
    decrypt crypto (4 :: ephemeralPub.toList ++ iv.toList ++ ciphertext ++ mac.toList) priv macData =
      decryptParts crypto ephemeralPub iv ciphertext mac.toList priv macData := by
  generalize whole : 4 :: ephemeralPub.toList ++ iv.toList ++ ciphertext ++ mac.toList = message
  have sized : message.length = kEciesOverheadSize + ciphertext.length := by
    rw [← whole]
    simp only [List.length_append,List.length_cons,List.Vector.toList_length]
    unfold kEciesOverheadSize kUncompressedPubKeySize kAesBlockSize kEciesMacSize
    omega
  have key : message.drop 1 = ephemeralPub.toList ++ (iv.toList ++ ciphertext ++ mac.toList) := by
    rw [← whole]
    simp
  have behindKey : message.drop kUncompressedPubKeySize = iv.toList ++ (ciphertext ++ mac.toList) := by
    rw [← whole,List.append_assoc,List.append_assoc]
    exact List.drop_left' (by simp)
  have behindIv : message.drop (kUncompressedPubKeySize + kAesBlockSize) = ciphertext ++ mac.toList := by
    rw [← List.drop_drop,behindKey]
    exact List.drop_left' iv.toList_length
  have behindCiphertext :
      message.drop (kUncompressedPubKeySize + kAesBlockSize + ciphertext.length) = mac.toList := by
    rw [← List.drop_drop,behindIv,List.drop_left]
  unfold decrypt
  rw [if_neg (by omega),sized,Nat.add_sub_cancel_left]
  dsimp only
  rw [key,behindKey,behindIv,behindCiphertext,FixedBytes.copy_toList,FixedBytes.copy_toList,List.take_left,
    List.take_of_length_le mac.toList_length.le]

theorem encrypt_ok (encrypted : encrypt crypto ephemeralPriv iv plain recipientPub macData = .ok message) :
    ∃ ephemeralPub secret,crypto.publicKey ephemeralPriv = some ephemeralPub ∧
      crypto.sharedSecret recipientPub ephemeralPriv = some secret ∧
      let keys := deriveKeys crypto secret
      let ciphertext := aes128Ctr crypto plain keys.encKey iv
      message = 4 :: ephemeralPub.toList ++ iv.toList ++ ciphertext ++
        (crypto.hmacSha256 keys.macKey (iv.toList ++ ciphertext ++ macData)).toList := by
  unfold encrypt at encrypted
  split at encrypted
  · cases encrypted
  rename_i ephemeralPub ephemeral
  split at encrypted
  · cases encrypted
  rename_i secret shared
  cases encrypted
  exact ⟨ephemeralPub,secret,ephemeral,shared,rfl⟩

theorem encrypt_length (small : plain.length < 2 ^ 31)
    (encrypted : encrypt crypto ephemeralPriv iv plain recipientPub macData = .ok message) :
    message.length = plain.length + kEciesOverheadSize := by
  obtain ⟨_,_,_,_,rfl⟩ := encrypt_ok encrypted
  simp only [List.length_append,List.length_cons,List.Vector.toList_length,aes128Ctr_length small]
  unfold kEciesOverheadSize kUncompressedPubKeySize kAesBlockSize kEciesMacSize
  omega

def BindsMacData (crypto : AuthCrypto) (recipientPriv : FixedBytes 32) (message macData : List UInt8) : Prop :=
  ∀ (ephemeralPub : FixedBytes 64) (iv : FixedBytes 16) ciphertext sent received,
    message = 4 :: ephemeralPub.toList ++ iv.toList ++ ciphertext ++
      (crypto.hmacSha256 (deriveKeys crypto sent).macKey (iv.toList ++ ciphertext)).toList →
    crypto.sharedSecret ephemeralPub recipientPriv = some received →
    crypto.hmacSha256 (deriveKeys crypto received).macKey (iv.toList ++ ciphertext ++ macData) ≠
      crypto.hmacSha256 (deriveKeys crypto sent).macKey (iv.toList ++ ciphertext)

theorem decrypt_refused (binds : BindsMacData crypto recipientPriv message macData)
    (encrypted : encrypt crypto ephemeralPriv iv plain recipientPub [] = .ok message) :
    decrypt crypto message recipientPriv macData ≠ .ok found := by
  obtain ⟨_,_,_,_,rfl⟩ := encrypt_ok encrypted
  rw [List.append_nil] at binds ⊢
  rw [decrypt_wire]
  unfold decryptParts
  split
  · simp
  · rename_i secret shared
    rw [if_pos]
    · simp
    · intro same
      exact binds _ _ _ _ secret rfl shared (List.Vector.toList_injective same).symm

end Ecies
end EvmRelay.Rlpx
