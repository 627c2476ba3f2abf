import EvmRelay.MachineWords
import EvmRelay.Keystream

namespace EvmRelay.Rlpx

-- The AES-256-CTR keystream of a key with the zero IV, one AES-256 block, and
-- Keccak-256.
structure FrameCrypto where
  keystream : FixedBytes 32 → Nat → UInt8
  aesBlock : FixedBytes 32 → List UInt8 → FixedBytes 16
  keccak256 : List UInt8 → FixedBytes 32

abbrev kFrameHeaderSize : Nat := 16
abbrev kMacSize : Nat := 16
abbrev kFramePaddingAlignment : Nat := 16
abbrev kFrameHeaderWithMacSize : Nat := kFrameHeaderSize + kMacSize
abbrev kMaxFrameSizeMiB : Nat := 16
abbrev kMaxFrameSize : Nat := kMaxFrameSizeMiB * 1024 * 1024

inductive FramingError where
  | kInvalidFrameSize | kMacMismatch
  deriving DecidableEq

structure FrameSecrets where
  aesSecret : FixedBytes 32
  macSecret : FixedBytes 32
  egressMacSeed : List UInt8
  ingressMacSeed : List UInt8
  deriving DecidableEq

structure HashMAC where
  macKey : FixedBytes 32
  written : List UInt8
  deriving DecidableEq

namespace HashMAC

def write (mac : HashMAC) (data : List UInt8) : HashMAC := { mac with written := mac.written ++ data }

def sum (crypto : FrameCrypto) (mac : HashMAC) : FixedBytes 32 := crypto.keccak256 mac.written

def compute (crypto : FrameCrypto) (mac : HashMAC) (sum1 : FixedBytes 32) (seed16 : List UInt8) :
    List UInt8 × HashMAC :=
  let aesBuf := (crypto.aesBlock mac.macKey (sum1.toList.take 16)).toList
  let mac := mac.write (List.zipWith (· ^^^ ·) aesBuf seed16)
  ((mac.sum crypto).toList.take 16,mac)

def computeHeader (crypto : FrameCrypto) (mac : HashMAC) (headerCt16 : List UInt8) : List UInt8 × HashMAC :=
  mac.compute crypto (mac.sum crypto) headerCt16

def computeFrame (crypto : FrameCrypto) (mac : HashMAC) (framedata : List UInt8) : List UInt8 × HashMAC :=
  let mac := mac.write framedata
  mac.compute crypto (mac.sum crypto) (mac.sum crypto).toList

end HashMAC

-- The byte count that EVP_EncryptUpdate takes is an int: a size_t is narrowed
-- to it, and nothing is written for a negative one.
def intLength (size : Nat) : Nat := if size % 2 ^ 32 < 2 ^ 31 then size % 2 ^ 32 else 0

-- AesCtrState::process into a zeroed buffer of the same size, with the position
-- reached in the keystream.
def process (stream : Nat → UInt8) (position : Nat) (input : List UInt8) : List UInt8 × Nat :=
  let len := intLength input.length
  (Keystream.mask stream position (input.take len) ++ List.replicate (input.length - len) 0,position + len)

structure FrameCipher where
  secrets : FrameSecrets
  encAt : Nat
  decAt : Nat
  egressMac : HashMAC
  ingressMac : HashMAC
  deriving DecidableEq

structure FrameDecryptParams where
  headerCiphertext : List UInt8
  headerMac : List UInt8
  frameCiphertext : List UInt8
  frameMac : List UInt8

def framePadding (fsize : Nat) : Nat :=
  if fsize % kFramePaddingAlignment ≠ 0 then kFramePaddingAlignment - fsize % kFramePaddingAlignment else 0

def frameHeader (fsize : Nat) : List UInt8 :=
  [UInt8.ofNat (fsize >>> 16 &&& 0xFF),UInt8.ofNat (fsize >>> 8 &&& 0xFF),UInt8.ofNat (fsize >>> 0 &&& 0xFF),
    0xC2,0x80,0x80] ++ List.replicate 10 0

def lengthField (headerPt : List UInt8) : Nat :=
  (headerPt.getD 0 0).toNat <<< 16 ||| (headerPt.getD 1 0).toNat <<< 8 ||| (headerPt.getD 2 0).toNat <<< 0

structure SealedFrame where
  headerCt : List UInt8
  headerMac : List UInt8
  frameCt : List UInt8
  frameMac : List UInt8

def SealedFrame.wire (sealed : SealedFrame) : List UInt8 :=
  sealed.headerCt ++ sealed.headerMac ++ sealed.frameCt ++ sealed.frameMac

namespace FrameCipher

def new (secrets : FrameSecrets) : FrameCipher :=
  ⟨secrets,0,0,⟨secrets.macSecret,secrets.egressMacSeed⟩,⟨secrets.macSecret,secrets.ingressMacSeed⟩⟩

variable (crypto : FrameCrypto)

def encrypt (cipher : FrameCipher) (plain : List UInt8) : List UInt8 × FrameCipher :=
  let done := process (crypto.keystream cipher.secrets.aesSecret) cipher.encAt plain
  (done.1,{ cipher with encAt := done.2 })

def decrypt (cipher : FrameCipher) (ciphertext : List UInt8) : List UInt8 × FrameCipher :=
  let done := process (crypto.keystream cipher.secrets.aesSecret) cipher.decAt ciphertext
  (done.1,{ cipher with decAt := done.2 })

def egress (compute : HashMAC → List UInt8 → List UInt8 × HashMAC) (cipher : FrameCipher) (ciphertext : List UInt8) :
    List UInt8 × FrameCipher :=
  let mac := compute cipher.egressMac ciphertext
  (mac.1,{ cipher with egressMac := mac.2 })

def ingress (compute : HashMAC → List UInt8 → List UInt8 × HashMAC) (cipher : FrameCipher) (ciphertext : List UInt8) :
    List UInt8 × FrameCipher :=
  let mac := compute cipher.ingressMac ciphertext
  (mac.1,{ cipher with ingressMac := mac.2 })

def egressHeader := egress (HashMAC.computeHeader crypto)
def egressFrame := egress (HashMAC.computeFrame crypto)
def ingressHeader := ingress (HashMAC.computeHeader crypto)
def ingressFrame := ingress (HashMAC.computeFrame crypto)

def sealFrame (cipher : FrameCipher) (frameData : List UInt8) : SealedFrame × FrameCipher :=
  let header := cipher.encrypt crypto (frameHeader frameData.length)
  let headerMac := egressHeader crypto header.2 header.1
  let frame := headerMac.2.encrypt crypto (frameData ++ List.replicate (framePadding frameData.length) 0)
  let frameMac := egressFrame crypto frame.2 frame.1
  (⟨header.1,headerMac.1,frame.1,frameMac.1⟩,frameMac.2)

def encryptFrame (cipher : FrameCipher) (frameData : List UInt8) :
    Except FramingError (List UInt8) × FrameCipher :=
  if frameData = [] ∨ frameData.length > kMaxFrameSize then (.error .kInvalidFrameSize,cipher)
  else (.ok (cipher.sealFrame crypto frameData).1.wire,(cipher.sealFrame crypto frameData).2)

def decryptHeader (cipher : FrameCipher) (headerCt headerMacWire : List UInt8) :
    Except FramingError Nat × FrameCipher :=
  let expected := ingressHeader crypto cipher headerCt
  if headerMacWire ≠ expected.1 then (.error .kMacMismatch,expected.2)
  else
    let headerPt := expected.2.decrypt crypto headerCt
    let fsize := lengthField headerPt.1
    if fsize = 0 ∨ fsize > kMaxFrameSize then (.error .kInvalidFrameSize,headerPt.2)
    else (.ok fsize,headerPt.2)

def decryptFrame (cipher : FrameCipher) (params : FrameDecryptParams) :
    Except FramingError (List UInt8) × FrameCipher :=
  if params.headerCiphertext.length < kFrameHeaderSize ∨ params.headerMac.length < kMacSize ∨
      params.frameMac.length < kMacSize then (.error .kInvalidFrameSize,cipher)
  else
    match cipher.decryptHeader crypto (params.headerCiphertext.take kFrameHeaderSize) (params.headerMac.take kMacSize) with
    | (.error error,cipher) => (.error error,cipher)
    | (.ok fsize,cipher) =>
      if params.frameCiphertext.length < fsize then (.error .kInvalidFrameSize,cipher)
      else
        let expected := ingressFrame crypto cipher params.frameCiphertext
        if params.frameMac.take kMacSize ≠ expected.1 then (.error .kMacMismatch,expected.2)
        else
          let framePt := expected.2.decrypt crypto params.frameCiphertext
          (.ok (framePt.1.take fsize),framePt.2)

def decryptFrameBody (cipher : FrameCipher) (fsize : Nat) (frameCtPadded frameMac : List UInt8) :
    Except FramingError (List UInt8) × FrameCipher :=
  if frameCtPadded.length < fsize ∨ frameMac.length < kMacSize then (.error .kInvalidFrameSize,cipher)
  else
    let expected := ingressFrame crypto cipher frameCtPadded
    if frameMac.take kMacSize ≠ expected.1 then (.error .kMacMismatch,expected.2)
    else
      let framePt := expected.2.decrypt crypto frameCtPadded
      (.ok (framePt.1.take fsize),framePt.2)

-- decrypt_header on the two spans, then decrypt_frame_body where it succeeds.
def decryptInTwoSteps (cipher : FrameCipher) (params : FrameDecryptParams) :
    Except FramingError (List UInt8) × FrameCipher :=
  match cipher.decryptHeader crypto (params.headerCiphertext.take kFrameHeaderSize) (params.headerMac.take kMacSize) with
  | (.error error,cipher) => (.error error,cipher)
  | (.ok fsize,cipher) => cipher.decryptFrameBody crypto fsize params.frameCiphertext params.frameMac

end FrameCipher

theorem intLength_small (small : size < 2 ^ 31) : intLength size = size := by
  have whole : size % 2 ^ 32 = size := Nat.mod_eq_of_lt (Nat.lt_trans small (by decide))
  rw [intLength,whole,if_pos small]

theorem process_small (stream : Nat → UInt8) (small : input.length < 2 ^ 31) :
    process stream position input = (Keystream.mask stream position input,position + input.length) := by
  simp [process,intLength_small small]

theorem frameHeader_length : (frameHeader fsize).length = 16 := rfl

theorem three_bytes (middleByte : middle < 256) (lowByte : low < 256) :
    high <<< 16 ||| middle <<< 8 ||| low <<< 0 = high * 65536 + middle * 256 + low := by
  have lower : middle <<< 8 ||| low = middle * 256 + low := by
    rw [← Nat.shiftLeft_add_eq_or_of_lt lowByte,Nat.shiftLeft_eq]
  rw [Nat.shiftLeft_zero,Nat.or_assoc,lower,← Nat.shiftLeft_add_eq_or_of_lt (by omega),Nat.shiftLeft_eq]
  omega

theorem byte_at : (UInt8.ofNat (value >>> position &&& 0xFF)).toNat = value / 2 ^ position % 256 := by
  rw [Nat.shiftRight_eq_div_pow,show 0xFF = 2 ^ 8 - 1 from rfl,Nat.and_two_pow_sub_one_eq_mod]
  simp

theorem lengthField_frameHeader : lengthField (frameHeader fsize) = fsize % 2 ^ 24 := by
  change (UInt8.ofNat _).toNat <<< 16 ||| (UInt8.ofNat _).toNat <<< 8 ||| (UInt8.ofNat _).toNat <<< 0 = _
  rw [byte_at,byte_at,byte_at,three_bytes (Nat.mod_lt _ (by decide)) (Nat.mod_lt _ (by decide))]
  omega

theorem framePadding_aligned (fsize : Nat) : (fsize + framePadding fsize) % 16 = 0 ∧ framePadding fsize < 16 := by
  unfold framePadding kFramePaddingAlignment
  split <;> omega

namespace HashMAC

variable (crypto : FrameCrypto) (mac : HashMAC)

theorem compute_length : (mac.compute crypto sum1 seed16).1.length = 16 := by
  simp [compute]

theorem computeHeader_length : (mac.computeHeader crypto headerCt).1.length = 16 :=
  compute_length ..

theorem computeFrame_length : (mac.computeFrame crypto framedata).1.length = 16 :=
  compute_length ..

end HashMAC

namespace FrameCipher

-- The two ends of a channel: each has read what the other has written.
structure Mirrored (one other : FrameCipher) : Prop where
  aesSecret : one.secrets.aesSecret = other.secrets.aesSecret
  outward : one.encAt = other.decAt
  inward : one.decAt = other.encAt
  outwardMac : one.egressMac = other.ingressMac
  inwardMac : one.ingressMac = other.egressMac

variable {sender : FrameCipher}

theorem encrypt_length (cipher : FrameCipher) (plain : List UInt8) :
    (cipher.encrypt crypto plain).1.length = plain.length := by
  have bound : intLength plain.length ≤ plain.length := by
    unfold intLength
    split <;> omega
  simp [encrypt,process,bound]

theorem encrypt_small (cipher : FrameCipher) (small : plain.length < 2 ^ 31) : cipher.encrypt crypto plain =
    (Keystream.mask (crypto.keystream cipher.secrets.aesSecret) cipher.encAt plain,
      { cipher with encAt := cipher.encAt + plain.length }) := by
  simp [encrypt,process_small _ small]

theorem decrypt_small (cipher : FrameCipher) (small : ciphertext.length < 2 ^ 31) : cipher.decrypt crypto ciphertext =
      (Keystream.mask (crypto.keystream cipher.secrets.aesSecret) cipher.decAt ciphertext,
        { cipher with decAt := cipher.decAt + ciphertext.length }) := by
  simp [decrypt,process_small _ small]

section
variable (crypto : FrameCrypto)

theorem Mirrored.exchanged (compute : HashMAC → List UInt8 → List UInt8 × HashMAC)
    (mirrored : Mirrored sender receiver) (small : plain.length < 2 ^ 31) :
    let sent := sender.encrypt crypto plain
    let mac := egress compute sent.2 sent.1
    let expected := ingress compute receiver sent.1
    let got := expected.2.decrypt crypto sent.1
    mac.1 = expected.1 ∧ got.1 = plain ∧ Mirrored mac.2 got.2 := by
  obtain ⟨key,outward,inward,outwardMac,inwardMac⟩ := mirrored
  have sized : (sender.encrypt crypto plain).1.length < 2 ^ 31 := by rwa [encrypt_length]
  intro sent mac expected got
  simp only [got,mac,expected,sent,decrypt_small _ sized]
  rw [encrypt_small _ small]
  refine ⟨?_,?_,key,?_,inward,?_,inwardMac⟩
  · simp [egress,ingress,outwardMac]
  · simp [ingress,key,outward]
  · simp [egress,ingress,outward]
  · simp [egress,ingress,outwardMac]

theorem Mirrored.decryptHeader (mirrored : Mirrored sender receiver) (fsize : Nat) :
    let header := sender.encrypt crypto (frameHeader fsize)
    let headerMac := egressHeader crypto header.2 header.1
    ∃ after,Mirrored headerMac.2 after ∧ receiver.decryptHeader crypto header.1 headerMac.1 =
      (if fsize % 2 ^ 24 = 0 then .error .kInvalidFrameSize else .ok (fsize % 2 ^ 24),after) := by
  intro header headerMac
  have small : (frameHeader fsize).length < 2 ^ 31 := by
    rw [frameHeader_length]
    decide
  obtain ⟨accepted,read,after⟩ := mirrored.exchanged crypto (HashMAC.computeHeader crypto) small
  have bound : ¬ fsize % 2 ^ 24 > kMaxFrameSize := Nat.not_lt.mpr (Nat.le_of_lt (Nat.mod_lt _ (by decide)))
  have same : ¬ headerMac.1 ≠ (ingressHeader crypto receiver header.1).1 := not_not.mpr accepted
  refine ⟨_,after,?_⟩
  rw [FrameCipher.decryptHeader]
  simp only [same,if_false]
  rw [ingressHeader,read,lengthField_frameHeader]
  simp only [bound,or_false]
  split <;> rfl

theorem Mirrored.decryptFrameBody (mirrored : Mirrored sender receiver)
    (small : (frameData ++ padding).length < 2 ^ 31) :
    let frame := sender.encrypt crypto (frameData ++ padding)
    let frameMac := egressFrame crypto frame.2 frame.1
    ∃ after,Mirrored frameMac.2 after ∧
      receiver.decryptFrameBody crypto frameData.length frame.1 frameMac.1 = (.ok frameData,after) := by
  intro frame frameMac
  obtain ⟨accepted,read,after⟩ := mirrored.exchanged crypto (HashMAC.computeFrame crypto) small
  have whole : frameMac.1.length = kMacSize := HashMAC.computeFrame_length ..
  have sized : ¬ (frame.1.length < frameData.length ∨ frameMac.1.length < kMacSize) := by
    rw [encrypt_length,whole]
    simp
  have same : ¬ frameMac.1.take kMacSize ≠ (ingressFrame crypto receiver frame.1).1 := by
    rw [List.take_of_length_le (Nat.le_of_eq whole)]
    exact not_not.mpr accepted
  refine ⟨_,after,?_⟩
  rw [FrameCipher.decryptFrameBody,if_neg sized]
  simp only [same,if_false]
  rw [ingressFrame,read,List.take_left']
  rfl

theorem sealFrame_sized (cipher : FrameCipher) (frameData : List UInt8) :
    let sealed := (cipher.sealFrame crypto frameData).1
    sealed.headerCt.length = kFrameHeaderSize ∧ sealed.headerMac.length = kMacSize ∧
      sealed.frameCt.length = frameData.length + framePadding frameData.length ∧ sealed.frameMac.length = kMacSize := by
  refine ⟨?_,HashMAC.computeHeader_length ..,?_,HashMAC.computeFrame_length ..⟩
  · simp [sealFrame,encrypt_length,frameHeader_length]
  · simp [sealFrame,encrypt_length]

theorem encryptFrame_accepted (cipher : FrameCipher) (nonempty : frameData ≠ [])
    (small : frameData.length ≤ kMaxFrameSize) : cipher.encryptFrame crypto frameData =
      (.ok (cipher.sealFrame crypto frameData).1.wire,(cipher.sealFrame crypto frameData).2) :=
  if_neg (not_or.mpr ⟨nonempty,Nat.not_lt.mpr small⟩)

end

theorem encryptFrame_ok (encrypted : sender.encryptFrame crypto frameData = (.ok wire,sent)) :
    frameData ≠ [] ∧ frameData.length ≤ kMaxFrameSize ∧ wire = (sender.sealFrame crypto frameData).1.wire ∧
      sent = (sender.sealFrame crypto frameData).2 := by
  rw [encryptFrame] at encrypted
  split_ifs at encrypted with accepted
  · simp at encrypted
  · obtain ⟨nonempty,small⟩ := not_or.mp accepted
    simp only [Prod.mk.injEq,Except.ok.injEq] at encrypted
    exact ⟨nonempty,Nat.not_lt.mp small,encrypted.1.symm,encrypted.2.symm⟩

theorem Mirrored.sealFrame (crypto : FrameCrypto) (mirrored : Mirrored sender receiver)
    (small : frameData.length ≤ kMaxFrameSize) :
    let sealed := (sender.sealFrame crypto frameData).1
    ∃ middle,receiver.decryptHeader crypto sealed.headerCt sealed.headerMac =
        (if frameData.length % 2 ^ 24 = 0 then .error .kInvalidFrameSize else .ok (frameData.length % 2 ^ 24),middle) ∧
      ∃ after,middle.decryptFrameBody crypto frameData.length sealed.frameCt sealed.frameMac = (.ok frameData,after) ∧
        Mirrored (sender.sealFrame crypto frameData).2 after := by
  have padded : (frameData ++ List.replicate (framePadding frameData.length) 0).length < 2 ^ 31 := by
    have bound := (framePadding_aligned frameData.length).2
    unfold kMaxFrameSize kMaxFrameSizeMiB at small
    rw [List.length_append,List.length_replicate]
    omega
  obtain ⟨middle,half,read⟩ := mirrored.decryptHeader crypto frameData.length
  obtain ⟨after,whole,body⟩ := half.decryptFrameBody crypto padded
  exact ⟨middle,read,after,body,whole⟩

theorem Mirrored.received (crypto : FrameCrypto) (mirrored : Mirrored sender receiver) (nonempty : frameData ≠ [])
    (small : frameData.length < 2 ^ 24) :
    let sealed := (sender.sealFrame crypto frameData).1
    ∃ middle after,receiver.decryptHeader crypto sealed.headerCt sealed.headerMac = (.ok frameData.length,middle) ∧
      middle.decryptFrameBody crypto frameData.length sealed.frameCt sealed.frameMac = (.ok frameData,after) ∧
        Mirrored (sender.sealFrame crypto frameData).2 after := by
  obtain ⟨middle,read,after,body,whole⟩ := mirrored.sealFrame crypto (Nat.le_of_lt small)
  rw [Nat.mod_eq_of_lt small,if_neg (by simpa using nonempty)] at read
  exact ⟨middle,after,read,body,whole⟩

theorem decryptFrame_two_steps (crypto : FrameCrypto) (cipher : FrameCipher)
    (header : kFrameHeaderSize ≤ params.headerCiphertext.length) (headerMac : kMacSize ≤ params.headerMac.length)
    (frameMac : kMacSize ≤ params.frameMac.length) :
    cipher.decryptFrame crypto params = cipher.decryptInTwoSteps crypto params := by
  rw [decryptFrame,decryptInTwoSteps,if_neg (by omega)]
  split
  · rfl
  · rw [FrameCipher.decryptFrameBody]
    simp only [Nat.not_lt.mpr frameMac,or_false]

def inOrder (step : FrameCipher → α → Except FramingError β × FrameCipher) (cipher : FrameCipher) :
    List α → Except FramingError (List β) × FrameCipher
  | [] => (.ok [],cipher)
  | item :: rest =>
    match step cipher item with
    | (.error error,cipher) => (.error error,cipher)
    | (.ok value,cipher) =>
      match inOrder step cipher rest with
      | (.error error,cipher) => (.error error,cipher)
      | (.ok values,cipher) => (.ok (value :: values),cipher)

def cutFrame (wire : List UInt8) : FrameDecryptParams :=
  ⟨wire.take kFrameHeaderSize,(wire.drop kFrameHeaderSize).take kMacSize,
    (wire.drop kFrameHeaderWithMacSize).take (wire.length - kFrameHeaderWithMacSize - kMacSize),
    wire.drop (wire.length - kMacSize)⟩

theorem cutFrame_sealFrame (cipher : FrameCipher) :
    let sealed := (cipher.sealFrame crypto frameData).1
    cutFrame sealed.wire = ⟨sealed.headerCt,sealed.headerMac,sealed.frameCt,sealed.frameMac⟩ := by
  intro sealed
  obtain ⟨header,headerMac,frame,frameMac⟩ := sealFrame_sized ..
  have front : (sealed.headerCt ++ sealed.headerMac).length = kFrameHeaderWithMacSize := by
    rw [List.length_append,header,headerMac]
  have total : sealed.wire.length = kFrameHeaderWithMacSize + sealed.frameCt.length + kMacSize := by
    rw [SealedFrame.wire,List.length_append,List.length_append,front,frameMac]
  simp only [cutFrame,FrameDecryptParams.mk.injEq]
  refine ⟨?_,?_,?_,?_⟩
  · rw [SealedFrame.wire,List.append_assoc,List.append_assoc,List.take_left' header]
  · rw [SealedFrame.wire,List.append_assoc,List.append_assoc,List.drop_left' header,List.take_left' headerMac]
  · rw [total,SealedFrame.wire,List.append_assoc,List.drop_left' front,List.take_left' (by omega)]
  · rw [total,SealedFrame.wire,List.drop_left' (by rw [List.length_append,front]; omega)]

theorem Mirrored.decryptFrame (crypto : FrameCrypto) (mirrored : Mirrored sender receiver) (nonempty : frameData ≠ [])
    (small : frameData.length < 2 ^ 24) :
    ∃ after,receiver.decryptFrame crypto (cutFrame (sender.sealFrame crypto frameData).1.wire) = (.ok frameData,after) ∧
      Mirrored (sender.sealFrame crypto frameData).2 after := by
  obtain ⟨header,headerMac,frame,frameMac⟩ := sealFrame_sized ..
  obtain ⟨middle,after,read,body,whole⟩ := mirrored.received crypto nonempty small
  refine ⟨after,?_,whole⟩
  rw [cutFrame_sealFrame,decryptFrame_two_steps crypto receiver header.ge headerMac.ge frameMac.ge,decryptInTwoSteps]
  simp only [List.take_of_length_le header.le,List.take_of_length_le headerMac.le,read,body]

theorem frames_received (crypto : FrameCrypto)
    (sized : ∀ frame ∈ frames,1 ≤ frame.length ∧ frame.length ≤ 2 ^ 24 - 1) (mirrored : Mirrored sender receiver) :
    ∃ wires sent after,inOrder (encryptFrame crypto) sender frames = (.ok wires,sent) ∧
      inOrder (fun cipher wire => cipher.decryptFrame crypto (cutFrame wire)) receiver wires = (.ok frames,after) ∧
      Mirrored sent after := by
  induction frames generalizing sender receiver with
  | nil => exact ⟨[],sender,receiver,rfl,rfl,mirrored⟩
  | cons frame rest ih =>
    obtain ⟨nonempty,small⟩ := sized frame (List.mem_cons_self ..)
    have nonempty : frame ≠ [] := List.ne_nil_of_length_pos nonempty
    have small : frame.length < 2 ^ 24 := Nat.lt_of_le_pred (by decide) small
    obtain ⟨next,decrypted,onward⟩ := mirrored.decryptFrame crypto nonempty small
    obtain ⟨wires,sent,after,encryptedRest,decryptedRest,last⟩ :=
      ih (fun other member => sized other (List.mem_cons_of_mem _ member)) onward
    refine ⟨(sender.sealFrame crypto frame).1.wire :: wires,sent,after,?_,?_,last⟩
    · simp only [inOrder,encryptFrame_accepted crypto sender nonempty (Nat.le_of_lt small),encryptedRest]
    · simp only [inOrder,decrypted,decryptedRest]

structure MirroredSecrets (one other : FrameSecrets) : Prop where
  aesSecret : one.aesSecret = other.aesSecret
  macSecret : one.macSecret = other.macSecret
  outward : one.egressMacSeed = other.ingressMacSeed
  inward : one.ingressMacSeed = other.egressMacSeed

theorem new_mirrored (secrets : MirroredSecrets one other) : Mirrored (new one) (new other) := by
  obtain ⟨aesSecret,macSecret,outward,inward⟩ := secrets
  exact ⟨aesSecret,rfl,rfl,by simp [new,macSecret,outward],by simp [new,macSecret,inward]⟩

theorem frame_channel (crypto : FrameCrypto) (one other : FrameSecrets) (secrets : MirroredSecrets one other)
    (frames : List (List UInt8)) (sized : ∀ frame ∈ frames,1 ≤ frame.length ∧ frame.length ≤ 2 ^ 24 - 1) :
    (∃ wires sent after,inOrder (encryptFrame crypto) (new one) frames = (.ok wires,sent) ∧
      inOrder (fun cipher wire => cipher.decryptFrame crypto (cutFrame wire)) (new other) wires = (.ok frames,after) ∧
      sent.egressMac = after.ingressMac ∧ sent.ingressMac = after.egressMac) ∧
    ∀ (cipher : FrameCipher) (params : FrameDecryptParams),kFrameHeaderSize ≤ params.headerCiphertext.length →
      kMacSize ≤ params.headerMac.length → kMacSize ≤ params.frameMac.length →
      cipher.decryptFrame crypto params = cipher.decryptInTwoSteps crypto params := by
  refine ⟨?_,?_⟩
  · obtain ⟨wires,sent,after,encrypted,decrypted,mirrored⟩ := frames_received crypto sized (new_mirrored secrets)
    exact ⟨wires,sent,after,encrypted,decrypted,mirrored.outwardMac,mirrored.inwardMac⟩
  · intro cipher params header headerMac frameMac
    exact decryptFrame_two_steps crypto cipher header headerMac frameMac

-- A compressed message of one byte with id 2 under zero keys, with the values
-- that AES-256 and Keccak-256 take on the way.
def sampleMessage : List UInt8 := [2,1,0,0xC0]

def sampleSecrets : FrameSecrets := ⟨FixedBytes.zeros 32,FixedBytes.zeros 32,[1],[2]⟩

def sampleCrypto : FrameCrypto where
  keystream _ position :=
    (BigEndian.fixed 32 0xdc95c078a2408989ad48a21492842087530f8afbc74536b9a963b4f1c4cb738b).getD position 0
  aesBlock _ block :=
    if block = BigEndian.fixed 16 0x5fe7f977e71dba2ea1a68e21057beebb then .ofNat 16 0x9cccb02c029a8742302973bea5a26a47
    else .ofNat 16 0x0f5f5284c502722994853e353962d2d2
  keccak256 input :=
    if input = [1] then .ofNat 32 0x5fe7f977e71dba2ea1a68e21057beebb9be2ac30c6410aa38d4f3fbe41dcffd2
    else if input.length = 17 then .ofNat 32 0x21f162a21b9e25dd54a7a0d91cd8873c5a7eff940a8c7008832739db5f18dd56
    else if input.length = 33 then .ofNat 32 0x0cc51f7b7d165dc1eedcafdd9b8b696c18e21860010a569ade348cf28586d31c
    else .ofNat 32 0x070bf15ba329a26ada1f961bb901f35b5d2f97cde1e096c2efbc8bd3e6cd5f58

theorem sample_mirrored : MirroredSecrets sampleSecrets ⟨FixedBytes.zeros 32,FixedBytes.zeros 32,[2],[1]⟩ :=
  ⟨rfl,rfl,rfl,rfl⟩

theorem sample_channel :
    (∃ wires sent after,inOrder (encryptFrame sampleCrypto) (new sampleSecrets) [sampleMessage] = (.ok wires,sent) ∧
      inOrder (fun cipher wire => cipher.decryptFrame sampleCrypto (cutFrame wire))
        (new ⟨FixedBytes.zeros 32,FixedBytes.zeros 32,[2],[1]⟩) wires = (.ok [sampleMessage],after) ∧
      sent.egressMac = after.ingressMac ∧ sent.ingressMac = after.egressMac) ∧
    ∀ (cipher : FrameCipher) (params : FrameDecryptParams),kFrameHeaderSize ≤ params.headerCiphertext.length →
      kMacSize ≤ params.headerMac.length → kMacSize ≤ params.frameMac.length →
      cipher.decryptFrame sampleCrypto params = cipher.decryptInTwoSteps sampleCrypto params :=
  frame_channel sampleCrypto sampleSecrets _ sample_mirrored [sampleMessage] (by decide)

end FrameCipher
end EvmRelay.Rlpx
