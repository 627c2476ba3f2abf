import EvmRelay.EnrAuthenticity
import EvmRelay.RlpWriter
import EvmRelay.Discv5Keys

namespace EvmRelay.Discv5
open Rlp RlpSpec Enr

abbrev kInitialEnrSeq : BitVec 64 := 1

inductive BindAddress where
  | v4 (bytes : FixedBytes 4) | v6 | invalid
  deriving DecidableEq

structure Discv5Config where
  privateKey : PrivateKey
  publicKey : NodeId
  bindAddress : BindAddress
  tcpPort : BitVec 16
  deriving DecidableEq

def encodeOr (error : Discv5Error) (write : Encoder) : Except Discv5Error (List UInt8) :=
  match finalizeEncoding write with
  | .ok bytes => .ok bytes
  | .error _ => .error error

def addEnrContent (ip : FixedBytes 4) (compressed : FixedBytes 33) (tcpPort udpPort : BitVec 16) : Encoder := do
  addUint64 kInitialEnrSeq
  addBytes (ascii "id")
  addBytes (ascii "v4")
  addBytes (ascii "ip")
  addBytes ip.toList
  addBytes (ascii "secp256k1")
  addBytes compressed.toList
  addBytes (ascii "tcp")
  addUint16 tcpPort
  addBytes (ascii "udp")
  addUint16 udpPort

def localIpBytes : BindAddress → Except Discv5Error (FixedBytes 4)
  | .v4 bytes => .ok bytes
  | .v6 => .ok (.zeros kIPv4Bytes)
  | .invalid => .error .kEnrInvalidIp

def makeLocalEnrRecord (crypto : Crypto) (config : Discv5Config) (udpPort : BitVec 16) : Except Discv5Error (List UInt8) := do
  let compressed ← compressPublicKey crypto config.publicKey
  let ipBytes ← localIpBytes config.bindAddress
  let tcpPort := if config.tcpPort ≠ 0 then config.tcpPort else udpPort
  let contentBytes ← encodeOr .kEnrRlpDecodeFailed (writeList (addEnrContent ipBytes compressed tcpPort udpPort))
  let contentHash := crypto.keccak256 contentBytes
  if ¬ crypto.contextCreate then .error .kContextCreationFailed
  else
    match crypto.signRecoverable contentHash config.privateKey with
    | none => .error .kContextCreationFailed
    | some compactSig =>
      encodeOr .kEnrRlpDecodeFailed (writeList do
        addBytes compactSig.toList
        addEnrContent ipBytes compressed tcpPort udpPort)

-- A record whose list holds strings only and ends where its bytes end.
def pairWire (pair : Pair) : List UInt8 := encodeString pair.1 ++ encodeString pair.2.items

theorem pairs_read (pairs : List Pair) : Reads (pairs.flatMap pairWire) pairs [] := by
  induction pairs with
  | nil =>
    refine .stop ?_
    intro pair rest at_
    exact absurd at_.shorter (Nat.not_lt_zero _)
  | cons pair rest ih =>
    refine .step ⟨_,.string,?_⟩ ih
    rw [List.flatMap_cons,pairWire,List.append_assoc]

def recordElements (seq : BitVec 64) (pairs : List Pair) : List UInt8 := encodeScalar seq.toNat ++ pairs.flatMap pairWire

section published
variable {raw : ByteView} {sig : FixedBytes 64}

theorem signature_width (sig : FixedBytes 64) : (encodeString sig.toList).length = 66 := by
  rw [encodeString_headed (.inl (by rw [sig.toList_length]; decide)),List.length_append,sig.toList_length]
  rfl

theorem recordElements_ne_nil (seq : BitVec 64) (pairs : List Pair) : recordElements seq pairs ≠ [] := by
  intro none
  have positive := encodeString_pos (BigEndian.minimal seq.toNat)
  have length := congrArg List.length none
  rw [recordElements,List.length_append,encodeScalar,List.length_nil] at length
  omega

theorem published_fits (spelled : raw.bytes = encodeList (encodeString sig.toList ++ recordElements seq pairs)) :
    (recordElements seq pairs).length < sizeLimit := by
  have fits := raw.fits
  rw [spelled,encodeList] at fits
  exact back_fits (back_fits fits)

def publishedLayout (spelled : raw.bytes = encodeList (encodeString sig.toList ++ recordElements seq pairs)) : Layout raw where
  sig := sig
  elements := ⟨recordElements seq pairs,published_fits spelled⟩
  tail := []
  seqBytes := encodeScalar seq.toNat
  seq := seq
  stream := ⟨pairs.flatMap pairWire,back_fits (published_fits spelled)⟩
  pairs := pairs
  left := []
  nonempty := recordElements_ne_nil seq pairs
  outer := by
    rw [spelled,encodeList,List.length_append,signature_width,List.append_nil]
    rfl
  number := .inl rfl
  behind := List.append_nil _
  reads := pairs_read pairs

end published

def wordValue (n : BitVec 16) : StdVector UInt8 :=
  ⟨BigEndian.minimal n.toNat,by
    have few : BigEndian.byteLength n.toNat ≤ 2 := BigEndian.byteLength_le n.isLt
    rw [BigEndian.minimal_length,sizeLimit]
    omega⟩

def fixedValue (bytes : FixedBytes n) (small : n < sizeLimit) : StdVector UInt8 := ⟨bytes.toList,by rw [bytes.toList_length]; exact small⟩

def localPairs (ip : FixedBytes 4) (compressed : FixedBytes 33) (tcpPort udpPort : BitVec 16) : List Pair :=
  [(ascii "id",⟨ascii "v4",by decide⟩),(ascii "ip",fixedValue ip (by decide)),
    (ascii "secp256k1",fixedValue compressed (by decide)),(ascii "tcp",wordValue tcpPort),(ascii "udp",wordValue udpPort)]

theorem addEnrContent_writes : Writes (addEnrContent ip compressed tcpPort udpPort)
      (some (recordElements kInitialEnrSeq (localPairs ip compressed tcpPort udpPort))) := by
  have written := (addUint64_writes kInitialEnrSeq).join ((addBytes_writes (ascii "id")).join ((addBytes_writes (ascii "v4")).join
    ((addBytes_writes (ascii "ip")).join ((addBytes_writes ip.toList).join ((addBytes_writes (ascii "secp256k1")).join
    ((addBytes_writes compressed.toList).join ((addBytes_writes (ascii "tcp")).join ((addUint16_writes tcpPort).join
    ((addBytes_writes (ascii "udp")).join (addUint16_writes udpPort))))))))))
  simp only [recordElements,localPairs,pairWire,List.flatMap_cons,List.flatMap_nil,List.append_nil,List.append_assoc]
  exact written

theorem localElements_short : (recordElements kInitialEnrSeq (localPairs ip compressed tcpPort udpPort)).length ≤ 74 := by
  have word (n : BitVec 16) : (encodeString (wordValue n).items).length ≤ 3 := by
    have few : (wordValue n).items.length ≤ 2 := by
      rw [wordValue,BigEndian.minimal_length]
      exact BigEndian.byteLength_le n.isLt
    have short : (encodeString (wordValue n).items).length ≤ (wordValue n).items.length + 1 := encodeString_short (by omega)
    omega
  have fixed {count : Nat} (bytes : FixedBytes count) (small : count < sizeLimit) (few : count ≤ 55) :
      (encodeString (fixedValue bytes small).items).length ≤ count + 1 := by
    have width : (fixedValue bytes small).items.length = count := bytes.toList_length
    have short : (encodeString (fixedValue bytes small).items).length ≤ (fixedValue bytes small).items.length + 1 :=
      encodeString_short (by omega)
    omega
  have tcp := word tcpPort
  have udp := word udpPort
  have address := fixed ip (by decide) (by decide)
  have key := fixed compressed (by decide) (by decide)
  simp only [recordElements,localPairs,pairWire,List.flatMap_cons,List.flatMap_nil,List.append_nil,List.length_append]
  have names : (encodeScalar kInitialEnrSeq.toNat).length = 1 ∧ (encodeString (ascii "id")).length = 3 ∧
      (encodeString (ascii "v4")).length = 3 ∧ (encodeString (ascii "ip")).length = 3 ∧
      (encodeString (ascii "secp256k1")).length = 10 ∧ (encodeString (ascii "tcp")).length = 4 ∧
      (encodeString (ascii "udp")).length = 4 := by decide
  omega

theorem encodeOr_ok (writes : Writes write (some wire))
    (fits : wire.length < sizeLimit) (encoded : encodeOr error write = .ok bytes) : bytes = wire := by
  rw [encodeOr,(finalizeEncoding_exact writes fits).mpr rfl] at encoded
  exact (Except.ok.inj encoded).symm

theorem encodeList_byte (payload : List UInt8) (short : payload.length < 256) : (encodeList payload).length ≤ payload.length + 2 := by
  have few : BigEndian.byteLength payload.length ≤ 1 := BigEndian.byteLength_le (by omega)
  rw [encodeList,List.length_append,listHeader,header_length]
  split <;> omega

theorem makeLocalEnrRecord_ok (made : makeLocalEnrRecord crypto config udpPort = .ok bytes) :
    ∃ compressed pairs compactSig,compressPublicKey crypto config.publicKey = .ok compressed ∧
      (∃ ip tcpPort,pairs = localPairs ip compressed tcpPort udpPort) ∧
      crypto.signRecoverable (crypto.keccak256 (encodeList (recordElements kInitialEnrSeq pairs))) config.privateKey = some compactSig ∧
      bytes = encodeList (encodeString compactSig.toList ++ recordElements kInitialEnrSeq pairs) ∧ bytes.length ≤ 142 := by
  obtain ⟨compressed,packed,made⟩ := bind_ok.mp made
  obtain ⟨ip,_,made⟩ := bind_ok.mp made
  obtain ⟨contentBytes,content,made⟩ := bind_ok.mp made
  generalize (if config.tcpPort ≠ 0 then config.tcpPort else udpPort) = tcpPort at content made
  have short : (recordElements kInitialEnrSeq (localPairs ip compressed tcpPort udpPort)).length ≤ 74 := localElements_short
  have listed := encodeList_byte (recordElements kInitialEnrSeq (localPairs ip compressed tcpPort udpPort)) (by omega)
  have room : (2 : Nat) ^ 8 < sizeLimit := Nat.pow_lt_pow_right (by decide) (by decide)
  have signedBytes := encodeOr_ok addEnrContent_writes.list (by omega) content
  subst signedBytes
  dsimp only at made
  split at made
  · cases made
  split at made
  · cases made
  rename_i compactSig signed
  have sigWidth := signature_width compactSig
  have whole := encodeList_byte
    (encodeString compactSig.toList ++ recordElements kInitialEnrSeq (localPairs ip compressed tcpPort udpPort))
    (by rw [List.length_append]; omega)
  rw [List.length_append] at whole
  have recordBytes : bytes = encodeList (encodeString compactSig.toList ++
      recordElements kInitialEnrSeq (localPairs ip compressed tcpPort udpPort)) :=
    encodeOr_ok ((addBytes_writes compactSig.toList).join addEnrContent_writes).list (by omega) made
  refine ⟨compressed,_,compactSig,packed,⟨ip,tcpPort,rfl⟩,signed,recordBytes,?_⟩
  rw [recordBytes]
  omega

section accepted

theorem localPairs_pubkey (start : EnrRecord) :
    ((localPairs ip compressed tcpPort udpPort).foldl (applyPair text) start).compressedPubkey = compressed := by
  have kept {record : EnrRecord} {pair : Pair} (other : slotOf pair.1 ≠ .compressedPubkey) :
      (applyPair text record pair).compressedPubkey = record.compressedPubkey := applyPair_elsewhere text record other
  simp only [localPairs,List.foldl_cons,List.foldl_nil]
  rw [kept (show slotOf (ascii "udp") ≠ .compressedPubkey by decide),kept (show slotOf (ascii "tcp") ≠ .compressedPubkey by decide)]
  have size : (fixedValue compressed (by decide)).items.length = kCompressedKeyBytes := compressed.toList_length
  unfold applyPair
  dsimp only
  rw [if_neg (by decide),if_pos rfl,dif_pos size]
  rfl

theorem local_record_accepted (correct : crypto.Correct valid point) (pair : KeyPair crypto valid point config.privateKey config.publicKey)
    (text : AddressText) (made : makeLocalEnrRecord crypto config udpPort = .ok raw.bytes) :
    ∃ record verified,decodeRlp text raw = .ok record ∧ verifySignature crypto.toCrypto record = .ok verified ∧
      verified.nodeId = config.publicKey := by
  obtain ⟨compressed,_,compactSig,packed,⟨ip,tcpPort,rfl⟩,signed,spelled,_⟩ := makeLocalEnrRecord_ok made
  rw [pair.compressed correct] at packed
  cases packed
  obtain ⟨sig,parsed,verified⟩ := correct.signed _ _ _ pair.usable signed
  let layout := publishedLayout spelled
  have checked : crypto.ecdsaVerify sig (crypto.keccak256 layout.content) (point config.privateKey) = true := verified
  have key : (layout.record text).compressedPubkey = crypto.compressedSerialize (point config.privateKey) :=
    localPairs_pubkey ..
  have storedSig : (layout.record text).extraFields sigKey = some compactSig.toList := layout.checked_signature text
  have storedContent : (layout.record text).extraFields contentKey = some layout.content := layout.checked_content text
  have width : (compactSig.toList.take kEnrSigBytes).length = kEnrSigBytes := by
    rw [List.length_take,compactSig.toList_length]
    rfl
  have whole : (⟨compactSig.toList.take kEnrSigBytes,width⟩ : FixedBytes 64) = compactSig :=
    Subtype.ext (List.take_of_length_le (Nat.le_of_eq compactSig.toList_length))
  have decompressed : decompressPubkey crypto.toCrypto (crypto.compressedSerialize (point config.privateKey)) = .ok config.publicKey := by
    unfold decompressPubkey
    rw [if_neg (by simp [correct.contexts.2]),correct.compressed _ pair.usable]
    dsimp only
    rw [correct.uncompressed _ _ pair.derived]
    rfl
  refine ⟨layout.record text,(({ layout.record text with nodeId := config.publicKey }).eraseExtra sigKey).eraseExtra contentKey,
    ?_,?_,rfl⟩
  · rw [layout.decodes text,key,if_neg (correct.present _ pair.usable)]
  · unfold verifySignature
    rw [storedSig,storedContent]
    dsimp only
    rw [if_neg (by simp [correct.contexts.1]),key,correct.compressed _ pair.usable]
    dsimp only
    rw [dif_pos width,whole,parsed]
    dsimp only
    rw [if_neg (not_not_intro checked),decompressed]

end accepted

end EvmRelay.Discv5
