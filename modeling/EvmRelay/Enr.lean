import EvmRelay.RlpInteger
import EvmRelay.LastWrite

namespace EvmRelay.Enr
open Rlp RlpSpec ByteEncoding

-- discv5Error: the codes the record parser and the client return.
inductive Discv5Error where
  | kEnrMissingPrefix | kEnrBase64DecodeFailed | kEnrTooLarge
  | kEnrRlpDecodeFailed | kEnrSignatureInvalid | kEnrSignatureWrongSize | kEnrMissingSecp256k1Key
  | kEnrInvalidSecp256k1Key | kEnrMissingAddress | kEnrInvalidIp | kEnrInvalidIp6 | kEnrInvalidUdpPort | kEnrInvalidEthEntry
  | kContextCreationFailed | kNetworkSendFailed | kNetworkReceiveFailed
  deriving DecidableEq

abbrev kEnrSigBytes : Nat := 64
abbrev kCompressedKeyBytes : Nat := 33
abbrev kIPv4Bytes : Nat := 4
abbrev kIPv6Bytes : Nat := 16
abbrev kMaxPortBytes : Nat := 2
abbrev kForkHashBytes : Nat := 4

structure ForkId where
  hash : FixedBytes 4
  next : BitVec 64
  deriving DecidableEq

structure EnrRecord where
  seq : BitVec 64
  rawRlp : List UInt8
  nodeId : FixedBytes 64
  compressedPubkey : FixedBytes 33
  ip : String
  ip6 : String
  udpPort : BitVec 16
  tcpPort : BitVec 16
  udp6Port : BitVec 16
  tcp6Port : BitVec 16
  identityScheme : List UInt8
  ethForkId : Option ForkId
  extraFields : List UInt8 → Option (List UInt8)

def EnrRecord.new : EnrRecord :=
  ⟨0,[],.zeros 64,.zeros 33,"","",0,0,0,0,[],none,fun _ => none⟩

def EnrRecord.setExtra (record : EnrRecord) (key val : List UInt8) : EnrRecord :=
  { record with extraFields := Function.update record.extraFields key (some val) }

def EnrRecord.eraseExtra (record : EnrRecord) (key : List UInt8) : EnrRecord :=
  { record with extraFields := Function.update record.extraFields key none }

theorem setExtra_same (record : EnrRecord) (val : List UInt8) :
    (record.setExtra key val).extraFields key = some val := Function.update_self ..

theorem setExtra_other (record : EnrRecord) (different : key ≠ other) :
    (record.setExtra other val).extraFields key = record.extraFields key := Function.update_of_ne different ..

-- boost::asio renders the two address families.
structure AddressText where
  v4 : FixedBytes 4 → String
  v6 : FixedBytes 16 → String

def decodeIpv4 (text : AddressText) (bytes : StdVector UInt8) : Except Discv5Error String :=
  if size : bytes.items.length = kIPv4Bytes then .ok (text.v4 ⟨bytes.items,size⟩) else .error .kEnrInvalidIp

def decodeIpv6 (text : AddressText) (bytes : StdVector UInt8) : Except Discv5Error String :=
  if size : bytes.items.length = kIPv6Bytes then .ok (text.v6 ⟨bytes.items,size⟩) else .error .kEnrInvalidIp6

def decodePort (bytes : StdVector UInt8) : Except Discv5Error (BitVec 16) :=
  if bytes.items = [] ∨ bytes.items.length > kMaxPortBytes then .error .kEnrInvalidUdpPort
  else
    let port := readBe 16 bytes.items
    if port = 0#16 then .error .kEnrInvalidUdpPort else .ok port

-- An is-list check and the header behind it; both levels of the entry open so.
def openList (v : ByteView) : Except Discv5Error ByteView :=
  match isList v with
  | .ok true =>
    match readListHeaderBytes v with
    | .ok (_,inner) => .ok inner
    | .error _ => .error .kEnrInvalidEthEntry
  | _ => .error .kEnrInvalidEthEntry

def decodeEthEntry (bytes : StdVector UInt8) : Except Discv5Error ForkId :=
  if bytes.items = [] then .error .kEnrInvalidEthEntry
  else do
    let outer ← openList (.ofVector bytes)
    let inner ← openList outer
    match readBytes inner with
    | .error _ => .error .kEnrInvalidEthEntry
    | .ok (hashBytes,view) =>
      if size : hashBytes.length = kForkHashBytes then
        match readIntegral .uint64 view with
        | .error _ => .error .kEnrInvalidEthEntry
        | .ok (next,_) => .ok ⟨⟨hashBytes,size⟩,next⟩
      else .error .kEnrInvalidEthEntry

theorem readBytes_fits (read : readBytes v = .ok (bytes,rest)) : bytes.length < sizeLimit := by
  have spelled := readBytes_sound read
  have fits := v.fits
  have width := encodeString_length bytes
  rw [spelled,List.length_append] at fits
  omega

-- A string value is stored without its header, a list value with it.
def readEnrValue (v : ByteView) : Option (StdVector UInt8 × ByteView) :=
  match peekHeader v with
  | .error _ => none
  | .ok header =>
    if header.list then
      let totalSize := sizeAdd header.headerSizeBytes header.payloadSizeBytes
      if v.length < totalSize then none
      else
        match skipItem v with
        | .error _ => none
        | .ok view => some ((v.substr 0 totalSize).toVector,view)
    else
      match read : readBytes v with
      | .error _ => none
      | .ok (valBytes,view) => some (⟨valBytes,readBytes_fits read⟩,view)

abbrev Pair := List UInt8 × StdVector UInt8

def readPair (v : ByteView) : Option (Pair × ByteView) :=
  match readBytes v with
  | .error _ => none
  | .ok (key,view) =>
    match readEnrValue view with
    | none => none
    | some (val,rest) => some ((key,val),rest)

-- One turn of the key/value loop. Values that do not decode leave the record
-- as it was; a key that is not known is kept verbatim.
def applyPair (text : AddressText) (record : EnrRecord) (pair : Pair) : EnrRecord :=
  let key := pair.1
  let val := pair.2
  if key = ascii "id" then { record with identityScheme := val.items }
  else if key = ascii "secp256k1" then
    if size : val.items.length = kCompressedKeyBytes then { record with compressedPubkey := ⟨val.items,size⟩ }
    else record
  else if key = ascii "ip" then
    match decodeIpv4 text val with
    | .ok ip => { record with ip := ip }
    | .error _ => record
  else if key = ascii "ip6" then
    match decodeIpv6 text val with
    | .ok ip6 => { record with ip6 := ip6 }
    | .error _ => record
  else if key = ascii "tcp" then
    match decodePort val with
    | .ok port => { record with tcpPort := port }
    | .error _ => record
  else if key = ascii "udp" then
    match decodePort val with
    | .ok port => { record with udpPort := port }
    | .error _ => record
  else if key = ascii "tcp6" then
    match decodePort val with
    | .ok port => { record with tcp6Port := port }
    | .error _ => record
  else if key = ascii "udp6" then
    match decodePort val with
    | .ok port => { record with udp6Port := port }
    | .error _ => record
  else if key = ascii "eth" then
    match decodeEthEntry val with
    | .ok forkId => { record with ethForkId := some forkId }
    | .error _ => record
  else record.setExtra key val.items

-- while (!decoder.IsFinished()), with the two breaks in readPair. Every pair
-- takes bytes, so the length of the view bounds the turns.
def readFields (text : AddressText) : Nat → ByteView → EnrRecord → EnrRecord
  | 0,_,record => record
  | fuel+1,v,record =>
    if isFinished v then record
    else match readPair v with
    | none => record
    | some (pair,rest) => readFields text fuel rest (applyPair text record pair)

structure Opening where
  listPayloadLen : Nat
  afterListHeader : ByteView
  sigBytes : FixedBytes 64
  afterSig : ByteView

def readSignature (raw : ByteView) : Except Discv5Error Opening :=
  match isList raw with
  | .ok true =>
    match readListHeaderBytes raw with
    | .error _ => .error .kEnrRlpDecodeFailed
    | .ok (listPayloadLen,afterListHeader) =>
      match readBytes afterListHeader with
      | .error _ => .error .kEnrRlpDecodeFailed
      | .ok (sigBytes,afterSig) =>
        if size : sigBytes.length = kEnrSigBytes then .ok ⟨listPayloadLen,afterListHeader,⟨sigBytes,size⟩,afterSig⟩
        else .error .kEnrSignatureWrongSize
  | _ => .error .kEnrRlpDecodeFailed

def Opening.sigConsumed (o : Opening) : Nat := sizeSub o.afterListHeader.length o.afterSig.length

def Opening.contentElementsLen (o : Opening) : Nat := sizeSub o.listPayloadLen o.sigConsumed

def wrapContent (elements : List UInt8) : Except EncodingError (List UInt8) := do
  let e ← RlpEncoder.new.beginList
  let e ← e.addRaw elements
  let e ← e.endList
  let (bytes,_) ← e.moveBytes
  return bytes

-- AddRaw is handed the view (after_sig.data(), content_elements_len). A count
-- beyond the view asks for bytes that are not the record's.
def contentBytes (o : Opening) : Checked Discv5Error (List UInt8) :=
  if o.afterSig.length < o.contentElementsLen then .error .outOfBounds
  else match wrapContent (o.afterSig.bytes.take o.contentElementsLen) with
  | .error _ => .error (.returned .kEnrRlpDecodeFailed)
  | .ok bytes => .ok bytes

def sigKey : List UInt8 := ascii "__sig__"
def contentKey : List UInt8 := ascii "__content__"

def decodeRlp (text : AddressText) (raw : ByteView) : Checked Discv5Error EnrRecord :=
  let record := { EnrRecord.new with rawRlp := raw.bytes }
  match readSignature raw with
  | .error error => .error (.returned error)
  | .ok o => do
    let record := record.setExtra sigKey o.sigBytes.toList
    let content ← contentBytes o
    let record := record.setExtra contentKey content
    match readIntegral .uint64 o.afterSig with
    | .error _ => .error (.returned .kEnrRlpDecodeFailed)
    | .ok (seq,view) =>
      let record := readFields text view.length view { record with seq := seq }
      if record.compressedPubkey = .zeros 33 then .error (.returned .kEnrMissingSecp256k1Key)
      else .ok record

-- keccak256 and libsecp256k1. Each call creates its own context.
structure Crypto where
  keccak256 : List UInt8 → Hash256
  contextCreate : Bool
  decompressContextCreate : Bool
  Pubkey : Type
  Signature : Type
  pubkeyParse : FixedBytes 33 → Option Pubkey
  signatureParseCompact : FixedBytes 64 → Option Signature
  ecdsaVerify : Signature → Hash256 → Pubkey → Bool
  pubkeySerialize : Pubkey → FixedBytes 65

def decompressPubkey (crypto : Crypto) (compressed : FixedBytes 33) : Except Discv5Error (FixedBytes 64) :=
  if ¬ crypto.decompressContextCreate then .error .kContextCreationFailed
  else match crypto.pubkeyParse compressed with
  | none => .error .kEnrInvalidSecp256k1Key
  | some pubkey => .ok (crypto.pubkeySerialize pubkey).tail

-- parse_compact reads 64 bytes at sig_bytes.data(), however many there are.
def verifySignature (crypto : Crypto) (record : EnrRecord) : Checked Discv5Error EnrRecord :=
  match record.extraFields sigKey,record.extraFields contentKey with
  | some sigBytes,some contentBytes =>
    let hash := crypto.keccak256 contentBytes
    if ¬ crypto.contextCreate then .error (.returned .kContextCreationFailed)
    else match crypto.pubkeyParse record.compressedPubkey with
    | none => .error (.returned .kEnrInvalidSecp256k1Key)
    | some pubkey =>
      if size : (sigBytes.take kEnrSigBytes).length = kEnrSigBytes then
        match crypto.signatureParseCompact ⟨sigBytes.take kEnrSigBytes,size⟩ with
        | none => .error (.returned .kEnrSignatureInvalid)
        | some sig =>
          if ¬ crypto.ecdsaVerify sig hash pubkey then .error (.returned .kEnrSignatureInvalid)
          else match decompressPubkey crypto record.compressedPubkey with
          | .error error => .error (.returned error)
          | .ok nodeId => .ok (({ record with nodeId := nodeId }.eraseExtra sigKey).eraseExtra contentKey)
      else .error .outOfBounds
  | _,_ => .error (.returned .kEnrRlpDecodeFailed)

end EvmRelay.Enr
