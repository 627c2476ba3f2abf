import EvmRelay.Discv4Packets
import EvmRelay.Discv5Messages
import EvmRelay.EnrUri
import EvmRelay.EthStatus
import EvmRelay.JsonRpc

namespace EvmRelay.Discv4
open ParseUtility JsonUtility Eth

abbrev kEnodePrefix : Text := ascii "enode://"
abbrev kEnrTreeUrlPrefix : Text := ascii "enrtree://"
abbrev kChainPeerNodesFieldName : Text := ascii "nodes"
abbrev kChainPeerBootnodesFieldName : Text := ascii "bootnodes"
abbrev kChainPeerEnrTreesFieldName : Text := ascii "enrTrees"
abbrev kChainPeerEnrTreeFieldName : Text := ascii "enrTree"
abbrev kChainPeerSourceUrlFieldName : Text := ascii "sourceUrl"
abbrev kSignatureFieldName : Text := ascii "signature"
abbrev kSignerAddressFieldName : Text := ascii "signerAddress"
abbrev kTrustedChainPeerCacheSignerAddress : Text := ascii "0x7c91841f3594cb02dba5aae5909ceaaf2211d454"
abbrev kRecoverableSignatureSize : Nat := 65
abbrev kUncompressedPublicKeyPrefix : UInt8 := 0x04
abbrev kEthereumAddressSize : Nat := 20
abbrev kSha256Size : Nat := 32

abbrev Members := List (Text × Json)

structure Libraries where
  parse : Text → Option Json
  serialize : Members → Text
  sha256 : Text → FixedBytes kSha256Size
  recovery : Crypto
  records : Enr.Crypto
  addresses : Enr.AddressText

inductive ChainDiscoveryDefault where
  | kAuto | kDiscv4 | kCacheEnrDiscv5 | kEnrTree
  deriving DecidableEq

inductive DiscoveryForkFilter where
  | kRequire | kDisabled
  deriving DecidableEq

structure ChainPeerConfig where
  canonicalName : Text
  networkId : BitVec 64
  genesisHash : Hash256
  nodes : List ValidatedPeer
  bootnodes : List ValidatedPeer
  discv5Bootnodes : List Text
  enrTrees : List Text
  discoveryDefault : ChainDiscoveryDefault
  discoveryForkFilter : DiscoveryForkFilter
  forkId : Option ForkId
  ethMessageSchemas : List EthMessageSchema
  signature : Text
  signerAddress : Text
  deriving DecidableEq

-- A table of fields: the name, the type and whether the field is required. None has a default.
def schemaObject (fields : List (Text × JsonSchema × Bool)) : JsonSchemaFields :=
  fields.foldr (fun field rest => .cons field.1 field.2.2 none field.2.1 rest) .nil

def stringArraySchema : JsonSchema := .array .string

def enrTreeFieldsSchema : JsonSchemaFields := schemaObject [
  (kChainPeerEnrTreeFieldName,.string,false),
  (kChainPeerSourceUrlFieldName,.string,false),
  (kChainPeerEnrTreesFieldName,stringArraySchema,false)]

def ethMessageFieldSchema : JsonSchemaFields := schemaObject [
  (ascii "name",.string,true),
  (ascii "type",.string,true),
  (ascii "size",.size,false),
  (ascii "offset",.size,false)]

def ethMessageFieldsSchema : JsonSchema := .array (.object ethMessageFieldSchema)

def ethMessageSchema : JsonSchemaFields := schemaObject [
  (ascii "name",.string,true),
  (ascii "id",.u8,true),
  (ascii "protocolVersion",.u8,false),
  (ascii "fields",ethMessageFieldsSchema,true)]

def ethMessageSchemaArraySchema : JsonSchema := .array (.object ethMessageSchema)

def ethMessageFilterSchema : JsonSchemaFields := schemaObject [
  (ascii "id",.u8,false),
  (ascii "protocolVersion",.u8,false),
  (ascii "name",.string,false)]

def ethMessageFilterArraySchema : JsonSchema := .array (.object ethMessageFilterSchema)

def ethMessageSchemaSetSchema : JsonSchemaFields := schemaObject [
  (ascii "extends",.string,false),
  (ascii "remove",ethMessageFilterArraySchema,false),
  (ascii "prepend",ethMessageSchemaArraySchema,false),
  (ascii "append",ethMessageSchemaArraySchema,false)]

def chainPeerNodeSchema : JsonSchemaFields := schemaObject [
  (ascii "enr",.string,false),
  (ascii "enode",.string,false),
  (ascii "pubkey",.string,false),
  (ascii "ip",.string,false),
  (ascii "port",.u32,false),
  (ascii "forkId",.string,false)]

def chainPeerNodeArraySchema : JsonSchema := .array (.object chainPeerNodeSchema)

def chainPeerConfigSchema : JsonSchemaFields := schemaObject [
  (ascii "networkId",.u64,true),
  (ascii "genesisHex",.string,true),
  (kChainPeerNodesFieldName,chainPeerNodeArraySchema,true),
  (kChainPeerBootnodesFieldName,chainPeerNodeArraySchema,true),
  (ascii "forkId",.string,false),
  (ascii "ethMessageSchemas",ethMessageSchemaArraySchema,false),
  (ascii "ethMessageSchemaSet",.string,false),
  (kChainPeerEnrTreeFieldName,.string,false),
  (kChainPeerSourceUrlFieldName,.string,false),
  (kChainPeerEnrTreesFieldName,stringArraySchema,false)]

def chainPeerSignatureSchema : JsonSchemaFields := schemaObject [
  (kSignatureFieldName,.string,false),
  (kSignerAddressFieldName,.string,false)]

def parsedOptionalString (object : JsonParsedObject) (fieldName : Text) : Option Text :=
  if (object.lookup fieldName).isNone then none else (getParsedString object fieldName).toOption

def parsedIfPresent (get : JsonParsedObject → Text → JsonResult α) (object : JsonParsedObject) (fieldName : Text) :
    Option (Option α) :=
  if (object.lookup fieldName).isNone then some none else (get object fieldName).toOption.map some

def enrTreeUrls (entries : List Text) : List Text := entries.filter fun entry => kEnrTreeUrlPrefix.isPrefixOf entry

def parseEnrTreeUrls (chainObject : Members) : List Text :=
  match parseSchemaObjectAtPath enrTreeFieldsSchema chainObject [] with
  | .error _ => []
  | .ok parsed =>
    let trees := ((getParsedArray parsed kChainPeerEnrTreesFieldName).toOption.getD []).filterMap JsonParsedValue.asString
    enrTreeUrls ((parsedOptionalString parsed kChainPeerEnrTreeFieldName).toList ++
      ((parsedOptionalString parsed kChainPeerSourceUrlFieldName).toList ++ trees))

def fieldTypes : List (Text × EthMessageFieldType) := [
  (ascii "uint8",.kUint8),(ascii "uint16",.kUint16),(ascii "uint32",.kUint32),(ascii "uint64",.kUint64),
  (ascii "uint256",.kUint256),(ascii "hash32",.kHash32),(ascii "hash4",.kHash4),(ascii "forkid",.kForkId),
  (ascii "bytes",.kBytes),(ascii "bool",.kBool),(ascii "hash_or_number",.kHashOrNumber),(ascii "hash_list",.kHashList),
  (ascii "uint_list",.kUintList),(ascii "uint32_list",.kUint32List),(ascii "bytes_list",.kBytesList),
  (ascii "block_hash_entries",.kBlockHashEntries),(ascii "get_block_headers_query",.kGetBlockHeadersQuery),
  (ascii "block_headers",.kBlockHeaders),(ascii "block_bodies",.kBlockBodies),(ascii "block",.kBlock),
  (ascii "transactions",.kTransactions),(ascii "receipts",.kReceipts),(ascii "pooled_transactions",.kPooledTransactions)]

def parseEthMessageFieldType (value : Text) : Option EthMessageFieldType := fieldTypes.lookup value

def parseMessageField (value : JsonParsedValue) (index : Nat) : Option EthMessageFieldSchema := do
  let object ← value.asObject
  let name ← (getParsedString object (ascii "name")).toOption
  let typeName ← (getParsedString object (ascii "type")).toOption
  let type ← parseEthMessageFieldType typeName
  let size ← parsedIfPresent getParsedSize object (ascii "size")
  let offset ← parsedIfPresent getParsedSize object (ascii "offset")
  return ⟨name,type,size.map BitVec.toNat,some ((offset.map BitVec.toNat).getD index)⟩

def parseMessageSchema (value : JsonParsedValue) : Option EthMessageSchema := do
  let object ← value.asObject
  let name ← (getParsedString object (ascii "name")).toOption
  let messageId ← (getParsedU8 object (ascii "id")).toOption
  let fieldValues ← (getParsedArray object (ascii "fields")).toOption
  let protocolVersion ← parsedIfPresent getParsedU8 object (ascii "protocolVersion")
  let fields ← fieldValues.zipIdx.mapM fun field => parseMessageField field.1 field.2
  if fields = [] then none
  else return ⟨name,.ofBitVec messageId,protocolVersion.map .ofBitVec,← Rpc.collect fields⟩

def parseEthMessageSchemaArray (schemasValue : Json) : List EthMessageSchema :=
  match parseSchemaValueAtPath ethMessageSchemaArraySchema schemasValue (ascii "ethMessageSchemas") with
  | .ok (.array values) => values.filterMap parseMessageSchema
  | _ => []

def schemaMatchesFilter (schema : EthMessageSchema) (filter : JsonParsedObject) : Bool :=
  let id := filter.lookup (ascii "id")
  let protocolVersion := filter.lookup (ascii "protocolVersion")
  let name := filter.lookup (ascii "name")
  (id.isNone || id.bind JsonParsedValue.asU8 == some schema.messageId.toBitVec) &&
  (protocolVersion.isNone ||
    (schema.protocolVersion.isSome && protocolVersion.bind JsonParsedValue.asU8 == schema.protocolVersion.map UInt8.toBitVec)) &&
  (name.isNone || name.bind JsonParsedValue.asString == some schema.name) &&
  (id.isSome || protocolVersion.isSome || name.isSome)

def removeMatching (schemas : List EthMessageSchema) (filterValue : JsonParsedValue) : List EthMessageSchema :=
  match filterValue with
  | .object filter => schemas.filter fun schema => !schemaMatchesFilter schema filter
  | _ => schemas

def schemasUnder (parsedSet : JsonParsedObject) (setObject : Members) (fieldName : Text) : List EthMessageSchema :=
  if (parsedSet.lookup fieldName).isSome then ((setObject.lookup fieldName).map parseEthMessageSchemaArray).getD [] else []

-- The number counts the levels left: a set at a depth above 8 is empty.
def parseEthMessageSchemaSet (sets : Members) : Nat → Json → List EthMessageSchema
  | 0,_ => []
  | _+1,.array items => parseEthMessageSchemaArray (.array items)
  | levels+1,.object setObject =>
    match parseSchemaObjectAtPath ethMessageSchemaSetSchema setObject [] with
    | .error _ => []
    | .ok parsedSet =>
      let inherited := match (parsedOptionalString parsedSet (ascii "extends")).bind fun baseName => sets.lookup baseName with
        | none => []
        | some baseSet => parseEthMessageSchemaSet sets levels baseSet
      let filters := (getParsedArray parsedSet (ascii "remove")).toOption.getD []
      let kept := filters.foldl removeMatching inherited
      schemasUnder parsedSet setObject (ascii "prepend") ++ (kept ++ schemasUnder parsedSet setObject (ascii "append"))
  | _+1,_ => []

abbrev kSchemaSetLevels : Nat := 9

def parseEthMessageSchemas (parsed : Json) (chainObject : Members) : List EthMessageSchema :=
  match chainObject.lookup (ascii "ethMessageSchemas") with
  | some schemasValue => parseEthMessageSchemaArray schemasValue
  | none =>
    match chainObject.lookup (ascii "ethMessageSchemaSet"),parsed with
    | some (.string setName),.object root =>
      match root.lookup (ascii "_ethMessageSchemaSets") with
      | some (.object sets) => ((sets.lookup setName).map (parseEthMessageSchemaSet sets kSchemaSetLevels)).getD []
      | _ => []
    | _,_ => []

def parseForkNextValue (value : Json) : Option (BitVec 64) :=
  match value with
  | .int64 number => if number.toInt ≥ 0 then some number else none
  | .string text => uint64Hex text
  | _ => none

def generatedPeer (nodeId : NodeId) (ip : Text) (port : BitVec 16) : ValidatedPeer := ⟨⟨nodeId,ip,port,port,none⟩,nodeId⟩

def makeValidatedPeerFromGeneratedNodeFields (node : JsonParsedObject) : Option ValidatedPeer := do
  let pubkey ← (getParsedString node (ascii "pubkey")).toOption
  let ip ← (getParsedString node (ascii "ip")).toOption
  let port ← (getParsedU32 node (ascii "port")).toOption
  if port = 0 ∨ port > 0xFFFF#32 then none
  else
    let nodeId ← hexArray kNodeIdSize pubkey
    return generatedPeer nodeId ip (port.setWidth 16)

def rfind (ch : UInt8) (text : Text) : Option Nat := (text.reverse.findIdx? (· = ch)).map fun back => text.length - 1 - back

def makeValidatedPeerFromEnode (enode : Text) : Option ValidatedPeer :=
  if ¬ kEnodePrefix.isPrefixOf enode then none
  else do
    let withoutPrefix := enode.drop kEnodePrefix.length
    let atPos ← withoutPrefix.findIdx? (· = 0x40)
    let pubkeyHex := withoutPrefix.take atPos
    if pubkeyHex.length ≠ kNodeIdSize * 2 then none
    else
      let hostPort := (withoutPrefix.drop (atPos + 1)).takeWhile (· ≠ 0x3f)
      let colonPos ← rfind 0x3a hostPort
      let port ← uint16Decimal (hostPort.drop (colonPos + 1))
      let nodeId ← hexArray kNodeIdSize pubkeyHex
      return generatedPeer nodeId (hostPort.take colonPos) port

def makeValidatedPeerFromEnr (lib : Libraries) (enrUri : Text) : Checked Enr.Discv5Error (Option ValidatedPeer) :=
  match Enr.parse lib.records lib.addresses enrUri with
  | .error .outOfBounds => .error .outOfBounds
  | .error (.returned _) => .ok none
  | .ok record =>
    match Discv5.toValidatedPeer record with
    | .error _ => .ok none
    | .ok peer => .ok (some ⟨⟨peer.nodeId,ascii peer.ip,peer.udpPort,peer.tcpPort,peer.ethForkId⟩,peer.nodeId⟩)

def findChainPeerCacheChainObject (parsed : Json) (chainName : Text) : Option Members :=
  match parsed with
  | .object root =>
    match root.lookup chainName with
    | some (.object chainObject) => some chainObject
    | _ => none
  | _ => none

def findChainPeerCacheChainPeerArray (parsed : Json) (chainName fieldName : Text) : Option (List Json) := do
  let chainObject ← findChainPeerCacheChainObject parsed chainName
  match chainObject.lookup fieldName with
  | some (.array items) => some items
  | _ => none

def chainPeerNodes (parsed : Json) (chainName fieldName : Text) : List JsonParsedObject :=
  ((findChainPeerCacheChainPeerArray parsed chainName fieldName).getD []).filterMap fun item =>
    (parseSchemaValueAtPath (.object chainPeerNodeSchema) item fieldName).toOption.bind JsonParsedValue.asObject

def nodePeer (lib : Libraries) (node : JsonParsedObject) : Checked Enr.Discv5Error (Option ValidatedPeer) := do
  let fromEnr ← match parsedOptionalString node (ascii "enr") with
    | none => .ok none
    | some enr => makeValidatedPeerFromEnr lib enr
  return fromEnr.or ((makeValidatedPeerFromGeneratedNodeFields node).or
    ((parsedOptionalString node (ascii "enode")).bind makeValidatedPeerFromEnode))

def parseChainPeersFromJsonValue (lib : Libraries) (parsed : Json) (chainName fieldName : Text) :
    Checked Enr.Discv5Error (List ValidatedPeer) := do
  let found ← (chainPeerNodes parsed chainName fieldName).mapM (nodePeer lib)
  return found.filterMap id

def parseEnrUrisFromJsonValue (parsed : Json) (chainName fieldName : Text) : List Text :=
  ((chainPeerNodes parsed chainName fieldName).filterMap fun node => parsedOptionalString node (ascii "enr")).foldl
    (fun enrUris uri => if uri ∈ enrUris then enrUris else enrUris ++ [uri]) []

def applyChainForkIdToPeers (peers : List ValidatedPeer) (chainForkId : ForkId) : List ValidatedPeer :=
  peers.map fun vp =>
    if vp.peer.ethForkId.isSome then vp
    else { vp with peer := { vp.peer with ethForkId := some ⟨chainForkId.forkHash,chainForkId.nextFork⟩ } }

def parseChainForkIdHashFromJsonValue (parsed : Json) (chainName : Text) : Option (FixedBytes 4) :=
  (chainPeerNodes parsed chainName kChainPeerNodesFieldName).findSome? fun node =>
    (parsedOptionalString node (ascii "forkId")).bind (hexArray 4)

def parseSignatureBytes (signature : Text) : Option (FixedBytes kRecoverableSignatureSize) :=
  hexArray kRecoverableSignatureSize signature

def parseSignatureString (root : Members) : Option Text :=
  match parseSchemaObjectAtPath chainPeerSignatureSchema root [] with
  | .error _ => none
  | .ok parsed => parsedOptionalString parsed kSignatureFieldName

def parseSignerAddressString (root : Members) : Option Text :=
  match parseSchemaObjectAtPath chainPeerSignatureSchema root [] with
  | .error _ => none
  | .ok parsed => parsedOptionalString parsed kSignerAddressFieldName

-- The keys of an object are distinct, so each of the others is added once.
def makeUnsignedChainPeerCacheObject (root : Members) : Members :=
  root.filter fun entry => ¬ (entry.1 = kSignatureFieldName ∨ entry.1 = kSignerAddressFieldName)

def recoverSignerAddress (crypto : Crypto) (messageHash : FixedBytes kSha256Size)
    (signatureBytes : FixedBytes kRecoverableSignatureSize) : Option Text :=
  if ¬ crypto.contextCreate then none
  else do
    let recoveryId := (signatureBytes.toList.drop 64).headD 0
    let signature ← crypto.recoverableParse (.copy 64 signatureBytes.toList) recoveryId
    let publicKey ← crypto.recover signature messageHash
    let publicKeyBytes := crypto.pubkeySerialize publicKey
    if publicKeyBytes.head ≠ kUncompressedPublicKeyPrefix then none
    else
      let addressHash := crypto.keccak256 publicKeyBytes.tail.toList
      return hexBytesString (addressHash.toList.drop (32 - kEthereumAddressSize))

structure ChainPeerCacheSignatureVerificationResult where
  hasSignature : Bool
  signatureValid : Bool
  signerAddress : Text
  deriving DecidableEq

def signatureValid (lib : Libraries) (root : Members) (expectedSignerAddress signature signerAddress : Text) : Bool :=
  match parseSignatureBytes signature with
  | none => false
  | some signatureBytes =>
    let unsignedJson := lib.serialize (makeUnsignedChainPeerCacheObject root)
    match recoverSignerAddress lib.recovery (lib.sha256 unsignedJson) signatureBytes with
    | none => false
    | some recoveredSignerAddress =>
      let expected := asciiLower expectedSignerAddress
      decide (expected ≠ []) && decide (asciiLower recoveredSignerAddress = expected) && decide (asciiLower signerAddress = expected)

def verifySignatureImpl (lib : Libraries) (parsed : Json) (expectedSignerAddress : Text) :
    Option ChainPeerCacheSignatureVerificationResult :=
  match parsed with
  | .object root =>
    match parseSignatureString root,parseSignerAddressString root with
    | some signature,some signerAddress =>
      some ⟨true,signatureValid lib root expectedSignerAddress signature signerAddress,signerAddress⟩
    | _,_ => some ⟨false,false,[]⟩
  | _ => none

section config
variable (lib : Libraries)

structure ChainHead where
  chainObject : Members
  parsedChain : JsonParsedObject
  networkId : BitVec 64
  genesisHash : Hash256

def readChainHead (parsed : Json) (chainName : Text) : Option ChainHead := do
  let chainObject ← findChainPeerCacheChainObject parsed chainName
  let parsedChain ← (parseSchemaObjectAtPath chainPeerConfigSchema chainObject []).toOption
  let networkId ← (getParsedU64 parsedChain (ascii "networkId")).toOption
  let genesisHex ← (getParsedString parsedChain (ascii "genesisHex")).toOption
  let genesisHash ← hexArray 32 genesisHex
  return ⟨chainObject,parsedChain,networkId,genesisHash⟩

def chainForkId (parsed : Json) (chainName : Text) (head : ChainHead) : Option ForkId :=
  match parsedOptionalString head.parsedChain (ascii "forkId") with
  | some forkIdValue => do
    let forkHash ← hexArray 4 forkIdValue
    let forkNext := (head.chainObject.lookup (ascii "forkNext")).bind parseForkNextValue
    return ⟨forkHash,forkNext.getD 0⟩
  | none => (parseChainForkIdHashFromJsonValue parsed chainName).map fun forkHash => ⟨forkHash,0⟩

def withForkId (forkId : Option ForkId) (peers : List ValidatedPeer) : List ValidatedPeer :=
  match forkId with
  | none => peers
  | some forkId => applyChainForkIdToPeers peers forkId

def readChainPeerConfig (parsed : Json) (chainName : Text) : Checked Enr.Discv5Error (Option ChainPeerConfig) :=
  match readChainHead parsed chainName with
  | none => .ok none
  | some head => do
    let nodes ← parseChainPeersFromJsonValue lib parsed chainName kChainPeerNodesFieldName
    let bootnodes ← parseChainPeersFromJsonValue lib parsed chainName kChainPeerBootnodesFieldName
    let forkId := chainForkId parsed chainName head
    return some {
      canonicalName := chainName
      networkId := head.networkId
      genesisHash := head.genesisHash
      nodes := withForkId forkId nodes
      bootnodes := withForkId forkId bootnodes
      discv5Bootnodes := parseEnrUrisFromJsonValue parsed chainName kChainPeerBootnodesFieldName ++
        parseEnrUrisFromJsonValue parsed chainName kChainPeerNodesFieldName
      enrTrees := parseEnrTreeUrls head.chainObject
      discoveryDefault := .kAuto
      discoveryForkFilter := .kRequire
      forkId := forkId
      ethMessageSchemas := parseEthMessageSchemas parsed head.chainObject
      signature := []
      signerAddress := [] }

def admitConfig (verification : Option ChainPeerCacheSignatureVerificationResult) (config : ChainPeerConfig) : Option ChainPeerConfig :=
  match verification with
  | none => some config
  | some verification =>
    if verification.hasSignature ∧ ¬ verification.signatureValid then none
    else some { config with
      signature := if verification.hasSignature then ascii "present" else []
      signerAddress := verification.signerAddress }

def parseChainPeerConfigFromJsonValue (parsed : Json) (chainName : Text) : Checked Enr.Discv5Error (Option ChainPeerConfig) := do
  let config ← readChainPeerConfig lib parsed chainName
  return config.bind (admitConfig (verifySignatureImpl lib parsed kTrustedChainPeerCacheSignerAddress))

def loadChainPeerConfigFromJsonText (chainName jsonText : Text) : Checked Enr.Discv5Error (Option ChainPeerConfig) :=
  if chainName = [] then .ok none
  else
    match lib.parse jsonText with
    | none => .ok none
    | some parsed => parseChainPeerConfigFromJsonValue lib parsed chainName

end config
end EvmRelay.Discv4
