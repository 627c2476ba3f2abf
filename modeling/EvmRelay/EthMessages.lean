import EvmRelay.ObjectCodec

namespace EvmRelay.Eth
open Rlp RlpSpec Reader Codec

structure NewBlockHashEntry where
  hash : Hash256
  number : BitVec 64
  deriving DecidableEq

structure NewBlockHashesMessage where
  entries : StdVector NewBlockHashEntry
  deriving DecidableEq

-- A request or its answer: the optional request_id of eth/66 and the content.
structure Request (α : Type) where
  requestId : Option (BitVec 64)
  content : α
  deriving DecidableEq

structure HeaderQuery where
  startHash : Option Hash256
  startNumber : Option (BitVec 64)
  maxHeaders : BitVec 64
  skip : BitVec 64
  reverse : Bool
  deriving DecidableEq

structure BlockBody where
  transactions : StdVector Transaction
  ommers : StdVector BlockHeader
  deriving DecidableEq

abbrev GetBlockHeadersMessage := Request HeaderQuery
abbrev BlockHeadersMessage := Request (StdVector BlockHeader)
abbrev GetReceiptsMessage := Request (StdVector Hash256)
abbrev ReceiptsMessage := Request (StdVector (StdVector Receipt))
abbrev GetPooledTransactionsMessage := Request (StdVector Hash256)
abbrev PooledTransactionsMessage := Request (StdVector (StdVector UInt8))
abbrev GetBlockBodiesMessage := Request (StdVector Hash256)
abbrev BlockBodiesMessage := Request (StdVector BlockBody)

structure NewBlockMessage where
  header : BlockHeader
  transactions : StdVector Transaction
  ommers : StdVector BlockHeader
  totalDifficulty : BitVec 256
  deriving DecidableEq

structure UpgradeStatusMessage where
  disablePeerTxBroadcast : Bool
  deriving DecidableEq

abbrev kNewBlockHashesMessageId : UInt8 := 0x01
abbrev kNewBlockMessageId : UInt8 := 0x07
abbrev kGetReceiptsMessageId : UInt8 := 0x0F
abbrev kReceiptsMessageId : UInt8 := 0x10

inductive EthMessageFieldType where
  | kUint8 | kUint16 | kUint32 | kUint64 | kUint256 | kHash32 | kHash4 | kForkId | kBytes | kBool | kHashOrNumber | kHashList
  | kUintList | kUint32List | kBytesList | kBlockHashEntries | kGetBlockHeadersQuery | kBlockHeaders | kBlockBodies | kBlock
  | kTransactions | kReceipts | kPooledTransactions
  deriving DecidableEq

structure EthMessageFieldSchema where
  name : List UInt8
  type : EthMessageFieldType
  size : Option Nat
  offset : Option Nat
  deriving DecidableEq

structure EthMessageSchema where
  name : List UInt8
  messageId : UInt8
  protocolVersion : Option UInt8
  fields : StdVector EthMessageFieldSchema
  deriving DecidableEq

def schemaHasField (schemas : StdVector EthMessageSchema) (messageId : UInt8) (fieldName : List UInt8) : Bool :=
  schemas.items.any fun schema => decide (schema.messageId = messageId) && schema.fields.items.any fun field => decide (field.name = fieldName)

-- The hash or the number to start from; neither makes nothing, both are refused.
def writeStart : Option Hash256 → Option (BitVec 64) → Encoder
  | some hash,_ => addBytes hash.toList
  | none,some number => addUint64 number
  | none,none => pure ()

def encodeGetBlockHeadersPayload (query : HeaderQuery) : Encoder :=
  if query.startHash.isSome ∧ query.startNumber.isSome then throw .kEmptyInput
  else writeList do
    writeStart query.startHash query.startNumber
    addUint64 query.maxHeaders
    addUint64 query.skip
    addBool query.reverse

-- A string of 32 bytes is a hash, any other a number.
def readStart : Decoder (Option Hash256 × Option (BitVec 64)) := fun v => do
  let h ← peekHeader v
  if h.list then .error .kUnexpectedList
  else if h.payloadSizeBytes = 32 then
    let (hash,view) ← orError (readFixed 32) .kUnexpectedLength v
    return ((some hash,none),view)
  else
    let (number,view) ← orError readUint64 .kUnexpectedString v
    return ((none,some number),view)

def decodeGetBlockHeadersPayload : Decoder HeaderQuery := do
  let (startHash,startNumber) ← readStart
  let maxHeaders ← orError readUint64 .kUnexpectedString
  let skip ← orError readUint64 .kUnexpectedString
  let reverse ← orError readBool .kUnexpectedString
  return ⟨startHash,startNumber,maxHeaders,skip,reverse⟩

def encodeHashList (hashes : StdVector Hash256) : Encoder :=
  writeList (forM hashes.items fun hash => addBytes hash.toList)

def decodeHashList : Decoder (StdVector Hash256) := readListOf (orError (readFixed 32) .kUnexpectedLength)

def encodeBlockHeadersPayload (headers : StdVector BlockHeader) : Encoder :=
  writeList (forM headers.items fun header => addEncoded (encodeBlockHeader header))

def decodeBlockHeadersPayload : Decoder (StdVector BlockHeader) := readListOf (readItemWith decodeBlockHeader)

def encodeReceiptsPayload (receipts : StdVector (StdVector Receipt)) : Encoder :=
  writeList (forM receipts.items fun blockReceipts =>
    writeList (forM blockReceipts.items fun receipt => addEncoded (encodeReceipt receipt)))

def decodeReceiptsPayload : Decoder (StdVector (StdVector Receipt)) := readListOf (readListOf (readItemWith decodeReceipt))

def encodePooledTransactionsPayload (encodedTransactions : StdVector (StdVector UInt8)) : Encoder :=
  writeList (forM encodedTransactions.items fun encodedTx => addRawBytes encodedTx.items)

def decodePooledTransactionsPayload : Decoder (StdVector (StdVector UInt8)) :=
  readListOf (readItemWith fun item => .ok item.toVector)

-- A legacy transaction is embedded as it is, a typed one as a string.
def writeTransaction (tx : Transaction) : Encoder := do
  let encoded ← liftM (encodeTransaction tx)
  if tx.type = .kLegacy then addRawBytes encoded else addBytes encoded

def encodeTransactionList (txs : StdVector Transaction) : Encoder := writeList (forM txs.items writeTransaction)

-- Both branches of the source that read raw bytes decode them the same way.
def readTransaction : Decoder Transaction := fun v => do
  let nextHeader ← peekHeader v
  if ¬ nextHeader.list ∧ 0 < nextHeader.payloadSizeBytes then
    let (rawBytes,view) ← orError readByteBuffer .kUnexpectedString v
    let tx ← decodeTransaction (.ofVector rawBytes)
    return (tx,view)
  else readItemWith decodeTransaction v

def decodeTransactionList : Decoder (StdVector Transaction) := readListOf readTransaction

def encodeBlockBody (body : BlockBody) : Encoder := writeList do
  encodeTransactionList body.transactions
  encodeBlockHeadersPayload body.ommers

-- A list that may go on behind its known fields:
-- while (decoder.Remaining().size() > target) { consume_next_item(decoder); }
def readOpenList (fields : Decoder α) : Decoder α := readList fun targetRemaining => do
  let value ← fields
  let _ ← readItems consumeNextItem targetRemaining
  return value

def decodeBlockBody : Decoder BlockBody := readOpenList do
  let transactions ← decodeTransactionList
  let ommers ← decodeBlockHeadersPayload
  return ⟨transactions,ommers⟩

def encodeBodies (bodies : StdVector BlockBody) : Encoder := writeList (forM bodies.items encodeBlockBody)

def decodeBodies : Decoder (StdVector BlockBody) := readListOf decodeBlockBody

def finish (v : ByteView) (message : α) : Except DecodingError α :=
  if isFinished v then .ok message else .error .kInputTooLong

def encodeNewBlockHashes (msg : NewBlockHashesMessage) : Except EncodingError (List UInt8) :=
  finalizeEncoding (writeList (forM msg.entries.items fun entry => writeList do
    addBytes entry.hash.toList
    addUint64 entry.number))

def readNewBlockHashEntry : Decoder NewBlockHashEntry := do
  let _ ← (readListHeaderBytes : Decoder Nat)
  let hash ← orError (readFixed 32) .kUnexpectedLength
  let number ← orError readUint64 .kUnexpectedString
  return ⟨hash,number⟩

-- while (!decoder.IsFinished()); no announced size is looked at.
def decodeNewBlockHashes (rlpData : ByteView) : Except DecodingError NewBlockHashesMessage := do
  let (_,view) ← readListHeaderBytes rlpData
  let (entries,_) ← readItems readNewBlockHashEntry 0 view
  return ⟨entries⟩

def decodeUpgradeStatus (rlpData : ByteView) : Except DecodingError UpgradeStatusMessage := do
  let (disablePeerTxBroadcast,_) ← readOpenList (orError readBool .kUnexpectedString) rlpData
  return ⟨disablePeerTxBroadcast⟩

-- The probe decoder reads a copy of the view, so the read that follows takes
-- what the probe took.
def consumeEth66RequestId : Decoder (Option (BitVec 64)) := fun v =>
  match readUint64 v with
  | .error _ => .ok (none,v)
  | .ok (candidateRequestId,probe) =>
    match peekHeader probe with
    | .error _ => .ok (none,v)
    | .ok nextHeader => if nextHeader.list then .ok (some candidateRequestId,probe) else .ok (none,v)

def encodeRequest (payload : α → Encoder) (msg : Request α) : Except EncodingError (List UInt8) :=
  finalizeEncoding (match msg.requestId with
    | some requestId => writeList do
      addUint64 requestId
      payload msg.content
    | none => payload msg.content)

-- And their decoders; what ReadListHeaderBytes announces is dropped.
def decodeRequest (payload : Option (BitVec 64) → Decoder α) (rlpData : ByteView) : Except DecodingError (Request α) := do
  let (_,view) ← readListHeaderBytes rlpData
  let (requestId,view) ← consumeEth66RequestId view
  let (content,view) ← payload requestId view
  finish view ⟨requestId,content⟩

def encodeGetBlockHeaders : GetBlockHeadersMessage → Except EncodingError (List UInt8) :=
  encodeRequest encodeGetBlockHeadersPayload

-- Behind a request id the payload has a list header of its own.
def readQuery : Option (BitVec 64) → Decoder HeaderQuery
  | some _ => do
    let _ ← (readListHeaderBytes : Decoder Nat)
    decodeGetBlockHeadersPayload
  | none => decodeGetBlockHeadersPayload

def decodeGetBlockHeaders : ByteView → Except DecodingError GetBlockHeadersMessage := decodeRequest readQuery

def encodeBlockHeaders : BlockHeadersMessage → Except EncodingError (List UInt8) := encodeRequest encodeBlockHeadersPayload

def decodeBlockHeaders : ByteView → Except DecodingError BlockHeadersMessage := decodeRequest fun _ => decodeBlockHeadersPayload

def encodeGetReceipts : GetReceiptsMessage → Except EncodingError (List UInt8) := encodeRequest encodeHashList

def decodeGetReceipts : ByteView → Except DecodingError GetReceiptsMessage := decodeRequest fun _ => decodeHashList

-- The two decoders that take schemas, where these name a field between the
-- request id and the content. The field is read and dropped.
def decodeAnnotated (ignored : Decoder β) (payload : Decoder α) (rlpData : ByteView) : Except DecodingError (Request α) := do
  let (_,view) ← readListHeaderBytes rlpData
  let (requestId,view) ← orError readUint64 .kUnexpectedString view
  let (_,view) ← orError ignored .kUnexpectedString view
  let (content,view) ← payload view
  finish view ⟨some requestId,content⟩

def decodeGetReceiptsWith (schemas : StdVector EthMessageSchema) (rlpData : ByteView) : Except DecodingError GetReceiptsMessage :=
  if ¬ schemaHasField schemas kGetReceiptsMessageId (ascii "first_block_receipt_index") then decodeGetReceipts rlpData
  else decodeAnnotated readUint64 decodeHashList rlpData

def encodeReceipts : ReceiptsMessage → Except EncodingError (List UInt8) := encodeRequest encodeReceiptsPayload

def decodeReceipts : ByteView → Except DecodingError ReceiptsMessage := decodeRequest fun _ => decodeReceiptsPayload

def decodeReceiptsWith (schemas : StdVector EthMessageSchema) (rlpData : ByteView) : Except DecodingError ReceiptsMessage :=
  if ¬ schemaHasField schemas kReceiptsMessageId (ascii "last_block_incomplete") then decodeReceipts rlpData
  else decodeAnnotated readBool decodeReceiptsPayload rlpData

def encodeGetPooledTransactions : GetPooledTransactionsMessage → Except EncodingError (List UInt8) := encodeRequest encodeHashList

def decodeGetPooledTransactions : ByteView → Except DecodingError GetPooledTransactionsMessage :=
  decodeRequest fun _ => decodeHashList

def encodePooledTransactions : PooledTransactionsMessage → Except EncodingError (List UInt8) :=
  encodeRequest encodePooledTransactionsPayload

def decodePooledTransactions : ByteView → Except DecodingError PooledTransactionsMessage :=
  decodeRequest fun _ => decodePooledTransactionsPayload

def encodeGetBlockBodies : GetBlockBodiesMessage → Except EncodingError (List UInt8) := encodeRequest encodeHashList

def decodeGetBlockBodies : ByteView → Except DecodingError GetBlockBodiesMessage := decodeRequest fun _ => decodeHashList

def encodeBlockBodies : BlockBodiesMessage → Except EncodingError (List UInt8) := encodeRequest encodeBodies

def decodeBlockBodies : ByteView → Except DecodingError BlockBodiesMessage := decodeRequest fun _ => decodeBodies

def encodeNewBlock (msg : NewBlockMessage) : Except EncodingError (List UInt8) := finalizeEncoding (writeList do
  writeList do
    addEncoded (encodeBlockHeader msg.header)
    encodeTransactionList msg.transactions
    encodeBlockHeadersPayload msg.ommers
  addWord msg.totalDifficulty)

-- [header, txs, ommers]
def readBlock : Decoder (BlockHeader × StdVector Transaction × StdVector BlockHeader) := readOpenList do
  let header ← readItemWith decodeBlockHeader
  let transactions ← decodeTransactionList
  let ommers ← decodeBlockHeadersPayload
  return (header,transactions,ommers)

-- [[header, txs, ommers], totalDifficulty]
def readNewBlock : Decoder NewBlockMessage := readOpenList do
  let (header,transactions,ommers) ← readBlock
  let totalDifficulty ← orError readWord .kUnexpectedString
  return ⟨header,transactions,ommers,totalDifficulty⟩

def decodeNewBlock (rlpData : ByteView) : Except DecodingError NewBlockMessage := do
  let (msg,view) ← readNewBlock rlpData
  finish view msg

def decodeNewBlockWith (_ : StdVector EthMessageSchema) (rlpData : ByteView) : Except DecodingError NewBlockMessage := decodeNewBlock rlpData

end EvmRelay.Eth
