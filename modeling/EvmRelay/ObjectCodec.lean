import EvmRelay.Objects
import EvmRelay.RlpReader
import EvmRelay.RlpWriter

namespace EvmRelay.Codec
open Rlp RlpSpec Reader

abbrev kRlpListPrefixMin : UInt8 := 0xC0
abbrev kTypedTxPrefixSize : Nat := 1
abbrev kDefaultChainId : BitVec 64 := 1#64

def decodeStatusOrStateRoot : Decoder (Option Hash256 × Option Bool) := fun v => do
  let h ← peekHeader v
  if h.list then .error .kUnexpectedList
  else if h.payloadSizeBytes = 32 then
    let (root,view) ← readFixed 32 v
    return ((some root,none),view)
  else
    let (statusBytes,view) ← readBytes v
    match statusBytes with
    | [] => .ok ((none,some false),view)
    | [byte] => .ok ((none,some (decide (byte ≠ 0))),view)
    | _ => .error .kUnexpectedLength

def decodeLogEntryFromDecoder : Decoder LogEntry := readList fun _ => do
  let address ← orError (readFixed 20) .kUnexpectedLength
  let topics ← readListOf (orError (readFixed 32) .kUnexpectedLength)
  let data ← orError readByteBuffer .kUnexpectedString
  return ⟨address,topics,data⟩

def encodeAccessListEntryToEncoder (entry : AccessListEntry) : Encoder := writeList do
  addBytes entry.address.toList
  writeList (forM entry.storageKeys.items fun key => addBytes key.toList)

def decodeAccessListEntryFromDecoder : Decoder AccessListEntry := readList fun _ => do
  let address ← orError (readFixed 20) .kUnexpectedLength
  let storageKeys ← readListOf (orError (readFixed 32) .kUnexpectedLength)
  return ⟨address,storageKeys⟩

def encodeAccessList (accessList : StdVector AccessListEntry) : Encoder :=
  writeList (forM accessList.items encodeAccessListEntryToEncoder)

def decodeAccessList : Decoder (StdVector AccessListEntry) := readListOf decodeAccessListEntryFromDecoder

def writeLogEntry (entry : LogEntry) : Encoder := writeList do
  addBytes entry.address.toList
  writeList (forM entry.topics.items fun topic => addBytes topic.toList)
  addBytes entry.data.items

def encodeLogEntry (entry : LogEntry) : Except EncodingError (List UInt8) := finalizeEncoding (writeLogEntry entry)

def decodeLogEntry (rlpData : ByteView) : Except DecodingError LogEntry := do
  let (entry,_) ← decodeLogEntryFromDecoder rlpData
  return entry

def encodeAccessListEntry (entry : AccessListEntry) : Except EncodingError (List UInt8) :=
  finalizeEncoding (encodeAccessListEntryToEncoder entry)

def decodeAccessListEntry (rlpData : ByteView) : Except DecodingError AccessListEntry := do
  let (entry,_) ← decodeAccessListEntryFromDecoder rlpData
  return entry

def toBytes : Option Address → List UInt8
  | some address => address.toList
  | none => []

def encodeTransaction (tx : Transaction) : Except EncodingError (List UInt8) :=
  match tx.type with
  | .kLegacy => finalizeEncoding (writeList do
      addUint64 tx.nonce
      addWord (tx.gasPrice.getD 0)
      addUint64 tx.gasLimit
      addBytes (toBytes tx.toAddress)
      addWord tx.value
      addBytes tx.data.items
      addWord tx.v
      addWord tx.r
      addWord tx.s)
  | .kAccessList => do
    let rlpBytes ← finalizeEncoding (writeList do
      addUint64 (tx.chainId.getD kDefaultChainId)
      addUint64 tx.nonce
      addWord (tx.gasPrice.getD 0)
      addUint64 tx.gasLimit
      addBytes (toBytes tx.toAddress)
      addWord tx.value
      addBytes tx.data.items
      encodeAccessList tx.accessList
      addWord tx.v
      addWord tx.r
      addWord tx.s)
    return TransactionType.byte .kAccessList :: rlpBytes
  | .kDynamicFee => do
    let rlpBytes ← finalizeEncoding (writeList do
      addUint64 (tx.chainId.getD kDefaultChainId)
      addUint64 tx.nonce
      addWord (tx.maxPriorityFeePerGas.getD 0)
      addWord (tx.maxFeePerGas.getD 0)
      addUint64 tx.gasLimit
      addBytes (toBytes tx.toAddress)
      addWord tx.value
      addBytes tx.data.items
      encodeAccessList tx.accessList
      addWord tx.v
      addWord tx.r
      addWord tx.s)
    return TransactionType.byte .kDynamicFee :: rlpBytes
  | .kOpDeposit => .error .kEmptyInput

def emptyTransaction (type : TransactionType) : Transaction :=
  ⟨type,0,0,none,0,.empty,none,none,none,.empty,none,0,0,0⟩

def readTo : Decoder (Option Address) := fun v => do
  let h ← peekHeader v
  if h.payloadSizeBytes = 0 then
    let (_,view) ← orError readBytes .kUnexpectedString v
    return (none,view)
  else
    let (address,view) ← orError (readFixed 20) .kUnexpectedLength v
    return (some address,view)

def readFees : TransactionType → Decoder (Option (BitVec 256) × Option (BitVec 256) × Option (BitVec 256))
  | .kAccessList => do
    let gasPrice ← orError readWord .kUnexpectedString
    return (some gasPrice,none,none)
  | _ => do
    let maxPriorityFee ← orError readWord .kUnexpectedString
    let maxFee ← orError readWord .kUnexpectedString
    return (none,some maxPriorityFee,some maxFee)

def readTypedFields (type : TransactionType) : Decoder Transaction := do
  let chainId ← orError readUint64 .kUnexpectedString
  let nonce ← orError readUint64 .kUnexpectedString
  let (gasPrice,maxPriorityFee,maxFee) ← readFees type
  let gasLimit ← orError readUint64 .kUnexpectedString
  let toAddress ← readTo
  let value ← orError readWord .kUnexpectedString
  let data ← orError readByteBuffer .kUnexpectedString
  let accessList ← decodeAccessList
  let v ← orError readWord .kUnexpectedString
  let r ← orError readWord .kUnexpectedString
  let s ← orError readWord .kUnexpectedString
  return ⟨type,nonce,gasLimit,toAddress,value,data,gasPrice,maxPriorityFee,maxFee,accessList,some chainId,v,r,s⟩

def readLegacyFields : Decoder Transaction := do
  let nonce ← orError readUint64 .kUnexpectedString
  let gasPrice ← orError readWord .kUnexpectedString
  let gasLimit ← orError readUint64 .kUnexpectedString
  let toAddress ← readTo
  let value ← orError readWord .kUnexpectedString
  let data ← orError readByteBuffer .kUnexpectedString
  let v ← orError readWord .kUnexpectedString
  let r ← orError readWord .kUnexpectedString
  let s ← orError readWord .kUnexpectedString
  return ⟨.kLegacy,nonce,gasLimit,toAddress,value,data,some gasPrice,none,none,.empty,none,v,r,s⟩

-- ReadListHeaderBytes and the fields behind it; where the list ends is not
-- looked at, nor what is left of the view.
def readFields (fields : Decoder α) (rlpData : ByteView) : Except DecodingError α := do
  let (_,view) ← readListHeaderBytes rlpData
  let (value,_) ← fields view
  return value

def decodeTransaction (rawData : ByteView) : Except DecodingError Transaction :=
  match rawData.bytes with
  | [] => .error .kInputTooShort
  | typeByte :: _ =>
    if typeByte < kRlpListPrefixMin then
      let rlpPayload := rawData.removePrefix kTypedTxPrefixSize
      if typeByte = TransactionType.byte .kAccessList then readFields (readTypedFields .kAccessList) rlpPayload
      else if typeByte = TransactionType.byte .kDynamicFee then readFields (readTypedFields .kDynamicFee) rlpPayload
      else if typeByte = TransactionType.byte .kOpDeposit then .ok (emptyTransaction .kOpDeposit)
      else .error .kUnexpectedString
    else readFields readLegacyFields rawData

def writeStatusOrStateRoot (receipt : Receipt) : Encoder :=
  match receipt.stateRoot,receipt.status with
  | some root,_ => addBytes root.toList
  | none,some status => addUint8 (if status then 1 else 0)
  | none,none => throw .kEmptyInput

def encodeReceipt (receipt : Receipt) : Except EncodingError (List UInt8) := finalizeEncoding (writeList do
  writeStatusOrStateRoot receipt
  addWord receipt.cumulativeGasUsed
  addBytes receipt.bloom.toList
  writeList (forM receipt.logs.items writeLogEntry))

def readReceiptFields : Decoder Receipt := do
  let (stateRoot,status) ← decodeStatusOrStateRoot
  let cumulativeGasUsed ← orError readWord .kUnexpectedString
  let bloom ← orError (readFixed 256) .kUnexpectedLength
  let logs ← readListOf decodeLogEntryFromDecoder
  return ⟨stateRoot,status,cumulativeGasUsed,bloom,logs⟩

-- One byte in front of the list is taken for a type byte and dropped.
def stripTypeByte (rlpData : ByteView) : ByteView :=
  match rlpData.bytes with
  | [] => rlpData
  | first :: _ => if first < kRlpListPrefixMin then rlpData.removePrefix kTypedTxPrefixSize else rlpData

def decodeReceipt (rlpData : ByteView) : Except DecodingError Receipt :=
  readFields readReceiptFields (stripTypeByte rlpData)

def writeBaseFee : Option (BitVec 256) → Encoder
  | some baseFee => addWord baseFee
  | none => pure ()

def encodeBlockHeader (header : BlockHeader) : Except EncodingError (List UInt8) := finalizeEncoding (writeList do
  addBytes header.parentHash.toList
  addBytes header.ommersHash.toList
  addBytes header.beneficiary.toList
  addBytes header.stateRoot.toList
  addBytes header.transactionsRoot.toList
  addBytes header.receiptsRoot.toList
  addBytes header.logsBloom.toList
  addWord header.difficulty
  addUint64 header.number
  addUint64 header.gasLimit
  addUint64 header.gasUsed
  addUint64 header.timestamp
  addBytes header.extraData.items
  addBytes header.mixHash.toList
  addBytes header.nonce.toList
  writeBaseFee header.baseFeePerGas)

def readHeaderFields : Decoder BlockHeader := do
  let parentHash ← orError (readFixed 32) .kUnexpectedLength
  let ommersHash ← orError (readFixed 32) .kUnexpectedLength
  let beneficiary ← orError (readFixed 20) .kUnexpectedLength
  let stateRoot ← orError (readFixed 32) .kUnexpectedLength
  let transactionsRoot ← orError (readFixed 32) .kUnexpectedLength
  let receiptsRoot ← orError (readFixed 32) .kUnexpectedLength
  let logsBloom ← orError (readFixed 256) .kUnexpectedLength
  let difficulty ← orError readWord .kUnexpectedString
  let number ← orError readUint64 .kUnexpectedString
  let gasLimit ← orError readUint64 .kUnexpectedString
  let gasUsed ← orError readUint64 .kUnexpectedString
  let timestamp ← orError readUint64 .kUnexpectedString
  let extraData ← orError readByteBuffer .kUnexpectedString
  let mixHash ← orError (readFixed 32) .kUnexpectedLength
  let nonce ← orError (readFixed 8) .kUnexpectedLength
  return ⟨parentHash,ommersHash,beneficiary,stateRoot,transactionsRoot,receiptsRoot,logsBloom,difficulty,number,gasLimit,
    gasUsed,timestamp,extraData,mixHash,nonce,none⟩

def readBaseFee : Decoder (Option (BitVec 256)) := fun v =>
  if isFinished v then .ok (none,v)
  else do
    let (baseFee,view) ← orError readWord .kUnexpectedString v
    return (some baseFee,view)

-- while (!decoder.IsFinished()) { decoder.SkipItem(); }
def skipOne : Decoder Unit := fun v => do
  let view ← skipItem v
  return ((),view)

def skipItems : Decoder (List Unit) := fun v => readAbove .kListLengthMismatch skipOne 0 v.length v

def decodeBlockHeader (rlpData : ByteView) : Except DecodingError BlockHeader :=
  readFields (do
    let header ← readHeaderFields
    let baseFee ← readBaseFee
    let _ ← skipItems
    return { header with baseFeePerGas := baseFee }) rlpData

theorem ListForm.of_wire (wire : α → Wire) (normal : α → β) (values : StdVector α)
    (written : Wire.each wire values.items = some payload)
    (each : ∀ item ∈ values.items,∀ piece,wire item = some piece → piece.length ≤ payload.length → form piece (normal item)) :
    ListForm form (encodeList payload) (values.map normal) := by
  obtain ⟨pieces,all,rfl⟩ := (Wire.each_pieces ..).mp written
  have formed : ∀ items : List α,(∀ item ∈ items,item ∈ values.items) → ∀ some : List (List UInt8),
      (∀ piece ∈ some,piece ∈ pieces) → List.Forall₂ (fun item piece => wire item = .some piece) items some →
      List.Forall₂ form some (items.map normal) := by
    intro items inside some among all
    induction all with
    | nil => exact .nil
    | @cons item piece items more one _ ih =>
      have shorter := (List.sublist_flatten_of_mem (among piece List.mem_cons_self)).length_le
      exact .cons (each item (inside item List.mem_cons_self) piece one shorter)
        (ih (fun item member => inside item (List.mem_cons_of_mem _ member))
          fun piece member => among piece (List.mem_cons_of_mem _ member))
  exact ⟨pieces,formed values.items (fun _ => id) pieces (fun _ => id) all,rfl⟩

theorem readListOf_each {read : Decoder α} (wire : α → List UInt8) (values : StdVector α)
    (some : ∀ item,wire item ≠ []) (reads : ∀ item,Reads read (wire item) item) :
    Reads (readListOf read) (encodeList (values.items.flatMap wire)) values := by
  have same : ListForm (fun piece item => piece ≠ [] ∧ Reads read piece item) _ (values.map id) :=
    ListForm.of_wire (fun item => .some (wire item)) id values (Wire.each_some wire) (by
      intro item _ piece written _
      cases written
      exact ⟨some item,reads item⟩)
  rw [StdVector.map_id] at same
  obtain ⟨pieces,all,spelled⟩ := same
  rw [spelled]
  exact readListOf_reads (all.imp fun _ _ one => one.2) (pieces_all (fun _ _ one => one.1) all)

theorem encodeString_nonempty (bytes : List UInt8) : encodeString bytes ≠ [] := (IsItem.string bytes).nonempty

theorem encodeList_nonempty (payload : List UInt8) : encodeList payload ≠ [] := (IsItem.list payload).nonempty

def fixedWire (value : FixedBytes count) : List UInt8 := encodeString value.toList

def logEntryWire (entry : LogEntry) : List UInt8 :=
  encodeList (fixedWire entry.address ++ (encodeList (entry.topics.items.flatMap fixedWire) ++
    encodeString entry.data.items))

def accessListEntryWire (entry : AccessListEntry) : List UInt8 :=
  encodeList (fixedWire entry.address ++ encodeList (entry.storageKeys.items.flatMap fixedWire))

def accessListWire (accessList : StdVector AccessListEntry) : List UInt8 :=
  encodeList (accessList.items.flatMap accessListEntryWire)

theorem hashes_write (hashes : List (FixedBytes count)) :
    Writes (forM hashes fun hash => addBytes hash.toList) (some (hashes.flatMap fixedWire)) := by
  rw [← Wire.each_some]
  exact writes_each _ fun hash _ => addBytes_writes _

theorem writeLogEntry_writes (entry : LogEntry) : Writes (writeLogEntry entry) (some (logEntryWire entry)) :=
  ((addBytes_writes _).join ((hashes_write _).list.join (addBytes_writes _))).list

theorem accessListEntry_writes (entry : AccessListEntry) :
    Writes (encodeAccessListEntryToEncoder entry) (some (accessListEntryWire entry)) :=
  ((addBytes_writes _).join (hashes_write _).list).list

theorem accessList_writes (accessList : StdVector AccessListEntry) :
    Writes (encodeAccessList accessList) (some (accessListWire accessList)) := by
  have entries := writes_each accessList.items
    fun entry _ => accessListEntry_writes entry
  rw [Wire.each_some] at entries
  exact entries.list

theorem hashes_read (hashes : StdVector (FixedBytes count)) :
    Reads (readListOf (orError (readFixed count) error)) (encodeList (hashes.items.flatMap fixedWire)) hashes :=
  readListOf_each fixedWire hashes (fun _ => encodeString_nonempty _) fun hash => orError_reads error (readFixed_reads hash)

theorem logEntry_read (entry : LogEntry) : Reads decodeLogEntryFromDecoder (logEntryWire entry) entry := by
  apply readList_reads
  refine (orError_reads _ (readFixed_reads entry.address)).bind ?_
  refine (hashes_read entry.topics).bind ?_
  exact (orError_reads _ (readByteBuffer_reads entry.data)).map _

theorem accessListEntry_read (entry : AccessListEntry) :
    Reads decodeAccessListEntryFromDecoder (accessListEntryWire entry) entry := by
  apply readList_reads
  refine (orError_reads _ (readFixed_reads entry.address)).bind ?_
  exact (hashes_read entry.storageKeys).map _

theorem accessList_read (accessList : StdVector AccessListEntry) :
    Reads decodeAccessList (accessListWire accessList) accessList :=
  readListOf_each accessListEntryWire accessList (fun _ => encodeList_nonempty _) accessListEntry_read

theorem readFields_wire (reads : Reads fields payload value)
    (spelled : v.bytes = encodeList payload) : readFields fields v = .ok value := by
  obtain ⟨view,headed,behind⟩ := listHeader_reads spelled (Nat.le_refl _)
  have read : fields view = .ok (value,.empty) := reads view .empty (behind.trans (List.append_nil _).symm)
  exact bind_ok.mpr ⟨_,headed,bind_ok.mpr ⟨_,read,rfl⟩⟩

theorem encodeList_first (small : payload.length < sizeLimit) :
    ∃ first more,encodeList payload = first :: more ∧ kRlpListPrefixMin ≤ first := by
  obtain ⟨first,more,lead,above,_⟩ := header_first 0xC0 0xF7 small (by decide) (by decide)
  refine ⟨first,more ++ payload,?_,UInt8.le_iff_toNat_le.mpr above⟩
  rw [encodeList,listHeader,lead,List.cons_append]

-- The status or the state root, whichever a receipt carries; the root if both.
def receiptHeadWire (receipt : Receipt) : Wire :=
  match receipt.stateRoot,receipt.status with
  | some root,_ => some (fixedWire root)
  | none,some status => some (encodeScalar status.toNat)
  | none,none => none

def receiptTailWire (receipt : Receipt) : List UInt8 :=
  encodeScalar receipt.cumulativeGasUsed.toNat ++ (fixedWire receipt.bloom ++
    encodeList (receipt.logs.items.flatMap logEntryWire))

def receiptWire (receipt : Receipt) : Wire := Wire.list (Wire.join (receiptHeadWire receipt) (some (receiptTailWire receipt)))

def normalReceipt (receipt : Receipt) : Receipt :=
  { receipt with status := if receipt.stateRoot.isSome then none else receipt.status }

theorem receiptHead_writes (receipt : Receipt) : Writes (writeStatusOrStateRoot receipt) (receiptHeadWire receipt) := by
  unfold writeStatusOrStateRoot receiptHeadWire
  cases receipt.stateRoot with
  | some root => exact addBytes_writes _
  | none =>
    cases receipt.status with
    | some status => cases status <;> exact addUint8_writes _
    | none =>
      intro e after _
      constructor
      · intro wrong
        cases wrong
      · intro wrong
        cases wrong

theorem encodeReceipt_exact (receipt : Receipt) (fits : bytes.length < sizeLimit) :
    encodeReceipt receipt = .ok bytes ↔ receiptWire receipt = some bytes := by
  have logs := writes_each receipt.logs.items fun entry _ => writeLogEntry_writes entry
  rw [Wire.each_some] at logs
  exact finalizeEncoding_exact
    ((receiptHead_writes receipt).join ((addWord_writes _).join ((addBytes_writes _).join logs.list))).list fits

theorem statusOrStateRoot_read (written : receiptHeadWire receipt = some head) :
    Reads decodeStatusOrStateRoot head (receipt.stateRoot,(normalReceipt receipt).status) := by
  intro v rest spelled
  unfold receiptHeadWire at written
  unfold normalReceipt
  cases root : receipt.stateRoot with
  | some hash =>
    rw [root] at written
    cases written
    obtain ⟨offset,peeked,_⟩ := string_layout spelled
    refine bind_ok.mpr ⟨_,peeked,?_⟩
    rw [if_neg Bool.false_ne_true,if_pos hash.toList_length]
    exact bind_ok.mpr ⟨_,readFixed_reads hash v rest spelled,rfl⟩
  | none =>
    rw [root] at written
    cases status : receipt.status with
    | none =>
      rw [status] at written
      cases written
    | some flag =>
      rw [status] at written
      cases written
      have small : (BigEndian.minimal flag.toNat).length ≠ 32 := by cases flag <;> decide
      obtain ⟨offset,peeked,_⟩ := string_layout spelled
      refine bind_ok.mpr ⟨_,peeked,?_⟩
      rw [if_neg Bool.false_ne_true,if_neg small]
      refine bind_ok.mpr ⟨_,readBytes_complete spelled,?_⟩
      cases flag <;> rfl

theorem receiptFields_read (receipt : Receipt) (written : receiptHeadWire receipt = some head) :
    Reads readReceiptFields (head ++ receiptTailWire receipt) (normalReceipt receipt) := by
  refine (statusOrStateRoot_read written).bind ?_
  refine (orError_reads _ (readWord_reads receipt.cumulativeGasUsed)).bind ?_
  refine (orError_reads _ (readFixed_reads receipt.bloom)).bind ?_
  have logs := readListOf_each logEntryWire receipt.logs (fun _ => encodeList_nonempty _) logEntry_read
  exact logs.map _

theorem stripTypeByte_list (rest : List UInt8) (spelled : v.bytes = encodeList payload ++ rest) : stripTypeByte v = v := by
  have fits := v.fits
  rw [spelled] at fits
  obtain ⟨first,more,lead,above⟩ := encodeList_first (encodeList_shorter (front_fits fits))
  rw [lead,List.cons_append] at spelled
  unfold stripTypeByte
  rw [spelled]
  exact if_neg (UInt8.not_lt.mpr above)

theorem decodeReceipt_wire (receipt : Receipt) (written : receiptWire receipt = some v.bytes) :
    decodeReceipt v = .ok (normalReceipt receipt) := by
  obtain ⟨payload,joined,spelled⟩ := Option.map_eq_some_iff.mp written
  obtain ⟨head,first,rest⟩ := Option.bind_eq_some_iff.mp joined
  cases rest
  unfold decodeReceipt
  rw [stripTypeByte_list [] (by rw [← spelled,List.append_nil])]
  exact readFields_wire (receiptFields_read receipt first) spelled.symm

def headerFieldsWire (header : BlockHeader) : List UInt8 :=
  fixedWire header.parentHash ++ (fixedWire header.ommersHash ++ (fixedWire header.beneficiary ++
  (fixedWire header.stateRoot ++ (fixedWire header.transactionsRoot ++ (fixedWire header.receiptsRoot ++
  (fixedWire header.logsBloom ++ (encodeScalar header.difficulty.toNat ++ (encodeScalar header.number.toNat ++
  (encodeScalar header.gasLimit.toNat ++ (encodeScalar header.gasUsed.toNat ++ (encodeScalar header.timestamp.toNat ++
  (encodeString header.extraData.items ++ (fixedWire header.mixHash ++ fixedWire header.nonce)))))))))))))

def baseFeeWire : Option (BitVec 256) → List UInt8
  | some baseFee => encodeScalar baseFee.toNat
  | none => []

def blockHeaderWire (header : BlockHeader) : List UInt8 :=
  encodeList (headerFieldsWire header ++ baseFeeWire header.baseFeePerGas)

theorem baseFee_writes (baseFee : Option (BitVec 256)) : Writes (writeBaseFee baseFee) (some (baseFeeWire baseFee)) := by
  cases baseFee with
  | some fee => exact addWord_writes fee
  | none => exact writes_nothing

theorem encodeBlockHeader_exact (header : BlockHeader) (fits : bytes.length < sizeLimit) :
    encodeBlockHeader header = .ok bytes ↔ blockHeaderWire header = bytes := by
  have fields := (addBytes_writes header.parentHash.toList).join <| (addBytes_writes header.ommersHash.toList).join <|
    (addBytes_writes header.beneficiary.toList).join <| (addBytes_writes header.stateRoot.toList).join <|
    (addBytes_writes header.transactionsRoot.toList).join <| (addBytes_writes header.receiptsRoot.toList).join <|
    (addBytes_writes header.logsBloom.toList).join <| (addWord_writes header.difficulty).join <|
    (addUint64_writes header.number).join <| (addUint64_writes header.gasLimit).join <|
    (addUint64_writes header.gasUsed).join <| (addUint64_writes header.timestamp).join <|
    (addBytes_writes header.extraData.items).join <| (addBytes_writes header.mixHash.toList).join <|
    (addBytes_writes header.nonce.toList).join (baseFee_writes header.baseFeePerGas)
  rw [encodeBlockHeader,finalizeEncoding_exact fields.list fits]
  simp [blockHeaderWire,headerFieldsWire,fixedWire]

theorem headerFields_read (header : BlockHeader) :
    Reads readHeaderFields (headerFieldsWire header) { header with baseFeePerGas := none } := by
  refine (orError_reads _ (readFixed_reads header.parentHash)).bind ?_
  refine (orError_reads _ (readFixed_reads header.ommersHash)).bind ?_
  refine (orError_reads _ (readFixed_reads header.beneficiary)).bind ?_
  refine (orError_reads _ (readFixed_reads header.stateRoot)).bind ?_
  refine (orError_reads _ (readFixed_reads header.transactionsRoot)).bind ?_
  refine (orError_reads _ (readFixed_reads header.receiptsRoot)).bind ?_
  refine (orError_reads _ (readFixed_reads header.logsBloom)).bind ?_
  refine (orError_reads _ (readWord_reads header.difficulty)).bind ?_
  refine (orError_reads _ (readUint64_reads header.number)).bind ?_
  refine (orError_reads _ (readUint64_reads header.gasLimit)).bind ?_
  refine (orError_reads _ (readUint64_reads header.gasUsed)).bind ?_
  refine (orError_reads _ (readUint64_reads header.timestamp)).bind ?_
  refine (orError_reads _ (readByteBuffer_reads header.extraData)).bind ?_
  refine (orError_reads _ (readFixed_reads header.mixHash)).bind ?_
  exact (orError_reads _ (readFixed_reads header.nonce)).map _

theorem decodeBlockHeader_wire (header : BlockHeader) (spelled : v.bytes = blockHeaderWire header) :
    decodeBlockHeader v = .ok header := by
  obtain ⟨view,headed,behind⟩ := listHeader_reads spelled (Nat.le_refl _)
  obtain ⟨left,behind,fee⟩ := view.cut behind
  have fields := headerFields_read header view left behind
  have baseFee : readBaseFee left = .ok (header.baseFeePerGas,.empty) := by
    unfold readBaseFee
    cases some : header.baseFeePerGas with
    | none =>
      rw [some] at fee
      have empty : left = .empty := ByteView.ext_bytes fee
      rw [if_pos ((isFinished_iff left).mpr fee),empty]
    | some amount =>
      rw [some] at fee
      have nonempty : ¬ isFinished left = true := by
        rw [isFinished_iff,fee]
        exact encodeString_nonempty _
      rw [if_neg nonempty]
      refine bind_ok.mpr ⟨_,orError_reads _ (readWord_reads amount) left .empty ?_,rfl⟩
      exact fee.trans (List.append_nil _).symm
  have done : skipItems .empty = .ok ([],.empty) := rfl
  refine bind_ok.mpr ⟨_,headed,bind_ok.mpr ⟨(header,.empty),?_,rfl⟩⟩
  refine bind_ok_iff.mpr ⟨_,left,fields,bind_ok_iff.mpr ⟨_,.empty,baseFee,bind_ok_iff.mpr ⟨_,.empty,done,rfl⟩⟩⟩

def signatureWire (tx : Transaction) : List UInt8 :=
  encodeScalar tx.v.toNat ++ (encodeScalar tx.r.toNat ++ encodeScalar tx.s.toNat)

def callWire (tx : Transaction) (rest : List UInt8) : List UInt8 :=
  encodeScalar tx.gasLimit.toNat ++ (encodeString (toBytes tx.toAddress) ++ (encodeScalar tx.value.toNat ++
    (encodeString tx.data.items ++ rest)))

def feesWire (tx : Transaction) : List UInt8 :=
  match tx.type with
  | .kDynamicFee => encodeScalar (tx.maxPriorityFeePerGas.getD 0).toNat ++ encodeScalar (tx.maxFeePerGas.getD 0).toNat
  | _ => encodeScalar (tx.gasPrice.getD 0).toNat

def legacyFieldsWire (tx : Transaction) : List UInt8 :=
  encodeScalar tx.nonce.toNat ++ (feesWire tx ++ callWire tx (signatureWire tx))

def typedFieldsWire (tx : Transaction) : List UInt8 :=
  encodeScalar (tx.chainId.getD kDefaultChainId).toNat ++ (encodeScalar tx.nonce.toNat ++ (feesWire tx ++
    callWire tx (accessListWire tx.accessList ++ signatureWire tx)))

def transactionWire (tx : Transaction) : Wire :=
  match tx.type with
  | .kLegacy => some (encodeList (legacyFieldsWire tx))
  | .kAccessList => some (TransactionType.byte .kAccessList :: encodeList (typedFieldsWire tx))
  | .kDynamicFee => some (TransactionType.byte .kDynamicFee :: encodeList (typedFieldsWire tx))
  | .kOpDeposit => none

-- What is left of a transaction after the wire: absent fees become zero, an
-- absent chain id the default one, and fields its type does not carry are gone.
def normalTransaction (tx : Transaction) : Transaction :=
  match tx.type with
  | .kLegacy => { tx with
      gasPrice := some (tx.gasPrice.getD 0)
      maxPriorityFeePerGas := none
      maxFeePerGas := none
      accessList := .empty
      chainId := none }
  | .kAccessList => { tx with
      gasPrice := some (tx.gasPrice.getD 0)
      maxPriorityFeePerGas := none
      maxFeePerGas := none
      chainId := some (tx.chainId.getD kDefaultChainId) }
  | .kDynamicFee => { tx with
      gasPrice := none
      maxPriorityFeePerGas := some (tx.maxPriorityFeePerGas.getD 0)
      maxFeePerGas := some (tx.maxFeePerGas.getD 0)
      chainId := some (tx.chainId.getD kDefaultChainId) }
  | .kOpDeposit => emptyTransaction .kOpDeposit

theorem typed_exact (writes : Writes write (some payload)) (fits : bytes.length < sizeLimit) :
    (do let rlpBytes ← finalizeEncoding write; return type :: rlpBytes : Except EncodingError (List UInt8)) = .ok bytes ↔
      type :: payload = bytes := by
  rw [bind_ok]
  constructor
  · rintro ⟨inner,taken,same⟩
    cases same
    rw [finalizeEncoding_exact writes (by rw [List.length_cons] at fits; omega)] at taken
    cases taken
    rfl
  · intro same
    subst same
    exact ⟨payload,(finalizeEncoding_exact writes (by rw [List.length_cons] at fits; omega)).mpr rfl,rfl⟩

theorem encodeTransaction_exact (tx : Transaction) (fits : bytes.length < sizeLimit) :
    encodeTransaction tx = .ok bytes ↔ transactionWire tx = some bytes := by
  have signature := (addWord_writes tx.v).join <| (addWord_writes tx.r).join (addWord_writes tx.s)
  have call := (addUint64_writes tx.gasLimit).join <| (addBytes_writes (toBytes tx.toAddress)).join <|
    (addWord_writes tx.value).join <| (addBytes_writes tx.data.items).join <| (accessList_writes tx.accessList).join signature
  unfold encodeTransaction transactionWire
  cases kind : tx.type with
  | kLegacy =>
    have fields := (addUint64_writes tx.nonce).join <| (addWord_writes (tx.gasPrice.getD 0)).join <|
      (addUint64_writes tx.gasLimit).join <| (addBytes_writes (toBytes tx.toAddress)).join <|
      (addWord_writes tx.value).join <| (addBytes_writes tx.data.items).join signature
    rw [finalizeEncoding_exact fields.list fits]
    simp [legacyFieldsWire,feesWire,callWire,signatureWire,kind]
  | kAccessList =>
    have fields := (addUint64_writes (tx.chainId.getD kDefaultChainId)).join <| (addUint64_writes tx.nonce).join <|
      (addWord_writes (tx.gasPrice.getD 0)).join call
    refine (typed_exact fields.list fits).trans ?_
    simp [typedFieldsWire,feesWire,callWire,signatureWire,kind]
  | kDynamicFee =>
    have fields := (addUint64_writes (tx.chainId.getD kDefaultChainId)).join <| (addUint64_writes tx.nonce).join <|
      (addWord_writes (tx.maxPriorityFeePerGas.getD 0)).join <| (addWord_writes (tx.maxFeePerGas.getD 0)).join call
    refine (typed_exact fields.list fits).trans ?_
    simp [typedFieldsWire,feesWire,callWire,signatureWire,kind]
  | kOpDeposit => simp

theorem to_read (toAddress : Option Address) : Reads readTo (encodeString (toBytes toAddress)) toAddress := by
  intro v rest spelled
  obtain ⟨offset,peeked,_⟩ := string_layout spelled
  refine bind_ok.mpr ⟨_,peeked,?_⟩
  cases toAddress with
  | none =>
    rw [if_pos (by rfl)]
    exact bind_ok.mpr ⟨_,orError_ok.mpr (readBytes_complete spelled),rfl⟩
  | some address =>
    have width : (toBytes (some address)).length ≠ 0 := by
      rw [toBytes,address.toList_length]
      decide
    rw [if_neg width]
    exact bind_ok.mpr ⟨_,orError_ok.mpr (readFixed_reads address v rest spelled),rfl⟩

theorem legacyFields_read (legacy : tx.type = .kLegacy) :
    Reads readLegacyFields (legacyFieldsWire tx) (normalTransaction tx) := by
  unfold legacyFieldsWire feesWire callWire signatureWire normalTransaction
  rw [legacy]
  refine (orError_reads _ (readUint64_reads tx.nonce)).bind ?_
  refine (orError_reads _ (readWord_reads (tx.gasPrice.getD 0))).bind ?_
  refine (orError_reads _ (readUint64_reads tx.gasLimit)).bind ?_
  refine (to_read tx.toAddress).bind ?_
  refine (orError_reads _ (readWord_reads tx.value)).bind ?_
  refine (orError_reads _ (readByteBuffer_reads tx.data)).bind ?_
  refine (orError_reads _ (readWord_reads tx.v)).bind ?_
  refine (orError_reads _ (readWord_reads tx.r)).bind ?_
  exact (orError_reads _ (readWord_reads tx.s)).map _

theorem fees_read (typed : tx.type = .kAccessList ∨ tx.type = .kDynamicFee) :
    Reads (readFees tx.type) (feesWire tx) ((normalTransaction tx).gasPrice,(normalTransaction tx).maxPriorityFeePerGas,
      (normalTransaction tx).maxFeePerGas) := by
  unfold feesWire normalTransaction
  rcases typed with kind | kind
  · rw [kind]
    exact (orError_reads _ (readWord_reads (tx.gasPrice.getD 0))).map _
  · rw [kind]
    refine (orError_reads _ (readWord_reads (tx.maxPriorityFeePerGas.getD 0))).bind ?_
    exact (orError_reads _ (readWord_reads (tx.maxFeePerGas.getD 0))).map _

theorem typedFields_read (typed : tx.type = .kAccessList ∨ tx.type = .kDynamicFee) :
    Reads (readTypedFields tx.type) (typedFieldsWire tx) (normalTransaction tx) := by
  have same : normalTransaction tx = ⟨tx.type,tx.nonce,tx.gasLimit,tx.toAddress,tx.value,tx.data,
      (normalTransaction tx).gasPrice,(normalTransaction tx).maxPriorityFeePerGas,(normalTransaction tx).maxFeePerGas,
      tx.accessList,some (tx.chainId.getD kDefaultChainId),tx.v,tx.r,tx.s⟩ := by
    unfold normalTransaction
    rcases typed with kind | kind <;> rw [kind]
  rw [same]
  refine (orError_reads _ (readUint64_reads (tx.chainId.getD kDefaultChainId))).bind ?_
  refine (orError_reads _ (readUint64_reads tx.nonce)).bind ?_
  refine (fees_read typed).bind ?_
  refine (orError_reads _ (readUint64_reads tx.gasLimit)).bind ?_
  refine (to_read tx.toAddress).bind ?_
  refine (orError_reads _ (readWord_reads tx.value)).bind ?_
  refine (orError_reads _ (readByteBuffer_reads tx.data)).bind ?_
  refine (accessList_read tx.accessList).bind ?_
  refine (orError_reads _ (readWord_reads tx.v)).bind ?_
  refine (orError_reads _ (readWord_reads tx.r)).bind ?_
  exact (orError_reads _ (readWord_reads tx.s)).map _

theorem decodeTransaction_typed
    (typed : type = .kAccessList ∨ type = .kDynamicFee) (spelled : v.bytes = type.byte :: encodeList payload)
    (reads : Reads (readTypedFields type) payload tx) : decodeTransaction v = .ok tx := by
  have stripped : (v.removePrefix kTypedTxPrefixSize).bytes = encodeList payload := by
    simp [ByteView.removePrefix,spelled]
  have decoded := readFields_wire reads stripped
  unfold decodeTransaction
  rw [spelled]
  rcases typed with rfl | rfl
  · exact decoded
  · exact decoded

theorem decodeTransaction_wire (written : transactionWire tx = some v.bytes) :
    decodeTransaction v = .ok (normalTransaction tx) := by
  unfold transactionWire at written
  cases kind : tx.type with
  | kLegacy =>
    rw [kind] at written
    have spelled := (Option.some.inj written).symm
    have fits := v.fits
    rw [spelled] at fits
    obtain ⟨first,more,lead,above⟩ := encodeList_first (encodeList_shorter fits)
    unfold decodeTransaction
    rw [spelled,lead]
    exact (if_neg (UInt8.not_lt.mpr above)).trans (readFields_wire (legacyFields_read kind) spelled)
  | kAccessList =>
    rw [kind] at written
    have read := typedFields_read (.inl kind)
    rw [kind] at read
    exact decodeTransaction_typed (.inl rfl) (Option.some.inj written).symm read
  | kDynamicFee =>
    rw [kind] at written
    have read := typedFields_read (.inr kind)
    rw [kind] at read
    exact decodeTransaction_typed (.inr rfl) (Option.some.inj written).symm read
  | kOpDeposit =>
    rw [kind] at written
    cases written

end EvmRelay.Codec
