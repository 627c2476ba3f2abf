import EvmRelay.EthFraming
import EvmRelay.ObjectLists
import EvmRelay.PooledHashes

namespace EvmRelay.Rlp
open RlpSpec Reader Codec

theorem UnsignedForm.nonempty (formed : UnsignedForm piece value) : piece ≠ [] := (unsigned_item formed).nonempty

theorem readUnsigned_advances (t : UnsignedType) : Advances (readUnsigned t : Decoder (BitVec (8 * t.sizeof))) :=
  (readUnsigned_form t).advances fun _ _ formed => formed.nonempty

theorem consumeNextItem_advances : Advances consumeNextItem :=
  consumeNextItem_exact.advances fun _ _ formed => formed.2.nonempty

theorem readItemWith_advances (decode : ByteView → Except DecodingError α) : Advances (readItemWith decode) :=
  (readItemWith_exact decode).advances fun _ _ formed => formed.nonempty

theorem listEnd_exact (headed : readListHeaderBytes v = .ok (payloadSize,start)) :
    payloadSize ≤ start.length ∧ sizeSub start.length payloadSize = start.length - payloadSize := by
  obtain ⟨_,room⟩ := (readListHeaderBytes_exact ..).mp headed
  exact ⟨room,sizeSub_small room start.length_lt⟩

theorem readItems_plain (read : Decoder α) (target : Nat) (v : ByteView) :
    (readItems read target v).map (fun found => (found.1.items,found.2)) =
      readAbove .kListLengthMismatch read target v.length v := by
  unfold readItems
  split
  · rename_i error failed
    rw [failed]
    rfl
  · rename_i items rest ran
    exact ran.symm

end EvmRelay.Rlp

namespace EvmRelay.Eth
open Rlp RlpSpec Reader Codec

theorem readHash_advances : Advances (orError (readFixed 32) .kUnexpectedLength) :=
  hash_exact.advances fun _ _ same => same ▸ encodeString_nonempty _

theorem one_item_advances {read : Decoder α} (takes : TakesItems 1 read) : Advances read := by
  intro v value rest ran
  obtain ⟨items,single,all,spelled,_⟩ := takes v value rest ran
  obtain ⟨item,rfl⟩ := List.length_eq_one_iff.mp single
  have positive := (all item List.mem_cons_self).pos
  show rest.bytes.length < v.bytes.length
  rw [spelled,List.length_append,List.flatten_singleton]
  omega

theorem readNewBlockHashEntry_advances : Advances readNewBlockHashEntry := by
  intro v entry rest ran
  obtain ⟨size,number,spelled,_⟩ := readNewBlockHashEntry_ok ran
  have positive : 0 < (listHeader size).length := header_pos _ _ _
  show rest.bytes.length < v.bytes.length
  rw [spelled,List.length_append,List.length_append,List.length_append]
  omega

theorem decodeBlockBody_advances : Advances decodeBlockBody := by
  refine body_exact.advances fun _ _ formed => ?_
  obtain ⟨payload,rfl⟩ := formed.list
  exact encodeList_nonempty payload

-- One list-driven loop of the decoders: what a round reads, the decoder it is
-- part of, and what stands around it there. `around` hands the loop the position
-- to stop at.
structure ListLoop where
  Element : Type
  read : Decoder Element
  Result : Type
  decoder : ByteView → Except DecodingError Result
  around : (Nat → Decoder (StdVector Element)) → ByteView → Except DecodingError Result
  runs : decoder = around (readItems read)

def ListLoop.plain (decoder : Decoder (StdVector α)) (read : Decoder α) (runs : decoder = readListOf read) : ListLoop :=
  ⟨α,read,_,decoder,readList,runs⟩

def ListLoop.tail (decoder fields : Decoder α) (runs : decoder = readOpenList fields) : ListLoop where
  Element := ByteView
  read := consumeNextItem
  Result := α × ByteView
  decoder := decoder
  around := fun ignored => readList fun targetRemaining => do
    let value ← fields
    let _ ← ignored targetRemaining
    return value
  runs := runs

def topicsLoop : ListLoop where
  Element := Hash256
  read := orError (readFixed 32) .kUnexpectedLength
  Result := LogEntry × ByteView
  decoder := decodeLogEntryFromDecoder
  around := fun items => readList fun _ => do
    let address ← orError (readFixed 20) .kUnexpectedLength
    let topics ← readList items
    let data ← orError readByteBuffer .kUnexpectedString
    return ⟨address,topics,data⟩
  runs := rfl

def storageKeysLoop : ListLoop where
  Element := Hash256
  read := orError (readFixed 32) .kUnexpectedLength
  Result := AccessListEntry × ByteView
  decoder := decodeAccessListEntryFromDecoder
  around := fun items => readList fun _ => do
    let address ← orError (readFixed 20) .kUnexpectedLength
    let storageKeys ← readList items
    return ⟨address,storageKeys⟩
  runs := rfl

def logsLoop : ListLoop where
  Element := LogEntry
  read := decodeLogEntryFromDecoder
  Result := Receipt
  decoder := decodeReceipt
  around := fun items rlpData => Codec.readFields (do
    let (stateRoot,status) ← decodeStatusOrStateRoot
    let cumulativeGasUsed ← orError readWord .kUnexpectedString
    let bloom ← orError (readFixed 256) .kUnexpectedLength
    let logs ← readList items
    return ⟨stateRoot,status,cumulativeGasUsed,bloom,logs⟩) (stripTypeByte rlpData)
  runs := rfl

-- while (!decoder.IsFinished()): the loop stops at the end of the view.
theorem skipItems_eq : skipItems = fun v => (readItems skipOne 0 v).map fun found => (found.1.items,found.2) :=
  funext fun v => (readItems_plain skipOne 0 v).symm

def headerTailLoop : ListLoop where
  Element := Unit
  read := skipOne
  Result := BlockHeader
  decoder := decodeBlockHeader
  around := fun items => Codec.readFields do
    let header ← readHeaderFields
    let baseFee ← readBaseFee
    let _ ← (fun v => (items 0 v).map fun found => (found.1.items,found.2) : Decoder (List Unit))
    return { header with baseFeePerGas := baseFee }
  runs := by
    rw [← skipItems_eq]
    rfl

def announcedHashesLoop : ListLoop where
  Element := NewBlockHashEntry
  read := readNewBlockHashEntry
  Result := NewBlockHashesMessage
  decoder := decodeNewBlockHashes
  around := fun items rlpData => do
    let (_,view) ← readListHeaderBytes rlpData
    let (entries,_) ← items 0 view
    return ⟨entries⟩
  runs := rfl

def blockReceiptsLoop : ListLoop where
  Element := Receipt
  read := readItemWith decodeReceipt
  Result := StdVector (StdVector Receipt) × ByteView
  decoder := decodeReceiptsPayload
  around := fun items => readListOf (readList items)
  runs := rfl

def pooledItemsLoop : ListLoop where
  Element := ByteView
  read := consumeNextItem
  Result := NewPooledTransactionHashesMessage
  decoder := decodeNewPooledTxHashes
  around := fun items rlpData => do
    let (items,_) ← readList items rlpData
    decodePooledItems items
  runs := rfl

def upgradeTailLoop : ListLoop where
  Element := ByteView
  read := consumeNextItem
  Result := UpgradeStatusMessage
  decoder := decodeUpgradeStatus
  around := fun ignored rlpData => do
    let (disablePeerTxBroadcast,_) ← readList (fun targetRemaining => do
      let value ← orError readBool .kUnexpectedString
      let _ ← ignored targetRemaining
      return value) rlpData
    return ⟨disablePeerTxBroadcast⟩
  runs := rfl

def listLoops : List ListLoop := [
  .plain decodeHashList (orError (readFixed 32) .kUnexpectedLength) rfl,
  .plain decodeUint32List (orError readUint32 .kUnexpectedString) rfl,
  .plain decodeBlockHeadersPayload (readItemWith decodeBlockHeader) rfl,
  .plain decodeReceiptsPayload (readListOf (readItemWith decodeReceipt)) rfl,
  blockReceiptsLoop,
  .plain decodePooledTransactionsPayload (readItemWith fun item => .ok item.toVector) rfl,
  .plain decodeTransactionList readTransaction rfl,
  .tail decodeBlockBody (do
    let transactions ← decodeTransactionList
    let ommers ← decodeBlockHeadersPayload
    return ⟨transactions,ommers⟩) rfl,
  announcedHashesLoop,
  pooledItemsLoop,
  upgradeTailLoop,
  .plain decodeBodies decodeBlockBody rfl,
  .tail readBlock (do
    let header ← readItemWith decodeBlockHeader
    let transactions ← decodeTransactionList
    let ommers ← decodeBlockHeadersPayload
    return (header,transactions,ommers)) rfl,
  .tail readNewBlock (do
    let (header,transactions,ommers) ← readBlock
    let totalDifficulty ← orError readWord .kUnexpectedString
    return ⟨header,transactions,ommers,totalDifficulty⟩) rfl,
  topicsLoop,
  storageKeysLoop,
  .plain decodeAccessList decodeAccessListEntryFromDecoder rfl,
  logsLoop,
  headerTailLoop]

theorem listLoops_advance : ∀ loop ∈ listLoops,Advances loop.read := by
  intro loop member
  simp only [listLoops,List.mem_cons,List.not_mem_nil,or_false] at member
  rcases member with rfl | rfl | rfl | rfl | rfl | rfl | rfl | rfl | rfl | rfl | rfl | rfl | rfl | rfl | rfl | rfl | rfl | rfl | rfl
  · exact readHash_advances
  · exact (orError_exact _ (readUnsigned_form (.integral .uint32))).advances fun _ _ formed => formed.nonempty
  · exact readItemWith_advances decodeBlockHeader
  · exact (readListOf_exact (readItemWith_exact _) fun _ _ formed => formed.nonempty).advances fun _ _ formed => formed.nonempty
  · exact readItemWith_advances decodeReceipt
  · exact readItemWith_advances _
  · exact readTransaction_exact.advances fun _ _ formed => formed.item.nonempty
  · exact consumeNextItem_advances
  · exact readNewBlockHashEntry_advances
  · exact consumeNextItem_advances
  · exact consumeNextItem_advances
  · exact decodeBlockBody_advances
  · exact consumeNextItem_advances
  · exact consumeNextItem_advances
  · exact readHash_advances
  · exact readHash_advances
  · exact one_item_advances accessListEntry_items
  · exact one_item_advances logEntry_items
  · exact skipOne_exact.advances fun _ _ item => item.nonempty

-- Every round of a loop takes something off the view or fails, and so each loop
-- comes to an end after no more rounds than there are bytes.
theorem list_loops_end : (∀ v payloadSize start,readListHeaderBytes v = .ok (payloadSize,start) →
      payloadSize ≤ start.length ∧ sizeSub start.length payloadSize = start.length - payloadSize) ∧
    ∀ loop ∈ listLoops,loop.decoder = loop.around (readItems loop.read) ∧
      (∀ v value rest,loop.read v = .ok (value,rest) → rest.length < v.length) ∧ ∀ target v,∃ rounds ≤ v.length,
        Rounds loop.read target v rounds ((readItems loop.read target v).map fun found => (found.1.items,found.2)) := by
  refine ⟨fun v payloadSize start headed => listEnd_exact headed,?_⟩
  intro loop member
  have advances := listLoops_advance loop member
  refine ⟨loop.runs,advances,?_⟩
  intro target v
  rw [readItems_plain]
  obtain ⟨rounds,few,ended⟩ := readAbove_rounds advances (Nat.le_refl v.length)
  exact ⟨rounds,Nat.le_trans few (Nat.sub_le _ _),ended⟩

end EvmRelay.Eth
