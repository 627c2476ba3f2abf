import EvmRelay.ClaimPayload
import EvmRelay.Objects

namespace EvmRelay.ReceiptLog
open ClaimPayload

inductive ReceiptLogVerificationError where
  | kNone | kMissingReceiptStatus | kReceiptFailed | kBlockHashMismatch | kTxHashMismatch
  | kLogIndexOutOfRange | kContractMismatch | kTopic0Mismatch | kTopicsMismatch | kDataMismatch
  deriving DecidableEq

-- Without indices of its own the receipt is read by position.
def receiptLogIndex (logIndices : StdVector (BitVec 32)) (logIndex : BitVec 32) : Option Nat :=
  if logIndices.items = [] then some logIndex.toNat
  else logIndices.items.findIdx? (fun stated => decide (stated = logIndex))

def verifyLog (log : LogEntry) (claim : BridgeEventClaim) : ReceiptLogVerificationError :=
  if log.address ≠ claim.bridgeContract then .kContractMismatch
  else if log.topics.items = [] ∨ log.topics.items.head? ≠ some claim.eventTopic0 then .kTopic0Mismatch
  else if claim.topics.items ≠ [] ∧ log.topics ≠ claim.topics then .kTopicsMismatch
  else if log.data ≠ claim.data then .kDataMismatch
  else .kNone

def verifyReceiptLog (receipt : ReceiptResult) (claim : BridgeEventClaim) : ReceiptLogVerificationError :=
  match receipt.receipt.status with
  | none => .kMissingReceiptStatus
  | some false => .kReceiptFailed
  | some true =>
    if receipt.blockHash ≠ claim.blockHash then .kBlockHashMismatch
    else if receipt.txHash ≠ claim.txHash then .kTxHashMismatch
    else
      match receiptLogIndex receipt.logIndices claim.logIndex with
      | none => .kLogIndexOutOfRange
      | some index =>
        match receipt.receipt.logs.items[index]? with
        | none => .kLogIndexOutOfRange
        | some log => verifyLog log claim

def Names (logIndices : StdVector (BitVec 32)) (logIndex : BitVec 32) (i : Nat) : Prop :=
  (logIndices.items = [] ∧ i = logIndex.toNat) ∨ logIndices.items[i]? = some logIndex

theorem receiptLogIndex_exact : receiptLogIndex logIndices logIndex = some i ↔
      Names logIndices logIndex i ∧ ∀ j < i,logIndices.items[j]? ≠ some logIndex := by
  unfold receiptLogIndex Names
  by_cases plain : logIndices.items = []
  · simp [plain,eq_comm]
  rw [if_neg plain,List.findIdx?_eq_some_iff_getElem]
  simp only [plain,false_and,false_or,decide_eq_true_eq]
  constructor
  · intro searched
    rcases searched with ⟨inside,found,first⟩
    refine ⟨by rw [List.getElem?_eq_getElem inside,found],?_⟩
    intro j before same
    obtain ⟨_,equal⟩ := List.getElem?_eq_some_iff.mp same
    exact first j before equal
  · intro named
    rcases named with ⟨found,first⟩
    obtain ⟨inside,equal⟩ := List.getElem?_eq_some_iff.mp found
    refine ⟨inside,equal,?_⟩
    intro j before same
    exact first j before (List.getElem?_eq_some_iff.mpr ⟨_,same⟩)

-- The log fields a claim is checked for. Its topics are compared only when it
-- states some.
structure Describes (claim : BridgeEventClaim) (log : LogEntry) : Prop where
  contract : log.address = claim.bridgeContract
  topic0 : log.topics.items.head? = some claim.eventTopic0
  topics : claim.topics.items ≠ [] → log.topics = claim.topics
  data : log.data = claim.data

theorem verifyLog_exact : verifyLog log claim = .kNone ↔ Describes claim log := by
  constructor
  · intro accepted
    unfold verifyLog at accepted
    split at accepted
    · cases accepted
    split at accepted
    · cases accepted
    split at accepted
    · cases accepted
    split at accepted
    · cases accepted
    rename_i contract topic0 topics data
    simp only [not_not,not_or,not_and] at contract topic0 topics data
    exact ⟨contract,topic0.2,topics,data⟩
  · intro described
    rcases described with ⟨contract,topic0,topics,data⟩
    have present : log.topics.items ≠ [] := by
      intro none
      simp [none] at topic0
    simpa [verifyLog,contract,topic0,data,present] using topics

structure Evidence (receipt : ReceiptResult) (claim : BridgeEventClaim) (i : Nat) (log : LogEntry) : Prop where
  succeeded : receipt.receipt.status = some true
  blockHash : receipt.blockHash = claim.blockHash
  txHash : receipt.txHash = claim.txHash
  selected : receiptLogIndex receipt.logIndices claim.logIndex = some i
  found : receipt.receipt.logs.items[i]? = some log
  described : Describes claim log

theorem verifyReceiptLog_exact : verifyReceiptLog receipt claim = .kNone ↔ ∃ i log, Evidence receipt claim i log := by
  constructor
  · intro accepted
    unfold verifyReceiptLog at accepted
    split at accepted
    · cases accepted
    · cases accepted
    rename_i succeeded
    split at accepted
    · cases accepted
    split at accepted
    · cases accepted
    rename_i blockHash txHash
    split at accepted
    · cases accepted
    rename_i i selected
    split at accepted
    · cases accepted
    rename_i log found
    exact ⟨i,log,succeeded,not_not.mp blockHash,not_not.mp txHash,selected,found,verifyLog_exact.mp accepted⟩
  · intro evidence
    rcases evidence with ⟨i,log,succeeded,blockHash,txHash,selected,found,described⟩
    simp [verifyReceiptLog,succeeded,blockHash,txHash,selected,found,verifyLog_exact.mpr described]

def selectedLog (receipt : ReceiptResult) (claim : BridgeEventClaim) : Option LogEntry :=
  (receiptLogIndex receipt.logIndices claim.logIndex).bind (fun i => receipt.receipt.logs.items[i]?)

theorem Evidence.selectedLog (evidence : Evidence receipt claim i log) : selectedLog receipt claim = some log := by
  simp [ReceiptLog.selectedLog,evidence.selected,evidence.found]

theorem Describes.agree (left : Describes claim log) (right : Describes other log) :
    other.bridgeContract = claim.bridgeContract ∧ other.eventTopic0 = claim.eventTopic0 ∧ other.data = claim.data ∧
      (claim.topics.items ≠ [] → other.topics.items ≠ [] → other.topics = claim.topics) := by
  refine ⟨right.contract.symm.trans left.contract,?_,right.data.symm.trans left.data,?_⟩
  · exact Option.some.inj (right.topic0.symm.trans left.topic0)
  · intro stated otherStated
    exact (right.topics otherStated).symm.trans (left.topics stated)

-- An accepted claim is about a log of a successful receipt under the claim's own
-- index, and what it states about the log is what the log says.
theorem verified_claim_sound (receipt : ReceiptResult) (claim : BridgeEventClaim)
    (accepted : verifyReceiptLog receipt claim = .kNone) :
    receipt.receipt.status = some true ∧ receipt.blockHash = claim.blockHash ∧ receipt.txHash = claim.txHash ∧ ∃ i log,
        receipt.receipt.logs.items[i]? = some log ∧ Names receipt.logIndices claim.logIndex i ∧
        log.address = claim.bridgeContract ∧ log.topics.items.head? = some claim.eventTopic0 ∧
        (claim.topics.items ≠ [] → log.topics = claim.topics) ∧ log.data = claim.data ∧
        ∀ receipt' claim',verifyReceiptLog receipt' claim' = .kNone → selectedLog receipt' claim' = some log →
          claim'.eventTopic0 = claim.eventTopic0 ∧
            (claim.topics.items ≠ [] → claim'.topics.items ≠ [] → claim'.topics = claim.topics) := by
  obtain ⟨i,log,evidence⟩ := verifyReceiptLog_exact.mp accepted
  have named := (receiptLogIndex_exact.mp evidence.selected).1
  obtain ⟨contract,topic0,topics,data⟩ := evidence.described
  refine ⟨evidence.succeeded,evidence.blockHash,evidence.txHash,i,log,evidence.found,named,contract,topic0,topics,
    data,?_⟩
  intro receipt' claim' accepted' same
  obtain ⟨i',log',evidence'⟩ := verifyReceiptLog_exact.mp accepted'
  cases Option.some.inj (same.symm.trans evidence'.selectedLog)
  obtain ⟨_,topic0,_,topics⟩ := evidence.described.agree evidence'.described
  exact ⟨topic0,topics⟩

def sampleWord (byte : UInt8) : Hash256 := List.Vector.replicate 32 byte

def sampleLog (byte : UInt8) : LogEntry where
  address := List.Vector.replicate 20 0x44
  topics := ⟨[sampleWord 0x40,sampleWord byte],show 2 < sizeLimit by decide⟩
  data := .singleton byte

def sampleReceipt : ReceiptResult where
  receipt := .withStatus true ⟨[sampleLog 0x50,sampleLog 0x51],by decide⟩
  txHash := sampleWord 0x20
  blockNumber := 100#64
  blockHash := sampleWord 0x30
  logIndices := ⟨[5#32,9#32],by decide⟩

def sampleClaim (topics : StdVector Hash256) : BridgeEventClaim where
  srcChainId := 1#64
  destChainId := 2#64
  blockNumber := 100#64
  blockHash := sampleWord 0x30
  txHash := sampleWord 0x20
  logIndex := 9#32
  bridgeContract := List.Vector.replicate 20 0x44
  eventTopic0 := sampleWord 0x40
  topics := topics
  data := (sampleLog 0x51).data
  sender := List.Vector.replicate 20 0x45
  tokenIdOrNonce := 7#256
  amount := 1000#256
  recipient := List.Vector.replicate 20 0x46
  observedAt := 0#64
  finalityDepth := 12#64

theorem second_log_claim_sound : verifyReceiptLog sampleReceipt (sampleClaim (sampleLog 0x51).topics) = .kNone ∧
      ∃ i log,sampleReceipt.receipt.logs.items[i]? = some log ∧
        Names sampleReceipt.logIndices 9#32 i ∧ log.topics = (sampleLog 0x51).topics := by
  have accepted : verifyReceiptLog sampleReceipt (sampleClaim (sampleLog 0x51).topics) = .kNone := by decide +kernel
  obtain ⟨_,_,_,i,log,found,named,_,_,topics,_⟩ := verified_claim_sound _ _ accepted
  exact ⟨accepted,i,log,found,named,topics (by decide)⟩

-- Without topics the claim is accepted too, although no log of the receipt has
-- its topics, and so two claims with different topics pass for one log.
theorem claim_without_topics_accepted : verifyReceiptLog sampleReceipt (sampleClaim .empty) = .kNone ∧
      (∀ log ∈ sampleReceipt.receipt.logs.items,log.topics ≠ (sampleClaim .empty).topics) ∧
      verifyReceiptLog sampleReceipt (sampleClaim (sampleLog 0x51).topics) = .kNone ∧
      selectedLog sampleReceipt (sampleClaim .empty) = selectedLog sampleReceipt (sampleClaim (sampleLog 0x51).topics) ∧
      (sampleClaim .empty).topics ≠ (sampleClaim (sampleLog 0x51).topics).topics := by
  decide +kernel

end EvmRelay.ReceiptLog
