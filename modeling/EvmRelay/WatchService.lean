import EvmRelay.AbiDecoder
import EvmRelay.EventWatcher
import EvmRelay.ReceiptLog

namespace EvmRelay

-- The counters of WatchStatsSnapshot that receipt processing moves.
structure WatchStats where
  receiptsProcessed : BitVec 64
  logsSeen : BitVec 64
  matchedLogs : BitVec 64
  discardedLogs : BitVec 64

structure EthWatchService.Subscription (κ : Type) where
  id : WatchId
  eventSignature : List UInt8
  params : Abi.AbiParams
  callback : κ

-- The closure that watch_event hands to the watcher captures the id only and
-- looks the subscription up again when it is called.
structure EthWatchService (κ : Type) where
  watcher : EventWatcher WatchId
  subscriptions : List (EthWatchService.Subscription κ)
  nextId : WatchId
  stats : WatchStats

namespace EthWatchService

structure Call (κ : Type) where
  callback : κ
  event : MatchedEvent
  values : List Abi.AbiValue
  deriving DecidableEq

inductive Fault where
  | outOfBounds
  deriving DecidableEq

def new : EthWatchService κ := ⟨.new,[],1#32,⟨0#64,0#64,0#64,0#64⟩⟩

def find (service : EthWatchService κ) (id : WatchId) : Option (Subscription κ) :=
  service.subscriptions.find? (fun sub => decide (sub.id = id))

section keccak
variable (keccak256 : List UInt8 → Hash256)

def watchEvent (service : EthWatchService κ) (contractAddress : Address) (eventSignature : List UInt8)
    (params : Abi.AbiParams) (callback : κ) (fromBlock toBlock : Option (BitVec 64)) :
    WatchId × EthWatchService κ :=
  let id := service.nextId
  let filter : EventFilter := {
    addresses := if contractAddress ≠ FixedBytes.zeros 20 then [contractAddress] else []
    topics := [some (Abi.eventSignatureHash keccak256 eventSignature)]
    fromBlock := fromBlock
    toBlock := toBlock }
  (id,{ service with
    watcher := (service.watcher.watch filter id).2
    subscriptions := service.subscriptions ++ [⟨id,eventSignature,params,callback⟩]
    nextId := service.nextId + 1#32 })

def unwatch (service : EthWatchService κ) (id : WatchId) : EthWatchService κ :=
  { service with
    subscriptions := service.subscriptions.filter (fun sub => decide (sub.id ≠ id))
    watcher := service.watcher.unwatch id }

def onMatched (service : EthWatchService κ) (id : WatchId) (event : MatchedEvent) : Emitting Fault (Call κ) Unit :=
  match service.find id with
  | none => pure ()
  | some own =>
    match Abi.decodeLog keccak256 event.log own.eventSignature own.params with
    | .error (.returned _) => pure ()
    | .error .outOfBounds => .stop .outOfBounds
    | .ok values => .emit ⟨own.callback,event,values⟩

structure Progress where
  i : Nat
  nextLogIndex : BitVec 32
  stats : WatchStats

def startIndex (logIndices : StdVector (StdVector (BitVec 32))) (i : Nat) (nextLogIndex : BitVec 32) : BitVec 32 :=
  match logIndices.items[i]? with
  | none => nextLogIndex
  | some indices => indices.items.head?.getD nextLogIndex

def processOne (service : EthWatchService κ) (batch : ReceiptBatch) (progress : Progress) (item : Receipt × Hash256) :
    Emitting Fault (Nat × Nat × Call κ) Progress := do
  let logCount := item.1.logs.items.length
  let firstLogIndex := startIndex batch.logIndices progress.i progress.nextLogIndex
  let matched ← service.watcher.processReceipt (service.onMatched keccak256) item.1 item.2 batch.blockNumber
    batch.blockHash firstLogIndex
  return {
    i := progress.i + 1
    nextLogIndex := progress.nextLogIndex + BitVec.ofNat 32 logCount
    stats := { progress.stats with
      logsSeen := progress.stats.logsSeen + BitVec.ofNat 64 logCount
      matchedLogs := progress.stats.matchedLogs + BitVec.ofNat 64 matched
      discardedLogs := progress.stats.discardedLogs + BitVec.ofNat 64 (sizeSub logCount matched) } }

-- Receipts beyond the last transaction hash are not looked at.
def processReceipts (service : EthWatchService κ) (batch : ReceiptBatch) :
    Emitting Fault (Nat × Nat × Nat × Call κ) (EthWatchService κ) := do
  let items := batch.receipts.items.zip batch.txHashes.items
  let stats := { service.stats with
    receiptsProcessed := service.stats.receiptsProcessed + BitVec.ofNat 64 items.length }
  let progress ← Emitting.loop (service.processOne keccak256 batch) 0 ⟨0,0#32,stats⟩ items
  return { service with stats := progress.stats }

def StaysInside (service : EthWatchService κ) (id : WatchId) (log : LogEntry) : Prop :=
  ∀ own,service.find id = some own →
    Abi.decodeLog keccak256 log own.eventSignature own.params ≠ .error .outOfBounds

theorem onMatched_completes (service : EthWatchService κ) (id : WatchId) (event : MatchedEvent) :
    (service.onMatched keccak256 id event).Completes ↔ service.StaysInside keccak256 id event.log := by
  unfold onMatched StaysInside
  cases service.find id with
  | none => simp
  | some own =>
    cases decoded : Abi.decodeLog keccak256 event.log own.eventSignature own.params with
    | ok values => simp [decoded]
    | error failure => cases failure <;> simp [decoded]

theorem mem_onMatched (service : EthWatchService κ) (id : WatchId) (event : MatchedEvent) (call : Call κ) :
    call ∈ (service.onMatched keccak256 id event).events ↔ ∃ own values,service.find id = some own ∧
        Abi.decodeLog keccak256 event.log own.eventSignature own.params = .ok values ∧
        call = ⟨own.callback,event,values⟩ := by
  unfold onMatched
  cases service.find id with
  | none => simp
  | some own =>
    cases decoded : Abi.decodeLog keccak256 event.log own.eventSignature own.params with
    | ok values => simp [decoded]
    | error failure => cases failure <;> simp [decoded]

def logsBefore (batch : ReceiptBatch) (i : Nat) : Nat :=
  ((batch.receipts.items.take i).map (fun receipt => receipt.logs.items.length)).sum

theorem logsBefore_succ (found : batch.receipts.items[i]? = some receipt) :
    logsBefore batch (i + 1) = logsBefore batch i + receipt.logs.items.length := by
  simp [logsBefore,List.take_add_one,found]

def firstIndex (batch : ReceiptBatch) (i : Nat) : BitVec 32 :=
  startIndex batch.logIndices i (BitVec.ofNat 32 (logsBefore batch i))

def QuietReceipt (service : EthWatchService κ) (batch : ReceiptBatch) (receipt : Receipt) : Prop :=
  ∀ log ∈ receipt.logs.items,service.watcher.Quiet (service.StaysInside keccak256) batch.blockNumber log

-- Subscription s is called back for log j of receipt i: the log matches it and
-- decodes for it, and nothing before left the data of a log.
structure Delivered (service : EthWatchService κ) (batch : ReceiptBatch) (i j s : Nat) (receipt : Receipt)
    (txHash : Hash256) (log : LogEntry) (own : Subscription κ) (values : List Abi.AbiValue) : Prop where
  receiptFound : batch.receipts.items[i]? = some receipt
  txFound : batch.txHashes.items[i]? = some txHash
  receiptsBefore : ∀ earlier ∈ batch.receipts.items.take i,service.QuietReceipt keccak256 batch earlier
  logFound : receipt.logs.items[j]? = some log
  logsBefore : ∀ earlier ∈ receipt.logs.items.take j,
    service.watcher.Quiet (service.StaysInside keccak256) batch.blockNumber earlier
  subFound : ∃ sub,service.watcher.subscriptions[s]? = some sub ∧
    sub.filter.matchesLog log batch.blockNumber ∧ service.find sub.callback = some own
  subsBefore : ∀ earlier ∈ service.watcher.subscriptions.take s,
    EventWatcher.Passes (service.StaysInside keccak256) batch.blockNumber log earlier
  decoded : Abi.decodeLog keccak256 log own.eventSignature own.params = .ok values

theorem processOne_completes (service : EthWatchService κ) (batch : ReceiptBatch) (progress : Progress)
    (item : Receipt × Hash256) :
    (service.processOne keccak256 batch progress item).Completes ↔ service.QuietReceipt keccak256 batch item.1 :=
  (Emitting.bind_pure_completes _).trans
    (EventWatcher.processLogs_completes (service.onMatched_completes keccak256) service.watcher _ _ _)

theorem processOne_progress (service : EthWatchService κ) (batch : ReceiptBatch) (before after : Progress)
    (item : Receipt × Hash256) (ran : (service.processOne keccak256 batch before item).outcome = .ok after) :
    after.i = before.i + 1 ∧ after.nextLogIndex = before.nextLogIndex + BitVec.ofNat 32 item.1.logs.items.length := by
  obtain ⟨_,_,ended⟩ := Emitting.outcome_bind.mp ran
  cases ended
  exact ⟨rfl,rfl⟩

theorem paired_before (batch : ReceiptBatch) (holds : Receipt → Prop) (txFound : batch.txHashes.items[i]? = some txHash) :
    (∀ earlier ∈ (batch.receipts.items.zip batch.txHashes.items).take i,holds earlier.1) ↔
      ∀ earlier ∈ batch.receipts.items.take i,holds earlier := by
  have hashes := (List.getElem?_eq_some_iff.mp txFound).1
  have firsts : ((batch.receipts.items.zip batch.txHashes.items).take i).map Prod.fst = batch.receipts.items.take i := by
    rw [List.zip_eq_zipWith,List.take_zipWith,← List.zip_eq_zipWith,List.map_fst_zip]
    simp only [List.length_take]
    omega
  rw [← firsts,List.forall_mem_map]

theorem mem_processReceipts (service : EthWatchService κ) (batch : ReceiptBatch) (j s : Nat) (call : Call κ) :
    (i,j,s,call) ∈ (service.processReceipts keccak256 batch).events ↔ ∃ receipt txHash log own values,
        Delivered keccak256 service batch i j s receipt txHash log own values ∧ call = ⟨own.callback,
          ⟨log,batch.blockNumber,batch.blockHash,txHash,firstIndex batch i + BitVec.ofNat 32 j⟩,values⟩ := by
  unfold processReceipts
  rw [Emitting.mem_bind_pure,Emitting.mem_loop_iff (fun item => service.QuietReceipt keccak256 batch item.1)
    (fun k (progress : Progress) => progress.i = k ∧ progress.nextLogIndex = BitVec.ofNat 32 (logsBefore batch k))
    (fun k item event => event ∈ (service.watcher.processReceipt (service.onMatched keccak256) item.1 item.2
      batch.blockNumber batch.blockHash (firstIndex batch k)).events)
    (service.processOne_completes keccak256 batch)]
  · constructor
    · rintro ⟨⟨receipt,txHash⟩,found,before,ran⟩
      obtain ⟨receiptFound,txFound⟩ := List.getElem?_zip_eq_some.mp found
      obtain ⟨log,logFound,logsBefore,sub,subFound,subsBefore,fits,called⟩ :=
        (EventWatcher.mem_processLogs (service.onMatched_completes keccak256) service.watcher _ _ _ _ _ _).mp ran
      obtain ⟨own,values,ownFound,decoded,made⟩ := (service.mem_onMatched keccak256 _ _ _).mp called
      exact ⟨receipt,txHash,log,own,values,⟨receiptFound,txFound,(paired_before batch _ txFound).mp before,logFound,
        logsBefore,⟨sub,subFound,fits,ownFound⟩,subsBefore,decoded⟩,made⟩
    · rintro ⟨receipt,txHash,log,own,values,delivered,made⟩
      obtain ⟨sub,subFound,fits,ownFound⟩ := delivered.subFound
      refine ⟨⟨receipt,txHash⟩,List.getElem?_zip_eq_some.mpr ⟨delivered.receiptFound,delivered.txFound⟩,
        (paired_before batch _ delivered.txFound).mpr delivered.receiptsBefore,?_⟩
      exact (EventWatcher.mem_processLogs (service.onMatched_completes keccak256) service.watcher _ _ _ _ _ _).mpr
        ⟨log,delivered.logFound,delivered.logsBefore,sub,subFound,delivered.subsBefore,fits,
          (service.mem_onMatched keccak256 _ _ _).mpr ⟨own,values,ownFound,delivered.decoded,made⟩⟩
  · exact ⟨rfl,rfl⟩
  · intro k before item after found counted ran
    obtain ⟨round,next⟩ := service.processOne_progress keccak256 batch before after item ran
    obtain ⟨receiptFound,_⟩ := List.getElem?_zip_eq_some.mp found
    refine ⟨by rw [round,counted.1],?_⟩
    rw [next,counted.2,logsBefore_succ receiptFound,BitVec.ofNat_add]
  · intro k before item event counted
    have same : firstIndex batch k = startIndex batch.logIndices before.i before.nextLogIndex := by
      rw [counted.1,counted.2]
      rfl
    rw [same]
    exact Emitting.mem_bind_pure _

-- Every callback for log j of receipt i carries the index the batch states for
-- that log, and verify_receipt_log comes back to the log from that index.
def CarriesPositions (service : EthWatchService κ) (batch : ReceiptBatch) : Prop :=
  ∀ i j s call,(i,j,s,call) ∈ (service.processReceipts keccak256 batch).events →
    ∃ indices,batch.logIndices.items[i]? = some indices ∧ indices.items[j]? = some call.event.logIndex ∧
      batch.txHashes.items[i]? = some call.event.txHash ∧
      ReceiptLog.receiptLogIndex indices call.event.logIndex = some j

end keccak

def OneIndexPerLog (batch : ReceiptBatch) : Prop :=
  ∀ (i : Nat) (receipt : Receipt),batch.receipts.items[i]? = some receipt →
    ∃ indices : StdVector (BitVec 32),
      batch.logIndices.items[i]? = some indices ∧ indices.items.length = receipt.logs.items.length

-- Counting up from the first index gives the index stated for log j, and no
-- earlier log has it.
def Counts (indices : StdVector (BitVec 32)) (j : Nat) : Prop :=
  ∃ first,indices.items.head? = some first ∧ indices.items[j]? = some (first + BitVec.ofNat 32 j) ∧
    ∀ k < j,indices.items[k]? ≠ some (first + BitVec.ofNat 32 j)

theorem firstIndex_stated {i j : Nat} (stated : OneIndexPerLog batch)
    (receiptFound : batch.receipts.items[i]? = some receipt) (logFound : receipt.logs.items[j]? = some log) :
    ∃ indices : StdVector (BitVec 32),
      batch.logIndices.items[i]? = some indices ∧ indices.items.head? = some (firstIndex batch i) := by
  obtain ⟨indices,found,size⟩ := stated i receipt receiptFound
  have inside := (List.getElem?_eq_some_iff.mp logFound).1
  refine ⟨indices,found,?_⟩
  cases items : indices.items with
  | nil => simp [items] at size; omega
  | cons first rest => simp [firstIndex,startIndex,found,items]

theorem counts_iff (first : indices.items.head? = some start) : Counts indices j ↔
      indices.items[j]? = some (start + BitVec.ofNat 32 j) ∧
        ReceiptLog.receiptLogIndex indices (start + BitVec.ofNat 32 j) = some j := by
  simp only [Counts,ReceiptLog.receiptLogIndex_exact,ReceiptLog.Names,first,Option.some.injEq]
  constructor
  · intro counts
    rcases counts with ⟨_,rfl,found,earlier⟩
    exact ⟨found,.inr found,earlier⟩
  · intro carried
    rcases carried with ⟨found,_,earlier⟩
    exact ⟨start,rfl,found,earlier⟩

-- The watcher only knows the first index, so a callback is right where counting
-- up from it is.
theorem callbacks_carry_positions_iff (keccak256 : List UInt8 → Hash256) (service : EthWatchService κ)
    (batch : ReceiptBatch) (stated : OneIndexPerLog batch) : CarriesPositions keccak256 service batch ↔
      ∀ i j s receipt txHash log own values indices,
        Delivered keccak256 service batch i j s receipt txHash log own values →
        batch.logIndices.items[i]? = some indices → Counts indices j := by
  constructor
  · intro carries i j s receipt txHash log own values indices delivered found
    have made := (mem_processReceipts ..).mpr ⟨receipt,txHash,log,own,values,delivered,rfl⟩
    obtain ⟨_,same,carried,_,selected⟩ := carries i j s _ made
    cases Option.some.inj (found.symm.trans same)
    obtain ⟨_,same,first⟩ := firstIndex_stated stated delivered.receiptFound delivered.logFound
    cases Option.some.inj (found.symm.trans same)
    exact (counts_iff first).mpr ⟨carried,selected⟩
  · intro counts i j s call made
    obtain ⟨receipt,txHash,log,own,values,delivered,rfl⟩ :=
      (mem_processReceipts ..).mp made
    obtain ⟨indices,found,first⟩ := firstIndex_stated stated delivered.receiptFound delivered.logFound
    have counted := (counts_iff first).mp (counts i j s receipt txHash log own values indices delivered found)
    exact ⟨indices,found,counted.1,delivered.txFound,counted.2⟩

def transferSignature : List UInt8 := ascii "Transfer(address,address,uint256)"

def transferTopic : Hash256 :=
  .ofNat 32 0xddf252ad1be2c89b69c2b068fc378daa952ba7f163c4a11628f55a4df523b3ef

def transferKeccak (bytes : List UInt8) : Hash256 :=
  if bytes = transferSignature then transferTopic else FixedBytes.zeros 32

def tokenContract : Address := List.Vector.replicate 20 0x44

def transferService : EthWatchService Unit :=
  (new.watchEvent transferKeccak tokenContract transferSignature
    ⟨[⟨.kAddress,true⟩,⟨.kAddress,true⟩,⟨.kUint,false⟩],by decide⟩ () none none).2

def transferLog : LogEntry where
  address := tokenContract
  topics := ⟨[transferTopic,List.Vector.replicate 32 0x01,List.Vector.replicate 32 0x02],by decide⟩
  data := ⟨List.replicate 32 0x03,by decide⟩

def transferBatch (indices : StdVector (BitVec 32)) : ReceiptBatch where
  receipts := .singleton (.withStatus true ⟨[transferLog,transferLog],by decide⟩)
  txHashes := .singleton (List.Vector.replicate 32 0x20)
  logIndices := .singleton indices
  blockNumber := 100#64
  blockHash := List.Vector.replicate 32 0x30

theorem transferBatch_stated (two : indices.items.length = 2) : OneIndexPerLog (transferBatch indices) := by
  intro i receipt found
  cases i with
  | zero =>
    cases found
    exact ⟨indices,rfl,two⟩
  | succ i => cases found

def consecutiveIndices : StdVector (BitVec 32) := ⟨[7#32,8#32],by decide⟩

theorem consecutive_transfers_carry_positions :
    CarriesPositions transferKeccak transferService (transferBatch consecutiveIndices) ∧
      (transferService.processReceipts transferKeccak (transferBatch consecutiveIndices)).events.map
        (fun made => made.2.2.2.event.logIndex) = [7#32,8#32] := by
  refine ⟨?_,by decide +kernel⟩
  apply (callbacks_carry_positions_iff transferKeccak transferService _ (transferBatch_stated rfl)).mpr
  intro i j s receipt txHash log own values indices delivered found
  have position := delivered.logFound
  cases i with
  | succ i => cases found
  | zero =>
    cases delivered.receiptFound
    cases found
    refine ⟨7#32,rfl,?_⟩
    match j with
    | 0 => exact ⟨rfl,by simp⟩
    | 1 => exact ⟨rfl,by decide⟩
    | j + 2 => cases position

def skippingIndices : StdVector (BitVec 32) := ⟨[11#32,15#32],by decide⟩

theorem skipped_index_reported : OneIndexPerLog (transferBatch skippingIndices) ∧
      ¬ CarriesPositions transferKeccak transferService (transferBatch skippingIndices) := by
  refine ⟨transferBatch_stated rfl,?_⟩
  intro carries
  have second : ((transferService.processReceipts transferKeccak (transferBatch skippingIndices)).events[1]?).map
      (fun made => (made.1,made.2.1,made.2.2.2.event.logIndex)) = some (0,1,12#32) := by decide +kernel
  obtain ⟨⟨i,j,s,call⟩,made,shown⟩ := Option.map_eq_some_iff.mp second
  simp only [Prod.mk.injEq] at shown
  obtain ⟨rfl,rfl,index⟩ := shown
  obtain ⟨_,found,carried,_⟩ := carries 0 1 s call (List.mem_of_getElem? made)
  cases found
  rw [index] at carried
  exact absurd carried (by decide)

end EthWatchService
end EvmRelay
