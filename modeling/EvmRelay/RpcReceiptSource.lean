import EvmRelay.JsonRpc
import EvmRelay.Session

namespace EvmRelay

inductive FinalityHeadKind where
  | unavailable
  | finalized
  | safe
  | confirmedLatest
  deriving DecidableEq

structure FinalityPolicy where
  preferFinalized : Bool
  preferSafe : Bool
  confirmationDepth : BitVec 64

structure ChainHeadSnapshot where
  finalizedNumber : Option (BitVec 64)
  safeNumber : Option (BitVec 64)
  latestNumber : Option (BitVec 64)

structure FinalityDecision where
  kind : FinalityHeadKind
  blockNumber : BitVec 64
  confirmationDepth : BitVec 64
  deriving DecidableEq

def confirmedHead (latest : Option (BitVec 64)) (confirmationDepth : BitVec 64) : Option (BitVec 64) := do
  let latest ← latest
  if confirmationDepth = 0 ∨ latest < confirmationDepth then none else some (latest - confirmationDepth)

def chooseFinalityHead (policy : FinalityPolicy) (heads : ChainHeadSnapshot) : FinalityDecision :=
  match policy.preferFinalized,heads.finalizedNumber with
  | true,some number => ⟨.finalized,number,0⟩
  | _,_ =>
    match policy.preferSafe,heads.safeNumber with
    | true,some number => ⟨.safe,number,0⟩
    | _,_ =>
      match confirmedHead heads.latestNumber policy.confirmationDepth with
      | none => ⟨.unavailable,0,0⟩
      | some confirmed => ⟨.confirmedLatest,confirmed,policy.confirmationDepth⟩

namespace Rpc

structure RegisteredFilter where
  id : WatchId
  filter : EventFilter

-- The constructor raises a zero range to one, and nothing writes the range
-- after it. Of the handler only whether one is installed matters to the source.
structure RpcReceiptSource where
  finalityPolicy : FinalityPolicy
  lastProcessedBlock : BitVec 64
  maxLogRange : BitVec 64
  nextRpcId : BitVec 64
  nextWatchId : WatchId
  filters : List RegisteredFilter
  handler : Bool
  rangePositive : 0 < maxLogRange.toNat

def stdMax (left right : BitVec 64) : BitVec 64 := if left < right then right else left
def stdMin (left right : BitVec 64) : BitVec 64 := if right < left then right else left

namespace RpcReceiptSource

def new (finalityPolicy : FinalityPolicy) (lastProcessedBlock maxLogRange : BitVec 64) : RpcReceiptSource where
  finalityPolicy := finalityPolicy
  lastProcessedBlock := lastProcessedBlock
  maxLogRange := stdMax 1#64 maxLogRange
  nextRpcId := 1#64
  nextWatchId := 1#32
  filters := []
  handler := false
  rangePositive := by
    unfold stdMax
    split
    · rename_i larger
      exact Nat.lt_of_le_of_lt (Nat.zero_le _) larger
    · decide

def addFilter (source : RpcReceiptSource) (filter : EventFilter) : WatchId × RpcReceiptSource :=
  (source.nextWatchId,{ source with
    nextWatchId := source.nextWatchId + 1#32
    filters := source.filters ++ [⟨source.nextWatchId,filter⟩] })

def removeFilter (source : RpcReceiptSource) (id : WatchId) : RpcReceiptSource :=
  { source with filters := source.filters.filter fun entry => decide (entry.id ≠ id) }

def setReceiptBatchHandler (source : RpcReceiptSource) (installed : Bool) : RpcReceiptSource :=
  { source with handler := installed }

def takeRequestId (source : RpcReceiptSource) : RpcReceiptSource :=
  { source with nextRpcId := source.nextRpcId + 1#64 }

def advance (source : RpcReceiptSource) (rangeEnd : BitVec 64) : RpcReceiptSource :=
  { source with lastProcessedBlock := rangeEnd }

end RpcReceiptSource

inductive RpcCall where
  | getBlockByNumber (tag : RpcBlockTag)
  | getLogs (filter : EventFilter) (fromBlock toBlock : BitVec 64)
  | getTransactionReceipt (txHash : Hash256)

def RpcCall.request : RpcCall → BitVec 64 → Json
  | .getBlockByNumber tag,id => makeGetBlockByNumberRequest tag id
  | .getLogs filter fromBlock toBlock,id => makeGetLogsRequest filter fromBlock toBlock id
  | .getTransactionReceipt txHash,id => makeGetTransactionReceiptRequest txHash id

-- JsonRpcTransport: any behaviour, with a state of its own.
structure JsonRpcTransport (σ : Type) where
  call : σ → Json → Option Text × σ

-- What an observer of the source sees: calls with their answers, the head a
-- poll settled on, batches handed to the handler, and ranges the cursor passed.
-- The source never reads it back.
inductive RpcEvent where
  | called (call : RpcCall) (id : BitVec 64) (response : Option Text)
  | chosen (head : FinalityDecision)
  | handed (batch : ReceiptBatch)
  | passed (rangeStart rangeEnd : BitVec 64)

structure RpcState (σ : Type) where
  source : RpcReceiptSource
  transport : σ

abbrev RpcSession (σ α : Type) := Session (RpcState σ) RpcEvent α

section operations
variable (parse : Text → Option Json) (transport : JsonRpcTransport σ)

-- transport_.call with the next request id, and the reading of its response. A
-- missing response and one that does not parse both stop the caller.
def query (read : Text → Option α) (call : RpcCall) : RpcSession σ α := fun before =>
  let id := before.source.nextRpcId
  let answer := transport.call before.transport (call.request id)
  ⟨answer.1.bind read,⟨before.source.takeRequestId,answer.2⟩,[.called call id answer.1]⟩

def getReceipt (txHash : Hash256) : RpcSession σ ReceiptResult :=
  query transport (parseTransactionReceiptResponse parse) (.getTransactionReceipt txHash)

def getBlockNumber (tag : RpcBlockTag) : RpcSession σ (BitVec 64) :=
  query transport (parseBlockNumberResponse parse) (.getBlockByNumber tag)

def preferredHead (preferred : Bool) (tag : RpcBlockTag) : RpcSession σ (Option (BitVec 64)) :=
  if preferred then (getBlockNumber parse transport tag).attempt else pure none

def finalityHead : RpcSession σ FinalityDecision := do
  let policy := (← Session.get).source.finalityPolicy
  let finalizedNumber ← preferredHead parse transport policy.preferFinalized .finalized
  let safeNumber ← preferredHead parse transport policy.preferSafe .safe
  let latestNumber ← (getBlockNumber parse transport .latest).attempt
  let decision := chooseFinalityHead policy ⟨finalizedNumber,safeNumber,latestNumber⟩
  Session.ofOption (if decision.kind = .unavailable then none else some decision)

def receiptBatch (receipt : ReceiptResult) : ReceiptBatch where
  receipts := .singleton receipt.receipt
  txHashes := .singleton receipt.txHash
  logIndices := .singleton receipt.logIndices
  blockNumber := receipt.blockNumber
  blockHash := receipt.blockHash

def handOver (receipt : ReceiptResult) : RpcSession σ Unit := fun before =>
  ⟨some (),before,if before.source.handler then [.handed (receiptBatch receipt)] else []⟩

def emitReceipt (txHash : Hash256) : RpcSession σ Unit := do
  let receipt ← getReceipt parse transport txHash
  handOver receipt

-- One round of the log loop; the accumulator is the set of transactions seen.
def emitLog (seen : List Hash256) (log : RpcLog) : RpcSession σ (List Hash256) :=
  if log.txHash ∈ seen then pure seen
  else do
    emitReceipt parse transport log.txHash
    return log.txHash :: seen

def backfillFilter (filter : EventFilter) (fromBlock toBlock : BitVec 64) (seen : List Hash256) :
    RpcSession σ (List Hash256) := do
  let logs ← query transport (parseGetLogsResponse parse) (.getLogs filter fromBlock toBlock)
  logs.foldlM (emitLog parse transport) seen

def backfillFilters (rangeStart rangeEnd : BitVec 64) (seen : List Hash256) (filters : List RegisteredFilter) :
    RpcSession σ (List Hash256) :=
  filters.foldlM (fun seen entry => backfillFilter parse transport entry.filter rangeStart rangeEnd seen) seen

def passRange (rangeStart rangeEnd : BitVec 64) : RpcSession σ Unit := fun before =>
  ⟨some (),⟨before.source.advance rangeEnd,before.transport⟩,[.passed rangeStart rangeEnd]⟩

def backfillRange (rangeStart rangeEnd : BitVec 64) : RpcSession σ Unit := do
  let filters := (← Session.get).source.filters
  let _ ← backfillFilters parse transport rangeStart rangeEnd [] filters
  passRange rangeStart rangeEnd

def rangeEnd (maxLogRange toBlock rangeStart : BitVec 64) : BitVec 64 :=
  rangeStart + stdMin (maxLogRange - 1#64) (toBlock - rangeStart)

theorem stdMin_toNat : (stdMin left right).toNat = min left.toNat right.toNat := by
  unfold stdMin
  split <;> rename_i order <;> rw [BitVec.lt_def] at order <;> omega

theorem stdMax_toNat : (stdMax left right).toNat = max left.toNat right.toNat := by
  unfold stdMax
  split <;> rename_i order <;> rw [BitVec.lt_def] at order <;> omega

theorem rangeEnd_toNat (positive : 0 < maxLogRange.toNat)
    (ordered : rangeStart ≤ toBlock) : (rangeEnd maxLogRange toBlock rangeStart).toNat =
      rangeStart.toNat + min (maxLogRange.toNat - 1) (toBlock.toNat - rangeStart.toNat) := by
  unfold rangeEnd
  rw [BitVec.toNat_add,stdMin_toNat,BitVec.toNat_sub_of_le (by rw [BitVec.le_def]; exact positive),
    BitVec.toNat_sub_of_le (by rw [BitVec.le_def]; exact ordered)]
  exact Nat.mod_eq_of_lt (by simp only [BitVec.toNat_one (show 0 < 64 by decide)]; omega)

theorem rangeEnd_le (maxLogRange : BitVec 64) (ordered : rangeStart ≤ toBlock) :
    rangeStart ≤ rangeEnd maxLogRange toBlock rangeStart ∧ rangeEnd maxLogRange toBlock rangeStart ≤ toBlock := by
  simp only [BitVec.le_def] at ordered ⊢
  unfold rangeEnd
  rw [BitVec.toNat_add,stdMin_toNat,BitVec.toNat_sub_of_le (x := toBlock) (by rw [BitVec.le_def]; exact ordered),
    Nat.mod_eq_of_lt (by omega)]
  omega

theorem next_toNat (below : last < limit) : (last + 1#64).toNat = last.toNat + 1 := by
  rw [BitVec.lt_def] at below
  rw [BitVec.toNat_add]
  exact Nat.mod_eq_of_lt (by simp only [BitVec.toNat_one (show 0 < 64 by decide)]; omega)

theorem range_shrinks (ordered : rangeStart ≤ toBlock) (more : rangeEnd maxLogRange toBlock rangeStart ≠ toBlock) :
    toBlock.toNat - (rangeEnd maxLogRange toBlock rangeStart + 1#64).toNat < toBlock.toNat - rangeStart.toNat := by
  obtain ⟨starts,ends⟩ := rangeEnd_le maxLogRange ordered
  have below := BitVec.lt_of_le_ne ends more
  rw [next_toNat below]
  rw [BitVec.le_def] at starts
  rw [BitVec.lt_def] at below
  omega

-- The range loop. It is a total function: the part of the interval that is
-- still ahead shrinks with every round, also at the largest block number.
def backfillLoop (toBlock rangeStart : BitVec 64) : RpcSession σ Unit :=
  if _ : rangeStart ≤ toBlock then do
    let last := rangeEnd (← Session.get).source.maxLogRange toBlock rangeStart
    backfillRange parse transport rangeStart last
    if _ : last = toBlock then pure () else backfillLoop toBlock (last + 1#64)
  else pure ()
termination_by toBlock.toNat - rangeStart.toNat
decreasing_by
  exact range_shrinks (by assumption) (by assumption)

def backfill (fromBlock toBlock : BitVec 64) : RpcSession σ Unit :=
  if fromBlock > toBlock then pure () else backfillLoop parse transport toBlock fromBlock

def pollOnce : RpcSession σ Unit := do
  let head ← finalityHead parse transport
  Session.report (.chosen head)
  let last := (← Session.get).source.lastProcessedBlock
  if head.blockNumber ≤ last then pure ()
  else backfill parse transport (last + 1#64) head.blockNumber

-- The public operations, and any sequence of them. A failed poll or backfill is
-- an ordinary step: the caller goes on with what it left.
inductive Operation where
  | pollOnce
  | backfill (fromBlock toBlock : BitVec 64)
  | getReceipt (txHash : Hash256)
  | addFilter (filter : EventFilter)
  | removeFilter (id : WatchId)
  | setReceiptBatchHandler (installed : Bool)

def update (change : RpcReceiptSource → RpcReceiptSource) : RpcSession σ Unit := fun before =>
  ⟨some (),⟨change before.source,before.transport⟩,[]⟩

def Operation.perform : Operation → RpcSession σ Unit
  | .pollOnce => (Rpc.pollOnce parse transport).ignore
  | .backfill fromBlock toBlock => (Rpc.backfill parse transport fromBlock toBlock).ignore
  | .getReceipt txHash => (Rpc.getReceipt parse transport txHash).ignore
  | .addFilter filter => update fun source => (source.addFilter filter).2
  | .removeFilter id => update fun source => source.removeFilter id
  | .setReceiptBatchHandler installed => update fun source => source.setReceiptBatchHandler installed

def runOperations (operations : List Operation) : RpcSession σ Unit :=
  operations.foldlM (fun _ operation => operation.perform parse transport) ()

theorem runOperations_cons :
    runOperations parse transport (operation :: rest) before =
      let first := operation.perform parse transport before
      let later := runOperations parse transport rest first.state
      ⟨later.value,later.state,first.events ++ later.events⟩ := by
  unfold runOperations
  rw [List.foldlM_cons]
  cases operation <;> exact Session.bind_continued rfl

theorem runOperations_append :
    runOperations parse transport (front ++ back) before =
      let first := runOperations parse transport front before
      let later := runOperations parse transport back first.state
      ⟨later.value,later.state,first.events ++ later.events⟩ := by
  induction front generalizing before with
  | nil => rfl
  | cons operation rest ih =>
    rw [List.cons_append,runOperations_cons,runOperations_cons]
    simp only [ih,List.append_assoc]

end operations
end Rpc
end EvmRelay
