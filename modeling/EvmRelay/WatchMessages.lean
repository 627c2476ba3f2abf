import EvmRelay.ChainTracker
import EvmRelay.EthMessages
import EvmRelay.WatchService

namespace EvmRelay.EthWatchService
open Eth

structure MessageStats where
  ethMessagesSeen : BitVec 64
  newBlockHashesMessages : BitVec 64
  newBlockMessages : BitVec 64
  receiptsMessages : BitVec 64
  decodeFailures : BitVec 64
  receiptsRequested : BitVec 64

structure PendingRequest where
  blockHash : Hash256
  blockNumber : BitVec 64
  deriving DecidableEq

-- What the variables for a block without a request are initialised with.
def PendingRequest.unknown : PendingRequest := ⟨FixedBytes.zeros 32,0#64⟩

-- The members that process_message works on besides those that deliver events.
-- Of the send callback only whether it is set matters.
structure Messaging (κ : Type) extends EthWatchService κ where
  sendCb : Bool
  chainTracker : ChainTracker
  nextReqId : BitVec 64
  messageStats : MessageStats
  ethMessageSchemas : StdVector EthMessageSchema
  pendingRequests : BitVec 64 → Option PendingRequest

inductive Action (κ : Type) where
  | sent (messageId : UInt8) (payload : List UInt8)
  | called (call : Call κ)

namespace Messaging

def new : Messaging κ where
  toEthWatchService := .new
  sendCb := false
  chainTracker := .new ChainTracker.kDefaultWindowSize
  nextReqId := 1#64
  messageStats := ⟨0#64,0#64,0#64,0#64,0#64,0#64⟩
  ethMessageSchemas := .empty
  pendingRequests := fun _ => none

def requestReceipts (service : Messaging κ) (blockHash : Hash256) (blockNumber : BitVec 64) :
    Emitting Fault (Action κ) (Messaging κ) :=
  if ¬ service.sendCb then pure service
  else
    let (fresh,chainTracker) := service.chainTracker.markSeen blockHash blockNumber
    if ¬ fresh then pure { service with chainTracker := chainTracker }
    else
      let reqId := service.nextReqId
      let service := { service with chainTracker := chainTracker, nextReqId := reqId + 1#64 }
      match encodeGetReceipts ⟨some reqId,.singleton blockHash⟩ with
      | .error _ => pure service
      | .ok encoded => do
        .emit (.sent kGetReceiptsMessageId encoded)
        return { service with
          pendingRequests := Function.update service.pendingRequests reqId (some ⟨blockHash,blockNumber⟩)
          messageStats := { service.messageStats with receiptsRequested := service.messageStats.receiptsRequested + 1#64 } }

def processNewBlock (service : Messaging κ) (msg : NewBlockMessage) (blockHash : Hash256) : Emitting Fault (Action κ) (Messaging κ) :=
  service.requestReceipts blockHash msg.header.number

-- The block an answer belongs to; only the first list of an answer looks it up,
-- and takes it off the pending ones.
def correlate (service : Messaging κ) (requestId : Option (BitVec 64)) (blockIdx : Nat) : PendingRequest × Messaging κ :=
  match requestId with
  | none => (.unknown,service)
  | some id =>
    if blockIdx = 0 then
      match service.pendingRequests id with
      | none => (.unknown,service)
      | some request => (request,{ service with pendingRequests := Function.update service.pendingRequests id none })
    else (.unknown,service)

-- The transaction hashes are not in the answer: as many zeros as receipts.
def answerBatch (request : PendingRequest) (blockReceipts : StdVector Receipt) : ReceiptBatch where
  receipts := blockReceipts
  txHashes := blockReceipts.map fun _ => FixedBytes.zeros 32
  logIndices := .empty
  blockNumber := request.blockNumber
  blockHash := request.blockHash

section keccak
variable (keccak256 : List UInt8 → Hash256)

def answerBlock (requestId : Option (BitVec 64)) (state : Messaging κ × Nat) (blockReceipts : StdVector Receipt) :
    Emitting Fault (Nat × Nat × Nat × Call κ) (Messaging κ × Nat) :=
  let (request,service) := state.1.correlate requestId state.2
  do
    let own ← service.toEthWatchService.processReceipts keccak256 (answerBatch request blockReceipts)
    return ({ service with toEthWatchService := own },state.2 + 1)

def answer (service : Messaging κ) (msg : ReceiptsMessage) : Emitting Fault (Nat × Nat × Nat × Nat × Call κ) (Messaging κ) := do
  let state ← Emitting.loop (answerBlock keccak256 msg.requestId) 0 (service,0) msg.content.items
  return state.1

def decodeAnswer (service : Messaging κ) (payload : ByteView) : Except DecodingError ReceiptsMessage :=
  if service.ethMessageSchemas.items = [] then decodeReceipts payload else decodeReceiptsWith service.ethMessageSchemas payload

def decodeBlock (service : Messaging κ) (payload : ByteView) : Except DecodingError NewBlockMessage :=
  if service.ethMessageSchemas.items = [] then decodeNewBlock payload else decodeNewBlockWith service.ethMessageSchemas payload

def count (service : Messaging κ) (step : MessageStats → MessageStats) : Messaging κ :=
  { service with messageStats := step service.messageStats }

def failed (service : Messaging κ) : Messaging κ :=
  service.count fun stats => { stats with decodeFailures := stats.decodeFailures + 1#64 }

def onNewBlockHashes (service : Messaging κ) (payload : ByteView) : Emitting Fault (Action κ) (Messaging κ) :=
  let service := service.count fun stats => { stats with newBlockHashesMessages := stats.newBlockHashesMessages + 1#64 }
  match decodeNewBlockHashes payload with
  | .error _ => pure service.failed
  | .ok msg =>
    (Emitting.loop (fun service entry => requestReceipts service entry.hash entry.number) 0 service msg.entries.items).relabel Prod.snd

-- NewBlock does not carry the hash of the block: zeros stand for it.
def onNewBlock (service : Messaging κ) (payload : ByteView) : Emitting Fault (Action κ) (Messaging κ) :=
  let service := service.count fun stats => { stats with newBlockMessages := stats.newBlockMessages + 1#64 }
  match service.decodeBlock payload with
  | .error _ => pure service.failed
  | .ok msg => service.processNewBlock msg (FixedBytes.zeros 32)

def onReceipts (service : Messaging κ) (payload : ByteView) : Emitting Fault (Action κ) (Messaging κ) :=
  let service := service.count fun stats => { stats with receiptsMessages := stats.receiptsMessages + 1#64 }
  match service.decodeAnswer payload with
  | .error _ => pure service.failed
  | .ok msg => (service.answer keccak256 msg).relabel fun made => .called made.2.2.2.2

def processMessage (service : Messaging κ) (ethMsgId : UInt8) (payload : ByteView) : Emitting Fault (Action κ) (Messaging κ) :=
  let service := service.count fun stats => { stats with ethMessagesSeen := stats.ethMessagesSeen + 1#64 }
  if ethMsgId = kNewBlockHashesMessageId then service.onNewBlockHashes payload
  else if ethMsgId = kNewBlockMessageId then service.onNewBlock payload
  else if ethMsgId = kReceiptsMessageId then service.onReceipts keccak256 payload
  else pure service

inductive Step (κ : Type) where
  | message (ethMsgId : UInt8) (payload : ByteView)
  | watchEvent (contractAddress : Address) (eventSignature : List UInt8) (params : Abi.AbiParams) (callback : κ)
      (fromBlock toBlock : Option (BitVec 64))
  | unwatch (id : WatchId)
  | setSendCallback (set : Bool)
  | setEthMessageSchemas (schemas : StdVector EthMessageSchema)

def perform (service : Messaging κ) : Step κ → Emitting Fault (Action κ) (Messaging κ)
  | .message ethMsgId payload => service.processMessage keccak256 ethMsgId payload
  | .watchEvent contractAddress eventSignature params callback fromBlock toBlock =>
    pure { service with toEthWatchService :=
      (service.toEthWatchService.watchEvent keccak256 contractAddress eventSignature params callback fromBlock toBlock).2 }
  | .unwatch id => pure { service with toEthWatchService := service.toEthWatchService.unwatch id }
  | .setSendCallback set => pure { service with sendCb := set }
  | .setEthMessageSchemas schemas => pure { service with ethMessageSchemas := schemas }

def run (service : Messaging κ) (steps : List (Step κ)) : Emitting Fault (Nat × Action κ) (Messaging κ) :=
  Emitting.loop (perform keccak256) 0 service steps

end keccak
end Messaging
end EvmRelay.EthWatchService
