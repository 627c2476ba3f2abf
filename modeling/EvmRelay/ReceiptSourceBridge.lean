import EvmRelay.ReceiptCorrelation
import EvmRelay.RpcReceiptSource

namespace EvmRelay
open Rpc EthWatchService

def makeEventFilter (keccak256 : List UInt8 → Hash256) (contractAddress : Address) (eventSignature : List UInt8)
    (fromBlock toBlock : Option (BitVec 64)) : EventFilter where
  addresses := if contractAddress ≠ FixedBytes.zeros 20 then [contractAddress] else []
  topics := [some (Abi.eventSignatureHash keccak256 eventSignature)]
  fromBlock := fromBlock
  toBlock := toBlock

structure Registration (κ : Type) where
  contractAddress : Address
  eventSignature : List UInt8
  params : Abi.AbiParams
  callback : κ
  fromBlock : Option (BitVec 64)
  toBlock : Option (BitVec 64)

structure EthReceiptSourceBridge.Subscription where
  serviceId : WatchId
  sourceId : WatchId

structure EthReceiptSourceBridge (κ : Type) where
  service : EthWatchService κ
  source : RpcReceiptSource
  subscriptions : List EthReceiptSourceBridge.Subscription

section keccak
variable (keccak256 : List UInt8 → Hash256)

def Registration.filter (own : Registration κ) : EventFilter :=
  makeEventFilter keccak256 own.contractAddress own.eventSignature own.fromBlock own.toBlock

def EthWatchService.register (service : EthWatchService κ) (own : Registration κ) : WatchId × EthWatchService κ :=
  service.watchEvent keccak256 own.contractAddress own.eventSignature own.params own.callback own.fromBlock own.toBlock

namespace EthReceiptSourceBridge

def new (service : EthWatchService κ) (source : RpcReceiptSource) : EthReceiptSourceBridge κ :=
  ⟨service,source.setReceiptBatchHandler true,[]⟩

def watchEvent (bridge : EthReceiptSourceBridge κ) (own : Registration κ) : WatchId × EthReceiptSourceBridge κ :=
  let (sourceId,source) := bridge.source.addFilter (own.filter keccak256)
  let (serviceId,service) := bridge.service.register keccak256 own
  (serviceId,⟨service,source,bridge.subscriptions ++ [⟨serviceId,sourceId⟩]⟩)

def unwatch (bridge : EthReceiptSourceBridge κ) (id : WatchId) : EthReceiptSourceBridge κ :=
  let service := bridge.service.unwatch id
  match bridge.subscriptions.find? fun sub => decide (sub.serviceId = id) with
  | none => { bridge with service := service }
  | some sub => ⟨service,bridge.source.removeFilter sub.sourceId,bridge.subscriptions.eraseP fun sub => decide (sub.serviceId = id)⟩

def processReceiptBatch (bridge : EthReceiptSourceBridge κ) (batch : ReceiptBatch) :
    Emitting Fault (Nat × Nat × Nat × Call κ) (EthReceiptSourceBridge κ) := do
  let service ← bridge.service.processReceipts keccak256 batch
  return { bridge with service := service }

-- What is done to the bridge, and to the service and the source behind it by others.
-- A batch reaches the service the same way from both.
inductive Operation (κ : Type) where
  | watchEvent (own : Registration κ)
  | unwatch (id : WatchId)
  | processReceipts (batch : ReceiptBatch)
  | serviceWatchEvent (own : Registration κ)
  | serviceUnwatch (id : WatchId)
  | addFilter (filter : EventFilter)
  | removeFilter (id : WatchId)

def perform (bridge : EthReceiptSourceBridge κ) : Operation κ → Emitting Fault (Nat × Nat × Nat × Call κ) (EthReceiptSourceBridge κ)
  | .watchEvent own => pure (bridge.watchEvent keccak256 own).2
  | .unwatch id => pure (bridge.unwatch id)
  | .processReceipts batch => bridge.processReceiptBatch keccak256 batch
  | .serviceWatchEvent own => pure { bridge with service := (bridge.service.register keccak256 own).2 }
  | .serviceUnwatch id => pure { bridge with service := bridge.service.unwatch id }
  | .addFilter filter => pure { bridge with source := (bridge.source.addFilter filter).2 }
  | .removeFilter id => pure { bridge with source := bridge.source.removeFilter id }

def run (bridge : EthReceiptSourceBridge κ) (operations : List (Operation κ)) :
    Emitting Fault (Nat × Nat × Nat × Nat × Call κ) (EthReceiptSourceBridge κ) :=
  Emitting.loop (perform keccak256) 0 bridge operations

end EthReceiptSourceBridge
end keccak
end EvmRelay
