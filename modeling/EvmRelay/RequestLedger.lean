import EvmRelay.ReceiptRequests

namespace EvmRelay.EthWatchService.Messaging
open Eth Rlp RlpSpec Codec Reader

section kept
variable {actions more : List (Action κ)} {service : Messaging κ}

def Asks (actions : List (Action κ)) (requestId : BitVec 64) (blockHash : Hash256) : Prop :=
  ∃ view : ByteView,.sent kGetReceiptsMessageId view.bytes ∈ actions ∧
    decodeGetReceipts view = .ok ⟨some requestId,.singleton blockHash⟩

theorem Asks.left (asks : Asks actions requestId blockHash) : Asks (actions ++ more) requestId blockHash := by
  obtain ⟨view,member,decoded⟩ := asks
  exact ⟨view,List.mem_append_left _ member,decoded⟩

theorem Asks.right (asks : Asks more requestId blockHash) : Asks (actions ++ more) requestId blockHash := by
  obtain ⟨view,member,decoded⟩ := asks
  exact ⟨view,List.mem_append_right _ member,decoded⟩

end kept

end EvmRelay.EthWatchService.Messaging
