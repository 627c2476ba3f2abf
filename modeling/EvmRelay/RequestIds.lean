import EvmRelay.RequestLedger

namespace EvmRelay.EthWatchService.Messaging
open Eth Rlp RlpSpec Codec Reader

-- Only NewBlockHashes tells a block's hash.
def Announced (steps : List (Step κ)) (block : PendingRequest) : Prop :=
  ∃ payload msg,.message kNewBlockHashesMessageId payload ∈ steps ∧ decodeNewBlockHashes payload = .ok msg ∧
    ⟨block.blockHash,block.blockNumber⟩ ∈ msg.entries.items

theorem Announced.before {steps : List (Step κ)} (announced : Announced (steps.take (k + 1)) block)
    (found : steps[k]? = some (.message kNewBlockMessageId payload)) : Announced (steps.take k) block := by
  obtain ⟨told,msg,member,decoded,listed⟩ := announced
  rw [List.take_add_one,found] at member
  rcases List.mem_append.mp member with before | last
  · exact ⟨told,msg,before,decoded,listed⟩
  · simp [kNewBlockHashesMessageId,kNewBlockMessageId] at last

def numberedEntry (k : Nat) : NewBlockHashEntry := ⟨.ofNat 32 k,0#64⟩

theorem numberedEntry_other (below : j < k) (small : k < 256 ^ 32) : (numberedEntry j).hash ≠ (numberedEntry k).hash := by
  intro same
  have values := congrArg (fun hash : Hash256 => BigEndian.value hash.toList) same
  have left := BigEndian.value_fixed_of_lt (Nat.lt_trans below small)
  have right := BigEndian.value_fixed_of_lt small
  have equal : BigEndian.value (BigEndian.fixed 32 j) = BigEndian.value (BigEndian.fixed 32 k) := values
  omega

-- The blocks asked for are the first ones.
structure Counted (known : Nat) (actions : List (Action κ)) (service : Messaging κ) : Prop where
  kept : Kept actions service
  sending : service.sendCb = true
  hashes : requestedHashes actions = ((List.range known).map fun k => (numberedEntry k).hash).reverse

theorem Counted.request {service : Messaging κ} (counted : Counted known actions service) (small : known < 256 ^ 32) :
    ∃ sent after,service.requestReceipts (numberedEntry known).hash (numberedEntry known).number = ⟨[sent],.ok after⟩ ∧
      Counted (known + 1) (actions ++ [sent]) after := by
  obtain ⟨kept,sending,hashes⟩ := counted
  have fresh : (numberedEntry known).hash ∉ recentHashes actions := by
    intro recent
    have before := List.mem_of_mem_take recent
    rw [hashes,List.mem_reverse] at before
    obtain ⟨j,below,same⟩ := List.mem_map.mp before
    exact numberedEntry_other (List.mem_range.mp below) small same
  obtain ⟨view,_,decoded,ran⟩ := requestReceipts_sent kept.remembers sending fresh (numberedEntry known).number
  have keeps := requestReceipts_keeps kept (numberedEntry known).hash (numberedEntry known).number
  rw [ran] at keeps
  refine ⟨_,_,ran,keeps.2 _ rfl,sending,?_⟩
  rw [requestedHashes_sent decoded,hashes,List.range_succ]
  simp

end EvmRelay.EthWatchService.Messaging
