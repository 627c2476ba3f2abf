import EvmRelay.WatchMessages

namespace EvmRelay.EthWatchService
open Eth

def SameWatch (one two : EthWatchService κ) : Prop := one.watcher = two.watcher ∧ one.subscriptions = two.subscriptions

theorem SameWatch.quiet (same : SameWatch one two) (batch : ReceiptBatch) (receipt : Receipt) :
    one.QuietReceipt keccak256 batch receipt ↔ two.QuietReceipt keccak256 batch receipt := by
  obtain ⟨watcher,subscriptions,_,_⟩ := one
  obtain ⟨rfl,rfl⟩ := same
  exact Iff.rfl

theorem SameWatch.delivered (same : SameWatch one two)
    (delivered : Delivered keccak256 one batch i j s receipt txHash log own values) :
    Delivered keccak256 two batch i j s receipt txHash log own values := by
  obtain ⟨watcher,subscriptions,_,_⟩ := one
  obtain ⟨rfl,rfl⟩ := same
  exact ⟨delivered.receiptFound,delivered.txFound,delivered.receiptsBefore,delivered.logFound,delivered.logsBefore,delivered.subFound,
    delivered.subsBefore,delivered.decoded⟩

theorem SameWatch.symm (same : SameWatch one two) : SameWatch two one := ⟨same.1.symm,same.2.symm⟩

theorem processReceipts_completes (service : EthWatchService κ) : (service.processReceipts keccak256 batch).Completes ↔
      ∀ item ∈ batch.receipts.items.zip batch.txHashes.items,service.QuietReceipt keccak256 batch item.1 :=
  (Emitting.bind_pure_completes _).trans (Emitting.loop_completes _ (service.processOne_completes keccak256 batch))

theorem processReceipts_keeps
    (ran : (service.processReceipts keccak256 batch).outcome = .ok after) : SameWatch after service := by
  obtain ⟨_,_,ended⟩ := Emitting.outcome_bind.mp ran
  cases ended
  exact ⟨rfl,rfl⟩

namespace Messaging
variable (keccak256 : List UInt8 → Hash256)

def blockRequest (request : PendingRequest) (b : Nat) : PendingRequest := if b = 0 then request else .unknown

def QuietBefore (service : EthWatchService κ) (msg : ReceiptsMessage) (request : PendingRequest) (b : Nat) : Prop :=
  ∀ a earlier,a < b → msg.content.items[a]? = some earlier → ∀ receipt ∈ earlier.items,
    service.QuietReceipt keccak256 (answerBatch (blockRequest request a) earlier) receipt

structure Answered (service : Messaging κ) (requestId : BitVec 64) (k : Nat) (state : Messaging κ × Nat) : Prop where
  count : state.2 = k
  same : SameWatch state.1.toEthWatchService service.toEthWatchService
  pending : state.1.pendingRequests = if k = 0 then service.pendingRequests else Function.update service.pendingRequests requestId none

theorem Answered.start (service : Messaging κ) (requestId : BitVec 64) : Answered service requestId 0 (service,0) := ⟨rfl,⟨rfl,rfl⟩,rfl⟩

theorem correlate_first {service : Messaging κ} (pending : service.pendingRequests requestId = some request) :
    service.correlate (some requestId) 0 =
      (request,{ service with pendingRequests := Function.update service.pendingRequests requestId none }) := by
  simp [correlate,pending]

theorem correlate_later (service : Messaging κ) (k : Nat) :
    service.correlate (some requestId) (k + 1) = (.unknown,service) := rfl

section
variable {keccak256 : List UInt8 → Hash256} {service : Messaging κ}
  (pending : service.pendingRequests requestId = some request)
include pending

theorem Answered.correlate (answered : Answered service requestId k state) :
    (state.1.correlate (some requestId) state.2).1 = blockRequest request k ∧
    SameWatch (state.1.correlate (some requestId) state.2).2.toEthWatchService service.toEthWatchService ∧
    (state.1.correlate (some requestId) state.2).2.pendingRequests = Function.update service.pendingRequests requestId none := by
  obtain ⟨count,same,left⟩ := answered
  rw [count]
  cases k with
  | zero =>
    rw [if_pos rfl] at left
    rw [correlate_first (show state.1.pendingRequests requestId = some request by rw [left,pending]),left]
    exact ⟨rfl,same,rfl⟩
  | succ k =>
    rw [correlate_later]
    exact ⟨rfl,same,left⟩

theorem Answered.next (answered : Answered service requestId k state)
    (ran : (answerBlock keccak256 (some requestId) state block).outcome = .ok after) : Answered service requestId (k + 1) after := by
  have count := answered.count
  obtain ⟨_,same,left⟩ := answered.correlate pending
  unfold answerBlock at ran
  generalize state.1.correlate (some requestId) state.2 = found at ran same left
  obtain ⟨own,delivered,ended⟩ := Emitting.outcome_bind.mp ran
  cases ended
  have kept := processReceipts_keeps delivered
  exact ⟨congrArg (· + 1) count,⟨kept.1.trans same.1,kept.2.trans same.2⟩,by rw [if_neg (Nat.succ_ne_zero k)]; exact left⟩

theorem Answered.completes (answered : Answered service requestId k state) (block : StdVector Receipt) :
    (answerBlock keccak256 (some requestId) state block).Completes ↔
      ∀ receipt ∈ block.items,service.QuietReceipt keccak256 (answerBatch (blockRequest request k) block) receipt := by
  obtain ⟨found,same,_⟩ := answered.correlate pending
  unfold answerBlock
  rw [Emitting.bind_pure_completes,processReceipts_completes,found]
  constructor
  · intro all receipt member
    have zipped : block.items.zip (block.items.map fun _ => FixedBytes.zeros 32) =
        block.items.map fun receipt => (receipt,FixedBytes.zeros 32) := by
      simpa using List.zip_map' (f := id) (g := fun _ : Receipt => (FixedBytes.zeros 32 : Hash256)) (l := block.items)
    have paired : (receipt,FixedBytes.zeros 32) ∈ block.items.zip (block.items.map fun _ => FixedBytes.zeros 32) := by
      rw [zipped]
      exact List.mem_map_of_mem member
    exact (same.quiet _ receipt).mp (all _ paired)
  · intro all item member
    exact (same.quiet _ item.1).mpr (all item.1 (List.of_mem_zip member).1)

def CallsBack (keccak256 : List UInt8 → Hash256) (service : EthWatchService κ) (batch : ReceiptBatch) (i j s : Nat)
    (call : Call κ) : Prop :=
  ∃ receipt txHash log own values,Delivered keccak256 service batch i j s receipt txHash log own values ∧
    call = ⟨own.callback,⟨log,batch.blockNumber,batch.blockHash,txHash,firstIndex batch i + BitVec.ofNat 32 j⟩,values⟩

theorem Answered.emits (answered : Answered service requestId k state) (block : StdVector Receipt)
    (i j s : Nat) (call : Call κ) : (i,j,s,call) ∈ (answerBlock keccak256 (some requestId) state block).events ↔
      CallsBack keccak256 service.toEthWatchService (answerBatch (blockRequest request k) block) i j s call := by
  obtain ⟨found,same,_⟩ := answered.correlate pending
  unfold answerBlock
  rw [Emitting.mem_bind_pure,mem_processReceipts,found]
  constructor
  · rintro ⟨receipt,txHash,log,own,values,delivered,spelled⟩
    exact ⟨receipt,txHash,log,own,values,same.delivered delivered,spelled⟩
  · rintro ⟨receipt,txHash,log,own,values,delivered,spelled⟩
    exact ⟨receipt,txHash,log,own,values,same.symm.delivered delivered,spelled⟩

theorem mem_answer (identified : msg.requestId = some requestId) (i s : Nat) :
    (b,i,j,s,call) ∈ (service.answer keccak256 msg).events ↔
      ∃ block,msg.content.items[b]? = some block ∧ QuietBefore keccak256 service.toEthWatchService msg request b ∧
        CallsBack keccak256 service.toEthWatchService (answerBatch (blockRequest request b) block) i j s call := by
  unfold answer
  rw [Emitting.mem_bind_pure,identified]
  exact Emitting.mem_loop_at _ (Answered service requestId)
    (fun k block event => CallsBack keccak256 service.toEthWatchService (answerBatch (blockRequest request k) block) event.1
      event.2.1 event.2.2.1 event.2.2.2)
    (fun k before block answered => answered.completes pending block)
    (Answered.start service requestId)
    (fun k before block after _ answered ran => answered.next pending ran)
    (fun k before block event answered => answered.emits pending block ..)

theorem answer_pending (identified : msg.requestId = some requestId)
    (ran : (service.answer keccak256 msg).outcome = .ok after) :
    after.pendingRequests requestId = if msg.content.items = [] then some request else none := by
  obtain ⟨state,looped,ended⟩ := Emitting.outcome_bind.mp ran
  cases ended
  rw [identified] at looped
  have answered := Emitting.loop_invariant (Answered service requestId) (Answered.start service requestId)
    (fun k before block after _ answered ran => answered.next pending ran) looped
  rw [answered.pending]
  by_cases none : msg.content.items = []
  · simp [none,pending]
  · simp [none]

end

-- The answer is processed under the block that its request was sent for, and
-- the request is over.
def Correlated (service : Messaging κ) (payload : ByteView) : Prop :=
  ∀ msg requestId request,service.decodeAnswer payload = .ok msg → msg.requestId = some requestId →
    service.pendingRequests requestId = some request →
    (∀ call,.called call ∈ (service.processMessage keccak256 kReceiptsMessageId payload).events →
      call.event.blockHash = request.blockHash ∧ call.event.blockNumber = request.blockNumber) ∧
    ∀ after,(service.processMessage keccak256 kReceiptsMessageId payload).outcome = .ok after → after.pendingRequests requestId = none

-- A list behind the first one holds a log that an event callback is made for.
def LaterDelivery (service : EthWatchService κ) (msg : ReceiptsMessage) (request : PendingRequest) : Prop :=
  ∃ b block i j s receipt txHash log own values,0 < b ∧ msg.content.items[b]? = some block ∧
    QuietBefore keccak256 service msg request b ∧
    Delivered keccak256 service (answerBatch .unknown block) i j s receipt txHash log own values

-- There is a list, and none behind it has events, unless the request was for
-- the block that these are reported under.
def AnswersOneBlock (service : Messaging κ) (payload : ByteView) : Prop :=
  ∀ msg requestId request,service.decodeAnswer payload = .ok msg → msg.requestId = some requestId →
    service.pendingRequests requestId = some request →
    msg.content.items ≠ [] ∧ (request = .unknown ∨ ¬ LaterDelivery keccak256 service.toEthWatchService msg request)

theorem onReceipts_decoded {service : Messaging κ} (decoded : service.decodeAnswer payload = .ok msg) :
    service.onReceipts keccak256 payload = ((service.count fun stats => { stats with receiptsMessages := stats.receiptsMessages + 1#64 }).answer
      keccak256 msg).relabel fun made => .called made.2.2.2.2 := by
  have counted (step : MessageStats → MessageStats) : (service.count step).decodeAnswer payload = .ok msg := decoded
  simp only [onReceipts,counted]

theorem processMessage_answer {service : Messaging κ} (decoded : service.decodeAnswer payload = .ok msg) :
    ∃ counted : Messaging κ,counted.toEthWatchService = service.toEthWatchService ∧ counted.pendingRequests = service.pendingRequests ∧
      service.processMessage keccak256 kReceiptsMessageId payload = (counted.answer keccak256 msg).relabel fun made => .called made.2.2.2.2 := by
  have counted (step : MessageStats → MessageStats) : (service.count step).decodeAnswer payload = .ok msg := decoded
  unfold processMessage
  rw [if_neg (by decide),if_neg (by decide),if_pos rfl,onReceipts_decoded keccak256 (counted _)]
  refine ⟨_,?_,?_,rfl⟩
  · rfl
  · rfl

section
variable {keccak256}

theorem blockRequest_later (later : 0 < b) : blockRequest request b = .unknown :=
  if_neg (Nat.ne_of_gt later)

theorem answer_correlated_iff {service : Messaging κ}
    (identified : msg.requestId = some requestId) (pending : service.pendingRequests requestId = some request) :
    ((∀ made ∈ (service.answer keccak256 msg).events,made.2.2.2.2.event.blockHash = request.blockHash ∧
        made.2.2.2.2.event.blockNumber = request.blockNumber) ∧
      ∀ after,(service.answer keccak256 msg).outcome = .ok after → after.pendingRequests requestId = none) ↔
    msg.content.items ≠ [] ∧ (request = .unknown ∨ ¬ LaterDelivery keccak256 service.toEthWatchService msg request) := by
  constructor
  · rintro ⟨carried,closed⟩
    constructor
    · intro none
      have ran : (service.answer keccak256 msg).outcome = .ok service := by
        unfold answer
        rw [none]
        rfl
      have left := answer_pending pending identified ran
      rw [if_pos none,closed service ran] at left
      cases left
    · by_cases later : LaterDelivery keccak256 service.toEthWatchService msg request
      · obtain ⟨b,block,i,j,s,receipt,txHash,log,own,values,behind,found,quiet,delivered⟩ := later
        rw [← blockRequest_later behind] at delivered
        have made := carried _ ((mem_answer pending identified ..).mpr
          ⟨block,found,quiet,receipt,txHash,log,own,values,delivered,rfl⟩)
        rw [blockRequest_later behind] at made
        obtain ⟨hash,number⟩ := request
        obtain ⟨sameHash,sameNumber⟩ := made
        have sameHash : PendingRequest.unknown.blockHash = hash := sameHash
        have sameNumber : PendingRequest.unknown.blockNumber = number := sameNumber
        exact Or.inl (by rw [← sameHash,← sameNumber])
      · exact Or.inr later
  · rintro ⟨some,first⟩
    constructor
    · intro made member
      obtain ⟨b,i,j,s,call⟩ := made
      obtain ⟨block,found,quiet,receipt,txHash,log,own,values,delivered,rfl⟩ := (mem_answer pending identified ..).mp member
      rcases Nat.eq_zero_or_pos b with rfl | behind
      · exact ⟨rfl,rfl⟩
      · rw [blockRequest_later behind] at delivered ⊢
        rcases first with rfl | none
        · exact ⟨rfl,rfl⟩
        · exact absurd ⟨b,block,i,j,s,receipt,txHash,log,own,values,behind,found,quiet,delivered⟩ none
    · intro after ran
      rw [answer_pending pending identified ran,if_neg some]

theorem correlated_iff (service : Messaging κ) :
    Correlated keccak256 service payload ↔ AnswersOneBlock keccak256 service payload := by
  have each {msg : ReceiptsMessage} {requestId : BitVec 64} {request : PendingRequest} (decoded : service.decodeAnswer payload = .ok msg)
      (identified : msg.requestId = some requestId) (pending : service.pendingRequests requestId = some request) :
      ((∀ call,.called call ∈ (service.processMessage keccak256 kReceiptsMessageId payload).events →
        call.event.blockHash = request.blockHash ∧ call.event.blockNumber = request.blockNumber) ∧
      ∀ after,(service.processMessage keccak256 kReceiptsMessageId payload).outcome = .ok after → after.pendingRequests requestId = none) ↔
      msg.content.items ≠ [] ∧ (request = .unknown ∨ ¬ LaterDelivery keccak256 service.toEthWatchService msg request) := by
    obtain ⟨counted,watch,kept,ran⟩ := processMessage_answer keccak256 decoded
    have told (call : Call κ) : .called call ∈ ((counted.answer keccak256 msg).relabel fun made => Action.called made.2.2.2.2).events ↔
        ∃ made ∈ (counted.answer keccak256 msg).events,made.2.2.2.2 = call := by simp
    rw [ran,← watch,← answer_correlated_iff identified (kept ▸ pending)]
    constructor
    · intro correlated
      exact ⟨fun made member => correlated.1 _ ((told _).mpr ⟨made,member,rfl⟩),correlated.2⟩
    · intro correlated
      refine ⟨?_,correlated.2⟩
      intro call member
      obtain ⟨made,inside,rfl⟩ := (told call).mp member
      exact correlated.1 made inside
  constructor
  · intro correlated msg requestId request decoded identified pending
    exact (each decoded identified pending).mp (correlated msg requestId request decoded identified pending)
  · intro single msg requestId request decoded identified pending
    exact (each decoded identified pending).mpr (single msg requestId request decoded identified pending)

end

def AtReceipts (property : Messaging κ → ByteView → Prop) (steps : List (Step κ)) : Prop :=
  ∀ before payload after service,steps = before ++ .message kReceiptsMessageId payload :: after →
    (run keccak256 .new before).outcome = .ok service → property service payload

-- In a run, the answers to pending requests are correlated if and only if each
-- of them has a first list, and nothing to report in the others.
theorem responses_correlate_iff (steps : List (Step κ)) :
    AtReceipts keccak256 (Correlated keccak256) steps ↔ AtReceipts keccak256 (AnswersOneBlock keccak256) steps := by
  constructor
  · intro correlated before payload after service spelled reached
    exact (correlated_iff ..).mp (correlated before payload after service spelled reached)
  · intro single before payload after service spelled reached
    exact (correlated_iff ..).mpr (single before payload after service spelled reached)

def requestedHash : Hash256 := List.Vector.replicate 32 0x30

def requestedBlock : PendingRequest := ⟨requestedHash,100#64⟩

def announcement : ByteView :=
  ⟨(encodeNewBlockHashes ⟨.singleton ⟨requestedHash,100#64⟩⟩).toOption.getD [],by decide +kernel⟩

def openingSteps : List (Step Unit) :=
  [.watchEvent tokenContract transferSignature ⟨[⟨.kAddress,true⟩,⟨.kAddress,true⟩,⟨.kUint,false⟩],Abi.three_params_fit⟩ () none none,
    .setSendCallback true,.message kNewBlockHashesMessageId announcement]

def requesting : Messaging Unit := (run transferKeccak .new openingSteps).outcome.toOption.getD .new

theorem requesting_reached : (run transferKeccak .new openingSteps).outcome = .ok requesting := ended_get (by decide +kernel) .new

theorem requesting_pending : requesting.pendingRequests 1#64 = some requestedBlock := by decide +kernel

def transferList : StdVector Receipt := .singleton (.withStatus true (.singleton transferLog))

def singleAnswer : ByteView := ⟨(encodeReceipts ⟨some 1#64,.singleton transferList⟩).toOption.getD [],by decide +kernel⟩

theorem single_answer_correlated :
    AtReceipts transferKeccak (Correlated transferKeccak) (openingSteps ++ [.message kReceiptsMessageId singleAnswer]) ∧
    (requesting.processMessage transferKeccak kReceiptsMessageId singleAnswer).events.length = 1 := by
  refine ⟨(responses_correlate_iff transferKeccak _).mpr ?_,by decide +kernel⟩
  intro before payload after service spelled reached
  have position : before = openingSteps ∧ payload = singleAnswer := by
    rcases before with _ | ⟨watch,_ | ⟨send,_ | ⟨announced,_ | ⟨answered,rest⟩⟩⟩⟩ <;>
      simp [openingSteps,kNewBlockHashesMessageId,kReceiptsMessageId] at spelled ⊢
    obtain ⟨rfl,rfl,rfl,rfl,_⟩ := spelled
    exact ⟨⟨rfl,rfl,rfl⟩,rfl⟩
  obtain ⟨rfl,rfl⟩ := position
  cases requesting_reached.symm.trans reached
  intro msg requestId request decoded identified pending
  have read : requesting.decodeAnswer singleAnswer = .ok ⟨some 1#64,.singleton transferList⟩ := by decide +kernel
  cases read.symm.trans decoded
  refine ⟨List.cons_ne_nil _ _,Or.inr ?_⟩
  rintro ⟨b,block,_,_,_,_,_,_,_,_,behind,found,_⟩
  cases b with
  | zero => exact Nat.lt_irrefl 0 behind
  | succ b => cases found

def emptyAnswer : ByteView := ⟨[0xC2,0x01,0xC0],by decide⟩

def doubleAnswer : ByteView := ⟨(encodeReceipts ⟨some 1#64,⟨[transferList,transferList],by decide⟩⟩).toOption.getD [],by decide +kernel⟩

-- An answer without lists leaves its request pending, and the second list of an
-- answer is reported under block 0.
theorem answers_not_correlated :
    ¬ AtReceipts transferKeccak (Correlated transferKeccak) (openingSteps ++ [.message kReceiptsMessageId emptyAnswer]) ∧
    ¬ AtReceipts transferKeccak (Correlated transferKeccak) (openingSteps ++ [.message kReceiptsMessageId doubleAnswer]) := by
  constructor
  · intro correlated
    have closed := (correlated openingSteps emptyAnswer [] requesting rfl requesting_reached ⟨some 1#64,.empty⟩ 1#64 requestedBlock
      (by decide +kernel) rfl requesting_pending).2 _ (ended_get (by decide +kernel) .new)
    exact absurd closed (by decide +kernel)
  · intro correlated
    have carried := (correlated openingSteps doubleAnswer [] requesting rfl requesting_reached
      ⟨some 1#64,⟨[transferList,transferList],by decide⟩⟩ 1#64 requestedBlock (by decide +kernel) rfl requesting_pending).1
    have second : (requesting.processMessage transferKeccak kReceiptsMessageId doubleAnswer).events.any (fun
        | .called call => call.event.blockNumber = 0#64
        | .sent _ _ => false) = true := by decide +kernel
    obtain ⟨action,made,unnumbered⟩ := List.any_eq_true.mp second
    cases action with
    | sent messageId payload => cases unnumbered
    | called call =>
      have number := (carried call made).2
      rw [of_decide_eq_true unnumbered] at number
      exact absurd number (by decide)

end Messaging
end EvmRelay.EthWatchService
