import EvmRelay.ReceiptSourceBridge
import EvmRelay.Tickets

namespace EvmRelay
open Tickets EthWatchService

structure Registration.Fits (keccak256 : List UInt8 → Hash256) (own : Registration κ) (log : LogEntry) (blockNumber : BitVec 64) :
    Prop where
  notBefore : ∀ first,own.fromBlock = some first → first ≤ blockNumber
  notAfter : ∀ last,own.toBlock = some last → blockNumber ≤ last
  emitter : own.contractAddress = FixedBytes.zeros 20 ∨ log.address = own.contractAddress
  topic : log.topics.items[0]? = some (Abi.eventSignatureHash keccak256 own.eventSignature)

theorem matchesTopics_single (topics : List Hash256) (wanted : Hash256) :
    EventFilter.matchesTopics topics 0 [some wanted] = true ↔ topics[0]? = some wanted := by
  rw [EventFilter.matchesTopics]
  cases topics[0]? with
  | none => simp
  | some topic =>
    by_cases same : topic = wanted
    · simp [same,EventFilter.matchesTopics]
    · simp [same]

theorem filter_matches (own : Registration κ) (blockNumber : BitVec 64) :
    (own.filter keccak256).matchesLog log blockNumber = true ↔ own.Fits keccak256 log blockNumber := by
  have lower : ((own.filter keccak256).fromBlock.any fun first => decide (blockNumber < first)) = false ↔
      ∀ first,own.fromBlock = some first → first ≤ blockNumber := by
    show (own.fromBlock.any _) = false ↔ _
    cases own.fromBlock <;> simp
  have upper : ((own.filter keccak256).toBlock.any fun last => decide (blockNumber > last)) = false ↔
      ∀ last,own.toBlock = some last → blockNumber ≤ last := by
    show (own.toBlock.any _) = false ↔ _
    cases own.toBlock <;> simp
  have emitter : ¬ ((own.filter keccak256).addresses ≠ [] ∧ log.address ∉ (own.filter keccak256).addresses) ↔
      own.contractAddress = FixedBytes.zeros 20 ∨ log.address = own.contractAddress := by
    by_cases any : own.contractAddress = FixedBytes.zeros 20
    · simp [Registration.filter,makeEventFilter,any]
    · simp [Registration.filter,makeEventFilter,any]
  have topic := matchesTopics_single log.topics.items (Abi.eventSignatureHash keccak256 own.eventSignature)
  constructor
  · intro fits
    unfold EventFilter.matchesLog at fits
    split at fits
    · cases fits
    rename_i first
    split at fits
    · cases fits
    · rename_i last
      split at fits
      · cases fits
      · rename_i listed
        exact ⟨lower.mp (Bool.eq_false_iff.mpr first),upper.mp (Bool.eq_false_iff.mpr last),emitter.mp listed,topic.mp fits⟩
  · intro fits
    unfold EventFilter.matchesLog
    rw [if_neg (Bool.eq_false_iff.mp (lower.mpr fits.notBefore)),if_neg (Bool.eq_false_iff.mp (upper.mpr fits.notAfter)),
      if_neg (emitter.mpr fits.emitter)]
    exact topic.mpr fits.topic

namespace EthReceiptSourceBridge
open Emitting (ByRound)

def Operation.change : Operation κ → Option (Change 32 (Registration κ))
  | .watchEvent own => some (.issue own)
  | .unwatch id => some (.revoke id)
  | .serviceWatchEvent own => some (.issue own)
  | .serviceUnwatch id => some (.revoke id)
  | .processReceipts _ => none
  | .addFilter _ => none
  | .removeFilter _ => none

def changes (operations : List (Operation κ)) : List (Change 32 (Registration κ)) := operations.filterMap Operation.change

def live (operations : List (Operation κ)) : Tickets (Registration κ) := replay (changes operations)

section keccak
variable (keccak256 : List UInt8 → Hash256)

-- Log j of receipt i comes up for the s-th live registration, which it fits.
structure Seen (live : List (Nat × Registration κ)) (batch : ReceiptBatch) (i j s : Nat) (own : Registration κ) (event : MatchedEvent) :
    Prop where
  registered : ∃ n,live[s]? = some (n,own)
  listed : ∃ receipt,batch.receipts.items[i]? = some receipt ∧ receipt.logs.items[j]? = some event.log
  transaction : batch.txHashes.items[i]? = some event.txHash
  number : event.blockNumber = batch.blockNumber
  hash : event.blockHash = batch.blockHash
  index : event.logIndex = firstIndex batch i + BitVec.ofNat 32 j
  fits : own.Fits keccak256 event.log batch.blockNumber

def DueIn (live : List (Nat × Registration κ)) (batch : ReceiptBatch) : Nat × Nat × Nat × Call κ → Prop
  | (i,j,s,call) => ∃ own,Seen keccak256 live batch i j s own call.event ∧
    Abi.decodeLog keccak256 call.event.log own.eventSignature own.params = .ok call.values ∧ call.callback = own.callback

def LeavesIn (live : List (Nat × Registration κ)) (batch : ReceiptBatch) : Nat × Nat × Nat → Prop
  | (i,j,s) => ∃ own event,Seen keccak256 live batch i j s own event ∧
    Abi.decodeLog keccak256 event.log own.eventSignature own.params = .error .outOfBounds

def EarlierIn : Nat × Nat × Nat → Nat × Nat × Nat × Call κ → Prop := ByRound (ByRound fun s made => s < made.1)

def Due (operations : List (Operation κ)) : Nat × Nat × Nat × Nat × Call κ → Prop
  | (k,made) => ∃ batch,operations[k]? = some (.processReceipts batch) ∧ DueIn keccak256 (live (operations.take k)).entries batch made

def Leaves (operations : List (Operation κ)) : Nat × Nat × Nat × Nat → Prop
  | (k,place) => ∃ batch,operations[k]? = some (.processReceipts batch) ∧ LeavesIn keccak256 (live (operations.take k)).entries batch place

def Earlier : Nat × Nat × Nat × Nat → Nat × Nat × Nat × Nat × Call κ → Prop := ByRound EarlierIn

def subscribed (entry : Nat × Registration κ) : EthWatchService.Subscription κ :=
  ⟨ticket 32 entry.1,entry.2.eventSignature,entry.2.params,entry.2.callback⟩

def watched (entry : Nat × Registration κ) : EventWatcher.Subscription WatchId :=
  ⟨ticket 32 entry.1,entry.2.filter keccak256,ticket 32 entry.1⟩

-- The service's ids and those the watcher gives out on its own are the same.
structure Lockstep (live : Tickets (Registration κ)) (service : EthWatchService κ) : Prop where
  subscriptions : service.subscriptions = live.entries.map subscribed
  watching : service.watcher.subscriptions = live.entries.map (watched keccak256)
  nextId : service.nextId = ticket 32 live.issued
  watcherNextId : service.watcher.nextId = ticket 32 live.issued

end keccak

section service
variable {service : EthWatchService κ} {batch : ReceiptBatch}
  {i j s n : Nat}

theorem new_lockstep : Lockstep keccak256 (empty : Tickets (Registration κ)) .new := ⟨rfl,rfl,rfl,rfl⟩

variable (lockstep : Lockstep keccak256 tickets service)
include lockstep

theorem Lockstep.register (own : Registration κ) :
    Lockstep keccak256 (tickets.issue own) (service.register keccak256 own).2 := by
  obtain ⟨subscriptions,watching,nextId,watcherNextId⟩ := lockstep
  refine ⟨?_,?_,?_,?_⟩
  · show service.subscriptions ++ [⟨service.nextId,_,_,_⟩] = _
    rw [issue_entries,List.map_append,subscriptions,nextId]
    rfl
  · show service.watcher.subscriptions ++ [⟨service.watcher.nextId,_,service.nextId⟩] = _
    rw [issue_entries,List.map_append,watching,nextId,watcherNextId]
    rfl
  · show service.nextId + 1#32 = _
    rw [nextId]
    exact (ticket_succ 32).symm
  · show service.watcher.nextId + 1#32 = _
    rw [watcherNextId]
    exact (ticket_succ 32).symm

theorem Lockstep.unwatch (id : WatchId) :
    Lockstep keccak256 (tickets.revoke id) (service.unwatch id) := by
  obtain ⟨subscriptions,watching,nextId,watcherNextId⟩ := lockstep
  refine ⟨?_,?_,nextId,watcherNextId⟩
  · show service.subscriptions.filter _ = _
    rw [subscriptions,List.filter_map]
    rfl
  · show service.watcher.subscriptions.filter _ = _
    rw [watching,List.filter_map]
    rfl

theorem Lockstep.processed (ran : (service.processReceipts keccak256 batch).outcome = .ok after) :
    Lockstep keccak256 tickets after := by
  obtain ⟨_,_,ended⟩ := Emitting.outcome_bind.mp ran
  cases ended
  exact ⟨lockstep.subscriptions,lockstep.watching,lockstep.nextId,lockstep.watcherNextId⟩

theorem Lockstep.watched_at :
    service.watcher.subscriptions[s]? = some sub ↔ ∃ entry,tickets.entries[s]? = some entry ∧ watched keccak256 entry = sub := by
  rw [lockstep.watching,List.getElem?_map,Option.map_eq_some_iff]

variable (few : tickets.issued ≤ 2 ^ 32)
include few

theorem Lockstep.find_own (member : (n,own) ∈ tickets.entries) : service.find (ticket 32 n) = some (subscribed (n,own)) := by
  rw [EthWatchService.find,lockstep.subscriptions,List.find?_map]
  exact congrArg (Option.map subscribed) (Tickets.find_own few member)

section places
variable (receiptFound : batch.receipts.items[i]? = some receipt) (txFound : batch.txHashes.items[i]? = some txHash)
include receiptFound txFound

theorem passes_at (logFound : receipt.logs.items[j]? = some log) (found : tickets.entries[s]? = some entry) :
    EventWatcher.Passes (service.StaysInside keccak256) batch.blockNumber log (watched keccak256 entry) ↔
      ¬ LeavesIn keccak256 tickets.entries batch (i,j,s) := by
  obtain ⟨n,own⟩ := entry
  have lookup := lockstep.find_own few (List.mem_of_getElem? found)
  constructor
  · rintro passes ⟨other,event,seen,left⟩
    obtain ⟨m,registered⟩ := seen.registered
    cases Option.some.inj (found.symm.trans registered)
    obtain ⟨_,same,listed⟩ := seen.listed
    cases Option.some.inj (receiptFound.symm.trans same)
    cases Option.some.inj (logFound.symm.trans listed)
    exact passes ((filter_matches ..).mpr seen.fits) _ lookup left
  · intro stays fits sub found' left
    cases Option.some.inj (lookup.symm.trans found')
    exact stays ⟨own,⟨log,batch.blockNumber,batch.blockHash,txHash,firstIndex batch i + BitVec.ofNat 32 j⟩,
      ⟨⟨n,found⟩,⟨receipt,receiptFound,logFound⟩,txFound,rfl,rfl,rfl,(filter_matches ..).mp fits⟩,left⟩

theorem quiet_at (logFound : receipt.logs.items[j]? = some log) :
    service.watcher.Quiet (service.StaysInside keccak256) batch.blockNumber log ↔
      ∀ s,¬ LeavesIn keccak256 tickets.entries batch (i,j,s) := by
  constructor
  · intro quiet s leaves
    obtain ⟨own,event,seen,_⟩ := id leaves
    obtain ⟨n,found⟩ := seen.registered
    have member := List.mem_of_getElem? (lockstep.watched_at.mpr ⟨_,found,rfl⟩)
    exact (passes_at lockstep few receiptFound txFound logFound found).mp (quiet _ member) leaves
  · intro stays sub member
    obtain ⟨s,subFound⟩ := List.mem_iff_getElem?.mp member
    obtain ⟨entry,found,rfl⟩ := lockstep.watched_at.mp subFound
    exact (passes_at lockstep few receiptFound txFound logFound found).mpr (stays s)

theorem quietReceipt_at : service.QuietReceipt keccak256 batch receipt ↔ ∀ j s,¬ LeavesIn keccak256 tickets.entries batch (i,j,s) := by
  constructor
  · intro quiet j s leaves
    obtain ⟨own,event,seen,_⟩ := id leaves
    obtain ⟨_,same,logFound⟩ := seen.listed
    cases Option.some.inj (receiptFound.symm.trans same)
    exact (quiet_at lockstep few receiptFound txFound logFound).mp (quiet _ (List.mem_of_getElem? logFound)) s leaves
  · intro stays log member
    obtain ⟨j,logFound⟩ := List.mem_iff_getElem?.mp member
    exact (quiet_at lockstep few receiptFound txFound logFound).mpr (stays j)

theorem before_at (logFound : receipt.logs.items[j]? = some log) (call : Call κ) :
    ((∀ earlier ∈ batch.receipts.items.take i,service.QuietReceipt keccak256 batch earlier) ∧
      (∀ earlier ∈ receipt.logs.items.take j,service.watcher.Quiet (service.StaysInside keccak256) batch.blockNumber earlier) ∧
      ∀ earlier ∈ service.watcher.subscriptions.take s,
        EventWatcher.Passes (service.StaysInside keccak256) batch.blockNumber log earlier) ↔
      ∀ place,EarlierIn place (i,j,s,call) → ¬ LeavesIn keccak256 tickets.entries batch place := by
  simp only [Emitting.forall_mem_take]
  constructor
  · rintro ⟨receipts,logs,subs⟩ ⟨i',j',s'⟩ earlier leaves
    obtain ⟨_,event,seen,_⟩ := id leaves
    obtain ⟨receipt',receiptFound',logFound'⟩ := seen.listed
    rcases earlier with before | ⟨rfl,before | ⟨rfl,before⟩⟩
    · have quiet := receipts i' receipt' before receiptFound'
      exact (quietReceipt_at lockstep few receiptFound' seen.transaction).mp quiet j' s' leaves
    · cases Option.some.inj (receiptFound.symm.trans receiptFound')
      exact (quiet_at lockstep few receiptFound txFound logFound').mp (logs j' event.log before logFound') s' leaves
    · obtain ⟨m,registered⟩ := seen.registered
      have passes := subs s' _ before (lockstep.watched_at.mpr ⟨_,registered,rfl⟩)
      exact (passes_at lockstep few receiptFound txFound logFound registered).mp passes leaves
  · intro stays
    have inside := (List.getElem?_eq_some_iff.mp txFound).1
    refine ⟨fun i' receipt' before receiptFound' => ?_,fun j' log' before logFound' => ?_,fun s' sub before subFound => ?_⟩
    · have txFound' := List.getElem?_eq_getElem (Nat.lt_trans before inside)
      exact (quietReceipt_at lockstep few receiptFound' txFound').mpr fun j' s' => stays (i',j',s') (Or.inl before)
    · exact (quiet_at lockstep few receiptFound txFound logFound').mpr fun s' => stays (i,j',s') (Or.inr ⟨rfl,Or.inl before⟩)
    · obtain ⟨entry,found,rfl⟩ := lockstep.watched_at.mp subFound
      exact (passes_at lockstep few receiptFound txFound logFound found).mpr (stays (i,j,s') (Or.inr ⟨rfl,Or.inr ⟨rfl,before⟩⟩))

end places

theorem processReceipts_ends :
    (service.processReceipts keccak256 batch).Completes ↔ ∀ place,¬ LeavesIn keccak256 tickets.entries batch place := by
  rw [processReceipts_completes]
  constructor
  · rintro quiet ⟨i,j,s⟩ leaves
    obtain ⟨own,event,seen,_⟩ := id leaves
    obtain ⟨receipt,receiptFound,_⟩ := seen.listed
    have member := List.mem_of_getElem? (List.getElem?_zip_eq_some (z := (receipt,event.txHash)) |>.mpr ⟨receiptFound,seen.transaction⟩)
    exact (quietReceipt_at lockstep few receiptFound seen.transaction).mp (quiet _ member) j s leaves
  · rintro stays ⟨receipt,txHash⟩ member
    obtain ⟨i,found⟩ := List.mem_iff_getElem?.mp member
    obtain ⟨receiptFound,txFound⟩ := List.getElem?_zip_eq_some.mp found
    exact (quietReceipt_at lockstep few receiptFound txFound).mpr fun j s => stays (i,j,s)

theorem mem_processed :
    made ∈ (service.processReceipts keccak256 batch).events ↔
      DueIn keccak256 tickets.entries batch made ∧ ∀ place,EarlierIn place made → ¬ LeavesIn keccak256 tickets.entries batch place := by
  obtain ⟨i,j,s,call⟩ := made
  rw [mem_processReceipts]
  constructor
  · rintro ⟨receipt,txHash,log,_,values,delivered,rfl⟩
    obtain ⟨_,subFound,fits,lookup⟩ := delivered.subFound
    obtain ⟨⟨n,own⟩,found,rfl⟩ := lockstep.watched_at.mp subFound
    cases Option.some.inj ((lockstep.find_own few (List.mem_of_getElem? found)).symm.trans lookup)
    refine ⟨⟨own,⟨⟨n,found⟩,⟨receipt,delivered.receiptFound,delivered.logFound⟩,delivered.txFound,rfl,rfl,rfl,
      (filter_matches ..).mp fits⟩,delivered.decoded,rfl⟩,?_⟩
    exact (before_at lockstep few delivered.receiptFound delivered.txFound delivered.logFound _).mp
      ⟨delivered.receiptsBefore,delivered.logsBefore,delivered.subsBefore⟩
  · rintro ⟨⟨own,seen,decoded,callback⟩,stays⟩
    obtain ⟨n,found⟩ := seen.registered
    obtain ⟨receipt,receiptFound,logFound⟩ := seen.listed
    obtain ⟨receipts,logs,subs⟩ := (before_at lockstep few receiptFound seen.transaction logFound call).mpr stays
    refine ⟨receipt,call.event.txHash,call.event.log,subscribed (n,own),call.values,⟨receiptFound,seen.transaction,receipts,logFound,logs,
      ⟨_,lockstep.watched_at.mpr ⟨_,found,rfl⟩,(filter_matches ..).mpr seen.fits,lockstep.find_own few (List.mem_of_getElem? found)⟩,
      subs,decoded⟩,?_⟩
    obtain ⟨_,⟨_,_,_,_,_⟩,_⟩ := call
    obtain ⟨_,_,_,rfl,rfl,rfl,_⟩ := seen
    cases callback
    rfl

end service

-- Within a batch the calls are made receipt by receipt, log by log and registration by
-- registration, one at most for each.
section order
variable (keccak256 : List UInt8 → Hash256)

theorem onMatched_once (service : EthWatchService κ) (id : WatchId) :
    (service.onMatched keccak256 id event).events.Pairwise fun _ _ => False := by
  unfold onMatched
  split
  · exact .nil
  · split
    · exact .nil
    · exact .nil
    · exact List.pairwise_singleton _ _

theorem dispatch_ordered (service : EthWatchService κ) :
    (service.watcher.dispatch (service.onMatched keccak256) event).events.Pairwise (ByRound fun _ _ => False) := by
  refine Emitting.loop_ordered (fun matched sub => ?_) ..
  unfold EventWatcher.notify
  split
  · rw [Emitting.bind_pure_events]
    exact onMatched_once ..
  · exact .nil

theorem processLogs_ordered (service : EthWatchService κ) :
    (service.watcher.processLogs (service.onMatched keccak256) origin first logs).events.Pairwise (ByRound (ByRound fun _ _ => False)) := by
  unfold EventWatcher.processLogs
  rw [Emitting.bind_pure_events]
  refine Emitting.loop_ordered (fun state log => ?_) ..
  unfold EventWatcher.processLog
  rw [Emitting.bind_pure_events]
  exact dispatch_ordered ..

theorem processReceipts_ordered (service : EthWatchService κ) :
    (service.processReceipts keccak256 batch).events.Pairwise (ByRound (ByRound (ByRound fun _ _ => False))) := by
  unfold processReceipts
  rw [Emitting.bind_pure_events]
  refine Emitting.loop_ordered (fun progress item => ?_) 0 _
  unfold processOne
  rw [Emitting.bind_pure_events]
  exact processLogs_ordered ..

theorem perform_cases (bridge : EthReceiptSourceBridge κ) (operation : Operation κ) :
    (∃ batch,operation = .processReceipts batch) ∨
      (∀ batch,operation ≠ .processReceipts batch) ∧ ∃ after,bridge.perform keccak256 operation = pure after := by
  cases operation with
  | processReceipts batch => exact Or.inl ⟨batch,rfl⟩
  | _ => exact Or.inr ⟨nofun,_,rfl⟩

def InOrder : Nat × Nat × Nat × Nat × Call κ → Nat × Nat × Nat × Nat × Call κ → Prop :=
  ByRound (ByRound (ByRound (ByRound fun _ _ => False)))

theorem run_ordered (bridge : EthReceiptSourceBridge κ) (operations : List (Operation κ)) :
    (bridge.run keccak256 operations).events.Pairwise InOrder := by
  refine Emitting.loop_ordered (fun bridge operation => ?_) ..
  rcases perform_cases keccak256 bridge operation with ⟨batch,rfl⟩ | ⟨_,after,silent⟩
  · show (bridge.processReceiptBatch keccak256 batch).events.Pairwise _
    unfold processReceiptBatch
    rw [Emitting.bind_pure_events]
    exact processReceipts_ordered ..
  · rw [silent]
    exact .nil

end order

section runs
variable {bridge : EthReceiptSourceBridge κ} {operations : List (Operation κ)}

theorem live_change (changed : operation.change = some change) :
    live (operations ++ [operation]) = (live operations).apply change := by
  rw [live,changes,List.filterMap_append,List.filterMap_cons_some changed]
  exact replay_snoc _ _

theorem live_same (unchanged : operation.change = none) : live (operations ++ [operation]) = live operations := by
  rw [live,changes,List.filterMap_append,List.filterMap_cons_none unchanged,List.filterMap_nil,List.append_nil]
  rfl

theorem unwatch_service (id : WatchId) : (bridge.unwatch id).service = bridge.service.unwatch id := by
  unfold unwatch
  split <;> rfl

theorem perform_lockstep (lockstep : Lockstep keccak256 (live operations) bridge.service)
    (ran : (bridge.perform keccak256 operation).outcome = .ok after) :
    Lockstep keccak256 (live (operations ++ [operation])) after.service := by
  cases operation with
  | watchEvent own =>
    cases ran
    rw [live_change rfl]
    exact lockstep.register own
  | unwatch id =>
    cases ran
    rw [live_change rfl,unwatch_service]
    exact lockstep.unwatch id
  | serviceWatchEvent own =>
    cases ran
    rw [live_change rfl]
    exact lockstep.register own
  | serviceUnwatch id =>
    cases ran
    rw [live_change rfl]
    exact lockstep.unwatch id
  | processReceipts batch =>
    obtain ⟨service,processed,ended⟩ := Emitting.outcome_bind.mp ran
    cases ended
    rw [live_same rfl]
    exact lockstep.processed processed
  | _ =>
    cases ran
    rw [live_same rfl]
    exact lockstep

def registered (operations : List (Operation κ)) : Nat := (changes operations).countP isIssue

theorem live_issued (operations : List (Operation κ)) : (live operations).issued = registered operations := replay_issued _

theorem registered_take (operations : List (Operation κ)) (k : Nat) : registered (operations.take k) ≤ registered operations :=
  ((List.take_sublist k operations).filterMap _).countP_le

theorem take_lockstep (found : operations[k]? = some operation)
    (lockstep : Lockstep keccak256 (live (operations.take k)) bridge.service)
    (ran : (bridge.perform keccak256 operation).outcome = .ok after) :
    Lockstep keccak256 (live (operations.take (k + 1))) after.service := by
  rw [List.take_add_one,found]
  exact perform_lockstep lockstep ran

theorem perform_completes (lockstep : Lockstep keccak256 tickets bridge.service) (few : tickets.issued ≤ 2 ^ 32) :
    (bridge.perform keccak256 operation).Completes ↔
      ∀ batch place,operation = .processReceipts batch → ¬ LeavesIn keccak256 tickets.entries batch place := by
  rcases perform_cases keccak256 bridge operation with ⟨batch,rfl⟩ | ⟨other,after,silent⟩
  · show (bridge.processReceiptBatch keccak256 batch).Completes ↔ _
    unfold processReceiptBatch
    rw [Emitting.bind_pure_completes,processReceipts_ends lockstep few]
    refine ⟨fun stays other place same => ?_,fun stays place => stays batch place rfl⟩
    cases same
    exact stays place
  · rw [silent]
    exact ⟨fun _ batch _ same => absurd same (other batch),fun _ => ⟨after,rfl⟩⟩

theorem mem_perform (made : Nat × Nat × Nat × Call κ) : made ∈ (bridge.perform keccak256 operation).events ↔
      ∃ batch,operation = .processReceipts batch ∧ made ∈ (bridge.service.processReceipts keccak256 batch).events := by
  rcases perform_cases keccak256 bridge operation with ⟨batch,rfl⟩ | ⟨other,after,silent⟩
  · show made ∈ (bridge.processReceiptBatch keccak256 batch).events ↔ _
    unfold processReceiptBatch
    rw [Emitting.mem_bind_pure]
    refine ⟨fun member => ⟨batch,rfl,member⟩,fun member => ?_⟩
    obtain ⟨_,same,member⟩ := member
    cases same
    exact member
  · rw [silent]
    exact ⟨fun member => absurd member List.not_mem_nil,fun ⟨batch,same,_⟩ => absurd same (other batch)⟩

theorem mem_run (start : Lockstep keccak256 empty bridge.service) (few : registered operations ≤ 2 ^ 32)
    (made : Nat × Nat × Nat × Nat × Call κ) : made ∈ (bridge.run keccak256 operations).events ↔
      Due keccak256 operations made ∧ ∀ place,Earlier place made → ¬ Leaves keccak256 operations place := by
  obtain ⟨k,made⟩ := made
  have small (k : Nat) : (live (operations.take k)).issued ≤ 2 ^ 32 := by
    rw [live_issued]
    exact Nat.le_trans (registered_take operations k) few
  unfold run
  rw [Emitting.mem_loop_at
    (fun k (operation : Operation κ) => ∀ batch place,operation = .processReceipts batch →
      ¬ LeavesIn keccak256 (live (operations.take k)).entries batch place)
    (fun k (bridge : EthReceiptSourceBridge κ) => Lockstep keccak256 (live (operations.take k)) bridge.service)
    (fun k (operation : Operation κ) made => ∃ batch,operation = .processReceipts batch ∧
      DueIn keccak256 (live (operations.take k)).entries batch made ∧
      ∀ place,EarlierIn place made → ¬ LeavesIn keccak256 (live (operations.take k)).entries batch place)
    (fun k bridge operation lockstep => perform_completes lockstep (small k)) start
    (fun k before operation after found lockstep ran => take_lockstep found lockstep ran) ?_]
  · constructor
    · rintro ⟨_,found,before,batch,rfl,due,stays⟩
      refine ⟨⟨batch,found,due⟩,?_⟩
      rintro ⟨k',place⟩ (earlier | ⟨rfl,earlier⟩) ⟨batch',found',leaves⟩
      · exact before k' _ earlier found' batch' place rfl leaves
      · cases Option.some.inj (found.symm.trans found')
        exact stays place earlier leaves
    · rintro ⟨⟨batch,found,due⟩,stays⟩
      refine ⟨_,found,?_,batch,rfl,due,?_⟩
      · rintro k' _ earlier found' batch' place rfl leaves
        exact stays (k',place) (Or.inl earlier) ⟨batch',found',leaves⟩
      · intro place earlier leaves
        exact stays (k,place) (Or.inr ⟨rfl,earlier⟩) ⟨batch,found,leaves⟩
  · intro k bridge operation made lockstep
    rw [mem_perform]
    simp only [mem_processed lockstep (small k)]

end runs
end EthReceiptSourceBridge
end EvmRelay
