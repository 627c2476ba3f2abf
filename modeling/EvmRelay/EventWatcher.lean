import EvmRelay.Emitting
import EvmRelay.Objects

namespace EvmRelay

structure EventFilter where
  addresses : List Address
  topics : List (Option Hash256)
  fromBlock : Option (BitVec 64)
  toBlock : Option (BitVec 64)
  deriving DecidableEq

-- The topic loop: a wildcard fits any value and no value.
def EventFilter.matchesTopics (logTopics : List Hash256) : Nat → List (Option Hash256) → Bool
  | _,[] => true
  | i,none :: rest => matchesTopics logTopics (i + 1) rest
  | i,some wanted :: rest =>
    match logTopics[i]? with
    | none => false
    | some topic => if topic ≠ wanted then false else matchesTopics logTopics (i + 1) rest

def EventFilter.matchesLog (filter : EventFilter) (log : LogEntry) (block : BitVec 64) : Bool :=
  if filter.fromBlock.any (fun first => decide (block < first)) then false
  else if filter.toBlock.any (fun last => decide (block > last)) then false
  else if filter.addresses ≠ [] ∧ log.address ∉ filter.addresses then false
  else matchesTopics log.topics.items 0 filter.topics

structure MatchedEvent where
  log : LogEntry
  blockNumber : BitVec 64
  blockHash : Hash256
  txHash : Hash256
  logIndex : BitVec 32
  deriving DecidableEq

abbrev WatchId := BitVec 32

structure EventWatcher.Subscription (κ : Type) where
  id : WatchId
  filter : EventFilter
  callback : κ

structure EventWatcher (κ : Type) where
  subscriptions : List (EventWatcher.Subscription κ)
  nextId : WatchId

namespace EventWatcher

def new : EventWatcher κ := ⟨[],1#32⟩

def watch (watcher : EventWatcher κ) (filter : EventFilter) (callback : κ) : WatchId × EventWatcher κ :=
  (watcher.nextId,⟨watcher.subscriptions ++ [⟨watcher.nextId,filter,callback⟩],watcher.nextId + 1#32⟩)

def unwatch (watcher : EventWatcher κ) (id : WatchId) : EventWatcher κ :=
  { watcher with subscriptions := watcher.subscriptions.filter (fun sub => decide (sub.id ≠ id)) }

-- One round over the subscriptions; the accumulator is the flag "matched".
def notify (invoke : κ → MatchedEvent → Emitting ε τ Unit) (event : MatchedEvent) (matched : Bool)
    (sub : Subscription κ) : Emitting ε τ Bool :=
  if sub.filter.matchesLog event.log event.blockNumber then do
    invoke sub.callback event
    return true
  else return matched

def dispatch (watcher : EventWatcher κ) (invoke : κ → MatchedEvent → Emitting ε τ Unit) (event : MatchedEvent) :
    Emitting ε (Nat × τ) Bool :=
  Emitting.loop (notify invoke event) 0 false watcher.subscriptions

structure Origin where
  txHash : Hash256
  blockNumber : BitVec 64
  blockHash : Hash256

def Origin.event (origin : Origin) (log : LogEntry) (logIndex : BitVec 32) : MatchedEvent :=
  ⟨log,origin.blockNumber,origin.blockHash,origin.txHash,logIndex⟩

-- One round over the logs; the accumulator is log_index and matched_logs.
def processLog (watcher : EventWatcher κ) (invoke : κ → MatchedEvent → Emitting ε τ Unit) (origin : Origin)
    (state : BitVec 32 × Nat) (log : LogEntry) : Emitting ε (Nat × τ) (BitVec 32 × Nat) := do
  let matched ← watcher.dispatch invoke (origin.event log state.1)
  return (state.1 + 1#32,if matched then state.2 + 1 else state.2)

def processLogs (watcher : EventWatcher κ) (invoke : κ → MatchedEvent → Emitting ε τ Unit) (origin : Origin)
    (firstLogIndex : BitVec 32) (logs : List LogEntry) : Emitting ε (Nat × Nat × τ) Nat := do
  let state ← Emitting.loop (watcher.processLog invoke origin) 0 (firstLogIndex,0) logs
  return state.2

def processReceipt (watcher : EventWatcher κ) (invoke : κ → MatchedEvent → Emitting ε τ Unit) (receipt : Receipt)
    (txHash : Hash256) (blockNumber : BitVec 64) (blockHash : Hash256) (firstLogIndex : BitVec 32) :
    Emitting ε (Nat × Nat × τ) Nat :=
  watcher.processLogs invoke ⟨txHash,blockNumber,blockHash⟩ firstLogIndex receipt.logs.items

section dispatching
variable {invoke : κ → MatchedEvent → Emitting ε τ Unit} {ends : κ → LogEntry → Prop}
  (callback_ends : ∀ callback event,(invoke callback event).Completes ↔ ends callback event.log)

def Passes (ends : κ → LogEntry → Prop) (blockNumber : BitVec 64) (log : LogEntry) (sub : Subscription κ) : Prop :=
  sub.filter.matchesLog log blockNumber → ends sub.callback log

def Quiet (watcher : EventWatcher κ) (ends : κ → LogEntry → Prop) (blockNumber : BitVec 64) (log : LogEntry) : Prop :=
  ∀ sub ∈ watcher.subscriptions,Passes ends blockNumber log sub

include callback_ends

theorem notify_completes (event : MatchedEvent) (matched : Bool) (sub : Subscription κ) :
    (notify invoke event matched sub).Completes ↔ Passes ends event.blockNumber event.log sub := by
  unfold notify Passes
  split_ifs with fits
  · simp [fits,callback_ends]
  · simp [fits]

theorem dispatch_completes (watcher : EventWatcher κ) (event : MatchedEvent) :
    (watcher.dispatch invoke event).Completes ↔ watcher.Quiet ends event.blockNumber event.log :=
  Emitting.loop_completes _ (notify_completes callback_ends event)

omit callback_ends in
theorem mem_notify (event : MatchedEvent) (matched : Bool) (sub : Subscription κ) (emitted : τ) :
    emitted ∈ (notify invoke event matched sub).events ↔
      sub.filter.matchesLog event.log event.blockNumber ∧ emitted ∈ (invoke sub.callback event).events := by
  unfold notify
  split_ifs with fits
  · simp [fits,Emitting.mem_bind]
  · simp [fits]

theorem mem_dispatch (watcher : EventWatcher κ) (event : MatchedEvent) (s : Nat) (emitted : τ) :
    (s,emitted) ∈ (watcher.dispatch invoke event).events ↔ ∃ sub,watcher.subscriptions[s]? = some sub ∧
        (∀ earlier ∈ watcher.subscriptions.take s,Passes ends event.blockNumber event.log earlier) ∧
        sub.filter.matchesLog event.log event.blockNumber ∧ emitted ∈ (invoke sub.callback event).events :=
  Emitting.mem_loop_iff _ (fun _ _ => True)
    (fun _ sub emitted => sub.filter.matchesLog event.log event.blockNumber ∧
      emitted ∈ (invoke sub.callback event).events)
    (notify_completes callback_ends event) trivial (fun _ _ _ _ _ _ _ => trivial)
    (fun _ matched sub emitted _ => mem_notify event matched sub emitted)

theorem processLog_completes (watcher : EventWatcher κ) (origin : Origin) (state : BitVec 32 × Nat) (log : LogEntry) :
    (watcher.processLog invoke origin state log).Completes ↔ watcher.Quiet ends origin.blockNumber log :=
  (Emitting.bind_pure_completes _).trans (dispatch_completes callback_ends watcher (origin.event log state.1))

theorem processLogs_completes (watcher : EventWatcher κ) (origin : Origin) (first : BitVec 32) (logs : List LogEntry) :
    (watcher.processLogs invoke origin first logs).Completes ↔ ∀ log ∈ logs,watcher.Quiet ends origin.blockNumber log :=
  (Emitting.bind_pure_completes _).trans
    (Emitting.loop_completes _ (processLog_completes callback_ends watcher origin))

omit callback_ends in
theorem processLog_index (watcher : EventWatcher κ) (origin : Origin) (before after : BitVec 32 × Nat) (log : LogEntry)
    (ran : (watcher.processLog invoke origin before log).outcome = .ok after) : after.1 = before.1 + 1#32 := by
  obtain ⟨_,_,ended⟩ := Emitting.outcome_bind.mp ran
  cases ended
  rfl

theorem mem_processLogs (watcher : EventWatcher κ) (origin : Origin) (first : BitVec 32) (logs : List LogEntry)
    (j s : Nat) (emitted : τ) : (j,s,emitted) ∈ (watcher.processLogs invoke origin first logs).events ↔
      ∃ log,logs[j]? = some log ∧ (∀ earlier ∈ logs.take j,watcher.Quiet ends origin.blockNumber earlier) ∧
        ∃ sub,watcher.subscriptions[s]? = some sub ∧
          (∀ earlier ∈ watcher.subscriptions.take s,Passes ends origin.blockNumber log earlier) ∧
          sub.filter.matchesLog log origin.blockNumber ∧
          emitted ∈ (invoke sub.callback (origin.event log (first + BitVec.ofNat 32 j))).events := by
  unfold processLogs
  rw [Emitting.mem_bind_pure,Emitting.mem_loop_iff (watcher.Quiet ends origin.blockNumber)
    (fun k (state : BitVec 32 × Nat) => state.1 = first + BitVec.ofNat 32 k)
    (fun k log emitted => emitted ∈ (watcher.dispatch invoke (origin.event log (first + BitVec.ofNat 32 k))).events)
    (processLog_completes callback_ends watcher origin)]
  · simp only [mem_dispatch callback_ends]
    rfl
  · simp
  · intro k before log after _ counted ran
    rw [processLog_index watcher origin before after log ran,counted,BitVec.add_assoc,BitVec.ofNat_add]
  · intro k before log emitted counted
    rw [← counted]
    exact Emitting.mem_bind_pure _

end dispatching
end EventWatcher
end EvmRelay
