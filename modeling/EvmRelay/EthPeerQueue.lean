import EvmRelay.Discv4Client
import EvmRelay.Discv5Messages

namespace EvmRelay.Eth
open Discv4

structure EthPeerQueueConfig where
  maxPendingPeers : BitVec 64
  maxDisconnectRequeues : BitVec 64
  tooManyPeersBackoff : Int

structure EthPeerQueueStatsSnapshot where
  cachedPeerCount : BitVec 64 := 0
  discoveredPeerCount : BitVec 64 := 0
  requeuedPeerCount : BitVec 64 := 0
  duplicatePeerDropCount : BitVec 64 := 0
  capacityDropCount : BitVec 64 := 0
  flakyPeerDropCount : BitVec 64 := 0
  tooManyPeersBackoffCount : BitVec 64 := 0
  backoffDropCount : BitVec 64 := 0
  disconnectFeedbackCount : BitVec 64 := 0
  disconnectedBeforeConnectedCount : BitVec 64 := 0
  disconnectedAfterConnectedCount : BitVec 64 := 0
  tooManyPeersBeforeConnectedCount : BitVec 64 := 0
  tooManyPeersAfterConnectedCount : BitVec 64 := 0
  tcpFailureCount : BitVec 64 := 0
  timeoutCount : BitVec 64 := 0
  subprotocolErrorCount : BitVec 64 := 0
  deriving DecidableEq

structure EthPeerDisconnectFeedback where
  peer : ValidatedPeer
  reason : DisconnectReason
  wasConnected : Bool

-- The members of EthPeerQueue, its counters as the snapshot they are read in. A
-- count that is not in the map is 0.
structure EthPeerQueue (ι : Type u) where
  scheduler : Option ι
  config : EthPeerQueueConfig
  seenNodeIds : Text → Bool
  disconnectCounts : Text → BitVec 64
  backoffUntil : Text → Option TimePoint
  stats : EthPeerQueueStatsSnapshot

def EthPeerQueue.new (scheduler : Option ι) (config : EthPeerQueueConfig) : EthPeerQueue ι :=
  ⟨scheduler,config,fun _ => false,fun _ => 0,fun _ => none,{}⟩

-- The readings of the clock one offer makes: its own, and the three of the
-- scheduler's enqueue.
structure Readings where
  now : TimePoint
  expired : TimePoint
  asked : TimePoint
  added : TimePoint
  deriving DecidableEq

-- What a call of the queue answered, about which peer and, where the call was
-- about the end of a connection, for which reason and which dial.
structure Answer where
  dial : Option Nat
  peer : ValidatedPeer
  reason : Option DisconnectReason
  now : TimePoint
  accepted : Bool
  deriving DecidableEq

-- The schedulers of a pool with the queue that feeds one of them. An on_done
-- that has given its feedback and not yet called release is in releasing.
structure Feeding (ι : Type u) where
  dialing : Dialing ι
  queue : EthPeerQueue ι
  releasing : List ι
  answers : List Answer

namespace Feeding
variable [DecidableEq ι]

def new (dialing : Dialing ι) (own : ι) (config : EthPeerQueueConfig) : Feeding ι where
  dialing := dialing.put own { dialing.scheduler own with hasFeedback := true }
  queue := .new (some own) config
  releasing := []
  answers := []

def nodeKey (peer : ValidatedPeer) : Text := Discv4.nodeKey peer.peer.nodeId

def backingOff (s : Feeding ι) (peer : ValidatedPeer) (now : TimePoint) : Bool :=
  (s.queue.backoffUntil (nodeKey peer)).any (now < ·)

def Full (s : Feeding ι) (i : ι) : Prop :=
  ¬ s.dialing.Room i ∧ s.queue.config.maxPendingPeers.toNat ≤ (s.dialing.scheduler i).queue.length

instance (s : Feeding ι) (i : ι) : Decidable (s.Full i) := inferInstanceAs (Decidable (_ ∧ _))

def setStats (s : Feeding ι) (stats : EthPeerQueueStatsSnapshot) : Feeding ι := { s with queue := { s.queue with stats := stats } }

def forgetBackoff (s : Feeding ι) (peer : ValidatedPeer) : Feeding ι :=
  { s with queue := { s.queue with backoffUntil := Function.update s.queue.backoffUntil (nodeKey peer) none } }

def setSeen (s : Feeding ι) (peer : ValidatedPeer) (seen : Bool) : Feeding ι :=
  { s with queue := { s.queue with seenNodeIds := Function.update s.queue.seenNodeIds (nodeKey peer) seen } }

def enqueueCandidate (s : Feeding ι) (peer : ValidatedPeer) (allowKnownPeer : Bool) (clock : Readings) : Bool × Feeding ι :=
  if s.backingOff peer clock.now then
    (false,s.setStats { s.queue.stats with backoffDropCount := s.queue.stats.backoffDropCount + 1 })
  else
    let s := s.forgetBackoff peer
    let inserted := !s.queue.seenNodeIds (nodeKey peer)
    let s := s.setSeen peer true
    if !inserted && !allowKnownPeer then
      (false,s.setStats { s.queue.stats with duplicatePeerDropCount := s.queue.stats.duplicatePeerDropCount + 1 })
    else
      match s.queue.scheduler with
      | none => (true,s)
      | some i =>
        if s.Full i then
          let s := if inserted then s.setSeen peer false else s
          (false,s.setStats { s.queue.stats with capacityDropCount := s.queue.stats.capacityDropCount + 1 })
        else (true,{ s with dialing := s.dialing.enqueue i peer clock.expired clock.asked clock.added })

def preloadCachedPeer (s : Feeding ι) (peer : ValidatedPeer) (clock : Readings) : Bool × Feeding ι :=
  match s.enqueueCandidate peer false clock with
  | (false,s) => (false,s)
  | (true,s) => (true,s.setStats { s.queue.stats with cachedPeerCount := s.queue.stats.cachedPeerCount + 1 })

def countDiscovered : Bool × Feeding ι → Bool × Feeding ι
  | (false,s) => (false,s)
  | (true,s) => (true,s.setStats { s.queue.stats with discoveredPeerCount := s.queue.stats.discoveredPeerCount + 1 })

def discoveredCandidate (peer : DiscoveredPeer) : ValidatedPeer := ⟨peer,peer.nodeId⟩

def enqueueDiscoveredPeer (s : Feeding ι) (peer : DiscoveredPeer) (clock : Readings) : Bool × Feeding ι :=
  countDiscovered (s.enqueueCandidate (discoveredCandidate peer) false clock)

def validatedCandidate (peer : Discv5.ValidatedPeer) : ValidatedPeer :=
  ⟨⟨peer.nodeId,ascii peer.ip,peer.udpPort,peer.tcpPort,peer.ethForkId⟩,peer.nodeId⟩

def enqueueValidatedDiscoveryPeer (s : Feeding ι) (peer : Discv5.ValidatedPeer) (clock : Readings) : Bool × Feeding ι :=
  countDiscovered (s.enqueueCandidate (validatedCandidate peer) false clock)

def isRequeueableDisconnect (feedback : EthPeerDisconnectFeedback) : Bool :=
  match feedback.reason with
  | .kTcpError => feedback.wasConnected
  | .kTimeout => feedback.wasConnected
  | _ => false

-- The counters report_peer_disconnected raises before it looks at the peer.
def countDisconnect (feedback : EthPeerDisconnectFeedback) (stats : EthPeerQueueStatsSnapshot) : EthPeerQueueStatsSnapshot :=
  let stats := { stats with disconnectFeedbackCount := stats.disconnectFeedbackCount + 1 }
  let stats :=
    if feedback.wasConnected then { stats with disconnectedAfterConnectedCount := stats.disconnectedAfterConnectedCount + 1 }
    else { stats with disconnectedBeforeConnectedCount := stats.disconnectedBeforeConnectedCount + 1 }
  match feedback.reason with
  | .kTooManyPeers =>
    if feedback.wasConnected then { stats with tooManyPeersAfterConnectedCount := stats.tooManyPeersAfterConnectedCount + 1 }
    else { stats with tooManyPeersBeforeConnectedCount := stats.tooManyPeersBeforeConnectedCount + 1 }
  | .kTcpError => { stats with tcpFailureCount := stats.tcpFailureCount + 1 }
  | .kTimeout => { stats with timeoutCount := stats.timeoutCount + 1 }
  | .kSubprotocolError => { stats with subprotocolErrorCount := stats.subprotocolErrorCount + 1 }
  | _ => stats

def setBackoff (s : Feeding ι) (peer : ValidatedPeer) (deadline : TimePoint) : Feeding ι :=
  { s with queue := { s.queue with backoffUntil := Function.update s.queue.backoffUntil (nodeKey peer) (some deadline) } }

def countRequeue (s : Feeding ι) (peer : ValidatedPeer) : Feeding ι :=
  { s with queue := { s.queue with
    disconnectCounts := Function.update s.queue.disconnectCounts (nodeKey peer) (s.queue.disconnectCounts (nodeKey peer) + 1) } }

def reportPeerDisconnected (s : Feeding ι) (feedback : EthPeerDisconnectFeedback) (clock : Readings) : Bool × Feeding ι :=
  let s := s.setStats (countDisconnect feedback s.queue.stats)
  if feedback.reason = .kTooManyPeers then
    let s := s.setBackoff feedback.peer (clock.now + s.queue.config.tooManyPeersBackoff)
    (false,s.setStats { s.queue.stats with tooManyPeersBackoffCount := s.queue.stats.tooManyPeersBackoffCount + 1 })
  else if !isRequeueableDisconnect feedback then (false,s)
  else if s.queue.config.maxDisconnectRequeues ≤ s.queue.disconnectCounts (nodeKey feedback.peer) then
    (false,s.setStats { s.queue.stats with flakyPeerDropCount := s.queue.stats.flakyPeerDropCount + 1 })
  else
    match (s.countRequeue feedback.peer).enqueueCandidate feedback.peer true clock with
    | (false,s) => (false,s)
    | (true,s) => (true,s.setStats { s.queue.stats with requeuedPeerCount := s.queue.stats.requeuedPeerCount + 1 })

def noteOffer (peer : ValidatedPeer) (clock : Readings) (result : Bool × Feeding ι) : Feeding ι :=
  { result.2 with answers := result.2.answers ++ [⟨none,peer,none,clock.now,result.1⟩] }

def report (s : Feeding ι) (dial : Option Nat) (feedback : EthPeerDisconnectFeedback) (clock : Readings) : Feeding ι :=
  let result := s.reportPeerDisconnected feedback clock
  { result.2 with answers := result.2.answers ++ [⟨dial,feedback.peer,some feedback.reason,clock.now,result.1⟩] }

-- feedback_fn of the scheduler i, which is the queue's only on its own.
def feedbackFn (s : Feeding ι) (i : ι) (d : Nat) (feedback : EthPeerDisconnectFeedback) (clock : Readings) : Feeding ι :=
  if s.queue.scheduler = some i then s.report (some d) feedback clock else s

-- on_done up to its call of release. The scheduler's count of validated
-- connections, which the feedback does not look at, has gone down already.
def onDone (s : Feeding ι) (d : Nat) (reason : DisconnectReason) (clock : Readings) : Feeding ι :=
  match s.dialing.dials[d]? with
  | none => s
  | some dial =>
    let next := { s with dialing := s.dialing.report d dial reason, releasing := dial.owner :: s.releasing }
    if (s.dialing.scheduler dial.owner).hasFeedback && !dial.reported then
      next.feedbackFn dial.owner d ⟨dial.vp,reason,dial.wasValidated⟩ clock
    else next

def release (s : Feeding ι) (i : ι) (expired : TimePoint) : Feeding ι :=
  { s with dialing := s.dialing.release i expired, releasing := s.releasing.erase i }

def onDisconnect (s : Feeding ι) (d : Nat) (reason : DisconnectReason) (clock : Readings) : Feeding ι :=
  match s.dialing.dials[d]? with
  | none => s
  | some dial =>
    let next := { s with dialing := s.dialing.onDisconnect d reason }
    if (s.dialing.scheduler dial.owner).hasFeedback then next.feedbackFn dial.owner d ⟨dial.vp,reason,true⟩ clock else next

inductive Action (ι : Type u) where
  | discovered (peer : DiscoveredPeer) (clock : Readings)
  | validated (peer : Discv5.ValidatedPeer) (clock : Readings)
  | cached (peer : ValidatedPeer) (clock : Readings)
  | reported (feedback : EthPeerDisconnectFeedback) (clock : Readings)
  | done (d : Nat) (reason : DisconnectReason) (clock : Readings)
  | release (i : ι) (expired : TimePoint)
  | connected (d : Nat)
  | disconnect (d : Nat) (reason : DisconnectReason) (clock : Readings)
  | drain (asked added : TimePoint)
  | stop (i : ι)
  | enqueue (i : ι) (vp : ValidatedPeer) (expired asked added : TimePoint)

def Allowed (s : Feeding ι) : Action ι → Prop
  | .done d _ _ => ∃ dial,s.dialing.dials[d]? = some dial ∧ dial.done = false
  | .release i _ => i ∈ s.releasing
  | .connected d => ∃ dial,s.dialing.dials[d]? = some dial
  | .disconnect d _ _ => ∃ dial,s.dialing.dials[d]? = some dial ∧ dial.wasValidated = true
  | .drain .. => s.dialing.draining ≠ []
  | .enqueue i .. => s.queue.scheduler ≠ some i
  | _ => True

def apply (s : Feeding ι) : Action ι → Feeding ι
  | .discovered peer clock => noteOffer (discoveredCandidate peer) clock (s.enqueueDiscoveredPeer peer clock)
  | .validated peer clock => noteOffer (validatedCandidate peer) clock (s.enqueueValidatedDiscoveryPeer peer clock)
  | .cached peer clock => noteOffer peer clock (s.preloadCachedPeer peer clock)
  | .reported feedback clock => s.report none feedback clock
  | .done d reason clock => s.onDone d reason clock
  | .release i expired => s.release i expired
  | .connected d => { s with dialing := s.dialing.onConnected d }
  | .disconnect d reason clock => s.onDisconnect d reason clock
  | .drain asked added => { s with dialing := s.dialing.drain asked added }
  | .stop i => { s with dialing := s.dialing.stop i }
  | .enqueue i vp expired asked added => { s with dialing := s.dialing.enqueue i vp expired asked added }

def machine (ι : Type u) [DecidableEq ι] : Machine (Feeding ι) (Action ι) := ⟨Allowed,apply⟩

instance (s : Feeding ι) (action : Action ι) : Decidable ((machine ι).Allowed s action) :=
  match action with
  | .done d _ _ => decidable_of_iff (s.dialing.dials[d]?.any (fun dial => decide (dial.done = false)) = true) Dialing.any_some_iff
  | .release i _ => inferInstanceAs (Decidable (i ∈ s.releasing))
  | .connected d => decidable_of_iff (s.dialing.dials[d]?.isSome = true) Option.isSome_iff_exists
  | .disconnect d _ _ => decidable_of_iff (s.dialing.dials[d]?.any (fun dial => decide (dial.wasValidated = true)) = true) Dialing.any_some_iff
  | .drain _ _ => inferInstanceAs (Decidable (s.dialing.draining ≠ []))
  | .enqueue i .. => inferInstanceAs (Decidable (s.queue.scheduler ≠ some i))
  | .discovered .. | .validated .. | .cached .. | .reported .. | .stop _ => inferInstanceAs (Decidable True)

-- Everything enqueue_candidate can do. It refuses for one of three reasons, or
-- hands the peer to the scheduler if there is one.
inductive Offered (s : Feeding ι) (peer : ValidatedPeer) (allowKnownPeer : Bool) (clock : Readings) : Bool × Feeding ι → Prop where
  | backedOff (stats : EthPeerQueueStatsSnapshot) : s.backingOff peer clock.now = true →
      Offered s peer allowKnownPeer clock (false,s.setStats stats)
  | duplicate (stats : EthPeerQueueStatsSnapshot) : s.backingOff peer clock.now = false →
      s.queue.seenNodeIds (nodeKey peer) = true → allowKnownPeer = false →
      Offered s peer allowKnownPeer clock (false,((s.forgetBackoff peer).setSeen peer true).setStats stats)
  | unattached : s.backingOff peer clock.now = false → (s.queue.seenNodeIds (nodeKey peer) = false ∨ allowKnownPeer = true) →
      s.queue.scheduler = none → Offered s peer allowKnownPeer clock (true,(s.forgetBackoff peer).setSeen peer true)
  | full (stats : EthPeerQueueStatsSnapshot) : s.backingOff peer clock.now = false →
      (s.queue.seenNodeIds (nodeKey peer) = false ∨ allowKnownPeer = true) → s.queue.scheduler = some i → s.Full i →
      Offered s peer allowKnownPeer clock
        (false,((s.forgetBackoff peer).setSeen peer (s.queue.seenNodeIds (nodeKey peer))).setStats stats)
  | enqueued : s.backingOff peer clock.now = false → (s.queue.seenNodeIds (nodeKey peer) = false ∨ allowKnownPeer = true) →
      s.queue.scheduler = some i → ¬ s.Full i →
      Offered s peer allowKnownPeer clock (true,{ (s.forgetBackoff peer).setSeen peer true with
        dialing := s.dialing.enqueue i peer clock.expired clock.asked clock.added })

omit [DecidableEq ι] in
theorem unseen_again (s : Feeding ι) :
    (if !(s.forgetBackoff peer).queue.seenNodeIds (nodeKey peer) then ((s.forgetBackoff peer).setSeen peer true).setSeen peer false
      else (s.forgetBackoff peer).setSeen peer true) = (s.forgetBackoff peer).setSeen peer (s.queue.seenNodeIds (nodeKey peer)) := by
  cases seen : s.queue.seenNodeIds (nodeKey peer) <;> simp [forgetBackoff,setSeen,seen]

theorem enqueueCandidate_offered (s : Feeding ι) (peer : ValidatedPeer) (allowKnownPeer : Bool) (clock : Readings) :
    Offered s peer allowKnownPeer clock (s.enqueueCandidate peer allowKnownPeer clock) := by
  unfold enqueueCandidate
  split_ifs with backing
  · exact .backedOff _ backing
  have free : s.backingOff peer clock.now = false := by simpa using backing
  dsimp only
  split
  · rename_i known
    have seen : s.queue.seenNodeIds (nodeKey peer) = true ∧ allowKnownPeer = false := by simpa [forgetBackoff] using known
    exact .duplicate _ free seen.1 seen.2
  rename_i admitted
  have may : s.queue.seenNodeIds (nodeKey peer) = false ∨ allowKnownPeer = true := by
    simp only [Bool.not_not,Bool.and_eq_true,Bool.not_eq_eq_eq_not,Bool.not_true,not_and_or,Bool.not_eq_true,Bool.not_eq_false]
      at admitted
    exact admitted
  split
  · rename_i unattached
    exact .unattached free may unattached
  rename_i i attached
  split
  · rename_i full
    rw [unseen_again]
    exact .full _ free may attached full
  · rename_i room
    exact .enqueued free may attached room

-- Everything report_peer_disconnected can do: suppress the peer, drop it, or
-- count it and offer it again.
inductive Reported (s : Feeding ι) (feedback : EthPeerDisconnectFeedback) (clock : Readings) : Bool × Feeding ι → Prop where
  | suppressed (stats : EthPeerQueueStatsSnapshot) : feedback.reason = .kTooManyPeers →
      Reported s feedback clock
        (false,(s.setBackoff feedback.peer (clock.now + s.queue.config.tooManyPeersBackoff)).setStats stats)
  | dropped (stats : EthPeerQueueStatsSnapshot) : feedback.reason ≠ .kTooManyPeers →
      (isRequeueableDisconnect feedback = false ∨
        s.queue.config.maxDisconnectRequeues ≤ s.queue.disconnectCounts (nodeKey feedback.peer)) →
      Reported s feedback clock (false,s.setStats stats)
  | retried (counted stats : EthPeerQueueStatsSnapshot) : feedback.reason ≠ .kTooManyPeers →
      isRequeueableDisconnect feedback = true →
      s.queue.disconnectCounts (nodeKey feedback.peer) < s.queue.config.maxDisconnectRequeues →
      Offered ((s.setStats counted).countRequeue feedback.peer) feedback.peer true clock (accepted,next) →
      Reported s feedback clock (accepted,next.setStats stats)

theorem reportPeerDisconnected_reported (s : Feeding ι) (feedback : EthPeerDisconnectFeedback) (clock : Readings) :
    Reported s feedback clock (s.reportPeerDisconnected feedback clock) := by
  unfold reportPeerDisconnected
  dsimp only
  split
  · rename_i tooMany
    exact .suppressed _ tooMany
  rename_i reason
  split
  · rename_i final
    exact .dropped _ reason (.inl (by simpa using final))
  rename_i requeueable
  have again : isRequeueableDisconnect feedback = true := by simpa using requeueable
  split_ifs with flaky
  · exact .dropped _ reason (.inr flaky)
  have offered := enqueueCandidate_offered ((s.setStats (countDisconnect feedback s.queue.stats)).countRequeue feedback.peer)
    feedback.peer true clock
  split
  · rename_i next result
    rw [result] at offered
    exact .retried _ next.queue.stats reason again (BitVec.not_le.mp flaky) offered
  · rename_i next result
    rw [result] at offered
    exact .retried _ _ reason again (BitVec.not_le.mp flaky) offered

omit [DecidableEq ι] in
theorem noteOffer_countDiscovered (peer : ValidatedPeer) (result : Bool × Feeding ι) :
    ∃ stats,noteOffer peer clock (countDiscovered result) = noteOffer peer clock (result.1,result.2.setStats stats) := by
  obtain ⟨accepted,next⟩ := result
  cases accepted with
  | false => exact ⟨next.queue.stats,rfl⟩
  | true => exact ⟨_,rfl⟩

theorem noteOffer_preload (peer : ValidatedPeer) (clock : Readings) (s : Feeding ι) :
    ∃ stats,noteOffer peer clock (s.preloadCachedPeer peer clock) = noteOffer peer clock
      ((s.enqueueCandidate peer false clock).1,(s.enqueueCandidate peer false clock).2.setStats stats) := by
  unfold preloadCachedPeer
  cases s.enqueueCandidate peer false clock with
  | mk accepted next =>
    cases accepted with
    | false => exact ⟨next.queue.stats,rfl⟩
    | true => exact ⟨_,rfl⟩

def Action.clock : Action ι → Option Readings
  | .discovered _ clock | .validated _ clock | .cached _ clock | .reported _ clock | .done _ _ clock | .disconnect _ _ clock => some clock
  | _ => none

inductive Touches (s : Feeding ι) (clock : Option Readings) : Feeding ι → Prop where
  | idle : next.queue = s.queue → next.answers = s.answers → Touches s clock next
  | offered (stats : EthPeerQueueStatsSnapshot) : clock = some at' → Offered s peer false at' result →
      Touches s clock (noteOffer peer at' (result.1,result.2.setStats stats))
  | reported (base : Feeding ι) : clock = some at' → base.queue = s.queue → base.answers = s.answers →
      Touches s clock (base.report dial feedback at')

def Notifies (s next : Feeding ι) (d : Nat) (clock : Readings) : Prop :=
  ∃ middle : Feeding ι,middle.queue = s.queue ∧ middle.answers = s.answers ∧
    (next = middle ∨ ∃ i feedback,next = middle.feedbackFn i d feedback clock)

theorem onDone_notifies (s : Feeding ι) (reason : DisconnectReason) : Notifies s (s.onDone d reason clock) d clock := by
  unfold onDone
  split
  · exact ⟨s,rfl,rfl,.inl rfl⟩
  · rename_i dial _
    refine ⟨{ s with dialing := s.dialing.report d dial reason, releasing := dial.owner :: s.releasing },rfl,rfl,?_⟩
    split
    · exact .inr ⟨_,_,rfl⟩
    · exact .inl rfl

theorem onDisconnect_notifies (s : Feeding ι) (reason : DisconnectReason) :
    Notifies s (s.onDisconnect d reason clock) d clock := by
  unfold onDisconnect
  split
  · exact ⟨s,rfl,rfl,.inl rfl⟩
  · refine ⟨{ s with dialing := s.dialing.onDisconnect d reason },rfl,rfl,?_⟩
    split
    · exact .inr ⟨_,_,rfl⟩
    · exact .inl rfl

theorem Notifies.touches {s next : Feeding ι} (reads : clock = some at')
    (notifies : Notifies s next d at') : Touches s clock next := by
  obtain ⟨middle,queue,answers,rfl | ⟨i,feedback,rfl⟩⟩ := notifies
  · exact .idle queue answers
  · unfold feedbackFn
    split
    · exact .reported middle reads queue answers
    · exact .idle queue answers

theorem apply_touches (s : Feeding ι) (action : Action ι) : Touches s action.clock (s.apply action) := by
  cases action with
  | discovered peer clock =>
    obtain ⟨stats,same⟩ :=
      noteOffer_countDiscovered ..
    exact (congrArg (Touches s (some clock)) same).mpr (.offered stats rfl (enqueueCandidate_offered ..))
  | validated peer clock =>
    obtain ⟨stats,same⟩ :=
      noteOffer_countDiscovered ..
    exact (congrArg (Touches s (some clock)) same).mpr (.offered stats rfl (enqueueCandidate_offered ..))
  | cached peer clock =>
    obtain ⟨stats,same⟩ := noteOffer_preload peer clock s
    exact (congrArg (Touches s (some clock)) same).mpr (.offered stats rfl (enqueueCandidate_offered ..))
  | reported feedback clock => exact .reported s rfl rfl rfl
  | done d reason clock => exact (onDone_notifies ..).touches rfl
  | disconnect d reason clock => exact (onDisconnect_notifies ..).touches rfl
  | _ => exact .idle rfl rfl

end Feeding
end EvmRelay.Eth
