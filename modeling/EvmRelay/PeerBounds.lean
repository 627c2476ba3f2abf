import EvmRelay.DialQueues
import EvmRelay.PeerAcceptance

namespace EvmRelay.Eth
open Discv4

namespace Feeding
variable [DecidableEq ι] {s next : Feeding ι} {clock : Readings}

section waiting

def waiting (s : Dialing ι) (i : ι) : Nat := (s.scheduler i).queue.length

theorem put_waiting {s : Dialing ι} (same : own.queue = (s.scheduler i).queue) (j : ι) :
    waiting (s.put i own) j = waiting s j :=
  congrArg List.length (Dialing.put_same DialScheduler.queue same j)

theorem startDial_waiting (s : Dialing ι) (j : ι) (added : TimePoint) : waiting (s.startDial i vp added) j = waiting s j :=
  congrArg List.length (Dialing.startDial_same DialScheduler.queue (fun _ _ _ => rfl) ..)

theorem enqueue_waiting (s : Dialing ι) (i j : ι) (vp : ValidatedPeer) (expired asked added : TimePoint) :
    waiting (s.enqueue i vp expired asked added) j = waiting s j ∨
    (j = i ∧ ¬ s.Room i ∧ waiting (s.enqueue i vp expired asked added) j = waiting s j + 1) := by
  have pruned : ∀ j,waiting (s.pruned i expired) j = waiting s j := put_waiting rfl
  rcases Dialing.enqueue_cases s i vp expired asked added with same | same | ⟨_,same⟩ | ⟨full,same⟩
  · exact .inl (by rw [same])
  · exact .inl (by rw [same,pruned])
  · exact .inl (by rw [same,startDial_waiting,pruned])
  · rw [same]
    by_cases own : j = i
    · subst own
      have room : (s.pruned j expired).Room j ↔ s.Room j := Dialing.room_same rfl (Dialing.put_same DialScheduler.active (by rfl) j)
      refine .inr ⟨rfl,fun free => full (room.mpr free),?_⟩
      simp [waiting]
    · refine .inl ?_
      rw [← pruned]
      simp [waiting,own]

theorem drain_waiting (s : Dialing ι) (added : TimePoint) : waiting (s.drain asked added) j ≤ waiting s j := by
  rcases Dialing.drain_cases s asked added with same | ⟨i,outer,_,⟨_,same⟩ | ⟨vp,queue,front,_,popped⟩⟩
  · rw [same]
  · rw [same]
    exact le_rfl
  · have shorter : waiting (s.put i { s.scheduler i with queue := queue }) j ≤ waiting s j := by
      unfold waiting
      rw [Dialing.put_scheduler]
      split_ifs with own
      · rw [own,front]
        exact Nat.le_succ _
      · exact le_rfl
    rcases popped with same | same
    · rw [same]
      exact shorter
    · rw [same,startDial_waiting]
      exact shorter

theorem stop_waiting (s : Dialing ι) (j : ι) : waiting (s.stop i) j ≤ waiting s j := by
  unfold waiting Dialing.stop
  rw [Dialing.put_scheduler]
  split
  · exact Nat.zero_le _
  · exact le_rfl

theorem release_waiting (s : Dialing ι) (j : ι) : waiting (s.release i expired) j = waiting s j :=
  congrArg List.length (Dialing.release_same DialScheduler.queue (fun _ _ _ => rfl) ..)

theorem report_waiting (s : Dialing ι) (dial : Dial ι) (j : ι) : waiting (s.report d dial reason) j = waiting s j :=
  congrArg List.length (Dialing.report_same DialScheduler.queue (fun _ _ => rfl) ..)

theorem onConnected_waiting (s : Dialing ι) (j : ι) : waiting (s.onConnected d) j = waiting s j := by
  unfold Dialing.onConnected
  split
  · rfl
  · exact put_waiting (by rfl) j

omit [DecidableEq ι] in
theorem onDisconnect_waiting (s : Dialing ι) (reason : DisconnectReason) :
    waiting (s.onDisconnect d reason) j = waiting s j := by
  unfold Dialing.onDisconnect
  split
  · rfl
  · split <;> rfl

structure Within (own : ι) (config : EthPeerQueueConfig) (s : Feeding ι) : Prop where
  scheduler : s.queue.scheduler = some own
  configured : s.queue.config = config
  pending : waiting s.dialing own ≤ config.maxPendingPeers.toNat

omit [DecidableEq ι] in
theorem Within.moved (within : Within own config s) (queue : next.queue = s.queue)
    (fewer : waiting next.dialing own ≤ waiting s.dialing own) : Within own config next :=
  ⟨queue ▸ within.scheduler,queue ▸ within.configured,fewer.trans within.pending⟩

theorem Offered.within (offered : Offered s peer allowKnownPeer clock result) (within : Within own config s) : Within own config result.2 := by
  cases offered with
  | enqueued _ _ attached room =>
    cases within.scheduler.symm.trans attached
    refine ⟨within.scheduler,within.configured,?_⟩
    rcases enqueue_waiting s.dialing own own peer clock.expired clock.asked clock.added with same | ⟨_,full,one⟩
    · rw [same]
      exact within.pending
    -- No slot was free, so that the capacity had been checked.
    have below : waiting s.dialing own < config.maxPendingPeers.toNat := by
      rw [← within.configured]
      exact Nat.lt_of_not_le fun many => room ⟨full,many⟩
    rw [one]
    exact below
  | _ => exact ⟨within.scheduler,within.configured,within.pending⟩

theorem Reported.within (reported : Reported s feedback clock result) (within : Within own config s) : Within own config result.2 := by
  cases reported with
  | retried _ _ _ _ _ offered =>
    have after := offered.within ⟨within.scheduler,within.configured,within.pending⟩
    exact ⟨after.scheduler,after.configured,after.pending⟩
  | _ => exact ⟨within.scheduler,within.configured,within.pending⟩

theorem report_within (within : Within own config s) (dial : Option Nat) (feedback : EthPeerDisconnectFeedback) (clock : Readings) :
    Within own config (s.report dial feedback clock) := by
  have after := (reportPeerDisconnected_reported s feedback clock).within within
  exact ⟨after.scheduler,after.configured,after.pending⟩

theorem feedbackFn_within (within : Within own config s) : Within own config (s.feedbackFn i d feedback clock) := by
  unfold feedbackFn
  split
  · exact report_within within _ _ _
  · exact within

theorem noteOffer_within (within : Within own config s) (peer : ValidatedPeer) (noted : ∃ stats,next = noteOffer peer clock
      ((s.enqueueCandidate peer false clock).1,(s.enqueueCandidate peer false clock).2.setStats stats)) : Within own config next := by
  obtain ⟨stats,same⟩ := noted
  have after := (enqueueCandidate_offered s peer false clock).within within
  rw [same]
  exact ⟨after.scheduler,after.configured,after.pending⟩

theorem apply_within (allowed : s.Allowed action) (within : Within own config s) : Within own config (s.apply action) := by
  cases action with
  | cached peer clock => exact noteOffer_within within _ (noteOffer_preload ..)
  | reported feedback clock => exact report_within within none feedback clock
  | done d reason clock =>
    obtain ⟨dial,found,_⟩ := allowed
    show Within own config (s.onDone d reason clock)
    unfold onDone
    rw [found]
    dsimp only
    have ended : Within own config { s with dialing := s.dialing.report d dial reason, releasing := dial.owner :: s.releasing } :=
      within.moved rfl (report_waiting ..).le
    split
    · exact feedbackFn_within ended
    · exact ended
  | release i expired => exact within.moved rfl (release_waiting ..).le
  | connected d => exact within.moved rfl (onConnected_waiting ..).le
  | disconnect d reason clock =>
    obtain ⟨dial,found,_⟩ := allowed
    show Within own config (s.onDisconnect d reason clock)
    unfold onDisconnect
    rw [found]
    dsimp only
    have told : Within own config { s with dialing := s.dialing.onDisconnect d reason } :=
      within.moved rfl (onDisconnect_waiting ..).le
    split
    · exact feedbackFn_within told
    · exact told
  | drain asked added => exact within.moved rfl (drain_waiting ..)
  | stop i => exact within.moved rfl (stop_waiting ..)
  | enqueue i vp expired asked added =>
    refine within.moved rfl ?_
    rcases enqueue_waiting s.dialing i own vp expired asked added with same | ⟨foreign,_⟩
    · exact same.le
    · exact absurd (foreign ▸ within.scheduler) allowed
  | _ => exact noteOffer_within within _ (noteOffer_countDiscovered ..)

end waiting

section requeues

def requeueOf (nodeId : NodeId) (answer : Answer) : Bool :=
  answer.reason.isSome && answer.accepted && answer.peer.peer.nodeId = nodeId

-- The count of a node is never behind its accepted reports, and never above the
-- limit.
structure Limited (config : EthPeerQueueConfig) (s : Feeding ι) : Prop where
  configured : s.queue.config = config
  counted : ∀ nodeId,s.answers.countP (requeueOf nodeId) ≤ (s.queue.disconnectCounts (Discv4.nodeKey nodeId)).toNat
  limit : ∀ key,s.queue.disconnectCounts key ≤ config.maxDisconnectRequeues

theorem Offered.counts (offered : Offered s peer allowKnownPeer clock result) :
    result.2.queue.config = s.queue.config ∧ result.2.queue.disconnectCounts = s.queue.disconnectCounts ∧ result.2.answers = s.answers := by
  cases offered <;> exact ⟨rfl,rfl,rfl⟩

theorem countP_refused (nodeId : NodeId) (answers : List Answer) (refused : answer.reason = none ∨ answer.accepted = false) :
    (answers ++ [answer]).countP (requeueOf nodeId) = answers.countP (requeueOf nodeId) := by
  rw [List.countP_append,List.countP_singleton]
  rcases refused with none | refused
  · simp [requeueOf,none]
  · simp [requeueOf,refused]

omit [DecidableEq ι] in
theorem Limited.moved (limited : Limited config s) (configured : next.queue.config = s.queue.config)
    (counts : next.queue.disconnectCounts = s.queue.disconnectCounts)
    (answers : ∀ nodeId,next.answers.countP (requeueOf nodeId) = s.answers.countP (requeueOf nodeId)) : Limited config next := by
  refine ⟨configured.trans limited.configured,fun nodeId => ?_,fun key => ?_⟩
  · rw [answers,counts]
    exact limited.counted nodeId
  · rw [counts]
    exact limited.limit key

omit [DecidableEq ι] in
theorem Limited.raised (limited : Limited config s) (configured : next.queue.config = s.queue.config)
    (answers : next.answers = s.answers ++ [answer])
    (rare : s.queue.disconnectCounts (nodeKey answer.peer) < config.maxDisconnectRequeues)
    (counts : next.queue.disconnectCounts = Function.update s.queue.disconnectCounts (nodeKey answer.peer)
      (s.queue.disconnectCounts (nodeKey answer.peer) + 1)) : Limited config next := by
  have room : (s.queue.disconnectCounts (nodeKey answer.peer)).toNat < config.maxDisconnectRequeues.toNat := rare
  have one : (s.queue.disconnectCounts (nodeKey answer.peer) + 1).toNat =
      (s.queue.disconnectCounts (nodeKey answer.peer)).toNat + 1 := by
    rw [BitVec.toNat_add]
    exact Nat.mod_eq_of_lt (lt_of_le_of_lt room config.maxDisconnectRequeues.isLt)
  have more : ∀ key,(next.queue.disconnectCounts key).toNat =
      (s.queue.disconnectCounts key).toNat + if key = nodeKey answer.peer then 1 else 0 := by
    intro key
    rw [counts,Function.update_apply]
    split_ifs with own
    · rw [one,own]
    · rfl
  refine ⟨configured.trans limited.configured,fun nodeId => ?_,fun key => ?_⟩
  · rw [answers,more,List.countP_append,List.countP_singleton]
    refine Nat.add_le_add (limited.counted nodeId) ?_
    by_cases own : requeueOf nodeId answer = true
    · have same : Discv4.nodeKey nodeId = nodeKey answer.peer := by
        exact congrArg Discv4.nodeKey (of_decide_eq_true (Bool.and_eq_true_iff.mp own).2).symm
      rw [if_pos own,if_pos same]
    · rw [if_neg own]
      exact Nat.zero_le _
  · rw [BitVec.le_def,more]
    split_ifs with own
    · rw [own]
      exact room
    · exact limited.limit key

theorem report_limited (limited : Limited config s) (dial : Option Nat) (clock : Readings) :
    Limited config (s.report dial feedback clock) := by
  have reported := reportPeerDisconnected_reported s feedback clock
  unfold report
  generalize s.reportPeerDisconnected feedback clock = result at reported
  cases reported with
  | retried _ _ _ _ rare offered =>
    obtain ⟨configured,counts,answers⟩ := offered.counts
    rw [limited.configured] at rare
    exact limited.raised configured (congrArg (· ++ [_]) answers) rare counts
  | _ => exact limited.moved rfl rfl fun nodeId => countP_refused nodeId s.answers (.inr rfl)

theorem apply_limited (action : Action ι) (limited : Limited config s) : Limited config (s.apply action) := by
  have touches := apply_touches s action
  generalize s.apply action = next at touches
  cases touches with
  | idle queue answers => exact limited.moved (by rw [queue]) (by rw [queue]) fun _ => by rw [answers]
  | offered stats _ offered =>
    obtain ⟨configured,counts,answers⟩ := offered.counts
    refine limited.moved configured counts fun nodeId => ?_
    exact (countP_refused nodeId _ (.inl rfl)).trans (by rw [← answers]; rfl)
  | reported base _ queue answers =>
    exact report_limited (limited.moved (by rw [queue]) (by rw [queue]) fun _ => by rw [answers]) _ _

end requeues

section backoff

-- While its back-off lasts a peer is in the map, and none was accepted before.
structure BacksOff (config : EthPeerQueueConfig) (s : Feeding ι) (time : TimePoint) : Prop where
  configured : s.queue.config = config
  read : ∀ answer ∈ s.answers,answer.now ≤ time
  noted : ∀ answer ∈ s.answers,answer.reason = some .kTooManyPeers → answer.now + config.tooManyPeersBackoff ≤ time ∨
    ∃ deadline,s.queue.backoffUntil (nodeKey answer.peer) = some deadline ∧ answer.now + config.tooManyPeersBackoff ≤ deadline
  apart : s.answers.Pairwise fun earlier later => earlier.reason = some .kTooManyPeers →
    earlier.peer.peer.nodeId = later.peer.peer.nodeId → later.accepted = true →
    earlier.now + config.tooManyPeersBackoff ≤ later.now

omit [DecidableEq ι] in
theorem BacksOff.moved (held : BacksOff config s time) (queue : next.queue = s.queue) (answers : next.answers = s.answers)
    (onward : time ≤ time') : BacksOff config next time' := by
  refine ⟨queue ▸ held.configured,fun answer member => ?_,fun answer member tooMany => ?_,answers ▸ held.apart⟩
  · exact (held.read answer (answers ▸ member)).trans onward
  · rw [queue]
    exact (held.noted answer (answers ▸ member) tooMany).imp_left fun past => past.trans onward

theorem Offered.backoff (offered : Offered s peer allowKnownPeer clock result) :
    (result.1 = false ∧ result.2.queue.backoffUntil = s.queue.backoffUntil) ∨ (s.backingOff peer clock.now = false ∧
      result.2.queue.backoffUntil = Function.update s.queue.backoffUntil (nodeKey peer) none) := by
  cases offered with
  | backedOff => exact .inl ⟨rfl,rfl⟩
  | duplicate _ free => exact .inr ⟨free,rfl⟩
  | unattached free => exact .inr ⟨free,rfl⟩
  | full _ free => exact .inr ⟨free,rfl⟩
  | enqueued free => exact .inr ⟨free,rfl⟩

omit [DecidableEq ι] in
theorem BacksOff.over (held : BacksOff config s time) (onward : time ≤ clock.now) (free : s.backingOff peer clock.now = false)
    (member : answer ∈ s.answers) (tooMany : answer.reason = some .kTooManyPeers) (same : nodeKey answer.peer = nodeKey peer) :
    answer.now + config.tooManyPeersBackoff ≤ clock.now := by
  rcases held.noted answer member tooMany with past | ⟨deadline,entry,covered⟩
  · exact past.trans onward
  · have due : deadline ≤ clock.now := by
      unfold backingOff at free
      rw [← same,entry] at free
      simpa using free
    exact covered.trans due

omit [DecidableEq ι] in
theorem BacksOff.answered (held : BacksOff config s time) (onward : time ≤ clock.now) (final : clock.now ≤ time')
    (now : answer.now = clock.now) (configured : next.queue.config = s.queue.config) (answers : next.answers = s.answers ++ [answer])
    (accepts : answer.accepted = true → s.backingOff answer.peer clock.now = false)
    (suppresses : answer.reason = some .kTooManyPeers →
      next.queue.backoffUntil (nodeKey answer.peer) = some (clock.now + config.tooManyPeersBackoff))
    (keeps : ∀ key,next.queue.backoffUntil key = s.queue.backoffUntil key ∨ key = nodeKey answer.peer ∧
      (s.backingOff answer.peer clock.now = false ∨
        next.queue.backoffUntil key = some (clock.now + config.tooManyPeersBackoff))) : BacksOff config next time' := by
  refine ⟨configured.trans held.configured,fun earlier member => ?_,fun earlier member tooMany => ?_,?_⟩
  · rw [answers] at member
    rcases List.mem_append.mp member with old | new
    · exact ((held.read earlier old).trans onward).trans final
    · cases List.mem_singleton.mp new
      exact now.le.trans final
  · rw [answers] at member
    rcases List.mem_append.mp member with old | new
    · rcases keeps (nodeKey earlier.peer) with same | ⟨own,free | replaced⟩
      · rw [same]
        exact (held.noted earlier old tooMany).imp_left fun past => (past.trans onward).trans final
      · exact .inl ((held.over onward free old tooMany own).trans final)
      · exact .inr ⟨_,replaced,Int.add_le_add_right ((held.read earlier old).trans onward) _⟩
    · cases List.mem_singleton.mp new
      exact .inr ⟨_,suppresses tooMany,Int.add_le_add_right now.le _⟩
  · rw [answers]
    refine List.pairwise_append.mpr ⟨held.apart,List.pairwise_singleton _ _,fun earlier old later new tooMany same accepted => ?_⟩
    cases List.mem_singleton.mp new
    rw [now]
    exact held.over onward (accepts accepted) old tooMany (congrArg Discv4.nodeKey same)

theorem Offered.kept (offered : Offered s peer allowKnownPeer clock result) (key : Text) :
    result.2.queue.backoffUntil key = s.queue.backoffUntil key ∨ key = nodeKey peer ∧ s.backingOff peer clock.now = false := by
  rcases offered.backoff with ⟨_,same⟩ | ⟨free,erased⟩
  · exact .inl (congrFun same key)
  · rw [erased,Function.update_apply]
    split_ifs with own
    · exact .inr ⟨own,free⟩
    · exact .inl rfl

theorem Offered.accepts (offered : Offered s peer allowKnownPeer clock result) (accepted : result.1 = true) :
    s.backingOff peer clock.now = false := by
  rcases offered.backoff with ⟨refused,_⟩ | ⟨free,_⟩
  · exact absurd (accepted.symm.trans refused) nofun
  · exact free

theorem report_backsOff (held : BacksOff config s time) (onward : time ≤ clock.now) (final : clock.now ≤ time') :
    BacksOff config (s.report dial feedback clock) time' := by
  have reported := reportPeerDisconnected_reported s feedback clock
  unfold report
  generalize s.reportPeerDisconnected feedback clock = result at reported
  cases reported with
  | suppressed stats tooMany =>
    have replaced : Function.update s.queue.backoffUntil (nodeKey feedback.peer) (some (clock.now + s.queue.config.tooManyPeersBackoff))
        (nodeKey feedback.peer) = some (clock.now + config.tooManyPeersBackoff) := by
      rw [Function.update_self,held.configured]
    refine held.answered onward final rfl rfl rfl nofun (fun _ => replaced) fun key => ?_
    by_cases own : key = nodeKey feedback.peer
    · subst own
      exact .inr ⟨rfl,.inr replaced⟩
    · exact .inl (Function.update_of_ne own _ _)
  | dropped stats reason =>
    exact held.answered onward final rfl rfl rfl nofun (fun tooMany => absurd (Option.some.inj tooMany) reason) fun key => .inl rfl
  | retried counted stats reason _ _ offered =>
    obtain ⟨configured,_,answers⟩ := offered.counts
    refine held.answered onward final rfl configured (congrArg (· ++ [_]) answers) offered.accepts
      (fun tooMany => absurd (Option.some.inj tooMany) reason) fun key => ?_
    exact (offered.kept key).imp_right fun free => ⟨free.1,.inl free.2⟩

def Action.readings : Action ι → List TimePoint
  | .discovered _ clock | .validated _ clock | .cached _ clock | .reported _ clock | .done _ _ clock | .disconnect _ _ clock =>
    [clock.now,clock.expired,clock.asked,clock.added]
  | .release _ expired => [expired]
  | .drain asked added => [asked,added]
  | .enqueue _ _ expired asked added => [expired,asked,added]
  | _ => []

omit [DecidableEq ι] in
theorem Action.clock_now {action : Action ι} (reads : action.clock = some clock) : clock.now ∈ action.readings := by
  cases action <;> cases reads <;> exact List.mem_cons_self

theorem apply_backsOff (held : BacksOff config s time)
    (ordered : (time :: (action.readings ++ [time'])).Pairwise (· ≤ ·)) : BacksOff config (s.apply action) time' := by
  obtain ⟨first,rest⟩ := List.pairwise_cons.mp ordered
  have onward : time ≤ time' := first time' (List.mem_append_right _ List.mem_cons_self)
  have between : ∀ clock,action.clock = some clock → time ≤ clock.now ∧ clock.now ≤ time' := by
    intro clock reads
    have member := Action.clock_now reads
    exact ⟨first _ (List.mem_append_left _ member),(List.pairwise_append.mp rest).2.2 _ member time' List.mem_cons_self⟩
  have touches := apply_touches s action
  generalize s.apply action = next at touches
  cases touches with
  | idle queue answers => exact held.moved queue answers onward
  | @offered clock peer result stats reads offered =>
    obtain ⟨now,final⟩ := between clock reads
    obtain ⟨configured,_,answers⟩ := offered.counts
    refine held.answered now final rfl configured (congrArg (· ++ [_]) answers) offered.accepts nofun fun key => ?_
    exact (offered.kept key).imp_right fun free => ⟨free.1,.inl free.2⟩
  | @reported clock dial feedback base reads queue answers =>
    obtain ⟨now,final⟩ := between clock reads
    exact report_backsOff (held.moved queue answers le_rfl) now final

end backoff

-- A scheduler fed by one queue: never more peers wait than may, no node is
-- requeued more often than it may be, and none is accepted while it is suppressed.
theorem peer_handling_bounded (dialing : Dialing ι) (own : ι) (config : EthPeerQueueConfig) (actions : List (Action ι)) (s : Feeding ι)
    (empty : (dialing.scheduler own).queue = []) (path : (machine ι).Sequence (new dialing own config) actions s) :
    (s.dialing.scheduler own).queue.length ≤ config.maxPendingPeers.toNat ∧
    (∀ nodeId,s.answers.countP (requeueOf nodeId) ≤ config.maxDisconnectRequeues.toNat) ∧
    ((actions.flatMap Action.readings).Pairwise (· ≤ ·) →
      s.answers.Pairwise fun earlier later => earlier.reason = some .kTooManyPeers →
        earlier.peer.peer.nodeId = later.peer.peer.nodeId → later.accepted = true →
        earlier.now + config.tooManyPeersBackoff ≤ later.now) := by
  refine ⟨?_,fun nodeId => ?_,fun clock => ?_⟩
  · have start : Within own config (new dialing own config) := by
      refine ⟨rfl,rfl,?_⟩
      simp [waiting,new,empty]
    exact (path.keeps (Within own config) start fun _ _ allowed => apply_within allowed).pending
  · have start : Limited config (new dialing own config) := ⟨rfl,fun _ => Nat.zero_le _,fun _ => BitVec.le_def.mpr (Nat.zero_le _)⟩
    have limited := path.keeps (Limited config) start fun _ action _ => apply_limited action
    exact (limited.counted nodeId).trans (BitVec.le_def.mp (limited.limit _))
  · have start : ∀ time,BacksOff config (new dialing own config) time :=
      fun _ => ⟨rfl,fun _ member => absurd member List.not_mem_nil,fun _ member => absurd member List.not_mem_nil,.nil⟩
    obtain ⟨time,held⟩ := path.clocked Action.readings (BacksOff config) start
      (fun _ action _ _ _ held ordered => apply_backsOff held ordered) clock
    exact held.apart

def readAt (time : TimePoint) : Readings := ⟨time,time,time,time⟩

def eventful : List (Action Unit) :=
  [.discovered (namedPeer 1 none) (readAt 0),.discovered (namedPeer 2 none) (readAt 0),.connected 0,
    .done 0 .kTimeout (readAt 36000000000),.release () 36000000000,.drain 36000000000 36000000000,
    .done 1 .kTooManyPeers (readAt 36000000001),.release () 36000000001,.drain 36000000001 36000000001,
    .discovered (namedPeer 2 none) (readAt 36000000002)]

def oneSlot : Dialing Unit := .new 1 1 fun _ => .new false none

def tight : EthPeerQueueConfig := ⟨2,1,10⟩

def eventfulEnd : Feeding Unit := eventful.foldl (machine Unit).apply (new oneSlot () tight)

theorem eventful_bounded : eventfulEnd.answers.map Answer.accepted = [true,true,true,false,false] ∧
    (eventfulEnd.dialing.scheduler ()).queue.length ≤ tight.maxPendingPeers.toNat ∧
    (∀ nodeId,eventfulEnd.answers.countP (requeueOf nodeId) ≤ tight.maxDisconnectRequeues.toNat) ∧
    eventfulEnd.answers.Pairwise fun earlier later => earlier.reason = some .kTooManyPeers →
      earlier.peer.peer.nodeId = later.peer.peer.nodeId → later.accepted = true →
      earlier.now + tight.tooManyPeersBackoff ≤ later.now := by
  have bounded := peer_handling_bounded oneSlot () tight eventful eventfulEnd rfl (Machine.sequence_of_check (by decide +kernel))
  exact ⟨by decide +kernel,bounded.1,bounded.2.1,bounded.2.2 (by decide +kernel)⟩

end Feeding
end EvmRelay.Eth
