import EvmRelay.Enr
import EvmRelay.Machine

namespace EvmRelay.Discv4

abbrev NodeId := FixedBytes 64

-- Ticks of the steady clock, without the bounds of the int64 that the source adds
-- its durations in. Every reading of the clock is an input of the action that makes it.
abbrev TimePoint := Int

structure DiscoveredPeer where
  nodeId : NodeId
  ip : List UInt8
  udpPort : BitVec 16
  tcpPort : BitVec 16
  ethForkId : Option Enr.ForkId
  deriving DecidableEq

structure ValidatedPeer where
  peer : DiscoveredPeer
  pubkey : FixedBytes 64
  deriving DecidableEq

inductive DisconnectReason where
  | kRequested | kTcpError | kProtocolError | kUselessPeer | kTooManyPeers | kAlreadyConnected
  | kIncompatibleVersion | kInvalidIdentity | kClientQuitting | kUnexpectedIdentity | kSelfConnection
  | kTimeout | kSubprotocolError
  deriving DecidableEq

structure DialHistory where
  expiry : Int
  entries : NodeId → Option TimePoint

namespace DialHistory

abbrev kDefaultExpiry : Int := 35000000000

def new (expiry : Int) : DialHistory := ⟨expiry,fun _ => none⟩

def add (history : DialHistory) (now : TimePoint) (nodeId : NodeId) : DialHistory :=
  { history with entries := Function.update history.entries nodeId (some (now + history.expiry)) }

def contains (history : DialHistory) (now : TimePoint) (nodeId : NodeId) : Bool :=
  match history.entries nodeId with
  | none => false
  | some deadline => now < deadline

def expire (history : DialHistory) (now : TimePoint) : DialHistory :=
  { history with entries := fun nodeId => (history.entries nodeId).filter (fun deadline => !(now ≥ deadline : Bool)) }

end DialHistory

structure WatcherPool where
  maxTotal : Int
  maxPerChain : Int
  activeTotal : Int
  deriving DecidableEq

def WatcherPool.new (maxTotal maxPerChain : Int) : WatcherPool := ⟨maxTotal,maxPerChain,0⟩

-- A session is named by the dial that handed it to on_connected.
structure DialScheduler where
  hasFeedback : Bool
  filterFn : Option (DiscoveredPeer → Bool)
  dialHistory : DialHistory
  active : Int
  validatedCount : Int
  totalValidated : Int
  stopping : Bool
  queue : List ValidatedPeer
  activeSessions : List Nat

def DialScheduler.new (hasFeedback : Bool) (filterFn : Option (DiscoveredPeer → Bool)) : DialScheduler :=
  ⟨hasFeedback,filterFn,.new DialHistory.kDefaultExpiry,0,0,0,false,[],[]⟩

def makeForkIdFilter (expectedHash : FixedBytes 4) (peer : DiscoveredPeer) : Bool :=
  match peer.ethForkId with
  | none => false
  | some forkId => forkId.hash = expectedHash

-- One spawned dial coroutine with the two flags its callbacks share. That
-- on_done has been called is not stored by the source.
structure Dial (ι : Type u) where
  owner : ι
  vp : ValidatedPeer
  started : TimePoint
  wasValidated : Bool
  reported : Bool
  done : Bool

structure Feedback where
  dial : Nat
  reason : DisconnectReason
  wasConnected : Bool
  deriving DecidableEq

-- A dial spawned by the loop of release may run at once and call back into any
-- scheduler, so the loops that are under way are kept as a stack, the innermost
-- first.
structure Dialing (ι : Type u) where
  pool : WatcherPool
  scheduler : ι → DialScheduler
  dials : List (Dial ι)
  draining : List ι
  feedback : List Feedback
  disconnected : List Nat

namespace Dialing

def new (maxTotal maxPerChain : Int) (scheduler : ι → DialScheduler) : Dialing ι :=
  ⟨.new maxTotal maxPerChain,scheduler,[],[],[],[]⟩

variable [DecidableEq ι]

def put (s : Dialing ι) (i : ι) (own : DialScheduler) : Dialing ι :=
  { s with scheduler := Function.update s.scheduler i own }

def Room (s : Dialing ι) (i : ι) : Prop :=
  (s.scheduler i).active < s.pool.maxPerChain ∧ s.pool.activeTotal < s.pool.maxTotal

instance (s : Dialing ι) (i : ι) : Decidable (s.Room i) := inferInstanceAs (Decidable (_ ∧ _))

def spawnDial (s : Dialing ι) (i : ι) (vp : ValidatedPeer) (started : TimePoint) : Dialing ι :=
  { s with dials := s.dials ++ [⟨i,vp,started,false,false,false⟩] }

-- The four statements that enqueue and release share: both counters go up, the
-- history notes the node, and the coroutine is spawned.
def startDial (s : Dialing ι) (i : ι) (vp : ValidatedPeer) (added : TimePoint) : Dialing ι :=
  let own := s.scheduler i
  let s := s.put i
    { own with active := own.active + 1, dialHistory := own.dialHistory.add added vp.peer.nodeId }
  { s with pool := { s.pool with activeTotal := s.pool.activeTotal + 1 } }.spawnDial i vp added

def enqueue (s : Dialing ι) (i : ι) (vp : ValidatedPeer) (expired asked added : TimePoint) : Dialing ι :=
  let own := s.scheduler i
  if own.stopping then s
  else if own.filterFn.any (fun filterFn => !filterFn vp.peer) then s
  else
    let own := { own with dialHistory := own.dialHistory.expire expired }
    let s := s.put i own
    if own.dialHistory.contains asked vp.peer.nodeId then s
    else if s.Room i then s.startDial i vp added
    else s.put i { own with queue := own.queue ++ [vp] }

-- release up to its loop. A stopping scheduler does not enter the loop.
def release (s : Dialing ι) (i : ι) (expired : TimePoint) : Dialing ι :=
  let own := s.scheduler i
  let own := { own with active := own.active - 1 }
  let s := { s.put i own with pool := { s.pool with activeTotal := s.pool.activeTotal - 1 } }
  if own.stopping then s
  else { s.put i { own with dialHistory := own.dialHistory.expire expired } with draining := i :: s.draining }

-- One round of the innermost loop of release: its condition is tested, and if
-- it holds the front of the queue is dialled or skipped.
def drain (s : Dialing ι) (asked added : TimePoint) : Dialing ι :=
  match s.draining with
  | [] => s
  | i :: outer =>
    let own := s.scheduler i
    match own.queue with
    | [] => { s with draining := outer }
    | vp :: queue =>
      if s.Room i then
        let s := s.put i { own with queue := queue }
        if own.dialHistory.contains asked vp.peer.nodeId then s
        else s.startDial i vp added
      else { s with draining := outer }

-- Disconnecting a session that is gone already has no effect, so whether the
-- weak pointer still locks is not asked.
def stop (s : Dialing ι) (i : ι) : Dialing ι :=
  let own := s.scheduler i
  { s.put i { own with stopping := true, queue := [], activeSessions := [] } with
    disconnected := s.disconnected ++ own.activeSessions }

def report (s : Dialing ι) (d : Nat) (dial : Dial ι) (reason : DisconnectReason) : Dialing ι :=
  let own := s.scheduler dial.owner
  let tells := own.hasFeedback && !dial.reported
  let s : Dialing ι := { s with
    dials := s.dials.set d { dial with reported := dial.reported || tells, done := true }
    feedback := if tells then s.feedback ++ [⟨d,reason,dial.wasValidated⟩] else s.feedback }
  if dial.wasValidated then s.put dial.owner { own with validatedCount := own.validatedCount - 1 } else s

def onDone (s : Dialing ι) (d : Nat) (reason : DisconnectReason) (expired : TimePoint) : Dialing ι :=
  match s.dials[d]? with
  | none => s
  | some dial => (s.report d dial reason).release dial.owner expired

def onConnected (s : Dialing ι) (d : Nat) : Dialing ι :=
  match s.dials[d]? with
  | none => s
  | some dial =>
    let own := s.scheduler dial.owner
    let s := { s with dials := s.dials.set d { dial with wasValidated := true } }
    s.put dial.owner { own with
      validatedCount := own.validatedCount + 1
      totalValidated := own.totalValidated + 1
      activeSessions := own.activeSessions ++ [d] }

def onDisconnect (s : Dialing ι) (d : Nat) (reason : DisconnectReason) : Dialing ι :=
  match s.dials[d]? with
  | none => s
  | some dial =>
    if (s.scheduler dial.owner).hasFeedback then
      { s with
        dials := s.dials.set d { dial with reported := true }
        feedback := s.feedback ++ [⟨d,reason,true⟩] }
    else s

inductive Action (ι : Type u) where
  | enqueue (i : ι) (vp : ValidatedPeer) (expired asked added : TimePoint)
  | stop (i : ι)
  | done (d : Nat) (reason : DisconnectReason) (expired : TimePoint)
  | connected (d : Nat)
  | disconnect (d : Nat) (reason : DisconnectReason)
  | drain (asked added : TimePoint)

-- A dial calls on_done once. on_connected and the handler it leaves may be
-- called at any time after the dial was spawned.
def Allowed (s : Dialing ι) : Action ι → Prop
  | .enqueue .. => True
  | .stop _ => True
  | .done d _ _ => ∃ dial,s.dials[d]? = some dial ∧ dial.done = false
  | .connected d => ∃ dial,s.dials[d]? = some dial
  | .disconnect d _ => ∃ dial,s.dials[d]? = some dial ∧ dial.wasValidated = true
  | .drain .. => s.draining ≠ []

def apply (s : Dialing ι) : Action ι → Dialing ι
  | .enqueue i vp expired asked added => s.enqueue i vp expired asked added
  | .stop i => s.stop i
  | .done d reason expired => s.onDone d reason expired
  | .connected d => s.onConnected d
  | .disconnect d reason => s.onDisconnect d reason
  | .drain asked added => s.drain asked added

def machine (ι : Type u) [DecidableEq ι] : Machine (Dialing ι) (Action ι) := ⟨Allowed,apply⟩

theorem any_some_iff [DecidablePred test] :
    option.any (fun item => decide (test item)) = true ↔ ∃ item,option = some item ∧ test item := by
  cases option <;> simp

instance (s : Dialing ι) (action : Action ι) : Decidable ((machine ι).Allowed s action) :=
  match action with
  | .done d _ _ => decidable_of_iff (s.dials[d]?.any (fun dial => decide (dial.done = false)) = true) any_some_iff
  | .connected d => decidable_of_iff (s.dials[d]?.isSome = true) Option.isSome_iff_exists
  | .disconnect d _ => decidable_of_iff (s.dials[d]?.any (fun dial => decide (dial.wasValidated = true)) = true) any_some_iff
  | .drain _ _ => inferInstanceAs (Decidable (s.draining ≠ []))
  | .enqueue .. | .stop _ => inferInstanceAs (Decidable True)

def pruned (s : Dialing ι) (i : ι) (expired : TimePoint) : Dialing ι :=
  s.put i { s.scheduler i with dialHistory := (s.scheduler i).dialHistory.expire expired }

theorem enqueue_cases (s : Dialing ι) (i : ι) (vp : ValidatedPeer) (expired asked added : TimePoint) :
    s.enqueue i vp expired asked added = s ∨ s.enqueue i vp expired asked added = s.pruned i expired ∨
    ((s.pruned i expired).Room i ∧ s.enqueue i vp expired asked added = (s.pruned i expired).startDial i vp added) ∨
    (¬ (s.pruned i expired).Room i ∧ s.enqueue i vp expired asked added = (s.pruned i expired).put i
      { (s.pruned i expired).scheduler i with queue := (s.scheduler i).queue ++ [vp] }) := by
  simp only [enqueue]
  split
  · exact .inl rfl
  split
  · exact .inl rfl
  split
  · exact .inr (.inl rfl)
  split_ifs with room
  · exact .inr (.inr (.inl ⟨room,rfl⟩))
  · refine .inr (.inr (.inr ⟨room,?_⟩))
    simp [pruned,put]

theorem drain_cases (s : Dialing ι) (asked added : TimePoint) :
    s.drain asked added = s ∨ ∃ i outer,s.draining = i :: outer ∧
      (((s.scheduler i).queue = [] ∨ ¬ s.Room i) ∧ s.drain asked added = { s with draining := outer } ∨
      ∃ vp queue,(s.scheduler i).queue = vp :: queue ∧ s.Room i ∧
        (s.drain asked added = s.put i { s.scheduler i with queue := queue } ∨
        s.drain asked added = (s.put i { s.scheduler i with queue := queue }).startDial i vp added)) := by
  simp only [drain]
  split
  · exact .inl rfl
  rename_i i outer loops
  refine .inr ⟨i,outer,loops,?_⟩
  split
  · rename_i empty
    exact .inl ⟨.inl empty,rfl⟩
  rename_i vp queue waiting
  split
  · rename_i room
    refine .inr ⟨vp,queue,waiting,room,?_⟩
    split
    · exact .inl rfl
    · exact .inr rfl
  · rename_i full
    exact .inl ⟨.inr full,rfl⟩

def Spawns (s next : Dialing ι) : Prop :=
  next.dials = s.dials ∨ ∃ i vp started,next.dials = s.dials ++ [⟨i,vp,started,false,false,false⟩]

theorem enqueue_spawns (i : ι) (expired added : TimePoint) : Spawns s (s.enqueue i vp expired asked added) := by
  rcases enqueue_cases s i vp expired asked added with same | same | ⟨_,same⟩ | ⟨_,same⟩
  · exact .inl (by rw [same])
  · exact .inl (by rw [same]; rfl)
  · exact .inr ⟨i,vp,added,by rw [same]; rfl⟩
  · exact .inl (by rw [same]; rfl)

theorem drain_spawns (s : Dialing ι) (added : TimePoint) : Spawns s (s.drain asked added) := by
  rcases drain_cases s asked added with same | ⟨i,_,_,⟨_,same⟩ | ⟨vp,_,_,_,same | same⟩⟩
  · exact .inl (by rw [same])
  · exact .inl (by rw [same])
  · exact .inl (by rw [same]; rfl)
  · exact .inr ⟨i,vp,added,by rw [same]; rfl⟩

end Dialing
end EvmRelay.Discv4
