import EvmRelay.EnodeUri
import Mathlib.Data.Finset.Card

namespace EvmRelay.Discv5
open ParseUtility Discv4

-- What the crawler's calls share: the state behind state_mutex_, the counters, and
-- the peers that peer_callback_ was invoked with.
structure CrawlerState where
  queuedPeers : List DiscoveredPeer
  discoveredIds : Finset NodeId
  statDiscovered : Nat
  statInvalidEnr : Nat
  statWrongChain : Nat
  statNoEthEntry : Nat
  statDuplicates : Nat
  callbacks : List DiscoveredPeer
  deriving DecidableEq

namespace CrawlerState

def fresh : CrawlerState := ⟨[],∅,0,0,0,0,0,[]⟩

def alreadyQueued (c : CrawlerState) (peer : DiscoveredPeer) : Bool := c.queuedPeers.any fun qp => qp.nodeId = peer.nodeId

def processFoundPeer (c : CrawlerState) (peer : DiscoveredPeer) : CrawlerState :=
  if peer.nodeId ∈ c.discoveredIds then { c with statDuplicates := c.statDuplicates + 1 }
  else if c.alreadyQueued peer then { c with statDuplicates := c.statDuplicates + 1 }
  else { c with queuedPeers := c.queuedPeers ++ [peer] }

def processFoundPeers (c : CrawlerState) (peers : List DiscoveredPeer) : CrawlerState := peers.foldl processFoundPeer c

def dequeueNext (c : CrawlerState) : Option DiscoveredPeer × CrawlerState :=
  match c.queuedPeers with
  | [] => (none,c)
  | peer :: rest => (some peer,{ c with queuedPeers := rest })

def enqueue (c : CrawlerState) : Option DiscoveredPeer → CrawlerState
  | none => { c with statInvalidEnr := c.statInvalidEnr + 1 }
  | some peer => c.processFoundPeers [peer]

end CrawlerState

def recordPeer? (record : Enr.EnrRecord) : Option DiscoveredPeer :=
  match toValidatedPeer record with
  | .error _ => none
  | .ok peer => some ⟨peer.nodeId,ascii peer.ip,peer.udpPort,peer.tcpPort,peer.ethForkId⟩

-- A record the parser rejects is not taken; one at which it leaves its bounds ends the process.
def enrPeer (crypto : Enr.Crypto) (text : Enr.AddressText) (uri : Text) : Checked Enr.Discv5Error (Option DiscoveredPeer) :=
  match Enr.parse crypto text uri with
  | .error .outOfBounds => .error .outOfBounds
  | .error (.returned _) => .ok none
  | .ok record => .ok (recordPeer? record)

-- A call of ingest_discovered_peers at the next thing it does that others can see,
-- with the peers it has not looked at.
inductive IngestCall where
  | look (peers : List DiscoveredPeer)
  | decide (alreadyDiscovered : Bool) (peer : DiscoveredPeer) (rest : List DiscoveredPeer)
  | insert (peer : DiscoveredPeer) (rest : List DiscoveredPeer)
  | count (peer : DiscoveredPeer) (rest : List DiscoveredPeer)
  | invoke (peer : DiscoveredPeer) (rest : List DiscoveredPeer)
  deriving DecidableEq

def IngestCall.Returned (call : IngestCall) : Prop := call = .look []

instance (call : IngestCall) : Decidable call.Returned := inferInstanceAs (Decidable (_ = _))

section crawler
variable (requiredForkId : Option Enr.ForkId)

def emitPeer (c : CrawlerState) (peer : DiscoveredPeer) (rest : List DiscoveredPeer) : CrawlerState × IngestCall :=
  match requiredForkId with
  | none => (c,.insert peer rest)
  | some required =>
    match peer.ethForkId with
    | none => ({ c with statNoEthEntry := c.statNoEthEntry + 1 },.look rest)
    | some actual =>
      if required.hash ≠ actual.hash ∨ required.next ≠ actual.next then
        ({ c with statWrongChain := c.statWrongChain + 1 },.look rest)
      else (c,.insert peer rest)

def IngestCall.step (c : CrawlerState) : IngestCall → CrawlerState × IngestCall
  | .look [] => (c,.look [])
  | .look (peer :: rest) =>
    let alreadyDiscovered : Bool := peer.nodeId ∈ c.discoveredIds
    let c := if ¬ alreadyDiscovered ∧ ¬ c.alreadyQueued peer then { c with queuedPeers := c.queuedPeers ++ [peer] } else c
    (c,.decide alreadyDiscovered peer rest)
  | .decide true _ rest => ({ c with statDuplicates := c.statDuplicates + 1 },.look rest)
  | .decide false peer rest => emitPeer requiredForkId c peer rest
  | .insert peer rest =>
    if peer.nodeId ∈ c.discoveredIds then ({ c with statDuplicates := c.statDuplicates + 1 },.look rest)
    else ({ c with discoveredIds := Insert.insert peer.nodeId c.discoveredIds },.count peer rest)
  | .count peer rest => ({ c with statDiscovered := c.statDiscovered + 1 },.invoke peer rest)
  | .invoke peer rest => ({ c with callbacks := c.callbacks ++ [peer] },.look rest)

structure Crawling where
  crawler : CrawlerState
  calls : List IngestCall
  deriving DecidableEq

namespace Crawling

def fresh : Crawling := ⟨.fresh,[]⟩

def Idle (s : Crawling) : Prop := ∀ call ∈ s.calls,call.Returned

inductive Action where
  | ingestDiscoveredPeers (peers : List DiscoveredPeer)
  | step (index : Nat)
  | processFoundPeers (peers : List DiscoveredPeer)
  | dequeueNext
  | enqueueEnrUri (uri : Text)
  | enqueueEnodeUri (uri : Text)
  | addBootstrap (record : Enr.EnrRecord)

def Allowed (s : Crawling) : Action → Prop
  | .step index => index < s.calls.length
  | _ => True

def apply (crypto : Enr.Crypto) (text : Enr.AddressText) (s : Crawling) : Action → Crawling
  | .ingestDiscoveredPeers peers => { s with calls := s.calls ++ [.look peers] }
  | .step index =>
    match s.calls[index]? with
    | none => s
    | some call => ⟨(call.step requiredForkId s.crawler).1,s.calls.set index (call.step requiredForkId s.crawler).2⟩
  | .processFoundPeers peers => { s with crawler := s.crawler.processFoundPeers peers }
  | .dequeueNext => { s with crawler := s.crawler.dequeueNext.2 }
  | .enqueueEnrUri uri =>
    match enrPeer crypto text uri with
    -- The process has ended here, with nothing enqueued.
    | .error _ => s
    | .ok peer => { s with crawler := s.crawler.enqueue peer }
  | .enqueueEnodeUri uri => { s with crawler := s.crawler.enqueue (enodePeer uri) }
  | .addBootstrap record => { s with crawler := s.crawler.enqueue (recordPeer? record) }

instance (s : Crawling) : (action : Action) → Decidable (s.Allowed action)
  | .step index => inferInstanceAs (Decidable (index < s.calls.length))
  | .ingestDiscoveredPeers _ => inferInstanceAs (Decidable True)
  | .processFoundPeers _ => inferInstanceAs (Decidable True)
  | .dequeueNext => inferInstanceAs (Decidable True)
  | .enqueueEnrUri _ => inferInstanceAs (Decidable True)
  | .enqueueEnodeUri _ => inferInstanceAs (Decidable True)
  | .addBootstrap _ => inferInstanceAs (Decidable True)

def machine (crypto : Enr.Crypto) (text : Enr.AddressText) : Machine Crawling Action := ⟨Allowed,apply requiredForkId crypto text⟩

instance (crypto : Enr.Crypto) (text : Enr.AddressText) (s : Crawling) (action : Action) :
    Decidable ((machine requiredForkId crypto text).Allowed s action) := inferInstanceAs (Decidable (s.Allowed action))

end Crawling
end crawler

-- The peers a call is about to announce: entered into discovered_ids_, but their
-- callback has not run.
def IngestCall.announcing : IngestCall → Option DiscoveredPeer
  | .count peer _ => some peer
  | .invoke peer _ => some peer
  | _ => none

def IngestCall.calling : IngestCall → Option DiscoveredPeer
  | .invoke peer _ => some peer
  | _ => none

def IngestCall.admitted : IngestCall → Option DiscoveredPeer
  | .insert peer _ => some peer
  | .count peer _ => some peer
  | .invoke peer _ => some peer
  | _ => none

def ForkMatches (requiredForkId : Option Enr.ForkId) (peer : DiscoveredPeer) : Prop :=
  ∀ required,requiredForkId = some required →
    ∃ actual,peer.ethForkId = some actual ∧ actual.hash = required.hash ∧ actual.next = required.next

def QueuedOnce (c : CrawlerState) : Prop := (c.queuedPeers.map DiscoveredPeer.nodeId).Nodup

theorem QueuedOnce.push (once : QueuedOnce c) (absent : ¬ c.alreadyQueued peer = true) :
    ((c.queuedPeers ++ [peer]).map DiscoveredPeer.nodeId).Nodup := by
  rw [List.map_append,List.nodup_append_comm]
  refine List.nodup_cons.mpr ⟨fun member => absent ?_,once⟩
  obtain ⟨other,queued,same⟩ := List.mem_map.mp member
  exact List.any_eq_true.mpr ⟨other,queued,decide_eq_true same⟩

structure SameAnnouncements (c after : CrawlerState) : Prop where
  callbacks : after.callbacks = c.callbacks
  discoveredIds : after.discoveredIds = c.discoveredIds
  statDiscovered : after.statDiscovered = c.statDiscovered

theorem SameAnnouncements.refl (c : CrawlerState) : SameAnnouncements c c := ⟨rfl,rfl,rfl⟩

theorem SameAnnouncements.trans (one : SameAnnouncements c between) (two : SameAnnouncements between after) :
    SameAnnouncements c after :=
  ⟨two.callbacks.trans one.callbacks,two.discoveredIds.trans one.discoveredIds,two.statDiscovered.trans one.statDiscovered⟩

theorem processFoundPeer_kept (peer : DiscoveredPeer) (once : QueuedOnce c) :
    QueuedOnce (c.processFoundPeer peer) ∧ SameAnnouncements c (c.processFoundPeer peer) := by
  unfold CrawlerState.processFoundPeer
  split
  · exact ⟨once,rfl,rfl,rfl⟩
  · split_ifs with absent
    · exact ⟨once,rfl,rfl,rfl⟩
    · exact ⟨once.push absent,rfl,rfl,rfl⟩

theorem processFoundPeers_kept (peers : List DiscoveredPeer) (once : QueuedOnce c) :
    QueuedOnce (c.processFoundPeers peers) ∧ SameAnnouncements c (c.processFoundPeers peers) := by
  induction peers generalizing c with
  | nil => exact ⟨once,.refl c⟩
  | cons peer rest ih =>
    obtain ⟨first,same⟩ := processFoundPeer_kept peer once
    obtain ⟨others,alike⟩ := ih first
    exact ⟨others,same.trans alike⟩

theorem enqueue_kept (once : QueuedOnce c) : QueuedOnce (c.enqueue parsed) ∧ SameAnnouncements c (c.enqueue parsed) := by
  cases parsed with
  | none => exact ⟨once,rfl,rfl,rfl⟩
  | some peer => exact processFoundPeers_kept [peer] once

theorem dequeueNext_kept (once : QueuedOnce c) : QueuedOnce c.dequeueNext.2 ∧ SameAnnouncements c c.dequeueNext.2 := by
  unfold CrawlerState.dequeueNext
  split
  · exact ⟨once,.refl c⟩
  · rename_i peer rest queued
    rw [QueuedOnce,queued] at once
    exact ⟨(List.nodup_cons.mp once).2,rfl,rfl,rfl⟩

namespace Crawling
variable {s : Crawling}

def announced (s : Crawling) : List NodeId := (s.crawler.callbacks ++ s.calls.filterMap IngestCall.announcing).map DiscoveredPeer.nodeId

structure Booked (requiredForkId : Option Enr.ForkId) (s : Crawling) : Prop where
  queued : QueuedOnce s.crawler
  once : s.announced.Nodup
  discovered : ∀ id,id ∈ s.crawler.discoveredIds ↔ id ∈ s.announced
  counted : s.crawler.statDiscovered = s.crawler.callbacks.length + (s.calls.filterMap IngestCall.calling).length
  matching : ∀ peer ∈ s.crawler.callbacks,ForkMatches requiredForkId peer
  admitted : ∀ call ∈ s.calls,∀ peer,call.admitted = some peer → ForkMatches requiredForkId peer

theorem fresh_booked : Booked requiredForkId fresh where
  queued := List.nodup_nil
  once := List.nodup_nil
  discovered := by simp [fresh,CrawlerState.fresh,announced]
  counted := rfl
  matching := fun _ member => absurd member List.not_mem_nil
  admitted := fun _ member => absurd member List.not_mem_nil

theorem Booked.aside (booked : Booked requiredForkId s) (kept : QueuedOnce c ∧ SameAnnouncements s.crawler c) :
    Booked requiredForkId { s with crawler := c } := by
  obtain ⟨queued,same⟩ := kept
  have list : announced { s with crawler := c } = s.announced := by
    unfold announced
    rw [same.callbacks]
  refine ⟨queued,list ▸ booked.once,fun id => ?_,?_,?_,booked.admitted⟩
  · rw [list,← booked.discovered id,same.discoveredIds]
  · exact same.statDiscovered.trans (booked.counted.trans (by rw [same.callbacks]))
  · intro peer member
    exact booked.matching peer (same.callbacks ▸ member)

theorem Booked.begin (booked : Booked requiredForkId s) (peers : List DiscoveredPeer) :
    Booked requiredForkId { s with calls := s.calls ++ [.look peers] } := by
  have unseen (f : IngestCall → Option DiscoveredPeer) (nothing : f (.look peers) = none) :
      (s.calls ++ [IngestCall.look peers]).filterMap f = s.calls.filterMap f := by
    rw [List.filterMap_append,List.filterMap_cons_none nothing,List.filterMap_nil,List.append_nil]
  have list : announced { s with calls := s.calls ++ [.look peers] } = s.announced := by
    unfold announced
    rw [unseen IngestCall.announcing rfl]
  refine ⟨booked.queued,list ▸ booked.once,fun id => list ▸ booked.discovered id,?_,booked.matching,?_⟩
  · show _ = _ + ((s.calls ++ [IngestCall.look peers]).filterMap IngestCall.calling).length
    rw [unseen IngestCall.calling rfl]
    exact booked.counted
  · intro call member peer admitted
    rcases List.mem_append.mp member with old | new
    · exact booked.admitted call old peer admitted
    · rw [List.mem_singleton.mp new] at admitted
      cases admitted

theorem calls_split {calls : List IngestCall} (found : calls[index]? = some call) :
    ∃ front back,calls = front ++ call :: back ∧ ∀ other,calls.set index other = front ++ other :: back := by
  obtain ⟨inside,rfl⟩ := List.getElem?_eq_some_iff.mp found
  refine ⟨calls.take index,calls.drop (index + 1),?_,fun other => List.set_eq_take_append_cons_drop.trans (if_pos inside)⟩
  rw [List.getElem_cons_drop,List.take_append_drop]

theorem filterMap_at (f : IngestCall → Option DiscoveredPeer) (front back : List IngestCall) (call : IngestCall) :
    ((front ++ call :: back).filterMap f).Perm ((f call).toList ++ (front ++ back).filterMap f) := by
  rw [List.filterMap_append,List.filterMap_append,List.filterMap_cons]
  cases f call with
  | none => exact .refl _
  | some peer => exact List.perm_middle

theorem filterMap_swap (call other : IngestCall) (alike : f other = f call) :
    (front ++ other :: back).filterMap f = (front ++ call :: back).filterMap f := by
  rw [List.filterMap_append,List.filterMap_append,List.filterMap_cons,List.filterMap_cons,alike]

theorem Booked.admitted_swap (booked : Booked requiredForkId ⟨c,front ++ call :: back⟩)
    (admitted : ∀ peer,other.admitted = some peer → ForkMatches requiredForkId peer) :
    ∀ some ∈ front ++ other :: back,∀ peer,some.admitted = Option.some peer → ForkMatches requiredForkId peer := by
  intro some member peer passed
  rcases List.mem_append.mp member with left | right
  · exact booked.admitted some (List.mem_append_left _ left) peer passed
  · rcases List.mem_cons.mp right with rfl | right
    · exact admitted peer passed
    · exact booked.admitted some (List.mem_append_right _ (List.mem_cons_of_mem _ right)) peer passed

theorem Booked.swap (booked : Booked requiredForkId ⟨c,front ++ call :: back⟩)
    (announcing : other.announcing = call.announcing) (calling : other.calling = call.calling)
    (admitted : ∀ peer,other.admitted = some peer → ForkMatches requiredForkId peer) :
    Booked requiredForkId ⟨c,front ++ other :: back⟩ := by
  have list : announced ⟨c,front ++ other :: back⟩ = announced ⟨c,front ++ call :: back⟩ := by
    unfold announced
    rw [filterMap_swap call other announcing]
  refine ⟨booked.queued,list ▸ booked.once,fun id => list ▸ booked.discovered id,?_,booked.matching,booked.admitted_swap admitted⟩
  rw [filterMap_swap call other calling]
  exact booked.counted

theorem Booked.pass (booked : Booked requiredForkId ⟨c,front ++ call :: back⟩)
    (kept : QueuedOnce after ∧ SameAnnouncements c after) (announcing : other.announcing = call.announcing)
    (calling : other.calling = call.calling) (admitted : ∀ peer,other.admitted = some peer → ForkMatches requiredForkId peer) :
    Booked requiredForkId ⟨after,front ++ other :: back⟩ :=
  Booked.swap (booked.aside kept) announcing calling admitted

theorem announced_at (c : CrawlerState) (front back : List IngestCall) (call : IngestCall) :
    (announced ⟨c,front ++ call :: back⟩).Perm
      (call.announcing.toList.map DiscoveredPeer.nodeId ++ announced ⟨c,front ++ back⟩) := by
  have moved : (c.callbacks ++ (front ++ call :: back).filterMap IngestCall.announcing).Perm
      (call.announcing.toList ++ (c.callbacks ++ (front ++ back).filterMap IngestCall.announcing)) := by
    refine ((filterMap_at ..).append_left c.callbacks).trans ?_
    rw [← List.append_assoc,← List.append_assoc]
    exact List.perm_append_comm.append_right _
  unfold announced
  rw [← List.map_append]
  exact moved.map DiscoveredPeer.nodeId

theorem Booked.insert
    (booked : Booked requiredForkId ⟨c,front ++ .insert peer rest :: back⟩) (new : peer.nodeId ∉ c.discoveredIds) :
    Booked requiredForkId ⟨{ c with discoveredIds := Insert.insert peer.nodeId c.discoveredIds },front ++ .count peer rest :: back⟩ := by
  have before := announced_at c front back (.insert peer rest)
  have after := announced_at { c with discoveredIds := Insert.insert peer.nodeId c.discoveredIds } front back (.count peer rest)
  have known (id : NodeId) : id ∈ c.discoveredIds ↔ id ∈ announced ⟨c,front ++ back⟩ :=
    (booked.discovered id).trans before.mem_iff
  refine ⟨booked.queued,?_,fun id => ?_,?_,booked.matching,booked.admitted_swap ?_⟩
  · exact after.nodup_iff.mpr (List.nodup_cons.mpr ⟨fun member => new ((known _).mpr member),before.nodup_iff.mp booked.once⟩)
  · rw [after.mem_iff]
    show id ∈ Insert.insert peer.nodeId c.discoveredIds ↔ id ∈ peer.nodeId :: announced ⟨c,front ++ back⟩
    rw [Finset.mem_insert,List.mem_cons,known]
  · rw [filterMap_swap (.insert peer rest) (.count peer rest) rfl]
    exact booked.counted
  · intro same admitted
    exact booked.admitted (.insert peer rest) (List.mem_append_right _ List.mem_cons_self) same admitted

theorem Booked.count (booked : Booked requiredForkId ⟨c,front ++ .count peer rest :: back⟩) :
    Booked requiredForkId ⟨{ c with statDiscovered := c.statDiscovered + 1 },front ++ .invoke peer rest :: back⟩ := by
  have list : announced ⟨{ c with statDiscovered := c.statDiscovered + 1 },front ++ .invoke peer rest :: back⟩ =
      announced ⟨c,front ++ .count peer rest :: back⟩ := by
    unfold announced
    rw [filterMap_swap (.count peer rest) (.invoke peer rest) rfl]
  have before := (filterMap_at IngestCall.calling front back (.count peer rest)).length_eq
  have after := (filterMap_at IngestCall.calling front back (.invoke peer rest)).length_eq
  refine ⟨booked.queued,list ▸ booked.once,fun id => list ▸ booked.discovered id,?_,booked.matching,booked.admitted_swap ?_⟩
  · have counted := booked.counted
    simp only [IngestCall.calling,Option.toList_none,Option.toList_some,List.nil_append,List.length_append,List.length_singleton]
      at before after
    dsimp only at counted ⊢
    omega
  · intro same admitted
    exact booked.admitted (.count peer rest) (List.mem_append_right _ List.mem_cons_self) same admitted

theorem Booked.invoke
    (booked : Booked requiredForkId ⟨c,front ++ .invoke peer rest :: back⟩) :
    Booked requiredForkId ⟨{ c with callbacks := c.callbacks ++ [peer] },front ++ .look rest :: back⟩ := by
  have before := announced_at c front back (.invoke peer rest)
  have after := announced_at { c with callbacks := c.callbacks ++ [peer] } front back (.look rest)
  have moved : (announced ⟨{ c with callbacks := c.callbacks ++ [peer] },front ++ .look rest :: back⟩).Perm
      (announced ⟨c,front ++ .invoke peer rest :: back⟩) := by
    refine after.trans (List.Perm.trans ?_ before.symm)
    show (((c.callbacks ++ [peer]) ++ (front ++ back).filterMap IngestCall.announcing).map DiscoveredPeer.nodeId).Perm
      (peer.nodeId :: (c.callbacks ++ (front ++ back).filterMap IngestCall.announcing).map DiscoveredPeer.nodeId)
    rw [← List.map_cons,List.append_assoc]
    exact List.perm_middle.map _
  have beforeCalls := (filterMap_at IngestCall.calling front back (.invoke peer rest)).length_eq
  have afterCalls := (filterMap_at IngestCall.calling front back (.look rest)).length_eq
  have passed := booked.admitted (.invoke peer rest) (List.mem_append_right _ List.mem_cons_self) peer rfl
  refine ⟨booked.queued,moved.nodup_iff.mpr booked.once,fun id => (booked.discovered id).trans moved.mem_iff.symm,?_,?_,
    booked.admitted_swap nofun⟩
  · have counted := booked.counted
    simp only [IngestCall.calling,Option.toList_none,Option.toList_some,List.nil_append,List.length_append,List.length_singleton]
      at beforeCalls afterCalls
    simp only [List.length_append,List.length_singleton] at counted ⊢
    omega
  · intro other member
    rcases List.mem_append.mp member with old | new
    · exact booked.matching other old
    · rw [List.mem_singleton.mp new]
      exact passed

theorem emitPeer_cases (c : CrawlerState) (rest : List DiscoveredPeer) :
    (emitPeer requiredForkId c peer rest = (c,.insert peer rest) ∧ ForkMatches requiredForkId peer) ∨
      ∃ after,emitPeer requiredForkId c peer rest = (after,.look rest) ∧ after.queuedPeers = c.queuedPeers ∧ SameAnnouncements c after := by
  unfold emitPeer
  cases requiredForkId with
  | none => exact Or.inl ⟨rfl,nofun⟩
  | some required =>
    cases found : peer.ethForkId with
    | none => exact Or.inr ⟨_,rfl,rfl,rfl,rfl,rfl⟩
    | some actual =>
      dsimp only
      split_ifs with alike
      · exact Or.inr ⟨_,rfl,rfl,rfl,rfl,rfl⟩
      · rw [not_or,not_not,not_not] at alike
        refine Or.inl ⟨rfl,fun other same => ?_⟩
        cases same
        exact ⟨actual,found,alike.1.symm,alike.2.symm⟩

theorem Booked.step (booked : Booked requiredForkId ⟨c,front ++ call :: back⟩) :
    Booked requiredForkId ⟨(call.step requiredForkId c).1,front ++ (call.step requiredForkId c).2 :: back⟩ := by
  cases call with
  | look peers =>
    cases peers with
    | nil => exact booked
    | cons peer rest =>
      rw [IngestCall.step]
      split_ifs with absent
      · exact booked.pass ⟨QueuedOnce.push booked.queued absent.2,rfl,rfl,rfl⟩ rfl rfl nofun
      · exact booked.swap rfl rfl nofun
  | decide alreadyDiscovered peer rest =>
    cases alreadyDiscovered with
    | true => exact booked.pass ⟨booked.queued,rfl,rfl,rfl⟩ rfl rfl nofun
    | false =>
      rw [IngestCall.step]
      rcases emitPeer_cases .. with ⟨passed,alike⟩ | ⟨after,failed,queued,same⟩
      · rw [passed]
        refine booked.swap rfl rfl fun other admitted => ?_
        cases admitted
        exact alike
      · rw [failed]
        have once : QueuedOnce after := by
          rw [QueuedOnce,queued]
          exact booked.queued
        exact booked.pass ⟨once,same⟩ rfl rfl nofun
  | insert peer rest =>
    rw [IngestCall.step]
    split_ifs with new
    · exact booked.pass ⟨booked.queued,rfl,rfl,rfl⟩ rfl rfl nofun
    · exact booked.insert new
  | count peer rest => exact booked.count
  | invoke peer rest => exact booked.invoke

theorem apply_booked (crypto : Enr.Crypto) (text : Enr.AddressText) (action : Action) (booked : Booked requiredForkId s) :
    Booked requiredForkId (s.apply requiredForkId crypto text action) := by
  cases action with
  | ingestDiscoveredPeers peers => exact booked.begin peers
  | step index =>
    rw [apply]
    split
    · exact booked
    rename_i call found
    obtain ⟨front,back,calls,set⟩ := calls_split found
    rw [set]
    have split : s = ⟨s.crawler,front ++ call :: back⟩ := by rw [← calls]
    rw [split] at booked
    exact booked.step
  | processFoundPeers peers => exact booked.aside (processFoundPeers_kept peers booked.queued)
  | dequeueNext => exact booked.aside (dequeueNext_kept booked.queued)
  | enqueueEnrUri uri =>
    rw [apply]
    split
    · exact booked
    · exact booked.aside (enqueue_kept booked.queued)
  | _ => exact booked.aside (enqueue_kept booked.queued)

theorem idle_announcing (nothing : f (.look []) = none) (idle : s.Idle) : s.calls.filterMap f = [] := by
  rw [List.filterMap_eq_nil_iff]
  intro call member
  rw [idle call member]
  exact nothing

theorem crawler_bookkeeping (crypto : Enr.Crypto) (text : Enr.AddressText) (requiredForkId : Option Enr.ForkId)
    (actions : List Action) (s : Crawling) (run : (machine requiredForkId crypto text).Sequence fresh actions s) :
    (s.crawler.queuedPeers.map DiscoveredPeer.nodeId).Nodup ∧ (s.crawler.callbacks.map DiscoveredPeer.nodeId).Nodup ∧
      (∀ peer ∈ s.crawler.callbacks,ForkMatches requiredForkId peer) ∧
      (s.Idle → s.crawler.callbacks.length = s.crawler.discoveredIds.card ∧
        s.crawler.statDiscovered = s.crawler.discoveredIds.card) := by
  have booked :=
    run.keeps (Booked requiredForkId) fresh_booked fun _ action _ booked => apply_booked crypto text action booked
  have once := booked.once
  rw [announced,List.map_append] at once
  refine ⟨booked.queued,once.of_append_left,booked.matching,fun idle => ?_⟩
  have quiet : s.announced = s.crawler.callbacks.map DiscoveredPeer.nodeId := by
    rw [announced,idle_announcing rfl idle,List.append_nil]
  have ids : s.crawler.discoveredIds = (s.crawler.callbacks.map DiscoveredPeer.nodeId).toFinset := by
    ext id
    rw [List.mem_toFinset,booked.discovered id,quiet]
  have size : s.crawler.callbacks.length = s.crawler.discoveredIds.card := by
    rw [ids,List.toFinset_card_of_nodup once.of_append_left,List.length_map]
  have counted := booked.counted
  rw [idle_announcing rfl idle,List.length_nil] at counted
  exact ⟨size,counted.trans size⟩

def metPeer : DiscoveredPeer := ⟨.zeros 64,ascii "10.0.0.1",30303,30303,some ⟨.zeros 4,0⟩⟩

def deafCrypto : Enr.Crypto := ⟨fun _ => .zeros 32,false,false,Unit,Unit,fun _ => none,fun _ => none,fun _ _ _ => false,fun _ => .zeros 65⟩

def numericText : Enr.AddressText := ⟨fun _ => "",fun _ => ""⟩

def metTwice : List Action :=
  [.ingestDiscoveredPeers [metPeer],.ingestDiscoveredPeers [metPeer],.step 0,.step 1,.step 1,.step 0,.dequeueNext,.step 0,.step 1,
    .step 0,.step 0]

def afterMetTwice : Crawling := ⟨⟨[],{.zeros 64},1,0,0,0,1,[metPeer]⟩,[.look [],.look []]⟩

theorem met_twice_run : (machine (some ⟨.zeros 4,0⟩) deafCrypto numericText).Sequence fresh metTwice afterMetTwice := by
  have ends : metTwice.foldl (apply (some ⟨.zeros 4,0⟩) deafCrypto numericText) fresh = afterMetTwice := by decide +kernel
  rw [← ends]
  exact Machine.sequence_of_check (by decide +kernel)

theorem met_twice_announced_once : (afterMetTwice.crawler.queuedPeers.map DiscoveredPeer.nodeId).Nodup ∧
      (afterMetTwice.crawler.callbacks.map DiscoveredPeer.nodeId).Nodup ∧
      (∀ peer ∈ afterMetTwice.crawler.callbacks,ForkMatches (some ⟨.zeros 4,0⟩) peer) ∧
      (afterMetTwice.Idle → afterMetTwice.crawler.callbacks.length = afterMetTwice.crawler.discoveredIds.card ∧
        afterMetTwice.crawler.statDiscovered = afterMetTwice.crawler.discoveredIds.card) :=
  crawler_bookkeeping deafCrypto numericText (some ⟨.zeros 4,0⟩) metTwice afterMetTwice met_twice_run

end Crawling

end EvmRelay.Discv5
