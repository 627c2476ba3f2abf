import EvmRelay.EthHandshake
import EvmRelay.Machine

namespace EvmRelay.Eth

inductive SessionState where
  | kActive | kClosed | kError
  deriving DecidableEq

-- Where the dial coroutine is: suspended in the handshake, given up, or past
-- install_session_bridge, with what was still queued when it got there.
inductive DialStage where
  | waiting
  | failed
  | bridged (missed : List ProtocolMessage)
  deriving DecidableEq

-- A session with its two coroutines. Of `arrived` and `taken` no code reads
-- anything: all messages the receive loop got, and those the handshake popped.
structure BridgedSession where
  state : SessionState
  receiving : Bool
  recvChannel : List ProtocolMessage
  stage : DialStage
  processed : List (UInt8 × StdVector UInt8)
  arrived : List ProtocolMessage
  taken : List ProtocolMessage
  deriving DecidableEq

-- connect has returned, the local Status is posted, the first poll found nothing.
def BridgedSession.fresh : BridgedSession := ⟨.kActive,true,[],.waiting,[],[],[]⟩

structure Poll where
  ended : Option HandshakeEnd
  taken : List ProtocolMessage
  left : List ProtocolMessage

section bridge
variable (start : EthStatusHandshakeStart) (channel : EthSessionChannel)

-- The handshake from one suspension to the next. Only the call that follows a
-- dropped message looks at the session's state.
def poll (active expired : Bool) : List ProtocolMessage → Poll
  | [] => ⟨if expired then onInbound start channel none else none,[],[]⟩
  | msg :: rest =>
    match onInbound start channel (some msg) with
    | some ended => ⟨some ended,[msg],rest⟩
    | none =>
      if active then { poll active expired rest with taken := msg :: (poll active expired rest).taken }
      else ⟨onInbound start channel none,[msg],rest⟩

-- A message as the session bridge would hand it to process_message.
def ethMessage (msg : ProtocolMessage) : Option (UInt8 × StdVector UInt8) :=
  (normalizeEthWireMessageId msg.id channel.negotiatedEthOffset).map fun ethId => (ethId,msg.payload)

-- route_message as far as the eth handler: Hello, Disconnect, Ping and Pong come first.
def routeMessage (msg : ProtocolMessage) : Option (UInt8 × StdVector UInt8) :=
  if msg.id ≤ 3 then none else ethMessage channel msg

def DialStage.hasHandler : DialStage → Bool
  | .bridged _ => true
  | _ => false

namespace BridgedSession

def receive (s : BridgedSession) (msg : ProtocolMessage) : BridgedSession :=
  { s with
    processed := s.processed ++ (if s.stage.hasHandler then routeMessage channel msg else none).toList
    recvChannel := s.recvChannel ++ [msg]
    arrived := s.arrived ++ [msg]
    receiving := decide (s.state = .kActive) }

-- The dial coroutine is resumed by its timer. From an accepted Status it runs to
-- install_session_bridge without being suspended again.
def resume (s : BridgedSession) (expired : Bool) : BridgedSession :=
  let polled := poll start channel (decide (s.state = .kActive)) expired s.recvChannel
  let s := { s with recvChannel := polled.left,taken := s.taken ++ polled.taken }
  match polled.ended with
  | none => s
  | some ended =>
    match ended.result with
    | .ok _ => { s with stage := .bridged polled.left }
    | .error _ => { s with stage := .failed,state := if s.state = .kActive then .kClosed else s.state }

inductive Action where
  | receive (msg : ProtocolMessage)
  | receiveFailed
  | sendFailed
  | disconnect
  | resume (expired : Bool)

def Allowed (s : BridgedSession) : Action → Prop
  | .receive _ => s.receiving = true
  | .receiveFailed => s.receiving = true
  | .sendFailed => s.state = .kActive
  | .disconnect => True
  | .resume _ => s.stage = .waiting

def apply (s : BridgedSession) : Action → BridgedSession
  | .receive msg => s.receive channel msg
  | .receiveFailed => { s with state := .kError,receiving := false }
  | .sendFailed => { s with state := .kError }
  | .disconnect => { s with state := if s.state = .kActive then .kClosed else s.state }
  | .resume expired => s.resume start channel expired

def machine : Machine BridgedSession Action := ⟨Allowed,apply start channel⟩

end BridgedSession
end bridge

theorem poll_cut (start : EthStatusHandshakeStart) (channel : EthSessionChannel) (active expired : Bool) (queue : List ProtocolMessage) :
    queue = (poll start channel active expired queue).taken ++ (poll start channel active expired queue).left := by
  induction queue with
  | nil => rfl
  | cons msg rest ih =>
    rw [poll]
    cases onInbound start channel (some msg) with
    | some ended => rfl
    | none =>
      cases active with
      | false => rfl
      | true => exact congrArg (msg :: ·) ih

theorem poll_accepts
    (polled : (poll start channel active expired queue).ended = some ended) (ok : ended.result = .ok status) :
    ∃ before msg,(poll start channel active expired queue).taken = before ++ [msg] ∧ Accepted start channel msg status := by
  have failure : onInbound start channel none ≠ some ended := by
    intro same
    cases same
    cases ok
  induction queue with
  | nil =>
    rw [poll] at polled
    split at polled
    · exact absurd polled failure
    · cases polled
  | cons msg rest ih =>
    rw [poll] at polled ⊢
    cases judged : onInbound start channel (some msg) with
    | some found =>
      rw [judged] at polled
      cases polled
      exact ⟨[],msg,rfl,onInbound_accepts.mp (by rw [judged,Option.map_some,ok])⟩
    | none =>
      rw [judged] at polled
      cases active with
      | false => exact absurd polled failure
      | true =>
        obtain ⟨before,last,taken,accepted⟩ := ih polled
        exact ⟨msg :: before,last,congrArg (msg :: ·) taken,accepted⟩

theorem filterMap_le {given all : α → Option β} (narrower : ∀ item,given item = none ∨ given item = all item) (items : List α) :
    (items.filterMap given).length ≤ (items.filterMap all).length := by
  induction items with
  | nil => exact Nat.le_refl _
  | cons item rest ih =>
    rcases narrower item with none | same
    · rw [List.filterMap_cons_none none]
      exact ih.trans ((List.sublist_cons_self item rest).filterMap all).length_le
    · cases read : all item with
      | none => rwa [List.filterMap_cons_none (same.trans read),List.filterMap_cons_none read]
      | some found =>
        rw [List.filterMap_cons_some (same.trans read),List.filterMap_cons_some read]
        exact Nat.succ_le_succ ih

theorem filterMap_same {given all : α → Option β} (narrower : ∀ item,given item = none ∨ given item = all item) {items : List α}
    (equal : items.filterMap given = items.filterMap all) : ∀ item ∈ items,given item = all item := by
  induction items with
  | nil => simp
  | cons item rest ih =>
    rw [List.forall_mem_cons]
    rcases narrower item with none | same
    · cases read : all item with
      | none =>
        rw [List.filterMap_cons_none none,List.filterMap_cons_none read] at equal
        exact ⟨none,ih equal⟩
      | some found =>
        rw [List.filterMap_cons_none none,List.filterMap_cons_some read] at equal
        have short := filterMap_le narrower rest
        rw [equal,List.length_cons] at short
        omega
    · refine ⟨same,ih ?_⟩
      cases read : all item with
      | none => rwa [List.filterMap_cons_none (same.trans read),List.filterMap_cons_none read] at equal
      | some found =>
        rw [List.filterMap_cons_some (same.trans read),List.filterMap_cons_some read] at equal
        exact List.tail_eq_of_cons_eq equal

theorem filterMap_narrower {given all : α → Option β} (narrower : ∀ item,given item = none ∨ given item = all item) {front : List β}
    {items : List α} : items.filterMap given = front ++ items.filterMap all ↔ front = [] ∧ ∀ item ∈ items,given item = all item := by
  constructor
  · intro equal
    have short := filterMap_le narrower items
    rw [equal,List.length_append] at short
    have empty : front = [] := List.length_eq_zero_iff.mp (by omega)
    rw [empty,List.nil_append] at equal
    exact ⟨empty,filterMap_same narrower equal⟩
  · intro both
    rw [both.1,List.nil_append]
    exact List.filterMap_congr both.2

theorem ethMessage_none (msg : ProtocolMessage) : ethMessage channel msg = none ↔ msg.id < channel.negotiatedEthOffset := by
  rw [ethMessage,Option.map_eq_none_iff,normalize_none]

theorem routeMessage_narrower (msg : ProtocolMessage) : routeMessage channel msg = none ∨ routeMessage channel msg = ethMessage channel msg := by
  unfold routeMessage
  split
  · exact Or.inl rfl
  · exact Or.inr rfl

theorem routeMessage_eth (msg : ProtocolMessage) :
    routeMessage channel msg = ethMessage channel msg ↔ (channel.negotiatedEthOffset ≤ msg.id → 3 < msg.id) := by
  unfold routeMessage
  split_ifs with low
  · rw [eq_comm,ethMessage_none,← UInt8.not_le,← UInt8.not_le]
    tauto
  · rw [UInt8.not_le] at low
    simp [low]

namespace BridgedSession
variable {s : BridgedSession}

def Handed (start : EthStatusHandshakeStart) (channel : EthSessionChannel) (s : BridgedSession) : Prop :=
  match s.stage with
  | .waiting => s.processed = [] ∧ s.arrived = s.taken ++ s.recvChannel
  | .failed => True
  | .bridged missed =>
    (∃ before msg status,s.taken = before ++ [msg] ∧ Accepted start channel msg status) ∧
      ∃ later,s.arrived = s.taken ++ missed ++ later ∧ s.processed = later.filterMap (routeMessage channel)

theorem receive_handed (handed : Handed start channel s) (msg : ProtocolMessage) : Handed start channel (s.receive channel msg) := by
  obtain ⟨state,receiving,recvChannel,stage,processed,arrived,taken⟩ := s
  cases stage with
  | waiting =>
    obtain ⟨none,all⟩ := handed
    exact ⟨by simpa [receive,DialStage.hasHandler] using none,by simp_all [receive]⟩
  | failed => trivial
  | bridged missed =>
    obtain ⟨accepted,later,all,passed⟩ := handed
    refine ⟨accepted,later ++ [msg],by simp_all [receive],?_⟩
    have one : [msg].filterMap (routeMessage channel) = (routeMessage channel msg).toList := by
      cases routed : routeMessage channel msg <;> simp [routed]
    rw [List.filterMap_append,one,← passed]
    rfl

theorem resume_handed (handed : Handed start channel s) (waiting : s.stage = .waiting) :
    Handed start channel (s.resume start channel expired) := by
  obtain ⟨state,receiving,recvChannel,stage,processed,arrived,taken⟩ := s
  cases waiting
  obtain ⟨none,all⟩ := handed
  have cut := poll_cut start channel (decide (state = .kActive)) expired recvChannel
  unfold resume
  dsimp only
  split
  · refine ⟨none,?_⟩
    rw [all,List.append_assoc,← cut]
  rename_i ended polled
  split
  · rename_i status ok
    obtain ⟨before,msg,popped,accepted⟩ := poll_accepts polled ok
    refine ⟨⟨taken ++ before,msg,status,?_,accepted⟩,[],?_,none⟩
    · rw [popped,List.append_assoc]
    · rw [all,List.append_nil,List.append_assoc,← cut]
  · trivial

theorem apply_handed (s : BridgedSession) (action : Action) (allowed : s.Allowed action) (handed : Handed start channel s) :
    Handed start channel (s.apply start channel action) := by
  cases action with
  | receive msg => exact receive_handed handed msg
  | resume expired => exact resume_handed handed allowed ..
  | _ => exact handed

theorem sequence_handed (path : (machine start channel).Sequence .fresh actions s) : Handed start channel s :=
  path.keeps (Handed start channel) (show Handed start channel .fresh from ⟨rfl,rfl⟩) apply_handed

-- Messages queued behind the accepted Status are never handed on, the later
-- ones are, unless their wire id is that of a base message.
theorem bridged_session_delivers_iff (start : EthStatusHandshakeStart) (channel : EthSessionChannel) (actions : List Action)
    (s : BridgedSession) (missed : List ProtocolMessage) (path : (machine start channel).Sequence .fresh actions s)
    (bridged : s.stage = .bridged missed) : ∃ before accepted status later,Accepted start channel accepted status ∧
      s.arrived = before ++ [accepted] ++ (missed ++ later) ∧
      (s.processed = (missed ++ later).filterMap (ethMessage channel) ↔
        (∀ msg ∈ missed,msg.id < channel.negotiatedEthOffset) ∧
          ∀ msg ∈ later,channel.negotiatedEthOffset ≤ msg.id → 3 < msg.id) := by
  have handed := sequence_handed path
  unfold Handed at handed
  rw [bridged] at handed
  obtain ⟨⟨before,accepted,status,taken,good⟩,later,all,passed⟩ := handed
  refine ⟨before,accepted,status,later,good,by rw [all,taken,List.append_assoc],?_⟩
  rw [passed,List.filterMap_append,filterMap_narrower routeMessage_narrower]
  refine and_congr ?_ (forall₂_congr fun msg _ => routeMessage_eth msg)
  rw [List.filterMap_eq_nil_iff]
  exact forall₂_congr fun msg _ => ethMessage_none msg

theorem resume_bridges
    (accepted : Accepted start channel msg status) (queued : s.recvChannel = msg :: rest) (expired : Bool) :
    s.resume start channel expired = { s with recvChannel := rest,taken := s.taken ++ [msg],stage := .bridged rest } := by
  obtain ⟨ended,judged,ok⟩ := Option.map_eq_some_iff.mp (onInbound_accepts.mpr accepted)
  simp only [resume,queued,poll,judged,ok]

def bridgeChannel : EthSessionChannel := ⟨69,16,true⟩

def bridgeStart : EthStatusHandshakeStart := ⟨some bridgeChannel,1,.zeros 32,genesisFork,.empty⟩

def peerStatus : ProtocolMessage := ⟨16,statusPayload (.v69 emptyRange)⟩

def peerAnnouncement : ProtocolMessage := ⟨17,.singleton 0xC0⟩

theorem peerStatus_accepted : Accepted bridgeStart bridgeChannel peerStatus (.v69 emptyRange) := by
  have read : decodeStatus (.ofVector peerStatus.payload) = .ok (.v69 emptyRange) := decodeStatus_range rfl rfl
  exact ⟨rfl,by decide,read,rfl,rfl,rfl,Or.inl rfl⟩

def bridgedThen : BridgedSession :=
  ⟨.kActive,true,[peerAnnouncement],.bridged [],[(1,.singleton 0xC0)],[peerStatus,peerAnnouncement],[peerStatus]⟩

theorem bridgedThen_reached : (machine bridgeStart bridgeChannel).Sequence .fresh
    [.receive peerStatus,.resume false,.receive peerAnnouncement] bridgedThen := by
  refine .cons rfl (.cons rfl ?_)
  show (machine bridgeStart bridgeChannel).Sequence
    ((fresh.receive bridgeChannel peerStatus).resume bridgeStart bridgeChannel false) [.receive peerAnnouncement] bridgedThen
  rw [resume_bridges peerStatus_accepted rfl]
  exact .cons rfl .nil

theorem announcement_after_poll_delivered :
    (machine bridgeStart bridgeChannel).Sequence .fresh [.receive peerStatus,.resume false,.receive peerAnnouncement] bridgedThen ∧
      ∃ before accepted status later,Accepted bridgeStart bridgeChannel accepted status ∧
        bridgedThen.arrived = before ++ [accepted] ++ ([] ++ later) ∧
        (bridgedThen.processed = ([] ++ later).filterMap (ethMessage bridgeChannel) ↔
          (∀ msg ∈ ([] : List ProtocolMessage),msg.id < bridgeChannel.negotiatedEthOffset) ∧
            ∀ msg ∈ later,bridgeChannel.negotiatedEthOffset ≤ msg.id → 3 < msg.id) :=
  ⟨bridgedThen_reached,bridged_session_delivers_iff _ _ _ _ [] bridgedThen_reached rfl⟩

def bridgedLate : BridgedSession :=
  ⟨.kActive,true,[peerAnnouncement],.bridged [peerAnnouncement],[],[peerStatus,peerAnnouncement],[peerStatus]⟩

theorem announcement_before_poll_lost :
    (machine bridgeStart bridgeChannel).Sequence .fresh [.receive peerStatus,.receive peerAnnouncement,.resume false] bridgedLate ∧
      Accepted bridgeStart bridgeChannel peerStatus (.v69 emptyRange) ∧ bridgedLate.arrived = [peerStatus,peerAnnouncement] ∧
      ethMessage bridgeChannel peerAnnouncement = some (1,.singleton 0xC0) ∧ bridgedLate.processed = [] := by
  refine ⟨.cons rfl (.cons rfl (.cons rfl ?_)),peerStatus_accepted,rfl,rfl,rfl⟩
  show (machine bridgeStart bridgeChannel).Sequence
    (((fresh.receive bridgeChannel peerStatus).receive bridgeChannel peerAnnouncement).resume bridgeStart bridgeChannel false) []
    bridgedLate
  rw [resume_bridges peerStatus_accepted rfl]
  exact .nil

def Action.received : Action → Option ProtocolMessage
  | .receive msg => some msg
  | .receiveFailed => none
  | .sendFailed => none
  | .disconnect => none
  | .resume _ => none

def received (actions : List Action) : List ProtocolMessage := actions.filterMap Action.received

theorem received_snoc : received (actions ++ [action]) = received actions ++ action.received.toList := by
  rw [received,List.filterMap_append]
  cases action <;> rfl

-- Whatever arrives is queued, also what the handler has been given, and nobody
-- takes it out again.
structure Queued (channel : EthSessionChannel) (s : BridgedSession) (missed : List ProtocolMessage) (later : List Action) (t : BridgedSession) :
    Prop where
  stage : t.stage = .bridged missed
  queue : t.recvChannel = s.recvChannel ++ received later
  handled : t.processed = s.processed ++ (received later).filterMap (routeMessage channel)

theorem Queued.silent (queued : Queued channel s missed later t) (none : action.received = none)
    (stage : next.stage = t.stage) (queue : next.recvChannel = t.recvChannel) (handled : next.processed = t.processed) :
    Queued channel s missed (later ++ [action]) next := by
  have same : received (later ++ [action]) = received later := by
    rw [received_snoc,none,Option.toList_none,List.append_nil]
  exact ⟨stage.trans queued.stage,by rw [queue,queued.queue,same],by rw [handled,queued.handled,same]⟩

theorem Queued.apply (queued : Queued channel s missed later t) (allowed : t.Allowed action) :
    Queued channel s missed (later ++ [action]) (t.apply start channel action) := by
  cases action with
  | receive msg =>
    have handler : t.stage.hasHandler = true := by
      rw [queued.stage]
      rfl
    refine ⟨queued.stage,?_,?_⟩
    · show t.recvChannel ++ [msg] = _
      rw [received_snoc,queued.queue,List.append_assoc]
      rfl
    · show t.processed ++ (if t.stage.hasHandler then routeMessage channel msg else none).toList = _
      rw [if_pos handler,queued.handled,received_snoc,List.filterMap_append,List.append_assoc]
      cases routed : routeMessage channel msg <;> simp [Action.received,routed]
  | resume expired =>
    have waiting : t.stage = .waiting := allowed
    rw [queued.stage] at waiting
    cases waiting
  | _ => exact queued.silent rfl rfl rfl rfl

theorem later_queue (bridged : s.stage = .bridged missed)
    (path : (machine start channel).Sequence s later t) : Queued channel s missed later t :=
  path.history (Queued channel s missed) ⟨bridged,(List.append_nil _).symm,(List.append_nil _).symm⟩
    fun _ _ _ allowed queued => queued.apply allowed

theorem resume_left (path : (machine start channel).Sequence .fresh actions s) (waiting : s.stage = .waiting)
    (returned : (s.resume start channel expired).stage = .bridged missed) :
    (s.resume start channel expired).recvChannel = missed ∧ (s.resume start channel expired).processed = [] ∧
      s.arrived = (s.resume start channel expired).taken ++ missed := by
  have handed := sequence_handed path
  unfold Handed at handed
  rw [waiting] at handed
  obtain ⟨none,all⟩ := handed
  have cut := poll_cut start channel (decide (s.state = .kActive)) expired s.recvChannel
  have stays : s.stage ≠ .bridged missed := by
    rw [waiting]
    nofun
  unfold resume at returned ⊢
  dsimp only at returned ⊢
  split at returned
  · exact absurd returned stays
  rename_i ended polled
  split at returned
  · rename_i status ok
    cases returned
    refine ⟨rfl,none,?_⟩
    show s.arrived = s.taken ++ _ ++ _
    rw [all,List.append_assoc,← cut]
  · cases returned

-- So the channel stays within what had arrived by then and a constant exactly as long
-- as no more messages come than the handshake had popped and that constant.
theorem receive_queue_bounded_iff (start : EthStatusHandshakeStart) (channel : EthSessionChannel) (earlier later : List Action)
    (s t : BridgedSession) (expired : Bool) (missed : List ProtocolMessage) (path : (machine start channel).Sequence .fresh earlier s)
    (waiting : s.stage = .waiting) (returned : (s.resume start channel expired).stage = .bridged missed)
    (onward : (machine start channel).Sequence (s.resume start channel expired) later t) :
    t.recvChannel = missed ++ received later ∧ t.processed = (received later).filterMap (routeMessage channel) ∧
      ∀ constant,t.recvChannel.length ≤ s.arrived.length + constant ↔
        (received later).length ≤ (s.resume start channel expired).taken.length + constant := by
  obtain ⟨left,none,all⟩ := resume_left path waiting returned
  have queued := later_queue returned onward
  have queue : t.recvChannel = missed ++ received later := by rw [queued.queue,left]
  refine ⟨queue,by rw [queued.handled,none,List.nil_append],fun constant => ?_⟩
  rw [queue,all,List.length_append,List.length_append]
  omega

def answered : BridgedSession := fresh.receive bridgeChannel peerStatus

theorem answered_reached : (machine bridgeStart bridgeChannel).Sequence .fresh [.receive peerStatus] answered := .single rfl

def flooded (count : Nat) : BridgedSession :=
  ⟨.kActive,true,List.replicate count peerAnnouncement,.bridged [],List.replicate count (1,.singleton 0xC0),
    peerStatus :: List.replicate count peerAnnouncement,[peerStatus]⟩

theorem answered_bridged : answered.resume bridgeStart bridgeChannel false = flooded 0 := resume_bridges peerStatus_accepted rfl false

theorem flooded_reached (count : Nat) :
    (machine bridgeStart bridgeChannel).Sequence (answered.resume bridgeStart bridgeChannel false)
      (List.replicate count (.receive peerAnnouncement)) (flooded count) := by
  rw [answered_bridged]
  induction count with
  | zero => exact .nil
  | succ count ih =>
    have one : (flooded count).receive bridgeChannel peerAnnouncement = flooded (count + 1) := by
      simp only [flooded,List.replicate_succ',← List.cons_append]
      rfl
    rw [List.replicate_succ',← one]
    exact ih.append (.single rfl)

theorem received_flood : received (List.replicate count (.receive peerAnnouncement)) = List.replicate count peerAnnouncement :=
  List.filterMap_replicate_of_some (f := Action.received) rfl

theorem one_announcement_bounded : (flooded 1).recvChannel.length ≤ answered.arrived.length + 0 :=
  ((receive_queue_bounded_iff bridgeStart bridgeChannel _ _ answered (flooded 1) false [] answered_reached rfl
    (by rw [answered_bridged]; rfl) (flooded_reached 1)).2.2 0).mpr (by rw [answered_bridged]; decide)

theorem announcements_pile_up : ¬ ∃ constant,∀ (earlier later : List Action) (s t : BridgedSession) (missed : List ProtocolMessage),
    (machine bridgeStart bridgeChannel).Sequence .fresh earlier s → s.stage = .waiting →
    (s.resume bridgeStart bridgeChannel false).stage = .bridged missed →
    (machine bridgeStart bridgeChannel).Sequence (s.resume bridgeStart bridgeChannel false) later t →
    t.processed.length = (received later).length → t.recvChannel.length ≤ s.arrived.length + constant := by
  rintro ⟨constant,bounded⟩
  have small := bounded _ _ answered (flooded (constant + 2)) [] answered_reached rfl (by rw [answered_bridged]; rfl)
    (flooded_reached _) (by rw [received_flood]; simp [flooded])
  have sizes : (flooded (constant + 2)).recvChannel.length = constant + 2 ∧ answered.arrived.length = 1 := ⟨List.length_replicate,rfl⟩
  omega

end BridgedSession

end EvmRelay.Eth
