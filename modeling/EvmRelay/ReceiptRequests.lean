import EvmRelay.EthRoundTrip
import EvmRelay.WatchMessages

namespace EvmRelay.EthWatchService
open Eth Rlp RlpSpec Codec

theorem hashWire_length (blockHash : Hash256) : (fixedWire blockHash).length ≤ 33 := by
  have short := encodeString_short (show blockHash.toList.length ≤ 55 by simp)
  rwa [blockHash.toList_length] at short

theorem getReceipts_returned (requestId : BitVec 64) (blockHash : Hash256) :
    ∃ view : ByteView,encodeGetReceipts ⟨some requestId,.singleton blockHash⟩ = .ok view.bytes ∧
      decodeGetReceipts view = .ok ⟨some requestId,.singleton blockHash⟩ := by
  have returned : RoundTrips encodeGetReceipts decodeGetReceipts (requestWire hashListWire)
      ⟨some requestId,.singleton blockHash⟩ ⟨some requestId,.singleton blockHash⟩ :=
    request_returned hashList_writes hashList_exact (fun _ _ formed => formed.list) requestId hashes_formed
  obtain ⟨bytes,wired,returned⟩ := returned
  have spelled : encodeList (encodeScalar requestId.toNat ++ encodeList (fixedWire blockHash)) = bytes := by
    simpa [requestWire,hashListWire,StdVector.singleton] using wired
  have numeral : (BigEndian.minimal requestId.toNat).length ≤ 8 := by
    rw [BigEndian.minimal_length]
    exact byteLength_le_eight _ requestId.isLt
  have scalar : (encodeScalar requestId.toNat).length ≤ 9 := (encodeString_short (by omega)).trans (by omega)
  have hash := hashWire_length blockHash
  have list : (encodeList (fixedWire blockHash)).length ≤ 34 := by
    rw [encodeList_short (by omega)]
    omega
  have fits : bytes.length < sizeLimit := by
    rw [← spelled,encodeList_short (by rw [List.length_append]; omega),List.length_append]
    unfold sizeLimit
    omega
  exact ⟨⟨bytes,fits⟩,returned fits⟩

namespace Messaging

def requestOf : Action κ → Option GetReceiptsMessage
  | .sent messageId payload =>
    if messageId = kGetReceiptsMessageId then
      if fits : payload.length < sizeLimit then (decodeGetReceipts ⟨payload,fits⟩).toOption else none
    else none
  | .called _ => none

def requestedHashes (actions : List (Action κ)) : List Hash256 :=
  ((actions.filterMap requestOf).flatMap (·.content.items)).reverse

variable {actions more : List (Action κ)} {service : Messaging κ}

theorem requestOf_sent (decoded : decodeGetReceipts view = .ok request) :
    requestOf (.sent kGetReceiptsMessageId view.bytes : Action κ) = some request := by
  simp [requestOf,view.fits,decoded,Except.toOption]

theorem requestedHashes_sent (decoded : decodeGetReceipts view = .ok ⟨some requestId,.singleton blockHash⟩) :
    requestedHashes (actions ++ [.sent kGetReceiptsMessageId view.bytes]) = blockHash :: requestedHashes actions := by
  simp [requestedHashes,requestOf_sent decoded,StdVector.singleton]

theorem requestedHashes_quiet (quiet : ∀ action ∈ more,requestOf action = none) :
    requestedHashes (actions ++ more) = requestedHashes actions := by
  have nothing := List.filterMap_eq_nil_iff.mpr quiet
  simp [requestedHashes,nothing]

structure Remembers (actions : List (Action κ)) (service : Messaging κ) : Prop where
  window : service.chainTracker.windowSize = ChainTracker.kDefaultWindowSize
  tracks : service.chainTracker.Tracks (requestedHashes actions)

def recentHashes (actions : List (Action κ)) : List Hash256 :=
  (requestedHashes actions).take ChainTracker.kDefaultWindowSize

theorem requestReceipts_skipped (remembers : Remembers actions service)
    (skipped : service.sendCb = true → blockHash ∈ recentHashes actions) :
    service.requestReceipts blockHash blockNumber = pure service := by
  unfold requestReceipts
  by_cases sending : service.sendCb = true
  · have seen := skipped sending
    rw [recentHashes,← remembers.window] at seen
    rw [if_neg (not_not_intro sending),remembers.tracks.markSeen_seen seen]
    rfl
  · rw [if_pos sending]

def afterRequest (service : Messaging κ) (blockHash : Hash256) (blockNumber : BitVec 64) : Messaging κ :=
  { service with
    chainTracker := (service.chainTracker.markSeen blockHash blockNumber).2
    nextReqId := service.nextReqId + 1#64
    pendingRequests := Function.update service.pendingRequests service.nextReqId (some ⟨blockHash,blockNumber⟩)
    messageStats := { service.messageStats with receiptsRequested := service.messageStats.receiptsRequested + 1#64 } }

theorem requestReceipts_sent (remembers : Remembers actions service) (sending : service.sendCb = true)
    (fresh : blockHash ∉ recentHashes actions) (blockNumber : BitVec 64) :
    ∃ view : ByteView,encodeGetReceipts ⟨some service.nextReqId,.singleton blockHash⟩ = .ok view.bytes ∧
      decodeGetReceipts view = .ok ⟨some service.nextReqId,.singleton blockHash⟩ ∧
      service.requestReceipts blockHash blockNumber =
        ⟨[.sent kGetReceiptsMessageId view.bytes],.ok (service.afterRequest blockHash blockNumber)⟩ := by
  obtain ⟨view,encoded,decoded⟩ := getReceipts_returned ..
  refine ⟨view,encoded,decoded,?_⟩
  rw [recentHashes,← remembers.window] at fresh
  have marked := (remembers.tracks.markSeen_fresh fresh blockNumber).1
  unfold requestReceipts
  rw [if_neg (not_not_intro sending)]
  dsimp only
  rw [marked,if_neg (by simp),encoded]
  rfl

def AsksOne (messageId : UInt8) (payload : List UInt8) (requestId : BitVec 64) (blockHash : Hash256) : Prop :=
  messageId = kGetReceiptsMessageId ∧
    ∃ view : ByteView,view.bytes = payload ∧ decodeGetReceipts view = .ok ⟨some requestId,.singleton blockHash⟩

def askedOne (msg : GetReceiptsMessage) : Option (BitVec 64 × Hash256) :=
  match msg.requestId,msg.content.items with
  | some requestId,[blockHash] => some (requestId,blockHash)
  | _,_ => none

def asked (actions : List (Action κ)) : List (BitVec 64 × Hash256) :=
  (actions.filterMap fun action => (requestOf action).bind askedOne).reverse

def ids (count : Nat) : List (BitVec 64) := ((List.range count).map fun k => BitVec.ofNat 64 (k + 1)).reverse

-- What a service sends: requests for one block each, with ids that count up, and
-- none for a block that one of the last requests was for.
structure Orderly (actions : List (Action κ)) : Prop where
  single : ∀ messageId payload,.sent messageId payload ∈ actions →
    ∃ requestId blockHash,AsksOne messageId payload requestId blockHash
  hashes : requestedHashes actions = (asked actions).map Prod.snd
  numbered : (asked actions).map Prod.fst = ids (asked actions).length
  spaced : FifoWindow.Spaced ChainTracker.kDefaultWindowSize ((asked actions).map Prod.snd)

structure Kept (actions : List (Action κ)) (service : Messaging κ) : Prop where
  remembers : Remembers actions service
  orderly : Orderly actions
  next : service.nextReqId = BitVec.ofNat 64 ((asked actions).length + 1)

theorem ids_succ (count : Nat) : ids (count + 1) = BitVec.ofNat 64 (count + 1) :: ids count := by
  simp [ids,List.range_succ]

theorem asked_sent (decoded : decodeGetReceipts view = .ok ⟨some requestId,.singleton blockHash⟩) :
    asked (actions ++ [.sent kGetReceiptsMessageId view.bytes]) = (requestId,blockHash) :: asked actions := by
  simp [asked,requestOf_sent decoded,askedOne,StdVector.singleton]

theorem quiet_calls (calls : ∀ action ∈ more,∃ call,action = .called call) : ∀ action ∈ more,requestOf action = none := by
  intro action member
  obtain ⟨call,rfl⟩ := calls action member
  rfl

theorem asked_quiet (quiet : ∀ action ∈ more,requestOf action = none) : asked (actions ++ more) = asked actions := by
  have nothing : more.filterMap (fun action => (requestOf action).bind askedOne) = [] :=
    List.filterMap_eq_nil_iff.mpr fun action member => by rw [quiet action member]; rfl
  simp [asked,nothing]

theorem Orderly.sent (orderly : Orderly actions)
    (decoded : decodeGetReceipts view = .ok ⟨some requestId,.singleton blockHash⟩)
    (counted : requestId = BitVec.ofNat 64 ((asked actions).length + 1)) (fresh : blockHash ∉ recentHashes actions) :
    Orderly (actions ++ [.sent kGetReceiptsMessageId view.bytes]) := by
  refine ⟨?_,?_,?_,?_⟩
  · intro messageId payload member
    rcases List.mem_append.mp member with before | last
    · exact orderly.single messageId payload before
    · cases List.mem_singleton.mp last
      exact ⟨requestId,blockHash,rfl,view,rfl,decoded⟩
  · rw [requestedHashes_sent decoded,asked_sent decoded,orderly.hashes]
    rfl
  · rw [asked_sent decoded,List.map_cons,List.length_cons,ids_succ,orderly.numbered,counted]
  · rw [asked_sent decoded]
    refine .cons ?_ orderly.spaced
    rw [← orderly.hashes]
    exact fresh

theorem Orderly.quiet (orderly : Orderly actions) (calls : ∀ action ∈ more,∃ call,action = .called call) :
    Orderly (actions ++ more) := by
  have quiet := quiet_calls calls
  refine ⟨?_,?_,?_,?_⟩
  · intro messageId payload member
    rcases List.mem_append.mp member with before | last
    · exact orderly.single messageId payload before
    · obtain ⟨call,wrong⟩ := calls _ last
      cases wrong
  · rw [requestedHashes_quiet quiet,asked_quiet quiet,orderly.hashes]
  · rw [asked_quiet quiet,orderly.numbered]
  · rw [asked_quiet quiet]
    exact orderly.spaced

theorem Kept.moved (kept : Kept actions service) (tracker : after.chainTracker = service.chainTracker)
    (next : after.nextReqId = service.nextReqId) : Kept actions after := by
  obtain ⟨⟨window,tracks⟩,orderly,counted⟩ := kept
  rw [← tracker] at window tracks
  exact ⟨⟨window,tracks⟩,orderly,next.trans counted⟩

theorem Kept.count (kept : Kept actions service) (step : MessageStats → MessageStats) : Kept actions (service.count step) :=
  kept.moved rfl rfl

theorem Kept.quiet (kept : Kept actions service) (calls : ∀ action ∈ more,∃ call,action = .called call) :
    Kept (actions ++ more) service := by
  obtain ⟨⟨window,tracks⟩,orderly,counted⟩ := kept
  have quiet := quiet_calls calls
  rw [← requestedHashes_quiet quiet] at tracks
  rw [← asked_quiet quiet] at counted
  exact ⟨⟨window,tracks⟩,orderly.quiet calls,counted⟩

theorem new_kept : Kept [] (.new : Messaging κ) :=
  ⟨⟨rfl,ChainTracker.new_tracks _⟩,⟨nofun,rfl,rfl,.nil⟩,rfl⟩

-- Whatever becomes of a part of a run, what it has sent is in order, and a
-- service that comes out of it knows that.
def Keeps (actions : List (Action κ)) (ran : Emitting Fault (Action κ) (Messaging κ)) : Prop :=
  Orderly (actions ++ ran.events) ∧ ∀ after,ran.outcome = .ok after → Kept (actions ++ ran.events) after

theorem Kept.keeps (kept : Kept actions service) (tracker : after.chainTracker = service.chainTracker)
    (next : after.nextReqId = service.nextReqId) : Keeps actions (pure after) := by
  have same : actions ++ (pure after : Emitting Fault (Action κ) (Messaging κ)).events = actions := List.append_nil _
  rw [Keeps,same]
  refine ⟨kept.orderly,?_⟩
  intro reached ended
  cases ended
  exact kept.moved tracker next

theorem requestReceipts_keeps (kept : Kept actions service) (blockHash : Hash256) (blockNumber : BitVec 64) :
    Keeps actions (service.requestReceipts blockHash blockNumber) := by
  by_cases skipped : service.sendCb = true → blockHash ∈ recentHashes actions
  · rw [requestReceipts_skipped kept.remembers skipped]
    exact kept.keeps rfl rfl
  obtain ⟨sending,fresh⟩ := Classical.not_imp.mp skipped
  obtain ⟨view,_,decoded,sent⟩ := requestReceipts_sent kept.remembers sending fresh blockNumber
  have orderly := kept.orderly.sent decoded kept.next fresh
  rw [sent]
  refine ⟨orderly,?_⟩
  intro after ended
  cases ended
  obtain ⟨⟨window,tracks⟩,_,counted⟩ := kept
  rw [recentHashes,← window] at fresh
  refine ⟨⟨(ChainTracker.markSeen_windowSize ..).trans window,?_⟩,orderly,?_⟩
  · rw [requestedHashes_sent decoded]
    exact (tracks.markSeen_fresh fresh blockNumber).2
  · rw [asked_sent decoded,List.length_cons]
    show service.nextReqId + 1#64 = _
    rw [counted,← BitVec.ofNat_add]

theorem requestReceipts_completes (service : Messaging κ) (blockHash : Hash256) (blockNumber : BitVec 64) :
    (service.requestReceipts blockHash blockNumber).Completes := by
  obtain ⟨view,encoded,_⟩ := getReceipts_returned ..
  unfold requestReceipts
  split
  · exact ⟨_,rfl⟩
  · dsimp only
    split
    · exact ⟨_,rfl⟩
    · rw [encoded]
      exact ⟨_,rfl⟩

theorem onNewBlockHashes_keeps (kept : Kept actions service) (payload : ByteView) :
    Keeps actions (service.onNewBlockHashes payload) := by
  unfold onNewBlockHashes
  split
  · exact kept.keeps rfl rfl
  rename_i msg _
  have each (after : Messaging κ) (ended : (Emitting.loop (fun service entry => requestReceipts service entry.hash entry.number) 0
      (service.count fun stats => { stats with newBlockHashesMessages := stats.newBlockHashesMessages + 1#64 })
      msg.entries.items).outcome = .ok after) :=
    Emitting.loop_told Kept (kept.count _)
      (fun _ _ entry after told ran => (requestReceipts_keeps told entry.hash entry.number).2 after ran) ended
  obtain ⟨after,ended⟩ := (Emitting.loop_completes (fun _ => True) fun (before : Messaging κ) (entry : NewBlockHashEntry) =>
    iff_of_true (requestReceipts_completes before entry.hash entry.number) trivial).mpr fun _ _ => trivial
  exact ⟨(each after ended).orderly,each⟩

theorem onNewBlock_keeps (kept : Kept actions service) (payload : ByteView) : Keeps actions (service.onNewBlock payload) := by
  unfold onNewBlock
  dsimp only
  split
  · exact kept.keeps rfl rfl
  · exact requestReceipts_keeps (kept.count _) _ _

theorem correlate_same (field : Messaging κ → α) (pending : ∀ service requests,field { service with pendingRequests := requests } = field service) :
    field (service.correlate requestId blockIdx).2 = field service := by
  unfold correlate
  cases requestId with
  | none => rfl
  | some id =>
    dsimp only
    split
    · split
      · rfl
      · exact pending _ _
    · rfl

theorem answer_same (field : Messaging κ → α) (pending : ∀ service requests,field { service with pendingRequests := requests } = field service)
    (watch : ∀ service own,field { service with toEthWatchService := own } = field service)
    (ran : (service.answer keccak256 msg).outcome = .ok after) : field after = field service := by
  obtain ⟨state,looped,ended⟩ := Emitting.outcome_bind.mp ran
  cases ended
  refine Emitting.loop_invariant (fun _ state => field state.1 = field service) rfl ?_ looped
  intro k before block after _ kept ran
  obtain ⟨own,_,ended⟩ := Emitting.outcome_bind.mp ran
  cases ended
  exact (watch _ _).trans ((correlate_same field pending ..).trans kept)

theorem onReceipts_keeps (kept : Kept actions service) (payload : ByteView) :
    Keeps actions (service.onReceipts keccak256 payload) := by
  unfold onReceipts
  dsimp only
  split
  · exact kept.keeps rfl rfl
  rename_i msg _
  have calls : ∀ action ∈ ((service.count fun stats => { stats with receiptsMessages := stats.receiptsMessages + 1#64 }).answer
      keccak256 msg).events.map fun made => Action.called made.2.2.2.2,∃ call,action = .called call := by
    intro action member
    obtain ⟨made,_,rfl⟩ := List.mem_map.mp member
    exact ⟨_,rfl⟩
  have later := kept.quiet calls
  refine ⟨later.orderly,?_⟩
  intro after ended
  have tracker := answer_same Messaging.chainTracker (fun _ _ => rfl) (fun _ _ => rfl) ended
  have next := answer_same Messaging.nextReqId (fun _ _ => rfl) (fun _ _ => rfl) ended
  exact later.moved tracker next

theorem processMessage_keeps (kept : Kept actions service) (ethMsgId : UInt8) (payload : ByteView) :
    Keeps actions (service.processMessage keccak256 ethMsgId payload) := by
  have counted := kept.count fun stats => { stats with ethMessagesSeen := stats.ethMessagesSeen + 1#64 }
  unfold processMessage
  split
  · exact onNewBlockHashes_keeps counted payload
  split
  · exact onNewBlock_keeps counted payload
  split
  · exact onReceipts_keeps counted payload
  · exact counted.keeps rfl rfl

theorem perform_keeps (kept : Kept actions service) (step : Step κ) : Keeps actions (service.perform keccak256 step) := by
  cases step with
  | message ethMsgId payload => exact processMessage_keeps kept ethMsgId payload
  | _ => exact kept.keeps rfl rfl

theorem run_snoc : run keccak256 service (steps ++ [step]) =
      run keccak256 service steps >>= fun last => (last.perform keccak256 step).during (0 + steps.length) :=
  Emitting.loop_snoc ..

theorem run_keeps (steps : List (Step κ)) : Keeps [] ((run keccak256 .new steps).relabel Prod.snd) := by
  induction steps using List.reverseRecOn with
  | nil => exact ⟨new_kept.orderly,fun after ended => by cases ended; exact new_kept⟩
  | append_singleton steps step ih =>
    rw [run_snoc]
    cases reached : (run keccak256 .new steps).outcome with
    | error fault =>
      rw [Emitting.bind_stopped reached]
      exact ⟨ih.1,nofun⟩
    | ok last =>
      have kept : Keeps _ (last.perform keccak256 step) := perform_keeps (ih.2 last reached) step
      have events : [] ++ ((run keccak256 .new steps >>= fun last => (last.perform keccak256 step).during (0 + steps.length)).relabel
          Prod.snd).events = [] ++ ((run keccak256 .new steps).relabel Prod.snd).events ++ (last.perform keccak256 step).events := by
        simp [Emitting.relabel,Emitting.bind_events reached,Emitting.during,Function.comp_def]
      rw [Keeps,events]
      refine ⟨kept.1,?_⟩
      intro after ended
      rw [Emitting.relabel_outcome] at ended
      obtain ⟨_,again,ran⟩ := Emitting.outcome_bind.mp ended
      cases reached.symm.trans again
      exact kept.2 after ran

theorem run_remembers (reached : (run keccak256 .new steps).outcome = .ok service) :
    Remembers ((run keccak256 .new steps).events.map Prod.snd) service := ((run_keeps steps).2 service reached).remembers

variable (keccak256 : List UInt8 → Hash256)

def Requested (service : Messaging κ) (payload : ByteView) (msg : NewBlockMessage) : Prop :=
  ∃ after requestId blockHash encoded,
    (service.processMessage keccak256 kNewBlockMessageId payload).outcome = .ok after ∧
    .sent kGetReceiptsMessageId encoded ∈ (service.processMessage keccak256 kNewBlockMessageId payload).events ∧
    encodeGetReceipts ⟨some requestId,.singleton blockHash⟩ = .ok encoded ∧
    after.pendingRequests requestId = some ⟨blockHash,msg.header.number⟩

theorem processMessage_newBlock (decoded : service.decodeBlock payload = .ok msg) :
    ∃ counted : Messaging κ,counted.sendCb = service.sendCb ∧ counted.chainTracker = service.chainTracker ∧
      service.processMessage keccak256 kNewBlockMessageId payload =
        counted.requestReceipts (FixedBytes.zeros 32) msg.header.number := by
  have counted (one two : MessageStats → MessageStats) : ((service.count one).count two).decodeBlock payload = .ok msg := decoded
  unfold processMessage onNewBlock
  rw [if_neg (by decide),if_pos rfl]
  dsimp only
  rw [counted]
  refine ⟨_,?_,?_,rfl⟩
  · rfl
  · rfl

-- Every block is asked for under the zero hash, so a block is asked for if and
-- only if none of the last requests was for that hash.
theorem new_block_requested_iff (steps : List (Step κ)) (service : Messaging κ)
    (reached : (run keccak256 .new steps).outcome = .ok service) (sending : service.sendCb = true) (payload : ByteView)
    (msg : NewBlockMessage) (decoded : service.decodeBlock payload = .ok msg) : Requested keccak256 service payload msg ↔
      FixedBytes.zeros 32 ∉ recentHashes ((run keccak256 .new steps).events.map Prod.snd) := by
  obtain ⟨window,tracks⟩ := run_remembers reached
  obtain ⟨counted,callback,tracker,ran⟩ := processMessage_newBlock keccak256 decoded
  rw [← tracker] at window tracks
  unfold Requested
  rw [ran]
  constructor
  · intro requested recent
    obtain ⟨_,_,_,_,_,sent,_⟩ := requested
    rw [requestReceipts_skipped ⟨window,tracks⟩ (fun _ => recent)] at sent
    cases sent
  · intro fresh
    obtain ⟨view,encoded,_,sent⟩ := requestReceipts_sent ⟨window,tracks⟩ (callback.trans sending) fresh ..
    rw [sent]
    exact ⟨_,counted.nextReqId,FixedBytes.zeros 32,view.bytes,rfl,List.mem_cons_self,encoded,Function.update_self ..⟩

def emptyBlock (number : BitVec 64) : NewBlockMessage := ⟨{ zeroHeader with number := number },.empty,.empty,0⟩

def firstBlock : ByteView := ⟨(encodeNewBlock (emptyBlock 1#64)).toOption.getD [],by decide +kernel⟩

def secondBlock : ByteView := ⟨(encodeNewBlock (emptyBlock 2#64)).toOption.getD [],by decide +kernel⟩

def sendingSteps : List (Step Unit) := [.setSendCallback true]

def sendingService : Messaging Unit := { (.new : Messaging Unit) with sendCb := true }

theorem first_block_requested : Requested transferKeccak sendingService firstBlock (emptyBlock 1#64) :=
  (new_block_requested_iff transferKeccak sendingSteps sendingService rfl rfl firstBlock (emptyBlock 1#64)
    (by decide +kernel)).mpr List.not_mem_nil

def announcedSteps : List (Step Unit) := sendingSteps ++ [.message kNewBlockMessageId firstBlock]

def announcedService : Messaging Unit := (run transferKeccak .new announcedSteps).outcome.toOption.getD .new

theorem announced_reached : (run transferKeccak .new announcedSteps).outcome = .ok announcedService := by
  have ended : (run transferKeccak .new announcedSteps).outcome.toOption.isSome = true := by decide +kernel
  exact ended_get ended .new

theorem second_block_dropped :
    (run transferKeccak .new announcedSteps).outcome = .ok announcedService ∧ announcedService.sendCb = true ∧
    announcedService.decodeBlock secondBlock = .ok (emptyBlock 2#64) ∧
    (emptyBlock 1#64).header ≠ (emptyBlock 2#64).header ∧ (emptyBlock 1#64).header.number ≠ (emptyBlock 2#64).header.number ∧
    ¬ Requested transferKeccak announcedService secondBlock (emptyBlock 2#64) := by
  have numbers : (emptyBlock 1#64).header.number ≠ (emptyBlock 2#64).header.number := by decide
  have nothing : (announcedService.processMessage transferKeccak kNewBlockMessageId secondBlock).events.length = 0 := by
    decide +kernel
  refine ⟨announced_reached,by decide +kernel,by decide +kernel,
    fun same => numbers (congrArg BlockHeader.number same),numbers,?_⟩
  rintro ⟨_,_,_,_,_,sent,_⟩
  rw [List.length_eq_zero_iff.mp nothing] at sent
  cases sent

end Messaging
end EvmRelay.EthWatchService
