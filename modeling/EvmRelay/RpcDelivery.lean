import EvmRelay.RpcBackfill

namespace EvmRelay
namespace Rpc

-- Receipts fetched one after the other, each handed over right after its answer
-- came in.
inductive Deliveries (parse : Text → Option Json) : List Hash256 → List RpcEvent → Prop where
  | nil : Deliveries parse [] []
  | cons : parseTransactionReceiptResponse parse text = some receipt → Deliveries parse hashes events →
      Deliveries parse (txHash :: hashes)
        (.called (.getTransactionReceipt txHash) requestId (some text) :: .handed (receiptBatch receipt) :: events)

inductive LogAnswers (parse : Text → Option Json) (rangeStart rangeEnd : BitVec 64) :
    List RegisteredFilter → List RpcEvent → List (List RpcLog) → Prop where
  | nil : LogAnswers parse rangeStart rangeEnd [] [] []
  | cons : parseGetLogsResponse parse text = some logs → LogAnswers parse rangeStart rangeEnd filters events answers →
      LogAnswers parse rangeStart rangeEnd (entry :: filters)
        (.called (.getLogs entry.filter rangeStart rangeEnd) requestId (some text) :: events) (logs :: answers)

def RpcEvent.asksLogs (event : RpcEvent) : Bool := event.logsCall.isSome

def Listed (answers : List (List RpcLog)) (txHash : Hash256) : Prop :=
  ∃ logs ∈ answers,∃ log ∈ logs,log.txHash = txHash

theorem listed_cons :
    Listed (logs :: answers) = fun txHash => (∃ log ∈ logs,log.txHash = txHash) ∨ Listed answers txHash := by
  funext txHash
  simp [Listed]

-- An attempt at a range that delivered it: every filter was answered, and each
-- transaction listed in any of the answers was fetched and handed over once.
def Attempt (parse : Text → Option Json) (filters : List RegisteredFilter) (rangeStart rangeEnd : BitVec 64)
    (events : List RpcEvent) : Prop :=
  ∃ answers hashes,LogAnswers parse rangeStart rangeEnd filters (events.filter RpcEvent.asksLogs) answers ∧
    hashes.Nodup ∧ (∀ txHash,txHash ∈ hashes ↔ Listed answers txHash) ∧
    Deliveries parse hashes (events.filter fun event => !event.asksLogs)

theorem Deliveries.append (left : Deliveries parse front events) (right : Deliveries parse back others) :
    Deliveries parse (front ++ back) (events ++ others) := by
  induction left with
  | nil => exact right
  | cons read _ ih => exact .cons read ih

theorem Deliveries.asks (delivered : Deliveries parse hashes events) : ∀ event ∈ events,event.asksLogs = false := by
  induction delivered with
  | nil => simp
  | cons read _ ih =>
    intro event member
    rcases List.mem_cons.mp member with rfl | behind
    · rfl
    · rcases List.mem_cons.mp behind with rfl | later
      · rfl
      · exact ih event later

theorem Deliveries.filter_none (delivered : Deliveries parse hashes events) : events.filter RpcEvent.asksLogs = [] := by
  rw [List.filter_eq_nil_iff]
  intro event member
  simp [delivered.asks event member]

theorem Deliveries.filter_all (delivered : Deliveries parse hashes events) :
    (events.filter fun event => !event.asksLogs) = events := by
  rw [List.filter_eq_self]
  intro event member
  simp [delivered.asks event member]

section delivery
variable (parse : Text → Option Json) (transport : JsonRpcTransport σ)

theorem emitReceipt_cases (before : RpcState σ) : ((emitReceipt parse transport txHash before).value = none ∧ ∃ response,
      (emitReceipt parse transport txHash before).events =
        [.called (.getTransactionReceipt txHash) before.source.nextRpcId response]) ∨
    ∃ text receipt,parseTransactionReceiptResponse parse text = some receipt ∧
      (emitReceipt parse transport txHash before).events =
        .called (.getTransactionReceipt txHash) before.source.nextRpcId (some text) ::
          if before.source.handler then [.handed (receiptBatch receipt)] else [] := by
  unfold emitReceipt
  cases fetched : (getReceipt parse transport txHash before).value with
  | none =>
    rw [Session.bind_stopped fetched]
    exact Or.inl ⟨rfl,_,rfl⟩
  | some receipt =>
    obtain ⟨text,read,events⟩ := query_ended transport fetched
    refine Or.inr ⟨text,receipt,read,?_⟩
    rw [Session.bind_continued fetched]
    unfold getReceipt
    rw [events]
    rfl

theorem emitReceipt_delivers (installed : before.source.handler = true)
    (ended : (emitReceipt parse transport txHash before).value = some ()) :
    Deliveries parse [txHash] (emitReceipt parse transport txHash before).events := by
  rcases emitReceipt_cases .. with ⟨stopped,_⟩ | ⟨text,receipt,read,events⟩
  · rw [stopped] at ended
    cases ended
  · rw [events,if_pos installed]
    exact .cons read .nil

-- The set of seen transactions grows by the listed ones that are new, and those
-- are the ones delivered.
def Grows (listed : Hash256 → Prop) (seen after : List Hash256) (events : List RpcEvent) : Prop :=
  ∃ fresh,Deliveries parse fresh events ∧ after.reverse = seen.reverse ++ fresh ∧ (seen.Nodup → after.Nodup) ∧
    ∀ txHash,txHash ∈ after ↔ txHash ∈ seen ∨ listed txHash

theorem Grows.trans (left : Grows parse first seen middle front) (right : Grows parse second middle after back) :
    Grows parse (fun txHash => first txHash ∨ second txHash) seen after (front ++ back) := by
  obtain ⟨one,fetched,grown,single,members⟩ := left
  obtain ⟨two,others,further,still,more⟩ := right
  refine ⟨one ++ two,fetched.append others,?_,still ∘ single,?_⟩
  · rw [further,grown,List.append_assoc]
  · intro txHash
    rw [more,members,or_assoc]

theorem emitLog_grows
    (installed : before.source.handler = true) (ended : (emitLog parse transport seen log before).value = some after) :
    Grows parse (fun txHash => log.txHash = txHash) seen after (emitLog parse transport seen log before).events := by
  unfold emitLog at ended ⊢
  split_ifs at ended with known
  · cases ended
    rw [if_pos known]
    refine ⟨[],.nil,by simp,id,?_⟩
    intro txHash
    exact ⟨Or.inl,fun found => found.elim id fun same => same ▸ known⟩
  · obtain ⟨_,fetched,finished⟩ := Session.bind_ended ended
    cases finished
    rw [if_neg known,Session.bind_continued fetched]
    refine ⟨[log.txHash],?_,by simp,?_,?_⟩
    · have delivered := emitReceipt_delivers parse transport installed fetched
      rw [Session.pure_apply,List.append_nil]
      exact delivered
    · intro single
      exact List.nodup_cons.mpr ⟨known,single⟩
    · intro txHash
      rw [List.mem_cons,or_comm,eq_comm]

theorem emitLogs_grow {logs : List RpcLog}
    (installed : before.source.handler = true)
    (ended : ((logs.foldlM (emitLog parse transport) seen) before).value = some after) :
    Grows parse (fun txHash => ∃ log ∈ logs,log.txHash = txHash) seen after
      ((logs.foldlM (emitLog parse transport) seen) before).events := by
  induction logs generalizing seen before with
  | nil =>
    cases ended
    exact ⟨[],.nil,by simp,id,by simp⟩
  | cons log rest ih =>
    rw [List.foldlM_cons] at ended ⊢
    obtain ⟨middle,emitted,finished⟩ := Session.bind_ended ended
    obtain ⟨⟨_,source⟩,_⟩ := emitLog_keeps parse transport seen log before
    have still : (emitLog parse transport seen log before).state.source.handler = true := by
      rw [source]
      exact installed
    have grown := Grows.trans parse (emitLog_grows parse transport installed emitted) (ih still finished)
    rw [Session.bind_continued emitted]
    simpa using grown

theorem backfillFilter_grows
    (installed : before.source.handler = true)
    (ended : (backfillFilter parse transport filter fromBlock toBlock seen before).value = some after) :
    ∃ text logs events,parseGetLogsResponse parse text = some logs ∧
      (backfillFilter parse transport filter fromBlock toBlock seen before).events =
        .called (.getLogs filter fromBlock toBlock) before.source.nextRpcId (some text) :: events ∧
      Grows parse (fun txHash => ∃ log ∈ logs,log.txHash = txHash) seen after events := by
  obtain ⟨logs,asked,finished⟩ := Session.bind_ended ended
  obtain ⟨text,read,events⟩ := query_ended transport asked
  have kept : (query transport (parseGetLogsResponse parse) (.getLogs filter fromBlock toBlock) before).state.source.handler =
      true := installed
  refine ⟨text,logs,_,read,?_,emitLogs_grow parse transport kept finished⟩
  unfold backfillFilter
  rw [Session.bind_continued asked,events]
  rfl

theorem backfillFilters_deliver {rangeStart rangeEnd : BitVec 64}
    (installed : before.source.handler = true)
    (ended : (backfillFilters parse transport rangeStart rangeEnd seen filters before).value = some after) :
    let events := (backfillFilters parse transport rangeStart rangeEnd seen filters before).events
    ∃ answers,LogAnswers parse rangeStart rangeEnd filters (events.filter RpcEvent.asksLogs) answers ∧
      Grows parse (Listed answers) seen after (events.filter fun event => !event.asksLogs) := by
  induction filters generalizing seen before with
  | nil =>
    cases ended
    exact ⟨[],.nil,[],.nil,by simp,id,by simp [Listed]⟩
  | cons entry rest ih =>
    unfold backfillFilters at ended ⊢
    rw [List.foldlM_cons] at ended ⊢
    obtain ⟨middle,asked,finished⟩ := Session.bind_ended ended
    obtain ⟨⟨_,source⟩,_⟩ := backfillFilter_keeps parse transport entry.filter rangeStart rangeEnd seen before
    have still : (backfillFilter parse transport entry.filter rangeStart rangeEnd seen before).state.source.handler =
        true := by
      rw [source]
      exact installed
    obtain ⟨answers,answered,grown⟩ := ih still finished
    obtain ⟨text,logs,events,read,shown,first⟩ := backfillFilter_grows parse transport installed asked
    have delivered := first.choose_spec.1
    rw [Session.bind_continued asked,shown]
    refine ⟨logs :: answers,?_,?_⟩
    · rw [List.filter_append,List.filter_cons_of_pos rfl,delivered.filter_none]
      exact .cons read answered
    · rw [List.filter_append,List.filter_cons_of_neg (by simp [RpcEvent.asksLogs,RpcEvent.logsCall]),
        delivered.filter_all]
      rw [listed_cons]
      exact Grows.trans parse first grown

theorem round_delivers (installed : before.source.handler = true)
    (ended : (round parse transport toBlock start before).value = some ()) :
    ∃ front,(round parse transport toBlock start before).events = front ++ [.passed start (roundEnd toBlock start before)] ∧
      Attempt parse before.source.filters start (roundEnd toBlock start before) front := by
  obtain ⟨_,events,_,_,seen,asked⟩ := backfillRange_ended parse transport ended
  obtain ⟨answers,answered,fresh,delivered,grown,single,members⟩ :=
    backfillFilters_deliver parse transport installed asked
  refine ⟨_,events,answers,fresh,answered,?_,?_,delivered⟩
  · have reversed := List.nodup_reverse.mpr (single List.nodup_nil)
    rw [grown] at reversed
    exact reversed
  · intro txHash
    have member := members txHash
    rw [← List.mem_reverse,grown] at member
    simpa using member

def PassesDelivered (filters : List RegisteredFilter) (events : List RpcEvent) : Prop :=
  ∀ front rangeStart rangeEnd back,events = front ++ .passed rangeStart rangeEnd :: back →
    ∃ earlier attempt,front = earlier ++ attempt ∧ Attempt parse filters rangeStart rangeEnd attempt

theorem PassesDelivered.append (left : PassesDelivered parse filters front)
    (right : PassesDelivered parse filters back) : PassesDelivered parse filters (front ++ back) := by
  intro before rangeStart rangeEnd after split
  rcases List.append_eq_append_iff.mp split with ⟨inside,rfl,behind⟩ | ⟨inside,earlier,behind⟩
  · obtain ⟨skipped,attempt,rfl,delivered⟩ := right _ _ _ _ behind
    exact ⟨front ++ skipped,attempt,by simp,delivered⟩
  cases inside with
  | nil =>
    obtain ⟨skipped,attempt,none,delivered⟩ := right [] _ _ _ (by simpa using behind.symm)
    exact ⟨front ++ skipped,attempt,by simp_all,delivered⟩
  | cons event rest =>
    cases behind
    exact left _ _ _ _ earlier

theorem passesDelivered_none (ranges : passedRanges events = []) : PassesDelivered parse filters events := by
  intro front rangeStart rangeEnd back split
  have passed : (rangeStart,rangeEnd) ∈ passedRanges events := by
    rw [mem_passedRanges,split]
    simp
  rw [ranges] at passed
  cases passed

theorem passesDelivered_last {rangeStart rangeEnd : BitVec 64} (ranges : passedRanges front = [])
    (attempt : Attempt parse filters rangeStart rangeEnd front) :
    PassesDelivered parse filters (front ++ [.passed rangeStart rangeEnd]) := by
  intro before first last after split
  rcases List.eq_nil_or_concat after with rfl | ⟨rest,final,rfl⟩
  · obtain ⟨rfl,same⟩ := List.append_inj' split rfl
    cases same
    exact ⟨[],_,rfl,attempt⟩
  rw [List.concat_eq_append,← List.cons_append,← List.append_assoc] at split
  obtain ⟨rfl,_⟩ := List.append_inj' split rfl
  have passed : (first,last) ∈ passedRanges (before ++ .passed first last :: rest) := by
    rw [mem_passedRanges]
    simp
  rw [ranges] at passed
  cases passed

theorem round_passes (installed : before.source.handler = true)
    (ended : (round parse transport toBlock start before).value = some ()) :
    PassesDelivered parse before.source.filters (round parse transport toBlock start before).events := by
  obtain ⟨_,ranges,_⟩ := round_ended parse transport ended
  obtain ⟨front,events,attempt⟩ := round_delivers parse transport installed ended
  rw [events,passedRanges_append] at ranges
  rw [events]
  apply passesDelivered_last parse _ attempt
  simpa [passedRanges,RpcEvent.passedRange] using ranges

theorem backfillLoop_delivers (ordered : start ≤ toBlock) (installed : before.source.handler = true) :
    PassesDelivered parse before.source.filters (backfillLoop parse transport toBlock start before).events := by
  apply backfillLoop_rule parse transport (fun _ before run => before.source.handler = true →
    PassesDelivered parse before.source.filters run.events) _ _ _ start before ordered installed
  · intro start before _ stopped _
    exact passesDelivered_none parse (backfillRange_stopped parse transport stopped).2.1
  · intro start before _ _ ended installed
    exact round_passes parse transport installed ended
  · intro start before rest _ _ ended later installed
    obtain ⟨⟨_,source⟩,_⟩ := round_ended parse transport ended
    rw [source] at later
    exact (round_passes parse transport installed ended).append parse (later installed)

def AsksHeads (before after : RpcState σ) (events : List RpcEvent) : Prop :=
  OnlyRequests before.source after.source ∧
    ∀ event ∈ events,∃ tag requestId response,event = .called (.getBlockByNumber tag) requestId response

theorem AsksHeads.idle (state : RpcState σ) : AsksHeads state state [] := ⟨.refl _,by simp⟩

theorem AsksHeads.joined (first middle last : RpcState σ) (front back : List RpcEvent)
    (left : AsksHeads first middle front) (right : AsksHeads middle last back) : AsksHeads first last (front ++ back) := by
  refine ⟨left.1.trans right.1,?_⟩
  intro event member
  rcases List.mem_append.mp member with earlier | later
  · exact left.2 event earlier
  · exact right.2 event later

theorem AsksHeads.ranges (asks : AsksHeads before after events) : passedRanges events = [] := by
  apply List.filterMap_eq_nil_iff.mpr
  intro event member
  obtain ⟨_,_,_,rfl⟩ := asks.2 event member
  rfl

theorem getBlockNumber_keeps (tag : RpcBlockTag) : (getBlockNumber parse transport tag).attempt.Keeps AsksHeads := by
  intro before
  refine ⟨query_only transport (parseBlockNumberResponse parse) _ before,?_⟩
  intro event member
  exact ⟨_,_,_,List.mem_singleton.mp member⟩

theorem preferredHead_keeps (tag : RpcBlockTag) : (preferredHead parse transport preferred tag).Keeps AsksHeads := by
  unfold preferredHead
  split
  · exact getBlockNumber_keeps parse transport tag
  · exact AsksHeads.idle

theorem finalityHead_keeps : (finalityHead parse transport).Keeps AsksHeads := by
  intro before
  unfold finalityHead
  rw [Session.get_bind]
  apply Session.keeps_bind AsksHeads.joined (preferredHead_keeps parse transport .finalized)
  intro finalizedNumber
  apply Session.keeps_bind AsksHeads.joined (preferredHead_keeps parse transport .safe)
  intro safeNumber
  apply Session.keeps_bind AsksHeads.joined (getBlockNumber_keeps parse transport .latest)
  intro latestNumber
  exact AsksHeads.idle

theorem pollOnce_cases (before : RpcState σ) : ∃ asked middle,AsksHeads before middle asked ∧
    (pollOnce parse transport before = ⟨none,middle,asked⟩ ∨
      ∃ head,(head.blockNumber ≤ before.source.lastProcessedBlock ∧
          pollOnce parse transport before = ⟨some (),middle,asked ++ [.chosen head]⟩) ∨
        (before.source.lastProcessedBlock < head.blockNumber ∧
          let rest := backfillLoop parse transport head.blockNumber (before.source.lastProcessedBlock + 1#64) middle
          pollOnce parse transport before = ⟨rest.value,rest.state,asked ++ .chosen head :: rest.events⟩)) := by
  have asks := finalityHead_keeps parse transport before
  refine ⟨_,_,asks,?_⟩
  unfold pollOnce
  cases settled : (finalityHead parse transport before).value with
  | none => exact Or.inl (Session.bind_stopped settled)
  | some head =>
    refine Or.inr ⟨head,?_⟩
    obtain ⟨⟨_,source⟩,_⟩ := asks
    have cursor : (finalityHead parse transport before).state.source.lastProcessedBlock =
        before.source.lastProcessedBlock := by rw [source]
    rw [Session.bind_continued settled,Session.report_bind,Session.get_bind,cursor]
    split_ifs with reached
    · exact Or.inl ⟨reached,rfl⟩
    have ahead := BitVec.not_le.mp reached
    have forward : ¬ before.source.lastProcessedBlock + 1#64 > head.blockNumber := by
      rw [gt_iff_lt,BitVec.not_lt,BitVec.le_def,next_toNat ahead]
      exact ahead
    unfold backfill
    rw [if_neg forward]
    exact Or.inr ⟨ahead,rfl⟩

-- After any number of polls the ranges passed lie one behind the other, each
-- was delivered, and the cursor is at the end of the last, which some poll's
-- head is not behind.
structure Polled (before after : RpcState σ) (events : List RpcEvent) : Prop where
  only : OnlyRequests (before.source.advance (cursorAfter before.source.lastProcessedBlock (passedRanges events)))
    after.source
  tiles : Tiles (before.source.lastProcessedBlock.toNat + 1) ((passedRanges events).map bounds)
    (after.source.lastProcessedBlock.toNat + 1)
  headed : after.source.lastProcessedBlock = before.source.lastProcessedBlock ∨
    ∃ head,.chosen head ∈ events ∧ after.source.lastProcessedBlock ≤ head.blockNumber
  delivered : before.source.handler = true → PassesDelivered parse before.source.filters events

theorem cursorAfter_append : cursorAfter cursor (front ++ back) = cursorAfter (cursorAfter cursor front) back := by
  induction front generalizing cursor with
  | nil => rfl
  | cons range rest ih => rw [List.cons_append,cursorAfter_cons,cursorAfter_cons,ih]

theorem Polled.idle (state : RpcState σ) : Polled parse state state [] :=
  ⟨.refl _,rfl,Or.inl rfl,fun _ => passesDelivered_none parse rfl⟩

theorem Polled.joined (first middle last : RpcState σ) (front back : List RpcEvent)
    (left : Polled parse first middle front) (right : Polled parse middle last back) :
    Polled parse first last (front ++ back) := by
  obtain ⟨⟨_,one⟩,tiles,headed,delivered⟩ := left
  obtain ⟨⟨id,two⟩,more,further,others⟩ := right
  refine ⟨⟨id,?_⟩,?_,?_,?_⟩
  · rw [two,one,passedRanges_append,cursorAfter_append]
    rfl
  · rw [passedRanges_append,List.map_append]
    exact tiles.append more
  · rcases further with same | ⟨head,chosen,bound⟩
    · rw [same]
      rcases headed with unmoved | ⟨head,chosen,bound⟩
      · exact Or.inl unmoved
      · exact Or.inr ⟨head,List.mem_append_left _ chosen,bound⟩
    · exact Or.inr ⟨head,List.mem_append_right _ chosen,bound⟩
  · intro installed
    rw [one] at others
    exact (delivered installed).append parse (others installed)

theorem pollOnce_polled : (pollOnce parse transport).Keeps (Polled parse) := by
  intro before
  obtain ⟨asked,middle,asks,ran⟩ := pollOnce_cases parse transport before
  have none := asks.ranges
  obtain ⟨⟨id,source⟩,_⟩ := asks
  have cursor : middle.source.lastProcessedBlock = before.source.lastProcessedBlock := by rw [source]
  have quiet : ∀ events,passedRanges events = [] → Polled parse before middle events := by
    intro events ranges
    refine ⟨⟨id,?_⟩,?_,Or.inl cursor,fun _ => passesDelivered_none parse ranges⟩
    · rw [source,ranges]
      rfl
    · rw [ranges,cursor]
      rfl
  rcases ran with stopped | ⟨head,⟨_,settled⟩ | ⟨ahead,filled⟩⟩
  · rw [stopped]
    exact quiet asked none
  · rw [settled]
    apply quiet
    rw [passedRanges_append,none]
    rfl
  · rw [filled]
    have forward : before.source.lastProcessedBlock + 1#64 ≤ head.blockNumber := by
      rw [BitVec.le_def,next_toNat ahead]
      exact ahead
    have ranges : ∀ rest,passedRanges (asked ++ .chosen head :: rest) = passedRanges rest := by
      intro rest
      rw [passedRanges_append,none]
      rfl
    obtain ⟨next,_,tiles,fits,_,⟨last,settled⟩,_,_⟩ := backfillLoop_progress parse transport head.blockNumber
      middle forward
    rw [next_toNat ahead] at tiles
    rw [source] at fits settled
    have reached := cursorAfter_tiles tiles
    refine ⟨⟨last,?_⟩,?_,Or.inr ⟨head,by simp,?_⟩,?_⟩
    · rw [ranges,settled]
      rfl
    · rw [ranges,settled]
      show Tiles _ _ ((cursorAfter _ _).toNat + 1)
      rw [reached]
      exact tiles
    · rw [settled]
      exact cursorAfter_le (BitVec.le_of_lt ahead) fun range member => (fits range member).inside
    · intro installed
      have delivered := backfillLoop_delivers parse transport
        forward (by rw [source]; exact installed)
      rw [source] at delivered
      have chosen : PassesDelivered parse before.source.filters [.chosen head] := passesDelivered_none parse rfl
      exact PassesDelivered.append parse (passesDelivered_none parse none) (chosen.append parse delivered)

theorem polls_polled (polls : Nat) :
    (runOperations parse transport (List.replicate polls .pollOnce)).Keeps (Polled parse) := by
  apply Session.keeps_fold (Polled.idle parse) (Polled.joined parse)
  intro _ operation member
  rw [List.eq_of_mem_replicate member]
  exact pollOnce_polled parse transport

-- The cursor never goes back and stays at or below the heads the polls chose.
-- It passes a range only when every filter was answered and every listed
-- transaction was fetched and handed over exactly once.
theorem polling_delivers (before : RpcState σ) (installed : before.source.handler = true) (polls : Nat) :
    let run := runOperations parse transport (List.replicate polls .pollOnce) before
    let cursor := fun polls =>
      (runOperations parse transport (List.replicate polls .pollOnce) before).state.source.lastProcessedBlock
    PassesDelivered parse before.source.filters run.events ∧
      cursor polls = cursorAfter before.source.lastProcessedBlock (passedRanges run.events) ∧
      Tiles (before.source.lastProcessedBlock.toNat + 1) ((passedRanges run.events).map bounds)
        ((cursor polls).toNat + 1) ∧
      (∀ fewer ≤ polls,cursor fewer ≤ cursor polls) ∧
      (cursor polls = before.source.lastProcessedBlock ∨
        ∃ head,.chosen head ∈ run.events ∧ cursor polls ≤ head.blockNumber) := by
  obtain ⟨⟨_,source⟩,tiles,headed,delivered⟩ := polls_polled parse transport polls before
  refine ⟨delivered installed,?_,tiles,?_,headed⟩
  · simp only [source]
    rfl
  · intro fewer least
    obtain ⟨more,rfl⟩ := Nat.exists_eq_add_of_le least
    have further := (polls_polled parse transport more
      (runOperations parse transport (List.replicate fewer .pollOnce) before).state).tiles.ordered
    simp only [List.replicate_add,runOperations_append]
    rw [BitVec.le_def]
    omega

end delivery

mutual
def writeJson : Json → Text
  | .string text => ascii "\"" ++ text ++ ascii "\""
  | .array items => ascii "[" ++ writeItems items ++ ascii "]"
  | .object members => ascii "\x7b" ++ writeMembers members ++ ascii "\x7d"
  | _ => ascii "null"
def writeItems : List Json → Text
  | [] => []
  | [item] => writeJson item
  | item :: next :: rest => writeJson item ++ ascii "," ++ writeItems (next :: rest)
def writeMembers : List (Text × Json) → Text
  | [] => []
  | [(name,value)] => ascii "\"" ++ name ++ ascii "\":" ++ writeJson value
  | (name,value) :: next :: rest =>
    ascii "\"" ++ name ++ ascii "\":" ++ writeJson value ++ ascii "," ++ writeMembers (next :: rest)
end

def scriptedNode : JsonRpcTransport (List Text) := ⟨fun answers _ => (answers.head?,answers.tail)⟩

def answerWith (result : Json) : Json := .object [(ascii "result",result)]

def headAnswer (number : BitVec 64) : Json :=
  answerWith (.object [(ascii "number",.string (ParseUtility.uint64HexQuantity number))])

def wordOf (byte : UInt8) : Json := .string (ParseUtility.hexArrayString (List.Vector.replicate 32 byte))

def listedLog (txByte : UInt8) : Json :=
  .object [(ascii "address",.string (ParseUtility.hexArrayString (FixedBytes.zeros 20))),(ascii "topics",.array []),
    (ascii "data",.string (ascii "0x")),(ascii "blockNumber",.string (ascii "0x5")),(ascii "blockHash",wordOf 0x30),
    (ascii "transactionHash",wordOf txByte),(ascii "logIndex",.string (ascii "0x0"))]

def logsAnswer (txBytes : List UInt8) : Json := answerWith (.array (txBytes.map listedLog))

def receiptAnswer (txByte : UInt8) (number : BitVec 64) : Json :=
  answerWith (.object [(ascii "status",.string (ascii "0x1")),
    (ascii "blockNumber",.string (ParseUtility.uint64HexQuantity number)),(ascii "blockHash",wordOf 0x30),
    (ascii "transactionHash",wordOf txByte),(ascii "logs",.array [])])

def readBack (known : List Json) (text : Text) : Option Json := known.find? fun json => writeJson json = text

def handedBatches (events : List RpcEvent) : List (List Hash256 × BitVec 64) :=
  events.filterMap fun event =>
    match event with
    | .handed batch => some (batch.txHashes.items,batch.blockNumber)
    | _ => none

def twoFilters : RpcReceiptSource :=
  ((((RpcReceiptSource.new ⟨true,false,0#64⟩ 4#64 10#64).addFilter ⟨[],[],none,none⟩).2.addFilter
    ⟨[],[],none,none⟩).2).setReceiptBatchHandler true

def honestAnswers : List Json :=
  [headAnswer 5#64,headAnswer 5#64,logsAnswer [0x20,0x20],receiptAnswer 0x20 5#64,logsAnswer [0x20]]

theorem repeated_transaction_delivered_once :
    let run := runOperations (readBack honestAnswers) scriptedNode [.pollOnce] ⟨twoFilters,honestAnswers.map writeJson⟩
    handedBatches run.events = [([List.Vector.replicate 32 0x20],5#64)] ∧ passedRanges run.events = [(5#64,5#64)] ∧
      PassesDelivered (readBack honestAnswers) twoFilters.filters run.events := by
  refine ⟨by decide +kernel,by decide +kernel,?_⟩
  exact (polling_delivers (readBack honestAnswers) scriptedNode ⟨twoFilters,honestAnswers.map writeJson⟩ rfl 1).1

section delivery
variable (parse : Text → Option Json) (transport : JsonRpcTransport σ)

def Fetched (events : List RpcEvent) (txHash : Hash256) (batch : ReceiptBatch) : Prop :=
  ∃ requestId text receipt,.called (.getTransactionReceipt txHash) requestId (some text) ∈ events ∧
    parseTransactionReceiptResponse parse text = some receipt ∧ batch = receiptBatch receipt

def ListedWithin (low high : BitVec 64) (events : List RpcEvent) (txHash : Hash256) : Prop :=
  ∃ filter fromBlock toBlock requestId text logs,.called (.getLogs filter fromBlock toBlock) requestId (some text) ∈ events ∧
    parseGetLogsResponse parse text = some logs ∧ (∃ log ∈ logs,log.txHash = txHash) ∧ low ≤ fromBlock ∧ toBlock ≤ high

def Sourced (low high : BitVec 64) (events : List RpcEvent) : Prop :=
  ∀ batch,.handed batch ∈ events → ∃ txHash,Fetched parse events txHash batch ∧ ListedWithin parse low high events txHash

theorem Fetched.mono (fetched : Fetched parse events txHash batch) (more : ∀ event ∈ events,event ∈ others) :
    Fetched parse others txHash batch := by
  obtain ⟨requestId,text,receipt,asked,read,same⟩ := fetched
  exact ⟨requestId,text,receipt,more _ asked,read,same⟩

theorem ListedWithin.mono (listed : ListedWithin parse low high events txHash) (more : ∀ event ∈ events,event ∈ others)
    (starts : lower ≤ low) (ends : high ≤ upper) : ListedWithin parse lower upper others txHash := by
  obtain ⟨filter,fromBlock,toBlock,requestId,text,logs,asked,read,found,above,below⟩ := listed
  exact ⟨filter,fromBlock,toBlock,requestId,text,logs,more _ asked,read,found,BitVec.le_trans starts above,
    BitVec.le_trans below ends⟩

theorem Sourced.widen (sourced : Sourced parse low high events) (starts : lower ≤ low) (ends : high ≤ upper) :
    Sourced parse lower upper events := by
  intro batch member
  obtain ⟨txHash,fetched,listed⟩ := sourced batch member
  exact ⟨txHash,fetched,listed.mono parse (fun _ => id) starts ends⟩

theorem Sourced.append (left : Sourced parse low high front) (right : Sourced parse low high back) :
    Sourced parse low high (front ++ back) := by
  intro batch member
  rcases List.mem_append.mp member with earlier | behind
  · obtain ⟨txHash,fetched,listed⟩ := left batch earlier
    exact ⟨txHash,fetched.mono parse fun _ => List.mem_append_left _,
      listed.mono parse (fun _ => List.mem_append_left _) (BitVec.le_refl _) (BitVec.le_refl _)⟩
  · obtain ⟨txHash,fetched,listed⟩ := right batch behind
    exact ⟨txHash,fetched.mono parse fun _ => List.mem_append_right _,
      listed.mono parse (fun _ => List.mem_append_right _) (BitVec.le_refl _) (BitVec.le_refl _)⟩

theorem sourced_none (none : ∀ batch,.handed batch ∉ events) : Sourced parse low high events :=
  fun batch member => absurd member (none batch)

theorem emitLog_fetched (member : .handed batch ∈ (emitLog parse transport seen log before).events) :
    Fetched parse (emitLog parse transport seen log before).events log.txHash batch := by
  unfold emitLog at member ⊢
  split_ifs at member with unknown
  · cases member
  have same : ((emitReceipt parse transport log.txHash >>= fun _ => pure (log.txHash :: seen)) before).events =
      (emitReceipt parse transport log.txHash before).events := by
    cases emitted : (emitReceipt parse transport log.txHash before).value with
    | none => rw [Session.bind_stopped emitted]
    | some _ =>
      rw [Session.bind_continued emitted]
      exact List.append_nil _
  rw [same] at member
  rw [if_neg unknown,same]
  rcases emitReceipt_cases .. with ⟨_,response,events⟩ | ⟨text,receipt,read,events⟩
  · rw [events] at member
    cases List.mem_singleton.mp member
  rw [events] at member ⊢
  refine ⟨_,text,receipt,List.mem_cons_self,read,?_⟩
  rcases List.mem_cons.mp member with wrong | handed
  · cases wrong
  · split at handed
    · cases List.mem_singleton.mp handed
      rfl
    · cases handed

theorem backfillFilter_sourced :
    Sourced parse fromBlock toBlock (backfillFilter parse transport filter fromBlock toBlock seen before).events := by
  unfold backfillFilter
  cases asked : (query transport (parseGetLogsResponse parse) (.getLogs filter fromBlock toBlock) before).value with
  | none =>
    rw [Session.bind_stopped asked]
    intro batch member
    cases List.mem_singleton.mp member
  | some logs =>
    obtain ⟨text,read,events⟩ := query_ended transport asked
    rw [Session.bind_continued asked,events]
    intro batch member
    rcases List.mem_cons.mp member with wrong | behind
    · cases wrong
    · obtain ⟨log,listed,reached,during,handed,all⟩ := Session.mem_fold behind
      refine ⟨log.txHash,?_,?_⟩
      · exact (emitLog_fetched parse transport handed).mono parse fun event inside => List.mem_cons_of_mem _ (all event inside)
      · exact ⟨filter,fromBlock,toBlock,_,text,logs,List.mem_cons_self,read,⟨log,listed,rfl⟩,BitVec.le_refl _,
          BitVec.le_refl _⟩

theorem backfillFilters_sourced (rangeEnd : BitVec 64) (filters : List RegisteredFilter) (before : RpcState σ) :
    Sourced parse rangeStart rangeEnd (backfillFilters parse transport rangeStart rangeEnd seen filters before).events := by
  intro batch member
  obtain ⟨entry,_,reached,during,handed,all⟩ := Session.mem_fold member
  obtain ⟨txHash,fetched,listed⟩ := backfillFilter_sourced parse transport batch handed
  exact ⟨txHash,fetched.mono parse all,listed.mono parse all (BitVec.le_refl _) (BitVec.le_refl _)⟩

theorem backfillRange_sourced (rangeEnd : BitVec 64) :
    (backfillRange parse transport rangeStart rangeEnd).Keeps fun _ _ => Sourced parse rangeStart rangeEnd := by
  have joined (before middle after : RpcState σ) (front back : List RpcEvent)
      (left : Sourced parse rangeStart rangeEnd front) (right : Sourced parse rangeStart rangeEnd back) :
      Sourced parse rangeStart rangeEnd (front ++ back) := left.append parse right
  intro before
  unfold backfillRange
  rw [Session.get_bind]
  apply Session.keeps_bind joined (backfillFilters_sourced parse transport _ _)
  intro seen during
  exact sourced_none parse (by simp [passRange])

theorem round_sourced (before : RpcState σ) (ordered : start ≤ toBlock) :
    Sourced parse start toBlock (round parse transport toBlock start before).events := by
  obtain ⟨_,inside⟩ := rangeEnd_le before.source.maxLogRange ordered
  exact (backfillRange_sourced parse transport _ before).widen parse (BitVec.le_refl _) inside

theorem backfillLoop_sourced (start : BitVec 64) (before : RpcState σ) (ordered : start ≤ toBlock) :
    Sourced parse start toBlock (backfillLoop parse transport toBlock start before).events := by
  apply backfillLoop_rule parse transport (fun start _ run => Sourced parse start toBlock run.events) _ _ _ start before
    ordered
  · intro start before ordered _
    exact round_sourced parse transport before ordered
  · intro start before ordered _ _
    exact round_sourced parse transport before ordered
  · intro start before rest ordered less _ later
    obtain ⟨starts,_⟩ := rangeEnd_le before.source.maxLogRange ordered
    have further : start ≤ roundEnd toBlock start before + 1#64 := by
      rw [BitVec.le_def,next_toNat less]
      exact Nat.le_succ_of_le starts
    exact (round_sourced parse transport before ordered).append parse (later.widen parse further (BitVec.le_refl _))

-- A batch says what the answer to a receipt request for a listed transaction
-- says. Its transaction hash is the requested one, and its block not above the
-- head, exactly when the answer has it so: the source compares neither.
theorem polled_batch_is_answer (before : RpcState σ) (batch : ReceiptBatch)
    (handed : .handed batch ∈ (pollOnce parse transport before).events) :
    ∃ head txHash requestId text receipt,.chosen head ∈ (pollOnce parse transport before).events ∧
      ListedWithin parse (before.source.lastProcessedBlock + 1#64) head.blockNumber
        (pollOnce parse transport before).events txHash ∧
      .called (.getTransactionReceipt txHash) requestId (some text) ∈ (pollOnce parse transport before).events ∧
      parseTransactionReceiptResponse parse text = some receipt ∧ batch = receiptBatch receipt ∧
      (batch.txHashes.items = [txHash] ↔ receipt.txHash = txHash) ∧
      (batch.blockNumber ≤ head.blockNumber ↔ receipt.blockNumber ≤ head.blockNumber) := by
  obtain ⟨asked,middle,⟨_,calls⟩,ran⟩ := pollOnce_cases ..
  have none : ∀ other,.handed other ∉ asked := by
    intro other member
    obtain ⟨_,_,_,wrong⟩ := calls _ member
    cases wrong
  rcases ran with stopped | ⟨head,⟨_,settled⟩ | ⟨ahead,filled⟩⟩
  · rw [stopped] at handed
    exact absurd handed (none batch)
  · rw [settled] at handed
    simp [none] at handed
  · have forward : before.source.lastProcessedBlock + 1#64 ≤ head.blockNumber := by
      rw [BitVec.le_def,next_toNat ahead]
      exact ahead
    have sourced := backfillLoop_sourced parse transport _ middle forward
    rw [filled] at handed ⊢
    have behind : .handed batch ∈ (backfillLoop parse transport head.blockNumber
        (before.source.lastProcessedBlock + 1#64) middle).events := by simpa [none] using handed
    obtain ⟨txHash,⟨requestId,text,receipt,request,read,rfl⟩,listed⟩ := sourced batch behind
    have more : ∀ event ∈ (backfillLoop parse transport head.blockNumber
        (before.source.lastProcessedBlock + 1#64) middle).events,event ∈ asked ++ .chosen head ::
          (backfillLoop parse transport head.blockNumber (before.source.lastProcessedBlock + 1#64) middle).events := by
      intro event member
      simp [member]
    refine ⟨head,txHash,requestId,text,receipt,by simp,listed.mono parse more (BitVec.le_refl _) (BitVec.le_refl _),
      more _ request,read,rfl,?_,Iff.rfl⟩
    simp [receiptBatch,StdVector.singleton]

end delivery

def dishonestAnswers : List Json :=
  [headAnswer 5#64,headAnswer 5#64,logsAnswer [0x20],receiptAnswer 0x21 100#64,logsAnswer []]

def dishonestPoll : Session.Outcome (RpcState (List Text)) RpcEvent Unit :=
  pollOnce (readBack dishonestAnswers) scriptedNode ⟨twoFilters,dishonestAnswers.map writeJson⟩

def chosenHeads (events : List RpcEvent) : List (BitVec 64) :=
  events.filterMap fun event =>
    match event with
    | .chosen head => some head.blockNumber
    | _ => none

def listedHashes (parse : Text → Option Json) (events : List RpcEvent) : List Hash256 :=
  events.flatMap fun event =>
    match event with
    | .called (.getLogs _ _ _) _ (some text) => ((parseGetLogsResponse parse text).getD []).map RpcLog.txHash
    | _ => []

def requestedHashes (events : List RpcEvent) : List Hash256 :=
  events.filterMap fun event =>
    match event with
    | .called (.getTransactionReceipt txHash) _ _ => some txHash
    | _ => none

theorem unlisted_receipt_handed : chosenHeads dishonestPoll.events = [5#64] ∧
      listedHashes (readBack dishonestAnswers) dishonestPoll.events = [List.Vector.replicate 32 0x20] ∧
      requestedHashes dishonestPoll.events = [List.Vector.replicate 32 0x20] ∧
      handedBatches dishonestPoll.events = [([List.Vector.replicate 32 0x21],100#64)] := by
  decide +kernel

theorem mem_handedBatches : (hashes,number) ∈ handedBatches events ↔
      ∃ batch,.handed batch ∈ events ∧ batch.txHashes.items = hashes ∧ batch.blockNumber = number := by
  unfold handedBatches
  rw [List.mem_filterMap]
  constructor
  · rintro ⟨event,member,same⟩
    cases event <;> cases same
    exact ⟨_,member,rfl,rfl⟩
  · rintro ⟨batch,member,rfl,rfl⟩
    exact ⟨_,member,rfl⟩

theorem dishonest_batch_is_answer :
    ∃ batch,.handed batch ∈ dishonestPoll.events ∧ batch.blockNumber = 100#64 ∧ ∃ txHash requestId text receipt,
      .called (.getTransactionReceipt txHash) requestId (some text) ∈ dishonestPoll.events ∧
      parseTransactionReceiptResponse (readBack dishonestAnswers) text = some receipt ∧ batch = receiptBatch receipt := by
  have member : ([List.Vector.replicate 32 0x21],100#64) ∈ handedBatches dishonestPoll.events := by decide +kernel
  obtain ⟨batch,handed,_,number⟩ := mem_handedBatches.mp member
  obtain ⟨_,txHash,requestId,text,receipt,_,_,asked,read,same,_,_⟩ := polled_batch_is_answer _ _ _ batch handed
  exact ⟨batch,handed,number,txHash,requestId,text,receipt,asked,read,same⟩

end Rpc
end EvmRelay
