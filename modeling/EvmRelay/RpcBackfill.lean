import EvmRelay.RpcReceiptSource
import EvmRelay.Tiling

namespace EvmRelay
namespace Rpc

def RpcEvent.logsCall : RpcEvent → Option (EventFilter × BitVec 64 × BitVec 64)
  | .called (.getLogs filter fromBlock toBlock) _ _ => some (filter,fromBlock,toBlock)
  | _ => none

def RpcEvent.passedRange : RpcEvent → Option (BitVec 64 × BitVec 64)
  | .passed rangeStart rangeEnd => some (rangeStart,rangeEnd)
  | _ => none

def logsCalls (events : List RpcEvent) : List (EventFilter × BitVec 64 × BitVec 64) :=
  events.filterMap RpcEvent.logsCall

def passedRanges (events : List RpcEvent) : List (BitVec 64 × BitVec 64) := events.filterMap RpcEvent.passedRange

@[simp] theorem logsCalls_nil : logsCalls [] = [] := rfl
@[simp] theorem logsCalls_append : logsCalls (front ++ back) = logsCalls front ++ logsCalls back := List.filterMap_append

@[simp] theorem passedRanges_append :
    passedRanges (front ++ back) = passedRanges front ++ passedRanges back := List.filterMap_append

theorem mem_passedRanges {rangeStart rangeEnd : BitVec 64} :
    (rangeStart,rangeEnd) ∈ passedRanges events ↔ RpcEvent.passed rangeStart rangeEnd ∈ events := by
  unfold passedRanges
  rw [List.mem_filterMap]
  constructor
  · intro found
    rcases found with ⟨event,member,range⟩
    cases event <;> simp_all [RpcEvent.passedRange]
  · intro member
    exact ⟨_,member,rfl⟩

def RpcCall.reads (parse : Text → Option Json) : RpcCall → Text → Bool
  | .getBlockByNumber _,text => (parseBlockNumberResponse parse text).isSome
  | .getLogs _ _ _,text => (parseGetLogsResponse parse text).isSome
  | .getTransactionReceipt _,text => (parseTransactionReceiptResponse parse text).isSome

def Answered (parse : Text → Option Json) : RpcEvent → Prop
  | .called call _ (some text) => call.reads parse text = true
  | .called _ _ none => False
  | _ => True

-- Of the source's members, calls only move the request id.
def OnlyRequests (before after : RpcReceiptSource) : Prop := ∃ id,after = { before with nextRpcId := id }

theorem OnlyRequests.refl (source : RpcReceiptSource) : OnlyRequests source source := ⟨source.nextRpcId,rfl⟩

theorem OnlyRequests.trans (left : OnlyRequests first middle)
    (right : OnlyRequests middle last) : OnlyRequests first last := by
  obtain ⟨_,rfl⟩ := left
  obtain ⟨id,rfl⟩ := right
  exact ⟨id,rfl⟩

section calls
variable (parse : Text → Option Json) (transport : JsonRpcTransport σ)

theorem query_only (read : Text → Option α) (call : RpcCall) (before : RpcState σ) :
    OnlyRequests before.source (query transport read call before).state.source := ⟨before.source.nextRpcId + 1#64,rfl⟩

theorem query_ended {read : Text → Option α} (ended : (query transport read call before).value = some value) :
    ∃ text,read text = some value ∧
      (query transport read call before).events = [.called call before.source.nextRpcId (some text)] := by
  obtain ⟨text,answered,found⟩ := Option.bind_eq_some_iff.mp ended
  refine ⟨text,found,?_⟩
  simp only [query,answered]

theorem query_decided (read : Text → Option α) (reads : ∀ text,(read text).isSome = call.reads parse text) :
    (query transport read call).DecidedBy (Answered parse) := by
  intro before
  unfold query
  cases response : (transport.call before.transport (call.request before.source.nextRpcId)).1 with
  | none => simp [response,Answered]
  | some text => simp [response,Answered,reads text]

def Fetching (before after : RpcState σ) (events : List RpcEvent) : Prop :=
  OnlyRequests before.source after.source ∧ logsCalls events = [] ∧ passedRanges events = []

theorem Fetching.idle (state : RpcState σ) : Fetching state state [] := ⟨.refl _,rfl,rfl⟩

theorem Fetching.joined (first middle last : RpcState σ) (front back : List RpcEvent)
    (left : Fetching first middle front) (right : Fetching middle last back) : Fetching first last (front ++ back) :=
  ⟨left.1.trans right.1,by simp [left.2.1,right.2.1],by simp [left.2.2,right.2.2]⟩

theorem emitReceipt_keeps (txHash : Hash256) : (emitReceipt parse transport txHash).Keeps Fetching := by
  apply Session.keeps_bind Fetching.joined
  · intro before
    exact ⟨query_only ..,rfl,rfl⟩
  · intro receipt before
    unfold handOver
    split
    · exact ⟨.refl _,rfl,rfl⟩
    · exact .idle before

theorem emitLog_keeps (seen : List Hash256) (log : RpcLog) : (emitLog parse transport seen log).Keeps Fetching := by
  unfold emitLog
  split
  · exact Fetching.idle
  · exact Session.keeps_bind Fetching.joined (emitReceipt_keeps parse transport log.txHash) (fun _ => Fetching.idle)

theorem backfillFilter_keeps (filter : EventFilter) (fromBlock toBlock : BitVec 64) (seen : List Hash256) :
    (backfillFilter parse transport filter fromBlock toBlock seen).Keeps fun before after events =>
      OnlyRequests before.source after.source ∧ logsCalls events = [(filter,fromBlock,toBlock)] ∧ passedRanges events = [] := by
  intro before
  have only := query_only transport (parseGetLogsResponse parse) (.getLogs filter fromBlock toBlock) before
  unfold backfillFilter
  cases asked : (query transport (parseGetLogsResponse parse) (.getLogs filter fromBlock toBlock) before).value with
  | none =>
    rw [Session.bind_stopped asked]
    exact ⟨only,rfl,rfl⟩
  | some logs =>
    rw [Session.bind_continued asked]
    obtain ⟨settled,calls,ranges⟩ := Session.keeps_fold Fetching.idle Fetching.joined seen logs
      (fun reached log _ => emitLog_keeps parse transport reached log)
      (query transport (parseGetLogsResponse parse) (.getLogs filter fromBlock toBlock) before).state
    refine ⟨only.trans settled,?_,?_⟩
    · rw [logsCalls_append,calls]
      rfl
    · rw [passedRanges_append,ranges]
      rfl

def requests (filters : List RegisteredFilter) (range : BitVec 64 × BitVec 64) :
    List (EventFilter × BitVec 64 × BitVec 64) := filters.map fun entry => (entry.filter,range)

theorem emitReceipt_decided (txHash : Hash256) : (emitReceipt parse transport txHash).DecidedBy (Answered parse) := by
  apply Session.decided_bind (query_decided parse transport _ fun _ => rfl)
  intro receipt before
  unfold handOver
  split <;> simp [Answered]

theorem emitLog_decided (seen : List Hash256) (log : RpcLog) :
    (emitLog parse transport seen log).DecidedBy (Answered parse) := by
  unfold emitLog
  split
  · exact Session.decided_pure seen
  · exact Session.decided_bind (emitReceipt_decided parse transport log.txHash) fun _ => Session.decided_pure _

theorem backfillFilter_decided (filter : EventFilter) (fromBlock toBlock : BitVec 64) (seen : List Hash256) :
    (backfillFilter parse transport filter fromBlock toBlock seen).DecidedBy (Answered parse) := by
  apply Session.decided_bind (query_decided parse transport _ fun _ => rfl)
  exact Session.decided_fold (emitLog_decided parse transport) seen

theorem backfillRange_decided (rangeEnd : BitVec 64) :
    (backfillRange parse transport rangeStart rangeEnd).DecidedBy (Answered parse) := by
  intro before
  unfold backfillRange
  rw [Session.get_bind]
  apply Session.decided_bind
  · apply Session.decided_fold
    intro seen entry
    exact backfillFilter_decided parse transport entry.filter rangeStart rangeEnd seen
  · intro seen during
    simp [passRange,Answered]

theorem backfillFilters_calls (rangeStart rangeEnd : BitVec 64) (seen : List Hash256) (filters : List RegisteredFilter)
    (before : RpcState σ) :
    let run := backfillFilters parse transport rangeStart rangeEnd seen filters before
    OnlyRequests before.source run.state.source ∧ passedRanges run.events = [] ∧
      ∃ count,logsCalls run.events = requests (filters.take count) (rangeStart,rangeEnd) ∧
        (∀ after,run.value = some after → count = filters.length) := by
  induction filters generalizing seen before with
  | nil => exact ⟨.refl _,rfl,0,rfl,fun _ _ => rfl⟩
  | cons entry rest ih =>
    obtain ⟨only,calls,ranges⟩ := backfillFilter_keeps parse transport entry.filter rangeStart rangeEnd seen before
    unfold backfillFilters
    rw [List.foldlM_cons]
    cases asked : (backfillFilter parse transport entry.filter rangeStart rangeEnd seen before).value with
    | none =>
      rw [Session.bind_stopped asked]
      refine ⟨only,ranges,1,calls,?_⟩
      intro after ended
      cases ended
    | some reached =>
      rw [Session.bind_continued asked]
      obtain ⟨settled,others,count,later,all⟩ := ih reached
        (backfillFilter parse transport entry.filter rangeStart rangeEnd seen before).state
      unfold backfillFilters at settled others later all
      refine ⟨only.trans settled,?_,count + 1,?_,?_⟩
      · simp [ranges,others]
      · simp [calls,later,requests]
      · intro after ended
        simp [all after ended]

theorem backfillRange_stopped {rangeStart rangeEnd : BitVec 64}
    (stopped : (backfillRange parse transport rangeStart rangeEnd before).value = none) :
    let run := backfillRange parse transport rangeStart rangeEnd before
    OnlyRequests before.source run.state.source ∧ passedRanges run.events = [] ∧
      ∃ count,logsCalls run.events = requests (before.source.filters.take count) (rangeStart,rangeEnd) := by
  have calls := backfillFilters_calls parse transport rangeStart rangeEnd [] before.source.filters before
  unfold backfillRange at stopped ⊢
  rw [Session.get_bind] at stopped ⊢
  cases asked : (backfillFilters parse transport rangeStart rangeEnd [] before.source.filters before).value with
  | none =>
    rw [Session.bind_stopped asked]
    obtain ⟨only,ranges,count,calls,_⟩ := calls
    exact ⟨only,ranges,count,calls⟩
  | some seen =>
    rw [Session.bind_continued asked] at stopped
    cases stopped

theorem backfillRange_ended {rangeStart rangeEnd : BitVec 64}
    (ended : (backfillRange parse transport rangeStart rangeEnd before).value = some ()) :
    let run := backfillRange parse transport rangeStart rangeEnd before
    let loop := backfillFilters parse transport rangeStart rangeEnd [] before.source.filters before
    OnlyRequests (before.source.advance rangeEnd) run.state.source ∧
      run.events = loop.events ++ [.passed rangeStart rangeEnd] ∧ passedRanges loop.events = [] ∧
      logsCalls loop.events = requests before.source.filters (rangeStart,rangeEnd) ∧ ∃ seen,loop.value = some seen := by
  have calls := backfillFilters_calls parse transport rangeStart rangeEnd [] before.source.filters before
  unfold backfillRange at ended ⊢
  rw [Session.get_bind] at ended ⊢
  cases asked : (backfillFilters parse transport rangeStart rangeEnd [] before.source.filters before).value with
  | none =>
    rw [Session.bind_stopped asked] at ended
    cases ended
  | some seen =>
    rw [Session.bind_continued asked]
    obtain ⟨⟨id,only⟩,ranges,count,calls,all⟩ := calls
    refine ⟨⟨id,?_⟩,rfl,ranges,?_,seen,asked⟩
    · show (RpcReceiptSource.advance _ _) = _
      rw [only]
      rfl
    · rw [calls,all seen asked,List.take_length]

def roundEnd (toBlock start : BitVec 64) (before : RpcState σ) : BitVec 64 :=
  rangeEnd before.source.maxLogRange toBlock start

def round (toBlock start : BitVec 64) (before : RpcState σ) : Session.Outcome (RpcState σ) RpcEvent Unit :=
  backfillRange parse transport start (roundEnd toBlock start before) before

theorem backfillLoop_rule (holds : BitVec 64 → RpcState σ → Session.Outcome (RpcState σ) RpcEvent Unit → Prop)
    (stopped : ∀ start before,start ≤ toBlock → (round parse transport toBlock start before).value = none →
      holds start before (round parse transport toBlock start before))
    (last : ∀ start before,start ≤ toBlock → roundEnd toBlock start before = toBlock →
      (round parse transport toBlock start before).value = some () →
      holds start before (round parse transport toBlock start before))
    (continued : ∀ start before rest,start ≤ toBlock → roundEnd toBlock start before < toBlock →
      (round parse transport toBlock start before).value = some () →
      holds (roundEnd toBlock start before + 1#64) (round parse transport toBlock start before).state rest →
      holds start before ⟨rest.value,rest.state,(round parse transport toBlock start before).events ++ rest.events⟩)
    (start : BitVec 64) (before : RpcState σ) (ordered : start ≤ toBlock) :
    holds start before (backfillLoop parse transport toBlock start before) := by
  induction ahead : toBlock.toNat - start.toNat using Nat.strong_induction_on generalizing start before with
  | _ size ih =>
    rw [backfillLoop,dif_pos ordered,Session.get_bind]
    cases ran : (backfillRange parse transport start (rangeEnd before.source.maxLogRange toBlock start) before).value with
    | none =>
      rw [Session.bind_stopped ran,← ran]
      exact stopped start before ordered ran
    | some _ =>
      rw [Session.bind_continued ran]
      obtain ⟨_,below⟩ := rangeEnd_le before.source.maxLogRange ordered
      split_ifs with done
      · rw [Session.pure_apply,List.append_nil,← ran]
        exact last start before ordered done ran
      have less := BitVec.lt_of_le_ne below done
      have reached : rangeEnd before.source.maxLogRange toBlock start + 1#64 ≤ toBlock := by
        rw [BitVec.le_def,next_toNat less]
        exact less
      have fewer := range_shrinks ordered done
      rw [ahead] at fewer
      exact continued start before _ ordered less ran (ih _ fewer _ _ reached rfl)

def bounds (range : BitVec 64 × BitVec 64) : Nat × Nat := (range.1.toNat,range.2.toNat)

-- A range the loop asks for: in order, inside the interval, no longer than
-- allowed, and computed without a sum that wraps.
structure Fits (maxLogRange toBlock : BitVec 64) (range : BitVec 64 × BitVec 64) : Prop where
  ordered : range.1.toNat ≤ range.2.toNat
  inside : range.2.toNat ≤ toBlock.toNat
  short : range.2.toNat - range.1.toNat + 1 ≤ maxLogRange.toNat
  sum : range.2.toNat = range.1.toNat + min (maxLogRange.toNat - 1) (toBlock.toNat - range.1.toNat)
  next : range.2 ≠ toBlock → (range.2 + 1#64).toNat = range.2.toNat + 1

theorem round_fits (before : RpcState σ) (ordered : start ≤ toBlock) :
    Fits before.source.maxLogRange toBlock (start,roundEnd toBlock start before) := by
  have positive := before.source.rangePositive
  have sum := rangeEnd_toNat positive ordered
  obtain ⟨starts,ends⟩ := rangeEnd_le before.source.maxLogRange ordered
  refine ⟨starts,ends,?_,sum,?_⟩
  · simp only [roundEnd,sum]
    omega
  · intro more
    exact next_toNat (BitVec.lt_of_le_ne ends more)

def cursorAfter (cursor : BitVec 64) (ranges : List (BitVec 64 × BitVec 64)) : BitVec 64 :=
  (ranges.getLast?.map Prod.snd).getD cursor

theorem cursorAfter_cons : cursorAfter cursor (range :: rest) = cursorAfter range.2 rest := by
  unfold cursorAfter
  rw [List.getLast?_cons]
  cases rest.getLast? <;> rfl

theorem cursorAfter_tiles
    (tiles : Tiles (cursor.toNat + 1) (ranges.map bounds) next) : (cursorAfter cursor ranges).toNat + 1 = next := by
  induction ranges generalizing cursor with
  | nil => exact tiles
  | cons range rest ih =>
    obtain ⟨_,_,behind⟩ := tiles
    rw [cursorAfter_cons]
    exact ih behind

theorem cursorAfter_le (starts : cursor ≤ limit)
    (inside : ∀ range ∈ ranges,range.2 ≤ limit) : cursorAfter cursor ranges ≤ limit := by
  induction ranges generalizing cursor with
  | nil => exact starts
  | cons range rest ih =>
    rw [cursorAfter_cons]
    exact ih (inside range List.mem_cons_self) fun later member => inside later (List.mem_cons_of_mem _ member)

-- The ranges a run passed lie one behind the other, every filter was asked
-- about in each of them, and the cursor is at the end of the last. A run that
-- fails was at the range behind them.
def Progress (toBlock start : BitVec 64) (before : RpcState σ) (run : Session.Outcome (RpcState σ) RpcEvent Unit) :
    Prop :=
  ∃ next attempted,Tiles start.toNat ((passedRanges run.events).map bounds) next ∧
    (∀ range ∈ passedRanges run.events,Fits before.source.maxLogRange toBlock range) ∧
    logsCalls run.events = (passedRanges run.events).flatMap (requests before.source.filters) ++ attempted ∧
    OnlyRequests (before.source.advance (cursorAfter before.source.lastProcessedBlock (passedRanges run.events)))
      run.state.source ∧
    (run.value = some () → attempted = [] ∧ next = toBlock.toNat + 1) ∧
    (run.value = none → ∃ failing count,failing.1.toNat = next ∧ Fits before.source.maxLogRange toBlock failing ∧
      attempted = requests (before.source.filters.take count) failing)

theorem round_ended
    (ended : (round parse transport toBlock start before).value = some ()) :
    let run := round parse transport toBlock start before
    let range := (start,roundEnd toBlock start before)
    OnlyRequests (before.source.advance range.2) run.state.source ∧ passedRanges run.events = [range] ∧
      logsCalls run.events = requests before.source.filters range := by
  obtain ⟨only,events,ranges,calls,_⟩ := backfillRange_ended parse transport ended
  refine ⟨only,?_,?_⟩
  · unfold round
    rw [events,passedRanges_append,ranges]
    rfl
  · unfold round
    rw [events,logsCalls_append,calls]
    exact List.append_nil _

theorem backfillLoop_progress (toBlock : BitVec 64) (before : RpcState σ) (ordered : start ≤ toBlock) :
    Progress toBlock start before (backfillLoop parse transport toBlock start before) := by
  apply backfillLoop_rule parse transport (Progress toBlock) _ _ _ start before ordered
  · intro start before ordered stopped
    obtain ⟨only,ranges,count,calls⟩ := backfillRange_stopped parse transport stopped
    have failing := round_fits before ordered
    refine ⟨start.toNat,requests (before.source.filters.take count) (start,roundEnd toBlock start before),?_⟩
    unfold round at stopped ⊢
    rw [ranges,calls,stopped]
    exact ⟨rfl,by simp,rfl,only,by simp,fun _ => ⟨_,count,rfl,failing,rfl⟩⟩
  · intro start before ordered done ended
    obtain ⟨only,ranges,calls⟩ := round_ended parse transport ended
    have fits := round_fits before ordered
    refine ⟨toBlock.toNat + 1,[],?_⟩
    rw [ranges,calls,ended]
    refine ⟨?_,by simpa using fits,by simp,only,fun _ => ⟨rfl,rfl⟩,by simp⟩
    have piece := Tiles.one fits.ordered
    rw [show (roundEnd toBlock start before).toNat = toBlock.toNat by rw [done]] at piece
    simpa [bounds,done] using piece
  · intro start before rest ordered less ended later
    obtain ⟨only,ranges,calls⟩ := round_ended parse transport ended
    have fits := round_fits before ordered
    obtain ⟨next,attempted,tiles,all,asked,settled,finished,failed⟩ := later
    obtain ⟨id,source⟩ := only
    rw [next_toNat less] at tiles
    rw [source] at all asked settled failed
    refine ⟨next,attempted,?_⟩
    rw [passedRanges_append,logsCalls_append,ranges,calls,List.singleton_append,cursorAfter_cons]
    refine ⟨⟨rfl,fits.ordered,tiles⟩,?_,?_,?_,finished,failed⟩
    · intro range member
      rcases List.mem_cons.mp member with rfl | behind
      · exact fits
      · exact all range behind
    · rw [asked,List.flatMap_cons,List.append_assoc]
      rfl
    · exact settled

theorem backfillLoop_decided (toBlock : BitVec 64) (before : RpcState σ) (ordered : start ≤ toBlock) :
    (backfillLoop parse transport toBlock start before).value.isSome ↔
      ∀ event ∈ (backfillLoop parse transport toBlock start before).events,Answered parse event := by
  apply backfillLoop_rule parse transport
    (fun _ _ run => run.value.isSome ↔ ∀ event ∈ run.events,Answered parse event) _ _ _ start before ordered
  · intro start before _ _
    exact backfillRange_decided parse transport _ before
  · intro start before _ _ _
    exact backfillRange_decided parse transport _ before
  · intro start before rest _ _ ended later
    have fine := (backfillRange_decided parse transport _ before).mp (Option.isSome_of_mem ended)
    simp only [List.mem_append,later]
    refine ⟨?_,fun all event member => all event (Or.inr member)⟩
    intro all event member
    rcases member with earlier | behind
    · exact fine event earlier
    · exact all event behind

def PassesAnswered (events : List RpcEvent) : Prop :=
  ∀ front rangeStart rangeEnd back,events = front ++ .passed rangeStart rangeEnd :: back →
    ∀ event ∈ front,Answered parse event

theorem backfillLoop_answered (toBlock : BitVec 64) (before : RpcState σ) (ordered : start ≤ toBlock) :
    PassesAnswered parse (backfillLoop parse transport toBlock start before).events := by
  apply backfillLoop_rule parse transport (fun _ _ run => PassesAnswered parse run.events) _ _ _ start before ordered
  · intro start before _ stopped
    obtain ⟨_,ranges,_⟩ := backfillRange_stopped parse transport stopped
    intro front rangeStart rangeEnd back split
    have passed : (rangeStart,rangeEnd) ∈ passedRanges (round parse transport toBlock start before).events := by
      rw [mem_passedRanges,split]
      simp
    unfold round at passed
    rw [ranges] at passed
    cases passed
  · intro start before _ _ ended front rangeStart rangeEnd back split event member
    apply (backfillRange_decided parse transport _ before).mp (Option.isSome_of_mem ended) event
    exact split ▸ List.mem_append_left _ member
  · intro start before rest _ _ ended later front rangeStart rangeEnd back split event member
    have fine := (backfillRange_decided parse transport _ before).mp (Option.isSome_of_mem ended)
    rcases List.append_eq_append_iff.mp split with ⟨inside,rfl,behind⟩ | ⟨inside,earlier,_⟩
    · rcases List.mem_append.mp member with first | second
      · exact fine event first
      · exact later _ _ _ _ behind event second
    · exact fine event (earlier ▸ List.mem_append_left _ member)

-- Backfilling an interval asks for consecutive ranges of the allowed length and
-- succeeds exactly when every call is answered. Otherwise the cursor stays at
-- the end of the last range in which every call was, or where it was.
theorem backfill_covers_once (before : RpcState σ) (fromBlock toBlock maxLogRange : BitVec 64)
    (built : before.source.maxLogRange = stdMax 1#64 maxLogRange) (ordered : fromBlock ≤ toBlock) :
    let run := backfill parse transport fromBlock toBlock before
    let ranges := passedRanges run.events
    ((∀ event ∈ run.events,Answered parse event) ↔ run.value = some ()) ∧
      (∃ next attempted,Tiles fromBlock.toNat (ranges.map bounds) next ∧
        logsCalls run.events = ranges.flatMap (requests before.source.filters) ++ attempted ∧
        (run.value = some () → attempted = [] ∧
          ∀ block,fromBlock ≤ block ∧ block ≤ toBlock ↔ ∃ range ∈ ranges,range.1 ≤ block ∧ block ≤ range.2) ∧
        (run.value = none → ∃ failing count,failing.1.toNat = next ∧ Fits before.source.maxLogRange toBlock failing ∧
          attempted = requests (before.source.filters.take count) failing)) ∧
      ranges.Pairwise (fun earlier later => earlier.2 < later.1) ∧
      (∀ range ∈ ranges,Fits before.source.maxLogRange toBlock range ∧
        range.2.toNat - range.1.toNat + 1 ≤ max 1 maxLogRange.toNat) ∧
      run.state.source.lastProcessedBlock = cursorAfter before.source.lastProcessedBlock ranges ∧
      PassesAnswered parse run.events := by
  have progress := backfillLoop_progress parse transport toBlock before ordered
  have decided := backfillLoop_decided parse transport toBlock before ordered
  have answered := backfillLoop_answered parse transport toBlock before ordered
  unfold backfill
  rw [if_neg (BitVec.not_lt.mpr ordered)]
  obtain ⟨next,attempted,tiles,fits,asked,⟨id,source⟩,finished,failed⟩ := progress
  refine ⟨?_,⟨next,attempted,tiles,asked,?_,failed⟩,?_,?_,?_,answered⟩
  · rw [← decided,Option.isSome_iff_exists]
    exact ⟨fun found => found.elim fun _ ended => ended,fun ended => ⟨(),ended⟩⟩
  · intro ended
    obtain ⟨none,whole⟩ := finished ended
    refine ⟨none,?_⟩
    intro block
    have covered := tiles.covers block.toNat
    rw [whole,Nat.lt_succ_iff] at covered
    simpa [bounds,BitVec.le_def] using covered
  · have apart := tiles.disjoint
    rw [List.pairwise_map] at apart
    exact apart
  · intro range member
    have short := (fits range member).short
    rw [built,stdMax_toNat] at short
    exact ⟨fits range member,short⟩
  · rw [source]
    rfl

end calls

def noLogs : Text := ascii "\x7b\"result\":[]\x7d"

def readNoLogs (text : Text) : Option Json :=
  if text = noLogs then some (.object [(ascii "result",.array [])]) else none

def quietNode : JsonRpcTransport Unit := ⟨fun _ _ => (some noLogs,())⟩

def sampleSource (lastProcessedBlock : BitVec 64) : RpcReceiptSource :=
  ((RpcReceiptSource.new ⟨true,true,0#64⟩ lastProcessedBlock 2#64).addFilter ⟨[],[],none,none⟩).2

theorem last_blocks_covered :
    let run := backfill readNoLogs quietNode 0xFFFFFFFFFFFFFFFB#64 0xFFFFFFFFFFFFFFFF#64 ⟨sampleSource 0#64,()⟩
    passedRanges run.events = [(0xFFFFFFFFFFFFFFFB#64,0xFFFFFFFFFFFFFFFC#64),(0xFFFFFFFFFFFFFFFD#64,0xFFFFFFFFFFFFFFFE#64),
        (0xFFFFFFFFFFFFFFFF#64,0xFFFFFFFFFFFFFFFF#64)] ∧
      ∀ block,0xFFFFFFFFFFFFFFFB#64 ≤ block ∧ block ≤ 0xFFFFFFFFFFFFFFFF#64 ↔
        ∃ range ∈ passedRanges run.events,range.1 ≤ block ∧ block ≤ range.2 := by
  have covered := backfill_covers_once readNoLogs quietNode ⟨sampleSource 0#64,()⟩ 0xFFFFFFFFFFFFFFFB#64
    0xFFFFFFFFFFFFFFFF#64 2#64 rfl (by decide)
  obtain ⟨_,⟨_,_,_,_,whole,_⟩,_⟩ := covered
  refine ⟨by decide +kernel,?_⟩
  exact (whole (by decide +kernel)).2

end Rpc
end EvmRelay
