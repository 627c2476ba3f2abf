import EvmRelay.RpcDelivery

namespace EvmRelay
namespace Rpc

def Covered (parse : Text → Option Json) (filter : EventFilter) (block : BitVec 64) (events : List RpcEvent) : Prop :=
  ∃ fromBlock toBlock requestId text logs,.called (.getLogs filter fromBlock toBlock) requestId (some text) ∈ events ∧
    parseGetLogsResponse parse text = some logs ∧ fromBlock ≤ block ∧ block ≤ toBlock

theorem Covered.mono (covered : Covered parse filter block events)
    (more : ∀ event ∈ events,event ∈ others) : Covered parse filter block others := by
  obtain ⟨fromBlock,toBlock,requestId,text,logs,asked,read,inside⟩ := covered
  exact ⟨fromBlock,toBlock,requestId,text,logs,more _ asked,read,inside⟩

theorem Covered.requested (covered : Covered parse filter block events) :
    ∃ call ∈ logsCalls events,call.2.1 ≤ block ∧ block ≤ call.2.2 := by
  obtain ⟨fromBlock,toBlock,_,_,_,asked,_,inside⟩ := covered
  exact ⟨(filter,fromBlock,toBlock),List.mem_filterMap.mpr ⟨_,asked,rfl⟩,inside⟩

section cursor
variable (parse : Text → Option Json) (transport : JsonRpcTransport σ)

def PassesCovered (filters : List RegisteredFilter) (events : List RpcEvent) : Prop :=
  ∀ range ∈ passedRanges events,∀ entry ∈ filters,∀ block,range.1 ≤ block → block ≤ range.2 →
    Covered parse entry.filter block events

theorem PassesCovered.append (left : PassesCovered parse filters front) (right : PassesCovered parse filters back) :
    PassesCovered parse filters (front ++ back) := by
  intro range member entry registered block above below
  rw [passedRanges_append] at member
  rcases List.mem_append.mp member with earlier | behind
  · exact (left range earlier entry registered block above below).mono fun _ => List.mem_append_left _
  · exact (right range behind entry registered block above below).mono fun _ => List.mem_append_right _

theorem round_covered (before : RpcState σ) :
    PassesCovered parse before.source.filters (round parse transport toBlock start before).events := by
  intro range member entry registered block above below
  cases ran : (round parse transport toBlock start before).value with
  | none =>
    obtain ⟨_,ranges,_⟩ := backfillRange_stopped parse transport ran
    unfold round at member
    rw [ranges] at member
    cases member
  | some _ =>
    obtain ⟨_,ranges,calls⟩ := round_ended parse transport ran
    rw [ranges] at member
    obtain rfl := List.mem_singleton.mp member
    have requested : (entry.filter,start,roundEnd toBlock start before) ∈
        logsCalls (round parse transport toBlock start before).events := by
      rw [calls]
      exact List.mem_map.mpr ⟨entry,registered,rfl⟩
    obtain ⟨event,inside,same⟩ := List.mem_filterMap.mp requested
    have answered := (backfillRange_decided parse transport _ before).mp (Option.isSome_of_mem ran) event inside
    -- Only an answered log request shows up as this call.
    rcases event with ⟨_ | ⟨_,_,_⟩ | _,requestId,_ | text⟩ | _ | _ | _ <;> cases same
    · cases answered
    · obtain ⟨logs,read⟩ := Option.isSome_iff_exists.mp answered
      exact ⟨start,_,requestId,text,logs,inside,read,above,below⟩

theorem backfillLoop_covered (before : RpcState σ) (ordered : start ≤ toBlock) :
    PassesCovered parse before.source.filters (backfillLoop parse transport toBlock start before).events := by
  apply backfillLoop_rule parse transport
    (fun _ before run => PassesCovered parse before.source.filters run.events) _ _ _ start before ordered
  · intro start before _ _
    exact round_covered parse transport before
  · intro start before _ _ _
    exact round_covered parse transport before
  · intro start before rest _ _ ended later
    obtain ⟨⟨_,source⟩,_⟩ := round_ended parse transport ended
    rw [source] at later
    exact (round_covered parse transport before).append parse later

-- What a step that keeps the meaning of the cursor does: the cursor does not go
-- back, and the blocks it moves past were asked about for every filter.
def Advances (before after : RpcState σ) (events : List RpcEvent) : Prop :=
  before.source.lastProcessedBlock ≤ after.source.lastProcessedBlock ∧
    ∀ entry ∈ before.source.filters,∀ block,before.source.lastProcessedBlock < block →
      block ≤ after.source.lastProcessedBlock → Covered parse entry.filter block events

theorem Advances.unmoved (before after : RpcState σ) (events : List RpcEvent)
    (same : after.source.lastProcessedBlock = before.source.lastProcessedBlock) : Advances parse before after events := by
  refine ⟨BitVec.le_of_eq same.symm,?_⟩
  intro _ _ block above below
  rw [same] at below
  exact absurd above (BitVec.not_lt.mpr below)

theorem backfillLoop_advances (ordered : start ≤ toBlock) (joins : start.toNat ≤ before.source.lastProcessedBlock.toNat + 1)
    (reaches : before.source.lastProcessedBlock ≤ roundEnd toBlock start before) :
    Advances parse before (backfillLoop parse transport toBlock start before).state
      (backfillLoop parse transport toBlock start before).events := by
  have answered := backfillLoop_covered parse transport before ordered
  obtain ⟨next,_,tiles,fits,_,⟨_,settled⟩,_,_⟩ := backfillLoop_progress parse transport toBlock before ordered
  have cursor : (backfillLoop parse transport toBlock start before).state.source.lastProcessedBlock =
      cursorAfter before.source.lastProcessedBlock
        (passedRanges (backfillLoop parse transport toBlock start before).events) := by rw [settled]; rfl
  have pieces := tiles.covers
  cases ranges : passedRanges (backfillLoop parse transport toBlock start before).events with
  | nil =>
    rw [ranges] at cursor
    exact Advances.unmoved parse _ _ _ cursor
  | cons first rest =>
    rw [ranges] at tiles cursor
    rw [cursorAfter_cons] at cursor
    obtain ⟨starts,_,behind⟩ := tiles
    have ends := cursorAfter_tiles behind
    have further := behind.ordered
    have round := (fits first (by simp [ranges])).sum
    have sum := rangeEnd_toNat before.source.rangePositive ordered
    rw [show first.1.toNat = start.toNat from starts,← sum] at round
    rw [BitVec.le_def,show (roundEnd toBlock start before).toNat = first.2.toNat from round.symm] at reaches
    refine ⟨?_,?_⟩
    · rw [cursor,BitVec.le_def]
      simp only [bounds] at further
      omega
    · intro entry registered block above below
      rw [cursor,BitVec.le_def] at below
      rw [BitVec.lt_def] at above
      obtain ⟨piece,member,low,high⟩ := (pieces block.toNat).mp ⟨by omega,by omega⟩
      obtain ⟨range,passed,rfl⟩ := List.mem_map.mp member
      exact answered range passed entry registered block low high

theorem pollOnce_advances :
    Advances parse before (pollOnce parse transport before).state (pollOnce parse transport before).events := by
  obtain ⟨asked,middle,⟨⟨_,source⟩,_⟩,ran⟩ := pollOnce_cases parse transport before
  have cursor : middle.source.lastProcessedBlock = before.source.lastProcessedBlock := by rw [source]
  rcases ran with stopped | ⟨head,⟨_,settled⟩ | ⟨ahead,filled⟩⟩
  · rw [stopped]
    exact Advances.unmoved parse _ _ _ cursor
  · rw [settled]
    exact Advances.unmoved parse _ _ _ cursor
  · have next := next_toNat ahead
    have forward : before.source.lastProcessedBlock + 1#64 ≤ head.blockNumber := by
      rw [BitVec.le_def,next]
      exact ahead
    obtain ⟨reaches,_⟩ := rangeEnd_le middle.source.maxLogRange forward
    obtain ⟨moved,covered⟩ := backfillLoop_advances parse transport forward
      (by rw [cursor,next])
      (by rw [BitVec.le_def] at reaches ⊢; rw [cursor]; unfold roundEnd; omega)
    rw [filled]
    rw [cursor] at moved covered
    refine ⟨moved,?_⟩
    intro entry registered block above below
    apply (covered entry (by rw [source]; exact registered) block above below).mono
    intro event member
    simp [member]

-- The steps that keep it: a backfill has to continue from the cursor.
def Operation.Continues (source : RpcReceiptSource) : Operation → Prop
  | .backfill fromBlock toBlock => fromBlock > toBlock ∨
      (fromBlock.toNat ≤ source.lastProcessedBlock.toNat + 1 ∧
        source.lastProcessedBlock ≤ rangeEnd source.maxLogRange toBlock fromBlock)
  | _ => True

theorem perform_advances (operation : Operation) (before : RpcState σ) (continues : operation.Continues before.source) :
    Advances parse before (operation.perform parse transport before).state
      (operation.perform parse transport before).events := by
  cases operation with
  | pollOnce => exact pollOnce_advances ..
  | backfill fromBlock toBlock =>
    show Advances parse before (backfill parse transport fromBlock toBlock before).state
      (backfill parse transport fromBlock toBlock before).events
    unfold backfill
    rcases continues with empty | ⟨joins,reaches⟩
    · rw [if_pos empty]
      exact Advances.unmoved parse _ _ _ rfl
    · split_ifs with ordered
      · exact Advances.unmoved parse _ _ _ rfl
      · exact backfillLoop_advances parse transport (BitVec.not_lt.mp ordered) joins reaches
  | _ => exact Advances.unmoved parse _ _ _ rfl

def Continued (before : RpcState σ) : List Operation → Prop
  | [] => True
  | operation :: rest =>
    operation.Continues before.source ∧ Continued (operation.perform parse transport before).state rest

def Throughout (entry : RegisteredFilter) (before : RpcState σ) : List Operation → Prop
  | [] => entry ∈ before.source.filters
  | operation :: rest =>
    entry ∈ before.source.filters ∧ Throughout entry (operation.perform parse transport before).state rest

-- Polls and backfills leave the filters alone, so that in a run of them every
-- filter of its first state is registered throughout.
def Operation.reads : Operation → Prop
  | .pollOnce => True
  | .backfill _ _ => True
  | _ => False

theorem perform_filters (operation : Operation) (before : RpcState σ) (reads : operation.reads) :
    (operation.perform parse transport before).state.source.filters = before.source.filters := by
  have loop {toBlock start : BitVec 64} (middle : RpcState σ) (ordered : start ≤ toBlock) :
      (backfillLoop parse transport toBlock start middle).state.source.filters = middle.source.filters := by
    obtain ⟨_,_,_,_,_,⟨_,settled⟩,_,_⟩ := backfillLoop_progress parse transport toBlock middle ordered
    rw [settled]
    rfl
  cases operation with
  | pollOnce =>
    show (pollOnce parse transport before).state.source.filters = _
    obtain ⟨asked,middle,⟨⟨_,source⟩,_⟩,ran⟩ := pollOnce_cases ..
    rcases ran with stopped | ⟨head,⟨_,settled⟩ | ⟨ahead,filled⟩⟩
    · rw [stopped,source]
    · rw [settled,source]
    · rw [filled,loop middle (by rw [BitVec.le_def,next_toNat ahead]; exact ahead),source]
  | backfill fromBlock toBlock =>
    show (backfill parse transport fromBlock toBlock before).state.source.filters = _
    unfold backfill
    split_ifs with ordered
    · rfl
    · exact loop before (BitVec.not_lt.mp ordered)
  | _ => cases reads

theorem throughout_reads (before : RpcState σ)
    (reads : ∀ operation ∈ operations,operation.reads) (registered : entry ∈ before.source.filters) :
    Throughout parse transport entry before operations := by
  induction operations generalizing before with
  | nil => exact registered
  | cons operation rest ih =>
    refine ⟨registered,ih _ (fun later member => reads later (List.mem_cons_of_mem _ member)) ?_⟩
    rw [perform_filters parse transport operation before (reads operation List.mem_cons_self)]
    exact registered

theorem continued_append (front back : List Operation) (before : RpcState σ) :
    Continued parse transport before (front ++ back) ↔ Continued parse transport before front ∧
      Continued parse transport (runOperations parse transport front before).state back := by
  induction front generalizing before with
  | nil => simp [Continued,runOperations]
  | cons operation rest ih =>
    rw [List.cons_append,runOperations_cons]
    simp only [Continued,ih,and_assoc]

theorem continued_run (operations : List Operation) (before : RpcState σ)
    (continued : Continued parse transport before operations) :
    let run := runOperations parse transport operations before
    before.source.lastProcessedBlock ≤ run.state.source.lastProcessedBlock ∧
      ∀ entry,Throughout parse transport entry before operations → ∀ block,before.source.lastProcessedBlock < block →
        block ≤ run.state.source.lastProcessedBlock → Covered parse entry.filter block run.events := by
  induction operations generalizing before with
  | nil =>
    obtain ⟨moved,covered⟩ := Advances.unmoved parse before before [] rfl
    exact ⟨moved,covered⟩
  | cons operation rest ih =>
    obtain ⟨continues,later⟩ := continued
    obtain ⟨moved,covered⟩ := perform_advances parse transport operation before continues
    obtain ⟨further,others⟩ := ih _ later
    rw [runOperations_cons]
    refine ⟨BitVec.le_trans moved further,?_⟩
    intro entry throughout block above below
    obtain ⟨registered,stays⟩ := throughout
    -- The block lies in what the first step moved past, or behind it.
    by_cases first : block ≤ (operation.perform parse transport before).state.source.lastProcessedBlock
    · exact (covered entry registered block above first).mono fun _ => List.mem_append_left _
    · exact (others entry stays block (BitVec.not_le.mp first) below).mono fun _ => List.mem_append_right _

-- Where backfills continue from the cursor it never goes back, and every block
-- it moves past was asked about, with an answer, for each filter registered
-- throughout.
theorem continued_run_covers (before : RpcState σ) (front back : List Operation)
    (continued : Continued parse transport before (front ++ back)) :
    let during := runOperations parse transport front before
    let run := runOperations parse transport (front ++ back) before
    during.state.source.lastProcessedBlock ≤ run.state.source.lastProcessedBlock ∧
      ∀ entry,Throughout parse transport entry before (front ++ back) → ∀ block,
        before.source.lastProcessedBlock < block → block ≤ run.state.source.lastProcessedBlock →
        Covered parse entry.filter block run.events := by
  obtain ⟨_,covered⟩ := continued_run parse transport (front ++ back) before continued
  obtain ⟨moved,_⟩ := continued_run parse transport back _ ((continued_append parse transport front back before).mp continued).2
  refine ⟨?_,covered⟩
  rw [runOperations_append]
  exact moved

end cursor

def takesAll : EventFilter := ⟨[],[],none,none⟩

def oneFilter (lastProcessedBlock : BitVec 64) : RpcReceiptSource :=
  ((RpcReceiptSource.new ⟨true,false,0#64⟩ lastProcessedBlock 1000#64).addFilter takesAll).2

def emptyChain (head : BitVec 64) : List Json := [logsAnswer [],headAnswer head,headAnswer head,logsAnswer []]

def mixedRun (lastProcessedBlock head : BitVec 64) (operations : List Operation) :
    Session.Outcome (RpcState (List Text)) RpcEvent Unit :=
  runOperations (readBack (emptyChain head)) scriptedNode operations
    ⟨oneFilter lastProcessedBlock,(emptyChain head).map writeJson⟩

theorem continued_backfill_covers :
    (mixedRun 4#64 9#64 [.backfill 3#64 7#64,.pollOnce]).state.source.lastProcessedBlock = 9#64 ∧
      ∀ block,4#64 < block → block ≤ 9#64 → Covered (readBack (emptyChain 9#64)) takesAll block
        (mixedRun 4#64 9#64 [.backfill 3#64 7#64,.pollOnce]).events := by
  have reached : (mixedRun 4#64 9#64 [.backfill 3#64 7#64,.pollOnce]).state.source.lastProcessedBlock = 9#64 := by
    decide +kernel
  obtain ⟨_,covered⟩ := continued_run_covers (readBack (emptyChain 9#64)) scriptedNode
    ⟨oneFilter 4#64,(emptyChain 9#64).map writeJson⟩ [] [.backfill 3#64 7#64,.pollOnce]
    ⟨Or.inr (by decide +kernel),trivial,trivial⟩
  refine ⟨reached,?_⟩
  intro block above below
  apply covered ⟨1#32,takesAll⟩ _ block above (BitVec.le_trans below (BitVec.le_of_eq reached.symm))
  exact throughout_reads _ _ _ (by simp [Operation.reads]) List.mem_cons_self

-- A backfill of an old range takes the cursor from a hundred back to five, and
-- the next poll asks again; one far ahead takes it past blocks that nobody
-- asked about.
theorem backfill_moves_cursor : (mixedRun 100#64 100#64 [.backfill 1#64 5#64]).state.source.lastProcessedBlock = 5#64 ∧
      (logsCalls (mixedRun 100#64 100#64 [.backfill 1#64 5#64,.pollOnce]).events).map Prod.snd = [(1#64,5#64),(6#64,100#64)] ∧
      (mixedRun 0#64 101#64 [.backfill 100#64 100#64,.pollOnce]).state.source.lastProcessedBlock = 101#64 ∧
      ¬ Covered (readBack (emptyChain 101#64)) takesAll 50#64
        (mixedRun 0#64 101#64 [.backfill 100#64 100#64,.pollOnce]).events := by
  refine ⟨by decide +kernel,by decide +kernel,by decide +kernel,?_⟩
  intro covered
  obtain ⟨call,member,inside⟩ := covered.requested
  have ranges : (logsCalls (mixedRun 0#64 101#64 [.backfill 100#64 100#64,.pollOnce]).events).map Prod.snd =
      [(100#64,100#64),(101#64,101#64)] := by decide +kernel
  have range := List.mem_map_of_mem (f := Prod.snd) member
  rw [ranges] at range
  rcases List.mem_cons.mp range with first | behind
  · rw [first] at inside
    exact absurd inside (by decide)
  · rw [List.mem_singleton.mp behind] at inside
    exact absurd inside (by decide)

end Rpc
end EvmRelay
