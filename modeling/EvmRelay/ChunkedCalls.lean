import EvmRelay.ChunkedLists

namespace EvmRelay.Rlp
open RlpSpec RlpChunkedListDecoder

inductive ListCall where
  | peekTotalSize | peekChunkCount | readChunk
  deriving DecidableEq

def ListCall.run (s : RlpChunkedListDecoder) : ListCall → RlpChunkedListDecoder
  | .peekTotalSize => s.peekTotalSize.2
  | .peekChunkCount => s.peekChunkCount.2
  | .readChunk => s.readChunk.2

def afterCalls (v : ByteView) (calls : List ListCall) : RlpChunkedListDecoder := calls.foldl ListCall.run (.new v)

theorem afterCalls_snoc : afterCalls v (calls ++ [call]) = call.run (afterCalls v calls) := by
  simp [afterCalls]

section peeks
variable {s : RlpChunkedListDecoder}

def Peeked (s t : RlpChunkedListDecoder) : Prop :=
  t = s ∨ ∃ total chunks,scanView s.view = .ok (total,chunks) ∧ t = { s with totalSize := total,totalChunks := chunks }

theorem peekTotalSize_cases (s : RlpChunkedListDecoder) :
    (s.initialized = true ∧ 0 < s.totalSize ∧ s.peekTotalSize = (.ok s.totalSize,s)) ∨
    ¬ (s.initialized = true ∧ 0 < s.totalSize) ∧
      ((∃ error,scanView s.view = .error error ∧ s.peekTotalSize = (.error error,s)) ∨
        ∃ total chunks,scanView s.view = .ok (total,chunks) ∧
          s.peekTotalSize = (.ok total,{ s with totalSize := total,totalChunks := chunks })) := by
  unfold RlpChunkedListDecoder.peekTotalSize
  by_cases cached : s.initialized = true ∧ 0 < s.totalSize
  · exact .inl ⟨cached.1,cached.2,if_pos cached⟩
  · refine .inr ⟨cached,?_⟩
    rw [if_neg cached]
    cases scanned : scanView s.view with
    | error error => exact .inl ⟨error,rfl,rfl⟩
    | ok found => exact .inr ⟨found.1,found.2,rfl,rfl⟩

theorem peekTotalSize_peeked (s : RlpChunkedListDecoder) : Peeked s s.peekTotalSize.2 := by
  rcases peekTotalSize_cases s with ⟨_,_,same⟩ | ⟨_,⟨error,_,same⟩ | ⟨total,chunks,scanned,same⟩⟩
  · exact .inl (by rw [same])
  · exact .inl (by rw [same])
  · exact .inr ⟨total,chunks,scanned,by rw [same]⟩

theorem peekChunkCount_eq (uncached : ¬ (s.initialized = true ∧ 0 < s.totalChunks)) :
    s.peekChunkCount = (s.peekTotalSize.1.map fun _ => s.peekTotalSize.2.totalChunks,s.peekTotalSize.2) := by
  unfold RlpChunkedListDecoder.peekChunkCount
  rw [if_neg uncached]
  rcases s.peekTotalSize with ⟨_ | _,_⟩
  · rfl
  · rfl

theorem peekChunkCount_peeked : Peeked s s.peekChunkCount.2 := by
  by_cases cached : s.initialized = true ∧ 0 < s.totalChunks
  · unfold RlpChunkedListDecoder.peekChunkCount
    rw [if_pos cached]
    exact .inl rfl
  · rw [peekChunkCount_eq cached]
    exact peekTotalSize_peeked s

end peeks

inductive Nested (v : ByteView) : Nat → ByteView → Prop where
  | here : Nested v 0 v
  | inside : Nested v depth w → (∀ payloads rest,w.bytes ≠ stringList payloads ++ rest) → w.bytes = listHeader size ++ x.bytes →
      size ≤ x.length → Nested v (depth + 1) x

theorem Nested.same (first : Nested v depth w) (second : Nested v depth x) : w = x := by
  induction first generalizing x with
  | here =>
    cases second
    rfl
  | @inside depth w size next _ _ spelled room ih =>
    cases second with
    | inside outer _ other fits =>
      cases ih outer
      have small := w.fits
      rw [spelled] at other small
      exact ByteView.ext_bytes (listHeader_same other room fits small).2

theorem Nested.above (deep : Nested v more x) (less : depth < more) :
    ∃ w,Nested v depth w ∧ (∀ payloads rest,w.bytes ≠ stringList payloads ++ rest) ∧ ∃ h,peekList w = .ok h := by
  induction deep with
  | here => omega
  | @inside deeper w size next outer other spelled room ih =>
    rcases Nat.lt_succ_iff_lt_or_eq.mp less with above | rfl
    · exact ih above
    · exact ⟨w,outer,other,_,peekList_iff.mpr ⟨size,next.bytes,spelled,room,rfl⟩⟩

theorem Nested.beneath (nested : Nested v depth w) (other : ∀ payloads rest,w.bytes ≠ stringList payloads ++ rest) (deep : Nested v more x)
    (listed : x.bytes = stringList payloads ++ rest) : depth < more := by
  rcases Nat.lt_trichotomy depth more with less | rfl | greater
  · exact less
  · cases nested.same deep
    exact absurd listed (other payloads rest)
  · obtain ⟨between,above,unlisted,_⟩ := nested.above greater
    cases above.same deep
    exact absurd listed (unlisted payloads rest)

theorem Nested.last (nested : Nested v depth w) (listed : w.bytes = stringList payloads ++ rest) (deep : Nested v more x)
    (spelled : x.bytes = stringList others ++ left) : depth = more ∧ payloads = others := by
  have passed {depth more : Nat} {w x : ByteView} {payloads : List (List UInt8)} {rest : List UInt8} (nested : Nested v depth w)
      (listed : w.bytes = stringList payloads ++ rest) (deep : Nested v more x) : ¬ depth < more := by
    intro less
    obtain ⟨between,above,unlisted,_⟩ := deep.above less
    cases above.same nested
    exact unlisted payloads rest listed
  have first := passed nested listed deep
  have second := passed deep spelled nested
  obtain rfl : depth = more := by omega
  cases nested.same deep
  exact ⟨rfl,stringList_same listed spelled⟩

section stages

-- How far a decoder has come after so many reads. A list of strings is opened; at
-- any other list the view is moved behind the header; at anything else it stays.
inductive Stage (v : ByteView) : Nat → RlpChunkedListDecoder → Prop where
  | waiting : Nested v reads s.view → s.initialized = false → s.chunkIndex = 0 →
      (s.totalChunks = 0 ∨ ∃ total,scanView s.view = .ok (total,s.totalChunks)) → Stage v reads s
  | stuck : Nested v depth s.view → depth ≤ reads → s.initialized = false → (∀ h,peekList s.view ≠ .ok h) → Stage v reads s
  | reading : Nested v depth w → w.bytes = stringList payloads ++ rest → Reading s payloads rest count → reads = depth + count →
      0 < count → Stage v reads s

inductive NextRead (v : ByteView) (reads : Nat) (s : RlpChunkedListDecoder) : Prop where
  | fails : s.readChunk = (.error error,next) → Stage v (reads + 1) next →
      (∀ depth w payloads rest,Nested v depth w → w.bytes = stringList payloads ++ rest → reads < depth) → NextRead v reads s
  | gives : s.readChunk = (.ok chunk,next) → Stage v (reads + 1) next → Nested v depth w → w.bytes = stringList payloads ++ rest →
      depth ≤ reads → chunk.bytes = payloads.getD (reads - depth) [] → NextRead v reads s

variable {s : RlpChunkedListDecoder}

theorem scanned_list (scanned : scanView v = .ok found) : ∃ h,peekList v = .ok h := by
  obtain ⟨h,peeked,_⟩ := bind_ok.mp scanned
  exact ⟨h,peeked⟩

theorem scanView_string (spelled : v.bytes = encodeString payload ++ rest) : ∃ error,scanView v = .error error := by
  cases scanned : scanView v with
  | error error => exact ⟨error,rfl⟩
  | ok found =>
    obtain ⟨payloads,more,listed,_⟩ := scanView_iff.mp scanned
    exact absurd listed (string_not_list spelled)

theorem Reading.scan_fails (reading : Reading s payloads rest count) (some : payloads ≠ []) :
    ∃ error,scanView s.view = .error error := by
  cases payloads with
  | nil => exact absurd rfl some
  | cons payload payloads =>
    have spelled := reading.view
    rw [strings_cons,List.append_assoc] at spelled
    exact scanView_string spelled

theorem Reading.peeked (reading : Reading s payloads rest count) (peeked : Peeked s t) : Reading t payloads rest count := by
  rcases peeked with rfl | ⟨total,chunks,scanned,rfl⟩
  · exact reading
  · refine ⟨reading.ready,reading.view,reading.left,reading.index,fun some => ?_⟩
    obtain ⟨error,failed⟩ := reading.scan_fails some
    cases scanned.symm.trans failed

theorem Stage.peeked (stage : Stage v reads s) (peeked : Peeked s t) : Stage v reads t := by
  cases stage with
  | waiting nested fresh first known =>
    rcases peeked with rfl | ⟨total,chunks,scanned,rfl⟩
    · exact .waiting nested fresh first known
    · exact .waiting nested fresh first (.inr ⟨total,scanned⟩)
  | stuck nested less fresh none =>
    rcases peeked with rfl | ⟨total,chunks,scanned,rfl⟩
    · exact .stuck nested less fresh none
    · obtain ⟨h,found⟩ := scanned_list scanned
      exact absurd found (none h)
  | reading nested listed reading counted some => exact .reading nested listed (reading.peeked peeked) counted some

theorem readChunk_failed (failed : s.start = (.error error,next)) : s.readChunk = (.error error,next) := by
  unfold RlpChunkedListDecoder.readChunk
  rw [failed]

theorem start_no_list (fresh : s.initialized = false) (none : ∀ h,peekList s.view ≠ .ok h) : ∃ error,s.start = (.error error,s) := by
  unfold RlpChunkedListDecoder.start
  rw [fresh,if_neg Bool.false_ne_true]
  cases peeked : peekList s.view with
  | error error => exact ⟨error,rfl⟩
  | ok h => exact absurd peeked (none h)

theorem start_other_list (fresh : s.initialized = false) (uncounted : s.totalChunks = 0) (spelled : s.view.bytes = listHeader size ++ rest.bytes)
    (room : size ≤ rest.length) (other : ∀ payloads rest,s.view.bytes ≠ stringList payloads ++ rest) :
    ∃ error,s.start = (.error error,{ s with view := rest,listPayload := rest.substr 0 size }) := by
  have peeked := peekList_iff.mpr ⟨size,rest.bytes,spelled,room,rfl⟩
  unfold RlpChunkedListDecoder.start
  rw [fresh,if_neg Bool.false_ne_true,peeked]
  dsimp only
  rw [if_pos uncounted,ByteView.removePrefix_eq spelled]
  cases scanned : scanList (rest.substr 0 size) with
  | error error => exact ⟨error,rfl⟩
  | ok found =>
    obtain ⟨payloads,inside,_⟩ := scanList_iff.mp scanned
    rw [ByteView.substr_bytes,List.drop_zero] at inside
    refine absurd ?_ (other payloads (rest.bytes.drop size))
    rw [spelled,listHeader_cut room,inside,stringList]

theorem Stage.next (stage : Stage v reads s) : NextRead v reads s := by
  cases stage with
  | waiting nested fresh first known =>
    by_cases listed : ∃ payloads rest,s.view.bytes = stringList payloads ++ rest
    · obtain ⟨payloads,rest,spelled⟩ := listed
      have counted : s.totalChunks = 0 ∨ s.totalChunks = payloads.length := by
        refine known.imp_right fun ⟨total,scanned⟩ => ?_
        have again := scanView_iff.mpr ⟨payloads,rest,spelled,rfl⟩
        exact (Prod.mk.inj (Except.ok.inj (scanned.symm.trans again))).2
      obtain ⟨opened,started,reading,_⟩ := start_reading fresh first spelled counted
      obtain ⟨chunk,next,read,bytes,reading⟩ := reading.nextChunk
      refine .gives ((readChunk_started started).trans read) (.reading nested spelled reading rfl (by omega)) nested spelled (Nat.le_refl _) ?_
      rw [bytes,Nat.sub_self]
    · have other (payloads : List (List UInt8)) (rest : List UInt8) (spelled : s.view.bytes = stringList payloads ++ rest) : False :=
        listed ⟨payloads,rest,spelled⟩
      have later (depth : Nat) (w : ByteView) (payloads : List (List UInt8)) (rest : List UInt8) (deep : Nested v depth w)
          (spelled : w.bytes = stringList payloads ++ rest) : reads < depth := nested.beneath other deep spelled
      by_cases headed : ∃ h,peekList s.view = .ok h
      · obtain ⟨h,peeked⟩ := headed
        obtain ⟨size,tail,spelled,room,_⟩ := peekList_iff.mp peeked
        obtain ⟨rest,rfl⟩ := ByteView.exists_behind spelled
        have uncounted : s.totalChunks = 0 := by
          refine known.resolve_right fun ⟨total,scanned⟩ => ?_
          obtain ⟨payloads,rest,spelled,_⟩ := scanView_iff.mp scanned
          exact other payloads rest spelled
        obtain ⟨error,failed⟩ := start_other_list fresh uncounted spelled room other
        exact .fails (readChunk_failed failed) (.waiting (.inside nested other spelled room) fresh first (.inl uncounted)) later
      · have none (h : Header) (peeked : peekList s.view = .ok h) : False := headed ⟨h,peeked⟩
        obtain ⟨error,failed⟩ := start_no_list fresh none
        exact .fails (readChunk_failed failed) (.stuck nested (Nat.le_succ _) fresh none) later
  | stuck nested less fresh none =>
    obtain ⟨error,failed⟩ := start_no_list fresh none
    refine .fails (readChunk_failed failed) (.stuck nested (Nat.le_succ_of_le less) fresh none) ?_
    intro depth w payloads rest deep spelled
    have other (payloads : List (List UInt8)) (rest : List UInt8) (spelled : s.view.bytes = stringList payloads ++ rest) : False := by
      obtain ⟨h,peeked⟩ := scanned_list (scanView_iff.mpr ⟨payloads,rest,spelled,rfl⟩)
      exact none h peeked
    obtain ⟨between,above,_,h,peeked⟩ := deep.above (nested.beneath other deep spelled)
    cases above.same nested
    exact absurd peeked (none h)
  | reading nested listed reading counted some =>
    obtain ⟨chunk,next,read,bytes,reading⟩ := reading.readChunk
    refine .gives read (.reading nested listed reading (by omega) (by omega)) nested listed (by omega) ?_
    rw [bytes]
    congr 1
    omega

theorem stage_after (calls : List ListCall) : Stage v (calls.count .readChunk) (afterCalls v calls) := by
  induction calls using List.reverseRecOn with
  | nil => exact .waiting .here rfl rfl (.inl rfl)
  | append_singleton calls call ih =>
    rw [afterCalls_snoc,List.count_append]
    cases call with
    | peekTotalSize => exact ih.peeked (peekTotalSize_peeked _)
    | peekChunkCount => exact ih.peeked peekChunkCount_peeked
    | readChunk =>
      cases ih.next with
      | fails read stage =>
        rw [ListCall.run,read]
        exact stage
      | gives read stage =>
        rw [ListCall.run,read]
        exact stage

theorem Stage.read_iff (stage : Stage v reads s) : (∃ chunk,s.readChunk.1 = .ok chunk ∧ chunk ≠ .empty) ↔
    ∃ depth w payloads rest,Nested v depth w ∧ w.bytes = stringList payloads ++ rest ∧ depth ≤ reads ∧
      payloads.getD (reads - depth) [] ≠ [] := by
  cases stage.next with
  | fails read _ later =>
    rw [read]
    constructor
    · intro ⟨chunk,impossible,_⟩
      cases impossible
    · intro ⟨depth,w,payloads,rest,nested,listed,less,_⟩
      have more := later depth w payloads rest nested listed
      omega
  | @gives next chunk depth w payloads rest read _ nested listed less bytes =>
    rw [read]
    constructor
    · intro ⟨found,same,filled⟩
      cases same
      refine ⟨depth,w,payloads,rest,nested,listed,less,fun nothing => filled (ByteView.ext_bytes ?_)⟩
      rw [bytes,nothing]
      rfl
    · intro ⟨other,x,others,more,deep,spelled,_,filled⟩
      obtain ⟨rfl,rfl⟩ := nested.last listed deep spelled
      refine ⟨chunk,rfl,fun empty => filled ?_⟩
      rw [← bytes,empty]
      rfl

end stages
section listed

-- Once a decoder of a list of strings is reading, the totals are those of a
-- peek before the first read, or of what a later peek found at the view.
inductive Listed (v : ByteView) (payloads : List (List UInt8)) (rest : List UInt8) : List ListCall → RlpChunkedListDecoder → Prop where
  | unread : .readChunk ∉ calls → s.view = v → s.initialized = false → s.chunkIndex = 0 →
      s.totalSize = (if calls = [] then 0 else payloads.flatten.length) → s.totalChunks = (if calls = [] then 0 else payloads.length) →
      Listed v payloads rest calls s
  | reading : .readChunk ∈ calls → Reading s payloads rest count →
      (payloads ≠ [] → s.totalSize = if calls.head? = some .readChunk then 0 else payloads.flatten.length) →
      (payloads = [] → (s.totalSize = 0 ∧ s.totalChunks = 0) ∨ scanView s.view = .ok (s.totalSize,s.totalChunks)) →
      Listed v payloads rest calls s

variable {calls : List ListCall} {s : RlpChunkedListDecoder}

theorem head_snoc (read : .readChunk ∈ calls) : (calls ++ [call]).head? = calls.head? := by
  cases calls with
  | nil => cases read
  | cons first calls => rfl

theorem unread_peeks (spelled : s.view.bytes = stringList payloads ++ rest) (fresh : s.initialized = false) :
    s.peekTotalSize = (.ok payloads.flatten.length,{ s with totalSize := payloads.flatten.length,totalChunks := payloads.length }) ∧
    s.peekChunkCount = (.ok payloads.length,{ s with totalSize := payloads.flatten.length,totalChunks := payloads.length }) := by
  have uncached (known : Prop) : ¬ (s.initialized = true ∧ known) := fun cached => Bool.false_ne_true (fresh.symm.trans cached.1)
  have total : s.peekTotalSize =
      (.ok payloads.flatten.length,{ s with totalSize := payloads.flatten.length,totalChunks := payloads.length }) := by
    unfold RlpChunkedListDecoder.peekTotalSize
    rw [if_neg (uncached _),scanView_iff.mpr ⟨payloads,rest,spelled,rfl⟩]
  refine ⟨total,?_⟩
  rw [peekChunkCount_eq (uncached _),total]
  rfl

theorem Listed.peeked (listed : Listed v payloads rest calls s) (read : .readChunk ∈ calls) (peeked : Peeked s t) (call : ListCall) :
    Listed v payloads rest (calls ++ [call]) t := by
  cases listed with
  | unread unread => exact absurd read unread
  | reading _ reading known found =>
    refine .reading (List.mem_append_left _ read) (reading.peeked peeked) ?_ ?_
    · intro some
      rcases peeked with rfl | ⟨total,chunks,scanned,rfl⟩
      · rw [head_snoc read]
        exact known some
      · obtain ⟨error,failed⟩ := reading.scan_fails some
        cases scanned.symm.trans failed
    · intro none
      rcases peeked with rfl | ⟨total,chunks,scanned,rfl⟩
      · exact found none
      · exact .inr scanned

theorem Listed.counted (unread : .readChunk ∉ calls) (view : s.view = v)
    (fresh : s.initialized = false) (first : s.chunkIndex = 0) (call : ListCall) (peek : call ≠ .readChunk) :
    Listed v payloads rest (calls ++ [call]) { s with totalSize := payloads.flatten.length,totalChunks := payloads.length } := by
  have unread : .readChunk ∉ calls ++ [call] := by
    intro member
    rcases List.mem_append.mp member with before | now
    · exact unread before
    · exact peek (List.mem_singleton.mp now).symm
  have some : calls ++ [call] ≠ [] := List.append_ne_nil_of_right_ne_nil _ (List.cons_ne_nil _ _)
  exact .unread unread view fresh first (if_neg some).symm (if_neg some).symm

theorem Listed.read (listed : Listed v payloads rest calls s) (spelled : v.bytes = stringList payloads ++ rest) :
    Listed v payloads rest (calls ++ [.readChunk]) s.readChunk.2 := by
  have now : .readChunk ∈ calls ++ [ListCall.readChunk] := List.mem_append_right _ (List.mem_singleton.mpr rfl)
  cases listed with
  | unread unread view fresh first size count =>
    have known : s.totalChunks = 0 ∨ s.totalChunks = payloads.length := by
      rw [count]
      split
      · exact .inl rfl
      · exact .inr rfl
    rw [← view] at spelled
    obtain ⟨opened,started,reading,sized,counted⟩ := start_reading fresh first spelled known
    obtain ⟨chunk,next,read,_,reading⟩ := reading.nextChunk
    have totals := nextChunk_totals opened
    rw [readChunk_started started]
    rw [read] at totals ⊢
    refine .reading now reading ?_ ?_
    · intro _
      rw [totals.1,sized,size]
      cases calls with
      | nil => rfl
      | cons call calls =>
        have other : ¬ (call :: calls ++ [ListCall.readChunk]).head? = some .readChunk := by
          intro same
          exact unread (List.mem_cons.mpr (.inl (Option.some.inj same).symm))
        rw [if_neg (List.cons_ne_nil _ _),if_neg other]
    · intro none
      refine .inl ⟨?_,?_⟩
      · rw [totals.1,sized,size,none]
        exact ite_self 0
      · rw [totals.2,counted,none]
        rfl
  | reading before reading known found =>
    obtain ⟨chunk,next,read,_,later⟩ := reading.readChunk
    have totals := nextChunk_totals s
    rw [readChunk_started reading.start] at read ⊢
    rw [read] at totals ⊢
    have view : next.view = s.view := ByteView.ext_bytes (later.view.trans reading.view.symm)
    refine .reading now later ?_ ?_
    · intro some
      rw [totals.1,head_snoc before]
      exact known some
    · intro none
      rw [totals.1,totals.2,view]
      exact found none

theorem listed_after (spelled : v.bytes = stringList payloads ++ rest) (calls : List ListCall) :
    Listed v payloads rest calls (afterCalls v calls) := by
  induction calls using List.reverseRecOn with
  | nil => exact .unread List.not_mem_nil rfl rfl rfl rfl rfl
  | append_singleton calls call ih =>
    rw [afterCalls_snoc]
    by_cases read : .readChunk ∈ calls
    · cases call with
      | peekTotalSize => exact ih.peeked read (peekTotalSize_peeked _) _
      | peekChunkCount => exact ih.peeked read peekChunkCount_peeked _
      | readChunk => exact ih.read spelled
    · cases call with
      | readChunk => exact ih.read spelled
      | peekTotalSize =>
        cases ih with
        | reading some => exact absurd some read
        | unread _ view fresh first =>
          rw [ListCall.run,(unread_peeks (view ▸ spelled) fresh).1]
          exact .counted read view fresh first _ (by decide)
      | peekChunkCount =>
        cases ih with
        | reading some => exact absurd some read
        | unread _ view fresh first =>
          rw [ListCall.run,(unread_peeks (view ▸ spelled) fresh).2]
          exact .counted read view fresh first _ (by decide)

theorem scan_total_zero (view : s.view.bytes = rest) : (∃ chunks,scanView s.view = .ok (0,chunks)) ↔
    ∃ others more,rest = stringList others ++ more ∧ others.flatten = [] := by
  constructor
  · intro ⟨chunks,scanned⟩
    obtain ⟨others,more,spelled,same⟩ := scanView_iff.mp scanned
    exact ⟨others,more,view.symm.trans spelled,List.length_eq_zero_iff.mp (Prod.mk.inj same).1.symm⟩
  · intro ⟨others,more,spelled,nothing⟩
    refine ⟨others.length,scanView_iff.mpr ⟨others,more,view.trans spelled,?_⟩⟩
    rw [nothing]
    rfl

theorem scan_count_zero (view : s.view.bytes = rest) : (∃ total,scanView s.view = .ok (total,0)) ↔
    ∃ more,rest = stringList [] ++ more := by
  constructor
  · intro ⟨total,scanned⟩
    obtain ⟨others,more,spelled,same⟩ := scanView_iff.mp scanned
    have none : others = [] := List.length_eq_zero_iff.mp (Prod.mk.inj same).2.symm
    rw [none] at spelled
    exact ⟨more,view.symm.trans spelled⟩
  · intro ⟨more,spelled⟩
    exact ⟨0,scanView_iff.mpr ⟨[],more,view.trans spelled,rfl⟩⟩

theorem recalled_total (known : (s.totalSize = 0 ∧ s.totalChunks = 0) ∨ scanView s.view = .ok (s.totalSize,s.totalChunks)) (total : Nat) :
    s.peekTotalSize.1 = .ok total ↔ ∃ chunks,scanView s.view = .ok (total,chunks) := by
  rcases peekTotalSize_cases s with ⟨_,filled,same⟩ | ⟨_,⟨error,failed,same⟩ | ⟨other,chunks,scanned,same⟩⟩
  · rw [same,known.resolve_left fun zero => by omega]
    simp
  · rw [same,failed]
    simp
  · rw [same,scanned]
    simp

theorem recalled_count (known : (s.totalSize = 0 ∧ s.totalChunks = 0) ∨ scanView s.view = .ok (s.totalSize,s.totalChunks)) (count : Nat) :
    s.peekChunkCount.1 = .ok count ↔ ∃ total,scanView s.view = .ok (total,count) := by
  by_cases cached : s.initialized = true ∧ 0 < s.totalChunks
  · unfold RlpChunkedListDecoder.peekChunkCount
    rw [if_pos cached,known.resolve_left fun zero => by omega]
    simp
  rw [peekChunkCount_eq cached]
  rcases peekTotalSize_cases s with ⟨_,filled,same⟩ | ⟨_,⟨error,failed,same⟩ | ⟨other,chunks,scanned,same⟩⟩
  · rw [same,known.resolve_left fun zero => by omega]
    simp [Except.map]
  · rw [same,failed]
    simp [Except.map]
  · rw [same,scanned]
    simp [Except.map]

theorem Listed.peekTotalSize_iff (listed : Listed v payloads rest calls s) (spelled : v.bytes = stringList payloads ++ rest) :
    s.peekTotalSize.1 = .ok payloads.flatten.length ↔ .readChunk ∉ calls ∨
      (0 < payloads.flatten.length ∧ calls.head? ≠ some .readChunk) ∨
      (payloads = [] ∧ ∃ others more,rest = stringList others ++ more ∧ others.flatten = []) := by
  cases listed with
  | unread unread view fresh =>
    rw [(unread_peeks (view ▸ spelled) fresh).1]
    exact ⟨fun _ => .inl unread,fun _ => rfl⟩
  | reading read reading known found =>
    rw [or_iff_right (not_not.mpr read)]
    by_cases none : payloads = []
    · have total : payloads.flatten.length = 0 := by rw [none]; rfl
      have view : s.view.bytes = rest := by rw [reading.view,none]; rfl
      rw [total,or_iff_right fun filled => Nat.lt_irrefl 0 filled.1,and_iff_right none,← scan_total_zero view]
      exact recalled_total (found none) 0
    · rw [or_iff_left fun empty => none empty.1]
      obtain ⟨error,failed⟩ := reading.scan_fails none
      have size := known none
      rcases peekTotalSize_cases s with ⟨_,filled,same⟩ | ⟨uncached,⟨_,_,same⟩ | ⟨_,_,scanned,_⟩⟩
      · rw [same]
        rw [size] at filled ⊢
        split_ifs at filled with peeked
        · exact absurd filled (Nat.lt_irrefl 0)
        · rw [if_neg peeked]
          exact ⟨fun _ => ⟨filled,peeked⟩,fun _ => rfl⟩
      · rw [same]
        constructor
        · intro impossible
          cases impossible
        · intro ⟨filled,peeked⟩
          refine absurd ⟨reading.ready,?_⟩ uncached
          rw [size,if_neg peeked]
          exact filled
      · cases failed.symm.trans scanned

theorem Listed.peekChunkCount_iff (listed : Listed v payloads rest calls s) (spelled : v.bytes = stringList payloads ++ rest) :
    s.peekChunkCount.1 = .ok payloads.length ↔ .readChunk ∉ calls ∨ payloads ≠ [] ∨ ∃ more,rest = stringList [] ++ more := by
  cases listed with
  | unread unread view fresh =>
    rw [(unread_peeks (view ▸ spelled) fresh).2]
    exact ⟨fun _ => .inl unread,fun _ => rfl⟩
  | reading read reading known found =>
    rw [or_iff_right (not_not.mpr read)]
    by_cases none : payloads = []
    · have view : s.view.bytes = rest := by rw [reading.view,none]; rfl
      rw [or_iff_right (not_not.mpr none),← scan_count_zero view]
      have count : payloads.length = 0 := by rw [none]; rfl
      rw [count]
      exact recalled_count (found none) 0
    · have counted := reading.chunks none
      have cached : s.initialized = true ∧ 0 < s.totalChunks := ⟨reading.ready,by rw [counted]; exact List.length_pos_iff.mpr none⟩
      unfold RlpChunkedListDecoder.peekChunkCount
      rw [if_pos cached,counted]
      exact ⟨fun _ => .inl none,fun _ => rfl⟩

end listed

-- The totals of a list of strings are given out reliably before the first read.
-- After it the size needs an earlier peek and the number a string in the list.
-- Of anything else a chunk is read as soon as the calls are behind the outer
-- headers.
theorem chunked_decoder_consistent_iff (v : ByteView) (calls : List ListCall) :
    (∀ payloads rest,v.bytes = stringList payloads ++ rest →
      ((afterCalls v calls).peekTotalSize.1 = .ok payloads.flatten.length ↔ .readChunk ∉ calls ∨
        (0 < payloads.flatten.length ∧ calls.head? ≠ some .readChunk) ∨
        (payloads = [] ∧ ∃ others more,rest = stringList others ++ more ∧ others.flatten = [])) ∧
      ((afterCalls v calls).peekChunkCount.1 = .ok payloads.length ↔
        .readChunk ∉ calls ∨ payloads ≠ [] ∨ ∃ more,rest = stringList [] ++ more)) ∧
    ((∀ payloads rest,v.bytes ≠ stringList payloads ++ rest) →
      ((∃ chunk,(afterCalls v calls).readChunk.1 = .ok chunk ∧ chunk ≠ .empty) ↔
        ∃ depth w payloads rest,Nested v depth w ∧ w.bytes = stringList payloads ++ rest ∧ depth ≤ calls.count .readChunk ∧
          payloads.getD (calls.count .readChunk - depth) [] ≠ [])) := by
  refine ⟨?_,fun _ => (stage_after ..).read_iff⟩
  intro payloads rest spelled
  have listed := listed_after spelled calls
  exact ⟨listed.peekTotalSize_iff spelled,listed.peekChunkCount_iff spelled⟩

def oneString : ByteView := ⟨[0xC1,0x05],by decide⟩

def listInList : ByteView := ⟨[0xC2,0xC1,0x05],by decide⟩

theorem unlisted (failed : scanView v = .error error) (payloads : List (List UInt8)) (rest : List UInt8) :
    v.bytes ≠ stringList payloads ++ rest := by
  intro spelled
  cases failed.symm.trans (scanView_iff.mpr ⟨payloads,rest,spelled,rfl⟩)

theorem peeked_before_reading : (afterCalls oneString [.peekTotalSize,.readChunk,.readChunk]).peekTotalSize.1 = .ok 1 ∧
    (afterCalls oneString [.readChunk]).peekChunkCount.1 = .ok 1 ∧
    ¬ ∃ chunk,(afterCalls listInList []).readChunk.1 = .ok chunk ∧ chunk ≠ .empty := by
  refine ⟨?_,?_,?_⟩
  · exact ((chunked_decoder_consistent_iff ..).1 [[0x05]] [] (by decide)).1.mpr (.inr (.inl ⟨by decide,by decide⟩))
  · exact ((chunked_decoder_consistent_iff ..).1 [[0x05]] [] (by decide)).2.mpr (.inr (.inl (by decide)))
  · have other := unlisted (show scanView listInList = .error .kUnexpectedList by decide +kernel)
    rw [(chunked_decoder_consistent_iff listInList []).2 other]
    intro ⟨depth,w,payloads,rest,nested,spelled,first,_⟩
    obtain rfl : depth = 0 := Nat.le_zero.mp first
    cases nested
    exact other payloads rest spelled

theorem reads_confuse_decoder : (afterCalls oneString [.readChunk]).peekTotalSize.1 = .error .kUnexpectedString ∧
    (afterCalls listInList []).readChunk.1 = .error .kUnexpectedList ∧
    (afterCalls listInList [.readChunk]).readChunk.1 = .ok ⟨[0x05],by decide⟩ := by
  decide +kernel

end EvmRelay.Rlp
