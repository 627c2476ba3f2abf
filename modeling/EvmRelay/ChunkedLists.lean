import Mathlib.Data.List.TakeWhile
import EvmRelay.Chunks
import EvmRelay.RlpReader
import EvmRelay.RlpStreaming

namespace EvmRelay.Rlp
open RlpSpec

def strings (payloads : List (List UInt8)) : List UInt8 := payloads.flatMap encodeString

def stringList (payloads : List (List UInt8)) : List UInt8 := encodeList (strings payloads)

@[simp] theorem strings_nil : strings [] = [] := rfl

@[simp] theorem strings_cons : strings (payload :: payloads) = encodeString payload ++ strings payloads := rfl

theorem strings_append : strings (front ++ back) = strings front ++ strings back :=
  List.flatMap_append

theorem strings_count (payloads : List (List UInt8)) : payloads.length ≤ (strings payloads).length := by
  induction payloads with
  | nil => simp
  | cons payload payloads ih =>
    have positive := encodeString_pos payload
    simp only [strings_cons,List.length_cons,List.length_append]
    omega

theorem strings_total (payloads : List (List UInt8)) : payloads.flatten.length ≤ (strings payloads).length := by
  induction payloads with
  | nil => simp
  | cons payload payloads ih =>
    have shorter := encodeString_length payload
    simp only [strings_cons,List.flatten_cons,List.length_append]
    omega

theorem strings_same (same : strings payloads = strings others)
    (small : (strings payloads).length < sizeLimit) : payloads = others := by
  induction payloads generalizing others with
  | nil =>
    cases others with
    | nil => rfl
    | cons other others => exact absurd (List.append_eq_nil_iff.mp same.symm).1 (IsItem.string other).nonempty
  | cons payload payloads ih =>
    cases others with
    | nil => exact absurd (List.append_eq_nil_iff.mp same).1 (IsItem.string payload).nonempty
    | cons other others =>
      obtain ⟨rfl,behind⟩ := encodeString_same same small
      rw [ih behind (back_fits small)]

theorem stringList_same {v : ByteView} (first : v.bytes = stringList payloads ++ rest)
    (second : v.bytes = stringList others ++ more) : payloads = others := by
  have small := v.fits
  rw [first] at second small
  have lists := ((IsItem.list _).same (.list _) second small).1
  exact strings_same (encodeList_same lists (front_fits small)) (encodeList_shorter (front_fits small))

section scan
open RlpChunkedListDecoder RlpLargeStringDecoder

theorem scanChunks_spelled (spelled : v.bytes = strings payloads)
    (enough : payloads.length ≤ fuel) (total count : Nat) (fits : total + payloads.flatten.length < sizeLimit)
    (few : count + payloads.length < sizeLimit) :
    scanChunks fuel v total count = .ok (total + payloads.flatten.length,count + payloads.length) := by
  induction payloads generalizing fuel v total count with
  | nil =>
    have finished : isFinished v = true := (isFinished_iff v).mpr spelled
    cases fuel with
    | zero => exact if_pos finished
    | succ fuel => exact if_pos finished
  | cons payload payloads ih =>
    cases fuel with
    | zero => simp at enough
    | succ fuel =>
      rw [strings_cons] at spelled
      obtain ⟨offset,peeked,_,width⟩ := peekString_spelled spelled
      have unfinished := (IsItem.string payload).unfinished spelled
      obtain ⟨rest,spelled,behind⟩ := v.cut spelled
      simp only [List.flatten_cons,List.length_append,List.length_cons] at fits few enough ⊢
      rw [scanChunks,if_neg unfinished,peeked,ok_bind]
      dsimp only
      rw [width,ByteView.removePrefix_eq spelled,sizeAdd_small (by omega),sizeAdd_small (by omega),
        ih behind (by omega) _ _ (by omega) (by omega)]
      congr 2
      · omega
      · omega

theorem scanChunks_sound (scanned : scanChunks fuel v total count = .ok found) : ∃ payloads,v.bytes = strings payloads := by
  induction fuel generalizing v total count with
  | zero =>
    rw [scanChunks] at scanned
    split at scanned
    · rename_i finished
      exact ⟨[],(isFinished_iff v).mp finished⟩
    · cases scanned
  | succ fuel ih =>
    rw [scanChunks] at scanned
    split_ifs at scanned with finished
    · exact ⟨[],(isFinished_iff v).mp finished⟩
    obtain ⟨h,peeked,scanned⟩ := bind_ok.mp scanned
    obtain ⟨payload,rest,spelled⟩ := peekString_sound peeked
    obtain ⟨offset,again,_,width⟩ := peekString_spelled spelled
    cases peeked.symm.trans again
    obtain ⟨view,spelled,behind⟩ := v.cut spelled
    rw [width,ByteView.removePrefix_eq spelled] at scanned
    obtain ⟨payloads,others⟩ := ih scanned
    exact ⟨payload :: payloads,by rw [spelled,others,strings_cons]⟩

theorem scanList_iff :
    scanList v = .ok found ↔ ∃ payloads,v.bytes = strings payloads ∧ found = (payloads.flatten.length,payloads.length) := by
  have counted {payloads : List (List UInt8)} (spelled : v.bytes = strings payloads) :
      scanList v = .ok (payloads.flatten.length,payloads.length) := by
    have fits := v.fits
    have length : v.length = v.bytes.length := rfl
    have total := strings_total payloads
    have count := strings_count payloads
    rw [spelled] at fits length
    rw [scanList,scanChunks_spelled spelled (by omega) 0 0 (by omega) (by omega),Nat.zero_add,Nat.zero_add]
  constructor
  · intro scanned
    obtain ⟨payloads,spelled⟩ := scanChunks_sound scanned
    exact ⟨payloads,spelled,Except.ok.inj (scanned.symm.trans (counted spelled))⟩
  · intro ⟨payloads,spelled,same⟩
    rw [same]
    exact counted spelled

theorem peekList_iff : peekList v = .ok h ↔
    ∃ size tail,v.bytes = listHeader size ++ tail ∧ size ≤ tail.length ∧ h = ⟨true,size,(listHeader size).length⟩ := by
  constructor
  · intro peeked
    obtain ⟨found,header,_⟩ := bind_ok.mp peeked
    rw [peekList_eq header] at peeked
    obtain ⟨list,size,offset⟩ := found
    cases list with
    | false => cases peeked
    | true =>
      cases peeked
      obtain ⟨tail,spelled,rfl,room⟩ := (peekHeader_list ..).mp header
      exact ⟨size,tail,spelled,room,rfl⟩
  · intro ⟨size,tail,spelled,room,same⟩
    have header := (peekHeader_list ..).mpr ⟨tail,spelled,rfl,room⟩
    rw [peekList_eq header,same]
    rfl

theorem scanView_iff : scanView v = .ok found ↔
    ∃ payloads rest,v.bytes = stringList payloads ++ rest ∧ found = (payloads.flatten.length,payloads.length) := by
  constructor
  · intro scanned
    obtain ⟨h,peeked,scanned⟩ := bind_ok.mp scanned
    obtain ⟨size,tail,spelled,room,rfl⟩ := peekList_iff.mp peeked
    obtain ⟨payloads,inside,same⟩ := scanList_iff.mp scanned
    rw [ByteView.substr_bytes,spelled,List.drop_left] at inside
    refine ⟨payloads,tail.drop size,?_,same⟩
    rw [spelled,listHeader_cut room,inside,stringList]
  · intro ⟨payloads,rest,spelled,same⟩
    rw [stringList,encodeList,List.append_assoc] at spelled
    have peeked := peekList_iff.mpr ⟨_,_,spelled,by simp,rfl⟩
    refine bind_ok.mpr ⟨_,peeked,scanList_iff.mpr ⟨payloads,?_,same⟩⟩
    rw [ByteView.substr_bytes,spelled,List.drop_left,List.take_left]

end scan
section reading
open RlpChunkedListDecoder

theorem drop_getD {payloads : List (List UInt8)} (inside : count < payloads.length) :
    payloads.drop count = payloads.getD count [] :: payloads.drop (count + 1) := by
  rw [List.drop_eq_getElem_cons inside,List.getD,List.getElem?_eq_getElem inside,Option.getD_some]

theorem getD_done {payloads : List (List UInt8)} (done : payloads.length ≤ count) : payloads.getD count [] = [] := by
  rw [List.getD,List.getElem?_eq_none done,Option.getD_none]

structure Reading (s : RlpChunkedListDecoder) (payloads : List (List UInt8)) (rest : List UInt8) (count : Nat) : Prop where
  ready : s.initialized = true
  view : s.view.bytes = strings payloads ++ rest
  left : s.listPayload.bytes = strings (payloads.drop count)
  index : s.chunkIndex = min count payloads.length
  chunks : payloads ≠ [] → s.totalChunks = payloads.length

variable {s : RlpChunkedListDecoder}

theorem Reading.nextChunk (reading : Reading s payloads rest count) :
    ∃ chunk next,s.nextChunk = (.ok chunk,next) ∧ chunk.bytes = payloads.getD count [] ∧ Reading next payloads rest (count + 1) := by
  unfold RlpChunkedListDecoder.nextChunk
  by_cases done : payloads.length ≤ count
  · have nothing := List.drop_eq_nil_of_le done
    have empty : s.listPayload.bytes = [] := by rw [reading.left,nothing,strings_nil]
    have later : payloads.drop (count + 1) = [] := List.drop_eq_nil_of_le (by omega)
    rw [if_pos (.inr empty),if_pos empty]
    refine ⟨.empty,s,rfl,?_,reading.ready,reading.view,?_,?_,reading.chunks⟩
    · rw [getD_done done]
      rfl
    · rw [empty,later,strings_nil]
    · rw [reading.index]
      omega
  · have inside := Nat.lt_of_not_le done
    have some : payloads ≠ [] := List.length_pos_iff.mp (by omega)
    have spelled := reading.left
    rw [drop_getD inside,strings_cons] at spelled
    obtain ⟨offset,peeked,behind,width⟩ := peekString_spelled spelled
    have unfinished : ¬ (s.totalChunks ≤ s.chunkIndex ∨ s.listPayload.bytes = []) := by
      have positive := List.length_pos_iff.mp (encodeString_pos (payloads.getD count []))
      rw [reading.chunks some,reading.index,spelled]
      rintro (over_ | empty)
      · omega
      · exact positive (List.append_eq_nil_iff.mp empty).1
    have fits := s.view.fits
    have counted := strings_count payloads
    rw [reading.view,List.length_append] at fits
    rw [if_neg unfinished,peeked]
    refine ⟨_,_,rfl,?_,reading.ready,reading.view,?_,?_,reading.chunks⟩
    · rw [ByteView.substr_bytes,behind,List.take_left]
    · rw [width,ByteView.removePrefix_bytes,spelled,List.drop_left]
    · dsimp only
      rw [reading.index,sizeAdd_small (by omega)]
      omega

theorem nextChunk_totals (s : RlpChunkedListDecoder) :
    s.nextChunk.2.totalSize = s.totalSize ∧ s.nextChunk.2.totalChunks = s.totalChunks := by
  unfold RlpChunkedListDecoder.nextChunk
  split
  · split <;> exact ⟨rfl,rfl⟩
  · split <;> exact ⟨rfl,rfl⟩

theorem Reading.start (reading : Reading s payloads rest count) : s.start = (.ok (),s) := by
  unfold RlpChunkedListDecoder.start
  rw [if_pos reading.ready]

theorem Reading.readChunk (reading : Reading s payloads rest count) :
    ∃ chunk next,s.readChunk = (.ok chunk,next) ∧ chunk.bytes = payloads.getD count [] ∧ Reading next payloads rest (count + 1) := by
  unfold RlpChunkedListDecoder.readChunk
  rw [reading.start]
  exact reading.nextChunk

theorem start_reading (waiting : s.initialized = false) (first : s.chunkIndex = 0) (spelled : s.view.bytes = stringList payloads ++ rest)
    (known : s.totalChunks = 0 ∨ s.totalChunks = payloads.length) : ∃ next,s.start = (.ok (),next) ∧ Reading next payloads rest 0 ∧
      next.totalSize = s.totalSize ∧ next.totalChunks = payloads.length := by
  rw [stringList,encodeList,List.append_assoc] at spelled
  have peeked := peekList_iff.mpr ⟨_,_,spelled,by simp,rfl⟩
  have behind : (s.view.removePrefix (listHeader (strings payloads).length).length).bytes = strings payloads ++ rest := by
    rw [ByteView.removePrefix_bytes,spelled,List.drop_left]
  have inside : ((s.view.removePrefix (listHeader (strings payloads).length).length).substr 0 (strings payloads).length).bytes =
      strings payloads := by
    rw [ByteView.substr_bytes,behind,List.drop_zero,List.take_left]
  have index : s.chunkIndex = min 0 payloads.length := by rw [first,Nat.zero_min]
  unfold RlpChunkedListDecoder.start
  rw [waiting,if_neg Bool.false_ne_true,peeked]
  dsimp only
  split_ifs with unknown
  · rw [scanList_iff.mpr ⟨payloads,inside,rfl⟩]
    exact ⟨_,rfl,⟨rfl,behind,inside,index,fun _ => rfl⟩,rfl,rfl⟩
  · have counted := known.resolve_left unknown
    exact ⟨_,rfl,⟨rfl,behind,inside,index,fun _ => counted⟩,rfl,counted⟩

theorem Reading.decodeChunks (reading : Reading s payloads rest count) (enough : payloads.length - count < fuel) :
    ∃ found,decodeChunks fuel s = .ok found ∧ found.map ByteView.bytes = (payloads.drop count).takeWhile (· ≠ []) := by
  induction fuel generalizing s count with
  | zero => omega
  | succ fuel ih =>
    obtain ⟨chunk,next,read,bytes,reading⟩ := reading.readChunk
    have round : Rlp.decodeChunks (fuel + 1) s =
        if chunk.bytes = [] then .ok [] else (do let found ← Rlp.decodeChunks fuel next; return chunk :: found) := by
      rw [Rlp.decodeChunks,read]
    by_cases inside : count < payloads.length
    · rw [drop_getD inside,List.takeWhile_cons,← bytes,round]
      by_cases empty : chunk.bytes = []
      · rw [if_pos empty]
        exact ⟨[],rfl,by simp [empty]⟩
      · obtain ⟨found,others,same⟩ := ih reading (by omega)
        rw [if_neg empty,others]
        exact ⟨chunk :: found,rfl,by simp [empty,same]⟩
    · have nothing : payloads.drop count = [] := List.drop_eq_nil_of_le (by omega)
      have empty : chunk.bytes = [] := by rw [bytes,getD_done (by omega)]
      rw [round,if_pos empty,nothing]
      exact ⟨[],rfl,rfl⟩

theorem readChunk_started (started : s.start = (.ok (),next)) : s.readChunk = next.nextChunk := by
  unfold RlpChunkedListDecoder.readChunk
  rw [started]

theorem decodeChunks_started (started : s.start = (.ok (),next)) (reading : Reading next payloads rest count) :
    decodeChunks fuel s = decodeChunks fuel next := by
  cases fuel with
  | zero => rfl
  | succ fuel =>
    rw [decodeChunks,decodeChunks,readChunk_started started,readChunk_started reading.start]

theorem decodeChunkedListFull_eq (spelled : v.bytes = stringList payloads ++ rest) :
    decodeChunkedListFull v = .ok (payloads.takeWhile (· ≠ [])).flatten := by
  have counted := strings_count payloads
  have length : v.length = v.bytes.length := rfl
  rw [spelled,stringList,encodeList,List.length_append,List.length_append] at length
  obtain ⟨next,started,reading,_⟩ := start_reading (s := new v) rfl rfl spelled (.inl rfl)
  obtain ⟨found,ran,same⟩ := reading.decodeChunks (show payloads.length - 0 < v.length + 1 by omega)
  unfold decodeChunkedListFull decodeChunkedList
  rw [decodeChunks_started started reading,ran,ok_bind,List.flatMap_def,same]
  rfl

theorem peekTotalSize_new (spelled : v.bytes = stringList payloads ++ rest) :
    (new v).peekTotalSize.1 = .ok payloads.flatten.length := by
  unfold RlpChunkedListDecoder.peekTotalSize new
  rw [if_neg fun cached => Bool.false_ne_true cached.1,scanView_iff.mpr ⟨payloads,rest,spelled,rfl⟩]

end reading

theorem takeWhile_flatten_iff (payloads : List (List UInt8)) :
    (payloads.takeWhile (· ≠ [])).flatten = payloads.flatten ↔ ∀ payload ∈ payloads.dropWhile (· ≠ []),payload = [] := by
  have split := congrArg List.flatten (List.takeWhile_append_dropWhile (p := (· ≠ [])) (l := payloads))
  rw [List.flatten_append] at split
  rw [← List.flatten_eq_nil_iff]
  constructor
  · intro same
    rw [← same] at split
    exact List.append_right_eq_self.mp split
  · intro nothing
    rw [nothing,List.append_nil] at split
    exact split

-- An empty string is taken for the end of the list. Everything is returned
-- exactly if nothing but empty strings stands behind the first of them.
theorem chunked_list_complete_iff (v : ByteView) (payloads : List (List UInt8)) (rest : List UInt8)
    (spelled : v.bytes = stringList payloads ++ rest) : decodeChunkedListFull v = .ok (payloads.takeWhile (· ≠ [])).flatten ∧
    (RlpChunkedListDecoder.new v).peekTotalSize.1 = .ok payloads.flatten.length ∧
    (decodeChunkedListFull v = .ok payloads.flatten ↔ ∀ payload ∈ payloads.dropWhile (· ≠ []),payload = []) := by
  have decoded := decodeChunkedListFull_eq spelled
  refine ⟨decoded,peekTotalSize_new spelled,?_⟩
  rw [decoded,Except.ok.injEq]
  exact takeWhile_flatten_iff ..

theorem empty_tail_complete : decodeChunkedListFull ⟨[0xC3,0x01,0x80,0x80],by decide⟩ = .ok [0x01] :=
  ((chunked_list_complete_iff ⟨[0xC3,0x01,0x80,0x80],by decide⟩ [[0x01],[],[]] [] (by decide)).2.2).mpr (by decide)

theorem string_behind_empty_lost : decodeChunkedListFull ⟨[0xC3,0x01,0x80,0x02],by decide⟩ = .ok [0x01] ∧
    (RlpChunkedListDecoder.new ⟨[0xC3,0x01,0x80,0x02],by decide⟩).peekTotalSize.1 = .ok 2 ∧
    [0xC3,0x01,0x80,0x02] = stringList [[0x01],[],[0x02]] := by
  decide +kernel

-- The encoder took in some bytes: full chunks of what it had buffered and of them
-- were written, and the rest is in the buffer.
def Absorbed (s : RlpChunkedListEncoder) (data : List UInt8) (t : RlpChunkedListEncoder) : Prop :=
  ∃ row : List (List UInt8),(∀ piece ∈ row,piece.length = s.chunkSize) ∧ row.flatten ++ t.buffer = s.buffer ++ data ∧
    t.encoder = s.encoder.append (strings row) ∧ t.chunkSize = s.chunkSize ∧ t.finished = s.finished ∧ t.listStarted = s.listStarted

theorem Absorbed.nothing (s : RlpChunkedListEncoder) : Absorbed s [] s :=
  ⟨[],List.forall_mem_nil _,(List.append_nil _).symm,(RlpEncoder.append_nil _).symm,rfl,rfl,rfl⟩

theorem Absorbed.trans (first : Absorbed s data t) (second : Absorbed t more u) : Absorbed s (data ++ more) u := by
  obtain ⟨row,full,split,written,size,finished,started⟩ := first
  obtain ⟨others,each,behind,added,size',finished',started'⟩ := second
  refine ⟨row ++ others,List.forall_mem_append.mpr ⟨full,size ▸ each⟩,?_,?_,size'.trans size,finished'.trans finished,started'.trans started⟩
  · rw [List.flatten_append,List.append_assoc,behind,← List.append_assoc,split,List.append_assoc]
  · rw [added,written,RlpEncoder.append_append,strings_append]

theorem flushBuffer_eq (small : buffer.length < sizeLimit) :
    (RlpChunkedListEncoder.flushBuffer encoder chunkCount buffer).1 = encoder.append (strings (if buffer = [] then [] else [buffer])) := by
  unfold RlpChunkedListEncoder.flushBuffer
  split_ifs with none
  · rw [strings_nil,RlpEncoder.append_nil]
  · rw [add_eq encoder small,strings_cons,strings_nil,List.append_nil]

theorem copyRound_absorbed (small : s.chunkSize < sizeLimit) (data : List UInt8) :
    Absorbed s (data.take (s.toCopy data)) (s.copyRound data) := by
  have room := s.room
  have width : (s.buffer ++ data.take (s.toCopy data)).length ≤ s.chunkSize := by
    rw [List.length_append,List.length_take,RlpChunkedListEncoder.toCopy]
    omega
  unfold RlpChunkedListEncoder.copyRound
  dsimp only
  split_ifs with full
  · have some : s.buffer ++ data.take (s.toCopy data) ≠ [] := List.length_pos_iff.mp (by omega)
    refine ⟨[s.buffer ++ data.take (s.toCopy data)],?_,?_,?_,rfl,rfl,rfl⟩
    · exact List.forall_mem_singleton.mpr (Nat.le_antisymm width full)
    · simp
    · rw [flushBuffer_eq (by omega),if_neg some]
  · exact ⟨[],List.forall_mem_nil _,rfl,(RlpEncoder.append_nil _).symm,rfl,rfl,rfl⟩

theorem copyLoop_absorbed (s : RlpChunkedListEncoder) (small : s.chunkSize < sizeLimit) (data : List UInt8) (enough : data.length ≤ fuel) :
    Absorbed s data (RlpChunkedListEncoder.copyLoop fuel s data enough) := by
  induction fuel generalizing s data with
  | zero =>
    have none : data = [] := List.length_eq_zero_iff.mp (Nat.le_zero.mp enough)
    subst none
    exact .nothing s
  | succ fuel ih =>
    unfold RlpChunkedListEncoder.copyLoop
    by_cases none : data = []
    · subst none
      rw [dif_pos rfl]
      exact .nothing s
    rw [dif_neg none]
    have first := copyRound_absorbed small data
    have size : (s.copyRound data).chunkSize = s.chunkSize := by
      obtain ⟨_,_,_,_,size,_⟩ := first
      exact size
    have later := ih (s.copyRound data) (size ▸ small) (data.drop (s.toCopy data)) (s.copy_shorter none enough)
    have whole := first.trans later
    rwa [List.take_append_drop] at whole

theorem addChunk_absorbed (small : s.chunkSize < sizeLimit) (running : s.finished = false)
    (started : s.listStarted = true) (data : ByteView) : ∃ t,s.addChunk data = .ok t ∧ Absorbed s data.bytes t := by
  unfold RlpChunkedListEncoder.addChunk
  rw [running,if_neg Bool.false_ne_true,if_pos started]
  exact ⟨_,rfl,copyLoop_absorbed s small data.bytes (Nat.le_refl _)⟩

theorem offers_absorbed (s : RlpChunkedListEncoder) (small : s.chunkSize < sizeLimit) (running : s.finished = false)
    (started : s.listStarted = true) (pieces : List ByteView) :
    ∃ t,pieces.foldl RlpChunkedListEncoder.offer (.ok (),s) = (.ok (),t) ∧ Absorbed s (pieces.flatMap ByteView.bytes) t := by
  induction pieces generalizing s with
  | nil => exact ⟨s,rfl,.nothing s⟩
  | cons piece pieces ih =>
    obtain ⟨t,added,first⟩ := addChunk_absorbed small running started piece
    obtain ⟨_,_,_,_,size,finished,begun⟩ := id first
    obtain ⟨u,others,later⟩ := ih t (size ▸ small) (finished.trans running) (begun.trans started)
    refine ⟨u,?_,first.trans later⟩
    rw [List.foldl_cons,RlpChunkedListEncoder.offer,added]
    exact others

def begunStream (begun : RlpEncoder) (chunkSize : Nat) (positive : 0 < chunkSize) : RlpChunkedListEncoder :=
  ⟨begun,chunkSize,[],0,0,false,true,positive⟩

theorem offers_begun (begins : e.beginList = .ok begun) (positive : 0 < chunkSize) :
    (piece :: pieces).foldl RlpChunkedListEncoder.offer (.ok (),⟨e,chunkSize,[],0,0,false,false,positive⟩) =
      (piece :: pieces).foldl RlpChunkedListEncoder.offer (.ok (),begunStream begun chunkSize positive) := by
  have first : RlpChunkedListEncoder.addChunk ⟨e,chunkSize,[],0,0,false,false,positive⟩ piece =
      (begunStream begun chunkSize positive).addChunk piece := by
    unfold RlpChunkedListEncoder.addChunk
    rw [begins]
    rfl
  obtain ⟨t,added⟩ : ∃ t,(begunStream begun chunkSize positive).addChunk piece = .ok t := ⟨_,rfl⟩
  rw [List.foldl_cons,List.foldl_cons,RlpChunkedListEncoder.offer,RlpChunkedListEncoder.offer,first,added]

theorem destroy_begun {e begun : RlpEncoder} (begins : e.beginList = .ok begun) (positive : 0 < chunkSize)
    (absorbed : Absorbed (begunStream begun chunkSize positive) data t)
    (fits : e.buffer.length + (strings (chunks chunkSize data)).length < sizeLimit) (small : chunkSize < sizeLimit) :
    t.destroy = e.append (stringList (chunks chunkSize data)) := by
  obtain ⟨row,full,split,written,size,running,started⟩ := absorbed
  have running : t.finished = false := running
  have started : t.listStarted = true := started
  have room : t.buffer.length < chunkSize := by
    have room := t.room
    rwa [size] at room
  have cut : chunks chunkSize data = row ++ if t.buffer = [] then [] else [t.buffer] := by
    have row := chunks_row positive full room
    rwa [split] at row
  have flushed : (RlpChunkedListEncoder.flushBuffer t.encoder t.chunkCount t.buffer).1 =
      begun.append (strings (chunks chunkSize data)) := by
    rw [flushBuffer_eq (by omega),written,RlpEncoder.append_append,cut,strings_append]
    rfl
  unfold RlpChunkedListEncoder.destroy RlpChunkedListEncoder.finish
  rw [running,if_neg Bool.false_ne_true,if_neg Bool.false_ne_true]
  dsimp only
  rw [flushed,endList_eq e _ begins fits,if_pos started]
  rfl

theorem encodeChunkedList_eq (bounded : maxSize < sizeLimit) (e : RlpEncoder) (positive : 0 < chunkSize) (reservable : chunkSize ≤ maxSize)
    (pieces : List ByteView) (fits : e.buffer.length + (stringList (chunks chunkSize (pieces.flatMap ByteView.bytes))).length ≤ maxSize) :
    encodeChunkedList maxSize e pieces chunkSize =
      .ok (.ok (),e.append (stringList (chunks chunkSize (pieces.flatMap ByteView.bytes)))) := by
  have created : RlpChunkedListEncoder.create maxSize e chunkSize = .ok (.ok ⟨e,chunkSize,[],0,0,false,false,positive⟩) := by
    unfold RlpChunkedListEncoder.create
    rw [dif_neg (by omega),if_neg (by omega)]
  rw [stringList,encodeList,List.length_append] at fits
  unfold encodeChunkedList
  rw [created,ok_bind]
  dsimp only
  cases pieces with
  | nil =>
    obtain ⟨begun,begins⟩ : ∃ begun,e.beginList = .ok begun := ⟨_,rfl⟩
    have closed := endList_eq e [] begins (by rw [List.length_nil]; omega)
    rw [RlpEncoder.append_nil] at closed
    rw [List.foldl_nil,List.flatMap_nil,chunks_nil positive]
    unfold RlpChunkedListEncoder.destroy RlpChunkedListEncoder.finish RlpChunkedListEncoder.flushBuffer
    rw [if_neg Bool.false_ne_true,if_neg Bool.false_ne_true,if_pos rfl]
    dsimp only
    rw [if_neg Bool.false_ne_true,begins]
    dsimp only
    rw [closed]
    rfl
  | cons piece pieces =>
    obtain ⟨t,offered,absorbed⟩ := offers_absorbed (begunStream _ chunkSize positive) (by show chunkSize < _; omega) rfl rfl ..
    rw [offers_begun rfl positive,offered]
    rw [destroy_begun rfl positive absorbed (by omega) (by omega)]
    rfl

-- However the data is cut, it is written in the same chunks, and they are read
-- back; as long as a string can reserve a chunk.
theorem chunked_list_round_trip (maxSize : Nat) (bounded : maxSize < sizeLimit) (e : RlpEncoder) (chunkSize : Nat)
    (positive : 0 < chunkSize) (reservable : chunkSize ≤ maxSize) (data : List UInt8)
    (fits : e.buffer.length + (stringList (chunks chunkSize data)).length ≤ maxSize) :
    (∀ pieces : List ByteView,pieces.flatMap ByteView.bytes = data →
      encodeChunkedList maxSize e pieces chunkSize = .ok (.ok (),e.append (stringList (chunks chunkSize data)))) ∧
    (chunks chunkSize data).length = (data.length + chunkSize - 1) / chunkSize ∧
    (∀ i,(more : i + 1 < (chunks chunkSize data).length) →
      ((chunks chunkSize data).get ⟨i,Nat.lt_of_succ_lt more⟩).length = chunkSize) ∧
    (∀ piece ∈ chunks chunkSize data,piece ≠ [] ∧ piece.length ≤ chunkSize) ∧
    ∀ (v : ByteView) (rest : List UInt8),v.bytes = stringList (chunks chunkSize data) ++ rest → decodeChunkedListFull v = .ok data := by
  refine ⟨?_,chunks_count ..,fun i => chunks_width positive,chunks_bounds positive,?_⟩
  · intro pieces same
    subst same
    exact encodeChunkedList_eq bounded e positive reservable pieces fits
  · intro v rest spelled
    have whole : (chunks chunkSize data).takeWhile (· ≠ []) = chunks chunkSize data := by
      rw [List.takeWhile_eq_self_iff]
      intro piece member
      exact decide_eq_true (chunks_bounds positive piece member).1
    rw [decodeChunkedListFull_eq spelled,whole,chunks_flatten positive]

def stringMaxSize : Nat := 2 ^ 63 - 1

theorem five_bytes_round_trip : encodeChunkedList stringMaxSize .new [⟨[1,2,3],by decide⟩,.empty,⟨[4,5],by decide⟩] 2 =
      .ok (.ok (),RlpEncoder.new.append (stringList [[1,2],[3,4],[5]])) ∧
    decodeChunkedListFull ⟨stringList [[1,2],[3,4],[5]],by decide⟩ = .ok [1,2,3,4,5] := by
  have trip := chunked_list_round_trip stringMaxSize (by decide) .new 2 (by decide) (by decide) [1,2,3,4,5] (by decide)
  exact ⟨trip.1 [⟨[1,2,3],by decide⟩,.empty,⟨[4,5],by decide⟩] rfl,trip.2.2.2.2 _ [] rfl⟩

theorem largest_chunk_throws : encodeChunkedList stringMaxSize .new [⟨[1,2,3],by decide⟩] (2 ^ 64 - 1) = .error .thrown := by
  rfl

end EvmRelay.Rlp
