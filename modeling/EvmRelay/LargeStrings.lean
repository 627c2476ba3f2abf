import EvmRelay.Chunks
import EvmRelay.RlpReader
import EvmRelay.RlpStreaming

namespace EvmRelay.Rlp
open RlpSpec

section encoder

theorem encodeStringHeader_eq (small : size < sizeLimit) : encodeStringHeader size = stringHeader size := by
  have few := byteLength_le_eight size small
  unfold encodeStringHeader
  split_ifs with short
  · rw [stringHeader,header_short short]
  · rw [stringHeader,header_long short]
    dsimp only
    rw [toBigCompact_size small,BigEndian.minimal_length,if_neg (by omega)]

theorem stringHeader_width (small : size < sizeLimit) : 0 < (stringHeader size).length ∧ (stringHeader size).length ≤ reservedSize := by
  have few := byteLength_le_eight size small
  refine ⟨header_pos _ _ _,?_⟩
  rw [stringHeader,header_length]
  unfold reservedSize
  split <;> omega

theorem patchHeader_eq {s : RlpLargeStringEncoder} {front gap payload header : List UInt8} (starts : s.headerStart = front.length)
    (behind : s.payloadStart = front.length + reservedSize) (size : s.payloadSize = payload.length) (reserved : gap.length = reservedSize)
    (narrow : header.length ≤ reservedSize) (fits : front.length + reservedSize + payload.length < sizeLimit) :
    s.patchHeader (front ++ gap ++ payload) header = front ++ header ++ payload := by
  have headed : overwrite (front ++ gap ++ payload) s.headerStart header = front ++ header ++ (gap.drop header.length ++ payload) := by
    rw [overwrite,starts,List.append_assoc front gap,List.take_left,← List.drop_drop,List.drop_left,
      List.drop_append_of_le_length (by omega)]
  have widths : (front ++ header ++ gap.drop header.length).length = s.payloadStart := by
    simp only [List.length_append,List.length_drop]
    omega
  have rest : (front ++ header ++ (gap.drop header.length ++ payload)).drop s.payloadStart = payload := by
    rw [← List.append_assoc,← widths,List.drop_left]
  have position : sizeAdd s.headerStart header.length = (front ++ header).length := by
    rw [starts,List.length_append]
    exact sizeAdd_small (by omega)
  have shift := sizeSub_small narrow (by decide)
  unfold RlpLargeStringEncoder.patchHeader
  rw [headed,shift]
  dsimp only
  rw [rest,size,List.take_length,position]
  split_ifs with gapped
  · have moved : overwrite (front ++ header ++ (gap.drop header.length ++ payload)) (front ++ header).length payload =
        front ++ header ++ payload ++ (gap.drop header.length ++ payload).drop payload.length := by
      rw [overwrite,List.take_left,← List.drop_drop,List.drop_left]
    have cut : sizeSub (front ++ header ++ payload ++ (gap.drop header.length ++ payload).drop payload.length).length
        (reservedSize - header.length) = (front ++ header ++ payload).length := by
      simp only [List.length_append,List.length_drop]
      rw [sizeSub_small (by omega) (by omega)]
      omega
    rw [moved,cut,List.take_left]
  · have full : gap.drop header.length = [] := List.drop_eq_nil_of_le (by omega)
    rw [full]
    rfl

structure Streaming (e : RlpEncoder) (s : RlpLargeStringEncoder) (data : List UInt8) : Prop where
  buffer : s.encoder = e.append (List.replicate reservedSize 0 ++ data)
  headerStart : s.headerStart = e.buffer.length
  payloadStart : s.payloadStart = e.buffer.length + reservedSize
  payloadSize : s.payloadSize = data.length
  running : s.finished = false

theorem getBytes_closed {e : RlpEncoder} (closed : e.listStartPositions = []) : e.getBytes = .ok e.buffer := by
  rw [RlpEncoder.getBytes,if_neg (not_not.mpr closed)]

variable {e : RlpEncoder} (closed : e.listStartPositions = [])
include closed

theorem create_streaming (fits : e.buffer.length + reservedSize < sizeLimit) :
    ∃ s,RlpLargeStringEncoder.create e = .ok s ∧ Streaming e s [] := by
  have size : (e.append (List.replicate reservedSize 0)).size = e.buffer.length + reservedSize := by
    rw [RlpEncoder.size,RlpEncoder.append_buffer,List.length_append,List.length_replicate]
  unfold RlpLargeStringEncoder.create
  rw [getBytes_closed closed]
  refine ⟨_,rfl,?_,?_,size,rfl,rfl⟩
  · rw [List.append_nil]
  · rw [size,sizeSub_small (Nat.le_add_left _ _) fits,Nat.add_sub_cancel]

theorem Streaming.addChunk (streaming : Streaming e s data) (chunk : ByteView) (fits : data.length + chunk.length < sizeLimit) :
    ∃ next,s.addChunk chunk = .ok next ∧ Streaming e next (data ++ chunk.bytes) := by
  unfold RlpLargeStringEncoder.addChunk
  have open_ : s.encoder.getBytes = .ok s.encoder.buffer := by
    apply getBytes_closed
    rw [streaming.buffer]
    exact closed
  rw [streaming.running,open_]
  refine ⟨_,rfl,?_,streaming.headerStart,streaming.payloadStart,?_,rfl⟩
  · rw [streaming.buffer,RlpEncoder.append_append,List.append_assoc]
  · rw [streaming.payloadSize,sizeAdd_small fits,List.length_append]
    rfl

theorem Streaming.addChunks (streaming : Streaming e s data) (chunks : List ByteView)
    (fits : data.length + (chunks.flatMap ByteView.bytes).length < sizeLimit) :
    ∃ next,chunks.foldlM RlpLargeStringEncoder.addChunk s = .ok next ∧
      Streaming e next (data ++ chunks.flatMap ByteView.bytes) := by
  induction chunks generalizing s data with
  | nil => exact ⟨s,rfl,by simpa using streaming⟩
  | cons chunk chunks ih =>
    rw [List.flatMap_cons,List.length_append] at fits
    obtain ⟨next,added,streaming⟩ := streaming.addChunk closed chunk (by rw [ByteView.length]; omega)
    obtain ⟨last,folded,streaming⟩ := ih streaming (by rw [List.length_append]; omega)
    refine ⟨last,?_,?_⟩
    · rw [List.foldlM_cons,added]
      exact folded
    · rw [List.flatMap_cons,← List.append_assoc]
      exact streaming

theorem Streaming.finish (streaming : Streaming e s data) (fits : e.buffer.length + reservedSize + data.length < sizeLimit) :
    ∃ ended,s.finish = (.ok (),ended) ∧ ended.finished = true ∧ ended.encoder = e.append (stringHeader data.length ++ data) := by
  have small : data.length < sizeLimit := by omega
  obtain ⟨positive,narrow⟩ := stringHeader_width small
  have buffer : s.encoder.buffer = e.buffer ++ List.replicate reservedSize 0 ++ data := by
    rw [streaming.buffer,RlpEncoder.append_buffer,List.append_assoc]
  have open_ : s.encoder.getBytes = .ok s.encoder.buffer := by
    apply getBytes_closed
    rw [streaming.buffer]
    exact closed
  have gap : (List.replicate reservedSize (0 : UInt8)).length = reservedSize := List.length_replicate
  have patched := patchHeader_eq streaming.headerStart streaming.payloadStart streaming.payloadSize gap narrow fits
  unfold RlpLargeStringEncoder.finish
  rw [streaming.running,streaming.payloadSize,encodeStringHeader_eq small,open_,buffer]
  dsimp only
  rw [if_neg Bool.false_ne_true,if_neg fun failed => List.length_pos_iff.mp positive failed.1,if_pos narrow,patched]
  exact ⟨_,rfl,rfl,RlpEncoder.ext_state (List.append_assoc _ _ _) closed.symm⟩

omit closed in
theorem offers_add (chunks : List ByteView) (added : chunks.foldlM RlpLargeStringEncoder.addChunk s = .ok last) :
    chunks.foldl RlpLargeStringEncoder.offer (.ok (),s) = (.ok (),last) := by
  induction chunks generalizing s with
  | nil =>
    cases added
    rfl
  | cons chunk chunks ih =>
    obtain ⟨next,one,added⟩ := bind_ok.mp added
    have offered : RlpLargeStringEncoder.offer (.ok (),s) chunk = (.ok (),next) := by
      rw [RlpLargeStringEncoder.offer,one]
    rw [List.foldl_cons,offered]
    exact ih added

theorem streamString_eq (chunks : List ByteView)
    (fits : e.buffer.length + reservedSize + (chunks.flatMap ByteView.bytes).length < sizeLimit) :
    ∃ written,streamString e chunks = .ok written ∧ encodeLargeString e chunks = (.ok (),written) ∧
      written = e.append (stringHeader (chunks.flatMap ByteView.bytes).length ++ chunks.flatMap ByteView.bytes) := by
  obtain ⟨s,created,streaming⟩ := create_streaming closed (by omega)
  obtain ⟨t,added,streaming⟩ := streaming.addChunks closed chunks (by rw [List.length_nil]; omega)
  obtain ⟨ended,finished,_,written⟩ := streaming.finish closed (by rw [List.nil_append]; omega)
  refine ⟨ended.encoder,?_,?_,written⟩
  · unfold streamString
    rw [created,ok_bind,added,ok_bind,finished]
  · unfold encodeLargeString
    rw [created]
    dsimp only
    rw [offers_add chunks added,RlpLargeStringEncoder.destroy,streaming.running,if_neg Bool.false_ne_true,finished]

end encoder

theorem encodeString_headed_iff :
    encodeString bytes = stringHeader bytes.length ++ bytes ↔ ¬ ∃ byte : UInt8,byte < 0x80 ∧ bytes = [byte] := by
  constructor
  · intro headed ⟨byte,low,single⟩
    have lengths := congrArg List.length headed
    have positive := header_pos 0x80 0xB7 bytes.length
    rw [single,encodeString_literal (UInt8.lt_iff_toNat_lt.mp low),← single,List.length_append] at lengths
    unfold stringHeader at lengths
    omega
  · intro long
    refine encodeString_headed (Classical.or_iff_not_imp_left.mpr fun single => ?_)
    obtain ⟨byte,rfl⟩ := List.length_eq_one_iff.mp (not_not.mp single)
    exact Nat.le_of_not_lt fun low => long ⟨byte,UInt8.lt_iff_toNat_lt.mpr low,rfl⟩

-- The stream always writes a header, and a byte below 0x80 stands for itself.
theorem stream_canonical_iff (e : RlpEncoder) (closed : e.listStartPositions = []) (chunks : List ByteView)
    (fits : e.buffer.length + reservedSize + (chunks.flatMap ByteView.bytes).length < sizeLimit) :
    ∃ written,streamString e chunks = .ok written ∧ encodeLargeString e chunks = (.ok (),written) ∧ e.buffer <+: written.buffer ∧
      (e.add (chunks.flatMap ByteView.bytes) = .ok written ↔
        ¬ ∃ byte : UInt8,byte < 0x80 ∧ chunks.flatMap ByteView.bytes = [byte]) := by
  obtain ⟨written,streamed,encoded,same⟩ := streamString_eq closed chunks fits
  refine ⟨written,streamed,encoded,?_,?_⟩
  · rw [same,RlpEncoder.append_buffer]
    exact List.prefix_append _ _
  · rw [add_eq e (by omega),← encodeString_headed_iff,same]
    constructor
    · intro added
      have buffers := congrArg RlpEncoder.buffer (Except.ok.inj added)
      exact List.append_cancel_left buffers
    · intro spelled
      rw [spelled]

theorem two_chunks_canonical : ∃ written,streamString .new [⟨[0x05],by decide⟩,⟨[],by decide⟩,⟨[0x06],by decide⟩] = .ok written ∧
    RlpEncoder.add .new [0x05,0x06] = .ok written := by
  obtain ⟨written,streamed,_,_,same⟩ :=
    stream_canonical_iff .new rfl [⟨[0x05],by decide⟩,⟨[],by decide⟩,⟨[0x06],by decide⟩] (by decide)
  exact ⟨written,streamed,same.mpr (by simp)⟩

theorem low_byte_headed : ∃ written added,streamString .new [⟨[0x05],by decide⟩] = .ok written ∧ RlpEncoder.add .new [0x05] = .ok added ∧
    written.buffer = [0x81,0x05] ∧ added.buffer = [0x05] :=
  ⟨_,_,rfl,rfl,by decide +kernel,rfl⟩

section decoder
open RlpLargeStringDecoder

theorem peekString_error (failed : readBytes v = .error error) : peekString v = .error error := by
  cases peeked : peekHeader v with
  | error other =>
    unfold readBytes at failed
    rw [peeked] at failed
    unfold peekString
    rw [peeked]
    cases failed
    rfl
  | ok h =>
    rw [peekString_eq peeked]
    obtain ⟨list,size,offset⟩ := h
    cases list with
    | true =>
      unfold readBytes at failed
      rw [peeked] at failed
      cases failed
      rfl
    | false =>
      have spelled := ((peekHeader_exact v _).mp peeked).spelled
      obtain ⟨rest,spelled,_⟩ := v.cut spelled
      rw [readBytes_complete spelled] at failed
      cases failed

def readChunks (s : RlpLargeStringDecoder) : List Nat → List (Except DecodingError ByteView) × RlpLargeStringDecoder
  | [] => ([],s)
  | size :: sizes =>
    let (chunk,next) := s.readChunk size
    let (chunks,last) := readChunks next sizes
    (chunk :: chunks,last)

theorem readChunk_error (failed : readBytes v = .error error) (size : Nat) : (new v).readChunk size = (.error error,.new v) := by
  unfold readChunk start new
  rw [if_neg Bool.false_ne_true,peekString_error failed]
  rfl

theorem readChunks_error (failed : readBytes v = .error error) :
    readChunks (.new v) sizes = (List.replicate sizes.length (.error error),.new v) := by
  induction sizes with
  | nil => rfl
  | cons size sizes ih =>
    rw [readChunks,readChunk_error failed size]
    dsimp only
    rw [ih]
    rfl

def Asked (s : RlpLargeStringDecoder) (payload rest : List UInt8) (count : Nat) : Prop :=
  s.payloadSize = payload.length ∧ s.bytesRead = min payload.length count ∧ s.initialized = true ∧
    s.view.bytes = payload.drop count ++ rest

theorem new_start (spelled : v.bytes = encodeString payload ++ rest) :
    ∃ s,(new v).start = .ok s ∧ Asked s payload rest 0 := by
  obtain ⟨offset,peeked,behind,_⟩ := peekString_spelled spelled
  refine ⟨⟨v.removePrefix offset,payload.length,0,true⟩,?_,rfl,(Nat.min_zero _).symm,rfl,behind⟩
  unfold start new
  rw [if_neg Bool.false_ne_true,peeked]
  rfl

theorem Asked.start (asked : Asked s payload rest count) : s.start = .ok s := if_pos asked.2.2.1

theorem Asked.readChunk {s started : RlpLargeStringDecoder} (prepared : s.start = .ok started)
    (asked : Asked started payload rest count) (small : payload.length < sizeLimit) (size : Nat) :
    ∃ chunk next,s.readChunk size = (.ok chunk,next) ∧ chunk.bytes = (payload.drop count).take size ∧
      Asked next payload rest (count + size) := by
  obtain ⟨total,position,ready,behind⟩ := asked
  unfold RlpLargeStringDecoder.readChunk
  rw [prepared]
  dsimp only
  rw [total,position]
  by_cases done : payload.length ≤ count
  · have nothing := List.drop_eq_nil_of_le done
    have later : payload.drop (count + size) = [] := List.drop_eq_nil_of_le (by omega)
    rw [if_pos (by omega),nothing]
    refine ⟨.empty,started,rfl,List.take_nil.symm,total,by omega,ready,?_⟩
    rw [behind,nothing,later]
  · have left : sizeSub payload.length (min payload.length count) = payload.length - count := by
      rw [sizeSub_small (by omega) small]
      omega
    have taken : sizeAdd (min payload.length count) (min (payload.length - count) size) = min payload.length (count + size) := by
      rw [sizeAdd_small (by omega)]
      omega
    have width : (payload.drop count).length = payload.length - count := List.length_drop
    have chunk : started.view.bytes.take (min (payload.length - count) size) = (payload.drop count).take size := by
      rw [behind,List.take_append_of_le_length (by omega),← width,Nat.min_comm,← List.take_take,List.take_length]
    have after : started.view.bytes.drop (min (payload.length - count) size) = payload.drop (count + size) ++ rest := by
      rw [behind,List.drop_append_of_le_length (by omega)]
      congr 1
      rcases Nat.le_total size (payload.length - count) with some | all
      · rw [Nat.min_eq_right some,List.drop_drop]
      · rw [Nat.min_eq_left all,← width,List.drop_length,List.drop_eq_nil_of_le (by omega)]
    rw [if_neg (by omega),left,taken]
    exact ⟨_,_,rfl,chunk,rfl,rfl,ready,after⟩

theorem Asked.readChunks (asked : Asked s payload rest count)
    (small : payload.length < sizeLimit) (sizes : List Nat) :
    ∃ (found : List ByteView) (last : RlpLargeStringDecoder),readChunks s sizes = (found.map .ok,last) ∧
      found.map ByteView.bytes = sizes.splitLengths (payload.drop count) ∧ Asked last payload rest (count + sizes.sum) := by
  induction sizes generalizing s count with
  | nil => exact ⟨[],s,rfl,rfl,asked⟩
  | cons size sizes ih =>
    obtain ⟨chunk,next,read,bytes,asked⟩ := asked.readChunk asked.start small size
    obtain ⟨found,last,others,cut,asked⟩ := ih asked
    refine ⟨chunk :: found,last,?_,?_,?_⟩
    · rw [Rlp.readChunks,read]
      dsimp only
      rw [others,List.map_cons]
    · rw [List.map_cons,bytes,cut,List.splitLengths_cons,List.drop_drop]
    · rw [List.sum_cons,← Nat.add_assoc]
      exact asked

theorem readChunks_cut (spelled : v.bytes = encodeString payload ++ rest) (size : Nat)
    (sizes : List Nat) : ∃ (found : List ByteView) (last : RlpLargeStringDecoder),
      readChunks (.new v) (size :: sizes) = (found.map .ok,last) ∧
      found.map ByteView.bytes = (size :: sizes).splitLengths payload ∧ Asked last payload rest (size :: sizes).sum := by
  have small : payload.length < sizeLimit := by
    have fits := v.fits
    have shorter := encodeString_length payload
    rw [spelled,List.length_append] at fits
    omega
  obtain ⟨s,started,asked⟩ := new_start spelled
  obtain ⟨chunk,next,read,bytes,asked⟩ := asked.readChunk started small size
  obtain ⟨found,last,others,cut,asked⟩ := asked.readChunks small sizes
  rw [Nat.zero_add] at asked cut
  refine ⟨chunk :: found,last,?_,?_,asked⟩
  · rw [readChunks,read]
    dsimp only
    rw [others,List.map_cons]
  · rw [List.map_cons,bytes,cut,List.splitLengths_cons,List.drop_zero]

def firstSizes (sizes : Nat → Nat) (count : Nat) : List Nat := (List.range count).map sizes

theorem firstSizes_succ : firstSizes sizes (count + 1) = firstSizes sizes count ++ [sizes count] := by
  simp [firstSizes,List.range_succ]

theorem firstSizes_take (sizes : Nat → Nat) (less : i ≤ count) : (firstSizes sizes count).take i = firstSizes sizes i := by
  rw [firstSizes,← List.map_take,List.take_range,Nat.min_eq_left less,firstSizes]

theorem firstSizes_piece {payload : List UInt8} (positive : ∀ i,0 < sizes i)
    (before : ∀ fewer < count,(firstSizes sizes fewer).sum < payload.length)
    (found : ((firstSizes sizes count).splitLengths payload)[i]? = some piece) :
    piece ≠ [] ∧ piece.length ≤ sizes i ∧ (i + 1 < count → piece.length = sizes i) := by
  rw [splitLengths_get,Option.map_eq_some_iff] at found
  obtain ⟨size,sized,rfl⟩ := found
  have inside : i < count := by
    have bound := (List.getElem?_eq_some_iff.mp sized).1
    rwa [firstSizes,List.length_map,List.length_range] at bound
  have same : size = sizes i := by
    rw [firstSizes,List.getElem?_map,List.getElem?_range inside] at sized
    exact (Option.some.inj sized).symm
  have behind := before i inside
  have asked := positive i
  rw [firstSizes_take sizes (Nat.le_of_lt inside),same]
  refine ⟨List.length_pos_iff.mp ?_,List.length_take_le _ _,?_⟩
  · rw [List.length_take,List.length_drop]
    omega
  · intro more
    have next := before (i + 1) more
    rw [firstSizes_succ,List.sum_append_nat,List.sum_singleton] at next
    rw [List.length_take,List.length_drop]
    omega

-- Until the first empty chunk, which comes, the stream gives what a plain read
-- gives, in pieces of the sizes it was asked for.
theorem large_string_agrees (v : ByteView) (sizes : Nat → Nat) (positive : ∀ i,0 < sizes i) :
    (∀ error,readBytes v = .error error →
      ∀ count,(readChunks (.new v) (firstSizes sizes count)).1 = List.replicate count (.error error)) ∧
    ∀ bytes rest,readBytes v = .ok (bytes,rest) → ∃ (found : List ByteView) (last : RlpLargeStringDecoder),
      readChunks (.new v) (firstSizes sizes (found.length + 1)) = (found.map .ok ++ [.ok .empty],last) ∧
      (∀ chunk ∈ found,chunk ≠ .empty) ∧ found.flatMap ByteView.bytes = bytes ∧
      (∀ i chunk,found[i]? = some chunk → chunk.length ≤ sizes i ∧ (i + 1 < found.length → chunk.length = sizes i)) ∧
      last.view = rest := by
  constructor
  · intro error failed count
    rw [readChunks_error failed,firstSizes,List.length_map,List.length_range]
  · intro bytes rest read
    obtain ⟨count,covered,before⟩ := sizes_cover positive ..
    have covered : bytes.length ≤ (firstSizes sizes count).sum := covered
    have first : firstSizes sizes (count + 1) = sizes 0 :: (List.range count).map fun i => sizes (i + 1) := by
      simp [firstSizes,List.range_succ_eq_map,Function.comp_def]
    obtain ⟨all,last,ran,cut,asked⟩ := readChunks_cut (readBytes_sound read) (sizes 0) ((List.range count).map fun i => sizes (i + 1))
    rw [← first] at ran cut asked
    -- The call after the payload is covered finds nothing.
    rw [firstSizes_succ,splitLengths_append,List.drop_eq_nil_of_le covered,List.splitLengths_cons,List.take_nil,List.splitLengths_nil] at cut
    obtain ⟨found,ending,rfl,front,back⟩ := List.map_eq_append_iff.mp cut
    obtain ⟨chunk,rfl,none⟩ := List.map_eq_singleton_iff.mp back
    have counted : found.length = count := by
      have lengths := congrArg List.length front
      rwa [List.length_map,List.length_splitLengths,firstSizes,List.length_map,List.length_range] at lengths
    have piece {i : Nat} {chunk : ByteView} (at_ : found[i]? = some chunk) :=
      firstSizes_piece positive before (front ▸ (by rw [List.getElem?_map,at_]; rfl) :
        ((firstSizes sizes count).splitLengths bytes)[i]? = some chunk.bytes)
    refine ⟨found,last,?_,?_,?_,?_,?_⟩
    · rw [counted,ran,List.map_append,(ByteView.ext_bytes none : chunk = .empty)]
      rfl
    · intro chunk member empty
      obtain ⟨i,at_⟩ := List.mem_iff_getElem?.mp member
      exact (piece at_).1 (congrArg ByteView.bytes empty)
    · rw [List.flatMap_def,front]
      exact List.flatten_splitLengths _ _ covered
    · intro i chunk at_
      rw [counted]
      exact (piece at_).2
    · apply ByteView.ext_bytes
      rw [asked.2.2.2,firstSizes_succ,List.sum_append_nat,List.drop_eq_nil_of_le (Nat.le_trans covered (Nat.le_add_right _ _))]
      rfl

theorem dog_in_pieces : ∃ (found : List ByteView) (last : RlpLargeStringDecoder),
    readChunks (.new ⟨[0x83,0x64,0x6F,0x67,0x00],by decide⟩) (firstSizes (fun _ => 2) (found.length + 1)) =
      (found.map .ok ++ [.ok .empty],last) ∧ found.flatMap ByteView.bytes = [0x64,0x6F,0x67] ∧ last.view.bytes = [0x00] := by
  obtain ⟨found,last,ran,_,whole,_,left⟩ := (large_string_agrees ⟨[0x83,0x64,0x6F,0x67,0x00],by decide⟩ (fun _ => 2)
    (fun _ => by decide)).2 [0x64,0x6F,0x67] ⟨[0x00],by decide⟩ (by decide +kernel)
  exact ⟨found,last,ran,whole,congrArg ByteView.bytes left⟩

end decoder
end EvmRelay.Rlp
