import EvmRelay.RlpEncoder

namespace EvmRelay.Rlp
open RlpSpec

inductive StreamingError where
  | kAlreadyFinalized | kNotFinalized | kInvalidChunkSize | kHeaderSizeExceeded
  deriving DecidableEq

-- std::length_error, which std::basic_string throws out of the call.
inductive LengthError where
  | thrown
  deriving DecidableEq

def RlpEncoder.size (e : RlpEncoder) : Nat := e.buffer.length

def RlpEncoder.ofBytes (buffer : List UInt8) : RlpEncoder := ⟨buffer,[],List.forall_mem_nil _⟩

-- Empty for a length that has no header.
def encodeStringHeader (payloadLen : Nat) : List UInt8 :=
  if payloadLen ≤ kMaxShortStringLen then [UInt8.ofNat (kShortStringOffset + payloadLen)]
  else
    let lenBe := Endian.toBigCompact (BitVec.ofNat 64 payloadLen)
    if lenBe.length > 8 then [] else UInt8.ofNat (kLongStringOffset + lenBe.length) :: lenBe

-- memcpy and memmove into a buffer: the bytes from a position on are replaced.
def overwrite (buffer : List UInt8) (position : Nat) (bytes : List UInt8) : List UInt8 :=
  buffer.take position ++ bytes ++ buffer.drop (position + bytes.length)

def reservedSize : Nat := 9

-- The encoder is held by reference: what the stream does to it is in the state.
structure RlpLargeStringEncoder where
  encoder : RlpEncoder
  headerStart : Nat
  payloadStart : Nat
  payloadSize : Nat
  finished : Bool

namespace RlpLargeStringEncoder

def create (encoder : RlpEncoder) : Except StreamingError RlpLargeStringEncoder :=
  match encoder.getBytes with
  | .error _ => .error .kNotFinalized
  | .ok _ =>
    let reserved := encoder.append (List.replicate reservedSize 0)
    .ok ⟨reserved,sizeSub reserved.size reservedSize,reserved.size,0,false⟩

def addChunk (s : RlpLargeStringEncoder) (chunk : ByteView) : Except StreamingError RlpLargeStringEncoder :=
  if s.finished then .error .kAlreadyFinalized
  else match s.encoder.getBytes with
    | .error _ => .error .kNotFinalized
    | .ok _ => .ok { s with encoder := s.encoder.append chunk.bytes,payloadSize := sizeAdd s.payloadSize chunk.length }

-- The header is copied to the start of the gap, the payload moved up to it, and
-- what is left at the end cut off.
def patchHeader (s : RlpLargeStringEncoder) (buffer actualHeader : List UInt8) : List UInt8 :=
  let headed := overwrite buffer s.headerStart actualHeader
  let shift := sizeSub reservedSize actualHeader.length
  if 0 < shift then
    let payload := (headed.drop s.payloadStart).take s.payloadSize
    let moved := overwrite headed (sizeAdd s.headerStart actualHeader.length) payload
    moved.take (sizeSub moved.length shift)
  else headed

def finish (s : RlpLargeStringEncoder) : Except StreamingError Unit × RlpLargeStringEncoder :=
  if s.finished then (.error .kAlreadyFinalized,s)
  else
    let ended := { s with finished := true }
    let actualHeader := encodeStringHeader s.payloadSize
    if actualHeader = [] ∧ kMaxShortStringLen < s.payloadSize then (.error .kHeaderSizeExceeded,ended)
    else match s.encoder.getBytes with
      | .error _ => (.error .kNotFinalized,ended)
      | .ok buffer =>
        if actualHeader.length ≤ reservedSize then
          (.ok (),{ ended with encoder := .ofBytes (s.patchHeader buffer actualHeader) })
        else (.error .kHeaderSizeExceeded,ended)

def destroy (s : RlpLargeStringEncoder) : RlpEncoder := if s.finished then s.encoder else s.finish.2.encoder

-- The callback given to the generator: nothing is added once a chunk has failed.
def offer : Except StreamingError Unit × RlpLargeStringEncoder → ByteView → Except StreamingError Unit × RlpLargeStringEncoder
  | (.error error,s),_ => (.error error,s)
  | (.ok (),s),chunk => match s.addChunk chunk with
    | .error error => (.error error,s)
    | .ok next => (.ok (),next)

end RlpLargeStringEncoder

def streamString (encoder : RlpEncoder) (chunks : List ByteView) : Except StreamingError RlpEncoder := do
  let stream ← RlpLargeStringEncoder.create encoder
  let stream ← chunks.foldlM RlpLargeStringEncoder.addChunk stream
  match stream.finish with
  | (.error error,_) => .error error
  | (.ok (),ended) => .ok ended.encoder

def encodeLargeString (encoder : RlpEncoder) (chunks : List ByteView) : Except StreamingError Unit × RlpEncoder :=
  match RlpLargeStringEncoder.create encoder with
  | .error error => (.error error,encoder)
  | .ok stream =>
    let (result,stream) := chunks.foldl RlpLargeStringEncoder.offer (.ok (),stream)
    (result,stream.destroy)

-- The buffer is flushed as soon as it is full, so there is always room in it.
structure RlpChunkedListEncoder where
  encoder : RlpEncoder
  chunkSize : Nat
  buffer : List UInt8
  chunkCount : Nat
  totalBytes : Nat
  finished : Bool
  listStarted : Bool
  room : buffer.length < chunkSize

namespace RlpChunkedListEncoder

theorem positive (s : RlpChunkedListEncoder) : 0 < s.chunkSize := Nat.lt_of_le_of_lt (Nat.zero_le _) s.room

-- The constructor reserves a whole chunk, and a string cannot reserve more than
-- its max_size.
def create (maxSize : Nat) (encoder : RlpEncoder) (chunkSize : Nat) :
    Except LengthError (Except StreamingError RlpChunkedListEncoder) :=
  if zero : chunkSize = 0 then .ok (.error .kInvalidChunkSize)
  else if maxSize < chunkSize then .error .thrown
  else .ok (.ok ⟨encoder,chunkSize,[],0,0,false,false,Nat.pos_of_ne_zero zero⟩)

-- The encoder and the chunk count after flushBuffer, which leaves the buffer
-- empty. The result of add is dropped.
def flushBuffer (encoder : RlpEncoder) (chunkCount : Nat) (buffer : List UInt8) : RlpEncoder × Nat :=
  if buffer = [] then (encoder,chunkCount)
  else match encoder.add buffer with
    | .error _ => (encoder,sizeAdd chunkCount 1)
    | .ok next => (next,sizeAdd chunkCount 1)

def toCopy (s : RlpChunkedListEncoder) (data : List UInt8) : Nat := min (s.chunkSize - s.buffer.length) data.length

theorem toCopy_pos (s : RlpChunkedListEncoder) (some : data ≠ []) : 0 < s.toCopy data := by
  have space := s.room
  have length := List.length_pos_iff.mpr some
  unfold toCopy
  omega

def copyRound (s : RlpChunkedListEncoder) (data : List UInt8) : RlpChunkedListEncoder :=
  let filled := s.buffer ++ data.take (s.toCopy data)
  let total := sizeAdd s.totalBytes (s.toCopy data)
  if full : s.chunkSize ≤ filled.length then
    let (encoder,chunkCount) := flushBuffer s.encoder s.chunkCount filled
    ⟨encoder,s.chunkSize,[],chunkCount,total,s.finished,s.listStarted,s.positive⟩
  else ⟨s.encoder,s.chunkSize,filled,s.chunkCount,total,s.finished,s.listStarted,Nat.lt_of_not_le full⟩

theorem copy_shorter (s : RlpChunkedListEncoder) (some : data ≠ []) (enough : data.length ≤ fuel + 1) :
    (data.drop (s.toCopy data)).length ≤ fuel := by
  have copied := s.toCopy_pos some
  rw [List.length_drop]
  omega

-- The loop over the data that is left behind the offset. A round copies at least
-- one byte, so as many rounds as there are bytes are enough.
def copyLoop : (fuel : Nat) → RlpChunkedListEncoder → (data : List UInt8) → data.length ≤ fuel → RlpChunkedListEncoder
  | 0,s,_,_ => s
  | fuel + 1,s,data,enough =>
    if some : data = [] then s
    else copyLoop fuel (s.copyRound data) (data.drop (s.toCopy data)) (s.copy_shorter some enough)

def addChunk (s : RlpChunkedListEncoder) (data : ByteView) : Except StreamingError RlpChunkedListEncoder :=
  if s.finished then .error .kAlreadyFinalized
  else if s.listStarted then .ok (copyLoop data.length s data.bytes (Nat.le_refl _))
  else match s.encoder.beginList with
    | .error _ => .error .kNotFinalized
    | .ok begun => .ok (copyLoop data.length { s with encoder := begun,listStarted := true } data.bytes (Nat.le_refl _))

def finish (s : RlpChunkedListEncoder) : Except StreamingError Unit × RlpChunkedListEncoder :=
  if s.finished then (.error .kAlreadyFinalized,s)
  else
    let (encoder,chunkCount) := flushBuffer s.encoder s.chunkCount s.buffer
    let ended : RlpChunkedListEncoder := ⟨encoder,s.chunkSize,[],chunkCount,s.totalBytes,true,s.listStarted,s.positive⟩
    if s.listStarted then
      match encoder.endList with
      | .error _ => (.error .kNotFinalized,ended)
      | .ok closed => (.ok (),{ ended with encoder := closed })
    else match encoder.beginList with
      | .error _ => (.error .kNotFinalized,ended)
      | .ok begun => match begun.endList with
        | .error _ => (.error .kNotFinalized,{ ended with encoder := begun })
        | .ok closed => (.ok (),{ ended with encoder := closed })

def destroy (s : RlpChunkedListEncoder) : RlpEncoder := if s.finished then s.encoder else s.finish.2.encoder

def offer : Except StreamingError Unit × RlpChunkedListEncoder → ByteView → Except StreamingError Unit × RlpChunkedListEncoder
  | (.error error,s),_ => (.error error,s)
  | (.ok (),s),chunk => match s.addChunk chunk with
    | .error error => (.error error,s)
    | .ok next => (.ok (),next)

end RlpChunkedListEncoder

def encodeChunkedList (maxSize : Nat) (encoder : RlpEncoder) (chunks : List ByteView) (chunkSize : Nat) :
    Except LengthError (Except StreamingError Unit × RlpEncoder) := do
  match ← RlpChunkedListEncoder.create maxSize encoder chunkSize with
  | .error error => return (.error error,encoder)
  | .ok chunked =>
    let (result,chunked) := chunks.foldl RlpChunkedListEncoder.offer (.ok (),chunked)
    return (result,chunked.destroy)

structure RlpLargeStringDecoder where
  view : ByteView
  payloadSize : Nat
  bytesRead : Nat
  initialized : Bool

namespace RlpLargeStringDecoder

def new (data : ByteView) : RlpLargeStringDecoder := ⟨data,0,0,false⟩

def peekString (view : ByteView) : Except DecodingError Header := do
  let h ← peekHeader view
  if h.list then .error .kUnexpectedList
  else if view.length < sizeAdd h.headerSizeBytes h.payloadSizeBytes then .error .kInputTooShort
  else return h

def start (s : RlpLargeStringDecoder) : Except DecodingError RlpLargeStringDecoder :=
  if s.initialized then .ok s
  else do
    let h ← peekString s.view
    return { s with payloadSize := h.payloadSizeBytes,view := s.view.removePrefix h.headerSizeBytes,initialized := true }

def readChunk (s : RlpLargeStringDecoder) (maxChunkSize : Nat) : Except DecodingError ByteView × RlpLargeStringDecoder :=
  match s.start with
  | .error error => (.error error,s)
  | .ok s =>
    if s.payloadSize ≤ s.bytesRead then (.ok .empty,s)
    else
      let remaining := sizeSub s.payloadSize s.bytesRead
      let chunkSize := min remaining maxChunkSize
      (.ok (s.view.substr 0 chunkSize),
        { s with view := s.view.removePrefix chunkSize,bytesRead := sizeAdd s.bytesRead chunkSize })

end RlpLargeStringDecoder

structure RlpChunkedListDecoder where
  view : ByteView
  listPayload : ByteView
  totalSize : Nat
  totalChunks : Nat
  chunkIndex : Nat
  initialized : Bool

namespace RlpChunkedListDecoder

def new (data : ByteView) : RlpChunkedListDecoder := ⟨data,.empty,0,0,0,false⟩

def peekList (view : ByteView) : Except DecodingError Header := do
  let h ← peekHeader view
  if ¬ h.list then .error .kUnexpectedString
  else if view.length < sizeAdd h.headerSizeBytes h.payloadSizeBytes then .error .kInputTooShort
  else return h

def scanChunks : Nat → ByteView → Nat → Nat → Except DecodingError (Nat × Nat)
  | 0,listView,total,chunks => if isFinished listView then .ok (total,chunks) else .error .kListLengthMismatch
  | fuel + 1,listView,total,chunks =>
    if isFinished listView then .ok (total,chunks)
    else do
      let h ← RlpLargeStringDecoder.peekString listView
      scanChunks fuel (listView.removePrefix (sizeAdd h.headerSizeBytes h.payloadSizeBytes)) (sizeAdd total h.payloadSizeBytes)
        (sizeAdd chunks 1)

def scanList (listView : ByteView) : Except DecodingError (Nat × Nat) := scanChunks listView.length listView 0 0

def scanView (view : ByteView) : Except DecodingError (Nat × Nat) := do
  let h ← peekList view
  scanList (view.substr h.headerSizeBytes h.payloadSizeBytes)

def peekTotalSize (s : RlpChunkedListDecoder) : Except DecodingError Nat × RlpChunkedListDecoder :=
  if s.initialized ∧ 0 < s.totalSize then (.ok s.totalSize,s)
  else match scanView s.view with
    | .error error => (.error error,s)
    | .ok (total,chunks) => (.ok total,{ s with totalSize := total,totalChunks := chunks })

def peekChunkCount (s : RlpChunkedListDecoder) : Except DecodingError Nat × RlpChunkedListDecoder :=
  if s.initialized ∧ 0 < s.totalChunks then (.ok s.totalChunks,s)
  else match s.peekTotalSize with
    | (.error error,s) => (.error error,s)
    | (.ok _,s) => (.ok s.totalChunks,s)

-- The view is moved behind the list header before the items are counted, and
-- stays there if the count fails.
def start (s : RlpChunkedListDecoder) : Except DecodingError Unit × RlpChunkedListDecoder :=
  if s.initialized then (.ok (),s)
  else match peekList s.view with
    | .error error => (.error error,s)
    | .ok h =>
      let view := s.view.removePrefix h.headerSizeBytes
      let moved := { s with view := view,listPayload := view.substr 0 h.payloadSizeBytes }
      if s.totalChunks = 0 then
        match scanList moved.listPayload with
        | .error error => (.error error,moved)
        | .ok (_,chunks) => (.ok (),{ moved with totalChunks := chunks,initialized := true })
      else (.ok (),{ moved with initialized := true })

def nextChunk (s : RlpChunkedListDecoder) : Except DecodingError ByteView × RlpChunkedListDecoder :=
  if s.totalChunks ≤ s.chunkIndex ∨ s.listPayload.bytes = [] then
    if s.listPayload.bytes = [] then (.ok .empty,s)
    else (.ok .empty,{ s with view := s.view.removePrefix s.listPayload.length,listPayload := .empty })
  else match RlpLargeStringDecoder.peekString s.listPayload with
    | .error error => (.error error,s)
    | .ok h =>
      (.ok (s.listPayload.substr h.headerSizeBytes h.payloadSizeBytes),
        { s with listPayload := s.listPayload.removePrefix (sizeAdd h.headerSizeBytes h.payloadSizeBytes),
                 chunkIndex := sizeAdd s.chunkIndex 1 })

def readChunk (s : RlpChunkedListDecoder) : Except DecodingError ByteView × RlpChunkedListDecoder :=
  match s.start with
  | (.error error,s) => (.error error,s)
  | (.ok (),s) => s.nextChunk

end RlpChunkedListDecoder

-- The loop of decodeChunkedList, with the chunks that its callback is given. A
-- chunk that is not empty takes bytes of the view, so the view bounds the rounds.
def decodeChunks : Nat → RlpChunkedListDecoder → Except DecodingError (List ByteView)
  | 0,_ => .error .kListLengthMismatch
  | fuel + 1,s => match s.readChunk with
    | (.error error,_) => .error error
    | (.ok chunk,s) =>
      if chunk.bytes = [] then .ok []
      else do
        let chunks ← decodeChunks fuel s
        return chunk :: chunks

def decodeChunkedList (v : ByteView) : Except DecodingError (List ByteView) := decodeChunks (v.length + 1) (.new v)

def decodeChunkedListFull (v : ByteView) : Except DecodingError (List UInt8) := do
  let chunks ← decodeChunkedList v
  return chunks.flatMap ByteView.bytes

-- A header that is found announces no more than there is, so the second check of
-- the length never fails.
theorem peeked_inside (peeked : peekHeader v = .ok h) : ¬ v.length < sizeAdd h.headerSizeBytes h.payloadSizeBytes := by
  have room : h.headerSizeBytes + h.payloadSizeBytes ≤ v.length := ((peekHeader_exact v h).mp peeked).room
  have fits := v.length_lt
  rw [sizeAdd_small (by omega)]
  omega

theorem peekString_eq (peeked : peekHeader v = .ok h) :
    RlpLargeStringDecoder.peekString v = if h.list then .error .kUnexpectedList else .ok h := by
  unfold RlpLargeStringDecoder.peekString
  rw [peeked,ok_bind,if_neg (peeked_inside peeked)]
  rfl

theorem peekList_eq (peeked : peekHeader v = .ok h) :
    RlpChunkedListDecoder.peekList v = if h.list then .ok h else .error .kUnexpectedString := by
  unfold RlpChunkedListDecoder.peekList
  rw [peeked,ok_bind,if_neg (peeked_inside peeked)]
  cases h.list <;> rfl

theorem encodeString_width (announced : Announces (encodeString payload ++ rest) ⟨false,payload.length,offset⟩)
    (behind : (encodeString payload ++ rest).drop offset = payload ++ rest) :
    offset + payload.length = (encodeString payload).length := by
  have room := announced.room
  have lengths := congrArg List.length behind
  simp only [List.length_drop,List.length_append] at lengths room
  omega

theorem peekString_spelled (spelled : v.bytes = encodeString payload ++ rest) :
    ∃ offset,RlpLargeStringDecoder.peekString v = .ok ⟨false,payload.length,offset⟩ ∧
      v.bytes.drop offset = payload ++ rest ∧ sizeAdd offset payload.length = (encodeString payload).length := by
  obtain ⟨offset,announced,behind,_⟩ := encodeString_announced ..
  have width := encodeString_width announced behind
  rw [← spelled] at announced behind
  have fits := v.fits
  rw [spelled,List.length_append] at fits
  refine ⟨offset,?_,behind,?_⟩
  · rw [peekString_eq ((peekHeader_exact v _).mpr announced)]
    rfl
  · rw [← width]
    exact sizeAdd_small (by omega)

theorem peekString_sound (peeked : RlpLargeStringDecoder.peekString v = .ok h) : ∃ payload rest,v.bytes = encodeString payload ++ rest := by
  obtain ⟨found,header,checked⟩ := bind_ok.mp peeked
  rw [peekString_eq header] at peeked
  obtain ⟨list,size,offset⟩ := found
  cases list with
  | true => cases peeked
  | false => exact ⟨_,_,((peekHeader_exact v _).mp header).spelled⟩

end EvmRelay.Rlp
