import EvmRelay.RlpDecoder

namespace EvmRelay.Rlp
open RlpSpec

inductive EncodingError where
  | kPayloadTooLarge | kEmptyInput | kUnclosedList | kUnmatchedEndList
  deriving DecidableEq

def encodeHeaderBytes (list : Bool) (payloadSizeBytes : Nat) : Except EncodingError (List UInt8) :=
  let shortOffset := if list then kShortListOffset else kShortStringOffset
  let longOffset := if list then kLongListOffset else kLongStringOffset
  if payloadSizeBytes ≤ kMaxShortStringLen then .ok [UInt8.ofNat (shortOffset + payloadSizeBytes)]
  else
    let lenBe := Endian.toBigCompact (BitVec.ofNat 64 payloadSizeBytes)
    if lenBe.length > 8 then .error .kPayloadTooLarge
    else .ok (UInt8.ofNat (longOffset + lenBe.length) :: lenBe)

-- list_start_positions_ with its back first. An open list never starts behind
-- the end of the buffer, so the insertion of EndList stays inside.
structure RlpEncoder where
  buffer : List UInt8
  listStartPositions : List Nat
  inside : ∀ start ∈ listStartPositions, start ≤ buffer.length

namespace RlpEncoder

def new : RlpEncoder := ⟨[],[],by simp⟩

-- push_back, append and resize with memcpy all extend the buffer at its end.
def append (e : RlpEncoder) (bytes : List UInt8) : RlpEncoder :=
  ⟨e.buffer ++ bytes,e.listStartPositions,by
    intro start member
    have bound := e.inside start member
    rw [List.length_append]
    omega⟩

def add (e : RlpEncoder) (bytes : List UInt8) : Except EncodingError RlpEncoder :=
  if bytes.length = 1 ∧ (bytes.headD 0).toNat < kRlpSingleByteThreshold then .ok (e.append bytes)
  else do
    let header ← encodeHeaderBytes false bytes.length
    return e.append (header ++ bytes)

def addRaw (e : RlpEncoder) (bytes : List UInt8) : Except EncodingError RlpEncoder :=
  if bytes = [] then .error .kEmptyInput else .ok (e.append bytes)

def beginList (e : RlpEncoder) : Except EncodingError RlpEncoder :=
  .ok ⟨e.buffer,e.buffer.length :: e.listStartPositions,by
    intro start member
    rcases List.mem_cons.mp member with rfl | outer
    · exact Nat.le_refl _
    · exact e.inside start outer⟩

def endList : RlpEncoder → Except EncodingError RlpEncoder
  | ⟨_,[],_⟩ => .error .kUnmatchedEndList
  | ⟨buffer,startPos :: outer,inside⟩ => do
    let payloadLen := sizeSub buffer.length startPos
    let header ← encodeHeaderBytes true payloadLen
    return ⟨buffer.take startPos ++ header ++ buffer.drop startPos,outer,by
      intro start member
      have bound := inside start (List.mem_cons_of_mem _ member)
      simp only [List.length_append,List.length_take,List.length_drop]
      omega⟩

def getBytes (e : RlpEncoder) : Except EncodingError (List UInt8) :=
  if e.listStartPositions ≠ [] then .error .kUnclosedList else .ok e.buffer

-- The moved-from buffer is left empty.
def moveBytes (e : RlpEncoder) : Except EncodingError (List UInt8 × RlpEncoder) :=
  if e.listStartPositions ≠ [] then .error .kUnclosedList else .ok (e.buffer,new)

theorem ext_state {e f : RlpEncoder} (buffer : e.buffer = f.buffer)
    (starts : e.listStartPositions = f.listStartPositions) : e = f := by
  cases e; cases f; cases buffer; cases starts; rfl

@[simp] theorem append_buffer (e : RlpEncoder) (bytes : List UInt8) : (e.append bytes).buffer = e.buffer ++ bytes := rfl

@[simp] theorem append_nil (e : RlpEncoder) : e.append [] = e := ext_state (by simp) rfl

@[simp] theorem append_append (e : RlpEncoder) (second : List UInt8) :
    (e.append first).append second = e.append (first ++ second) := ext_state (by simp) rfl

end RlpEncoder

theorem toBigCompact_size (small : size < 2 ^ 64) : Endian.toBigCompact (BitVec.ofNat 64 size) = BigEndian.minimal size := by
  rw [Endian.toBigCompact_eq _ (by decide),BitVec.toNat_ofNat,Nat.mod_eq_of_lt small]

theorem encodeHeaderBytes_eq (list : Bool) (small : size < 2 ^ 64) :
    encodeHeaderBytes list size = .ok (if list then listHeader size else stringHeader size) := by
  have few := byteLength_le_eight size small
  unfold encodeHeaderBytes
  by_cases short : size ≤ 55
  · rw [if_pos short,listHeader,stringHeader,header_short short,header_short short]
    cases list <;> rfl
  · rw [if_neg short,listHeader,stringHeader,header_long short,header_long short]
    dsimp only
    rw [toBigCompact_size small,BigEndian.minimal_length,if_neg (by omega)]
    cases list <;> rfl

theorem add_eq (e : RlpEncoder) (small : bytes.length < sizeLimit) : e.add bytes = .ok (e.append (encodeString bytes)) := by
  unfold RlpEncoder.add
  by_cases literal : bytes.length = 1 ∧ (bytes.headD 0).toNat < 0x80
  · have spelled : encodeString bytes = bytes := if_pos ⟨literal.1,UInt8.lt_iff_toNat_lt.mpr literal.2⟩
    rw [if_pos literal,spelled]
  · rw [if_neg literal,encodeHeaderBytes_eq false small,encodeString_headed (by omega)]
    rfl

theorem addRaw_eq (e : RlpEncoder) (some : bytes ≠ []) : e.addRaw bytes = .ok (e.append bytes) := if_neg some

theorem endList_eq (e : RlpEncoder) (payload : List UInt8) (begun : e.beginList = .ok opened)
    (fits : e.buffer.length + payload.length < sizeLimit) :
    (opened.append payload).endList = .ok (e.append (listHeader payload.length ++ payload)) := by
  cases begun
  have size : sizeSub (e.buffer ++ payload).length e.buffer.length = payload.length := by
    rw [List.length_append,sizeSub_small (Nat.le_add_right _ _) fits,Nat.add_sub_cancel_left]
  refine bind_ok.mpr ⟨listHeader payload.length,?_,?_⟩
  · rw [size,encodeHeaderBytes_eq true (by unfold sizeLimit at fits; omega)]
    rfl
  · congr 1
    apply RlpEncoder.ext_state
    · simp [RlpEncoder.append]
    · rfl

inductive Call where
  | beginList
  | add (bytes : List UInt8)
  | addRaw (bytes : List UInt8)
  | endList

def Call.run (e : RlpEncoder) : Call → Except EncodingError RlpEncoder
  | .beginList => e.beginList
  | .add bytes => e.add bytes
  | .addRaw bytes => e.addRaw bytes
  | .endList => e.endList

def runCalls (e : RlpEncoder) : List Call → Except EncodingError RlpEncoder
  | [] => .ok e
  | call :: rest => do
    let next ← call.run e
    runCalls next rest

-- A tree with some subtrees marked for insertion by AddRaw.
inductive Plan where
  | str (bytes : List UInt8)
  | list (plans : List Plan)
  | raw (item : Item)

mutual
def Plan.item : Plan → Item
  | .str bytes => .str bytes
  | .list plans => .list (Plan.items plans)
  | .raw item => item
def Plan.items : List Plan → List Item
  | [] => []
  | plan :: rest => plan.item :: Plan.items rest
end

mutual
def Plan.plain : Item → Plan
  | .str bytes => .str bytes
  | .list items => .list (Plan.plains items)
def Plan.plains : List Item → List Plan
  | [] => []
  | item :: rest => Plan.plain item :: Plan.plains rest
end

mutual
def Plan.calls : Plan → List Call
  | .str bytes => [.add bytes]
  | .list plans => .beginList :: (Plan.callsAll plans ++ [.endList])
  | .raw item => [.addRaw (encode item)]
def Plan.callsAll : List Plan → List Call
  | [] => []
  | plan :: rest => plan.calls ++ Plan.callsAll rest
end

-- What a sequence of calls is for: it ends without an open list, the bytes are
-- the encoding of the tree, and a decoder walks them back to it.
def Recovers (calls : List Call) (tree : Item) : Prop :=
  ∃ (e : RlpEncoder) (view : ByteView), runCalls .new calls = .ok e ∧ e.getBytes = .ok view.bytes ∧
    view.bytes = encode tree ∧ walk view = .ok (tree,.empty)

mutual
theorem plain_item (item : Item) : (Plan.plain item).item = item := by
  cases item with
  | str bytes => rfl
  | list items => rw [Plan.plain,Plan.item,plains_items]
theorem plains_items : Plan.items (Plan.plains items) = items := by
  cases items with
  | nil => rfl
  | cons item rest => rw [Plan.plains,Plan.items,plain_item,plains_items]
end

theorem runCalls_append (e : RlpEncoder) (second : List Call) :
    runCalls e (first ++ second) = runCalls e first >>= fun next => runCalls next second := by
  induction first generalizing e with
  | nil => rfl
  | cons call rest ih =>
    simp only [List.cons_append,runCalls]
    cases call.run e with
    | error error => rfl
    | ok next => exact ih next

theorem encodeString_length (bytes : List UInt8) : bytes.length ≤ (encodeString bytes).length := by
  unfold encodeString
  split
  · exact Nat.le_refl _
  · rw [List.length_append]; exact Nat.le_add_left _ _

-- One case per constructor: a planned walk appends the encoding of its tree to
-- whatever the encoder holds and leaves the open lists alone.
mutual
theorem calls_run (plan : Plan) (e : RlpEncoder) (fits : e.buffer.length + (encode plan.item).length < sizeLimit) :
    runCalls e plan.calls = .ok (e.append (encode plan.item)) := by
  cases plan with
  | str bytes =>
    rw [Plan.item,encode] at fits ⊢
    have small := encodeString_length bytes
    rw [Plan.calls,runCalls,Call.run,add_eq e (by omega)]
    rfl
  | raw item =>
    rw [Plan.item,Plan.calls,runCalls,Call.run,addRaw_eq e (List.length_pos_iff.mp (encode_pos item))]
    rfl
  | list plans =>
    rw [Plan.item,encode,List.length_append] at fits
    cases begun : e.beginList with
    | error error => cases begun
    | ok opened =>
      have same : opened.buffer = e.buffer := by cases begun; rfl
      have inner := callsAll_run plans opened (by rw [same]; omega)
      have closed := endList_eq e (encodeItems (Plan.items plans)) begun (by omega)
      rw [Plan.item,encode,Plan.calls,runCalls,Call.run,begun]
      show runCalls opened (Plan.callsAll plans ++ [Call.endList]) = _
      rw [runCalls_append,inner]
      show (do let next ← (opened.append _).endList; runCalls next []) = _
      rw [closed]
      rfl
theorem callsAll_run (plans : List Plan) (e : RlpEncoder)
    (fits : e.buffer.length + (encodeItems (Plan.items plans)).length < sizeLimit) :
    runCalls e (Plan.callsAll plans) = .ok (e.append (encodeItems (Plan.items plans))) := by
  cases plans with
  | nil =>
    rw [Plan.items,encodeItems,RlpEncoder.append_nil]
    rfl
  | cons plan rest =>
    rw [Plan.items,encodeItems,List.length_append] at fits
    have first := calls_run plan e (by omega)
    have later := callsAll_run rest (e.append (encode plan.item))
      (by rw [RlpEncoder.append_buffer,List.length_append]; omega)
    rw [Plan.callsAll,runCalls_append,first,Plan.items,encodeItems]
    show runCalls (e.append (encode plan.item)) (Plan.callsAll rest) = _
    rw [later,RlpEncoder.append_append]
end

theorem plan_recovers (plan : Plan) (small : (encode plan.item).length < sizeLimit) : Recovers plan.calls plan.item := by
  have ran := calls_run plan .new (by rw [RlpEncoder.new,List.length_nil,Nat.zero_add]; exact small)
  refine ⟨_,⟨encode plan.item,small⟩,ran,rfl,rfl,?_⟩
  exact (walk_exact ..).mpr (List.append_nil _).symm

theorem tree_recovered (tree : Item) (small : (encode tree).length < sizeLimit) :
    Recovers (Plan.plain tree).calls tree ∧ ∀ plan : Plan, plan.item = tree → Recovers plan.calls tree := by
  have planned : ∀ plan : Plan, plan.item = tree → Recovers plan.calls tree := by
    intro plan same
    subst same
    exact plan_recovers plan small
  exact ⟨planned _ (plain_item tree),planned⟩

theorem tree_recovered_nested :
    Recovers (Plan.calls (.list [.str [0x64,0x6F,0x67],.raw (.list [.str [],.str [0x7F]]),.list []]))
      (.list [.str [0x64,0x6F,0x67],.list [.str [],.str [0x7F]],.list []]) :=
  (tree_recovered (.list [.str [0x64,0x6F,0x67],.list [.str [],.str [0x7F]],.list []]) (by decide)).2 _ rfl

end EvmRelay.Rlp
