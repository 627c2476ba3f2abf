import EvmRelay.DecoderLoops

namespace EvmRelay.Rlp
open RlpSpec Reader

-- RlpDecoder with view_ as its state. What a call has taken off the view stays
-- taken when the call fails later.
abbrev RlpDecoder (α : Type) := EStateM DecodingError ByteView α

namespace RlpDecoder

-- A member that writes the view by its last statement, and a const one.
def move (read : Decoder α) : RlpDecoder α := fun view =>
  match read view with
  | .ok (value,rest) => .ok value rest
  | .error error => .error error view

def look (read : ByteView → Except DecodingError α) : RlpDecoder α := move fun view => do return (← read view,view)

def skipHeaderInternal : RlpDecoder Unit := move fun view => do return ((),← Rlp.skipHeaderInternal view)

def readBytes : RlpDecoder (List UInt8) := do
  let h ← look peekHeader
  if h.list then throw .kUnexpectedList
  else
    skipHeaderInternal
    let view ← get
    if view.length < h.payloadSizeBytes then throw .kInputTooShort
    else
      set (view.removePrefix h.payloadSizeBytes)
      return view.bytes.take h.payloadSizeBytes

theorem take_width {view : ByteView} (enough : count ≤ view.length) : (view.bytes.take count).length = count :=
  List.length_take_of_le enough

def readFixed (count : Nat) : RlpDecoder (FixedBytes count) := do
  let h ← look peekHeader
  let singleByteLiteral : Prop := h.payloadSizeBytes = 1 ∧ h.headerSizeBytes = 0
  if h.list then throw .kUnexpectedList
  else if h.payloadSizeBytes ≠ count ∧ ¬ (count = 1 ∧ singleByteLiteral) then throw .kUnexpectedLength
  else
    skipHeaderInternal
    let view ← get
    if enough : count ≤ view.length then
      set (view.removePrefix count)
      return ⟨view.bytes.take count,take_width enough⟩
    else throw .kInputTooShort

def readUnsigned (t : UnsignedType) : RlpDecoder (BitVec (8 * t.sizeof)) := move (Rlp.readUnsigned t)

def readBool : RlpDecoder Bool := move Rlp.readBool

def readListHeaderBytes : RlpDecoder Nat := do
  let h ← look peekHeader
  if ¬ h.list then throw .kUnexpectedString
  else
    skipHeaderInternal
    return h.payloadSizeBytes

def skipItem : RlpDecoder Unit := do
  let h ← look peekHeader
  skipHeaderInternal
  let view ← get
  if view.length < h.payloadSizeBytes then throw .kInputTooShort
  else set (view.removePrefix h.payloadSizeBytes)

def fromBigCompact : (t : UnsignedType) → List UInt8 → Except DecodingError (BitVec (8 * t.sizeof))
  | .integral t => Endian.fromBigCompact (8 * t.sizeof)
  | .uint256 => Endian.fromBigCompactUint256

def checkPayload (t : UnsignedType) (h : Header) (payloadView view : ByteView) : Except DecodingError Unit :=
  if h.list then .error .kUnexpectedList
  else if h.payloadSizeBytes > 1 ∧ payloadView.bytes.headD 0 = 0 then .error .kLeadingZero
  else if h.payloadSizeBytes = 1 ∧ payloadView.bytes.headD 0 = 0 ∧
      ((0#(8 * t.sizeof)).setWidth 8).toNat ≥ kRlpSingleByteThreshold then .error .kLeadingZero
  else if h.payloadSizeBytes > t.sizeof ∧ (t.sizeof < 32 ∨ h.payloadSizeBytes > 32) then .error .kOverflow
  else if view.length < sizeAdd h.headerSizeBytes h.payloadSizeBytes then .error .kInputTooShort
  else do
    let tempOut ← fromBigCompact t payloadView.bytes
    if (h.payloadSizeBytes = 1 ∧ (tempOut.setWidth 8).toNat < kRlpSingleByteThreshold) ∧ h.headerSizeBytes > 0 then
      .error .kNonCanonicalSize
    else .ok ()

-- read(data, out, Leftover::kAllow), through a decoder of its own over data.
def readFrom (t : UnsignedType) : Decoder (BitVec (8 * t.sizeof)) := fun data => do
  let h ← peekHeader data
  let payloadView := data.substr h.headerSizeBytes h.payloadSizeBytes
  checkPayload t h payloadView data
  let out ← fromBigCompact t payloadView.bytes
  return (out,data.removePrefix (sizeAdd h.headerSizeBytes h.payloadSizeBytes))

def readVector (t : UnsignedType) : RlpDecoder (List (BitVec (8 * t.sizeof))) := do
  let payloadLen ← readListHeaderBytes
  let listPayload := (← get).substr 0 payloadLen
  let (vec,listPayload) ← ofExcept (readAbove .kListLengthMismatch (readFrom t) 0 listPayload.length listPayload)
  if ¬ isFinished listPayload then throw .kListLengthMismatch
  else
    let view ← get
    if view.length < payloadLen then throw .kInputTooShort
    else
      set (view.removePrefix payloadLen)
      return vec

theorem get_bind : (get >>= next : RlpDecoder α) view = next view view := rfl

section binds

theorem move_bind {read : Decoder α} (ran : read view = .ok (value,rest)) : (move read >>= next) view = next value rest := by
  show EStateM.bind _ _ _ = _
  unfold EStateM.bind move
  rw [ran]

theorem move_failed {read : Decoder α} (failed : read view = .error error) :
    (move read >>= next) view = .error error view := by
  show EStateM.bind _ _ _ = _
  unfold EStateM.bind move
  rw [failed]

theorem look_bind {read : ByteView → Except DecodingError α} (ran : read view = .ok value) :
    (look read >>= next) view = next value view :=
  move_bind (by rw [ran]; rfl)

theorem look_failed {read : ByteView → Except DecodingError α} (failed : read view = .error error) :
    (look read >>= next) view = .error error view :=
  move_failed (by rw [failed]; rfl)

end binds

theorem skipped_bind (announced : Announces view.bytes h) :
    (skipHeaderInternal >>= next) view = next () (view.removePrefix h.headerSizeBytes) := by
  apply move_bind
  rw [skipHeaderInternal_exact announced]
  rfl

-- A call that peeks first writes the view by its last statement if it does so
-- whichever header it finds.
theorem peeks_eq {read : Header → Decoder α}
    (same : ∀ view h,Announces view.bytes h → call h view = move (read h) view) :
    (look peekHeader >>= call) = move fun view => peekHeader view >>= fun h => read h view := by
  funext view
  unfold move
  dsimp only
  cases peeked : peekHeader view with
  | error error => exact look_failed peeked
  | ok h => exact (look_bind peeked).trans (same view h ((peekHeader_exact view h).mp peeked))

theorem payload_room {view : ByteView} (announced : Announces view.bytes h) :
    ¬ (view.removePrefix h.headerSizeBytes).length < h.payloadSizeBytes := by
  have room : h.headerSizeBytes + h.payloadSizeBytes ≤ view.length := announced.room
  rw [ByteView.removePrefix_length]
  omega

theorem readBytes_eq : readBytes = move Rlp.readBytes := by
  refine peeks_eq fun view h announced => ?_
  unfold move
  dsimp only
  split
  · rfl
  · rw [skipped_bind announced,get_bind,skipHeaderInternal_exact announced,ok_bind,if_neg (payload_room announced),
      if_neg (payload_room announced)]
    rfl

theorem readFixed_eq (count : Nat) : readFixed count = move (Rlp.readFixed count) := by
  refine peeks_eq fun view h announced => ?_
  unfold move
  dsimp only
  split
  · rfl
  split
  · rfl
  · have room := payload_room announced
    have enough : count ≤ (view.removePrefix h.headerSizeBytes).length := by omega
    rw [skipped_bind announced,skipHeaderInternal_exact announced,ok_bind,dif_pos enough]
    exact congrFun (dif_pos enough) _

theorem readListHeaderBytes_eq : readListHeaderBytes = move Rlp.readListHeaderBytes := by
  refine peeks_eq fun view h announced => ?_
  unfold move
  dsimp only
  split
  · rfl
  · rw [skipped_bind announced,skipHeaderInternal_exact announced]
    rfl

theorem skipItem_eq : skipItem = move fun view => do return ((),← Rlp.skipItem view) := by
  funext view
  unfold skipItem move
  dsimp only
  cases peeked : peekHeader view with
  | error error =>
    unfold Rlp.skipItem
    rw [look_failed peeked,peeked]
    rfl
  | ok h =>
    have announced := (peekHeader_exact view h).mp peeked
    rw [look_bind peeked,skipped_bind announced,get_bind,if_neg (payload_room announced),skipItem_announced announced,
      ByteView.removePrefix_removePrefix]
    rfl

-- The second implementation of the integer checks reads what the first does.
theorem fromBigCompact_eq (t : UnsignedType) (payload : List UInt8) :
    fromBigCompact t payload = Endian.fromBigCompact (8 * t.sizeof) payload := by
  cases t with
  | integral t => rfl
  | uint256 => exact Endian.fromBigCompactUint256_eq

theorem readFrom_string (t : UnsignedType) (spelled : v.bytes = encodeString payload ++ rest.bytes) :
    readFrom t v = (decodeScalar t.sizeof payload).map fun n => (n,rest) := by
  obtain ⟨offset,peeked,cut,left,room,headed⟩ := string_layout spelled
  have bounds := sizeof_bounds t
  have small : (payload.length > t.sizeof ∧ (t.sizeof < 32 ∨ payload.length > 32)) ↔ payload.length > t.sizeof := by omega
  unfold readFrom checkPayload decodeScalar
  rw [peeked,ok_bind]
  dsimp only
  rw [cut,left,if_neg Bool.false_ne_true,fromBigCompact_eq]
  split
  · rfl
  rw [if_neg (by simp)]
  simp only [small]
  split
  · rfl
  cases read : Endian.fromBigCompact (8 * t.sizeof) payload with
  | error error => rfl
  | ok n =>
    have canonical : ¬ ((payload.length = 1 ∧ (n.setWidth 8).toNat < 0x80) ∧ offset > 0) := by
      rintro ⟨⟨single,small⟩,headed'⟩
      have large := headed single headed'
      have below := (payload.headD 0).toNat_lt
      rw [BitVec.toNat_setWidth,single_value read single] at small
      omega
    rw [ok_bind,if_neg canonical]
    rfl

theorem readFrom_eq (t : UnsignedType) : readFrom t = Rlp.readUnsigned t := by
  funext v
  obtain ⟨next,peeks⟩ := readUnsigned_peeks t v
  cases peeked : peekHeader v with
  | error error =>
    rw [peeks,readFrom,peeked]
    rfl
  | ok h =>
    cases kind : h.list with
    | false =>
      obtain ⟨payload,rest,spelled⟩ := peeked_string peeked kind
      rw [readFrom_string t spelled,readUnsigned_string t spelled]
    | true =>
      rw [peeks,readFrom,peeked,ok_bind,ok_bind]
      unfold checkPayload
      rw [kind]
      rfl

section vectors

-- The loop of read_vector over the payload that is cut out of the view.
def readPayload (t : UnsignedType) (payload : ByteView) : Except DecodingError (List (BitVec (8 * t.sizeof)) × ByteView) :=
  readAbove .kListLengthMismatch (Rlp.readUnsigned t : Decoder _) 0 payload.length payload

theorem readVector_refused (refused : Rlp.readListHeaderBytes v = .error error) : readVector t v = .error error v := by
  rw [readVector,readListHeaderBytes_eq,move_failed refused]

theorem readVector_failed (headed : Rlp.readListHeaderBytes v = .ok (size,view))
    (failed : readPayload t (view.substr 0 size) = .error error) : readVector t v = .error error view := by
  rw [readVector,readListHeaderBytes_eq,move_bind headed,get_bind,readFrom_eq]
  unfold readPayload at failed
  rw [failed]
  rfl

theorem readVector_read (headed : Rlp.readListHeaderBytes v = .ok (size,view))
    (ran : readPayload t (view.substr 0 size) = .ok (values,rest)) :
    readVector t v = .ok values (view.removePrefix size) := by
  obtain ⟨_,_,_,stopped⟩ := readAbove_sound (readUnsigned_form t) ran
  have finished := (isFinished_iff rest).mpr (List.length_eq_zero_iff.mp (Nat.le_zero.mp stopped))
  obtain ⟨_,room⟩ := (readListHeaderBytes_exact ..).mp headed
  rw [readVector,readListHeaderBytes_eq,move_bind headed,get_bind,readFrom_eq]
  unfold readPayload at ran
  rw [ran]
  show (if ¬ isFinished rest then _ else _ : RlpDecoder _) view = _
  rw [if_neg (not_not_intro finished),get_bind,if_neg (Nat.not_lt.mpr room)]
  rfl

theorem readVector_agrees (t : UnsignedType) (v : ByteView) (xs : List (BitVec (8 * t.sizeof))) :
    (∃ left,readVector t v = .ok xs left) ↔ ∃ size view,Rlp.readListHeaderBytes v = .ok (size,view) ∧
      ∃ rounds rest,Rounds (Rlp.readUnsigned t) 0 (view.substr 0 size) rounds (.ok (xs,rest)) := by
  cases headed : Rlp.readListHeaderBytes v with
  | error error =>
    rw [readVector_refused headed]
    simp
  | ok found =>
    obtain ⟨size,view⟩ := found
    obtain ⟨rounds,_,ran⟩ : ∃ rounds,_ ∧ Rounds _ 0 _ rounds (readPayload t (view.substr 0 size)) :=
      readAbove_rounds (readUnsigned_advances t) (Nat.le_refl _)
    constructor
    · rintro ⟨left,read⟩
      cases looped : readPayload t (view.substr 0 size) with
      | error error =>
        rw [readVector_failed headed looped] at read
        cases read
      | ok found =>
        rw [readVector_read headed looped] at read
        cases read
        exact ⟨size,view,rfl,rounds,found.2,looped ▸ ran⟩
    · rintro ⟨_,_,same,_,rest,one⟩
      cases same
      exact ⟨_,readVector_read headed (ran.same one)⟩

end vectors

-- What a call may do to the view: it leaves it if it fails, and takes a piece of
-- this kind off its front if it succeeds.
def Takes (call : RlpDecoder α) (kind : List UInt8 → Prop) (view : ByteView) : Prop :=
  match call view with
  | .ok _ rest => ∃ piece,kind piece ∧ piece ≠ [] ∧ view.bytes = piece ++ rest.bytes
  | .error _ rest => rest = view

inductive Operation where
  | bytes
  | fixed (count : Nat)
  | unsigned (t : UnsignedType)
  | bool
  | listHeaderBytes
  | item
  | vector (t : UnsignedType)

def Operation.TakesWhole (view : ByteView) : Operation → Prop
  | .bytes => Takes readBytes IsItem view
  | .fixed count => Takes (readFixed count) IsItem view
  | .unsigned t => Takes (readUnsigned t) IsItem view
  | .bool => Takes readBool IsItem view
  | .listHeaderBytes => Takes readListHeaderBytes (fun piece => ∃ size,piece = listHeader size) view
  | .item => Takes skipItem IsItem view
  | .vector t => Takes (readVector t) IsItem view

theorem move_takes {read : Decoder α} (takes : ∀ value rest,read view = .ok (value,rest) →
      ∃ piece,kind piece ∧ piece ≠ [] ∧ view.bytes = piece ++ rest.bytes) : Takes (move read) kind view := by
  unfold Takes move
  cases ran : read view with
  | error error => rfl
  | ok found => exact takes _ _ ran

theorem move_takes_item {read : Decoder α} (takes : ∀ value rest,read view = .ok (value,rest) →
      ∃ piece,IsItem piece ∧ view.bytes = piece ++ rest.bytes) : Takes (move read) IsItem view := by
  refine move_takes fun value rest ran => ?_
  obtain ⟨piece,item,spelled⟩ := takes value rest ran
  exact ⟨piece,item,item.nonempty,spelled⟩

theorem readBytes_takes : Takes readBytes IsItem view := by
  rw [readBytes_eq]
  exact move_takes_item fun bytes rest ran => ⟨_,.string bytes,(readBytes_exact ..).mp ran⟩

theorem readFixed_takes : Takes (readFixed count) IsItem view := by
  rw [readFixed_eq]
  refine move_takes_item fun value rest ran => ?_
  obtain ⟨_,spelled,rfl⟩ := (readFixed_exact ..).mp ran
  exact ⟨_,.string _,spelled⟩

theorem readUnsigned_takes : Takes (readUnsigned t) IsItem view := by
  refine move_takes_item fun value rest ran => ?_
  obtain ⟨_,spelled,formed⟩ := (readUnsigned_form ..).mp ran
  obtain ⟨payload,rfl,_⟩ := formed.string
  exact ⟨_,.string payload,spelled⟩

theorem readBool_takes : Takes readBool IsItem view := by
  refine move_takes_item fun value rest ran => ?_
  obtain ⟨_,spelled,formed⟩ := (readBool_exact ..).mp ran
  obtain ⟨payload,rfl⟩ := formed.string
  exact ⟨_,.string payload,spelled⟩

theorem listHeader_nonempty : listHeader size ≠ [] := List.length_pos_iff.mp (header_pos 0xC0 0xF7 size)

theorem readListHeaderBytes_takes : Takes readListHeaderBytes (fun piece => ∃ size,piece = listHeader size) view := by
  rw [readListHeaderBytes_eq]
  refine move_takes fun size rest headed => ?_
  obtain ⟨spelled,_⟩ := (readListHeaderBytes_exact ..).mp headed
  exact ⟨_,⟨size,rfl⟩,listHeader_nonempty,spelled⟩

theorem skipItem_takes : Takes skipItem IsItem view := by
  rw [skipItem_eq]
  refine move_takes_item fun _ rest ran => ?_
  obtain ⟨left,skipped,same⟩ := bind_ok.mp ran
  cases same
  obtain ⟨h,peeked,_⟩ := bind_ok.mp skipped
  have announced := (peekHeader_exact view h).mp peeked
  cases (skipItem_announced announced).symm.trans skipped
  exact ⟨_,announced.item,(List.take_append_drop ..).symm⟩

def IntegerPayload (t : UnsignedType) (payload : List UInt8) : Prop :=
  ∃ pieces,∃ values : List (BitVec (8 * t.sizeof)),payload = pieces.flatten ∧ List.Forall₂ UnsignedForm pieces values

theorem readPayload_sound (ran : readPayload t payload = .ok (values,rest)) : IntegerPayload t payload.bytes := by
  obtain ⟨pieces,formed,spelled,stopped⟩ := readAbove_sound (readUnsigned_form t) ran
  have nothing : rest.bytes = [] := List.length_eq_zero_iff.mp (Nat.le_zero.mp stopped)
  refine ⟨pieces,values,?_,formed⟩
  rw [← List.append_nil pieces.flatten,← nothing]
  exact spelled

theorem readPayload_complete (integers : IntegerPayload t payload.bytes) :
    ∃ values,readPayload t payload = .ok (values,ByteView.empty) := by
  obtain ⟨pieces,values,spelled,formed⟩ := integers
  have some := pieces_all (fun _ _ formed => UnsignedForm.nonempty formed) formed
  have few := pieces_le_flatten some
  rw [← spelled] at few
  refine ⟨values,readAbove_reads (formed.imp fun _ _ one => (readUnsigned_form t).reads one) some few ?_ rfl⟩
  exact spelled.trans (List.append_nil _).symm

theorem readVector_takes (t : UnsignedType) (v : ByteView) : Takes (readVector t) IsItem v ↔
    ∀ payload rest,v.bytes = encodeList payload ++ rest → IntegerPayload t payload := by
  unfold Takes
  cases headed : Rlp.readListHeaderBytes v with
  | error error =>
    rw [readVector_refused headed]
    refine iff_of_true rfl fun payload rest spelled => ?_
    obtain ⟨_,opened,_⟩ := encodeList_opens spelled
    cases headed.symm.trans opened
  | ok found =>
    obtain ⟨size,view⟩ := found
    obtain ⟨spelled,room⟩ := (readListHeaderBytes_exact ..).mp headed
    have whole := spelled.trans (listHeader_cut room)
    cases looped : readPayload t (view.substr 0 size) with
    | error error =>
      rw [readVector_failed headed looped]
      refine iff_of_false (fun same => ?_) fun integers => ?_
      · rw [same] at spelled
        exact listHeader_nonempty (List.self_eq_append_left.mp spelled)
      · obtain ⟨_,read⟩ : ∃ values,readPayload t (view.substr 0 size) = .ok (values,_) :=
          readPayload_complete (integers _ _ whole)
        cases looped.symm.trans read
    | ok found =>
      rw [readVector_read headed looped]
      refine iff_of_true ⟨_,.list _,(IsItem.list _).nonempty,whole⟩ fun payload rest spelled => ?_
      obtain ⟨_,opened,behind⟩ := encodeList_opens spelled
      cases headed.symm.trans opened
      have integers := readPayload_sound looped
      rw [ByteView.substr_bytes,behind,List.drop_zero,List.take_left] at integers
      exact integers

theorem calls_take_whole_iff (operation : Operation) (view : ByteView) : operation.TakesWhole view ↔
    ∀ t,operation = .vector t → ∀ payload rest,view.bytes = encodeList payload ++ rest → IntegerPayload t payload := by
  cases operation with
  | bytes => exact iff_of_true readBytes_takes nofun
  | fixed count => exact iff_of_true readFixed_takes nofun
  | unsigned t => exact iff_of_true readUnsigned_takes nofun
  | bool => exact iff_of_true readBool_takes nofun
  | listHeaderBytes => exact iff_of_true readListHeaderBytes_takes nofun
  | item => exact iff_of_true skipItem_takes nofun
  | vector t =>
    refine (readVector_takes t view).trans ⟨?_,fun integers => integers t rfl⟩
    rintro integers _ ⟨⟩
    exact integers

theorem nested_list_half_taken :
    readVector (.integral .uint64) ⟨[0xC1,0xC0],by decide⟩ = .error .kUnexpectedList ⟨[0xC0],by decide⟩ ∧
      ¬ (Operation.vector (.integral .uint64)).TakesWhole ⟨[0xC1,0xC0],by decide⟩ := by
  have failed : readVector (.integral .uint64) ⟨[0xC1,0xC0],by decide⟩ = .error .kUnexpectedList ⟨[0xC0],by decide⟩ := by
    rfl
  refine ⟨failed,?_⟩
  unfold Operation.TakesWhole
  dsimp only
  unfold Takes
  rw [failed]
  decide

end RlpDecoder
end EvmRelay.Rlp
