import EvmRelay.RlpInteger

namespace EvmRelay.Rlp
open RlpSpec

-- RlpEncoder, with its buffer and its open lists as the state.
abbrev Encoder := StateT RlpEncoder (Except EncodingError) Unit

-- if (!encoder.call(x)) { return error; }
def attempt (call : RlpEncoder → Except EncodingError RlpEncoder) (error : EncodingError) : Encoder := fun e =>
  match call e with
  | .ok after => .ok ((),after)
  | .error _ => .error error

def addBytes (bytes : List UInt8) : Encoder := attempt (fun e => e.add bytes) .kPayloadTooLarge

def addRawBytes (bytes : List UInt8) : Encoder := attempt (fun e => e.addRaw bytes) .kPayloadTooLarge

def addUint8 (n : BitVec 8) : Encoder := attempt (fun e => e.addUnsigned (.integral .uint8) n) .kPayloadTooLarge

def addUint16 (n : BitVec 16) : Encoder := attempt (fun e => e.addUnsigned (.integral .uint16) n) .kPayloadTooLarge

def addUint32 (n : BitVec 32) : Encoder := attempt (fun e => e.addUnsigned (.integral .uint32) n) .kPayloadTooLarge

def addUint64 (n : BitVec 64) : Encoder := attempt (fun e => e.addUnsigned (.integral .uint64) n) .kPayloadTooLarge

def addWord (n : BitVec 256) : Encoder := attempt (fun e => e.addUnsigned .uint256 n) .kPayloadTooLarge

def addBool (flag : Bool) : Encoder :=
  attempt (fun e => .ok (e.append [if flag then 1 else kEmptyStringCode])) .kPayloadTooLarge

-- BeginList, the calls in between and EndList.
def writeList (body : Encoder) : Encoder := do
  attempt RlpEncoder.beginList .kUnclosedList
  body
  attempt RlpEncoder.endList .kUnclosedList

def finalizeEncoding (write : Encoder) : Except EncodingError (List UInt8) := do
  let ((),e) ← write .new
  e.getBytes

-- An object encoded on its own and inserted as it is.
def addEncoded (encoded : Except EncodingError (List UInt8)) : Encoder := do
  let bytes ← liftM encoded
  addRawBytes bytes

-- What a writer puts on the wire; none if it refuses to write.
abbrev Wire := Option (List UInt8)

namespace Wire

def join (front back : Wire) : Wire := front.bind fun one => back.map fun two => one ++ two

def list (payload : Wire) : Wire := payload.map encodeList

def each (wire : α → Wire) (items : List α) : Wire := items.foldr (fun item rest => join (wire item) rest) (some [])

end Wire

@[simp] theorem Wire.join_some : Wire.join (some front) (some back) = some (front ++ back) := rfl

@[simp] theorem Wire.list_some : Wire.list (some payload) = some (encodeList payload) := rfl

@[simp] theorem Wire.each_some (wire : α → List UInt8) :
    Wire.each (fun item => some (wire item)) items = some (items.flatMap wire) := by
  induction items with
  | nil => rfl
  | cons item rest ih =>
    rw [List.flatMap_cons,← Wire.join_some,← ih]
    rfl

theorem Wire.each_pieces (items : List α) (payload : List UInt8) : Wire.each wire items = some payload ↔
      ∃ pieces,List.Forall₂ (fun item piece => wire item = some piece) items pieces ∧ payload = pieces.flatten := by
  induction items generalizing payload with
  | nil =>
    constructor
    · intro same
      cases same
      exact ⟨[],.nil,rfl⟩
    · rintro ⟨_,nothing,rfl⟩
      cases nothing
      rfl
  | cons item rest ih =>
    constructor
    · intro joined
      obtain ⟨piece,one,joined⟩ := Option.bind_eq_some_iff.mp joined
      obtain ⟨more,others,rfl⟩ := Option.map_eq_some_iff.mp joined
      obtain ⟨pieces,all,rfl⟩ := (ih more).mp others
      exact ⟨piece :: pieces,.cons one all,rfl⟩
    · rintro ⟨_,all,rfl⟩
      cases all with
      | cons one all =>
        have others := (ih _).mpr ⟨_,all,rfl⟩
        show Wire.join _ (Wire.each wire rest) = _
        rw [one,others]
        rfl

theorem Wire.each_total (all : ∀ item ∈ items,∃ piece,wire item = some piece) :
    ∃ payload,Wire.each wire items = some payload := by
  induction items with
  | nil => exact ⟨[],rfl⟩
  | cons item rest ih =>
    obtain ⟨piece,one⟩ := all item List.mem_cons_self
    obtain ⟨payload,others⟩ := ih fun item member => all item (List.mem_cons_of_mem _ member)
    exact ⟨piece ++ payload,Option.bind_eq_some_iff.mpr ⟨piece,one,Option.map_eq_some_iff.mpr ⟨payload,others,rfl⟩⟩⟩

-- The writer appends these bytes. An encoder that has outgrown its buffer
-- is no outcome.
def Writes (write : Encoder) (wire : Wire) : Prop :=
  ∀ e after : RlpEncoder,after.buffer.length < sizeLimit →
    (write e = .ok ((),after) ↔ wire.map e.append = some after)

theorem attempt_ok : attempt call error e = .ok ((),after) ↔ call e = .ok after := by
  unfold attempt
  cases call e with
  | ok reached => simp
  | error other => simp

theorem encoder_bind_ok :
    (do first; next : Encoder) e = .ok ((),after) ↔ ∃ between,first e = .ok ((),between) ∧ next between = .ok ((),after) := by
  show (first e >>= fun step => next step.2) = _ ↔ _
  rw [bind_ok]
  constructor
  · rintro ⟨⟨_,between⟩,one,two⟩
    exact ⟨between,one,two⟩
  · rintro ⟨between,one,two⟩
    exact ⟨((),between),one,two⟩

theorem append_length (e : RlpEncoder) : (e.append bytes).buffer.length = e.buffer.length + bytes.length := List.length_append

theorem writes_call (appends : ∀ e,call e = .ok (e.append bytes)) : Writes (attempt call error) (some bytes) := by
  intro e after _
  rw [attempt_ok,appends e]
  simp

theorem addBytes_writes (bytes : List UInt8) : Writes (addBytes bytes) (some (encodeString bytes)) := by
  intro e after fits
  unfold addBytes
  rw [attempt_ok]
  by_cases small : bytes.length < sizeLimit
  · rw [add_eq e small]
    simp
  -- Such a string fits in no buffer.
  have large := encodeString_length bytes
  refine ⟨?_,?_⟩
  · intro ran
    exfalso
    unfold RlpEncoder.add at ran
    split at ran
    · cases ran
      rw [append_length] at fits
      omega
    · obtain ⟨header,_,ran⟩ := bind_ok.mp ran
      cases ran
      rw [append_length,List.length_append] at fits
      omega
  · intro same
    cases same
    rw [append_length] at fits
    omega

theorem addRawBytes_writes (bytes : List UInt8) : Writes (addRawBytes bytes) (if bytes = [] then none else some bytes) := by
  by_cases empty : bytes = []
  · intro e after _
    rw [if_pos empty]
    unfold addRawBytes
    rw [attempt_ok,RlpEncoder.addRaw,if_pos empty]
    simp
  · rw [if_neg empty]
    exact writes_call fun e => addRaw_eq e empty

theorem addUint8_writes (n : BitVec 8) : Writes (addUint8 n) (some (encodeScalar n.toNat)) :=
  writes_call fun e => addUnsigned_eq e (.integral .uint8) n

theorem addUint16_writes (n : BitVec 16) : Writes (addUint16 n) (some (encodeScalar n.toNat)) :=
  writes_call fun e => addUnsigned_eq e (.integral .uint16) n

theorem addUint32_writes (n : BitVec 32) : Writes (addUint32 n) (some (encodeScalar n.toNat)) :=
  writes_call fun e => addUnsigned_eq e (.integral .uint32) n

theorem addUint64_writes (n : BitVec 64) : Writes (addUint64 n) (some (encodeScalar n.toNat)) :=
  writes_call fun e => addUnsigned_eq e (.integral .uint64) n

theorem addWord_writes (n : BitVec 256) : Writes (addWord n) (some (encodeScalar n.toNat)) :=
  writes_call fun e => addUnsigned_eq e .uint256 n

theorem addBool_writes : Writes (addBool flag) (some (encodeScalar flag.toNat)) := by
  apply writes_call
  intro e
  cases flag with
  | true => rw [encodeScalar_small (by decide) (by decide)]; rfl
  | false => rw [show Bool.toNat false = 0 from rfl,encodeScalar_zero]; rfl

theorem writes_nothing : Writes (pure ()) (some []) := by
  intro e after _
  show Except.ok ((),e) = Except.ok ((),after) ↔ some (e.append []) = some after
  simp

theorem Writes.join (one : Writes first front) (two : Writes next back) : Writes (do first; next) (front.join back) := by
  intro e after fits
  rw [encoder_bind_ok]
  constructor
  · rintro ⟨between,ranFirst,ranNext⟩
    obtain ⟨tail,rfl,rfl⟩ := Option.map_eq_some_iff.mp ((two between after fits).mp ranNext)
    have room : between.buffer.length < sizeLimit := by rw [append_length] at fits; omega
    obtain ⟨head,rfl,rfl⟩ := Option.map_eq_some_iff.mp ((one e between room).mp ranFirst)
    simp [Wire.join]
  · intro same
    obtain ⟨bytes,joined,rfl⟩ := Option.map_eq_some_iff.mp same
    obtain ⟨head,rfl,found⟩ := Option.bind_eq_some_iff.mp joined
    obtain ⟨tail,rfl,rfl⟩ := Option.map_eq_some_iff.mp found
    have room : (e.append head).buffer.length < sizeLimit := by
      rw [append_length,List.length_append] at fits
      rw [append_length]
      omega
    refine ⟨e.append head,(one e _ room).mpr rfl,?_⟩
    rw [← RlpEncoder.append_append] at fits ⊢
    exact (two _ _ fits).mpr rfl

theorem endList_grows {e after : RlpEncoder} (closed : e.endList = .ok after) : e.buffer.length ≤ after.buffer.length := by
  obtain ⟨buffer,starts,inside⟩ := e
  cases starts with
  | nil => cases closed
  | cons start outer =>
    obtain ⟨header,_,closed⟩ := bind_ok.mp closed
    cases closed
    simp only [List.length_append,List.length_take,List.length_drop]
    omega

theorem Writes.list (inner : Writes body payload) : Writes (writeList body) payload.list := by
  intro e after fits
  cases begun : e.beginList with
  | error error => cases begun
  | ok opened =>
    have start : attempt RlpEncoder.beginList .kUnclosedList e = .ok ((),opened) := attempt_ok.mpr begun
    have same : opened.buffer = e.buffer := by cases begun; rfl
    unfold writeList
    rw [encoder_bind_ok]
    constructor
    · rintro ⟨_,first,ran⟩
      cases start.symm.trans first
      obtain ⟨between,second,third⟩ := encoder_bind_ok.mp ran
      have closed := attempt_ok.mp third
      have grown := endList_grows closed
      obtain ⟨bytes,rfl,rfl⟩ := Option.map_eq_some_iff.mp ((inner opened between (by omega)).mp second)
      rw [append_length,same] at grown
      rw [endList_eq e bytes begun (by omega)] at closed
      cases closed
      rfl
    · intro written
      obtain ⟨bytes,wrapped,rfl⟩ := Option.map_eq_some_iff.mp written
      obtain ⟨inside,rfl,rfl⟩ := Option.map_eq_some_iff.mp wrapped
      rw [append_length,encodeList,List.length_append] at fits
      have room : (opened.append inside).buffer.length < sizeLimit := by
        rw [append_length,same]
        omega
      refine ⟨opened,start,encoder_bind_ok.mpr ⟨_,(inner opened _ room).mpr rfl,?_⟩⟩
      exact attempt_ok.mpr (endList_eq e inside begun (by omega))

theorem writes_each (items : List α)
    (writes : ∀ item ∈ items,Writes (write item) (wire item)) : Writes (forM items write) (Wire.each wire items) := by
  induction items with
  | nil => exact writes_nothing
  | cons item rest ih =>
    rw [List.forM_cons]
    exact (writes item List.mem_cons_self).join (ih fun later member => writes later (List.mem_cons_of_mem _ member))

theorem finalizeEncoding_exact (writes : Writes write wire) (fits : bytes.length < sizeLimit) :
    finalizeEncoding write = .ok bytes ↔ wire = some bytes := by
  unfold finalizeEncoding
  rw [bind_ok]
  constructor
  · rintro ⟨⟨_,after⟩,written,taken⟩
    have taken : after.getBytes = .ok bytes := taken
    have buffer : after.buffer = bytes := by
      unfold RlpEncoder.getBytes at taken
      by_cases unclosed : after.listStartPositions ≠ []
      · rw [if_pos unclosed] at taken
        cases taken
      · rw [if_neg unclosed] at taken
        exact Except.ok.inj taken
    obtain ⟨found,rfl,rfl⟩ := Option.map_eq_some_iff.mp ((writes .new after (by rw [buffer]; exact fits)).mp written)
    rw [← buffer]
    rfl
  · intro same
    subst same
    exact ⟨((),RlpEncoder.new.append bytes),(writes .new _ fits).mpr rfl,rfl⟩

theorem encoded_writes {encoded : Except EncodingError (List UInt8)} {put : List UInt8 → Encoder}
    (written : ∀ bytes,bytes.length < sizeLimit → (encoded = .ok bytes ↔ wire = some bytes))
    (puts : ∀ bytes,Writes (put bytes) (form bytes))
    (longer : ∀ bytes item,form bytes = some item → bytes.length ≤ item.length) :
    Writes (do let bytes ← liftM encoded; put bytes) (wire.bind form) := by
  intro e after fits
  have run {bytes : List UInt8} (taken : encoded = .ok bytes) :
      (do let bytes ← liftM encoded; put bytes : Encoder) e = put bytes e := by
    rw [taken]
    rfl
  constructor
  · intro ran
    cases taken : encoded with
    | error error =>
      rw [taken] at ran
      cases ran
    | ok bytes =>
      rw [run taken] at ran
      obtain ⟨item,formed,rfl⟩ := Option.map_eq_some_iff.mp ((puts bytes e after fits).mp ran)
      have shorter := longer bytes item formed
      rw [append_length] at fits
      rw [(written bytes (by omega)).mp taken,Option.bind_some,formed]
      rfl
  · intro same
    obtain ⟨item,bound,rfl⟩ := Option.map_eq_some_iff.mp same
    obtain ⟨bytes,rfl,formed⟩ := Option.bind_eq_some_iff.mp bound
    have shorter := longer bytes item formed
    have room : bytes.length < sizeLimit := by rw [append_length] at fits; omega
    rw [run ((written bytes room).mpr rfl),puts bytes e _ fits,formed]
    rfl

theorem rawForm_longer (bytes item : List UInt8) (formed : (if bytes = [] then none else some bytes) = some item) :
    bytes.length ≤ item.length := by
  split_ifs at formed
  cases formed
  exact Nat.le_refl _

theorem addEncoded_writes (some : wire ≠ some [])
    (written : ∀ bytes,bytes.length < sizeLimit → (encoded = .ok bytes ↔ wire = .some bytes)) :
    Writes (addEncoded encoded) wire := by
  have same : (wire.bind fun bytes => if bytes = [] then none else .some bytes) = wire := by
    cases wire with
    | none => rfl
    | some bytes => exact if_neg fun empty => some (congrArg Option.some empty)
  exact same ▸ encoded_writes written addRawBytes_writes rawForm_longer

end EvmRelay.Rlp
