import EvmRelay.ObjectFraming

namespace EvmRelay.Codec
open Rlp RlpSpec Reader

theorem skipItem_item (item : IsItem piece) (spelled : v.bytes = piece ++ rest.bytes) : skipItem v = .ok rest := by
  obtain ⟨h,announced,width⟩ := item.announced rest.bytes
  rw [← spelled] at announced
  rw [skipItem_announced announced,width]
  exact congrArg _ (ByteView.removePrefix_eq spelled)

theorem skipOne_exact : Exact skipOne fun piece (_ : Unit) => IsItem piece := by
  intro v value rest
  constructor
  · intro ran
    obtain ⟨view,skipped,ran⟩ := bind_ok.mp ran
    cases ran
    obtain ⟨h,peeked,_⟩ := bind_ok.mp skipped
    have announced := (peekHeader_exact v h).mp peeked
    rw [skipItem_announced announced] at skipped
    cases skipped
    exact ⟨_,(List.take_append_drop _ _).symm,announced.item⟩
  · intro ⟨piece,spelled,item⟩
    exact bind_ok.mpr ⟨rest,skipItem_item item spelled,rfl⟩

theorem skipItems_iff :
    (∃ found,skipItems v = .ok found) ↔ ∃ items : List (List UInt8),v.bytes = items.flatten ∧ ∀ item ∈ items,IsItem item := by
  constructor
  · intro ⟨⟨units,rest⟩,ran⟩
    obtain ⟨pieces,all,spelled,left⟩ := readAbove_sound skipOne_exact ran
    have nothing : rest.bytes = [] := List.length_eq_zero_iff.mp (Nat.le_zero.mp left)
    refine ⟨pieces,?_,pieces_all (fun _ _ item => item) all⟩
    exact spelled.trans ((congrArg (pieces.flatten ++ ·) nothing).trans (List.append_nil _))
  · intro ⟨items,spelled,all⟩
    have enough : items.length ≤ v.length := by
      rw [ByteView.length,spelled]
      exact items_le_flatten all
    have reads : List.Forall₂ (Reads skipOne) items (items.map fun _ => ()) :=
      List.forall₂_map_right_iff.mpr (List.forall₂_same.mpr fun item member => skipOne_exact.reads (all item member))
    exact ⟨(_,.empty),readAbove_reads reads (fun item member => (all item member).nonempty) enough (spelled.trans (List.append_nil _).symm) rfl⟩

-- A field that may be missing, and whole items behind it that are only skipped.
def readOptional (read : Decoder α) (absent : γ) (pack : α → γ) : Decoder γ := fun v =>
  if isFinished v then .ok (absent,v)
  else do
    let (found,view) ← read v
    return (pack found,view)

def readTail (read : Decoder γ) : Decoder γ := do
  let value ← read
  let _ ← skipItems
  return value

theorem readTail_pack {read : Decoder α} (pack : α → γ) :
    (do let found ← read; let _ ← skipItems; return pack found : Decoder γ) v = .ok (value,rest) ↔
      ∃ found,readTail read v = .ok (found,rest) ∧ value = pack found := by
  simp only [readTail,bind_ok_iff]
  constructor
  · rintro ⟨found,after,one,units,last,two,ran⟩
    cases ran
    exact ⟨found,⟨found,after,one,units,rest,two,rfl⟩,rfl⟩
  · rintro ⟨found,⟨_,after,one,units,last,two,ran⟩,rfl⟩
    cases ran
    exact ⟨found,after,one,units,rest,two,rfl⟩

theorem readTail_iff {read : Decoder α} (exact_ : Exact read form) (whole : ∀ piece found,form piece found → IsItem piece)
    (pack : α → γ) : (∃ rest,readTail (readOptional read absent pack) v = .ok (value,rest)) ↔
      ∃ items : List (List UInt8),v.bytes = items.flatten ∧ (∀ item ∈ items,IsItem item) ∧ ((items = [] ∧ value = absent) ∨
          ∃ piece skipped found,items = piece :: skipped ∧ form piece found ∧ value = pack found) := by
  constructor
  · intro ⟨rest,ran⟩
    obtain ⟨found,view,field,ran⟩ := bind_ok_iff.mp ran
    obtain ⟨units,left,skipped,ran⟩ := bind_ok_iff.mp ran
    cases ran
    obtain ⟨others,behind,all⟩ := skipItems_iff.mp ⟨_,skipped⟩
    unfold readOptional at field
    split_ifs at field with finished
    · cases field
      exact ⟨[],(isFinished_iff v).mp finished,by simp,.inl ⟨rfl,rfl⟩⟩
    obtain ⟨⟨amount,after⟩,taken,same⟩ := bind_ok.mp field
    cases same
    obtain ⟨piece,spelled,formed⟩ := (exact_ v amount view).mp taken
    refine ⟨piece :: others,?_,?_,.inr ⟨piece,others,amount,rfl,formed,rfl⟩⟩
    · exact spelled.trans (congrArg (piece ++ ·) behind)
    · exact List.forall_mem_cons.mpr ⟨whole _ _ formed,all⟩
  · intro ⟨items,spelled,all,tail⟩
    rcases tail with ⟨rfl,rfl⟩ | ⟨piece,others,amount,rfl,formed,rfl⟩
    · cases (ByteView.ext_bytes spelled : v = .empty)
      exact ⟨.empty,rfl⟩
    obtain ⟨view,front,behind⟩ := v.cut spelled
    have field : readOptional read absent pack v = .ok (pack amount,view) := by
      unfold readOptional
      rw [if_neg ((whole _ _ formed).unfinished front)]
      exact bind_ok.mpr ⟨(amount,view),(exact_ v amount view).mpr ⟨piece,front,formed⟩,rfl⟩
    obtain ⟨⟨units,rest⟩,skipped⟩ := skipItems_iff.mpr ⟨others,behind,(List.forall_mem_cons.mp all).2⟩
    exact ⟨rest,bind_ok_iff.mpr ⟨_,view,field,bind_ok_iff.mpr ⟨_,rest,skipped,rfl⟩⟩⟩

def FeeTail (items : List (List UInt8)) (baseFee : Option (BitVec 256)) : Prop :=
  (items = [] ∧ baseFee = none) ∨
  ∃ piece skipped amount,items = piece :: skipped ∧ UnsignedForm piece amount ∧ baseFee = some amount

theorem headerTail_iff : (∃ rest,readTail readBaseFee v = .ok (baseFee,rest)) ↔
      ∃ items : List (List UInt8),v.bytes = items.flatten ∧ (∀ item ∈ items,IsItem item) ∧ FeeTail items baseFee :=
  readTail_iff (orError_exact _ readWord_exact) (fun _ _ => unsigned_item) some

theorem headerFields_items : TakesItems 15 readHeaderFields :=
  ((readFixed_items 32).orError _).bind fun _ => ((readFixed_items 32).orError _).bind fun _ =>
    ((readFixed_items 20).orError _).bind fun _ => ((readFixed_items 32).orError _).bind fun _ =>
    ((readFixed_items 32).orError _).bind fun _ => ((readFixed_items 32).orError _).bind fun _ =>
    ((readFixed_items 256).orError _).bind fun _ => (readWord_items.orError _).bind fun _ =>
    (readUint64_items.orError _).bind fun _ => (readUint64_items.orError _).bind fun _ =>
    (readUint64_items.orError _).bind fun _ => (readUint64_items.orError _).bind fun _ =>
    (readByteBuffer_items.orError _).bind fun _ => ((readFixed_items 32).orError _).bind fun _ =>
    ((readFixed_items 8).orError _).bind fun _ => .pure _

def HeaderItems (items : List (List UInt8)) (header : BlockHeader) : Prop :=
  ∃ fields tail found baseFee,items = fields ++ tail ∧ fields.length = 15 ∧ Reads readHeaderFields fields.flatten found ∧
    FeeTail tail baseFee ∧ header = { found with baseFeePerGas := baseFee }

theorem decodeBlockHeader_iff {header : BlockHeader} :
    decodeBlockHeader v = .ok header ↔ ∃ size items,v.bytes = listHeader size ++ items.flatten ∧ size ≤ items.flatten.length ∧
      (∀ item ∈ items,IsItem item) ∧ HeaderItems items header := by
  simp only [decodeBlockHeader,readFields,bind_ok,Prod.exists]
  constructor
  · rintro ⟨size,view,headed,_,rest,ran,same⟩
    cases same
    obtain ⟨found,left,fields,ran⟩ := bind_ok_iff.mp ran
    obtain ⟨baseFee,after,rfl⟩ := (readTail_pack _).mp ran
    obtain ⟨spelled,room⟩ := (readListHeaderBytes_exact ..).mp headed
    obtain ⟨taken,count,each,front,reads⟩ := headerFields_items view found left fields
    obtain ⟨tail,behind,others,formed⟩ := headerTail_iff.mp ⟨_,after⟩
    have content : view.bytes = (taken ++ tail).flatten := by rw [front,behind,List.flatten_append]
    refine ⟨size,taken ++ tail,?_,?_,?_,taken,tail,found,baseFee,rfl,count,reads,formed,rfl⟩
    · rw [spelled,content]
    · rw [← content]
      exact room
    · exact List.forall_mem_append.mpr ⟨each,others⟩
  · rintro ⟨size,items,spelled,room,all,fields,tail,found,baseFee,rfl,count,reads,formed,rfl⟩
    obtain ⟨view,headed,content⟩ := listHeader_reads spelled room
    rw [List.flatten_append] at content
    obtain ⟨left,content,behind⟩ := view.cut content
    obtain ⟨rest,ran⟩ := headerTail_iff.mpr ⟨tail,behind,(List.forall_mem_append.mp all).2,formed⟩
    refine ⟨size,view,headed,_,rest,bind_ok_iff.mpr ⟨found,left,reads view left content,?_⟩,rfl⟩
    exact (readTail_pack _).mpr ⟨baseFee,ran,rfl⟩

theorem items_begin {items content : List (List UInt8)} (all : ∀ item ∈ items,IsItem item) (each : ∀ item ∈ content,IsItem item)
    (spelled : items.flatten ++ rest = content.flatten) (small : content.flatten.length < sizeLimit) :
    ∃ more,content = items ++ more ∧ rest = more.flatten := by
  induction items generalizing content with
  | nil => exact ⟨content,rfl,spelled⟩
  | cons item items ih =>
    rw [List.flatten_cons,List.append_assoc] at spelled
    have positive := (all item List.mem_cons_self).pos
    cases content with
    | nil =>
      have lengths := congrArg List.length spelled
      simp only [List.length_append,List.flatten_nil,List.length_nil] at lengths
      omega
    | cons other content =>
      rw [← spelled] at small
      obtain ⟨rfl,behind⟩ := (all item List.mem_cons_self).same (each other List.mem_cons_self) spelled small
      obtain ⟨more,rfl,left⟩ := ih (List.forall_mem_cons.mp all).2 (List.forall_mem_cons.mp each).2 behind (behind ▸ back_fits small)
      exact ⟨more,rfl,left⟩

theorem HeaderItems.front {header : BlockHeader} (formed : HeaderItems (items ++ more) header)
    (enough : 15 < items.length ∨ items.length = 15 ∧ more = []) : HeaderItems items header := by
  obtain ⟨fields,tail,found,baseFee,cut,count,reads,fee,same⟩ := formed
  rcases enough with longer | ⟨_,rfl⟩
  · obtain ⟨others,rfl⟩ : fields <+: items :=
      List.prefix_of_prefix_length_le ⟨tail,cut.symm⟩ (List.prefix_append items more) (by omega)
    rw [List.append_assoc] at cut
    have behind := List.append_cancel_left cut
    rcases fee with ⟨rfl,_⟩ | ⟨piece,skipped,amount,rfl,form,rfl⟩
    · have lengths := congrArg List.length behind
      simp only [List.length_append,List.length_nil] at lengths longer
      omega
    cases others with
    | nil =>
      simp only [List.append_nil] at longer
      omega
    | cons first others =>
      obtain ⟨rfl,_⟩ := List.cons.inj behind
      exact ⟨fields,first :: others,found,_,rfl,count,reads,.inr ⟨first,others,amount,rfl,form,rfl⟩,same⟩
  · rw [List.append_nil] at cut
    exact ⟨fields,tail,found,baseFee,cut,count,reads,fee,same⟩

theorem HeaderItems.count {header : BlockHeader} (formed : HeaderItems items header) :
    15 ≤ items.length ∧ (items.length = 15 ↔ header.baseFeePerGas = none) := by
  obtain ⟨fields,tail,found,baseFee,rfl,count,_,fee,rfl⟩ := formed
  rw [List.length_append,count]
  rcases fee with ⟨rfl,rfl⟩ | ⟨piece,skipped,amount,rfl,_,rfl⟩
  · simp
  · simp

def HeaderShape (bytes : List UInt8) : Prop :=
  ∃ (items : List (List UInt8)) (rest : List UInt8),bytes = encodeList items.flatten ++ rest ∧ (∀ item ∈ items,IsItem item) ∧
    (15 < items.length ∨ items.length = 15 ∧ rest = [])

theorem header_inside_iff {header : BlockHeader} (decoded : decodeBlockHeader v = .ok header) :
    ReadInside decodeBlockHeader v.bytes header ↔ HeaderShape v.bytes := by
  obtain ⟨size,content,listed,room,each,formed⟩ := decodeBlockHeader_iff.mp decoded
  have fits := v.fits
  rw [listed] at fits
  have small := back_fits fits
  -- What any list in front of the view holds is the beginning of what was read.
  have begins {payload rest : List UInt8} (spelled : v.bytes = encodeList payload ++ rest) : payload ++ rest = content.flatten := by
    rw [listed,encodeList,List.append_assoc] at spelled
    exact (listHeader_same spelled room (by simp) fits).2.symm
  constructor
  · intro ⟨lead,payload,rest,spelled,leads,object,alone,read⟩
    obtain rfl : lead = [] := by
      rcases leads with rfl | ⟨type,rfl,low⟩
      · rfl
      · obtain ⟨first,after,lead,above⟩ := encodeList_first (front_fits (listHeader_cut room ▸ fits) |> encodeList_shorter)
        rw [listed,listHeader_cut room,lead] at spelled
        obtain ⟨rfl,_⟩ := List.cons.inj spelled
        exact absurd low (UInt8.not_lt.mpr above)
    obtain ⟨own,items,cut,inside,all,shaped⟩ := decodeBlockHeader_iff.mp read
    have spelled : v.bytes = encodeList payload ++ rest := spelled
    have within := object.fits
    rw [cut] at within
    rw [cut] at alone
    obtain ⟨_,rfl⟩ := listHeader_same alone inside (Nat.le_refl _) within
    obtain ⟨more,rfl,behind⟩ := items_begin all each (begins spelled) small
    refine ⟨items,rest,spelled,all,?_⟩
    obtain ⟨atLeast,fifteen⟩ := shaped.count
    rcases Nat.eq_or_lt_of_le atLeast with exactly | longer
    · have whole := formed.count.2.mpr (fifteen.mp exactly.symm)
      rw [List.length_append] at whole
      have nothing : more = [] := List.length_eq_zero_iff.mp (by omega)
      exact .inr ⟨exactly.symm,by rw [behind,nothing]; rfl⟩
    · exact .inl longer
  · intro ⟨items,rest,spelled,all,enough⟩
    obtain ⟨more,rfl,behind⟩ := items_begin all each (begins spelled) small
    have same (nothing : rest = []) : more = [] := by
      have fewer := items_le_flatten (List.forall_mem_append.mp each).2
      rw [← behind,nothing] at fewer
      exact List.length_eq_zero_iff.mp (Nat.le_zero.mp fewer)
    have shaped := formed.front (enough.imp_right fun ⟨count,nothing⟩ => ⟨count,same nothing⟩)
    obtain ⟨object,alone⟩ := object_alone (spelled.trans (List.nil_append _).symm)
    refine ⟨[],items.flatten,rest,spelled,.inl rfl,object,alone,decodeBlockHeader_iff.mpr ?_⟩
    exact ⟨_,items,alone,Nat.le_refl _,all,shaped⟩

-- An object is decoded from its own list exactly if that list holds the fields;
-- for a block header its end matters too, since anything behind it is a base
-- fee.
theorem objects_inside_iff (v : ByteView) : (∀ tx,decodeTransaction v = .ok tx → tx.type ≠ .kOpDeposit →
      (ReadInside decodeTransaction v.bytes tx ↔ ∃ lead payload rest count,v.bytes = lead ++ (encodeList payload ++ rest) ∧
        FieldCount lead count ∧ HoldsItems count payload)) ∧
    (∀ receipt,decodeReceipt v = .ok receipt → (ReadInside decodeReceipt v.bytes receipt ↔ ReceiptShape v.bytes)) ∧
    (∀ header,decodeBlockHeader v = .ok header → (ReadInside decodeBlockHeader v.bytes header ↔ HeaderShape v.bytes)) := by
  refine ⟨?_,fun _ => receipt_inside_iff,fun _ => header_inside_iff⟩
  intro tx decoded typed
  have noDeposit : ¬ ∃ more,v.bytes = TransactionType.kOpDeposit.byte :: more := by
    intro ⟨more,spelled⟩
    unfold decodeTransaction at decoded
    rw [spelled] at decoded
    cases decoded
    exact typed rfl
  have either := transaction_inside_iff decoded
  rw [TransactionInside,TransactionShape,or_iff_right noDeposit,or_iff_right noDeposit] at either
  exact either

def nineStrings : List UInt8 := List.replicate 9 0x80

def legacyList : ByteView := ⟨0xC9 :: nineStrings,by decide⟩

def legacyZeros : Transaction := { emptyTransaction .kLegacy with gasPrice := some 0 }

def receiptStrings : List (List UInt8) := [[],[],List.replicate 256 0]

def receiptList : ByteView := ⟨encodeList ((receiptStrings.map encodeString).flatten ++ encodeList []),by decide +kernel⟩

def headerStrings : List (List UInt8) :=
  [List.replicate 32 0,List.replicate 32 0,List.replicate 20 0,List.replicate 32 0,List.replicate 32 0,List.replicate 32 0,
    List.replicate 256 0,[],[],[],[],[],[],List.replicate 32 0,List.replicate 8 0]

def headerZeros : BlockHeader :=
  ⟨.zeros 32,.zeros 32,.zeros 20,.zeros 32,.zeros 32,.zeros 32,.zeros 256,0,0,0,0,0,.empty,.zeros 32,.zeros 8,none⟩

def headerList : ByteView := ⟨encodeList (headerStrings.map encodeString).flatten,by decide +kernel⟩

theorem strings_items (payloads : List (List UInt8)) : ∀ item ∈ payloads.map encodeString,IsItem item :=
  List.forall_mem_map.mpr fun payload _ => .string payload

theorem zeros_inside : ReadInside decodeTransaction legacyList.bytes legacyZeros ∧
    ReadInside decodeReceipt receiptList.bytes (.withStatus false .empty) ∧
    ReadInside decodeBlockHeader headerList.bytes headerZeros := by
  refine ⟨?_,?_,?_⟩
  · refine ((objects_inside_iff ..).1 legacyZeros (by decide +kernel) (by decide)).mpr ?_
    refine ⟨[],nineStrings,[],9,by decide,.legacy,List.replicate 9 (encodeString []),[],rfl,?_,by decide⟩
    intro item member
    rw [(List.mem_replicate.mp member).2]
    exact .string []
  · refine ((objects_inside_iff ..).2.1 (.withStatus false .empty) (by decide +kernel)).mpr ?_
    have spelled : receiptList.bytes = [] ++ (encodeList ((receiptStrings.map encodeString).flatten ++ encodeList []) ++ []) := by
      rw [List.nil_append,List.append_nil,receiptList]
    refine ⟨[],_,[],spelled,.inl rfl,receiptStrings.map encodeString ++ [encodeList []],[],rfl,?_,?_⟩
    · exact List.forall_mem_append.mpr ⟨strings_items _,List.forall_mem_singleton.mpr (.list [])⟩
    · rw [List.flatten_append,List.flatten_singleton,List.append_nil]
  · refine ((objects_inside_iff ..).2.2 headerZeros (by decide +kernel)).mpr ?_
    exact ⟨headerStrings.map encodeString,[],(List.append_nil _).symm,strings_items _,.inr ⟨rfl,rfl⟩⟩

def emptyLegacyList : ByteView := ⟨0xC0 :: nineStrings,by decide⟩

def headerListAndByte : ByteView := ⟨encodeList (headerStrings.map encodeString).flatten ++ [0x07],by decide +kernel⟩

theorem fields_behind_list :
    (decodeTransaction emptyLegacyList = .ok legacyZeros ∧ ¬ ReadInside decodeTransaction emptyLegacyList.bytes legacyZeros) ∧
    decodeBlockHeader headerListAndByte = .ok { headerZeros with baseFeePerGas := some 7 } ∧
    ¬ ReadInside decodeBlockHeader headerListAndByte.bytes { headerZeros with baseFeePerGas := some 7 } := by
  have legacy : decodeTransaction emptyLegacyList = .ok legacyZeros := by decide +kernel
  have fee : decodeBlockHeader headerListAndByte = .ok { headerZeros with baseFeePerGas := some 7 } := by decide +kernel
  refine ⟨⟨legacy,?_⟩,fee,?_⟩
  · intro inside
    rcases (transaction_inside_iff legacy).mp (.inr inside) with ⟨more,impossible⟩ | ⟨lead,payload,rest,count,spelled,counted,holds⟩
    · exact absurd (List.cons.inj impossible).1 (by decide)
    cases counted with
    | legacy =>
      have same : listHeader 0 ++ nineStrings = listHeader payload.length ++ (payload ++ rest) := by
        rw [← List.append_assoc]
        exact spelled
      obtain ⟨none,_⟩ := listHeader_same same (Nat.zero_le _) (by simp) (by decide)
      obtain ⟨items,behind,count,all,cut⟩ := holds
      rw [List.length_eq_zero_iff.mp none.symm] at cut
      have fewer := items_le_flatten all
      have lengths := congrArg List.length cut
      simp only [List.length_nil,List.length_append] at lengths
      omega
    | accessList => exact absurd (List.cons.inj spelled).1 (by decide)
    | dynamicFee => exact absurd (List.cons.inj spelled).1 (by decide)
  · intro inside
    obtain ⟨items,rest,spelled,all,enough⟩ := (header_inside_iff fee).mp inside
    have small := headerListAndByte.fits
    have same : encodeList (headerStrings.map encodeString).flatten ++ [0x07] = encodeList items.flatten ++ rest := spelled
    obtain ⟨lists,rfl⟩ := (IsItem.list _).same (.list _) same small
    have payloads := encodeList_same lists (front_fits small)
    have rows := items_same (strings_items _) all payloads (encodeList_shorter (front_fits small))
    rw [← rows] at enough
    rcases enough with longer | ⟨_,nothing⟩
    · exact absurd longer (by decide)
    · cases nothing

end EvmRelay.Codec
