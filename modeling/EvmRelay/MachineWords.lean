import Mathlib.Data.Vector.Basic
import EvmRelay.BigEndian

namespace EvmRelay

-- size_t is 64 bits wide: sums and differences of byte counts wrap at 2^64.
def sizeLimit : Nat := 2 ^ 64
def sizeAdd (left right : Nat) : Nat := (left + right) % sizeLimit
def sizeSub (left right : Nat) : Nat := (left + (sizeLimit - right)) % sizeLimit

theorem sizeAdd_small (small : left + right < sizeLimit) : sizeAdd left right = left + right := Nat.mod_eq_of_lt small

theorem sizeAdd_wraps (leftSmall : left < sizeLimit) (rightSmall : right < sizeLimit)
    (exceeds : sizeLimit ≤ left + right) : sizeAdd left right = left + right - sizeLimit := by
  unfold sizeAdd
  rw [Nat.mod_eq_sub_mod exceeds,Nat.mod_eq_of_lt (by omega)]

theorem sizeSub_small (ordered : right ≤ left) (small : left < sizeLimit) : sizeSub left right = left - right := by
  unfold sizeSub
  have shifted : left + (sizeLimit - right) = (left - right) + sizeLimit := by omega
  rw [shifted,Nat.add_mod_right,Nat.mod_eq_of_lt (by omega)]

theorem sizeSub_wraps (under : left < right) (small : right < sizeLimit) :
    sizeSub left right = left + (sizeLimit - right) := by
  unfold sizeSub
  rw [Nat.mod_eq_of_lt (by omega)]

theorem front_fits {front back : List α} (small : (front ++ back).length < sizeLimit) : front.length < sizeLimit :=
  Nat.lt_of_le_of_lt (List.sublist_append_left front back).length_le small

theorem back_fits {front back : List α} (small : (front ++ back).length < sizeLimit) : back.length < sizeLimit :=
  Nat.lt_of_le_of_lt (List.sublist_append_right front back).length_le small

-- std::array<uint8_t, N>
abbrev FixedBytes (count : Nat) := List.Vector UInt8 count

namespace FixedBytes

def zeros (count : Nat) : FixedBytes count := List.Vector.replicate count 0

-- memcpy of a whole array from the start of some bytes. Callers check that
-- there are enough of them.
def copy (count : Nat) (source : List UInt8) : FixedBytes count :=
  ⟨(source ++ List.replicate count 0).take count,by simp⟩

def ofNat (count value : Nat) : FixedBytes count := ⟨BigEndian.fixed count value,BigEndian.fixed_length count value⟩

theorem copy_toList (array : FixedBytes count) (rest : List UInt8) : copy count (array.toList ++ rest) = array := by
  apply List.Vector.toList_injective
  simp [copy,List.Vector.toList]

end FixedBytes

def ascii (text : String) : List UInt8 := text.toList.map fun c => UInt8.ofNat c.toNat

abbrev Hash256 := FixedBytes 32
abbrev Address := FixedBytes 20

-- std::vector<T>: the element count is a size_t.
structure StdVector (α : Type) where
  items : List α
  fits : items.length < sizeLimit

theorem StdVector.ext_items {left right : StdVector α} (same : left.items = right.items) : left = right := by
  cases left; cases right; cases same; rfl

def StdVector.empty : StdVector α := ⟨[],Nat.two_pow_pos 64⟩

def StdVector.singleton (item : α) : StdVector α := ⟨[item],Nat.one_lt_two_pow (by decide)⟩

def StdVector.map (f : α → β) (vector : StdVector α) : StdVector β :=
  ⟨vector.items.map f,by rw [List.length_map]; exact vector.fits⟩

theorem StdVector.map_id (vector : StdVector α) : vector.map id = vector := StdVector.ext_items (List.map_id _)

instance [DecidableEq α] : DecidableEq (StdVector α) := fun left right =>
  decidable_of_iff (left.items = right.items) ⟨StdVector.ext_items,fun same => same ▸ rfl⟩

-- std::basic_string_view<uint8_t>, also the view a std::vector<uint8_t> gives.
structure ByteView where
  bytes : List UInt8
  fits : bytes.length < sizeLimit

namespace ByteView

def length (v : ByteView) : Nat := v.bytes.length

def removePrefix (v : ByteView) (count : Nat) : ByteView :=
  ⟨v.bytes.drop count,by have := v.fits; rw [List.length_drop]; omega⟩

def substr (v : ByteView) (position count : Nat) : ByteView :=
  ⟨(v.bytes.drop position).take count,by
    have := v.fits; rw [List.length_take,List.length_drop]; omega⟩

def empty : ByteView := ⟨[],Nat.two_pow_pos 64⟩

def toVector (v : ByteView) : StdVector UInt8 := ⟨v.bytes,v.fits⟩

def ofVector (vector : StdVector UInt8) : ByteView := ⟨vector.items,vector.fits⟩

theorem ext_bytes {v w : ByteView} (same : v.bytes = w.bytes) : v = w := by
  cases v; cases w; cases same; rfl

instance : DecidableEq ByteView := fun v w =>
  decidable_of_iff (v.bytes = w.bytes) ⟨ext_bytes,fun same => same ▸ rfl⟩

@[simp] theorem removePrefix_bytes (v : ByteView) : (v.removePrefix count).bytes = v.bytes.drop count := rfl

@[simp] theorem substr_bytes (v : ByteView) (count : Nat) :
    (v.substr position count).bytes = (v.bytes.drop position).take count := rfl

theorem removePrefix_removePrefix (v : ByteView) (second : Nat) :
    (v.removePrefix first).removePrefix second = v.removePrefix (first + second) := by
  apply ext_bytes
  simp [List.drop_drop]

theorem length_lt (v : ByteView) : v.length < sizeLimit := v.fits

@[simp] theorem removePrefix_length (v : ByteView) : (v.removePrefix count).length = v.length - count := List.length_drop

theorem removePrefix_eq {v w : ByteView} (spelled : v.bytes = front ++ w.bytes) : v.removePrefix front.length = w := by
  apply ext_bytes
  simp [spelled]

theorem exists_behind {v : ByteView} (spelled : v.bytes = front ++ back) : ∃ w : ByteView, w.bytes = back := by
  have fits := v.fits
  rw [spelled] at fits
  exact ⟨⟨back,back_fits fits⟩,rfl⟩

theorem cut (v : ByteView) (spelled : v.bytes = front ++ back) : ∃ w : ByteView, v.bytes = front ++ w.bytes ∧ w.bytes = back := by
  obtain ⟨w,rfl⟩ := exists_behind spelled
  exact ⟨w,spelled,rfl⟩

end ByteView

-- Operations either return a value, return the source's error code, or leave
-- the memory the caller handed in. The last is undefined behaviour or an
-- abort in the source, never a returned error.
inductive Failure (ε : Type) where
  | returned (error : ε)
  | outOfBounds
  deriving DecidableEq

abbrev Checked (ε α : Type) := Except (Failure ε) α

@[simp] theorem ok_bind (a : α) : (Except.ok a >>= f) = f a := rfl

theorem bind_ok {f : α → Except ε β} : (x >>= f) = .ok r ↔ ∃ a, x = .ok a ∧ f a = .ok r := by
  cases x with
  | error e =>
    refine ⟨?_,?_⟩
    · intro ran; cases ran
    · intro found; obtain ⟨_,made,_⟩ := found; cases made
  | ok a =>
    refine ⟨fun ran => ⟨a,rfl,ran⟩,?_⟩
    rintro ⟨_,made,ran⟩
    cases made
    exact ran

theorem ended_get {outcome : Except ε α} (ends : outcome.toOption.isSome = true) (other : α) :
    outcome = .ok (outcome.toOption.getD other) := by
  cases outcome with
  | error error => cases ends
  | ok value => rfl

end EvmRelay
