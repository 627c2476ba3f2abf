import Mathlib.Data.UInt

namespace EvmRelay.Keystream

-- Bytes combined with a keystream from a position of it on.
def mask (stream : Nat → UInt8) : Nat → List UInt8 → List UInt8
  | _,[] => []
  | position,byte :: rest => (byte ^^^ stream position) :: mask stream (position + 1) rest

@[simp] theorem mask_length (stream : Nat → UInt8) (position : Nat) (bytes : List UInt8) :
    (mask stream position bytes).length = bytes.length := by
  induction bytes generalizing position with
  | nil => rfl
  | cons byte rest ih => simp [mask,ih]

@[simp] theorem mask_mask (stream : Nat → UInt8) (bytes : List UInt8) :
    mask stream position (mask stream position bytes) = bytes := by
  induction bytes generalizing position with
  | nil => rfl
  | cons byte rest ih => rw [mask,mask,ih,UInt8.xor_assoc,UInt8.xor_self,UInt8.xor_zero]

theorem mask_append (stream : Nat → UInt8) (front back : List UInt8) :
    mask stream position (front ++ back) = mask stream position front ++ mask stream (position + front.length) back := by
  induction front generalizing position with
  | nil => rfl
  | cons byte rest ih => simp [mask,ih,Nat.add_assoc,Nat.add_comm 1]

end EvmRelay.Keystream
