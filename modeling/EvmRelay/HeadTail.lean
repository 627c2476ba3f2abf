import Mathlib.Data.List.Basic

namespace EvmRelay.HeadTail

-- A sequence of parts in two sections: a slot of fixed width for each, and
-- behind all slots what did not fit in one. A slot holds the part itself or the
-- position at which it starts.
inductive Slot (β : Type) where
  | inPlace (word : List β)
  | behind (tail : List β)

def tails : List (Slot β) → List β
  | [] => []
  | .inPlace _ :: rest => tails rest
  | .behind tail :: rest => tail ++ tails rest

def heads (number : Nat → List β) : Nat → List (Slot β) → List β
  | _,[] => []
  | offset,.inPlace word :: rest => word ++ heads number offset rest
  | offset,.behind tail :: rest => number offset ++ heads number (offset + tail.length) rest

def layout (number : Nat → List β) (width : Nat) (parts : List (Slot β)) : List β :=
  heads number (parts.length * width) parts ++ tails parts

def Uniform (number : Nat → List β) (width : Nat) (parts : List (Slot β)) : Prop :=
  (∀ offset,(number offset).length = width) ∧ ∀ word,.inPlace word ∈ parts → word.length = width

theorem Uniform.tail (uniform : Uniform number width (part :: rest)) : Uniform number width rest :=
  ⟨uniform.1,fun word member => uniform.2 word (List.mem_cons_of_mem _ member)⟩

theorem heads_length (uniform : Uniform number width parts) (offset : Nat) :
    (heads number offset parts).length = parts.length * width := by
  induction parts generalizing offset with
  | nil => simp [heads]
  | cons part rest ih =>
    rw [List.length_cons,Nat.succ_mul]
    cases part with
    | inPlace word => rw [heads,List.length_append,ih uniform.tail,uniform.2 word List.mem_cons_self,Nat.add_comm]
    | behind tail => rw [heads,List.length_append,ih uniform.tail,uniform.1,Nat.add_comm]

-- Some slots are read, and the tails that belong to them lie before the next
-- offset.
def Placed (number : Nat → List β) (width : Nat) (data : List β) (slot offset : Nat) (rest : List (Slot β)) : Prop :=
  ∃ done placed,data = done ++ (heads number offset rest ++ (placed ++ tails rest)) ∧ done.length = slot * width ∧
    offset = done.length + (heads number offset rest).length + placed.length

theorem Placed.start (uniform : Uniform number width parts) :
    Placed number width (layout number width parts) 0 (parts.length * width) parts :=
  ⟨[],[],rfl,by simp,by simp [heads_length uniform]⟩

theorem Placed.word {word : List β} (placed : Placed number width data slot offset (.inPlace word :: rest))
    (fits : word.length = width) : (∃ more,data.drop (slot * width) = word ++ more) ∧ Placed number width data (slot + 1) offset rest := by
  obtain ⟨done,before,spelled,read,next⟩ := placed
  rw [heads,tails,List.append_assoc] at spelled
  rw [heads,List.length_append] at next
  refine ⟨⟨_,by rw [spelled,← read,List.drop_left]⟩,done ++ word,before,?_,?_,?_⟩
  · rw [spelled,List.append_assoc]
  · rw [List.length_append,read,fits,Nat.succ_mul]
  · rw [List.length_append]
    omega

theorem Placed.tail {tail : List β} (placed : Placed number width data slot offset (.behind tail :: rest))
    (fits : (number offset).length = width) :
    (∃ more,data.drop (slot * width) = number offset ++ more) ∧ (∃ more,data.drop offset = tail ++ more) ∧
      Placed number width data (slot + 1) (offset + tail.length) rest := by
  obtain ⟨done,before,spelled,read,next⟩ := placed
  rw [heads,tails,List.append_assoc] at spelled
  rw [heads,List.length_append] at next
  refine ⟨⟨_,by rw [spelled,← read,List.drop_left]⟩,⟨tails rest,?_⟩,done ++ number offset,before ++ tail,?_,?_,?_⟩
  · have cut : data = (done ++ (number offset ++ (heads number (offset + tail.length) rest ++ before))) ++ (tail ++ tails rest) := by
      rw [spelled]
      simp [List.append_assoc]
    rw [cut]
    apply List.drop_left'
    simp only [List.length_append]
    omega
  · rw [spelled]
    simp [List.append_assoc]
  · rw [List.length_append,read,fits,Nat.succ_mul]
  · simp only [List.length_append]
    omega

end EvmRelay.HeadTail
