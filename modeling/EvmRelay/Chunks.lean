import Mathlib.Algebra.GroupWithZero.Nat
import Mathlib.Data.List.SplitLengths
import Mathlib.Data.Nat.Find

namespace EvmRelay

section chunks
variable {α : Type u} {size : Nat} {data : List α}

def chunks (size : Nat) (data : List α) : List (List α) :=
  (List.replicate ((data.length + size - 1) / size) size).splitLengths data

theorem chunks_count (data : List α) : (chunks size data).length = (data.length + size - 1) / size := by
  simp [chunks]

theorem chunks_nil (positive : 0 < size) : chunks size ([] : List α) = [] := by
  have none : (0 + size - 1) / size = 0 := Nat.div_eq_of_lt (by omega)
  rw [chunks,List.length_nil,none]
  rfl

theorem chunks_full (positive : 0 < size) (width : front.length = size) (data : List α) :
    chunks size (front ++ data) = front :: chunks size data := by
  have more : ((front ++ data).length + size - 1) / size = (data.length + size - 1) / size + 1 := by
    rw [List.length_append,width,← Nat.add_div_right _ positive]
    congr 1
    omega
  rw [chunks,more,List.replicate_succ,List.splitLengths_cons,← width,List.take_left,List.drop_left,width,chunks]

theorem chunks_short (some : data ≠ []) (short : data.length ≤ size) : chunks size data = [data] := by
  have positive := List.length_pos_iff.mpr some
  have one : (data.length + size - 1) / size = 1 := by
    rw [show data.length + size - 1 = (data.length - 1) + size by omega,Nat.add_div_right _ (by omega),Nat.div_eq_of_lt (by omega)]
  rw [chunks,one,List.replicate_one,List.splitLengths_cons,List.take_of_length_le short]
  rfl

theorem chunks_step (positive : 0 < size) (some : data ≠ []) : chunks size data = data.take size :: chunks size (data.drop size) := by
  by_cases short : data.length ≤ size
  · rw [chunks_short some short,List.take_of_length_le short,List.drop_eq_nil_of_le short,chunks_nil positive]
  · have width : (data.take size).length = size := by rw [List.length_take]; omega
    have full := chunks_full positive width (data.drop size)
    rwa [List.take_append_drop] at full

theorem chunks_row (positive : 0 < size) (full : ∀ piece ∈ row,piece.length = size) {left : List α}
    (short : left.length < size) : chunks size (row.flatten ++ left) = row ++ if left = [] then [] else [left] := by
  induction row with
  | nil =>
    split_ifs with none
    · rw [none]
      exact chunks_nil positive
    · exact chunks_short none (Nat.le_of_lt short)
  | cons piece row ih =>
    rw [List.flatten_cons,List.append_assoc,chunks_full positive (full piece List.mem_cons_self),
      ih fun piece member => full piece (List.mem_cons_of_mem _ member)]
    rfl

theorem chunks_flatten (positive : 0 < size) : (chunks size data).flatten = data := by
  refine List.flatten_splitLengths data _ ?_
  rw [List.sum_replicate_nat]
  have ceil := Nat.lt_mul_div_succ (data.length + size - 1) positive
  rw [Nat.mul_add,Nat.mul_one,Nat.mul_comm] at ceil
  omega

theorem chunks_width (positive : 0 < size) (more : i + 1 < (chunks size data).length) :
    ((chunks size data).get ⟨i,Nat.lt_of_succ_lt more⟩).length = size := by
  rw [chunks_count] at more
  have counted : i < (List.replicate ((data.length + size - 1) / size) size).length := by
    rw [List.length_replicate]
    omega
  have inside : ((List.replicate ((data.length + size - 1) / size) size).take (i + 1)).sum ≤ data.length := by
    rw [List.take_replicate,List.sum_replicate_nat,Nat.min_eq_left (by omega)]
    have floor := Nat.div_mul_le_self (data.length + size - 1) size
    have below := Nat.mul_le_mul_right size (Nat.succ_le_of_lt more)
    rw [Nat.succ_mul] at below
    omega
  have width := List.length_splitLengths_getElem_eq data _ counted inside
  rw [List.getElem_replicate] at width
  exact width

theorem chunks_bounds (positive : 0 < size) : ∀ piece ∈ chunks size data,piece ≠ [] ∧ piece.length ≤ size := by
  induction left : data.length using Nat.strongRecOn generalizing data with
  | ind length ih =>
    subst left
    by_cases none : data = []
    · rw [none,chunks_nil positive]
      exact List.forall_mem_nil _
    have length := List.length_pos_iff.mpr none
    rw [chunks_step positive none]
    refine List.forall_mem_cons.mpr ⟨⟨List.length_pos_iff.mp ?_,List.length_take_le _ _⟩,?_⟩
    · rw [List.length_take]
      omega
    · exact ih _ (by rw [List.length_drop]; omega) rfl

end chunks

section sizes
variable {α : Type u}

theorem splitLengths_append (back : List Nat) :
    (front ++ back).splitLengths data = front.splitLengths data ++ back.splitLengths (data.drop front.sum) := by
  induction front generalizing data with
  | nil => rfl
  | cons size front ih =>
    rw [List.cons_append,List.splitLengths_cons,ih,List.splitLengths_cons,List.drop_drop,List.sum_cons]
    rfl

theorem splitLengths_get (sizes : List Nat) (i : Nat) :
    (sizes.splitLengths data)[i]? = sizes[i]?.map fun size => (data.drop (sizes.take i).sum).take size := by
  induction sizes generalizing data i with
  | nil => rfl
  | cons size sizes ih =>
    cases i with
    | zero => simp
    | succ i => simp [ih,List.drop_drop]

theorem sizes_cover (positive : ∀ i,0 < sizes i) :
    ∃ count,length ≤ ((List.range count).map sizes).sum ∧ ∀ fewer < count,((List.range fewer).map sizes).sum < length := by
  have grows (count : Nat) : count ≤ ((List.range count).map sizes).sum := by
    induction count with
    | zero => exact Nat.zero_le _
    | succ count ih =>
      have one := positive count
      simp only [List.range_succ,List.map_append,List.sum_append_nat,List.map_singleton,List.sum_singleton]
      omega
  have covered : ∃ count,length ≤ ((List.range count).map sizes).sum := ⟨length,grows length⟩
  refine ⟨Nat.find covered,Nat.find_spec covered,?_⟩
  intro fewer below
  exact Nat.lt_of_not_le (Nat.find_min covered below)

end sizes
end EvmRelay
