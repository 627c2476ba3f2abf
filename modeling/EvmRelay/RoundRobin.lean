import Mathlib.Data.List.Flatten
import Mathlib.Data.List.Perm.Basic

namespace EvmRelay.RoundRobin
variable {α : Type u} {κ : Type v} {lane : κ → List α} {keys : List κ} {items : List α} {count : Nat}

def round (lane : κ → List α) (keys : List κ) (position : Nat) : List α := keys.flatMap fun key => (lane key)[position]?.toList

theorem round_getElem? (full : ∀ key ∈ keys,((lane key)[position]?).isSome) (i : Nat) :
    (round lane keys position)[i]? = keys[i]?.bind fun key => (lane key)[position]? := by
  induction keys generalizing i with
  | nil => rfl
  | cons key rest ih =>
    obtain ⟨item,found⟩ := Option.isSome_iff_exists.mp (full key List.mem_cons_self)
    have later := ih fun key member => full key (List.mem_cons_of_mem _ member)
    have first : round lane (key :: rest) position = item :: round lane rest position := by simp [round,found]
    rw [first]
    cases i with
    | zero => simp [found]
    | succ i => simpa using later i

def rounds (lane : κ → List α) (keys : List κ) : Nat → List α
  | 0 => []
  | count + 1 => rounds lane keys count ++ round lane keys count

theorem rounds_perm (lane : κ → List α) (keys : List κ) (count : Nat) :
    (rounds lane keys count).Perm (keys.flatMap fun key => (lane key).take count) := by
  induction count with
  | zero => simp [rounds]
  | succ count ih =>
    have split : (fun key => (lane key).take (count + 1)) = fun key => (lane key).take count ++ (lane key)[count]?.toList :=
      funext fun key => List.take_add_one
    rw [split]
    exact (ih.append_right _).trans (List.flatMap_append_perm keys _ _)

theorem rounds_sublist (lane : κ → List α) (keys : List κ) (count : Nat) :
    (keys.flatMap fun key => (lane key).take count).Sublist (keys.flatMap lane) :=
  List.Sublist.flatMap_right keys fun key _ => List.take_sublist count (lane key)

theorem rounds_whole (all : (keys.flatMap lane).length ≤ (rounds lane keys count).length) :
    (rounds lane keys count).Perm (keys.flatMap lane) := by
  have taken := rounds_perm lane keys count
  rw [taken.length_eq] at all
  rwa [(rounds_sublist lane keys count).eq_of_length_le all] at taken

theorem rounds_enough (enough : ∀ key ∈ keys,(lane key).length ≤ count) :
    (rounds lane keys count).length = (keys.flatMap lane).length := by
  have whole := List.flatMap_congr fun key member => List.take_of_length_le (enough key member)
  rw [(rounds_perm ..).length_eq,whole]

theorem rounds_first (some : 0 < count) : ∃ rest,rounds lane keys count = round lane keys 0 ++ rest := by
  induction count with
  | zero => exact absurd some (Nat.lt_irrefl 0)
  | succ count ih =>
    rcases Nat.eq_zero_or_pos count with rfl | more
    · exact ⟨[],by simp [rounds]⟩
    · obtain ⟨rest,first⟩ := ih more
      exact ⟨rest ++ round lane keys count,by rw [rounds,first,List.append_assoc]⟩

-- Where a list of that size is cut into so many bands of nearly equal size.
def cut (size count band : Nat) : Nat := size * band / count

theorem cut_zero : cut size count 0 = 0 := by simp [cut]

theorem cut_last (size : Nat) (some : 0 < count) : cut size count count = size := Nat.mul_div_cancel size some

theorem cut_mono (size count : Nat) (ordered : band ≤ later) : cut size count band ≤ cut size count later :=
  Nat.div_le_div_right (Nat.mul_le_mul_left size ordered)

theorem cut_le (size : Nat) (some : 0 < count) (inside : band ≤ count) : cut size count band ≤ size :=
  Nat.le_trans (cut_mono size count inside) (Nat.le_of_eq (cut_last size some))

theorem cut_lt (band : Nat) (some : 0 < count) (enough : count ≤ size) : cut size count band < cut size count (band + 1) := by
  unfold cut
  rw [Nat.mul_succ]
  calc
    size * band / count < size * band / count + 1 := Nat.lt_succ_self _
    _ = (size * band + count) / count := (Nat.add_div_right _ some).symm
    _ ≤ (size * band + size) / count := Nat.div_le_div_right (Nat.add_le_add_left enough _)

def band (items : List α) (count band : Nat) : List α :=
  (items.drop (cut items.length count band)).take (cut items.length count (band + 1) - cut items.length count band)

theorem band_getElem? (items : List α) (count key position : Nat) : (band items count key)[position]? =
    if cut items.length count key + position < cut items.length count (key + 1) then items[cut items.length count key + position]? else none := by
  unfold band
  rw [List.getElem?_take,List.getElem?_drop]
  exact if_congr (by omega) rfl rfl

theorem band_length_le (items : List α) (count key : Nat) : (band items count key).length ≤ items.length := by
  unfold band
  rw [List.length_take,List.length_drop]
  omega

theorem bands_whole (items : List α) (some : 0 < count) : (List.range count).flatMap (band items count) = items := by
  have front : ∀ key,(List.range key).flatMap (band items count) = items.take (cut items.length count key) := by
    intro key
    induction key with
    | zero => simp [cut_zero]
    | succ key ih =>
      have grows := cut_mono items.length count (Nat.le_add_right key 1)
      have split : cut items.length count (key + 1) = cut items.length count key +
          (cut items.length count (key + 1) - cut items.length count key) := by omega
      rw [List.range_succ,List.flatMap_append,ih,split,List.take_add]
      simp [band]
  rw [front,cut_last items.length some,List.take_length]

end EvmRelay.RoundRobin
