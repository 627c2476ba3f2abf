import Mathlib.Data.List.Rotate

namespace EvmRelay.FifoWindow

-- A ring that keeps the last items of a history, which lists the newest first:
-- filled from the start, and from then on the oldest item stands at the head.
structure Layout (window : Nat) (history slots : List α) (head : Nat) : Prop where
  size : slots.length = window
  inside : head < window
  filling : history.length < window → head = 0 ∧ slots.take history.length = history.reverse
  full : window ≤ history.length → slots.rotate head = (history.take window).reverse

theorem Layout.start (some : 0 < slots.length) : Layout slots.length ([] : List α) slots 0 :=
  ⟨rfl,some,fun _ => ⟨rfl,rfl⟩,fun empty => absurd empty (Nat.not_le.mpr some)⟩

variable {history slots : List α}

theorem rotate_overwrite (item : α) (inside : head < slots.length) :
    (slots.set head item).rotate ((head + 1) % slots.length) = (slots.rotate head).tail ++ [item] := by
  obtain ⟨front,old,back,rfl,rfl⟩ : ∃ front old back,slots = front ++ old :: back ∧ front.length = head :=
    ⟨slots.take head,slots.get ⟨head,inside⟩,slots.drop (head + 1),by simp,by simp; omega⟩
  have overwritten : (front ++ old :: back).set front.length item = (front ++ [item]) ++ back := by simp
  have size : (front ++ old :: back).length = ((front ++ [item]) ++ back).length := by simp
  have turned : front.length + 1 = (front ++ [item]).length := by simp
  rw [overwritten,size,List.rotate_mod,turned,List.rotate_append_length_eq,List.rotate_append_length_eq]
  simp

theorem dropLast_take_of_le (full : window ≤ history.length) : (history.take window).dropLast = history.take (window - 1) := by
  rw [List.dropLast_eq_take,List.length_take_of_le full,List.take_take,Nat.min_eq_left (Nat.sub_le _ _)]

theorem Layout.fill (layout : Layout window history slots head) (item : α) (room : history.length < window) :
    Layout window (item :: history) (slots.set history.length item) head := by
  obtain ⟨size,inside,filling,_⟩ := layout
  obtain ⟨start,filled⟩ := filling room
  have longer : (slots.set history.length item).take (history.length + 1) = (item :: history).reverse := by
    rw [List.take_add_one,List.take_set_of_le (Nat.le_refl _),filled,List.getElem?_set_self (size ▸ room)]
    simp
  refine ⟨by rw [List.length_set,size],inside,fun _ => ⟨start,longer⟩,?_⟩
  intro full
  have whole := Nat.le_antisymm room full
  rw [start,List.rotate_zero,List.take_of_length_le whole.le,← longer]
  exact (List.take_of_length_le (by rw [List.length_set,size]; exact full)).symm

theorem Layout.overwrite (layout : Layout window history slots head) (item : α) (full : window ≤ history.length) :
    Layout window (item :: history) (slots.set head item) ((head + 1) % window) := by
  obtain ⟨rfl,inside,_,ordered⟩ := layout
  have some : 0 < slots.length := Nat.zero_lt_of_lt inside
  refine ⟨List.length_set,Nat.mod_lt _ some,?_,?_⟩
  · intro room
    exact absurd (Nat.le_succ_of_le full) (Nat.not_le.mpr room)
  · intro _
    rw [rotate_overwrite item inside,ordered full,List.tail_reverse,dropLast_take_of_le full]
    obtain ⟨smaller,size⟩ := Nat.exists_eq_succ_of_ne_zero (Nat.ne_of_gt some)
    rw [size]
    simp

theorem Layout.oldest (layout : Layout window history slots head) (full : window ≤ history.length) (other : α) :
    history.take window = history.take (window - 1) ++ [slots.getD head other] := by
  obtain ⟨rfl,inside,_,ordered⟩ := layout
  have front : (slots.rotate head).head? = some (slots.getD head other) := by
    rw [List.rotate_eq_drop_append_take (Nat.le_of_lt inside)]
    simp [List.getD,inside]
  rw [ordered full,List.head?_reverse] at front
  rw [← dropLast_take_of_le full,List.dropLast_append_getLast? _ front]

-- A history in which no item stands among the `window` items before it.
inductive Spaced (window : Nat) : List α → Prop where
  | nil : Spaced window []
  | cons : item ∉ before.take window → Spaced window before → Spaced window (item :: before)

theorem Spaced.nodup (spaced : Spaced window history) : (history.take window).Nodup := by
  induction spaced with
  | nil => simp
  | @cons item history fresh _ ih =>
    cases window with
    | zero => simp
    | succ smaller =>
      have fewer : (history.take smaller).Sublist (history.take (smaller + 1)) := List.take_sublist_take_left (Nat.le_succ _)
      rw [List.take_succ_cons]
      exact List.nodup_cons.mpr ⟨fun member => fresh (fewer.mem member),fewer.nodup ih⟩

theorem Spaced.tail (spaced : Spaced window (item :: history)) : Spaced window history := by
  cases spaced with
  | cons _ before => exact before

theorem Spaced.behind (spaced : Spaced window (later ++ history)) : Spaced window history := by
  induction later with
  | nil => exact spaced
  | cons item later ih => exact ih spaced.tail

theorem Spaced.apart (spaced : Spaced window (later ++ item :: (between ++ item :: earlier))) :
    window ≤ between.length ∧ (between.take window).Nodup ∧ item ∉ between.take window := by
  cases spaced.behind with
  | cons fresh before =>
    have enough : window ≤ between.length := by
      by_contra short
      refine fresh (List.mem_iff_getElem?.mpr ⟨between.length,?_⟩)
      rw [List.getElem?_take_of_lt (Nat.lt_of_not_le short)]
      simp
    have front : (between ++ item :: earlier).take window = between.take window := List.take_append_of_le_length enough
    rw [front] at fresh
    have nodup := before.nodup
    rw [front] at nodup
    exact ⟨enough,nodup,fresh⟩

end EvmRelay.FifoWindow
