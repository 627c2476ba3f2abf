import Mathlib.Data.Vector.Basic

namespace EvmRelay

-- A read position in an immutable buffer. The offset never passes the end, so
-- the unsigned difference that callers compare against cannot wrap.
structure Cursor (σ : Type) where
  data : List σ
  offset : Nat
  inside : offset ≤ data.length

namespace Cursor
variable {σ α β : Type}

def start (data : List σ) : Cursor σ := ⟨data,0,Nat.zero_le _⟩

def remaining (c : Cursor σ) : Nat := c.data.length - c.offset

def rest (c : Cursor σ) : List σ := c.data.drop c.offset

def finished (c : Cursor σ) : Bool := c.offset == c.data.length

def advance (c : Cursor σ) (count : Nat) (enough : count ≤ c.remaining) : Cursor σ :=
  ⟨c.data,c.offset + count,by have := c.inside; unfold remaining at enough; omega⟩

@[simp] theorem start_rest (data : List σ) : (start data).rest = data := rfl

@[simp] theorem rest_length (c : Cursor σ) : c.rest.length = c.remaining := by
  simp [rest,remaining]

theorem finished_iff (c : Cursor σ) : c.finished = true ↔ c.rest = [] := by
  have bound := c.inside
  simp only [finished,beq_iff_eq,rest,List.drop_eq_nil_iff]
  omega

theorem ext_rest {c d : Cursor σ} (data : c.data = d.data) (rest : c.rest = d.rest) : c = d := by
  have left := c.rest_length
  have right := d.rest_length
  rw [rest] at left
  obtain ⟨cs,i,ci⟩ := c
  obtain ⟨ds,j,dj⟩ := d
  simp only [remaining] at left right
  cases data
  have same : i = j := by omega
  cases same
  rfl

def Splits (c : Cursor σ) (bytes : List σ) (d : Cursor σ) : Prop :=
  d.data = c.data ∧ c.rest = bytes ++ d.rest

theorem advance_splits (c : Cursor σ) (count : Nat) (enough : count ≤ c.remaining) :
    c.Splits (c.rest.take count) (c.advance count enough) := by
  refine ⟨rfl,?_⟩
  simp only [rest,advance]
  rw [← List.drop_drop,List.take_append_drop]

theorem Splits.remaining (split : Splits c bytes d) : c.remaining = bytes.length + d.remaining := by
  have size := congrArg List.length split.2
  simpa using size

theorem Splits.target (left : Splits c bytes d) (right : Splits c bytes e) : d = e := by
  apply ext_rest (left.1.trans right.1.symm)
  exact List.append_cancel_left (left.2.symm.trans right.2)

theorem Splits.advance (split : Splits c bytes d) : ∃ enough, d = c.advance bytes.length enough := by
  have enough : bytes.length ≤ c.remaining := by have := split.remaining; omega
  refine ⟨enough,split.target ?_⟩
  have moved := c.advance_splits bytes.length enough
  rwa [split.2,List.take_left] at moved

theorem exists_splits (c : Cursor σ) (spelled : c.rest = bytes ++ tail) : ∃ d, c.Splits bytes d ∧ d.rest = tail := by
  have enough : bytes.length ≤ c.remaining := by
    rw [← rest_length,spelled,List.length_append]; omega
  have moved := c.advance_splits bytes.length enough
  rw [spelled,List.take_left] at moved
  exact ⟨_,moved,List.append_cancel_left (moved.2.symm.trans spelled)⟩

theorem splits_nil : Splits c [] d ↔ d = c := by
  constructor
  · intro split
    rcases split with ⟨data,rest⟩
    exact ext_rest data rest.symm
  · rintro rfl
    exact ⟨rfl,rfl⟩

theorem splits_append : Splits c (first ++ second) e ↔ ∃ d, Splits c first d ∧ Splits d second e := by
  constructor
  · intro split
    rcases split with ⟨data,spelled⟩
    rw [List.append_assoc] at spelled
    obtain ⟨d,split,tail⟩ := c.exists_splits spelled
    exact ⟨d,split,data.trans split.1.symm,tail⟩
  · intro splits
    rcases splits with ⟨d,one,two⟩
    exact ⟨two.1.trans one.1,by rw [one.2,two.2,List.append_assoc]⟩

theorem start_splits_finished {data bytes : List σ} :
    (∃ d, (start data).Splits bytes d ∧ d.finished = true) ↔ data = bytes := by
  constructor
  · intro splits
    rcases splits with ⟨d,split,done⟩
    simpa [(d.finished_iff).mp done] using split.2
  · rintro rfl
    have whole : (start data).rest = data ++ [] := by simp
    obtain ⟨d,split,tail⟩ := (start data).exists_splits whole
    exact ⟨d,split,(d.finished_iff).mpr tail⟩

-- A reader accepts exactly the writings of a value, and stops right after one.
def Exact (write : α → List σ) (read : Cursor σ → Option (α × Cursor σ)) : Prop :=
  ∀ c value d, read c = some (value,d) ↔ c.Splits (write value) d

theorem Exact.bind_some {read : Cursor σ → Option (α × Cursor σ)} (exact : Exact write read) :
    (read c).bind next = some out ↔ ∃ value d, c.Splits (write value) d ∧ next (value,d) = some out := by
  constructor
  · intro ran
    obtain ⟨⟨value,d⟩,got,after⟩ := Option.bind_eq_some_iff.mp ran
    exact ⟨value,d,(exact c value d).mp got,after⟩
  · intro read
    rcases read with ⟨value,d,split,after⟩
    exact Option.bind_eq_some_iff.mpr ⟨(value,d),(exact c value d).mpr split,after⟩

theorem Exact.bind_congr {read : Cursor σ → Option (α × Cursor σ)} {after : α → Cursor σ → Prop} (exact : Exact write read)
    (same : ∀ value d, next (value,d) = some out ↔ after value d) :
    (read c).bind next = some out ↔ ∃ value d, c.Splits (write value) d ∧ after value d := by
  simp only [exact.bind_some,same]

def take (count : Nat) (c : Cursor σ) : Option (List.Vector σ count × Cursor σ) :=
  if enough : c.remaining < count then none
  else some (⟨c.rest.take count,by rw [List.length_take,rest_length]; omega⟩,
    c.advance count (Nat.le_of_not_lt enough))

theorem take_exact (count : Nat) : Exact List.Vector.toList (take count : Cursor σ → _) := by
  intro c cells d
  constructor
  · intro got
    unfold take at got
    split_ifs at got
    cases got
    exact c.advance_splits count _
  · intro split
    have size : cells.toList.length = count := cells.2
    have enough : ¬ c.remaining < count := by have := split.remaining; omega
    obtain ⟨_,moved⟩ := split.advance
    unfold take
    rw [dif_neg enough]
    subst moved
    congr 2
    · apply Subtype.ext
      have front : c.rest.take cells.toList.length = cells.toList := by rw [split.2,List.take_left]
      rw [size] at front
      exact front
    · simp [size]

def many (read : Cursor σ → Option (α × Cursor σ)) :
    (count : Nat) → Cursor σ → Option (List.Vector α count × Cursor σ)
  | 0,c => some (.nil,c)
  | count+1,c => do
    let (value,c) ← read c
    let (values,c) ← many read count c
    return (.cons value values,c)

theorem many_exact {read : Cursor σ → Option (α × Cursor σ)} (exact : Exact write read) :
    Exact (fun values => values.toList.flatMap write) (many read count) := by
  induction count with
  | zero =>
    intro c values d
    have empty : values = .nil := Subsingleton.elim _ _
    subst empty
    simp only [many,Option.some.injEq,Prod.mk.injEq,true_and]
    exact ⟨fun same => splits_nil.mpr same.symm,fun split => (splits_nil.mp split).symm⟩
  | succ count ih =>
    intro c values d
    simp only [many,Option.bind_eq_bind,exact.bind_some,ih.bind_some,Option.pure_def,
      Option.some.injEq,Prod.mk.injEq]
    constructor
    · intro read
      rcases read with ⟨value,middle,one,tail,e,more,rfl,rfl⟩
      rw [List.Vector.toList_cons,List.flatMap_cons]
      exact splits_append.mpr ⟨middle,one,more⟩
    · intro split
      obtain ⟨head,tail,rfl⟩ : ∃ head tail, values = List.Vector.cons head tail :=
        ⟨values.head,values.tail,(List.Vector.cons_head_tail values).symm⟩
      obtain ⟨middle,one,more⟩ := splits_append.mp split
      exact ⟨head,middle,one,tail,d,more,rfl,rfl⟩

end Cursor
end EvmRelay
