import Mathlib.Data.List.Basic

namespace EvmRelay

-- Alternatives that are tried one after the other. The first that succeeds
-- decides; if none does, the error is the one of the last.
def firstFit (attempt : α → Except ε β) : ε → List α → Except ε β
  | last,[] => .error last
  | _,choice :: rest =>
    match attempt choice with
    | .ok value => .ok value
    | .error error => firstFit attempt error rest

namespace FirstFit
variable {attempt : α → Except ε β} {last : ε} {choices others : List α} {value : β}

def Agree (attempt : α → Except ε β) (choices : List α) : Prop :=
  ∀ one ∈ choices,∀ other ∈ choices,∀ left right,attempt one = .ok left → attempt other = .ok right → left = right

theorem Agree.rest (agree : Agree attempt (choice :: choices)) : Agree attempt choices :=
  fun one inside other there => agree one (List.mem_cons_of_mem _ inside) other (List.mem_cons_of_mem _ there)

theorem Agree.perm (agree : Agree attempt choices) (same : others.Perm choices) : Agree attempt others :=
  fun one inside other there => agree one (same.mem_iff.mp inside) other (same.mem_iff.mp there)

theorem ok_iff (agree : Agree attempt choices) :
    firstFit attempt last choices = .ok value ↔ ∃ choice ∈ choices,attempt choice = .ok value := by
  induction choices generalizing last with
  | nil => simp [firstFit]
  | cons choice rest ih =>
    rw [firstFit]
    cases tried : attempt choice with
    | error error => simp [ih agree.rest,tried]
    | ok found =>
      constructor
      · intro same
        cases same
        exact ⟨choice,List.mem_cons_self,tried⟩
      · rintro ⟨other,member,fits⟩
        rw [agree choice List.mem_cons_self other member found value tried fits]

theorem toOption_some {result : Except ε β} : result.toOption = some value ↔ result = .ok value := by
  cases result <;> simp [Except.toOption]

theorem perm (agree : Agree attempt choices) (same : others.Perm choices) (left right : ε) :
    (firstFit attempt left others).toOption = (firstFit attempt right choices).toOption := by
  apply Option.ext
  intro value
  rw [toOption_some,toOption_some,ok_iff (agree.perm same),ok_iff agree]
  simp only [same.mem_iff]

end FirstFit
end EvmRelay
