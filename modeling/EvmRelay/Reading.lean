import Mathlib.Data.List.Forall2

namespace EvmRelay

-- What readers read from: it shows a list of symbols and nothing else, and every
-- end piece of it can be had on its own.
class Input (σ : Type) (β : outParam Type) where
  symbols : σ → List β
  ext : symbols v = symbols w → v = w
  behind : symbols v = front ++ back → ∃ w,symbols w = back

abbrev Reader (σ ε α : Type) := StateT σ (Except ε) α

namespace Reader
open Input

theorem bind_ok_iff {read : Reader σ ε α} :
    (read >>= next) v = .ok (value,rest) ↔ ∃ found view,read v = .ok (found,view) ∧ next found view = .ok (value,rest) := by
  show (read v >>= fun step => next step.1 step.2) = _ ↔ _
  cases read v with
  | error error =>
    refine ⟨?_,?_⟩
    · intro ran
      cases ran
    · rintro ⟨_,_,wrong,_⟩
      cases wrong
  | ok step =>
    refine ⟨fun ran => ⟨step.1,step.2,rfl,ran⟩,?_⟩
    rintro ⟨_,_,same,ran⟩
    cases same
    exact ran

theorem bind_of_ok {read : Reader σ ε α} (ran : read v = .ok (found,rest)) : (read >>= next) v = next found rest := by
  show (read v >>= fun result => next result.1 result.2) = _
  rw [ran]
  rfl

section reads
variable {σ β ε α γ : Type} [Input σ β]

-- On every input that starts with these symbols, the reader takes just them and
-- returns the value.
def Reads (read : Reader σ ε α) (taken : List β) (value : α) : Prop :=
  ∀ v rest,symbols v = taken ++ symbols rest → read v = .ok (value,rest)

-- The reader accepts what starts with a piece of this form, and takes the piece.
def Exact (read : Reader σ ε α) (form : List β → α → Prop) : Prop :=
  ∀ v value rest,read v = .ok (value,rest) ↔ ∃ piece,symbols v = piece ++ symbols rest ∧ form piece value

theorem Exact.reads {read : Reader σ ε α} (exact_ : Exact read form) (formed : form piece value) : Reads read piece value :=
  fun v rest spelled => (exact_ v value rest).mpr ⟨piece,spelled,formed⟩

theorem Reads.pure (value : α) : Reads (pure value : Reader σ ε α) [] value := by
  intro v rest spelled
  rw [ext spelled]
  rfl

theorem Reads.bind {read : Reader σ ε α} (first : Reads read front found) (second : Reads (next found) back value) :
    Reads (read >>= next) (front ++ back) value := by
  intro v rest spelled
  rw [List.append_assoc] at spelled
  obtain ⟨view,behind⟩ := behind spelled
  rw [← behind] at spelled
  exact bind_ok_iff.mpr ⟨found,view,first v view spelled,second view rest behind⟩

theorem Reads.map {read : Reader σ ε α} (pack : α → γ) (reads : Reads read taken found) :
    Reads (do let value ← read; Pure.pure (pack value)) taken (pack found) := by
  intro v rest spelled
  exact bind_ok_iff.mpr ⟨found,rest,reads v rest spelled,rfl⟩

theorem Exact.same {read : Reader σ ε α} (exact_ : Exact read form) {v back rest : σ}
    (one : symbols v = piece ++ symbols back) (formed : form piece value)
    (two : symbols v = other ++ symbols rest) (alike : form other found) : piece = other ∧ value = found ∧ back = rest := by
  have left := exact_.reads formed v back one
  rw [exact_.reads alike v rest two] at left
  cases left
  exact ⟨List.append_cancel_right (one.symm.trans two),rfl,rfl⟩

theorem Exact.bind {read : Reader σ ε α}
    {follows : α → List β → γ → Prop} (first : Exact read form) (second : ∀ found,Exact (next found) (follows found)) :
    Exact (read >>= next) fun piece value => ∃ front back found,piece = front ++ back ∧ form front found ∧ follows found back value := by
  intro v value rest
  rw [bind_ok_iff]
  constructor
  · rintro ⟨found,view,one,two⟩
    obtain ⟨front,spelled,formed⟩ := (first v found view).mp one
    obtain ⟨back,behind,followed⟩ := (second found view value rest).mp two
    refine ⟨front ++ back,?_,front,back,found,rfl,formed,followed⟩
    rw [spelled,behind,List.append_assoc]
  · rintro ⟨_,spelled,front,back,found,rfl,formed,followed⟩
    exact bind_ok_iff.mp (((first.reads formed).bind ((second found).reads followed)) v rest spelled)

theorem Exact.map {read : Reader σ ε α} (exact_ : Exact read form) (pack : α → γ) :
    Exact (do let value ← read; Pure.pure (pack value)) fun piece value => ∃ found,form piece found ∧ pack found = value := by
  intro v value rest
  rw [bind_ok_iff]
  constructor
  · rintro ⟨found,view,one,two⟩
    cases two
    obtain ⟨piece,spelled,formed⟩ := (exact_ v found rest).mp one
    exact ⟨piece,spelled,found,formed,rfl⟩
  · rintro ⟨piece,spelled,found,formed,rfl⟩
    exact ⟨found,rest,exact_.reads formed v rest spelled,rfl⟩

theorem Exact.of_iff {read : Reader σ ε α} (exact_ : Exact read form)
    (same : ∀ piece value,form piece value ↔ other piece value) : Exact read other := by
  have forms : form = other := funext fun piece => funext fun value => propext (same piece value)
  exact forms ▸ exact_

-- The loop that reads one value after the other as long as more than `target`
-- symbols are left. Where every round takes something, the input's length is
-- enough fuel.
def readAbove (stuck : ε) (read : Reader σ ε α) (target : Nat) : Nat → Reader σ ε (List α)
  | 0 => do if target < (symbols (← get)).length then throw stuck else return []
  | fuel + 1 => do
    if target < (symbols (← get)).length then
      let value ← read
      let more ← readAbove stuck read target fuel
      return value :: more
    else return []

variable {stuck : ε} {read : Reader σ ε α} {target fuel : Nat} {v : σ}

theorem readAbove_done (done : ¬ target < (symbols v).length) : readAbove stuck read target fuel v = .ok ([],v) := by
  cases fuel with
  | zero =>
    show (if target < (symbols v).length then _ else _ : Reader σ ε (List α)) v = _
    rw [if_neg done]
    rfl
  | succ fuel =>
    show (if target < (symbols v).length then _ else _ : Reader σ ε (List α)) v = _
    rw [if_neg done]
    rfl

theorem readAbove_more (more : target < (symbols v).length) : readAbove stuck read target (fuel + 1) v =
    (do let value ← read; let rest ← readAbove stuck read target fuel; Pure.pure (value :: rest) : Reader σ ε (List α)) v := by
  show (if target < (symbols v).length then _ else _ : Reader σ ε (List α)) v = _
  rw [if_pos more]

theorem readAbove_stuck (more : target < (symbols v).length) : readAbove stuck read target 0 v = .error stuck := by
  show (if target < (symbols v).length then _ else _ : Reader σ ε (List α)) v = _
  rw [if_pos more]
  rfl

theorem readAbove_reads (reads : List.Forall₂ (Reads read) pieces values) (some : ∀ piece ∈ pieces,piece ≠ [])
    (enough : pieces.length ≤ fuel) (spelled : symbols v = pieces.flatten ++ symbols rest)
    (left : (symbols rest).length = target) : readAbove stuck read target fuel v = .ok (values,rest) := by
  induction reads generalizing fuel v with
  | nil =>
    rw [ext spelled]
    exact readAbove_done (by omega)
  | @cons piece value pieces values one _ ih =>
    cases fuel with
    | zero => simp at enough
    | succ fuel =>
      have positive := List.length_pos_iff.mpr (some piece List.mem_cons_self)
      rw [List.flatten_cons,List.append_assoc] at spelled
      have longer : target < (symbols v).length := by
        rw [spelled,List.length_append,List.length_append]
        omega
      obtain ⟨view,behind⟩ := behind spelled
      rw [← behind] at spelled
      have later := ih (fun piece member => some piece (List.mem_cons_of_mem _ member)) (by simpa using enough) behind
      rw [readAbove_more longer]
      exact bind_ok_iff.mpr ⟨value,view,one v view spelled,bind_ok_iff.mpr ⟨values,rest,later,rfl⟩⟩

theorem readAbove_returned (ran : readAbove stuck read target fuel v = .ok (values,rest)) :
    (¬ target < (symbols v).length ∧ values = [] ∧ rest = v) ∨
    ∃ less value view more,target < (symbols v).length ∧ fuel = less + 1 ∧ values = value :: more ∧ read v = .ok (value,view) ∧
      readAbove stuck read target less view = .ok (more,rest) := by
  by_cases longer : target < (symbols v).length
  · cases fuel with
    | zero =>
      rw [readAbove_stuck longer] at ran
      cases ran
    | succ less =>
      rw [readAbove_more longer] at ran
      obtain ⟨value,view,one,ran⟩ := bind_ok_iff.mp ran
      obtain ⟨more,_,later,ran⟩ := bind_ok_iff.mp ran
      cases ran
      exact .inr ⟨less,value,view,more,longer,rfl,rfl,one,later⟩
  · rw [readAbove_done longer] at ran
    cases ran
    exact .inl ⟨longer,rfl,rfl⟩

-- The rule for what a loop returns: it holds where the loop stops, and a round
-- more keeps it.
theorem readAbove_rule (holds : Nat → σ → List α → σ → Prop) (done : ∀ fuel v,¬ target < (symbols v).length → holds fuel v [] v)
    (round : ∀ fuel v value view values rest,read v = .ok (value,view) → holds fuel view values rest →
      holds (fuel + 1) v (value :: values) rest)
    (ran : readAbove stuck read target fuel v = .ok (values,rest)) : holds fuel v values rest := by
  induction fuel generalizing v values with
  | zero =>
    rcases readAbove_returned ran with ⟨stopped,rfl,rfl⟩ | ⟨_,_,_,_,_,impossible,_⟩
    · exact done 0 rest stopped
    · cases impossible
  | succ fuel ih =>
    rcases readAbove_returned ran with ⟨stopped,rfl,rfl⟩ | ⟨less,value,view,more,_,fuels,rfl,one,later⟩
    · exact done (fuel + 1) rest stopped
    · cases fuels
      exact round fuel v value view more rest one (ih later)

theorem readAbove_sound (exact_ : Exact read form) (ran : readAbove stuck read target fuel v = .ok (values,rest)) :
    ∃ pieces,List.Forall₂ form pieces values ∧ symbols v = pieces.flatten ++ symbols rest ∧
      (symbols rest).length ≤ target := by
  refine readAbove_rule (fun _ v values rest => ∃ pieces,List.Forall₂ form pieces values ∧
    symbols v = pieces.flatten ++ symbols rest ∧ (symbols rest).length ≤ target) (fun fuel v stopped => ?_) ?_ ran
  · exact ⟨[],.nil,rfl,Nat.le_of_not_lt stopped⟩
  · intro fuel v value view values rest one ⟨pieces,all,behind,left⟩
    obtain ⟨piece,spelled,formed⟩ := (exact_ v value view).mp one
    refine ⟨piece :: pieces,.cons formed all,?_,left⟩
    rw [spelled,behind,List.flatten_cons,List.append_assoc]

theorem readAbove_nothing (ran : readAbove stuck read target fuel v = .ok ([],rest)) : (symbols v).length ≤ target := by
  rcases readAbove_returned ran with ⟨stopped,_⟩ | ⟨_,_,_,_,_,_,impossible,_⟩
  · exact Nat.le_of_not_lt stopped
  · cases impossible

theorem readAbove_pieces
    (takes : ∀ piece ∈ pieces,∀ v after value left,symbols v = piece ++ symbols after → read v = .ok (value,left) →
      left = after ∧ form piece value) (some : ∀ piece ∈ pieces,piece ≠ []) (enough : target ≤ (symbols back).length)
    (spelled : symbols v = pieces.flatten ++ symbols back) (ran : readAbove stuck read target fuel v = .ok (values,rest)) :
    ∃ firsts more fuel,values = firsts ++ more ∧ List.Forall₂ form pieces firsts ∧
      readAbove stuck read target fuel back = .ok (more,rest) := by
  induction pieces generalizing v values fuel with
  | nil =>
    cases ext spelled
    exact ⟨[],values,fuel,rfl,.nil,ran⟩
  | cons piece pieces ih =>
    have positive := List.length_pos_iff.mpr (some piece List.mem_cons_self)
    rw [List.flatten_cons,List.append_assoc] at spelled
    have longer : target < (symbols v).length := by
      rw [spelled,List.length_append,List.length_append]
      omega
    rcases readAbove_returned ran with ⟨stopped,_⟩ | ⟨less,value,view,more,_,_,rfl,one,later⟩
    · exact absurd longer stopped
    obtain ⟨after,behind⟩ := behind spelled
    rw [← behind] at spelled
    obtain ⟨rfl,formed⟩ := takes piece List.mem_cons_self v after value view spelled one
    obtain ⟨firsts,others,left,rfl,all,ended⟩ := ih (fun piece member => takes piece (List.mem_cons_of_mem _ member))
      (fun piece member => some piece (List.mem_cons_of_mem _ member)) behind later
    exact ⟨value :: firsts,others,left,rfl,.cons formed all,ended⟩

theorem readAbove_length (ran : readAbove stuck read target fuel v = .ok (values,rest)) : values.length ≤ fuel :=
  readAbove_rule (fun fuel _ values _ => values.length ≤ fuel) (fun _ _ _ => Nat.zero_le _)
    (fun _ _ _ _ _ _ _ fewer => Nat.succ_le_succ fewer) ran

-- A reader that takes something whenever it succeeds.
def Advances (read : Reader σ ε α) : Prop :=
  ∀ v value rest,read v = .ok (value,rest) → (symbols rest).length < (symbols v).length

theorem Exact.advances (exact_ : Exact read form)
    (some : ∀ piece value,form piece value → piece ≠ []) : Advances read := by
  intro v value rest ran
  obtain ⟨piece,spelled,formed⟩ := (exact_ v value rest).mp ran
  have positive := List.length_pos_iff.mpr (some piece value formed)
  rw [spelled,List.length_append]
  omega

-- The loop as it runs, with the rounds it makes and no bound on their number. A
-- read that fails ends it.
inductive Rounds (read : Reader σ ε α) (target : Nat) : σ → Nat → Except ε (List α × σ) → Prop where
  | done : ¬ target < (symbols here).length → Rounds read target here 0 (.ok ([],here))
  | failed : target < (symbols here).length → read here = .error error → Rounds read target here 1 (.error error)
  | more : target < (symbols here).length → read here = .ok (value,view) → Rounds read target view count outcome →
      Rounds read target here (count + 1) (outcome.map fun found => (value :: found.1,found.2))

theorem readAbove_rounds (advances : Advances read) (enough : (symbols v).length ≤ fuel) :
    ∃ count,count ≤ (symbols v).length - target ∧ Rounds read target v count (readAbove stuck read target fuel v) := by
  induction fuel generalizing v with
  | zero =>
    have done : ¬ target < (symbols v).length := by omega
    rw [readAbove_done done]
    exact ⟨0,Nat.zero_le _,.done done⟩
  | succ fuel ih =>
    by_cases longer : target < (symbols v).length
    · rw [readAbove_more longer]
      cases one : read v with
      | error error =>
        have ended : (do let value ← read; let rest ← readAbove stuck read target fuel; Pure.pure (value :: rest) :
            Reader σ ε (List α)) v = .error error := by
          show (read v >>= _) = _
          rw [one]
          rfl
        rw [ended]
        exact ⟨1,by omega,.failed longer one⟩
      | ok step =>
        obtain ⟨value,view⟩ := step
        have shorter := advances v value view one
        obtain ⟨count,few,rounds⟩ := ih (v := view) (by omega)
        have went : (do let value ← read; let rest ← readAbove stuck read target fuel; Pure.pure (value :: rest) :
            Reader σ ε (List α)) v = (readAbove stuck read target fuel view).map fun found => (value :: found.1,found.2) := by
          show (read v >>= _) = _
          rw [one]
          show (readAbove stuck read target fuel view >>= _) = _
          cases readAbove stuck read target fuel view with
          | error error => rfl
          | ok found => rfl
        rw [went]
        exact ⟨count + 1,by omega,.more longer one rounds⟩
    · rw [readAbove_done longer]
      exact ⟨0,Nat.zero_le _,.done longer⟩

theorem Rounds.same (one : Rounds read target v count outcome) (two : Rounds read target v other found) : outcome = found := by
  induction one generalizing other found with
  | done stopped =>
    cases two with
    | done => rfl
    | failed longer => exact absurd longer stopped
    | more longer => exact absurd longer stopped
  | failed longer refused =>
    cases two with
    | done stopped => exact absurd longer stopped
    | failed _ error => exact congrArg _ (Except.error.inj (refused.symm.trans error))
    | more _ ran => cases refused.symm.trans ran
  | more longer ran _ ih =>
    cases two with
    | done stopped => exact absurd longer stopped
    | failed _ refused => cases refused.symm.trans ran
    | more _ again later =>
      cases ran.symm.trans again
      rw [ih later]

end reads
end Reader
end EvmRelay
