import Mathlib.Logic.Basic

namespace EvmRelay

-- How a session ended: its value unless it stopped early, the state it left
-- and the events it reported.
structure Session.Outcome (σ τ α : Type) where
  value : Option α
  state : σ
  events : List τ

-- A computation over a state that reports events and may stop early. A stop
-- undoes nothing: what was changed and reported before it stays.
def Session (σ τ α : Type) := σ → Session.Outcome σ τ α

namespace Session

def andThen (run : Session σ τ α) (next : α → Session σ τ β) : Session σ τ β := fun before =>
  match (run before).value with
  | none => ⟨none,(run before).state,(run before).events⟩
  | some value =>
    let after := next value (run before).state
    ⟨after.value,after.state,(run before).events ++ after.events⟩

instance : Monad (Session σ τ) where
  pure value := fun before => ⟨some value,before,[]⟩
  bind := andThen

def get : Session σ τ σ := fun before => ⟨some before,before,[]⟩

def report (event : τ) : Session σ τ Unit := fun before => ⟨some (),before,[event]⟩

def ofOption (value : Option α) : Session σ τ α := fun before => ⟨value,before,[]⟩

def attempt (run : Session σ τ α) : Session σ τ (Option α) := fun before =>
  ⟨some (run before).value,(run before).state,(run before).events⟩

def ignore (run : Session σ τ α) : Session σ τ Unit := fun before =>
  ⟨some (),(run before).state,(run before).events⟩

@[simp] theorem pure_apply : (pure value : Session σ τ α) before = ⟨some value,before,[]⟩ := rfl

@[simp] theorem attempt_apply (run : Session σ τ α) (before : σ) :
    run.attempt before = ⟨some (run before).value,(run before).state,(run before).events⟩ := rfl

@[simp] theorem get_bind (next : σ → Session σ τ β) (before : σ) :
    ((get : Session σ τ σ) >>= next) before = next before before := rfl

@[simp] theorem report_bind : ((report event : Session σ τ Unit) >>= next) before =
      ⟨(next () before).value,(next () before).state,event :: (next () before).events⟩ := rfl

@[simp] theorem pure_bind (value : α) (next : α → Session σ τ β) : ((pure value : Session σ τ α) >>= next) = next value := rfl

theorem bind_stopped {next : α → Session σ τ β} (stopped : (run before).value = none) :
    (run >>= next) before = ⟨none,(run before).state,(run before).events⟩ := by
  show andThen run next before = _
  unfold andThen
  rw [stopped]

theorem bind_continued {next : α → Session σ τ β}
    (continued : (run before).value = some value) :
    (run >>= next) before = ⟨(next value (run before).state).value,(next value (run before).state).state,
      (run before).events ++ (next value (run before).state).events⟩ := by
  show andThen run next before = _
  unfold andThen
  rw [continued]

theorem bind_ended {next : α → Session σ τ β}
    (ended : ((run >>= next) before).value = some value) :
    ∃ middle,(run before).value = some middle ∧ (next middle (run before).state).value = some value := by
  cases continued : (run before).value with
  | none =>
    rw [bind_stopped continued] at ended
    cases ended
  | some middle =>
    rw [bind_continued continued] at ended
    exact ⟨middle,rfl,ended⟩

-- What holds of every run, however it ended: a relation between the states at
-- its two ends and the events between them.
def Keeps (relation : σ → σ → List τ → Prop) (run : Session σ τ α) : Prop :=
  ∀ before,relation before (run before).state (run before).events

section keeps
variable {relation : σ → σ → List τ → Prop} (idle : ∀ state,relation state state [])
  (joined : ∀ first middle last front back,relation first middle front → relation middle last back →
    relation first last (front ++ back))
include joined

theorem keeps_bind {next : α → Session σ τ β} (kept : run.Keeps relation)
    (behind : ∀ value,(next value).Keeps relation) : (run >>= next).Keeps relation := by
  intro before
  cases continued : (run before).value with
  | none =>
    rw [bind_stopped continued]
    exact kept before
  | some value =>
    rw [bind_continued continued]
    exact joined _ _ _ _ _ (kept before) (behind value _)

include idle in
theorem keeps_fold {body : β → α → Session σ τ β} (value : β) (items : List α)
    (kept : ∀ value,∀ item ∈ items,(body value item).Keeps relation) : (items.foldlM body value).Keeps relation := by
  induction items generalizing value with
  | nil => exact idle
  | cons item rest ih =>
    rw [List.foldlM_cons]
    apply keeps_bind joined (kept value item List.mem_cons_self)
    intro reached
    exact ih reached fun value later member => kept value later (List.mem_cons_of_mem _ member)

end keeps

-- A run comes to its end exactly when all the events it reports are good ones.
def DecidedBy (good : τ → Prop) (run : Session σ τ α) : Prop :=
  ∀ before,(run before).value.isSome ↔ ∀ event ∈ (run before).events,good event

theorem decided_pure (value : α) : (pure value : Session σ τ α).DecidedBy good := by
  intro before
  simp

theorem decided_bind {next : α → Session σ τ β} (decided : run.DecidedBy good)
    (behind : ∀ value,(next value).DecidedBy good) : (run >>= next).DecidedBy good := by
  intro before
  have first := decided before
  cases continued : (run before).value with
  | none =>
    rw [continued] at first
    rw [bind_stopped continued]
    exact first
  | some value =>
    have fine := first.mp (by rw [continued]; rfl)
    rw [bind_continued continued]
    simp only [List.mem_append]
    rw [behind value (run before).state]
    refine ⟨?_,fun all event member => all event (Or.inr member)⟩
    intro all event member
    rcases member with earlier | later
    · exact fine event earlier
    · exact all event later

theorem decided_fold {body : β → α → Session σ τ β} (decided : ∀ value item,(body value item).DecidedBy good)
    (value : β) (items : List α) : (items.foldlM body value).DecidedBy good := by
  induction items generalizing value with
  | nil => exact decided_pure value
  | cons item rest ih =>
    rw [List.foldlM_cons]
    exact decided_bind (decided value item) ih

theorem mem_fold {body : β → α → Session σ τ β} {items : List α}
    (member : event ∈ ((items.foldlM body value) before).events) :
    ∃ item ∈ items,∃ reached during,event ∈ (body reached item during).events ∧
      ∀ other ∈ (body reached item during).events,other ∈ ((items.foldlM body value) before).events := by
  induction items generalizing value before with
  | nil => cases member
  | cons item rest ih =>
    rw [List.foldlM_cons] at member ⊢
    cases continued : (body value item before).value with
    | none =>
      rw [bind_stopped continued] at member ⊢
      exact ⟨item,List.mem_cons_self,value,before,member,fun _ same => same⟩
    | some reached =>
      rw [bind_continued continued] at member ⊢
      rcases List.mem_append.mp member with first | later
      · exact ⟨item,List.mem_cons_self,value,before,first,fun _ same => List.mem_append_left _ same⟩
      · obtain ⟨other,inside,round,during,found,all⟩ := ih later
        exact ⟨other,List.mem_cons_of_mem _ inside,round,during,found,
          fun _ same => List.mem_append_right _ (all _ same)⟩

end Session
end EvmRelay
