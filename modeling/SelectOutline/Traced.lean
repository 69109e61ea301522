/-
SelectOutline.Traced — results together with what was reported on the
way to them.

`Traced α` is a value and a list of events; `Run α` is one that may
end in a fault. Both are monads, so a reader is written once and gives
its result and its report; `outcome` and `events` are the two views,
and the lemmas below say what sequencing does to each.
-/
import SelectOutline.Fault
import SelectOutline.Phase
import SelectOutline.Keyword.Search

namespace SelectOutline

/-! ## 1. Events -/

/-- How important an event is. -/
inductive Level where
  | trace
  | debug
  | warn
  deriving DecidableEq

/-- The name of a level. -/
def Level.name : Level → String
  | trace => "TRACE"
  | debug => "DEBUG"
  | warn => "WARN"

/-- Something that happened while a query was read. -/
inductive Event where
  /-- A search found a keyword at a position of the text it searched. -/
  | keywordFound (spelling : Text) (start : Nat)
  /-- A phase was completed and left this remainder. -/
  | phaseDone (phase : Phase) (remainder : Text)
  /-- The text from a further join keyword on was dropped. -/
  | joinsDropped (ignored : Text)
  deriving DecidableEq

namespace Event

/-- How important the event is. -/
def level : Event → Level
  | keywordFound _ _ => .trace
  | phaseDone _ _ => .debug
  | joinsDropped _ => .warn

/-- What happened, in words. -/
def message : Event → String
  | keywordFound _ _ => "keyword found"
  | phaseDone _ _ => "phase done"
  | joinsDropped _ => "only the first JOIN is kept"

/-- The event that reports a hit. -/
def ofHit (hit : Hit) : Event :=
  .keywordFound hit.keyword.spelling hit.start

end Event

/-! ## 2. Traced values -/

/-- A value and the events on the way to it. -/
structure Traced (α : Type) where
  value : α
  events : List Event

namespace Traced

/-- Events follow one another in the order of evaluation. -/
instance : Monad Traced where
  pure value := ⟨value, []⟩
  bind x f :=
    let y := f x.value
    ⟨y.value, x.events ++ y.events⟩

@[simp] theorem value_pure {α : Type} (a : α) : (pure a : Traced α).value = a := rfl

@[simp] theorem events_pure {α : Type} (a : α) : (pure a : Traced α).events = [] := rfl

@[simp] theorem value_bind {α β : Type} (x : Traced α) (f : α → Traced β) :
    (x >>= f).value = (f x.value).value := rfl

@[simp] theorem events_bind {α β : Type} (x : Traced α) (f : α → Traced β) :
    (x >>= f).events = x.events ++ (f x.value).events := rfl

/-- Sequencing is associative, and a pure value changes nothing. -/
instance : LawfulMonad Traced := LawfulMonad.mk' Traced
  (fun x => by cases x; simp [Functor.map])
  (fun _ _ => rfl)
  (fun _ _ _ => by simp [Bind.bind])

end Traced

/-- Reports one event. -/
def emit (event : Event) : Traced Unit :=
  ⟨(), [event]⟩

/-- The first hit at or after `start`, reported. -/
def search (keywords : List Keyword) (text : Text) (start : Nat) : Traced (Option Hit) :=
  let hit := Keyword.find keywords text start
  ⟨hit, (hit.map Event.ofHit).toList⟩

@[simp] theorem value_search (keywords : List Keyword) (text : Text) (start : Nat) :
    (search keywords text start).value = Keyword.find keywords text start := rfl

/-! ## 3. Runs -/

/-- A traced computation that may be refused. What was reported before
the fault is kept. -/
abbrev Run := ExceptT Fault Traced

namespace Run

/-- The result of a run, or the fault it ended in. -/
def outcome {α : Type} (run : Run α) : Except Fault α :=
  (ExceptT.run run).value

/-- What a run reported. -/
def events {α : Type} (run : Run α) : List Event :=
  (ExceptT.run run).events

@[simp] theorem outcome_pure {α : Type} (a : α) : outcome (pure a) = .ok a := rfl

@[simp] theorem events_pure {α : Type} (a : α) : events (pure a : Run α) = [] := rfl

@[simp] theorem outcome_throw {α : Type} (fault : Fault) :
    outcome (throw fault : Run α) = .error fault := rfl

@[simp] theorem events_throw {α : Type} (fault : Fault) :
    events (throw fault : Run α) = [] := rfl

/-- A traced computation inside a run cannot fail. -/
@[simp] theorem outcome_lift {α : Type} (x : Traced α) :
    outcome (liftM x : Run α) = .ok x.value := rfl

@[simp] theorem events_lift {α : Type} (x : Traced α) :
    events (liftM x : Run α) = x.events := by
  change x.events ++ [] = x.events
  exact List.append_nil _

/-- A plain result inside a run reports nothing. -/
@[simp] theorem outcome_ofExcept {α : Type} (x : Except Fault α) :
    outcome (liftM x : Run α) = x := rfl

@[simp] theorem events_ofExcept {α : Type} (x : Except Fault α) :
    events (liftM x : Run α) = [] := rfl

/-- The outcomes of runs follow one another as plain results do. -/
@[simp] theorem outcome_bind {α β : Type} (x : Run α) (f : α → Run β) :
    outcome (x >>= f) = outcome x >>= fun a => outcome (f a) := by
  change (ExceptT.run x >>= ExceptT.bindCont f).value = _
  rw [Traced.value_bind]
  unfold outcome
  cases (ExceptT.run x).value <;> rfl

@[simp] theorem outcome_map {α β : Type} (f : α → β) (x : Run α) :
    outcome (f <$> x) = (outcome x).map f := by
  rw [map_eq_pure_bind, outcome_bind]
  cases outcome x <;> rfl

/-- A run that is refused reports what it did up to the fault. -/
theorem events_bind {α β : Type} (x : Run α) (f : α → Run β) :
    events (x >>= f) = events x ++
      match outcome x with
      | .ok a => events (f a)
      | .error _ => [] := by
  change (ExceptT.run x >>= ExceptT.bindCont f).events = _
  rw [Traced.events_bind]
  unfold outcome events
  cases (ExceptT.run x).value <;> rfl

end Run

/-! ## 4. Clauses taken off a text -/

/-- A clause that was read, and the text that is left without it. -/
structure Detached (α : Type) where
  clause : α
  rest : Text

end SelectOutline
