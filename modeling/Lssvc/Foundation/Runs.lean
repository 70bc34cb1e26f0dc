import Mathlib.Data.List.Induction

set_option autoImplicit false

namespace Lssvc.Foundation

variable {State Event Other : Type}

def run (step : State → Event → State) (start : State) (events : List Event) : State := events.foldl step start

def met (step : State → Event → State) : State → List Event → List (State × Event)
  | _, [] => []
  | state, event :: events => (state, event) :: met step (step state event) events

theorem run_append (step : State → Event → State) (start : State) (left right : List Event) :
    run step start (left ++ right) = run step (run step start left) right := List.foldl_append

theorem run_snoc (step : State → Event → State) (start : State) (past : List Event) (event : Event) :
    run step start (past ++ [event]) = step (run step start past) event := run_append step start past [event]

theorem met_append (step : State → Event → State) (start : State) (left right : List Event) :
    met step start (left ++ right) = met step start left ++ met step (run step start left) right := by
  induction left generalizing start with
  | nil => rfl
  | cons event left ih => exact congrArg _ (ih (step start event))

theorem met_iff (step : State → Event → State) (start : State) (events : List Event) (pair : State × Event) :
    pair ∈ met step start events ↔
      ∃ past rest, events = past ++ pair.2 :: rest ∧ pair.1 = run step start past := by
  induction events generalizing start with
  | nil =>
      constructor
      · intro impossible
        cases impossible
      · rintro ⟨past, rest, empty, _⟩
        cases past <;> cases empty
  | cons event events ih =>
      rw [met, List.mem_cons, ih]
      constructor
      · rintro (rfl | ⟨past, rest, rfl, same⟩)
        · exact ⟨[], events, rfl, rfl⟩
        · exact ⟨event :: past, rest, rfl, same⟩
      · rintro ⟨past, rest, cut, same⟩
        cases past with
        | nil =>
            cases cut
            exact .inl (Prod.ext same rfl)
        | cons first past =>
            cases cut
            exact .inr ⟨past, rest, rfl, same⟩

theorem each_event_nil (Asked : List Event → Event → Prop) :
    ∀ past event rest, [] = past ++ event :: rest → Asked past event := by
  intro past event rest cut
  cases past <;> cases cut

theorem each_event_snoc (Asked : List Event → Event → Prop) (events : List Event) (last : Event)
    (earlier : ∀ past event rest, events = past ++ event :: rest → Asked past event) (now : Asked events last) :
    ∀ past event rest, events ++ [last] = past ++ event :: rest → Asked past event := by
  intro past event rest cut
  rcases List.eq_nil_or_concat rest with rfl | ⟨front, final, rfl⟩
  · obtain ⟨rfl, same⟩ := List.append_inj' cut rfl
    cases same
    exact now
  · have cut' : events ++ [last] = (past ++ event :: front) ++ [final] := by simpa using cut
    exact earlier past event front (List.append_inj' cut' rfl).1

-- The invariant may speak of the events so far: the induction adds one at the end.
theorem run_history {step : State → Event → State} {start : State} (Inv : List Event → State → Prop)
    (Allowed : List Event → Event → Prop) (init : Inv [] start)
    (preserved : ∀ past event, Allowed past event → Inv past (run step start past) →
      Inv (past ++ [event]) (step (run step start past) event))
    (events : List Event) (allowed : ∀ past event rest, events = past ++ event :: rest → Allowed past event) :
    Inv events (run step start events) := by
  have prefixes : ∀ past rest, events = past ++ rest → Inv past (run step start past) := by
    intro past
    induction past using List.reverseRecOn with
    | nil => exact fun _ _ => init
    | append_singleton past event ih =>
        intro rest cut
        have whole : events = past ++ event :: rest := by simpa using cut
        rw [run_snoc]
        exact preserved past event (allowed past event rest whole) (ih (event :: rest) whole)
  exact prefixes events [] (List.append_nil events).symm

theorem run_invariant {step : State → Event → State} {Inv : State → Prop}
    (preserved : ∀ state event, Inv state → Inv (step state event)) (start : State) (init : Inv start)
    (events : List Event) : Inv (run step start events) := by
  induction events generalizing start with
  | nil => exact init
  | cons event events ih => exact ih (step start event) (preserved start event init)

theorem run_always_iff {step : State → Event → State} {start : State} (Good : State → Prop)
    (Fine : State → Event → Prop) (init : Good start) (events : List Event)
    (stepwise : ∀ past event rest, events = past ++ event :: rest →
      (Good (step (run step start past) event) ↔ Good (run step start past) ∧ Fine (run step start past) event)) :
    Good (run step start events) ↔ ∀ pair ∈ met step start events, Fine pair.1 pair.2 := by
  have prefixes : ∀ past rest, events = past ++ rest →
      (Good (run step start past) ↔ ∀ pair ∈ met step start past, Fine pair.1 pair.2) := by
    intro past
    induction past using List.reverseRecOn with
    | nil => exact fun _ _ => ⟨fun _ pair impossible => absurd impossible List.not_mem_nil, fun _ => init⟩
    | append_singleton past event ih =>
        intro rest cut
        have whole : events = past ++ event :: rest := by simpa using cut
        rw [run_snoc, stepwise past event rest whole, ih (event :: rest) whole, met_append]
        simp only [met, List.forall_mem_append, List.forall_mem_singleton]
  exact prefixes events [] (List.append_nil events).symm

theorem run_ever_iff {step : State → Event → State} {start : State} (Holds : State → Prop)
    (Brings : State → Event → Prop) (init : ¬ Holds start)
    (stepwise : ∀ past event, Holds (step (run step start past) event) ↔
      Brings (run step start past) event ∨ Holds (run step start past)) (events : List Event) :
    Holds (run step start events) ↔ ∃ pair ∈ met step start events, Brings pair.1 pair.2 := by
  induction events using List.reverseRecOn with
  | nil => exact ⟨fun holds => absurd holds init, fun ⟨_, impossible, _⟩ => absurd impossible List.not_mem_nil⟩
  | append_singleton past event ih =>
      rw [run_snoc, stepwise, ih, met_append]
      constructor
      · rintro (now | ⟨pair, inside, before⟩)
        · exact ⟨_, List.mem_append_right _ (List.mem_singleton_self _), now⟩
        · exact ⟨pair, List.mem_append_left _ inside, before⟩
      · rintro ⟨pair, inside, brings⟩
        rcases List.mem_append.mp inside with earlier | last
        · exact .inr ⟨pair, earlier, brings⟩
        · cases List.mem_singleton.mp last
          exact .inl brings

theorem run_throughout_iff {step : State → Event → State} {start : State} (Good : State → Prop)
    (Fine : State → Event → Prop) (init : Good start)
    (stepwise : ∀ past event, Good (run step start past) →
      (Good (step (run step start past) event) ↔ Fine (run step start past) event)) (events : List Event) :
    (∀ past rest, events = past ++ rest → Good (run step start past)) ↔
      ∀ pair ∈ met step start events, Fine pair.1 pair.2 := by
  constructor
  · intro good pair inside
    obtain ⟨past, rest, cut, same⟩ := (met_iff step start events pair).mp inside
    rw [same]
    refine (stepwise past pair.2 (good past _ cut)).mp ?_
    rw [← run_snoc step start past pair.2]
    exact good (past ++ [pair.2]) rest (by rw [cut, List.append_assoc]; rfl)
  · intro fine past
    induction past using List.reverseRecOn with
    | nil => exact fun _ _ => init
    | append_singleton past event ih =>
        intro rest cut
        have whole : events = past ++ event :: rest := by simpa using cut
        rw [run_snoc]
        exact (stepwise past event (ih (event :: rest) whole)).mpr
          (fine (_, event) ((met_iff step start events _).mpr ⟨past, rest, whole, rfl⟩))

theorem run_kept_iff {step : State → Event → State} {Inv Good : State → Prop} {Allowed Fine : State → Event → Prop}
    (good : ∀ state, Inv state → Good state)
    (stepwise : ∀ state event, Inv state → Allowed state event →
      (Good (step state event) → Fine state event) ∧ (Fine state event → Inv (step state event)))
    (start : State) (init : Inv start) (events : List Event)
    (allowed : ∀ pair ∈ met step start events, Allowed pair.1 pair.2) :
    (∀ past rest, events = past ++ rest → Good (run step start past)) ↔
      ∀ pair ∈ met step start events, Fine pair.1 pair.2 := by
  induction events generalizing start with
  | nil =>
      refine ⟨fun _ pair impossible => absurd impossible List.not_mem_nil, fun _ past rest cut => ?_⟩
      rw [(List.append_eq_nil_iff.mp cut.symm).1]
      exact good start init
  | cons event events ih =>
      obtain ⟨allowedNow, allowedLater⟩ := List.forall_mem_cons.mp allowed
      obtain ⟨needed, kept⟩ := stepwise start event init allowedNow
      rw [met, List.forall_mem_cons]
      constructor
      · intro throughout
        have fine := needed (throughout [event] events rfl)
        exact ⟨fine, (ih _ (kept fine) allowedLater).mp fun past rest cut =>
          throughout (event :: past) rest (congrArg _ cut)⟩
      · rintro ⟨fine, later⟩ past rest cut
        cases past with
        | nil => exact good start init
        | cons first past =>
            cases cut
            exact (ih _ (kept fine) allowedLater).mpr later past rest rfl

def Since (step : State → Event → State) (start : State) (made broken : State → Event → Prop)
    (past : List Event) : Prop :=
  ∃ before event after, past = before ++ event :: after ∧ made (run step start before) event ∧
    ∀ pair ∈ met step (run step start (before ++ [event])) after, ¬ broken pair.1 pair.2

theorem since_snoc (step : State → Event → State) (start : State) (made broken : State → Event → Prop)
    (past : List Event) (event : Event) :
    Since step start made broken (past ++ [event]) ↔
      made (run step start past) event ∨
        (Since step start made broken past ∧ ¬ broken (run step start past) event) := by
  constructor
  · rintro ⟨before, first, after, cut, makes, unbroken⟩
    rcases List.eq_nil_or_concat after with rfl | ⟨front, last, rfl⟩
    · obtain ⟨rfl, same⟩ := List.append_inj' cut rfl
      cases same
      exact .inl makes
    · rw [List.concat_eq_append] at cut unbroken
      rw [← List.cons_append, ← List.append_assoc] at cut
      obtain ⟨rfl, same⟩ := List.append_inj' cut rfl
      cases same
      have whole : run step start (before ++ first :: front) =
          run step (run step start (before ++ [first])) front := by
        rw [← run_append, List.append_assoc]
        rfl
      refine .inr ⟨⟨before, first, front, rfl, makes, ?_⟩, ?_⟩
      · intro pair inFront
        refine unbroken pair ?_
        rw [met_append]
        exact List.mem_append_left _ inFront
      · refine unbroken (_, event) ?_
        rw [met_append, ← whole]
        exact List.mem_append_right _ (List.mem_singleton_self _)
  · rintro (makes | ⟨⟨before, first, after, rfl, makes, unbroken⟩, kept⟩)
    · refine ⟨past, event, [], rfl, makes, ?_⟩
      intro pair impossible
      cases impossible
    · refine ⟨before, first, after ++ [event], by simp, makes, ?_⟩
      intro pair inAfter
      rw [met_append, List.mem_append] at inAfter
      rcases inAfter with earlier | last
      · exact unbroken pair earlier
      · rw [← run_append, List.append_assoc] at last
        cases List.mem_singleton.mp last
        exact kept

theorem since_iff {step : State → Event → State} {start : State} {made broken : State → Event → Prop}
    (Holds : State → Prop) (init : ¬ Holds start)
    (stepwise : ∀ past event, Holds (step (run step start past) event) ↔
      made (run step start past) event ∨ (Holds (run step start past) ∧ ¬ broken (run step start past) event))
    (past : List Event) : Holds (run step start past) ↔ Since step start made broken past := by
  induction past using List.reverseRecOn with
  | nil =>
      refine ⟨fun holds => absurd holds init, ?_⟩
      rintro ⟨before, event, after, cut, _⟩
      cases before <;> cases cut
  | append_singleton past event ih => rw [run_snoc, stepwise, since_snoc, ih]

end Lssvc.Foundation
