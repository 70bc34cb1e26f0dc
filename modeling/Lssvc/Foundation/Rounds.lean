import Lssvc.Foundation.Runs

set_option autoImplicit false

namespace Lssvc.Foundation

variable {State Answer Event : Type}

-- A call that asks its environment in every round of a loop. It goes on where
-- the answers end before it returns.
inductive Call (State : Type) where
  | going (state : State)
  | returned (state : State)
deriving DecidableEq, Repr

def Call.state : Call State → State
  | .going state => state
  | .returned state => state

def rounds (round : State → Answer → Call State) : State → List Answer → Call State
  | state, [] => .going state
  | state, answer :: answers =>
      match round state answer with
      | .going state => rounds round state answers
      | .returned state => .returned state

def firstAnswers (answers : Nat → Answer) (count : Nat) : List Answer := (List.range count).map answers

def Returns (call : List Answer → Call State) (answers : Nat → Answer) : Prop :=
  ∃ count state, call (firstAnswers answers count) = .returned state

def Suits (Allowed : State → Answer → Prop) (call : List Answer → Call State) (answers : Nat → Answer) : Prop :=
  ∀ count state, call (firstAnswers answers count) = .going state → Allowed state (answers count)

def follow (step : State → Event → Call State) (call : Call State) (event : Event) : Call State :=
  match call with
  | .going state => .going state
  | .returned state => step state event

theorem rounds_cons_going {round : State → Answer → Call State} {state next : State} {answer : Answer}
    (answers : List Answer) (goes : round state answer = .going next) :
    rounds round state (answer :: answers) = rounds round next answers := by rw [rounds, goes]

theorem rounds_cons_returned {round : State → Answer → Call State} {state final : State} {answer : Answer}
    (answers : List Answer) (ends : round state answer = .returned final) :
    rounds round state (answer :: answers) = .returned final := by rw [rounds, ends]

theorem rounds_snoc_going {round : State → Answer → Call State} {start state : State} (past : List Answer)
    (answer : Answer) (goes : rounds round start past = .going state) :
    rounds round start (past ++ [answer]) = round state answer := by
  induction past generalizing start with
  | nil =>
      cases goes
      cases next : round state answer with
      | going next' => exact rounds_cons_going [] next
      | returned final => exact rounds_cons_returned [] next
  | cons first past ih =>
      cases next : round start first with
      | going next' =>
          rw [rounds_cons_going past next] at goes
          rw [List.cons_append, rounds_cons_going _ next]
          exact ih goes
      | returned final =>
          rw [rounds_cons_returned past next] at goes
          cases goes

theorem rounds_invariant {round : State → Answer → Call State} (Inv : State → Prop) (answers : List Answer)
    (preserved : ∀ state, ∀ answer ∈ answers, Inv state → Inv (round state answer).state) (start : State)
    (init : Inv start) : Inv (rounds round start answers).state := by
  induction answers generalizing start with
  | nil => exact init
  | cons answer answers ih =>
      have kept := preserved start answer List.mem_cons_self init
      cases next : round start answer with
      | going next' =>
          rw [rounds_cons_going answers next]
          rw [next] at kept
          exact ih (fun state other listed => preserved state other (List.mem_cons_of_mem _ listed)) next' kept
      | returned final =>
          rw [rounds_cons_returned answers next]
          rw [next] at kept
          exact kept

theorem first_answers_succ (answers : Nat → Answer) (count : Nat) :
    firstAnswers answers (count + 1) = firstAnswers answers count ++ [answers count] := by
  rw [firstAnswers, List.range_succ, List.map_append]
  rfl

theorem not_returns_iff (call : List Answer → Call State) (answers : Nat → Answer) :
    ¬ Returns call answers ↔ ∀ count, ∃ state, call (firstAnswers answers count) = .going state := by
  constructor
  · intro never count
    cases reached : call (firstAnswers answers count) with
    | going state => exact ⟨state, rfl⟩
    | returned state => exact absurd ⟨count, state, reached⟩ never
  · rintro forever ⟨count, final, ends⟩
    obtain ⟨state, goes⟩ := forever count
    cases goes.symm.trans ends

theorem rounds_prefix_going {round : State → Answer → Call State} {start state : State} (past : List Answer)
    (answer : Answer) (goes : rounds round start (past ++ [answer]) = .going state) :
    ∃ before, rounds round start past = .going before ∧ round before answer = .going state := by
  induction past generalizing start with
  | nil =>
      cases next : round start answer with
      | going next' => exact ⟨start, rfl, next.trans ((rounds_cons_going [] next).symm.trans goes)⟩
      | returned final => cases (rounds_cons_returned [] next).symm.trans goes
  | cons first past ih =>
      rw [List.cons_append] at goes
      cases next : round start first with
      | going next' =>
          rw [rounds_cons_going _ next] at goes
          obtain ⟨before, reached, last⟩ := ih goes
          exact ⟨before, (rounds_cons_going past next).trans reached, last⟩
      | returned final => cases (rounds_cons_returned _ next).symm.trans goes

section Loops

variable {round : State → Answer → Call State} {Allowed : State → Answer → Prop} {start : State} {answers : Nat → Answer}

theorem going_invariant (Inv : Nat → State → Prop) (init : Inv 0 start)
    (preserved : ∀ count state answer next, Inv count state → Allowed state answer → round state answer = .going next →
      Inv (count + 1) next)
    (suits : Suits Allowed (rounds round start) answers) (count : Nat) (state : State)
    (goes : rounds round start (firstAnswers answers count) = .going state) : Inv count state := by
  induction count generalizing state with
  | zero =>
      cases goes
      exact init
  | succ count ih =>
      rw [first_answers_succ] at goes
      obtain ⟨before, reached, last⟩ := rounds_prefix_going _ _ goes
      exact preserved count before (answers count) state (ih before reached) (suits count before reached) last

theorem returns_of_measure (Inv : State → Prop) (measure : State → Nat) (init : Inv start)
    (smaller : ∀ state answer next, Inv state → Allowed state answer → round state answer = .going next →
      Inv next ∧ measure next < measure state)
    (suits : Suits Allowed (rounds round start) answers) : Returns (rounds round start) answers := by
  by_contra never
  obtain ⟨state, goes⟩ := (not_returns_iff _ _).mp never (measure start + 1)
  have left := going_invariant (fun count state => Inv state ∧ measure state + count ≤ measure start)
    ⟨init, Nat.le_refl _⟩ (fun count state answer next held allowed goes => by
      obtain ⟨kept, less⟩ := smaller state answer next held.1 allowed goes
      exact ⟨kept, by omega⟩) suits (measure start + 1) state goes
  omega

theorem returns_of_answer (count : Nat) (ends : ∀ state next, round state (answers count) ≠ .going next) :
    Returns (rounds round start) answers := by
  by_contra never
  obtain ⟨state, goes⟩ := (not_returns_iff _ _).mp never (count + 1)
  rw [first_answers_succ] at goes
  obtain ⟨before, _, last⟩ := rounds_prefix_going _ _ goes
  exact ends before state last

theorem never_returns (Inv : State → Prop) (init : Inv start)
    (goesOn : ∀ count state, Inv state → Allowed state (answers count) →
      ∃ next, round state (answers count) = .going next ∧ Inv next)
    (suits : Suits Allowed (rounds round start) answers) : ¬ Returns (rounds round start) answers := by
  refine (not_returns_iff _ _).mpr fun count => ?_
  have both : ∃ state, rounds round start (firstAnswers answers count) = .going state ∧ Inv state := by
    induction count with
    | zero => exact ⟨start, rfl, init⟩
    | succ count ih =>
        obtain ⟨state, goes, held⟩ := ih
        obtain ⟨next, last, kept⟩ := goesOn count state held (suits count state goes)
        rw [first_answers_succ]
        exact ⟨next, (rounds_snoc_going _ _ goes).trans last, kept⟩
  obtain ⟨state, goes, _⟩ := both
  exact ⟨state, goes⟩

end Loops

theorem run_follow_going (step : State → Event → Call State) (events : List Event) (state : State) :
    run (follow step) (.going state) events = .going state := by
  induction events with
  | nil => rfl
  | cons _ _ ih => exact ih

theorem run_follow_cons (step : State → Event → Call State) (state : State) (event : Event) (events : List Event) :
    run (follow step) (.returned state) (event :: events) = run (follow step) (step state event) events := rfl

theorem run_follow_invariant {step : State → Event → Call State} (Inv : State → Prop) (events : List Event)
    (preserved : ∀ state, ∀ event ∈ events, Inv state → Inv (step state event).state) (start : State)
    (init : Inv start) : Inv (run (follow step) (.returned start) events).state := by
  induction events generalizing start with
  | nil => exact init
  | cons event events ih =>
      have kept := preserved start event List.mem_cons_self init
      rw [run_follow_cons]
      cases stepped : step start event with
      | going state =>
          rw [stepped] at kept
          rw [run_follow_going]
          exact kept
      | returned state =>
          rw [stepped] at kept
          exact ih (fun other event listed => preserved other event (List.mem_cons_of_mem _ listed)) state kept

theorem run_follow {step : State → Event → Call State} {start : State} (Inv : List Event → State → Prop)
    (init : Inv [] start)
    (preserved : ∀ past event state, Inv past state → Inv (past ++ [event]) (step state event).state)
    (events : List Event) (final : State) (returns : run (follow step) (.returned start) events = .returned final) :
    Inv events final := by
  induction events using List.reverseRecOn generalizing final with
  | nil =>
      cases returns
      exact init
  | append_singleton past event ih =>
      rw [run_append] at returns
      cases before : run (follow step) (.returned start) past with
      | going other =>
          rw [before, run_follow_going] at returns
          cases returns
      | returned other =>
          rw [before] at returns
          have stepped := preserved past event other (ih other before)
          have same : step other event = .returned final := returns
          rw [same] at stepped
          exact stepped

end Lssvc.Foundation
