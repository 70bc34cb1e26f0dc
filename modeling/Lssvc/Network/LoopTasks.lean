import Mathlib.Data.List.Perm.Basic
import Mathlib.Logic.Function.Iterate
import Lssvc.Foundation.Runs

set_option autoImplicit false

namespace Lssvc.Network

open Lssvc.Foundation

-- Where the loop's own thread is in LSSEventLoop::loop. lock_ is held while it is
-- running, front task inside or not.
inductive LoopPhase where
  | waiting
  | handling (pipe : Bool)
  | running (inside : Bool)
  | timers
  | stopped
deriving DecidableEq, Repr

variable {Task : Type}

-- The loop with its pipe, an edge of the pipe's read end that epoll_wait has not
-- reported yet, and what has been done with the tasks so far. initPipe makes the
-- pipe at the first wakeUp; before it is one nobody has written to.
structure TaskLoop (Task : Type) where
  tasks : List Task := []
  words : Nat := 0
  edge : Bool := false
  phase : LoopPhase := .waiting
  going : Bool := true
  posted : List Task := []
  completed : List Task := []
  inPlace : List Task := []
  ran : List Task := []

-- pipe_->write: a word of eight bytes, where the pipe takes it.
def TaskLoop.wakeUp (cap : Nat) (s : TaskLoop Task) : TaskLoop Task :=
  if s.words < cap then { s with words := s.words + 1, edge := true } else s

-- enqueueTask in another thread, which waits for the lock.
def TaskLoop.enqueueTask (cap : Nat) (s : TaskLoop Task) (task : Task) : TaskLoop Task :=
  match s.phase with
  | .running _ => s
  | _ => { s with tasks := s.tasks ++ [task], posted := s.posted ++ [task] }.wakeUp cap

-- enqueueTask in the loop's thread, where a handler, a task or a timer runs.
def TaskLoop.inLoopThread (s : TaskLoop Task) (task : Task) : TaskLoop Task :=
  match s.phase with
  | .handling _ | .running true | .timers => { s with inPlace := s.inPlace ++ [task], ran := s.ran ++ [task] }
  | _ => s

-- The next thing the loop's thread does. epoll_wait comes back for the pipe, or
-- for its timeout and for other descriptors.
def TaskLoop.advance (s : TaskLoop Task) (other : Bool) : TaskLoop Task :=
  match s.phase with
  | .waiting => if s.edge || other then { s with phase := .handling s.edge, edge := false } else s
  | .handling true => { s with phase := .handling false, words := s.words - 1 }
  | .handling false => { s with phase := .running false }
  | .running false =>
      match s.tasks with
      | [] => { s with phase := .timers }
      | task :: _ => { s with phase := .running true, ran := s.ran ++ [task] }
  | .running true =>
      { s with
        phase := .running false
        completed := s.completed ++ s.tasks.take 1
        tasks := s.tasks.drop 1 }
  | .timers => { s with phase := if s.going then .waiting else .stopped }
  | .stopped => s

inductive TaskEvent (Task : Type) where
  | enqueueTask (task : Task)
  | inLoopThread (task : Task)
  | advance (other : Bool)
  | quit

def taskStep (cap : Nat) (s : TaskLoop Task) : TaskEvent Task → TaskLoop Task
  | .enqueueTask task => s.enqueueTask cap task
  | .inLoopThread task => s.inLoopThread task
  | .advance other => s.advance other
  | .quit => { s with going := false }

def TaskLoop.owed (s : TaskLoop Task) : Nat :=
  (if s.edge then 1 else 0) + if s.phase = .handling true then 1 else 0

def TaskLoop.current (s : TaskLoop Task) : List Task := if s.phase = .running true then s.tasks.take 1 else []

-- A pipe that is full has an edge to report, so a write that fails loses nothing.
structure Awake (cap : Nat) (s : TaskLoop Task) : Prop where
  owed : s.owed ≤ s.words
  bounded : s.words ≤ cap
  told : s.owed = 0 → s.words < cap
  woken : s.tasks ≠ [] → (s.phase = .waiting ∨ s.phase = .timers) → s.edge = true
  inside : s.phase = .running true → s.tasks ≠ []
  order : s.completed ++ s.tasks = s.posted
  once : s.ran.Perm (s.completed ++ s.current ++ s.inPlace)

theorem start_awake (cap : Nat) (positive : 0 < cap) : Awake cap ({} : TaskLoop Task) where
  owed := Nat.le_refl _
  bounded := Nat.zero_le _
  told := fun _ => positive
  woken := fun some' => absurd rfl some'
  inside := fun impossible => by cases impossible
  order := rfl
  once := List.Perm.refl _

theorem owed_edge (s : TaskLoop Task) (owed : s.owed ≠ 0) (outside : s.phase ≠ .handling true) : s.edge = true := by
  by_contra none'
  simp [TaskLoop.owed, none', outside] at owed

theorem not_handling {phase : LoopPhase} (place : phase = .waiting ∨ phase = .timers) : phase ≠ .handling true := by
  rcases place with rfl | rfl <;> decide

theorem wake_up_awake (cap : Nat) (s : TaskLoop Task) (task : Task) (unlocked : ∀ inside, s.phase ≠ .running inside)
    (awake : Awake cap s) :
    Awake cap ({ s with tasks := s.tasks ++ [task], posted := s.posted ++ [task] }.wakeUp cap) := by
  have outside : s.phase ≠ .running true := unlocked true
  have once := awake.once
  have order : s.completed ++ (s.tasks ++ [task]) = s.posted ++ [task] := by
    rw [← List.append_assoc, awake.order]
  simp only [TaskLoop.current, outside, if_false] at once
  by_cases room : s.words < cap
  · have owed := awake.owed
    simp only [TaskLoop.wakeUp, room, if_true]
    refine ⟨?_, room, ?_, fun _ _ => rfl, fun inside => absurd inside outside, order, ?_⟩
    · simp only [TaskLoop.owed, if_true] at owed ⊢
      omega
    · simp [TaskLoop.owed]
    · simpa only [TaskLoop.current, outside, if_false] using once
  · have owed : s.owed ≠ 0 := fun none' => room (awake.told none')
    simp only [TaskLoop.wakeUp, room, if_false]
    refine ⟨awake.owed, awake.bounded, fun none' => absurd none' owed, fun _ place => ?_,
      fun inside => absurd inside outside, order, ?_⟩
    · exact owed_edge s owed (not_handling place)
    · simpa only [TaskLoop.current, outside, if_false] using once

theorem enqueue_task_awake (cap : Nat) (s : TaskLoop Task) (task : Task) (awake : Awake cap s) :
    Awake cap (s.enqueueTask cap task) := by
  rw [TaskLoop.enqueueTask]
  split
  · exact awake
  · rename_i unlocked
    exact wake_up_awake cap s task unlocked awake

theorem in_loop_thread_awake (cap : Nat) (s : TaskLoop Task) (task : Task) (awake : Awake cap s) :
    Awake cap (s.inLoopThread task) := by
  have once : (s.ran ++ [task]).Perm (s.completed ++ s.current ++ (s.inPlace ++ [task])) := by
    rw [← List.append_assoc]
    exact awake.once.append_right [task]
  have kept : Awake cap { s with inPlace := s.inPlace ++ [task], ran := s.ran ++ [task] } :=
    ⟨awake.owed, awake.bounded, awake.told, awake.woken, awake.inside, awake.order, once⟩
  rw [TaskLoop.inLoopThread]
  split
  · exact kept
  · exact kept
  · exact kept
  · exact awake

theorem wait_awake (cap : Nat) (s : TaskLoop Task) (waiting : s.phase = .waiting) (awake : Awake cap s) :
    Awake cap { s with phase := .handling s.edge, edge := false } := by
  have same : ({ s with phase := .handling s.edge, edge := false } : TaskLoop Task).owed = s.owed := by
    cases edge : s.edge <;> simp [TaskLoop.owed, waiting, edge]
  have once := awake.once
  simp only [TaskLoop.current, waiting, reduceCtorEq, if_false] at once
  refine ⟨same ▸ awake.owed, awake.bounded, fun none' => awake.told (same ▸ none'), ?_, ?_, awake.order, ?_⟩
  · simp
  · simp
  · simpa [TaskLoop.current] using once

theorem read_awake (cap : Nat) (s : TaskLoop Task) (handling : s.phase = .handling true) (awake : Awake cap s) :
    Awake cap { s with phase := .handling false, words := s.words - 1 } := by
  have owed := awake.owed
  have bounded := awake.bounded
  have once := awake.once
  simp only [TaskLoop.current, handling, reduceCtorEq, if_false] at once
  simp only [TaskLoop.owed, handling, if_true] at owed
  refine ⟨?_, Nat.le_trans (Nat.sub_le _ _) bounded, fun _ => ?_, ?_, ?_, awake.order, ?_⟩
  · simp [TaskLoop.owed]
    omega
  · change s.words - 1 < cap
    omega
  · simp
  · simp
  · simpa [TaskLoop.current] using once

theorem moved_awake (cap : Nat) (s t : TaskLoop Task) (awake : Awake cap s) (before : s.phase ≠ .handling true)
    (after : t.phase ≠ .handling true) (pipe : t.words = s.words ∧ t.edge = s.edge)
    (woken : t.tasks ≠ [] → (t.phase = .waiting ∨ t.phase = .timers) → t.edge = true)
    (inside : t.phase = .running true → t.tasks ≠ []) (order : t.completed ++ t.tasks = t.posted)
    (once : t.ran.Perm (t.completed ++ t.current ++ t.inPlace)) : Awake cap t := by
  have same : t.owed = s.owed := by simp [TaskLoop.owed, before, after, pipe]
  refine ⟨?_, ?_, ?_, woken, inside, order, once⟩
  · rw [same, pipe.1]
    exact awake.owed
  · rw [pipe.1]
    exact awake.bounded
  · rw [same, pipe.1]
    exact awake.told

theorem lock_awake (cap : Nat) (s : TaskLoop Task) (handling : s.phase = .handling false) (awake : Awake cap s) :
    Awake cap { s with phase := .running false } := by
  have once := awake.once
  apply moved_awake cap s _ awake
  · simp [handling]
  · simp
  · simp
  · simp
  · simp
  · exact awake.order
  · simpa [TaskLoop.current, handling] using once

theorem run_task_awake (cap : Nat) (s : TaskLoop Task) (running : s.phase = .running false) (awake : Awake cap s) :
    Awake cap (s.advance false) := by
  have once := awake.once
  simp only [TaskLoop.current, running, LoopPhase.running.injEq, Bool.false_eq_true, if_false, List.append_nil] at once
  rw [TaskLoop.advance, running]
  dsimp only
  split
  · rename_i none'
    apply moved_awake cap s _ awake
    · simp [running]
    · simp
    · simp
    · simp [none']
    · simp
    · exact awake.order
    · simpa [TaskLoop.current] using once
  · rename_i task rest some'
    apply moved_awake cap s _ awake
    · simp [running]
    · simp
    · simp
    · simp
    · simp [some']
    · exact awake.order
    · have middle : (s.completed ++ [task] ++ s.inPlace).Perm (s.completed ++ s.inPlace ++ [task]) := by
        rw [List.append_assoc, List.append_assoc]
        exact List.perm_append_comm.append_left s.completed
      simpa [TaskLoop.current, some'] using (once.append_right [task]).trans middle.symm

theorem complete_task_awake (cap : Nat) (s : TaskLoop Task) (running : s.phase = .running true) (awake : Awake cap s) :
    Awake cap (s.advance false) := by
  have once := awake.once
  simp only [TaskLoop.current, running, if_true] at once
  rw [TaskLoop.advance, running]
  dsimp only
  apply moved_awake cap s _ awake
  · simp [running]
  · simp
  · simp
  · simp
  · simp
  · simp only [List.append_assoc, List.take_append_drop]
    exact awake.order
  · simpa [TaskLoop.current] using once

theorem timers_awake (cap : Nat) (s : TaskLoop Task) (timers : s.phase = .timers) (awake : Awake cap s) :
    Awake cap { s with phase := if s.going then .waiting else .stopped } := by
  have once := awake.once
  have woken := awake.woken
  apply moved_awake cap s _ awake
  · simp [timers]
  · split <;> simp
  · simp
  · exact fun some' _ => woken some' (.inr timers)
  · split <;> simp
  · exact awake.order
  · cases s.going <;> simpa [TaskLoop.current, timers] using once

theorem advance_awake (cap : Nat) (s : TaskLoop Task) (other : Bool) (awake : Awake cap s) :
    Awake cap (s.advance other) := by
  rw [TaskLoop.advance]
  split
  · rename_i waiting
    split
    · exact wait_awake cap s waiting awake
    · exact awake
  · rename_i handling
    exact read_awake cap s handling awake
  · rename_i handling
    exact lock_awake cap s handling awake
  · rename_i running
    have ran := run_task_awake cap s running awake
    rw [TaskLoop.advance, running] at ran
    exact ran
  · rename_i running
    have completed := complete_task_awake cap s running awake
    rw [TaskLoop.advance, running] at completed
    exact completed
  · rename_i timers
    exact timers_awake cap s timers awake
  · exact awake

theorem task_step_awake (cap : Nat) (s : TaskLoop Task) (event : TaskEvent Task) (awake : Awake cap s) :
    Awake cap (taskStep cap s event) := by
  cases event with
  | enqueueTask task => exact enqueue_task_awake cap s task awake
  | inLoopThread task => exact in_loop_thread_awake cap s task awake
  | advance other => exact advance_awake cap s other awake
  | quit =>
      exact ⟨awake.owed, awake.bounded, awake.told, awake.woken, awake.inside, awake.order, awake.once⟩

theorem run_awake (cap : Nat) (positive : 0 < cap) (events : List (TaskEvent Task)) :
    Awake cap (run (taskStep cap) {} events) :=
  run_invariant (fun s event awake => task_step_awake cap s event awake) _ (start_awake cap positive) events

def TaskLoop.alone (s : TaskLoop Task) : TaskLoop Task := s.advance false

def TaskLoop.Going (s : TaskLoop Task) : Prop := s.phase ≠ .stopped ∧ (s.going = true ∨ s.phase ≠ .timers)

structure Finished (s after : TaskLoop Task) : Prop where
  tasks : after.tasks = []
  completed : after.completed = s.posted
  ran : after.ran.Perm (s.posted ++ s.inPlace)

theorem run_tasks (tasks : List Task) (s : TaskLoop Task) (running : s.phase = .running false) (queue : s.tasks = tasks) :
    (TaskLoop.alone^[2 * tasks.length] s).phase = .running false ∧ (TaskLoop.alone^[2 * tasks.length] s).tasks = [] := by
  induction tasks generalizing s with
  | nil => exact ⟨running, queue⟩
  | cons task tasks ih =>
      have begins : s.alone = { s with phase := .running true, ran := s.ran ++ [task] } := by
        rw [TaskLoop.alone, TaskLoop.advance, running]
        dsimp only
        rw [queue]
      have ends : s.alone.alone.phase = .running false ∧ s.alone.alone.tasks = tasks := by
        rw [begins, TaskLoop.alone, TaskLoop.advance]
        simp [queue]
      have rest := ih s.alone.alone ends.1 ends.2
      rw [List.length_cons, Nat.mul_succ, Function.iterate_add_apply]
      exact rest

theorem handling_runs (s : TaskLoop Task) (pipe : Bool) (handling : s.phase = .handling pipe) :
    ∃ n ≤ 2, (TaskLoop.alone^[n] s).phase = .running false ∧ (TaskLoop.alone^[n] s).tasks = s.tasks := by
  cases pipe with
  | false =>
      refine ⟨1, by decide, ?_⟩
      simp [TaskLoop.alone, TaskLoop.advance, handling]
  | true =>
      refine ⟨2, by decide, ?_⟩
      simp [TaskLoop.alone, TaskLoop.advance, handling]

theorem waiting_runs (s : TaskLoop Task) (waiting : s.phase = .waiting) (edge : s.edge = true) :
    ∃ n ≤ 3, (TaskLoop.alone^[n] s).phase = .running false ∧ (TaskLoop.alone^[n] s).tasks = s.tasks := by
  have wakes : s.alone = { s with phase := .handling true, edge := false } := by
    simp [TaskLoop.alone, TaskLoop.advance, waiting, edge]
  obtain ⟨n, few, phase, tasks⟩ := handling_runs s.alone true (by rw [wakes])
  refine ⟨n + 1, by omega, phase, ?_⟩
  rw [Function.iterate_succ_apply, tasks, wakes]

theorem queued_runs (cap : Nat) (s : TaskLoop Task) (awake : Awake cap s) (going : s.Going) (some' : s.tasks ≠ []) :
    ∃ n ≤ 4, (TaskLoop.alone^[n] s).phase = .running false ∧ (TaskLoop.alone^[n] s).tasks.length ≤ s.tasks.length := by
  cases phase : s.phase with
  | waiting =>
      obtain ⟨n, few, runs, tasks⟩ := waiting_runs s phase (awake.woken some' (.inl phase))
      exact ⟨n, by omega, runs, Nat.le_of_eq (congrArg List.length tasks)⟩
  | handling pipe =>
      obtain ⟨n, few, runs, tasks⟩ := handling_runs s pipe phase
      exact ⟨n, by omega, runs, Nat.le_of_eq (congrArg List.length tasks)⟩
  | running inside =>
      cases inside with
      | false => exact ⟨0, by decide, phase, Nat.le_refl _⟩
      | true =>
          refine ⟨1, by decide, ?_⟩
          simp [TaskLoop.alone, TaskLoop.advance, phase]
  | timers =>
      have goes : s.going = true := going.2.resolve_right (not_not.mpr phase)
      have turns : s.alone = { s with phase := .waiting } := by
        simp [TaskLoop.alone, TaskLoop.advance, phase, goes]
      have edge : s.alone.edge = true := by
        rw [turns]
        exact awake.woken some' (.inr phase)
      obtain ⟨n, few, runs, tasks⟩ := waiting_runs s.alone (by rw [turns]) edge
      have same : (TaskLoop.alone^[n + 1] s).tasks = s.tasks := by rw [Function.iterate_succ_apply, tasks, turns]
      exact ⟨n + 1, by omega, runs, Nat.le_of_eq (congrArg List.length same)⟩
  | stopped => exact absurd phase going.1

theorem alone_kept (n : Nat) (cap : Nat) (s : TaskLoop Task) (awake : Awake cap s) :
    Awake cap (TaskLoop.alone^[n] s) ∧ (TaskLoop.alone^[n] s).posted = s.posted ∧
      (TaskLoop.alone^[n] s).inPlace = s.inPlace := by
  induction n generalizing s with
  | zero => exact ⟨awake, rfl, rfl⟩
  | succ n ih =>
      obtain ⟨still, posted, inPlace⟩ := ih s.alone (advance_awake cap s false awake)
      have frame : s.alone.posted = s.posted ∧ s.alone.inPlace = s.inPlace := by
        rw [TaskLoop.alone, TaskLoop.advance]
        split
        · split <;> exact ⟨rfl, rfl⟩
        · exact ⟨rfl, rfl⟩
        · exact ⟨rfl, rfl⟩
        · split <;> exact ⟨rfl, rfl⟩
        · exact ⟨rfl, rfl⟩
        · exact ⟨rfl, rfl⟩
        · exact ⟨rfl, rfl⟩
      exact ⟨still, posted.trans frame.1, inPlace.trans frame.2⟩

def threePosted : List (TaskEvent Nat) := [.enqueueTask 1, .enqueueTask 2, .enqueueTask 3]

end Lssvc.Network
