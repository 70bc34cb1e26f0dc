import Lssvc.Network.WheelFaults

set_option autoImplicit false

namespace Lssvc.Network

open Lssvc.Foundation

-- A max_time for which insertEntry takes the second wheel.
structure IdleTime where
  seconds : Nat
  some' : 0 < seconds
  short : seconds < kTimingMinute

-- A connection with its wheel. The wheel's second wheel has the entries of the
-- others; `held` tells which of the same slots have a reference to this
-- connection's TimeoutEntry: a set of pointers has it once or not at all.
-- `destroyed` has tick_ at each run of ~TimeoutEntry, `activity` at each read
-- or write since enableCheckIdleTimeout.
structure IdleConnection where
  program : WheelProgram
  maxIdleTime : IdleTime
  held : List Bool := List.replicate 60 false
  destroyed : List Nat := []
  enabled : Nat
  activity : List Nat := []

def IdleConnection.insertEntry (c : IdleConnection) : IdleConnection :=
  { c with held := c.held.set (c.maxIdleTime.seconds - 1) true }

def WheelProgram.enableCheckIdleTimeout (p : WheelProgram) (maxTime : IdleTime) : IdleConnection :=
  { program := p, maxIdleTime := maxTime, enabled := p.wheel.tick : IdleConnection }.insertEntry

-- timeout_entry_ can be locked while the wheel holds a reference.
def IdleConnection.extendLife (c : IdleConnection) : IdleConnection :=
  if true ∈ c.held then c.insertEntry else c

-- onRead and onWrite.
def IdleConnection.active (c : IdleConnection) : IdleConnection :=
  { c.extendLife with activity := c.activity ++ [c.program.wheel.tick] }

def IdleConnection.closes (c : IdleConnection) : Bool :=
  decide (c.held.headD false = true ∧ true ∉ c.held.tail ++ [false])

def IdleConnection.popUp (c : IdleConnection) : IdleConnection :=
  { c with
    held := c.held.tail ++ [false]
    destroyed := if c.closes then c.destroyed ++ [c.program.wheel.tick] else c.destroyed }

inductive IdleEvent where
  | activity
  | other (event : ProgramEvent)
deriving DecidableEq, Repr

def IdleConnection.follow (c : IdleConnection) (event : ProgramEvent) (p : WheelProgram) : IdleConnection :=
  if c.program.BeginsTick event then { c with program := p }.popUp else { c with program := p }

-- The loop handles no read and no write while onTimer runs.
def IdleConnection.step (order : SetOrder) (c : IdleConnection) : IdleEvent → Except WheelFault IdleConnection
  | .activity => .ok (if c.program.running = none then c.active else c)
  | .other event => (c.program.step order c.closes event).map (c.follow event)

def idleStep (order : SetOrder) (state : Except WheelFault IdleConnection) (event : IdleEvent) :
    Except WheelFault IdleConnection :=
  state.bind fun c => c.step order event

-- The last read or write that no full idle time came before.
def lastActivity (idle enabled : Nat) (activity : List Nat) : Nat :=
  activity.foldl (fun last tick => if tick < last + idle then tick else last) enabled

def IdleConnection.last (c : IdleConnection) : Nat := lastActivity c.maxIdleTime.seconds c.enabled c.activity

def IdleConnection.ClosedOnTime (c : IdleConnection) : Prop :=
  c.destroyed =
    if c.last + c.maxIdleTime.seconds ≤ c.program.wheel.tick then [c.last + c.maxIdleTime.seconds] else []

def OnTime (state : Except WheelFault IdleConnection) : Prop := ∃ c, state = .ok c ∧ c.ClosedOnTime

def DefinedAt (state : Except WheelFault IdleConnection) : IdleEvent → Prop
  | .activity => True
  | .other event => ∀ c, state = .ok c → Defined c.closes c.program event

structure Farthest (held : List Bool) (last : Nat) : Prop where
  here : held[last]? = some true
  behind : ∀ index, held[index]? = some true → index ≤ last

theorem farthest_held {held : List Bool} {last : Nat} (farthest : Farthest held last) : true ∈ held :=
  List.mem_of_getElem? farthest.here

theorem farthest_put {held : List Bool} {place : Nat} (inside : place < held.length)
    (before : ∀ index, held[index]? = some true → index ≤ place) : Farthest (held.set place true) place := by
  refine ⟨List.getElem?_set_self inside, fun index found => ?_⟩
  by_cases same : place = index
  · exact Nat.le_of_eq same.symm
  · rw [List.getElem?_set_ne same] at found
    exact before index found

theorem turned_at (held : List Bool) (index : Nat) (found : (held.tail ++ [false])[index]? = some true) :
    held[index + 1]? = some true := by
  rw [List.getElem?_append] at found
  split at found
  · rwa [List.getElem?_tail] at found
  · cases place : index - held.tail.length with
    | zero =>
        rw [place] at found
        cases found
    | succ place' =>
        rw [place] at found
        cases found

theorem farthest_turn {held : List Bool} {last : Nat} (farthest : Farthest held (last + 1)) :
    Farthest (held.tail ++ [false]) last := by
  have here : held.tail[last]? = some true := by
    rw [List.getElem?_tail]
    exact farthest.here
  refine ⟨?_, fun index found => Nat.le_of_succ_le_succ (farthest.behind _ (turned_at held index found))⟩
  rw [List.getElem?_append_left (List.getElem?_eq_some_iff.mp here).1]
  exact here

theorem farthest_front {held : List Bool} (farthest : Farthest held 0) :
    held.headD false = true ∧ true ∉ held.tail ++ [false] := by
  constructor
  · rw [List.headD_eq_head?_getD, List.head?_eq_getElem?, farthest.here]
    rfl
  · intro held'
    obtain ⟨index, found⟩ := List.mem_iff_getElem?.mp held'
    exact absurd (farthest.behind _ (turned_at held index found)) (Nat.not_succ_le_zero index)

theorem turned_empty {held : List Bool} (none' : true ∉ held) :
    held.headD false ≠ true ∧ true ∉ held.tail ++ [false] := by
  cases held with
  | nil => decide
  | cons front held =>
      rw [List.mem_cons, not_or] at none'
      refine ⟨fun same => none'.1 same.symm, ?_⟩
      rw [List.tail_cons, List.mem_append, not_or]
      exact ⟨none'.2, by decide⟩

theorem last_activity_snoc (idle enabled : Nat) (activity : List Nat) (tick : Nat) :
    lastActivity idle enabled (activity ++ [tick]) =
      if tick < lastActivity idle enabled activity + idle then tick else lastActivity idle enabled activity := by
  rw [lastActivity, List.foldl_append]
  rfl

-- Until the idle time has passed, the reference farthest from the front is the one
-- of the last activity; afterwards there is none.
structure IdleSound (id : Nat) (c : IdleConnection) : Prop where
  running : Running id c.program
  size : c.held.length = 60
  since : c.last ≤ c.program.wheel.tick
  waits : ¬ c.last + c.maxIdleTime.seconds ≤ c.program.wheel.tick →
    Farthest c.held (c.last + c.maxIdleTime.seconds - c.program.wheel.tick - 1) ∧ c.destroyed = []
  gone : c.last + c.maxIdleTime.seconds ≤ c.program.wheel.tick →
    true ∉ c.held ∧ c.destroyed = [c.last + c.maxIdleTime.seconds]

theorem idle_sound_on_time {id : Nat} {c : IdleConnection} (sound : IdleSound id c) : c.ClosedOnTime := by
  rw [IdleConnection.ClosedOnTime]
  by_cases late : c.last + c.maxIdleTime.seconds ≤ c.program.wheel.tick
  · rw [if_pos late]
    exact (sound.gone late).2
  · rw [if_neg late]
    exact (sound.waits late).2

theorem insert_farthest (c : IdleConnection) (size : c.held.length = 60)
    (before : ∀ index, c.held[index]? = some true → index ≤ c.maxIdleTime.seconds - 1) :
    c.insertEntry.held.length = 60 ∧ Farthest c.insertEntry.held (c.maxIdleTime.seconds - 1) := by
  have short := c.maxIdleTime.short
  rw [kTimingMinute] at short
  exact ⟨List.length_set.trans size, farthest_put (by omega) before⟩

theorem enable_sound {id : Nat} {p : WheelProgram} (running : Running id p) (maxTime : IdleTime) :
    IdleSound id (p.enableCheckIdleTimeout maxTime) := by
  have some' := maxTime.some'
  have last : (p.enableCheckIdleTimeout maxTime).last = p.wheel.tick := rfl
  have tick : (p.enableCheckIdleTimeout maxTime).program.wheel.tick = p.wheel.tick := rfl
  have idle : (p.enableCheckIdleTimeout maxTime).maxIdleTime = maxTime := rfl
  obtain ⟨size, farthest⟩ := insert_farthest
    { program := p, maxIdleTime := maxTime, enabled := p.wheel.tick } List.length_replicate fun index found => by
      cases List.eq_of_mem_replicate (List.mem_of_getElem? found)
  have place : p.wheel.tick + maxTime.seconds - p.wheel.tick - 1 = maxTime.seconds - 1 := by omega
  refine ⟨running, size, Nat.le_of_eq last, fun _ => ⟨?_, rfl⟩, fun late => ?_⟩
  · rw [last, tick, idle, place]
    exact farthest
  · rw [last, tick, idle] at late
    omega

theorem extend_life_kept (c : IdleConnection) :
    c.extendLife.program = c.program ∧ c.extendLife.maxIdleTime = c.maxIdleTime ∧ c.extendLife.enabled = c.enabled ∧
      c.extendLife.destroyed = c.destroyed := by
  rw [IdleConnection.extendLife]
  split <;> exact ⟨rfl, rfl, rfl, rfl⟩

theorem active_last (c : IdleConnection) :
    c.active.last = if c.program.wheel.tick < c.last + c.maxIdleTime.seconds then c.program.wheel.tick else c.last := by
  obtain ⟨_, idle, enabled, _⟩ := extend_life_kept c
  rw [IdleConnection.last, IdleConnection.active]
  dsimp only
  rw [idle, enabled]
  exact last_activity_snoc ..

theorem active_sound {id : Nat} {c : IdleConnection} (sound : IdleSound id c) : IdleSound id c.active := by
  have some' := c.maxIdleTime.some'
  obtain ⟨program, idle, _, destroyed⟩ := extend_life_kept c
  have program' : c.active.program = c.program := program
  have idle' : c.active.maxIdleTime = c.maxIdleTime := idle
  have destroyed' : c.active.destroyed = c.destroyed := destroyed
  have held : c.active.held = c.extendLife.held := rfl
  have last := active_last c
  by_cases late : c.last + c.maxIdleTime.seconds ≤ c.program.wheel.tick
  · obtain ⟨none', closed⟩ := sound.gone late
    rw [if_neg (Nat.not_lt.mpr late)] at last
    have kept : c.active.held = c.held := by rw [held, IdleConnection.extendLife, if_neg none']
    refine ⟨by rw [program']; exact sound.running, by rw [kept]; exact sound.size, ?_, ?_, ?_⟩
    · rw [last, program']
      exact sound.since
    · rw [last, program', idle']
      exact fun early => absurd late early
    · rw [last, program', idle', kept, destroyed']
      exact sound.gone
  · obtain ⟨farthest, living⟩ := sound.waits late
    rw [if_pos (Nat.lt_of_not_le late)] at last
    have kept : c.active.held = c.insertEntry.held := by
      rw [held, IdleConnection.extendLife, if_pos (farthest_held farthest)]
    obtain ⟨size, put⟩ := insert_farthest c sound.size fun index found => by
      have bound := farthest.behind index found
      have since := sound.since
      omega
    have place : c.program.wheel.tick + c.maxIdleTime.seconds - c.program.wheel.tick - 1 = c.maxIdleTime.seconds - 1 := by omega
    refine ⟨by rw [program']; exact sound.running, by rw [kept]; exact size, ?_, ?_, ?_⟩
    · have same : c.active.last = c.active.program.wheel.tick := by rw [last, program']
      exact Nat.le_of_eq same
    · rw [last, program', idle', kept, destroyed', place]
      exact fun _ => ⟨put, living⟩
    · rw [last, program', idle']
      exact fun late => absurd late (by omega)

theorem same_tick_sound {id : Nat} {c : IdleConnection} (sound : IdleSound id c) (p : WheelProgram)
    (running : Running id p) (tick : p.wheel.tick = c.program.wheel.tick) : IdleSound id { c with program := p } := by
  have last : IdleConnection.last { c with program := p } = c.last := rfl
  refine ⟨running, sound.size, ?_, ?_, ?_⟩
  · rw [last, tick]
    exact sound.since
  · rw [last, tick]
    exact sound.waits
  · rw [last, tick]
    exact sound.gone

theorem closes_iff (c : IdleConnection) :
    c.closes = true ↔ c.held.headD false = true ∧ true ∉ c.held.tail ++ [false] := decide_eq_true_iff

theorem pop_up_sound {id : Nat} {c : IdleConnection} (sound : IdleSound id c) (p : WheelProgram)
    (running : Running id p) (tick : p.wheel.tick = c.program.wheel.tick + 1) :
    IdleSound id (IdleConnection.popUp { c with program := p }) := by
  have last : (IdleConnection.popUp { c with program := p }).last = c.last := rfl
  have idle : (IdleConnection.popUp { c with program := p }).maxIdleTime = c.maxIdleTime := rfl
  have held : (IdleConnection.popUp { c with program := p }).held = c.held.tail ++ [false] := rfl
  have destroyed : (IdleConnection.popUp { c with program := p }).destroyed =
      if c.closes then c.destroyed ++ [p.wheel.tick] else c.destroyed := rfl
  have tick' : (IdleConnection.popUp { c with program := p }).program.wheel.tick = c.program.wheel.tick + 1 := tick
  have since := sound.since
  have size : (c.held.tail ++ [false]).length = 60 := by
    rw [List.length_append, List.length_tail, sound.size]
    rfl
  rw [tick] at destroyed
  refine ⟨running, by rw [held]; exact size, by rw [last, tick']; omega, ?_, ?_⟩
  · rw [last, tick', idle, held, destroyed]
    intro early
    obtain ⟨farthest, living⟩ := sound.waits (by omega)
    have place : c.last + c.maxIdleTime.seconds - c.program.wheel.tick - 1 =
        c.last + c.maxIdleTime.seconds - (c.program.wheel.tick + 1) - 1 + 1 := by omega
    rw [place] at farthest
    have turned := farthest_turn farthest
    rw [if_neg fun gone => ((closes_iff c).mp gone).2 (farthest_held turned)]
    exact ⟨turned, living⟩
  · rw [last, tick', idle, held, destroyed]
    intro late
    by_cases past : c.last + c.maxIdleTime.seconds ≤ c.program.wheel.tick
    · obtain ⟨none', closed⟩ := sound.gone past
      obtain ⟨front, empty⟩ := turned_empty none'
      rw [if_neg fun gone => front ((closes_iff c).mp gone).1]
      exact ⟨empty, closed⟩
    · obtain ⟨farthest, living⟩ := sound.waits past
      have now : c.last + c.maxIdleTime.seconds = c.program.wheel.tick + 1 := by omega
      rw [now, Nat.add_sub_cancel_left] at farthest
      have gone := farthest_front farthest
      rw [if_pos ((closes_iff c).mpr gone), living, now]
      exact ⟨gone.2, rfl⟩

theorem follow_sound {id : Nat} {c : IdleConnection} (order : SetOrder) (sound : IdleSound id c) (event : ProgramEvent)
    (foreign : ¬ Names id event) (p : WheelProgram) (stepped : c.program.step order c.closes event = .ok p) :
    IdleSound id (c.follow event p) := by
  have running := step_running order c.closes sound.running event foreign stepped
  have tick := step_tick order c.closes sound.running event foreign stepped
  rw [IdleConnection.follow]
  by_cases begins : c.program.BeginsTick event
  · rw [if_pos begins] at tick ⊢
    exact pop_up_sound sound p running tick
  · rw [if_neg begins] at tick ⊢
    exact same_tick_sound sound p running tick

def Foreign (id : Nat) : IdleEvent → Prop
  | .activity => True
  | .other event => ¬ Names id event

def Watched (id : Nat) (state : Except WheelFault IdleConnection) : Prop := ∃ c, state = .ok c ∧ IdleSound id c

theorem watched_on_time (id : Nat) (state : Except WheelFault IdleConnection) (watched : Watched id state) :
    OnTime state := by
  obtain ⟨c, same, sound⟩ := watched
  exact ⟨c, same, idle_sound_on_time sound⟩

theorem idle_step (order : SetOrder) (id : Nat) (state : Except WheelFault IdleConnection) (event : IdleEvent)
    (sound : Watched id state) (foreign : Foreign id event) :
    (OnTime (idleStep order state event) → DefinedAt state event) ∧
      (DefinedAt state event → Watched id (idleStep order state event)) := by
  obtain ⟨c, rfl, sound⟩ := sound
  cases event with
  | activity =>
      refine ⟨fun _ => trivial, fun _ => ⟨_, rfl, ?_⟩⟩
      split
      · exact active_sound sound
      · exact sound
  | other event =>
      have decided := step_ok_iff order c.closes sound.running event foreign
      have stepped : idleStep order (.ok c) (.other event) =
          (c.program.step order c.closes event).map (c.follow event) := rfl
      constructor
      · rintro ⟨next, ok, _⟩ c' same
        cases same
        refine decided.mp ?_
        rw [stepped] at ok
        cases result : c.program.step order c.closes event with
        | ok p => exact ⟨p, rfl⟩
        | error fault =>
            rw [result] at ok
            cases ok
      · intro defined
        obtain ⟨p, ok⟩ := decided.mpr (defined c rfl)
        refine ⟨c.follow event p, ?_, follow_sound order sound event foreign p ok⟩
        rw [stepped, ok]
        rfl

def otherEvents : List IdleEvent → List ProgramEvent :=
  List.filterMap fun
    | .activity => none
    | .other event => some event

def idleRun (order : SetOrder) (p : WheelProgram) (maxTime : IdleTime) (events : List IdleEvent) :
    Except WheelFault IdleConnection :=
  run (idleStep order) (.ok (p.enableCheckIdleTimeout maxTime)) events

theorem idle_timeout_iff (order : SetOrder) (before : List ProgramEvent) (p : WheelProgram)
    (reached : run (programStep order) (.ok .fresh) before = .ok p) (maxTime : IdleTime) (events : List IdleEvent) :
    (∀ past rest, events = past ++ rest → OnTime (idleRun order p maxTime past)) ↔
      ∀ pair ∈ met (idleStep order) (.ok (p.enableCheckIdleTimeout maxTime)) events, DefinedAt pair.1 pair.2 := by
  obtain ⟨id, new⟩ := fresh_id (before ++ otherEvents events)
  obtain ⟨newBefore, newOther⟩ := List.forall_mem_append.mp new
  have running := (run_foreign order id before newBefore p reached).1
  have foreign : ∀ event ∈ events, Foreign id event := by
    intro event listed
    cases event with
    | activity => trivial
    | other event => exact newOther event (List.mem_filterMap.mpr ⟨_, listed, rfl⟩)
  have allowed : ∀ pair ∈ met (idleStep order) (.ok (p.enableCheckIdleTimeout maxTime)) events, Foreign id pair.2 := by
    intro pair inside
    obtain ⟨past, rest, cut, _⟩ := (met_iff (idleStep order) _ events pair).mp inside
    exact foreign pair.2 (by rw [cut]; exact List.mem_append_right _ List.mem_cons_self)
  exact run_kept_iff (watched_on_time id) (idle_step order id) _ ⟨_, rfl, enable_sound running maxTime⟩ events allowed

def halfMinute : IdleTime := ⟨30, by decide, by decide⟩

def ticks (first count : Nat) : List IdleEvent :=
  (List.range' first count).flatMap fun second => [.other (.wheel (.onTimer (1001 + 1000 * second))), .other .returns]

-- A callback of the first tick inserts a timer before it returns; then a read.
def watchedCallback : List IdleEvent :=
  [.other (.wheel (.onTimer 1)), .activity, .other (.wheel (.onTimer 1001)), .other (.wheel (.runAfter 61 8)),
    .other .returns, .activity] ++ ticks 1 31

theorem idle_timeout_callback :
    ∃ p c, run (programStep listOrder) (.ok .fresh) [.wheel (.runAfter 1 7)] = .ok p ∧
      idleRun listOrder p halfMinute watchedCallback = .ok c ∧ c.destroyed = [31] ∧
      ((∀ past rest, watchedCallback = past ++ rest → OnTime (idleRun listOrder p halfMinute past)) ↔
        ∀ pair ∈ met (idleStep listOrder) (.ok (p.enableCheckIdleTimeout halfMinute)) watchedCallback,
          DefinedAt pair.1 pair.2) := by
  have closed : (((run (programStep listOrder) (.ok .fresh) [.wheel (.runAfter 1 7)]).bind
      fun p => idleRun listOrder p halfMinute watchedCallback).toOption.any fun c => c.destroyed == [31]) = true := by
    decide +kernel
  cases reached : run (programStep listOrder) (.ok .fresh) [.wheel (.runAfter 1 7)] with
  | error fault =>
      rw [reached] at closed
      cases closed
  | ok p =>
      rw [reached, Except.bind] at closed
      cases ended : idleRun listOrder p halfMinute watchedCallback with
      | error fault =>
          rw [ended] at closed
          cases closed
      | ok c =>
          rw [ended] at closed
          exact ⟨p, c, rfl, ended, beq_iff_eq.mp closed,
            idle_timeout_iff listOrder [.wheel (.runAfter 1 7)] p reached halfMinute watchedCallback⟩

-- Reads on tick 20 and on tick 40, beside a timer of a whole minute: the program
-- ends on tick 60 and leaves the connection open on tick 70.
def watchedMinute : List IdleEvent :=
  .other (.wheel (.onTimer 1)) :: ticks 0 20 ++ .activity :: ticks 20 20 ++ .activity :: ticks 40 40

theorem minute_timer_ends_watch :
    ¬ ∀ p, run (programStep listOrder) (.ok .fresh) [.wheel (.runAfter 60 7)] = .ok p →
      ∀ past rest, watchedMinute = past ++ rest → OnTime (idleRun listOrder p halfMinute past) := by
  intro claim
  have started : (run (programStep listOrder) (.ok .fresh) [.wheel (.runAfter 60 7)]).toBool = true := by decide +kernel
  have failed : ((run (programStep listOrder) (.ok .fresh) [.wheel (.runAfter 60 7)]).bind
      fun p => idleRun listOrder p halfMinute watchedMinute).toBool = false := by decide +kernel
  cases reached : run (programStep listOrder) (.ok .fresh) [.wheel (.runAfter 60 7)] with
  | error fault =>
      rw [reached] at started
      cases started
  | ok p =>
      obtain ⟨c, ended, _⟩ := claim p reached watchedMinute [] (List.append_nil _).symm
      rw [reached, Except.bind, ended] at failed
      cases failed

end Lssvc.Network
