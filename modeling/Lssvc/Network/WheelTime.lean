import Lssvc.Network.TimingWheel
import Mathlib.Data.List.Chain

set_option autoImplicit false

namespace Lssvc.Network

open Lssvc.Foundation

structure WheelClock where
  lastTs : Int := 0
  tick : Nat := 0
deriving DecidableEq, Repr

def WheelClock.onTimer (clock : WheelClock) (now : Int) : WheelClock :=
  if clock.lastTs = 0 then { clock with lastTs := now }
  else if now - clock.lastTs < 1000 then clock
  else ⟨now, clock.tick + 1⟩

structure WakeUps (times : List Int) : Prop where
  positive : ∀ first ∈ times.head?, 0 < first
  order : times.Pairwise fun earlier later => earlier ≤ later
  gaps : times.IsChain fun earlier later => later ≤ earlier + 1000

def ticksAfter (times : List Int) : WheelClock := run WheelClock.onTimer {} times

def InStep (times : List Int) : Prop :=
  ∀ first ∈ times.head?, ∀ last ∈ times.getLast?, ((ticksAfter times).tick : Int) = (last - first) / 1000

def firstAt (times : List Int) (start : Int) : Option Int := times.find? fun now => start ≤ now

-- The first call of a second comes no earlier in its second than the first call
-- of the second before it came in that one.
def KeepsPace (times : List Int) : Prop :=
  ∀ first ∈ times.head?, ∀ second : Nat, ∀ earlier ∈ firstAt times (first + 1000 * second),
    ∀ later ∈ firstAt times (first + 1000 * second + 1000), earlier + 1000 ≤ later

theorem first_at_append (past rest : List Int) (start : Int) :
    firstAt (past ++ rest) start = (firstAt past start).or (firstAt rest start) := List.find?_append

theorem head_append (past rest : List Int) (first : Int) (isFirst : first ∈ past.head?) :
    first ∈ (past ++ rest).head? := by
  rw [List.head?_append, Option.mem_def.mp isFirst]
  rfl

theorem first_at_kept (past rest : List Int) (start now : Int) (found : now ∈ firstAt past start) :
    now ∈ firstAt (past ++ rest) start := by
  rw [first_at_append, Option.mem_def.mp found]
  rfl

theorem first_at_singleton (now start : Int) : firstAt [now] start = if start ≤ now then some now else none := by
  rw [firstAt, List.find?_singleton]
  by_cases reached : start ≤ now
  · rw [if_pos reached, if_pos (decide_eq_true reached)]
  · rw [if_neg reached, if_neg (by simpa using reached)]

theorem first_at_reached (times : List Int) (start last : Int) (isLast : last ∈ times.getLast?) (reached : start ≤ last) :
    ∃ now, firstAt times start = some now := by
  refine Option.isSome_iff_exists.mp (List.find?_isSome.mpr ⟨last, List.mem_of_getLast? isLast, ?_⟩)
  exact decide_eq_true reached

theorem first_at_unreached (times : List Int) (start last : Int) (isLast : last ∈ times.getLast?)
    (none' : firstAt times start = none) : last < start := by
  by_contra reached
  obtain ⟨now, isNow⟩ := first_at_reached times start last isLast (Int.not_lt.mp reached)
  cases none'.symm.trans isNow

theorem first_at_ahead (times : List Int) (order : times.Pairwise fun earlier later => earlier ≤ later) (start last : Int)
    (isLast : last ∈ times.getLast?) (ahead : last < start) : firstAt times start = none := by
  refine List.find?_eq_none.mpr fun now inList reached => ?_
  obtain ⟨front, rfl⟩ := List.getLast?_eq_some_iff.mp isLast
  have upTo : now ≤ last := by
    rcases List.mem_append.mp inList with earlier | final
    · exact (List.pairwise_append.mp order).2.2 now earlier last (List.mem_singleton_self _)
    · exact Int.le_of_eq (List.mem_singleton.mp final)
  have := of_decide_eq_true reached
  omega

theorem wake_ups_snoc (past : List Int) (now : Int) (wakes : WakeUps (past ++ [now])) :
    WakeUps past ∧ ∀ last ∈ past.getLast?, last ≤ now ∧ now ≤ last + 1000 := by
  obtain ⟨positive, order, gaps⟩ := wakes
  obtain ⟨before, _, across⟩ := List.pairwise_append.mp order
  obtain ⟨chain, _, link⟩ := List.isChain_append.mp gaps
  refine ⟨⟨fun first isFirst => positive first (head_append past [now] first isFirst), before, chain⟩,
    fun last isLast => ⟨?_, link last isLast now rfl⟩⟩
  exact across last (List.mem_of_getLast? isLast) now (List.mem_singleton_self _)

-- While the clock is in step, last_ts_ is the first call of the current second.
structure OnTheSecond (times : List Int) (first : Int) : Prop where
  set : (ticksAfter times).lastTs ≠ 0
  current : firstAt times (first + 1000 * (ticksAfter times).tick) = some (ticksAfter times).lastTs

theorem keeps_pace_past (past : List Int) (now : Int) (paced : KeepsPace (past ++ [now])) :
    KeepsPace past := by
  intro first isFirst second earlier isEarlier later isLater
  exact paced first (head_append past [now] first isFirst) second earlier (first_at_kept past [now] _ _ isEarlier) later
    (first_at_kept past [now] _ _ isLater)

structure CurrentSecond (past : List Int) (first last : Int) : Prop where
  low : first + 1000 * (ticksAfter past).tick ≤ last
  high : last < first + 1000 * (ticksAfter past).tick + 1000
  reference : first + 1000 * (ticksAfter past).tick ≤ (ticksAfter past).lastTs

theorem current_second (past : List Int) (first last : Int) (isFirst : first ∈ past.head?) (isLast : last ∈ past.getLast?)
    (inStep : InStep past) (second : OnTheSecond past first) : CurrentSecond past first last := by
  have ticks := inStep first isFirst last isLast
  have reference : first + 1000 * (ticksAfter past).tick ≤ (ticksAfter past).lastTs := by
    simpa using List.find?_some (show List.find? _ _ = _ from second.current)
  exact ⟨by omega, by omega, reference⟩

theorem ticks_after_snoc (past : List Int) (now : Int) :
    ticksAfter (past ++ [now]) = (ticksAfter past).onTimer now := run_snoc _ _ _ _

theorem in_step_snoc (past : List Int) (now first : Int) (isFirst : first ∈ past.head?) :
    InStep (past ++ [now]) ↔ ((ticksAfter (past ++ [now])).tick : Int) = (now - first) / 1000 := by
  have head := head_append past [now] first isFirst
  constructor
  · exact fun inStep => inStep first head now List.getLast?_concat
  · intro ticks other isFirst' last isLast
    rw [List.getLast?_concat] at isLast
    cases head.symm.trans isFirst'
    cases isLast
    exact ticks

theorem pace_before (past : List Int) (now first : Int) (isFirst : first ∈ past.head?) (paced : KeepsPace past)
    (turn : Nat) (before : Int) (found : firstAt past (first + 1000 * turn + 1000) = some before) (earlier : Int)
    (isEarlier : earlier ∈ (firstAt past (first + 1000 * turn)).or (firstAt [now] (first + 1000 * turn))) (later : Int)
    (isLater : later ∈ (firstAt past (first + 1000 * turn + 1000)).or (firstAt [now] (first + 1000 * turn + 1000))) :
    earlier + 1000 ≤ later := by
  have reached : first + 1000 * turn + 1000 ≤ before := by simpa using List.find?_some (show List.find? _ _ = _ from found)
  have known : (firstAt past (first + 1000 * turn)).isSome := by
    refine List.find?_isSome.mpr ⟨before, List.mem_of_find?_eq_some (show List.find? _ _ = _ from found), ?_⟩
    exact decide_eq_true (by omega)
  obtain ⟨start, isStart⟩ := Option.isSome_iff_exists.mp known
  rw [found] at isLater
  rw [isStart] at isEarlier
  cases isLater
  cases isEarlier
  exact paced first isFirst turn _ isStart _ found

theorem same_second (past : List Int) (now first last : Int) (isFirst : first ∈ past.head?) (isLast : last ∈ past.getLast?)
    (between : last ≤ now) (second : OnTheSecond past first) (current : CurrentSecond past first last)
    (same : now < first + 1000 * (ticksAfter past).tick + 1000) :
    InStep (past ++ [now]) ∧ OnTheSecond (past ++ [now]) first ∧ (KeepsPace past → KeepsPace (past ++ [now])) := by
  obtain ⟨low, high, reference⟩ := current
  have kept : ticksAfter (past ++ [now]) = ticksAfter past := by
    rw [ticks_after_snoc, WheelClock.onTimer, if_neg second.set, if_pos (by omega)]
  refine ⟨?_, ⟨?_, ?_⟩, fun paced => ?_⟩
  · rw [in_step_snoc past now first isFirst, kept]
    omega
  · rw [kept]
    exact second.set
  · rw [kept]
    exact first_at_kept past [now] _ _ second.current
  · intro other isFirst' turn earlier isEarlier later isLater
    cases (head_append past [now] first isFirst).symm.trans isFirst'
    rw [first_at_append] at isEarlier isLater
    cases found : firstAt past (first + 1000 * turn + 1000) with
    | some before =>
        exact pace_before past now first isFirst paced turn before found earlier isEarlier later isLater
    | none =>
        rw [found, Option.none_or, first_at_singleton] at isLater
        have ahead := first_at_unreached past _ last isLast found
        rw [if_neg (by omega)] at isLater
        cases isLater

theorem next_second (past : List Int) (now first last : Int) (isFirst : first ∈ past.head?) (isLast : last ∈ past.getLast?)
    (order : past.Pairwise fun earlier later => earlier ≤ later) (gap : now ≤ last + 1000)
    (second : OnTheSecond past first) (current : CurrentSecond past first last)
    (next : first + 1000 * (ticksAfter past).tick + 1000 ≤ now) :
    (InStep (past ++ [now]) ↔ (ticksAfter past).lastTs + 1000 ≤ now) ∧
      (InStep (past ++ [now]) → 0 < now → OnTheSecond (past ++ [now]) first) ∧
      (KeepsPace (past ++ [now]) ↔ KeepsPace past ∧ (ticksAfter past).lastTs + 1000 ≤ now) := by
  obtain ⟨low, high, reference⟩ := current
  have unreached := first_at_ahead past order (first + 1000 * (ticksAfter past).tick + 1000) last isLast high
  have stepped : InStep (past ++ [now]) ↔ (ticksAfter past).lastTs + 1000 ≤ now := by
    rw [in_step_snoc past now first isFirst, ticks_after_snoc, WheelClock.onTimer, if_neg second.set]
    by_cases early : now - (ticksAfter past).lastTs < 1000
    · rw [if_pos early]
      omega
    · rw [if_neg early]
      dsimp only
      omega
  refine ⟨stepped, fun inStep positive => ?_, fun paced => ⟨keeps_pace_past past now paced, ?_⟩, ?_⟩
  · have ticked : ticksAfter (past ++ [now]) = ⟨now, (ticksAfter past).tick + 1⟩ := by
      have := stepped.mp inStep
      rw [ticks_after_snoc, WheelClock.onTimer, if_neg second.set, if_neg (by omega)]
    refine ⟨?_, ?_⟩
    · rw [ticked]
      exact Int.ne_of_gt positive
    · have start : first + 1000 * (((ticksAfter past).tick + 1 : Nat) : Int) =
          first + 1000 * (ticksAfter past).tick + 1000 := by omega
      rw [ticked]
      dsimp only
      rw [start, first_at_append, unreached, Option.none_or, first_at_singleton, if_pos next]
  · refine paced first (head_append past [now] first isFirst) (ticksAfter past).tick (ticksAfter past).lastTs
      (first_at_kept past [now] _ _ second.current) now ?_
    rw [first_at_append, unreached, Option.none_or, first_at_singleton, if_pos next]
    rfl
  · rintro ⟨paced, late⟩ other isFirst' turn earlier isEarlier later isLater
    cases (head_append past [now] first isFirst).symm.trans isFirst'
    rw [first_at_append] at isEarlier isLater
    cases found : firstAt past (first + 1000 * turn + 1000) with
    | some before =>
        exact pace_before past now first isFirst paced turn before found earlier isEarlier later isLater
    | none =>
        have ahead := first_at_unreached past _ last isLast found
        rw [found, Option.none_or, first_at_singleton] at isLater
        by_cases reached : first + 1000 * turn + 1000 ≤ now
        · -- The call opens the second behind the current one, and no other.
          have turn' : (turn : Int) = (ticksAfter past).tick := by omega
          rw [if_pos reached] at isLater
          rw [turn', second.current] at isEarlier
          cases isLater
          cases isEarlier
          exact late
        · rw [if_neg reached] at isLater
          cases isLater

theorem prefixes_snoc (Holds : List Int → Prop) (times : List Int) (now : Int) :
    (∀ past rest, times ++ [now] = past ++ rest → Holds past) ↔
      (∀ past rest, times = past ++ rest → Holds past) ∧ Holds (times ++ [now]) := by
  constructor
  · intro every
    exact ⟨fun past rest cut => every past (rest ++ [now]) (by rw [cut, List.append_assoc]),
      every (times ++ [now]) [] (List.append_nil _).symm⟩
  · rintro ⟨before, whole⟩ past rest cut
    rcases List.eq_nil_or_concat rest with rfl | ⟨front, last, rfl⟩
    · rw [List.append_nil] at cut
      exact cut ▸ whole
    · rw [List.concat_eq_append, ← List.append_assoc] at cut
      exact before past front (List.append_inj' cut rfl).1

theorem first_call (now : Int) (positive : 0 < now) :
    InStep [now] ∧ OnTheSecond [now] now ∧ KeepsPace [now] := by
  have begun : ticksAfter [now] = ⟨now, 0⟩ := rfl
  refine ⟨?_, ⟨?_, ?_⟩, ?_⟩
  · intro first isFirst last isLast
    cases isFirst
    cases isLast
    change ((0 : Nat) : Int) = (now - now) / 1000
    rw [Int.sub_self]
    rfl
  · rw [begun]
    exact Int.ne_of_gt positive
  · rw [begun, first_at_singleton]
    exact if_pos (by simp)
  · intro first isFirst turn earlier _ later isLater
    cases isFirst
    rw [first_at_singleton, if_neg (by omega)] at isLater
    cases isLater

-- By induction on the calls: as long as the clock is in step, a call that opens
-- a new second is a tick exactly when it is a second behind last_ts_.
theorem in_step_iff (times : List Int) (wakes : WakeUps times) :
    ((∀ past rest, times = past ++ rest → InStep past) ↔ KeepsPace times) ∧
      ((∀ past rest, times = past ++ rest → InStep past) → ∀ first ∈ times.head?, OnTheSecond times first) := by
  induction times using List.reverseRecOn with
  | nil =>
      refine ⟨⟨fun _ first impossible => (by cases impossible), fun _ past rest cut => ?_⟩,
        fun _ first impossible => (by cases impossible)⟩
      rw [(List.append_eq_nil_iff.mp cut.symm).1]
      exact fun first impossible => (by cases impossible)
  | append_singleton past now ih =>
      obtain ⟨wakesPast, bounds⟩ := wake_ups_snoc past now wakes
      obtain ⟨paced, onSecond⟩ := ih wakesPast
      rw [prefixes_snoc]
      cases isFirst : past.head? with
      | none =>
          have empty := List.head?_eq_none_iff.mp isFirst
          subst empty
          obtain ⟨inStep, second, pacedNow⟩ := first_call now (wakes.positive now rfl)
          refine ⟨⟨fun _ => pacedNow, fun _ => ⟨?_, inStep⟩⟩, fun _ first isNow => ?_⟩
          · exact paced.mpr fun first impossible => (by cases impossible)
          · cases isNow
            exact second
      | some first =>
          have some' : past ≠ [] := fun empty => by
            rw [empty] at isFirst
            cases isFirst
          obtain ⟨last, isLast⟩ := Option.isSome_iff_exists.mp (List.getLast?_isSome.mpr some')
          obtain ⟨between, gap⟩ := bounds last isLast
          have head (other : Int) (isHead : other ∈ (past ++ [now]).head?) : other = first := by
            cases isHead.symm.trans (head_append past [now] first isFirst)
            rfl
          have positive : 0 < now := by
            have := wakesPast.positive first isFirst
            have upTo := (List.pairwise_append.mp wakes.order).2.2 first (List.mem_of_mem_head? isFirst) now
              (List.mem_singleton_self _)
            omega
          by_cases steady : ∀ before rest, past = before ++ rest → InStep before
          · have second := onSecond steady first isFirst
            have inStep := steady past [] (List.append_nil past).symm
            have current := current_second past first last isFirst isLast inStep second
            by_cases same : now < first + 1000 * (ticksAfter past).tick + 1000
            · obtain ⟨inStepNow, secondNow, pacedNow⟩ := same_second past now first last isFirst isLast between second
                current same
              refine ⟨⟨fun _ => pacedNow (paced.mp steady), fun _ => ⟨steady, inStepNow⟩⟩, fun _ other isHead => ?_⟩
              rw [head other isHead]
              exact secondNow
            · obtain ⟨stepped, secondNow, pacedNow⟩ := next_second past now first last isFirst isLast wakesPast.order gap
                second current (Int.not_lt.mp same)
              refine ⟨?_, fun both other isHead => ?_⟩
              · rw [pacedNow, ← paced, stepped]
              · rw [head other isHead]
                exact secondNow both.2 positive
          · exact ⟨⟨fun both => absurd both.1 steady,
              fun pacedNow => absurd (paced.mpr (keeps_pace_past past now pacedNow)) steady⟩,
              fun both => absurd both.1 steady⟩

def TimingWheel.clock (w : TimingWheel) : WheelClock := ⟨w.lastTs, w.tick⟩

def WheelEvent.time : WheelEvent → Option Int
  | .onTimer now => some now
  | _ => none

def timesOf (events : List WheelEvent) : List Int := events.filterMap WheelEvent.time

theorem emplace_clock {w w' : TimingWheel} {type : TimingType} {index : Nat} {entry : Entry}
    (done : w.emplace type index entry = .ok w') : w'.clock = w.clock := by
  rw [TimingWheel.emplace] at done
  by_cases inside : index < (w.wheels type).length
  · rw [if_pos inside] at done
    cases done
    rfl
  · rw [if_neg inside] at done
    cases done

theorem kept_clock {w w' : TimingWheel} {keep : Bool} {type : TimingType} {index : Nat} {entry : Entry}
    (done : (w.emplace type index entry).map (·, true) = .ok (w', keep)) : w'.clock = w.clock := by
  cases placed : w.emplace type index entry with
  | error fault =>
      rw [placed] at done
      cases done
  | ok wheel =>
      rw [placed] at done
      cases done
      exact emplace_clock placed

theorem insert_entry_clock {w w' : TimingWheel} {delay : Nat} {entry : Entry} {keep : Bool}
    (done : w.insertEntry delay entry = .ok (w', keep)) : w'.clock = w.clock := by
  rw [TimingWheel.insertEntry] at done
  split_ifs at done
  · exact kept_clock done
  · exact kept_clock done
  · exact kept_clock done
  · cases done
    rfl
  · exact kept_clock done

theorem destroy_clock {w w' : TimingWheel} (entry : Entry) (done : w.destroy entry = .ok w') : w'.clock = w.clock := by
  induction entry generalizing w with
  | callback id =>
      cases done
      rfl
  | every interval id =>
      rw [TimingWheel.destroy] at done
      cases inserted : (w.execute id).insertEntry (toUint32 interval) (.every interval id) with
      | error fault =>
          rw [inserted] at done
          cases done
      | ok result =>
          obtain ⟨wheel, keep⟩ := result
          rw [inserted] at done
          cases keep with
          | true =>
              cases done
              have executed : (w.execute id).clock = w.clock := rfl
              exact (insert_entry_clock inserted).trans executed
          | false => cases done
  | timeout =>
      cases done
      rfl
  | migration delay entry ih =>
      rw [TimingWheel.destroy] at done
      cases inserted : w.insertEntry delay entry with
      | error fault =>
          rw [inserted] at done
          cases done
      | ok result =>
          obtain ⟨wheel, keep⟩ := result
          rw [inserted] at done
          cases keep with
          | true =>
              cases done
              exact insert_entry_clock inserted
          | false => exact (ih done).trans (insert_entry_clock inserted)

theorem destroy_all_clock {w w' : TimingWheel} (entries : List Entry) (done : w.destroyAll entries = .ok w') :
    w'.clock = w.clock := by
  induction entries generalizing w with
  | nil =>
      cases done
      rfl
  | cons entry entries ih =>
      rw [TimingWheel.destroyAll] at done
      cases destroyed : w.destroy entry with
      | error fault =>
          rw [destroyed] at done
          cases done
      | ok wheel =>
          rw [destroyed] at done
          exact (ih done).trans (destroy_clock entry destroyed)

theorem pop_up_clock {w w' : TimingWheel} (type : TimingType) (done : w.popUp type = .ok w') : w'.clock = w.clock := by
  rw [TimingWheel.popUp] at done
  have turned : (w.setWheel type (turnSlots (w.wheels type))).clock = w.clock := rfl
  exact (destroy_all_clock _ done).trans turned

theorem pop_slower_clock {w w' : TimingWheel} (done : w.popUpSlower = .ok w') : w'.clock = w.clock := by
  rw [TimingWheel.popUpSlower] at done
  split_ifs at done
  · exact pop_up_clock _ done
  · exact pop_up_clock _ done
  · exact pop_up_clock _ done
  · cases done
    rfl

theorem advance_clock {w w' : TimingWheel} (now : Int) (done : w.advance now = .ok w') :
    w'.clock = ⟨now, w.tick + 1⟩ := by
  rw [TimingWheel.advance] at done
  cases popped : TimingWheel.popUp { w with lastTs := now, tick := w.tick + 1 } .kTimingTypeSecond with
  | error fault =>
      rw [popped] at done
      cases done
  | ok wheel =>
      rw [popped] at done
      exact (pop_slower_clock done).trans (pop_up_clock _ popped)

theorem on_timer_clock {w w' : TimingWheel} (now : Int) (done : w.onTimer now = .ok w') :
    w'.clock = w.clock.onTimer now := by
  have lastTs : w.clock.lastTs = w.lastTs := rfl
  rw [WheelClock.onTimer, lastTs]
  by_cases passed : w.SecondPassed now
  · rw [on_timer_passed passed] at done
    rw [if_neg passed.1, if_neg (Int.not_lt.mpr passed.2)]
    exact advance_clock now done
  · rw [TimingWheel.onTimer] at done
    by_cases unset : w.lastTs = 0
    · rw [if_pos unset] at done ⊢
      dsimp only at done
      rw [if_pos (by omega)] at done
      cases done
      rfl
    · have soon : now - w.lastTs < 1000 := Int.lt_of_not_ge fun late => passed ⟨unset, late⟩
      rw [if_neg unset] at done ⊢
      rw [if_pos soon] at done ⊢
      cases done
      rfl

theorem run_fault (events : List WheelEvent) (fault : WheelFault) :
    run wheelStep (.error fault) events = .error fault := by
  induction events with
  | nil => rfl
  | cons _ _ ih => exact ih

theorem step_clock {w w' : TimingWheel} (event : WheelEvent) (done : w.step event = .ok w') :
    w'.clock = run WheelClock.onTimer w.clock (timesOf [event]) := by
  cases event with
  | onTimer now => exact on_timer_clock now done
  | runAfter delay id => exact destroy_clock _ done
  | runEvery interval id => exact destroy_clock _ done
  | insertTimeout delay => exact destroy_clock _ done

theorem times_append (past rest : List WheelEvent) : timesOf (past ++ rest) = timesOf past ++ timesOf rest :=
  List.filterMap_append

theorem run_clock (events : List WheelEvent) {w w' : TimingWheel} (done : run wheelStep (.ok w) events = .ok w') :
    w'.clock = run WheelClock.onTimer w.clock (timesOf events) := by
  induction events generalizing w with
  | nil =>
      cases done
      rfl
  | cons event events ih =>
      have first : event :: events = [event] ++ events := rfl
      rw [first, run_append] at done
      cases stepped : run wheelStep (.ok w) [event] with
      | error fault =>
          rw [stepped, run_fault] at done
          cases done
      | ok wheel =>
          rw [stepped] at done
          rw [first, times_append, run_append, ih done, step_clock event stepped]

def TimingWheel.Bare (w : TimingWheel) : Prop := ∀ type, ∀ slot ∈ w.wheels type, slot = []

theorem bare_pop_up {w : TimingWheel} (type : TimingType) (bare : w.Bare) : ∃ w', w.popUp type = .ok w' ∧ w'.Bare := by
  have front : (w.wheels type).headD [] = [] := by
    cases wheel : w.wheels type with
    | nil => rfl
    | cons slot slots => exact bare type slot (by rw [wheel]; exact List.mem_cons_self)
  refine ⟨w.setWheel type (turnSlots (w.wheels type)), by rw [TimingWheel.popUp, front]; rfl, fun other slot inside => ?_⟩
  by_cases same : other = type
  · subst same
    rw [set_wheel_same, turnSlots] at inside
    rcases List.mem_append.mp inside with later | last
    · exact bare other slot (List.mem_of_mem_tail later)
    · exact List.mem_singleton.mp last
  · rw [set_wheel_other w same] at inside
    exact bare other slot inside

theorem bare_on_timer {w : TimingWheel} (now : Int) (bare : w.Bare) : ∃ w', w.onTimer now = .ok w' ∧ w'.Bare := by
  by_cases passed : w.SecondPassed now
  · have bareNow : TimingWheel.Bare { w with lastTs := now, tick := w.tick + 1 } := bare
    obtain ⟨second, popped, bare'⟩ := bare_pop_up .kTimingTypeSecond bareNow
    rw [on_timer_passed passed, TimingWheel.advance, popped]
    dsimp only
    rw [TimingWheel.popUpSlower]
    split_ifs
    · exact bare_pop_up .kTimingTypeMinute bare'
    · exact bare_pop_up .kTimingTypeHour bare'
    · exact bare_pop_up .kTimingTypeDay bare'
    · exact ⟨second, rfl, bare'⟩
  · obtain ⟨ts, early⟩ := on_timer_early passed
    exact ⟨_, early, bare⟩

theorem fresh_bare : TimingWheel.fresh.Bare := by
  intro type slot inside
  cases type with
  | kTimingTypeSecond => exact List.eq_of_mem_replicate inside
  | kTimingTypeMinute => exact List.eq_of_mem_replicate inside
  | kTimingTypeHour => exact List.eq_of_mem_replicate inside
  | kTimingTypeDay => exact List.eq_of_mem_replicate inside

theorem calls_reached {w : TimingWheel} (bare : w.Bare) (times : List Int) :
    ∃ w', run wheelStep (.ok w) (times.map .onTimer) = .ok w' := by
  induction times generalizing w with
  | nil => exact ⟨w, rfl⟩
  | cons now times ih =>
      obtain ⟨next, called, bare'⟩ := bare_on_timer now bare
      obtain ⟨w', reached⟩ := ih bare'
      have stepped : run wheelStep (.ok w) ((now :: times).map .onTimer) =
          run wheelStep (w.onTimer now) (times.map .onTimer) := rfl
      exact ⟨w', by rw [stepped, called]; exact reached⟩

theorem tick_after (events : List WheelEvent) {w : TimingWheel} (reached : run wheelStep (.ok .fresh) events = .ok w) :
    w.tick = (ticksAfter (timesOf events)).tick := congrArg WheelClock.tick (run_clock events reached)

theorem reached_prefix {past rest : List WheelEvent} {w : TimingWheel}
    (reached : run wheelStep (.ok .fresh) (past ++ rest) = .ok w) : ∃ w', run wheelStep (.ok .fresh) past = .ok w' := by
  cases before : run wheelStep (.ok .fresh) past with
  | error fault =>
      rw [run_append, before, run_fault] at reached
      cases reached
  | ok w' => exact ⟨w', rfl⟩

theorem wheel_time_iff (events : List WheelEvent) (w : TimingWheel)
    (reached : run wheelStep (.ok .fresh) events = .ok w) (wakes : WakeUps (timesOf events)) :
    (∀ past rest w', events = past ++ rest → run wheelStep (.ok .fresh) past = .ok w' →
        ∀ first ∈ (timesOf past).head?, ∀ last ∈ (timesOf past).getLast?, (w'.tick : Int) = (last - first) / 1000) ↔
      KeepsPace (timesOf events) := by
  rw [← (in_step_iff (timesOf events) wakes).1]
  constructor
  · intro every times others cut first isFirst last isLast
    obtain ⟨past, rest, rfl, rfl, rfl⟩ := List.filterMap_eq_append_iff.mp cut
    obtain ⟨w', before⟩ := reached_prefix reached
    have ticked := every past rest w' rfl before first isFirst last isLast
    rw [tick_after past before] at ticked
    exact ticked
  · intro every past rest w' cut before first isFirst last isLast
    rw [tick_after past before]
    exact every (timesOf past) (timesOf rest) (by rw [cut, times_append]) first isFirst last isLast

theorem wheel_time_second :
    (∀ past rest w', [.onTimer 1, .runAfter 5 7, .onTimer 1001] = past ++ rest → run wheelStep (.ok .fresh) past = .ok w' →
        ∀ first ∈ (timesOf past).head?, ∀ last ∈ (timesOf past).getLast?, (w'.tick : Int) = (last - first) / 1000) ↔
      KeepsPace (timesOf [.onTimer 1, .runAfter 5 7, .onTimer 1001]) := by
  have wakes : WakeUps (timesOf [.onTimer 1, .runAfter 5 7, .onTimer 1001]) := by
    refine ⟨?_, ?_, ?_⟩
    · intro first isFirst
      cases isFirst
      decide
    · decide
    · decide
  have ran : (run wheelStep (.ok .fresh) [.onTimer 1, .runAfter 5 7, .onTimer 1001]).toBool = true := by decide +kernel
  cases reached : run wheelStep (.ok .fresh) [.onTimer 1, .runAfter 5 7, .onTimer 1001] with
  | error fault =>
      rw [reached] at ran
      cases ran
  | ok w => exact wheel_time_iff _ w reached wakes

-- The tick at 1201 is 200 ms late, and the call at 2101 too early for another.
def earlyWakeUps : List WheelEvent := [.onTimer 1, .onTimer 601, .onTimer 1201, .onTimer 1801, .onTimer 2101]

theorem wheel_behind :
    ¬ ∀ w, run wheelStep (.ok .fresh) earlyWakeUps = .ok w → WakeUps (timesOf earlyWakeUps) →
      ∀ first ∈ (timesOf earlyWakeUps).head?, ∀ last ∈ (timesOf earlyWakeUps).getLast?,
        (w.tick : Int) = (last - first) / 1000 := by
  intro claim
  have wakes : WakeUps (timesOf earlyWakeUps) := by
    refine ⟨?_, ?_, ?_⟩
    · intro first isFirst
      cases isFirst
      decide
    · decide
    · decide
  obtain ⟨w, reached⟩ := calls_reached fresh_bare [1, 601, 1201, 1801, 2101]
  have inStep := claim w reached wakes 1 rfl 2101 rfl
  have one : w.tick = 1 := tick_after earlyWakeUps reached
  rw [one] at inStep
  cases inStep

end Lssvc.Network
