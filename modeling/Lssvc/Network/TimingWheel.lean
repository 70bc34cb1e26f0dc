import Mathlib.Logic.Function.Basic
import Lssvc.Foundation.Runs
import Lssvc.Foundation.Slots
import Lssvc.Foundation.Words

set_option autoImplicit false

namespace Lssvc.Network

open Lssvc.Foundation

def kTimingMinute : Nat := 60
def kTimingHour : Nat := 60 * 60
def kTimingDay : Nat := 60 * 60 * 24

inductive TimingType where
  | kTimingTypeSecond
  | kTimingTypeMinute
  | kTimingTypeHour
  | kTimingTypeDay
deriving DecidableEq, Repr

-- What a shared pointer in a wheel points to, by what its destructor does: call
-- the callback of runAfter or of runEvery, close an idle connection, or insert
-- the entry it holds again with what is left of the delay.
inductive Entry where
  | callback (id : Nat)
  | every (interval : Int) (id : Nat)
  | timeout
  | migration (delay : Nat) (entry : Entry)
deriving DecidableEq, Repr

-- A deque is indexed behind its end, or a callback inserts itself for ever.
inductive WheelFault where
  | outOfRange
  | endless
deriving DecidableEq, Repr

-- `executed` has every callback that was called, with the value of tick_ then.
structure TimingWheel where
  wheels : TimingType → List (List Entry)
  lastTs : Int := 0
  tick : Nat := 0
  executed : List (Nat × Nat) := []

def TimingWheel.fresh : TimingWheel :=
  { wheels := fun
      | .kTimingTypeSecond => List.replicate 60 []
      | .kTimingTypeMinute => List.replicate 60 []
      | .kTimingTypeHour => List.replicate 24 []
      | .kTimingTypeDay => List.replicate 30 [] }

def TimingWheel.setWheel (w : TimingWheel) (type : TimingType) (wheel : List (List Entry)) : TimingWheel :=
  { w with wheels := Function.update w.wheels type wheel }

@[simp] theorem set_wheel_same (w : TimingWheel) (type : TimingType) (wheel : List (List Entry)) :
    (w.setWheel type wheel).wheels type = wheel := Function.update_self ..

theorem set_wheel_other (w : TimingWheel) {type other : TimingType} (different : other ≠ type)
    (wheel : List (List Entry)) : (w.setWheel type wheel).wheels other = w.wheels other :=
  Function.update_of_ne different ..

def TimingWheel.execute (w : TimingWheel) (id : Nat) : TimingWheel := { w with executed := w.executed ++ [(id, w.tick)] }

-- wheels_[type][index].emplace(entry). A deque does not check its index.
def TimingWheel.emplace (w : TimingWheel) (type : TimingType) (index : Nat) (entry : Entry) :
    Except WheelFault TimingWheel :=
  if index < (w.wheels type).length then .ok (w.setWheel type (putSlot (w.wheels type) index entry))
  else .error .outOfRange

def TimingWheel.insertSecondEntry (w : TimingWheel) (delay : Nat) (entry : Entry) : Except WheelFault TimingWheel :=
  w.emplace .kTimingTypeSecond (toUint32 ((delay : Int) - 1)) entry

def TimingWheel.insertMinuteEntry (w : TimingWheel) (delay : Nat) (entry : Entry) : Except WheelFault TimingWheel :=
  w.emplace .kTimingTypeMinute (toUint32 ((delay / kTimingMinute : Nat) - 1)) (.migration (delay % kTimingMinute) entry)

def TimingWheel.insertHourEntry (w : TimingWheel) (delay : Nat) (entry : Entry) : Except WheelFault TimingWheel :=
  w.emplace .kTimingTypeHour (toUint32 ((delay / kTimingHour : Nat) - 1)) (.migration (delay % kTimingHour) entry)

def TimingWheel.insertDayEntry (w : TimingWheel) (delay : Nat) (entry : Entry) : Except WheelFault TimingWheel :=
  w.emplace .kTimingTypeDay (toUint32 ((delay / kTimingDay : Nat) - 1)) (.migration (delay % kTimingDay) entry)

-- The flag tells that the entry was kept. For delay 0 the source resets the
-- pointer and goes on to index the second wheel with delay - 1.
def TimingWheel.insertEntry (w : TimingWheel) (delay : Nat) (entry : Entry) :
    Except WheelFault (TimingWheel × Bool) :=
  if delay < kTimingMinute then (w.insertSecondEntry delay entry).map (·, true)
  else if delay < kTimingHour then (w.insertMinuteEntry delay entry).map (·, true)
  else if delay < kTimingDay then (w.insertHourEntry delay entry).map (·, true)
  else if delay / kTimingDay > 30 then .ok (w, false)
  else (w.insertDayEntry delay entry).map (·, true)

-- The last reference to an entry goes away. An entry that is not kept goes away
-- where it was inserted: for runEvery that is in its own callback, once more.
def TimingWheel.destroy (w : TimingWheel) : Entry → Except WheelFault TimingWheel
  | .callback id => .ok (w.execute id)
  | .every interval id =>
      match (w.execute id).insertEntry (toUint32 interval) (.every interval id) with
      | .error fault => .error fault
      | .ok (w, true) => .ok w
      | .ok (_, false) => .error .endless
  | .timeout => .ok w
  | .migration delay entry =>
      match w.insertEntry delay entry with
      | .error fault => .error fault
      | .ok (w, true) => .ok w
      | .ok (w, false) => w.destroy entry

def TimingWheel.destroyAll (w : TimingWheel) : List Entry → Except WheelFault TimingWheel
  | [] => .ok w
  | entry :: entries =>
      match w.destroy entry with
      | .error fault => .error fault
      | .ok w => w.destroyAll entries

-- The front slot is swapped out before the wheel turns, and is destroyed on
-- return. unordered_set promises no order.
def TimingWheel.popUp (w : TimingWheel) (type : TimingType) : Except WheelFault TimingWheel :=
  (w.setWheel type (turnSlots (w.wheels type))).destroyAll ((w.wheels type).headD [])

-- Every multiple of an hour or of a day is one of a minute: the first test
-- takes them all.
def TimingWheel.popUpSlower (w : TimingWheel) : Except WheelFault TimingWheel :=
  if w.tick % kTimingMinute = 0 then w.popUp .kTimingTypeMinute
  else if w.tick % kTimingHour = 0 then w.popUp .kTimingTypeHour
  else if w.tick % kTimingDay = 0 then w.popUp .kTimingTypeDay
  else .ok w

-- onTimer from where a second has passed.
def TimingWheel.advance (w : TimingWheel) (now : Int) : Except WheelFault TimingWheel :=
  match { w with lastTs := now, tick := w.tick + 1 }.popUp .kTimingTypeSecond with
  | .error fault => .error fault
  | .ok w => w.popUpSlower

def TimingWheel.onTimer (w : TimingWheel) (now : Int) : Except WheelFault TimingWheel :=
  let w := if w.lastTs = 0 then { w with lastTs := now } else w
  if now - w.lastTs < 1000 then .ok w else w.advance now

theorem pop_up_slower_between {w : TimingWheel} (between : w.tick % kTimingMinute ≠ 0) : w.popUpSlower = .ok w := by
  have hour : w.tick % kTimingHour ≠ 0 := by
    rw [kTimingMinute] at between
    rw [kTimingHour]
    omega
  have day : w.tick % kTimingDay ≠ 0 := by
    rw [kTimingMinute] at between
    rw [kTimingDay]
    omega
  rw [TimingWheel.popUpSlower, if_neg between, if_neg hour, if_neg day]

def TimingWheel.SecondPassed (w : TimingWheel) (now : Int) : Prop := w.lastTs ≠ 0 ∧ 1000 ≤ now - w.lastTs

instance (w : TimingWheel) (now : Int) : Decidable (w.SecondPassed now) := inferInstanceAs (Decidable (_ ∧ _))

theorem on_timer_early {w : TimingWheel} {now : Int} (early : ¬ w.SecondPassed now) :
    ∃ ts, w.onTimer now = .ok { w with lastTs := ts } := by
  rw [TimingWheel.onTimer]
  by_cases unset : w.lastTs = 0
  · rw [if_pos unset]
    dsimp only
    rw [if_pos (by omega)]
    exact ⟨now, rfl⟩
  · have soon : now - w.lastTs < 1000 := Int.lt_of_not_ge fun late => early ⟨unset, late⟩
    rw [if_neg unset, if_pos soon]
    exact ⟨w.lastTs, rfl⟩

theorem on_timer_passed {w : TimingWheel} {now : Int} (passed : w.SecondPassed now) : w.onTimer now = w.advance now := by
  rw [TimingWheel.onTimer, if_neg passed.1]
  exact if_neg (Int.not_lt.mpr passed.2)

-- The caller's reference goes away when runAfter returns. The int delay becomes
-- a uint32_t.
def TimingWheel.runAfter (w : TimingWheel) (delay : Int) (id : Nat) : Except WheelFault TimingWheel :=
  w.destroy (.migration (toUint32 delay) (.callback id))

def TimingWheel.runEvery (w : TimingWheel) (interval : Int) (id : Nat) : Except WheelFault TimingWheel :=
  w.destroy (.migration (toUint32 interval) (.every interval id))

inductive WheelEvent where
  | onTimer (now : Int)
  | runAfter (delay : Int) (id : Nat)
  | runEvery (interval : Int) (id : Nat)
  | insertTimeout (delay : Int)
deriving DecidableEq, Repr

def TimingWheel.step (w : TimingWheel) : WheelEvent → Except WheelFault TimingWheel
  | .onTimer now => w.onTimer now
  | .runAfter delay id => w.runAfter delay id
  | .runEvery interval id => w.runEvery interval id
  | .insertTimeout delay => w.destroy (.migration (toUint32 delay) .timeout)

-- Nothing is said about what a program does after a fault.
def wheelStep (state : Except WheelFault TimingWheel) (event : WheelEvent) : Except WheelFault TimingWheel :=
  state.bind fun w => w.step event

end Lssvc.Network
