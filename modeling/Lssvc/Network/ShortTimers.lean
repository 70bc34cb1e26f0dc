import Lssvc.Network.WheelProgram
import Mathlib.Data.List.Basic
import Mathlib.Data.List.Perm.Basic
import Mathlib.Data.Nat.ModEq

set_option autoImplicit false

namespace Lssvc.Network

open Lssvc.Foundation

def ShortTimer : WheelEvent → Prop
  | .onTimer _ => False
  | .runAfter delay _ => 1 ≤ delay ∧ delay ≤ 59
  | .runEvery interval _ => 1 ≤ interval ∧ interval ≤ 59
  | .insertTimeout delay => 1 ≤ delay ∧ delay ≤ 59

-- What the wheel leaves to others: the short timers that a callback inserts,
-- given all calls so far, and the order in which a set destroys its entries.
structure Callbacks where
  body : List (Nat × Nat) → Nat → List WheelEvent
  order : List Entry → List Entry
  short : ∀ executed id, ∀ event ∈ body executed id, ShortTimer event
  perm : ∀ entries, (order entries).Perm entries

structure Registration where
  tick : Nat
  delay : Nat
  periodic : Bool
  id : Nat
deriving DecidableEq, Repr

def WheelEvent.registers (tick : Nat) : WheelEvent → List Registration
  | .runAfter delay id => [⟨tick, delay.toNat, false, id⟩]
  | .runEvery interval id => [⟨tick, interval.toNat, true, id⟩]
  | _ => []

structure Scheduler where
  wheel : TimingWheel
  registered : List Registration := []

def Scheduler.insert (s : Scheduler) (event : WheelEvent) : Except WheelFault Scheduler :=
  match s.wheel.step event with
  | .error fault => .error fault
  | .ok wheel => .ok ⟨wheel, s.registered ++ event.registers s.wheel.tick⟩

def Scheduler.insertAll (s : Scheduler) : List WheelEvent → Except WheelFault Scheduler
  | [] => .ok s
  | event :: events =>
      match s.insert event with
      | .error fault => .error fault
      | .ok s => s.insertAll events

-- cb()
def Scheduler.call (callbacks : Callbacks) (s : Scheduler) (id : Nat) : Except WheelFault Scheduler :=
  { s with wheel := s.wheel.execute id }.insertAll (callbacks.body s.wheel.executed id)

-- TimingWheel.destroy, where a callback may insert timers. The one of runEvery
-- inserts itself again when it returns.
def Scheduler.destroy (callbacks : Callbacks) (s : Scheduler) : Entry → Except WheelFault Scheduler
  | .callback id => s.call callbacks id
  | .every interval id =>
      match s.call callbacks id with
      | .error fault => .error fault
      | .ok s =>
          match s.wheel.insertEntry (toUint32 interval) (.every interval id) with
          | .error fault => .error fault
          | .ok (wheel, true) => .ok { s with wheel := wheel }
          | .ok (_, false) => .error .endless
  | .timeout => .ok s
  | .migration delay entry =>
      match s.wheel.insertEntry delay entry with
      | .error fault => .error fault
      | .ok (wheel, true) => .ok { s with wheel := wheel }
      | .ok (wheel, false) => { s with wheel := wheel }.destroy callbacks entry

def Scheduler.destroyAll (callbacks : Callbacks) (s : Scheduler) : List Entry → Except WheelFault Scheduler
  | [] => .ok s
  | entry :: entries =>
      match s.destroy callbacks entry with
      | .error fault => .error fault
      | .ok s => s.destroyAll callbacks entries

def Scheduler.popUp (callbacks : Callbacks) (s : Scheduler) (type : TimingType) : Except WheelFault Scheduler :=
  { s with wheel := s.wheel.setWheel type (turnSlots (s.wheel.wheels type)) }.destroyAll callbacks
    (callbacks.order ((s.wheel.wheels type).headD []))

def Scheduler.popUpSlower (callbacks : Callbacks) (s : Scheduler) : Except WheelFault Scheduler :=
  if s.wheel.tick % kTimingMinute = 0 then s.popUp callbacks .kTimingTypeMinute
  else if s.wheel.tick % kTimingHour = 0 then s.popUp callbacks .kTimingTypeHour
  else if s.wheel.tick % kTimingDay = 0 then s.popUp callbacks .kTimingTypeDay
  else .ok s

def Scheduler.advance (callbacks : Callbacks) (s : Scheduler) (now : Int) : Except WheelFault Scheduler :=
  match { s with wheel := { s.wheel with lastTs := now, tick := s.wheel.tick + 1 } }.popUp callbacks .kTimingTypeSecond with
  | .error fault => .error fault
  | .ok s => s.popUpSlower callbacks

def Scheduler.onTimer (callbacks : Callbacks) (s : Scheduler) (now : Int) : Except WheelFault Scheduler :=
  let s := if s.wheel.lastTs = 0 then { s with wheel := { s.wheel with lastTs := now } } else s
  if now - s.wheel.lastTs < 1000 then .ok s else s.advance callbacks now

def Scheduler.step (callbacks : Callbacks) (s : Scheduler) : WheelEvent → Except WheelFault Scheduler
  | .onTimer now => s.onTimer callbacks now
  | event => s.insert event

def schedulerStep (callbacks : Callbacks) (state : Except WheelFault Scheduler) (event : WheelEvent) :
    Except WheelFault Scheduler :=
  state.bind fun s => s.step callbacks event

def Registration.ticks (r : Registration) (now : Nat) : List Nat :=
  if r.periodic then (List.range ((now - r.tick) / r.delay)).map fun turn => r.tick + (turn + 1) * r.delay
  else if r.tick + r.delay ≤ now then [r.tick + r.delay] else []

def Registration.calls (r : Registration) (now : Nat) : List (Nat × Nat) := (r.ticks now).map fun tick => (r.id, tick)

def Registration.waits (r : Registration) (now : Nat) : List (Nat × Entry) :=
  if r.periodic then [(r.tick + ((now - r.tick) / r.delay + 1) * r.delay, .every r.delay r.id)]
  else if now < r.tick + r.delay then [(r.tick + r.delay, .callback r.id)]
  else []

structure Registration.Dated (now : Nat) (r : Registration) : Prop where
  past : r.tick ≤ now
  some' : 1 ≤ r.delay
  short : r.delay ≤ 59

def waiting (tick : Nat) : Entry → List (Nat × Entry)
  | .timeout => []
  | entry => [(tick, entry)]

def waitingAt (now index : Nat) (entry : Entry) : List (Nat × Entry) := waiting (now + index + 1) entry

def called (tick : Nat) : Entry → List (Nat × Nat)
  | .callback id => [(id, tick)]
  | .every _ id => [(id, tick)]
  | _ => []

def renewed (tick : Nat) : Entry → List (Nat × Entry)
  | .every interval id => [(tick + interval.toNat, .every interval id)]
  | _ => []

def ShortEntry : Entry → Prop
  | .every interval _ => 1 ≤ interval ∧ interval ≤ 59
  | .migration _ _ => False
  | _ => True

-- The second wheel against the registered timers, in the middle of a tick: the
-- entries of `left` have yet to take their next place and those of `uncalled`
-- to make their call.
structure OnSchedule (left uncalled : List Entry) (s : Scheduler) : Prop where
  seconds : (s.wheel.wheels .kTimingTypeSecond).length = 60
  minutes : s.wheel.wheels .kTimingTypeMinute = List.replicate 60 []
  entries : AllItems ShortEntry (s.wheel.wheels .kTimingTypeSecond)
  leftShort : ∀ entry ∈ left, ShortEntry entry
  dated : ∀ r ∈ s.registered, r.Dated s.wheel.tick
  waits : (left.flatMap (renewed s.wheel.tick) ++
      spread (waitingAt s.wheel.tick) 0 (s.wheel.wheels .kTimingTypeSecond)).Perm
    (s.registered.flatMap fun r => r.waits s.wheel.tick)
  calls : (s.wheel.executed ++ uncalled.flatMap (called s.wheel.tick)).Perm
    (s.registered.flatMap fun r => r.calls s.wheel.tick)

def quietCallbacks : Callbacks where
  body := fun _ _ => []
  order := id
  short := fun _ _ => List.forall_mem_nil _
  perm := fun _ => .refl _

theorem quiet_destroy (s : Scheduler) (entry : Entry) :
    s.destroy quietCallbacks entry = (s.wheel.destroy entry).map fun wheel => ⟨wheel, s.registered⟩ := by
  induction entry generalizing s with
  | callback id => rfl
  | every interval id =>
      have called : s.call quietCallbacks id = .ok ⟨s.wheel.execute id, s.registered⟩ := rfl
      rw [Scheduler.destroy, TimingWheel.destroy, called]
      dsimp only
      cases (s.wheel.execute id).insertEntry (toUint32 interval) (.every interval id) with
      | error fault => rfl
      | ok result =>
          obtain ⟨wheel, keep⟩ := result
          cases keep <;> rfl
  | timeout => rfl
  | migration delay entry ih =>
      rw [Scheduler.destroy, TimingWheel.destroy]
      cases s.wheel.insertEntry delay entry with
      | error fault => rfl
      | ok result =>
          obtain ⟨wheel, keep⟩ := result
          cases keep with
          | true => rfl
          | false => exact ih ⟨wheel, s.registered⟩

theorem quiet_destroy_all (s : Scheduler) (entries : List Entry) :
    s.destroyAll quietCallbacks entries = (s.wheel.destroyAll entries).map fun wheel => ⟨wheel, s.registered⟩ := by
  induction entries generalizing s with
  | nil => rfl
  | cons entry entries ih =>
      rw [Scheduler.destroyAll, TimingWheel.destroyAll, quiet_destroy]
      cases s.wheel.destroy entry with
      | error fault => rfl
      | ok wheel => exact ih ⟨wheel, s.registered⟩

theorem quiet_pop_slower (s : Scheduler) :
    s.popUpSlower quietCallbacks = s.wheel.popUpSlower.map fun wheel => ⟨wheel, s.registered⟩ := by
  rw [Scheduler.popUpSlower, TimingWheel.popUpSlower]
  split_ifs
  · exact quiet_destroy_all _ _
  · exact quiet_destroy_all _ _
  · exact quiet_destroy_all _ _
  · rfl

theorem quiet_advance (s : Scheduler) (now : Int) :
    s.advance quietCallbacks now = (s.wheel.advance now).map fun wheel => ⟨wheel, s.registered⟩ := by
  have popped : Scheduler.popUp quietCallbacks ⟨{ s.wheel with lastTs := now, tick := s.wheel.tick + 1 }, s.registered⟩
      .kTimingTypeSecond =
      (TimingWheel.popUp { s.wheel with lastTs := now, tick := s.wheel.tick + 1 } .kTimingTypeSecond).map
        fun wheel => ⟨wheel, s.registered⟩ := quiet_destroy_all _ _
  rw [Scheduler.advance, TimingWheel.advance, popped]
  cases TimingWheel.popUp { s.wheel with lastTs := now, tick := s.wheel.tick + 1 } .kTimingTypeSecond with
  | error fault => rfl
  | ok wheel => exact quiet_pop_slower ⟨wheel, s.registered⟩

theorem quiet_step (s : Scheduler) (event : WheelEvent) :
    s.step quietCallbacks event =
      (s.wheel.step event).map fun wheel => ⟨wheel, s.registered ++ event.registers s.wheel.tick⟩ := by
  have inserted (event : WheelEvent) : s.insert event =
      (s.wheel.step event).map fun wheel => ⟨wheel, s.registered ++ event.registers s.wheel.tick⟩ := by
    rw [Scheduler.insert]
    cases s.wheel.step event <;> rfl
  cases event with
  | onTimer now =>
      have none : WheelEvent.registers s.wheel.tick (.onTimer now) = [] := rfl
      rw [Scheduler.step, Scheduler.onTimer, TimingWheel.step, TimingWheel.onTimer, none, List.append_nil]
      by_cases unset : s.wheel.lastTs = 0
      · rw [if_pos unset, if_pos unset]
        dsimp only
        split
        · rfl
        · exact quiet_advance _ _
      · rw [if_neg unset, if_neg unset]
        split
        · rfl
        · exact quiet_advance _ _
  | runAfter delay id => exact inserted _
  | runEvery interval id => exact inserted _
  | insertTimeout delay => exact inserted _

theorem fresh_on_schedule : OnSchedule [] [] ⟨.fresh, []⟩ where
  seconds := rfl
  minutes := rfl
  entries := by
    intro slot listed
    rw [List.eq_of_mem_replicate listed]
    exact List.forall_mem_nil _
  leftShort := List.forall_mem_nil _
  dated := List.forall_mem_nil _
  waits := .refl _
  calls := .refl _

theorem registered_now (now delay id : Nat) (periodic : Bool) (some' : 1 ≤ delay) :
    Registration.calls ⟨now, delay, periodic, id⟩ now = [] ∧
      Registration.waits ⟨now, delay, periodic, id⟩ now =
        [(now + delay, if periodic then .every delay id else .callback id)] := by
  rw [Registration.calls, Registration.ticks, Registration.waits]
  cases periodic with
  | true => simp
  | false => simp [show ¬ now + delay ≤ now by omega, show now < now + delay by omega]

theorem insert_short (w : TimingWheel) (seconds : (w.wheels .kTimingTypeSecond).length = 60) (delay : Int)
    (low : 1 ≤ delay) (high : delay ≤ 59) (entry : Entry) :
    w.insertEntry (toUint32 delay) entry =
      .ok (w.setWheel .kTimingTypeSecond (putSlot (w.wheels .kTimingTypeSecond) (delay.toNat - 1) entry), true) := by
  have exact : toUint32 delay = delay.toNat := by
    rw [toUint32]
    omega
  have index : toUint32 ((delay.toNat : Int) - 1) = delay.toNat - 1 := by
    rw [toUint32]
    omega
  have inside : delay.toNat - 1 < (w.wheels .kTimingTypeSecond).length := by omega
  have seconds' : delay.toNat < kTimingMinute := by
    rw [kTimingMinute]
    omega
  rw [exact, TimingWheel.insertEntry, if_pos seconds', TimingWheel.insertSecondEntry, TimingWheel.emplace, index,
    if_pos inside]
  rfl

theorem put_waits (now : Nat) (slots : List (List Entry)) (seconds : slots.length = 60) (delay : Nat) (low : 1 ≤ delay)
    (high : delay ≤ 59) (entry : Entry) :
    (spread (waitingAt now) 0 (putSlot slots (delay - 1) entry)).Perm
      (waiting (now + delay) entry ++ spread (waitingAt now) 0 slots) := by
  have put := put_slot_perm (waitingAt now) slots 0 (delay - 1) (by omega) entry
  have here : now + (0 + (delay - 1)) + 1 = now + delay := by omega
  rw [waitingAt, here] at put
  exact put

theorem put_on_schedule {left rest uncalled : List Entry} {s : Scheduler} {delay : Nat} {entry : Entry}
    {registered : List Registration} (sound : OnSchedule left uncalled s) (low : 1 ≤ delay) (high : delay ≤ 59)
    (short : ShortEntry entry) (fewer : ∀ entry ∈ rest, entry ∈ left)
    (dated : ∀ r ∈ registered, r.Dated s.wheel.tick)
    (waits : (rest.flatMap (renewed s.wheel.tick) ++ (waiting (s.wheel.tick + delay) entry ++
        spread (waitingAt s.wheel.tick) 0 (s.wheel.wheels .kTimingTypeSecond))).Perm
      (registered.flatMap fun r => r.waits s.wheel.tick))
    (calls : (s.wheel.executed ++ uncalled.flatMap (called s.wheel.tick)).Perm
      (registered.flatMap fun r => r.calls s.wheel.tick)) :
    OnSchedule rest uncalled ⟨s.wheel.setWheel .kTimingTypeSecond
      (putSlot (s.wheel.wheels .kTimingTypeSecond) (delay - 1) entry), registered⟩ := by
  refine ⟨?_, ?_, ?_, fun other inRest => sound.leftShort other (fewer other inRest), dated, ?_, calls⟩
  · rw [set_wheel_same, put_slot_length, sound.seconds]
  · rw [set_wheel_other _ (by decide)]
    exact sound.minutes
  · rw [set_wheel_same]
    exact all_items_put sound.entries _ short
  · rw [set_wheel_same]
    exact (List.Perm.append_left _ (put_waits _ _ sound.seconds delay low high entry)).trans waits

def WheelEvent.delay : WheelEvent → Int
  | .runAfter delay _ => delay
  | .runEvery interval _ => interval
  | .insertTimeout delay => delay
  | .onTimer _ => 0

def WheelEvent.entry : WheelEvent → Entry
  | .runAfter _ id => .callback id
  | .runEvery interval id => .every interval id
  | _ => .timeout

theorem step_short (w : TimingWheel) (seconds : (w.wheels .kTimingTypeSecond).length = 60) (event : WheelEvent)
    (short : ShortTimer event) :
    w.step event = .ok (w.setWheel .kTimingTypeSecond
      (putSlot (w.wheels .kTimingTypeSecond) (event.delay.toNat - 1) event.entry)) := by
  cases event with
  | onTimer _ => exact short.elim
  | runAfter delay id =>
      rw [TimingWheel.step, TimingWheel.runAfter, TimingWheel.destroy, insert_short w seconds delay short.1 short.2]
      rfl
  | runEvery interval id =>
      rw [TimingWheel.step, TimingWheel.runEvery, TimingWheel.destroy, insert_short w seconds interval short.1 short.2]
      rfl
  | insertTimeout delay =>
      rw [TimingWheel.step, TimingWheel.destroy, insert_short w seconds delay short.1 short.2]
      rfl

theorem short_range (event : WheelEvent) (short : ShortTimer event) :
    1 ≤ event.delay ∧ event.delay ≤ 59 ∧ ShortEntry event.entry := by
  cases event with
  | onTimer _ => exact short.elim
  | runAfter delay id => exact ⟨short.1, short.2, trivial⟩
  | runEvery interval id => exact ⟨short.1, short.2, short⟩
  | insertTimeout delay => exact ⟨short.1, short.2, trivial⟩

theorem registers_new (event : WheelEvent) (short : ShortTimer event) (now : Nat) :
    ((event.registers now).flatMap fun r => r.calls now) = [] ∧
      ((event.registers now).flatMap fun r => r.waits now) = waiting (now + event.delay.toNat) event.entry ∧
      ∀ r ∈ event.registers now, r.Dated now := by
  cases event with
  | onTimer _ => exact short.elim
  | runAfter delay id =>
      obtain ⟨low, high⟩ := short
      obtain ⟨calls, waits⟩ := registered_now now delay.toNat id false (by omega)
      simp only [WheelEvent.registers, List.flatMap_singleton, List.forall_mem_singleton]
      exact ⟨calls, waits, Nat.le_refl _, by dsimp only; omega, by dsimp only; omega⟩
  | runEvery interval id =>
      obtain ⟨low, high⟩ := short
      obtain ⟨calls, waits⟩ := registered_now now interval.toNat id true (by omega)
      rw [if_pos rfl, Int.toNat_of_nonneg (by omega)] at waits
      simp only [WheelEvent.registers, List.flatMap_singleton, List.forall_mem_singleton]
      exact ⟨calls, waits, Nat.le_refl _, by dsimp only; omega, by dsimp only; omega⟩
  | insertTimeout delay => exact ⟨rfl, rfl, List.forall_mem_nil _⟩

theorem insert_on_schedule {left uncalled : List Entry} {s : Scheduler} (sound : OnSchedule left uncalled s) (event : WheelEvent)
    (short : ShortTimer event) : ∃ s', s.insert event = .ok s' ∧ OnSchedule left uncalled s' ∧ s'.wheel.tick = s.wheel.tick := by
  obtain ⟨low, high, entryShort⟩ := short_range event short
  obtain ⟨calls, waits, dated⟩ := registers_new event short s.wheel.tick
  rw [Scheduler.insert, step_short s.wheel sound.seconds event short]
  refine ⟨_, rfl, ?_, rfl⟩
  refine put_on_schedule sound (by omega) (by omega) entryShort (fun _ inLeft => inLeft) ?_ ?_ ?_
  · exact List.forall_mem_append.mpr ⟨sound.dated, dated⟩
  · rw [List.flatMap_append, waits]
    refine (List.perm_append_comm_assoc _ _ _).trans ?_
    exact (List.Perm.append_left _ sound.waits).trans List.perm_append_comm
  · rw [List.flatMap_append, calls, List.append_nil]
    exact sound.calls

theorem insert_all_on_schedule {left uncalled : List Entry} {s : Scheduler} (sound : OnSchedule left uncalled s)
    (events : List WheelEvent) (short : ∀ event ∈ events, ShortTimer event) :
    ∃ s', s.insertAll events = .ok s' ∧ OnSchedule left uncalled s' ∧ s'.wheel.tick = s.wheel.tick := by
  induction events generalizing s with
  | nil => exact ⟨s, rfl, sound, rfl⟩
  | cons event events ih =>
      obtain ⟨now, later⟩ := List.forall_mem_cons.mp short
      obtain ⟨s', inserted, sound', tick⟩ := insert_on_schedule sound event now
      obtain ⟨s'', all, sound'', tick'⟩ := ih sound' later
      rw [Scheduler.insertAll, inserted]
      exact ⟨s'', all, sound'', tick'.trans tick⟩

theorem call_on_schedule {left uncalled : List Entry} {s : Scheduler} (callbacks : Callbacks) (entry : Entry) (id : Nat)
    (calling : ∀ tick, called tick entry = [(id, tick)]) (sound : OnSchedule left (entry :: uncalled) s) :
    ∃ s', s.call callbacks id = .ok s' ∧ OnSchedule left uncalled s' ∧ s'.wheel.tick = s.wheel.tick := by
  have executed : OnSchedule left uncalled { s with wheel := s.wheel.execute id } := by
    refine ⟨sound.seconds, sound.minutes, sound.entries, sound.leftShort, sound.dated, sound.waits, ?_⟩
    have calls := sound.calls
    rw [List.flatMap_cons, calling, ← List.append_assoc] at calls
    exact calls
  exact insert_all_on_schedule executed _ (callbacks.short _ id)

theorem destroy_on_schedule {left uncalled : List Entry} {s : Scheduler} (callbacks : Callbacks) (entry : Entry)
    (sound : OnSchedule (entry :: left) (entry :: uncalled) s) :
    ∃ s', s.destroy callbacks entry = .ok s' ∧ OnSchedule left uncalled s' ∧ s'.wheel.tick = s.wheel.tick := by
  cases entry with
  | callback id =>
      obtain ⟨s', called', sound', tick⟩ := call_on_schedule callbacks (.callback id) id (fun _ => rfl) sound
      exact ⟨s', called', ⟨sound'.seconds, sound'.minutes, sound'.entries,
        (List.forall_mem_cons.mp sound'.leftShort).2, sound'.dated, sound'.waits, sound'.calls⟩, tick⟩
  | every interval id =>
      obtain ⟨s', called', sound', tick⟩ := call_on_schedule callbacks (.every interval id) id (fun _ => rfl) sound
      obtain ⟨⟨low, high⟩, _⟩ := List.forall_mem_cons.mp sound'.leftShort
      rw [Scheduler.destroy, called']
      dsimp only
      rw [insert_short s'.wheel sound'.seconds interval low high]
      refine ⟨_, rfl, ?_, tick⟩
      refine put_on_schedule sound' (by omega) (by omega) ⟨low, high⟩ (fun _ inLeft => List.mem_cons_of_mem _ inLeft)
        sound'.dated ?_ sound'.calls
      have waits := sound'.waits
      rw [List.flatMap_cons, List.append_assoc] at waits
      exact (List.perm_append_comm_assoc _ _ _).trans waits
  | timeout =>
      exact ⟨s, rfl, ⟨sound.seconds, sound.minutes, sound.entries, (List.forall_mem_cons.mp sound.leftShort).2,
        sound.dated, sound.waits, sound.calls⟩, rfl⟩
  | migration delay entry => exact (List.forall_mem_cons.mp sound.leftShort).1.elim

theorem destroy_all_on_schedule {s : Scheduler} (callbacks : Callbacks) (entries : List Entry)
    (sound : OnSchedule entries entries s) :
    ∃ s', s.destroyAll callbacks entries = .ok s' ∧ OnSchedule [] [] s' ∧ s'.wheel.tick = s.wheel.tick := by
  induction entries generalizing s with
  | nil => exact ⟨s, rfl, sound, rfl⟩
  | cons entry entries ih =>
      obtain ⟨s', destroyed, sound', tick⟩ := destroy_on_schedule callbacks entry sound
      obtain ⟨s'', all, sound'', tick'⟩ := ih sound'
      rw [Scheduler.destroyAll, destroyed]
      exact ⟨s'', all, sound'', tick'.trans tick⟩

theorem turn_due_iff (now tick delay : Nat) (past : tick ≤ now) :
    now + 1 - tick = now - tick + 1 ∧
      (tick + ((now - tick) / delay + 1) * delay = now + 1 ↔ delay ∣ now - tick + 1) ∧
      (now - tick + 1) / delay = (now - tick) / delay + if delay ∣ now - tick + 1 then 1 else 0 := by
  have turns : (now - tick + 1) / delay = (now - tick) / delay + if delay ∣ now - tick + 1 then 1 else 0 := Nat.succ_div
  refine ⟨Nat.succ_sub past, ⟨fun due => ?_, fun divides => ?_⟩, turns⟩
  · exact ⟨(now - tick) / delay + 1, by rw [Nat.mul_comm]; omega⟩
  · rw [if_pos divides] at turns
    rw [← turns, Nat.div_mul_cancel divides]
    omega

theorem ticked_calls (now : Nat) (r : Registration) (dated : r.Dated now) :
    r.calls (now + 1) = r.calls now ++ (r.waits now).flatMap fun wait =>
      if wait.1 = now + 1 then called (now + 1) wait.2 else [] := by
  obtain ⟨tick, delay, periodic, id⟩ := r
  obtain ⟨past, some', _⟩ := dated
  dsimp only at past some'
  rw [Registration.calls, Registration.calls, Registration.ticks, Registration.ticks, Registration.waits]
  dsimp only
  cases periodic with
  | true =>
      obtain ⟨later, onTime, turns⟩ := turn_due_iff now tick delay past
      rw [if_pos rfl, if_pos rfl, if_pos rfl, List.flatMap_singleton, later, turns]
      by_cases divides : delay ∣ now - tick + 1
      · rw [if_pos divides, if_pos (onTime.mpr divides), List.range_succ, List.map_append, List.map_append,
          List.map_singleton, List.map_singleton, onTime.mpr divides]
        rfl
      · rw [if_neg divides, if_neg fun sharp => divides (onTime.mp sharp), List.append_nil]
        rfl
  | false =>
      rw [if_neg Bool.false_ne_true, if_neg Bool.false_ne_true, if_neg Bool.false_ne_true]
      by_cases before : tick + delay ≤ now
      · rw [if_pos (Nat.le_succ_of_le before), if_pos before, if_neg (Nat.not_lt.mpr before)]
        rfl
      · rw [if_neg before, if_pos (Nat.lt_of_not_le before), List.flatMap_singleton]
        by_cases onTime : tick + delay = now + 1
        · rw [if_pos (Nat.le_of_eq onTime), if_pos onTime, onTime]
          rfl
        · rw [if_neg (by omega), if_neg onTime]
          rfl

theorem ticked_waits (now : Nat) (r : Registration) (dated : r.Dated now) :
    r.waits (now + 1) = (r.waits now).flatMap fun wait =>
      if wait.1 = now + 1 then renewed (now + 1) wait.2 else [wait] := by
  obtain ⟨tick, delay, periodic, id⟩ := r
  obtain ⟨past, some', _⟩ := dated
  dsimp only at past some'
  rw [Registration.waits, Registration.waits]
  dsimp only
  cases periodic with
  | true =>
      obtain ⟨later, onTime, turns⟩ := turn_due_iff now tick delay past
      rw [if_pos rfl, if_pos rfl, List.flatMap_singleton, later, turns]
      by_cases divides : delay ∣ now - tick + 1
      · have next : tick + ((now - tick) / delay + 1 + 1) * delay = now + 1 + delay := by
          rw [Nat.add_mul _ 1, Nat.one_mul, ← Nat.add_assoc, onTime.mpr divides]
        rw [if_pos divides, if_pos (onTime.mpr divides), next]
        rfl
      · rw [if_neg divides, if_neg fun sharp => divides (onTime.mp sharp), Nat.add_zero]
  | false =>
      rw [if_neg Bool.false_ne_true, if_neg Bool.false_ne_true]
      by_cases before : tick + delay ≤ now
      · rw [if_neg (by omega), if_neg (Nat.not_lt.mpr before)]
        rfl
      · rw [if_pos (Nat.lt_of_not_le before), List.flatMap_singleton]
        by_cases onTime : tick + delay = now + 1
        · rw [if_neg (by omega), if_pos onTime]
          rfl
        · rw [if_pos (by omega), if_neg onTime]

section Turning

variable {Value : Type} (now : Nat) (done : Nat → Entry → List Value) (kept : Nat × Entry → List Value)

theorem front_due (nothing : ∀ tick, done tick .timeout = []) (front : List Entry) :
    ((front.flatMap (waitingAt now 0)).flatMap fun wait =>
      if wait.1 = now + 1 then done (now + 1) wait.2 else kept wait) = front.flatMap (done (now + 1)) := by
  rw [List.flatMap_assoc]
  refine List.flatMap_congr fun entry _ => ?_
  cases entry with
  | timeout => exact (nothing _).symm
  | callback id => exact (List.flatMap_singleton ..).trans (if_pos rfl)
  | every interval id => exact (List.flatMap_singleton ..).trans (if_pos rfl)
  | migration delay entry => exact (List.flatMap_singleton ..).trans (if_pos rfl)

theorem rest_later (slots : List (List Entry)) :
    ((spread (waitingAt (now + 1)) 0 slots).flatMap fun wait =>
      if wait.1 = now + 1 then done (now + 1) wait.2 else kept wait) =
      (spread (waitingAt (now + 1)) 0 slots).flatMap kept := by
  refine List.flatMap_congr fun wait inside => if_neg ?_
  obtain ⟨index, entry, _, found⟩ := mem_spread_at inside
  cases entry with
  | timeout => cases found
  | callback id =>
      rw [List.mem_singleton.mp found]
      dsimp only
      omega
  | every interval id =>
      rw [List.mem_singleton.mp found]
      dsimp only
      omega
  | migration delay entry =>
      rw [List.mem_singleton.mp found]
      dsimp only
      omega

theorem spread_ticked (nothing : ∀ tick, done tick .timeout = []) (slots : List (List Entry)) :
    ((spread (waitingAt now) 0 slots).flatMap fun wait =>
      if wait.1 = now + 1 then done (now + 1) wait.2 else kept wait) =
      (slots.headD []).flatMap (done (now + 1)) ++ (spread (waitingAt (now + 1)) 0 (turnSlots slots)).flatMap kept := by
  have turned := spread_turn (waitingAt now) (waitingAt (now + 1))
    (fun index entry => by rw [waitingAt, waitingAt, Nat.add_right_comm now 1, Nat.add_assoc now index 1]) slots
  rw [turned, List.flatMap_append, front_due now done kept nothing, rest_later]

end Turning

theorem turn_on_schedule {s : Scheduler} (callbacks : Callbacks) (now : Int) (sound : OnSchedule [] [] s) :
    OnSchedule (callbacks.order ((s.wheel.wheels .kTimingTypeSecond).headD []))
      (callbacks.order ((s.wheel.wheels .kTimingTypeSecond).headD []))
      ⟨{ s.wheel with lastTs := now, tick := s.wheel.tick + 1 }.setWheel .kTimingTypeSecond
        (turnSlots (s.wheel.wheels .kTimingTypeSecond)), s.registered⟩ := by
  have some' : s.wheel.wheels .kTimingTypeSecond ≠ [] := by
    intro empty
    have seconds := sound.seconds
    rw [empty] at seconds
    cases seconds
  obtain ⟨turned, front⟩ := all_items_turn sound.entries
  have waits := sound.waits
  have calls := sound.calls
  rw [List.flatMap_nil, List.nil_append] at waits
  rw [List.flatMap_nil, List.append_nil] at calls
  refine ⟨?_, ?_, ?_, ?_, ?_, ?_, ?_⟩
  · rw [set_wheel_same, turn_slots_length _ some', sound.seconds]
  · rw [set_wheel_other _ (by decide)]
    exact sound.minutes
  · rw [set_wheel_same]
    exact turned
  · exact fun entry inFront => front entry ((callbacks.perm _).mem_iff.mp inFront)
  · intro r inList
    obtain ⟨past, some', short⟩ := sound.dated r inList
    exact ⟨Nat.le_succ_of_le past, some', short⟩
  · rw [set_wheel_same]
    change (_ ++ spread (waitingAt (s.wheel.tick + 1)) 0 _).Perm
      (s.registered.flatMap fun r => r.waits (s.wheel.tick + 1))
    rw [List.flatMap_congr fun r inList => ticked_waits s.wheel.tick r (sound.dated r inList), ← List.flatMap_assoc]
    refine List.Perm.trans ?_ (waits.flatMap_right _)
    rw [spread_ticked s.wheel.tick renewed (fun wait => [wait]) (fun _ => rfl), List.flatMap_singleton']
    exact List.Perm.append_right _ ((callbacks.perm _).flatMap_right _)
  · change (s.wheel.executed ++ _).Perm (s.registered.flatMap fun r => r.calls (s.wheel.tick + 1))
    rw [List.flatMap_congr fun r inList => ticked_calls s.wheel.tick r (sound.dated r inList)]
    refine List.Perm.trans ?_ (List.flatMap_append_perm _ _ _)
    refine calls.append ?_
    rw [← List.flatMap_assoc]
    refine List.Perm.trans ?_ (waits.flatMap_right _)
    rw [spread_ticked s.wheel.tick called (fun _ => []) (fun _ => rfl), List.flatMap_eq_nil_iff.mpr fun _ _ => rfl,
      List.append_nil]
    exact (callbacks.perm _).flatMap_right _

theorem slower_between {s : Scheduler} (callbacks : Callbacks) (between : s.wheel.tick % kTimingMinute ≠ 0) :
    s.popUpSlower callbacks = .ok s := by
  have hour : s.wheel.tick % kTimingHour ≠ 0 := by
    rw [kTimingMinute] at between
    rw [kTimingHour]
    omega
  have day : s.wheel.tick % kTimingDay ≠ 0 := by
    rw [kTimingMinute] at between
    rw [kTimingDay]
    omega
  rw [Scheduler.popUpSlower, if_neg between, if_neg hour, if_neg day]

theorem pop_slower_on_schedule {s : Scheduler} (callbacks : Callbacks) (sound : OnSchedule [] [] s) :
    ∃ s', s.popUpSlower callbacks = .ok s' ∧ OnSchedule [] [] s' ∧ s'.wheel.tick = s.wheel.tick := by
  have empty : callbacks.order ((s.wheel.wheels .kTimingTypeMinute).headD []) = [] := by
    rw [sound.minutes]
    exact List.perm_nil.mp (callbacks.perm [])
  have turned : OnSchedule [] [] ⟨s.wheel.setWheel .kTimingTypeMinute (turnSlots (s.wheel.wheels .kTimingTypeMinute)),
      s.registered⟩ := by
    refine ⟨?_, ?_, ?_, sound.leftShort, sound.dated, ?_, sound.calls⟩
    · rw [set_wheel_other _ (by decide)]
      exact sound.seconds
    · rw [set_wheel_same, sound.minutes]
      rfl
    · rw [set_wheel_other _ (by decide)]
      exact sound.entries
    · rw [set_wheel_other _ (by decide)]
      exact sound.waits
  by_cases minute : s.wheel.tick % kTimingMinute = 0
  · rw [Scheduler.popUpSlower, if_pos minute, Scheduler.popUp, empty]
    exact ⟨_, rfl, turned, rfl⟩
  · rw [slower_between callbacks minute]
    exact ⟨s, rfl, sound, rfl⟩

theorem timer_on_schedule {s : Scheduler} (callbacks : Callbacks) (now : Int) (sound : OnSchedule [] [] s) :
    ∃ s', s.onTimer callbacks now = .ok s' ∧ OnSchedule [] [] s' := by
  have begun : ∃ ts, (if s.wheel.lastTs = 0 then { s with wheel := { s.wheel with lastTs := now } } else s) =
      { s with wheel := { s.wheel with lastTs := ts } } := by
    split
    · exact ⟨now, rfl⟩
    · exact ⟨s.wheel.lastTs, rfl⟩
  obtain ⟨ts, same⟩ := begun
  have soundBegun : OnSchedule [] [] { s with wheel := { s.wheel with lastTs := ts } } :=
    ⟨sound.seconds, sound.minutes, sound.entries, sound.leftShort, sound.dated, sound.waits, sound.calls⟩
  rw [Scheduler.onTimer, same]
  dsimp only
  by_cases early : now - ts < 1000
  · rw [if_pos early]
    exact ⟨_, rfl, soundBegun⟩
  · rw [if_neg early, Scheduler.advance]
    obtain ⟨s', popped, sound', _⟩ := destroy_all_on_schedule callbacks _ (turn_on_schedule callbacks now soundBegun)
    obtain ⟨s'', slower, sound'', _⟩ := pop_slower_on_schedule callbacks sound'
    have second : Scheduler.popUp callbacks ⟨{ s.wheel with lastTs := now, tick := s.wheel.tick + 1 }, s.registered⟩
        .kTimingTypeSecond = .ok s' := popped
    rw [second]
    exact ⟨s'', slower, sound''⟩

def ShortEvent : WheelEvent → Prop
  | .onTimer _ => True
  | event => ShortTimer event

theorem step_on_schedule {s : Scheduler} (callbacks : Callbacks) (event : WheelEvent) (short : ShortEvent event)
    (sound : OnSchedule [] [] s) : ∃ s', s.step callbacks event = .ok s' ∧ OnSchedule [] [] s' := by
  cases event with
  | onTimer now => exact timer_on_schedule callbacks now sound
  | runAfter delay id =>
      obtain ⟨s', inserted, sound', _⟩ := insert_on_schedule sound (.runAfter delay id) short
      exact ⟨s', inserted, sound'⟩
  | runEvery interval id =>
      obtain ⟨s', inserted, sound', _⟩ := insert_on_schedule sound (.runEvery interval id) short
      exact ⟨s', inserted, sound'⟩
  | insertTimeout delay =>
      obtain ⟨s', inserted, sound', _⟩ := insert_on_schedule sound (.insertTimeout delay) short
      exact ⟨s', inserted, sound'⟩

theorem run_on_schedule (callbacks : Callbacks) (events : List WheelEvent) (short : ∀ event ∈ events, ShortEvent event) :
    ∃ s, run (schedulerStep callbacks) (.ok ⟨.fresh, []⟩) events = .ok s ∧ OnSchedule [] [] s := by
  refine run_history (fun _ state => ∃ s, state = Except.ok s ∧ OnSchedule [] [] s) (fun _ event => ShortEvent event)
    ⟨_, rfl, fresh_on_schedule⟩ ?_ events ?_
  · rintro past event allowed ⟨s, reached, sound⟩
    obtain ⟨s', stepped, sound'⟩ := step_on_schedule callbacks event allowed sound
    exact ⟨s', by rw [reached]; exact stepped, sound'⟩
  · rintro past event rest rfl
    exact short event (List.mem_append_right _ List.mem_cons_self)

def Callbacks.setOrder (callbacks : Callbacks) : SetOrder := ⟨callbacks.order, callbacks.perm⟩

theorem insert_all_program {s s' : Scheduler} (order : SetOrder) (running : Option (List Entry)) (events : List WheelEvent)
    (short : ∀ event ∈ events, ShortTimer event) (inserted : s.insertAll events = .ok s') :
    run (programStep order) (.ok ⟨s.wheel, running⟩) (events.map .wheel) = .ok ⟨s'.wheel, running⟩ := by
  induction events generalizing s with
  | nil =>
      cases inserted
      rfl
  | cons event events ih =>
      obtain ⟨now, later⟩ := List.forall_mem_cons.mp short
      rw [Scheduler.insertAll, Scheduler.insert] at inserted
      cases stepped : s.wheel.step event with
      | error fault =>
          rw [stepped] at inserted
          cases inserted
      | ok wheel =>
          rw [stepped] at inserted
          have step : programStep order (.ok ⟨s.wheel, running⟩) (.wheel event) = .ok ⟨wheel, running⟩ := by
            cases event with
            | onTimer _ => exact now.elim
            | runAfter _ _ => exact congrArg (Except.map _) stepped
            | runEvery _ _ => exact congrArg (Except.map _) stepped
            | insertTimeout _ => exact congrArg (Except.map _) stepped
          rw [List.map_cons, run, List.foldl_cons, step]
          exact ih later inserted

theorem call_program {s s' : Scheduler} {p : WheelProgram} (callbacks : Callbacks) (id : Nat) (rest : List Entry)
    (events : List ProgramEvent) (called : s.call callbacks id = .ok s')
    (back : run (programStep callbacks.setOrder) (s'.wheel.resume rest) events = .ok p) :
    ∃ events', run (programStep callbacks.setOrder) (.ok ⟨s.wheel.execute id, some rest⟩) events' = .ok p := by
  refine ⟨(callbacks.body s.wheel.executed id).map .wheel ++ .returns :: events, ?_⟩
  have inserted := insert_all_program callbacks.setOrder (some rest) _ (callbacks.short _ _) called
  rw [run_append, inserted]
  exact back

theorem destroy_all_program {s s' : Scheduler} {w : TimingWheel} (callbacks : Callbacks) (entries : List Entry)
    (short : ∀ entry ∈ entries, ShortEntry entry) (destroyed : s.destroyAll callbacks entries = .ok s')
    (slower : s'.wheel.popUpSlower = .ok w) :
    ∃ events, run (programStep callbacks.setOrder) (s.wheel.resume entries) events = .ok ⟨w, none⟩ := by
  induction entries generalizing s with
  | nil =>
      cases destroyed
      exact ⟨[], congrArg (Except.map _) slower⟩
  | cons entry entries ih =>
      obtain ⟨here, later⟩ := List.forall_mem_cons.mp short
      rw [Scheduler.destroyAll] at destroyed
      cases entry with
      | callback id =>
          rw [Scheduler.destroy] at destroyed
          cases called : s.call callbacks id with
          | error fault =>
              rw [called] at destroyed
              cases destroyed
          | ok s'' =>
              rw [called] at destroyed
              obtain ⟨events, back⟩ := ih later destroyed
              exact call_program callbacks id entries events called back
      | every interval id =>
          rw [Scheduler.destroy] at destroyed
          cases called : s.call callbacks id with
          | error fault =>
              rw [called] at destroyed
              cases destroyed
          | ok s'' =>
              rw [called] at destroyed
              dsimp only at destroyed
              cases again : s''.wheel.insertEntry (toUint32 interval) (.every interval id) with
              | error fault =>
                  rw [again] at destroyed
                  cases destroyed
              | ok result =>
                  obtain ⟨wheel, keep⟩ := result
                  rw [again] at destroyed
                  cases keep with
                  | false => cases destroyed
                  | true =>
                      obtain ⟨events, back⟩ := ih later destroyed
                      refine call_program callbacks id _ events called ?_
                      rw [TimingWheel.resume, TimingWheel.destroy, again]
                      exact back
      | timeout =>
          obtain ⟨events, back⟩ := ih later destroyed
          exact ⟨.returns :: events, back⟩
      | migration delay entry => exact here.elim

theorem slower_program {s s' : Scheduler} (callbacks : Callbacks) (sound : OnSchedule [] [] s)
    (popped : s.popUpSlower callbacks = .ok s') : s.wheel.popUpSlower = .ok s'.wheel := by
  by_cases minute : s.wheel.tick % kTimingMinute = 0
  · have empty : callbacks.order [] = [] := List.perm_nil.mp (callbacks.perm [])
    rw [Scheduler.popUpSlower, if_pos minute, Scheduler.popUp, sound.minutes] at popped
    rw [TimingWheel.popUpSlower, if_pos minute, TimingWheel.popUp, sound.minutes]
    dsimp only [List.replicate, List.headD] at popped ⊢
    rw [empty] at popped
    cases popped
    rfl
  · rw [slower_between callbacks minute] at popped
    rw [pop_up_slower_between minute]
    cases popped
    rfl

theorem advance_program {s s' : Scheduler} (callbacks : Callbacks) (now : Int) (sound : OnSchedule [] [] s)
    (advanced : s.advance callbacks now = .ok s') :
    ∃ events, run (programStep callbacks.setOrder) (s.wheel.turn callbacks.setOrder now false) events =
      .ok ⟨s'.wheel, none⟩ := by
  have turned := turn_on_schedule callbacks now sound
  obtain ⟨next, destroyed, sound', _⟩ := destroy_all_on_schedule callbacks _ turned
  have popped : Scheduler.popUp callbacks ⟨{ s.wheel with lastTs := now, tick := s.wheel.tick + 1 }, s.registered⟩
      .kTimingTypeSecond = .ok next := destroyed
  rw [Scheduler.advance, popped] at advanced
  exact destroy_all_program callbacks _ turned.leftShort destroyed (slower_program callbacks sound' advanced)

theorem timer_program {s s' : Scheduler} (callbacks : Callbacks) (now : Int) (sound : OnSchedule [] [] s)
    (done : s.onTimer callbacks now = .ok s') :
    ∃ events, run (programStep callbacks.setOrder) (s.wheel.startTimer callbacks.setOrder now false) events =
      .ok ⟨s'.wheel, none⟩ := by
  rw [Scheduler.onTimer] at done
  by_cases passed : s.wheel.SecondPassed now
  · rw [if_neg passed.1, if_neg (Int.not_lt.mpr passed.2)] at done
    rw [start_timer_passed callbacks.setOrder false passed]
    exact advance_program callbacks now sound done
  · refine ⟨[], ?_⟩
    rw [TimingWheel.startTimer]
    by_cases unset : s.wheel.lastTs = 0
    · rw [if_pos unset] at done ⊢
      dsimp only at done ⊢
      rw [if_pos (by omega)] at done ⊢
      cases done
      rfl
    · have soon : now - s.wheel.lastTs < 1000 := Int.lt_of_not_ge fun late => passed ⟨unset, late⟩
      rw [if_neg unset, if_pos soon] at done ⊢
      cases done
      rfl

theorem step_program {s s' : Scheduler} (callbacks : Callbacks) (event : WheelEvent) (short : ShortEvent event)
    (sound : OnSchedule [] [] s) (stepped : s.step callbacks event = .ok s') :
    ∃ events, run (programStep callbacks.setOrder) (.ok ⟨s.wheel, none⟩) events = .ok ⟨s'.wheel, none⟩ := by
  have inserted (other : WheelEvent) (brief : ShortTimer other) (done : s.insert other = .ok s') :
      run (programStep callbacks.setOrder) (.ok ⟨s.wheel, none⟩) [.wheel other] = .ok ⟨s'.wheel, none⟩ := by
    refine insert_all_program callbacks.setOrder none [other] (List.forall_mem_singleton.mpr brief) ?_
    rw [Scheduler.insertAll, done]
    rfl
  cases event with
  | onTimer now =>
      obtain ⟨events, back⟩ := timer_program callbacks now sound stepped
      exact ⟨.wheel (.onTimer now) :: events, back⟩
  | runAfter delay id => exact ⟨_, inserted (.runAfter delay id) short stepped⟩
  | runEvery interval id => exact ⟨_, inserted (.runEvery interval id) short stepped⟩
  | insertTimeout delay => exact ⟨_, inserted (.insertTimeout delay) short stepped⟩

theorem scheduler_runs_program (callbacks : Callbacks) (events : List WheelEvent)
    (short : ∀ event ∈ events, ShortEvent event) :
    ∃ s events', run (schedulerStep callbacks) (.ok ⟨.fresh, []⟩) events = .ok s ∧
      run (programStep callbacks.setOrder) (.ok .fresh) events' = .ok ⟨s.wheel, none⟩ := by
  have known : ∃ s events', run (schedulerStep callbacks) (.ok ⟨.fresh, []⟩) events = .ok s ∧ OnSchedule [] [] s ∧
      run (programStep callbacks.setOrder) (.ok .fresh) events' = .ok ⟨s.wheel, none⟩ := by
    refine run_history (fun _ state => ∃ s events', state = Except.ok s ∧ OnSchedule [] [] s ∧
        run (programStep callbacks.setOrder) (.ok .fresh) events' = .ok ⟨s.wheel, none⟩)
      (fun _ event => ShortEvent event) ⟨_, [], rfl, fresh_on_schedule, rfl⟩ ?_ events ?_
    · rintro past event allowed ⟨s, events', reached, sound, program⟩
      obtain ⟨s', stepped, sound'⟩ := step_on_schedule callbacks event allowed sound
      obtain ⟨more, back⟩ := step_program callbacks event allowed sound stepped
      refine ⟨s', events' ++ more, by rw [reached]; exact stepped, sound', ?_⟩
      rw [run_append, program, back]
    · rintro past event rest rfl
      exact short event (List.mem_append_right _ List.mem_cons_self)
  obtain ⟨s, events', reached, _, program⟩ := known
  exact ⟨s, events', reached, program⟩

theorem calls_of_id (r : Registration) (now id : Nat) :
    ((r.calls now).filter fun call => call.1 = id) = if r.id = id then r.calls now else [] := by
  by_cases same : r.id = id
  · rw [if_pos same]
    refine List.filter_eq_self.mpr fun call inList => decide_eq_true ?_
    obtain ⟨tick, _, rfl⟩ := List.mem_map.mp inList
    exact same
  · rw [if_neg same]
    refine List.filter_eq_nil_iff.mpr fun call inList equal => same ?_
    obtain ⟨tick, _, rfl⟩ := List.mem_map.mp inList
    exact of_decide_eq_true equal

theorem calls_filtered (registered : List Registration) (now id : Nat) :
    ((registered.flatMap fun r => r.calls now).filter fun call => call.1 = id) =
      (registered.filter fun r => r.id = id).flatMap fun r => r.calls now := by
  induction registered with
  | nil => rfl
  | cons r rest ih =>
      rw [List.flatMap_cons, List.filter_append, ih, calls_of_id]
      by_cases same : r.id = id
      · rw [if_pos same, List.filter_cons, if_pos (decide_eq_true same), List.flatMap_cons]
      · rw [if_neg same, List.filter_cons, if_neg (by simpa using same), List.nil_append]

theorem calls_of_timer {w : TimingWheel} {registered : List Registration}
    (calls : w.executed.Perm (registered.flatMap fun r => r.calls w.tick)) (r : Registration)
    (only : (registered.filter fun other => other.id = r.id) = [r]) : (w.callsOf r.id).Perm (r.ticks w.tick) := by
  have perm := (calls.filter fun call => call.1 = r.id).map Prod.snd
  rw [calls_filtered, only, List.flatMap_singleton, Registration.calls, List.map_map] at perm
  have ticks : (r.ticks w.tick).map (Prod.snd ∘ fun tick => (r.id, tick)) = r.ticks w.tick := List.map_id _
  rwa [ticks] at perm

def startsAnother : Callbacks where
  body := fun _ id => if id = 1 then [.runAfter 1 2] else []
  order := id
  short := by
    intro executed id event inBody
    by_cases first : id = 1
    · rw [if_pos first] at inBody
      rw [List.mem_singleton.mp inBody]
      exact ⟨by decide, by decide⟩
    · rw [if_neg first] at inBody
      cases inBody
  perm := fun _ => .refl _

def twoSeconds : List WheelEvent := [.onTimer 1, .runAfter 1 1, .runEvery 1 3, .onTimer 1001, .onTimer 2001]

theorem two_seconds_short : ∀ event ∈ twoSeconds, ShortEvent event := by
  simp [twoSeconds, ShortEvent, ShortTimer]

end Lssvc.Network
