import Lssvc.Network.TimingWheel

set_option autoImplicit false

namespace Lssvc.Network

open Lssvc.Foundation

inductive Due where
  | call (tick : Nat)
  | fault (tick : Nat)
deriving DecidableEq, Repr

def Due.tick : Due → Nat
  | .call tick => tick
  | .fault tick => tick

def owed (id tick : Nat) : Entry → List Due
  | .callback other => if other = id then [.call tick] else []
  | _ => []

def landing (id tick left : Nat) (entry : Entry) : List Due :=
  if left = 0 then [.fault tick] else owed id (tick + left) entry

def dueSecond (id tick index : Nat) (entry : Entry) : List Due := owed id (tick + index + 1) entry

-- `turns` counts the turns of the minute wheel.
def dueMinute (id turns index : Nat) : Entry → List Due
  | .migration left entry => landing id ((turns + index + 1) * kTimingMinute) left entry
  | _ => []

def arrival (id turns tick delay : Nat) (entry : Entry) : List Due :=
  if delay < kTimingMinute then owed id (tick + delay) entry
  else if delay < kTimingHour then landing id ((turns + delay / kTimingMinute) * kTimingMinute) (delay % kTimingMinute) entry
  else []

def TimingWheel.callsOf (w : TimingWheel) (id : Nat) : List Nat :=
  (w.executed.filter fun call => call.1 = id).map Prod.snd

def TimingWheel.timelineAt (w : TimingWheel) (id turns : Nat) : List Due :=
  (w.callsOf id).map .call ++ (spread (dueSecond id w.tick) 0 (w.wheels .kTimingTypeSecond) ++
    spread (dueMinute id turns) 0 (w.wheels .kTimingTypeMinute))

def TimingWheel.timeline (w : TimingWheel) (id : Nat) : List Due := w.timelineAt id (w.tick / kTimingMinute)

-- What the second wheel may hold. An interval in it is reinserted without fail.
def Settled (id : Nat) : Entry → Prop
  | .callback _ => True
  | .every interval other => other ≠ id ∧ toUint32 interval < kTimingHour ∧ toUint32 interval % kTimingMinute ≠ 0
  | .timeout => True
  | .migration _ _ => False

def Coming (id : Nat) : Entry → Prop
  | .migration left entry => left < kTimingMinute ∧ (left ≠ 0 → Settled id entry)
  | _ => False

def Sized (w : TimingWheel) : Prop := ∀ type, (w.wheels type).length = (TimingWheel.fresh.wheels type).length

structure Ready (id : Nat) (w : TimingWheel) : Prop where
  sized : Sized w
  settled : AllItems (Settled id) (w.wheels .kTimingTypeSecond)
  coming : AllItems (Coming id) (w.wheels .kTimingTypeMinute)
  past : ∀ call ∈ w.executed, call.2 ≤ w.tick

structure Effect (id turns : Nat) (given : List Due) (w w' : TimingWheel) : Prop where
  ready : Ready id w'
  tick : w'.tick = w.tick
  timeline : (w'.timelineAt id turns).Perm (given ++ w.timelineAt id turns)

theorem Effect.refl {id turns : Nat} {w : TimingWheel} (ready : Ready id w) : Effect id turns [] w w :=
  ⟨ready, rfl, .refl _⟩

theorem Effect.trans {id turns : Nat} {first second : List Due} {w w' w'' : TimingWheel}
    (earlier : Effect id turns first w w') (later : Effect id turns second w' w'') :
    Effect id turns (first ++ second) w w'' := by
  refine ⟨later.ready, later.tick.trans earlier.tick, later.timeline.trans ?_⟩
  refine (List.Perm.append_left second earlier.timeline).trans ?_
  rw [List.append_assoc]
  exact List.perm_append_comm_assoc _ _ _

theorem sized_fresh : Sized .fresh := fun _ => rfl

theorem sized_set_wheel {w : TimingWheel} (sized : Sized w) (type : TimingType) (wheel : List (List Entry))
    (same : wheel.length = (w.wheels type).length) : Sized (w.setWheel type wheel) := by
  intro other
  by_cases here : other = type
  · subst here
    rw [set_wheel_same, same, sized other]
  · rw [set_wheel_other w here, sized other]

theorem ready_fresh (id : Nat) : Ready id .fresh := by
  refine ⟨sized_fresh, ?_, ?_, ?_⟩
  · intro slot listed
    rw [List.eq_of_mem_replicate listed]
    exact List.forall_mem_nil _
  · intro slot listed
    rw [List.eq_of_mem_replicate listed]
    exact List.forall_mem_nil _
  · exact List.forall_mem_nil _

theorem owed_time {id tick : Nat} {entry : Entry} {due : Due} (owes : due ∈ owed id tick entry) : due = .call tick := by
  cases entry with
  | callback other =>
      rw [owed] at owes
      by_cases same : other = id
      · rw [if_pos same] at owes
        exact List.mem_singleton.mp owes
      · rw [if_neg same] at owes
        cases owes
  | every _ _ => cases owes
  | timeout => cases owes
  | migration _ _ => cases owes

theorem landing_time {id tick left : Nat} {entry : Entry} {due : Due} (lands : due ∈ landing id tick left entry) :
    tick ≤ due.tick := by
  rw [landing] at lands
  by_cases empty : left = 0
  · rw [if_pos empty] at lands
    rw [List.mem_singleton.mp lands]
    exact Nat.le_refl tick
  · rw [if_neg empty] at lands
    rw [owed_time lands]
    exact Nat.le_add_right tick left

theorem put_second {id : Nat} {w : TimingWheel} (turns : Nat) (ready : Ready id w) (delay : Nat)
    (some' : delay ≠ 0) (small : delay < kTimingMinute) (entry : Entry) (settled : Settled id entry) :
    ∃ w', w.insertSecondEntry delay entry = .ok w' ∧ Effect id turns (owed id (w.tick + delay) entry) w w' := by
  have length : (w.wheels .kTimingTypeSecond).length = 60 := ready.sized .kTimingTypeSecond
  have index : toUint32 ((delay : Int) - 1) = delay - 1 := by
    have bound : delay < 60 := small
    rw [toUint32]
    omega
  have inside : delay - 1 < (w.wheels .kTimingTypeSecond).length := by
    rw [kTimingMinute] at small
    omega
  refine ⟨w.setWheel .kTimingTypeSecond (putSlot (w.wheels .kTimingTypeSecond) (delay - 1) entry), ?_, ?_, rfl, ?_⟩
  · rw [TimingWheel.insertSecondEntry, TimingWheel.emplace, index, if_pos inside]
  · exact ⟨sized_set_wheel ready.sized _ _ (put_slot_length ..), all_items_put ready.settled _ settled, ready.coming,
      ready.past⟩
  · have here : w.tick + (0 + (delay - 1)) + 1 = w.tick + delay := by omega
    have put := put_slot_perm (dueSecond id w.tick) (w.wheels .kTimingTypeSecond) 0 (delay - 1) inside entry
    rw [dueSecond, here] at put
    refine (List.Perm.append_left _ (List.Perm.append_right _ put)).trans ?_
    rw [List.append_assoc]
    exact List.perm_append_comm_assoc _ _ _

theorem put_minute {id : Nat} {w : TimingWheel} (turns : Nat) (ready : Ready id w) (delay : Nat)
    (low : kTimingMinute ≤ delay) (high : delay < kTimingHour) (entry : Entry)
    (settled : delay % kTimingMinute ≠ 0 → Settled id entry) :
    ∃ w', w.insertMinuteEntry delay entry = .ok w' ∧
      Effect id turns (landing id ((turns + delay / kTimingMinute) * kTimingMinute) (delay % kTimingMinute) entry) w w' := by
  have length : (w.wheels .kTimingTypeMinute).length = 60 := ready.sized .kTimingTypeMinute
  rw [kTimingMinute] at low
  rw [kTimingHour] at high
  have index : toUint32 ((delay / kTimingMinute : Nat) - 1) = delay / kTimingMinute - 1 := by
    rw [toUint32, kTimingMinute]
    omega
  have inside : delay / kTimingMinute - 1 < (w.wheels .kTimingTypeMinute).length := by
    rw [kTimingMinute]
    omega
  refine ⟨w.setWheel .kTimingTypeMinute (putSlot (w.wheels .kTimingTypeMinute) (delay / kTimingMinute - 1)
    (.migration (delay % kTimingMinute) entry)), ?_, ?_, rfl, ?_⟩
  · rw [TimingWheel.insertMinuteEntry, TimingWheel.emplace, index, if_pos inside]
  · exact ⟨sized_set_wheel ready.sized _ _ (put_slot_length ..), ready.settled,
      all_items_put ready.coming _ ⟨Nat.mod_lt _ (by decide), settled⟩, ready.past⟩
  · have here : turns + (0 + (delay / kTimingMinute - 1)) + 1 = turns + delay / kTimingMinute := by
      rw [kTimingMinute]
      omega
    have put := put_slot_perm (dueMinute id turns) (w.wheels .kTimingTypeMinute) 0 (delay / kTimingMinute - 1) inside
      (.migration (delay % kTimingMinute) entry)
    rw [dueMinute, here] at put
    refine (List.Perm.append_left _ (List.Perm.append_left _ put)).trans ?_
    refine (List.Perm.append_left _ (List.perm_append_comm_assoc _ _ _)).trans ?_
    exact List.perm_append_comm_assoc _ _ _

-- The hour and the day wheel: nothing of them shows in the timeline.

theorem put_slower {id : Nat} {w : TimingWheel} (turns : Nat) (ready : Ready id w) (type : TimingType)
    (slower : type ≠ .kTimingTypeSecond ∧ type ≠ .kTimingTypeMinute) (index : Nat)
    (inside : index < (w.wheels type).length) (entry : Entry) :
    ∃ w', w.emplace type index entry = .ok w' ∧ Effect id turns [] w w' := by
  have second := set_wheel_other w slower.1.symm (putSlot (w.wheels type) index entry)
  have minute := set_wheel_other w slower.2.symm (putSlot (w.wheels type) index entry)
  refine ⟨w.setWheel type (putSlot (w.wheels type) index entry), ?_, ?_, rfl, ?_⟩
  · rw [TimingWheel.emplace, if_pos inside]
  · refine ⟨sized_set_wheel ready.sized _ _ (put_slot_length ..), ?_, ?_, ready.past⟩
    · rw [second]
      exact ready.settled
    · rw [minute]
      exact ready.coming
  · rw [TimingWheel.timelineAt, second, minute]
    exact .refl _

theorem insert_entry_zero {w : TimingWheel} (sized : Sized w) (entry : Entry) :
    w.insertEntry 0 entry = .error .outOfRange := by
  have length : (w.wheels .kTimingTypeSecond).length = 60 := sized .kTimingTypeSecond
  have outside : ¬ toUint32 (((0 : Nat) : Int) - 1) < (w.wheels .kTimingTypeSecond).length := by
    rw [length]
    decide
  rw [TimingWheel.insertEntry, if_pos (by decide), TimingWheel.insertSecondEntry, TimingWheel.emplace, if_neg outside]
  rfl

theorem insert_entry_effect {id : Nat} {w : TimingWheel} (turns : Nat) (ready : Ready id w) (delay : Nat)
    (some' : delay ≠ 0) (entry : Entry)
    (settled : delay < kTimingHour → delay % kTimingMinute ≠ 0 → Settled id entry) :
    ∃ w', w.insertEntry delay entry = .ok (w', decide (delay / kTimingDay ≤ 30)) ∧
      Effect id turns (arrival id turns w.tick delay entry) w w' := by
  rw [TimingWheel.insertEntry, arrival]
  by_cases seconds : delay < kTimingMinute
  · have left : delay % kTimingMinute ≠ 0 := by rwa [Nat.mod_eq_of_lt seconds]
    have hour : delay < kTimingHour := Nat.lt_trans seconds (by decide)
    obtain ⟨w', put, effect⟩ := put_second turns ready delay some' seconds entry (settled hour left)
    have keep : delay / kTimingDay ≤ 30 := by
      rw [kTimingHour] at hour
      rw [kTimingDay]
      omega
    rw [if_pos seconds, if_pos seconds, put, decide_eq_true keep]
    exact ⟨w', rfl, effect⟩
  · rw [if_neg seconds, if_neg seconds]
    by_cases minutes : delay < kTimingHour
    · obtain ⟨w', put, effect⟩ := put_minute turns ready delay (Nat.le_of_not_lt seconds) minutes entry (settled minutes)
      have keep : delay / kTimingDay ≤ 30 := by
        rw [kTimingHour] at minutes
        rw [kTimingDay]
        omega
      rw [if_pos minutes, if_pos minutes, put, decide_eq_true keep]
      exact ⟨w', rfl, effect⟩
    · rw [if_neg minutes, if_neg minutes]
      by_cases hours : delay < kTimingDay
      · have length : (w.wheels .kTimingTypeHour).length = 24 := ready.sized .kTimingTypeHour
        obtain ⟨w', put, effect⟩ := put_slower turns ready .kTimingTypeHour (by decide)
          (toUint32 ((delay / kTimingHour : Nat) - 1))
          (by rw [length, toUint32]; rw [kTimingDay] at hours; rw [kTimingHour] at minutes ⊢; omega)
          (.migration (delay % kTimingHour) entry)
        have keep : delay / kTimingDay ≤ 30 := by
          rw [kTimingDay] at hours ⊢
          omega
        rw [if_pos hours, TimingWheel.insertHourEntry, put, decide_eq_true keep]
        exact ⟨w', rfl, effect⟩
      · rw [if_neg hours]
        by_cases far : delay / kTimingDay > 30
        · rw [if_pos far, decide_eq_false (Nat.not_le_of_gt far)]
          exact ⟨w, rfl, .refl ready⟩
        · have length : (w.wheels .kTimingTypeDay).length = 30 := ready.sized .kTimingTypeDay
          obtain ⟨w', put, effect⟩ := put_slower turns ready .kTimingTypeDay (by decide)
            (toUint32 ((delay / kTimingDay : Nat) - 1))
            (by rw [length, toUint32]; rw [kTimingDay] at hours far ⊢; omega)
            (.migration (delay % kTimingDay) entry)
          rw [if_neg far, TimingWheel.insertDayEntry, put, decide_eq_true (Nat.le_of_not_gt far)]
          exact ⟨w', rfl, effect⟩

theorem execute_effect {id : Nat} {w : TimingWheel} (turns : Nat) (ready : Ready id w) (other : Nat) :
    Effect id turns (owed id w.tick (.callback other)) w (w.execute other) := by
  refine ⟨⟨ready.sized, ready.settled, ready.coming, ?_⟩, rfl, ?_⟩
  · refine List.forall_mem_append.mpr ⟨ready.past, ?_⟩
    exact List.forall_mem_singleton.mpr (Nat.le_refl _)
  · rw [TimingWheel.timelineAt, TimingWheel.callsOf, TimingWheel.execute, owed]
    by_cases same : other = id
    · rw [if_pos same]
      simp only [List.filter_append, List.filter_cons, same, decide_true, if_true, List.filter_nil, List.map_append,
        List.map_cons, List.map_nil, List.append_assoc]
      exact List.perm_append_comm_assoc _ _ _
    · rw [if_neg same]
      simp only [List.filter_append, List.filter_cons, same, decide_false, Bool.false_eq_true, if_false, List.filter_nil,
        List.append_nil, List.nil_append]
      exact .refl _

theorem destroy_coming {id : Nat} {w : TimingWheel} (turns : Nat) (ready : Ready id w) (left : Nat) (entry : Entry)
    (coming : Coming id (.migration left entry)) (some' : left ≠ 0) :
    ∃ w', w.destroy (.migration left entry) = .ok w' ∧ Effect id turns (landing id w.tick left entry) w w' := by
  obtain ⟨w', inserted, effect⟩ := insert_entry_effect turns ready left some' entry (fun _ _ => coming.2 some')
  have keep : left / kTimingDay ≤ 30 := by
    have bound := coming.1
    rw [kTimingMinute] at bound
    rw [kTimingDay]
    omega
  rw [decide_eq_true keep] at inserted
  rw [arrival, if_pos coming.1] at effect
  refine ⟨w', by rw [TimingWheel.destroy, inserted], ?_⟩
  rw [landing, if_neg some']
  exact effect

theorem destroy_all_effect {id : Nat} {w : TimingWheel} (turns : Nat) (ready : Ready id w)
    (value : Entry → List Due) (entries : List Entry)
    (each : ∀ entry ∈ entries, ∀ w', Ready id w' → w'.tick = w.tick →
      ∃ w'', w'.destroy entry = .ok w'' ∧ Effect id turns (value entry) w' w'') :
    ∃ w', w.destroyAll entries = .ok w' ∧ Effect id turns (entries.flatMap value) w w' := by
  induction entries generalizing w with
  | nil => exact ⟨w, rfl, .refl ready⟩
  | cons entry entries ih =>
      obtain ⟨w', here, first⟩ := each entry List.mem_cons_self w ready rfl
      obtain ⟨w'', later, rest⟩ := ih first.ready fun other listed w'' ready'' same =>
        each other (List.mem_cons_of_mem _ listed) w'' ready'' (same.trans first.tick)
      refine ⟨w'', ?_, first.trans rest⟩
      rw [TimingWheel.destroyAll, here]
      exact later

end Lssvc.Network
