import Lssvc.Network.Timeline

set_option autoImplicit false

namespace Lssvc.Network

open Lssvc.Foundation

structure SetOrder where
  order : List Entry → List Entry
  perm : ∀ entries, (order entries).Perm entries

def listOrder : SetOrder := ⟨fun entries => entries, fun _ => .refl _⟩

-- A wheel in its loop. While a callback runs inside of popUp, `running` has what
-- the set has still to destroy: the timers the callback inserts are events between
-- its call and its return.
structure WheelProgram where
  wheel : TimingWheel
  running : Option (List Entry) := none

-- The set goes on to the next callback. The one of runEvery inserts itself again
-- when it returns. Behind the last entry onTimer pops the slower wheels, whose
-- migrations call nothing.
def TimingWheel.resume (w : TimingWheel) : List Entry → Except WheelFault WheelProgram
  | [] => w.popUpSlower.map fun wheel => ⟨wheel, none⟩
  | .callback id :: rest => .ok ⟨w.execute id, some rest⟩
  | .every interval id :: rest =>
      .ok ⟨w.execute id, some (.migration (toUint32 interval) (.every interval id) :: rest)⟩
  | .timeout :: rest => .ok ⟨w, some rest⟩
  | .migration delay entry :: rest =>
      match w.destroy (.migration delay entry) with
      | .error fault => .error fault
      | .ok w => w.resume rest

-- The second wheel turns and its front slot goes away, with a TimeoutEntry beside
-- those the wheel is said to hold where `closing` is set.
def TimingWheel.turn (w : TimingWheel) (order : SetOrder) (now : Int) (closing : Bool) : Except WheelFault WheelProgram :=
  let front := (w.wheels .kTimingTypeSecond).headD []
  TimingWheel.resume ({ w with lastTs := now, tick := w.tick + 1 }.setWheel .kTimingTypeSecond
    (turnSlots (w.wheels .kTimingTypeSecond))) (order.order (if closing then .timeout :: front else front))

def TimingWheel.startTimer (w : TimingWheel) (order : SetOrder) (now : Int) (closing : Bool) :
    Except WheelFault WheelProgram :=
  let w := if w.lastTs = 0 then { w with lastTs := now } else w
  if now - w.lastTs < 1000 then .ok ⟨w, none⟩ else w.turn order now closing

inductive ProgramEvent where
  | wheel (event : WheelEvent)
  | returns
deriving DecidableEq, Repr

-- No callback calls onTimer.
def WheelProgram.step (order : SetOrder) (closing : Bool) (p : WheelProgram) : ProgramEvent → Except WheelFault WheelProgram
  | .wheel (.onTimer now) =>
      match p.running with
      | none => p.wheel.startTimer order now closing
      | some _ => .ok p
  | .wheel event => (p.wheel.step event).map fun wheel => { p with wheel := wheel }
  | .returns =>
      match p.running with
      | none => .ok p
      | some rest => p.wheel.resume rest

def programStep (order : SetOrder) (state : Except WheelFault WheelProgram) (event : ProgramEvent) :
    Except WheelFault WheelProgram :=
  state.bind fun p => p.step order false event

def WheelProgram.fresh : WheelProgram := { wheel := .fresh }

def Hollow : Entry → Prop
  | .migration left _ => left = 0
  | _ => False

def Pending (id : Nat) : Entry → Prop
  | .migration delay (.every interval other) => delay = toUint32 interval ∧ Settled id (.every interval other)
  | entry => Settled id entry

def WheelProgram.turns (p : WheelProgram) : Nat :=
  match p.running with
  | none => p.wheel.tick / kTimingMinute
  | some _ => (p.wheel.tick - 1) / kTimingMinute

def WheelProgram.outlook (p : WheelProgram) (id : Nat) : List Due :=
  (p.running.getD []).flatMap (owed id p.wheel.tick) ++ p.wheel.timelineAt id p.turns

structure Running (id : Nat) (p : WheelProgram) : Prop where
  ready : Ready id p.wheel
  begun : ∀ rest ∈ p.running, 0 < p.wheel.tick
  pending : ∀ rest ∈ p.running, ∀ entry ∈ rest, Pending id entry

theorem running_between {id : Nat} {w : TimingWheel} (ready : Ready id w) : Running id ⟨w, none⟩ := ⟨ready, nofun, nofun⟩

theorem running_fresh (id : Nat) : Running id .fresh := running_between (ready_fresh id)

theorem hollow_survives {id : Nat} {w w' : TimingWheel} (ready : Ready id w) (entries : List Entry)
    (coming : ∀ entry ∈ entries, Coming id entry) (kept : w.destroyAll entries = .ok w') :
    ∀ entry ∈ entries, ¬ Hollow entry := by
  induction entries generalizing w with
  | nil => exact List.forall_mem_nil _
  | cons entry entries ih =>
      obtain ⟨here, later⟩ := List.forall_mem_cons.mp coming
      cases entry with
      | migration left entry =>
          by_cases empty : left = 0
          · subst empty
            rw [TimingWheel.destroyAll, TimingWheel.destroy, insert_entry_zero ready.sized] at kept
            cases kept
          · obtain ⟨w'', gone, effect⟩ := destroy_coming 0 ready left entry here empty
            rw [TimingWheel.destroyAll, gone] at kept
            exact List.forall_mem_cons.mpr ⟨empty, ih effect.ready later kept⟩
      | callback _ => exact here.elim
      | every _ _ => exact here.elim
      | timeout => exact here.elim

theorem pop_minute {id : Nat} {w : TimingWheel} (turns : Nat) (ready : Ready id w)
    (now : w.tick = (turns + 1) * kTimingMinute)
    (full : ∀ entry ∈ (w.wheels .kTimingTypeMinute).headD [], ¬ Hollow entry) :
    ∃ w', w.popUp .kTimingTypeMinute = .ok w' ∧ Ready id w' ∧ w'.tick = w.tick ∧
      (w'.timelineAt id (turns + 1)).Perm (w.timelineAt id turns) := by
  have length : (w.wheels .kTimingTypeMinute).length = 60 := ready.sized .kTimingTypeMinute
  have turned := turn_slots_length (w.wheels .kTimingTypeMinute) (List.ne_nil_of_length_eq_add_one length)
  obtain ⟨behind, front⟩ := all_items_turn ready.coming
  let next := w.setWheel .kTimingTypeMinute (turnSlots (w.wheels .kTimingTypeMinute))
  have readyNext : Ready id next :=
    ⟨sized_set_wheel ready.sized _ _ turned, ready.settled, behind, ready.past⟩
  have each : ∀ entry ∈ (w.wheels .kTimingTypeMinute).headD [], ∀ w'', Ready id w'' → w''.tick = w.tick →
      ∃ last, w''.destroy entry = .ok last ∧ Effect id (turns + 1) (dueMinute id turns 0 entry) w'' last := by
    intro entry listed w'' ready'' same
    have coming := front entry listed
    cases entry with
    | migration left entry =>
        have tick : w''.tick = (turns + 0 + 1) * kTimingMinute := same.trans now
        rw [dueMinute, ← tick]
        exact destroy_coming (turns + 1) ready'' left entry coming (full _ listed)
    | callback _ => exact coming.elim
    | every _ _ => exact coming.elim
    | timeout => exact coming.elim
  obtain ⟨w', popped, effect⟩ := destroy_all_effect (turns + 1) readyNext (dueMinute id turns 0) _ each
  refine ⟨w', popped, effect.ready, effect.tick, effect.timeline.trans ?_⟩
  have shift : ∀ index entry, dueMinute id turns (index + 1) entry = dueMinute id (turns + 1) index entry := by
    intro index entry
    cases entry with
    | migration left entry =>
        rw [dueMinute, dueMinute, Nat.add_right_comm turns 1 index]
        rfl
    | callback _ => rfl
    | every _ _ => rfl
    | timeout => rfl
  have turn := spread_turn (dueMinute id turns) (dueMinute id (turns + 1)) shift (w.wheels .kTimingTypeMinute)
  rw [TimingWheel.timelineAt, TimingWheel.timelineAt, turn]
  refine (List.perm_append_comm_assoc _ _ _).trans (List.Perm.append_left _ ?_)
  exact List.perm_append_comm_assoc _ _ _

theorem hollow_due (id turns : Nat) {w : TimingWheel} {slot : List Entry} {entry : Entry}
    (listed : slot ∈ w.wheels .kTimingTypeMinute) (inSlot : entry ∈ slot) (hollow : Hollow entry) :
    ∃ tick, .fault tick ∈ w.timelineAt id turns := by
  obtain ⟨index, all⟩ := spread_mem (dueMinute id turns) 0 listed inSlot
  cases entry with
  | migration left entry =>
      have empty : left = 0 := hollow
      refine ⟨(turns + (0 + index) + 1) * kTimingMinute, ?_⟩
      refine List.mem_append_right _ (List.mem_append_right _ (all _ ?_))
      rw [dueMinute, landing, if_pos empty]
      exact List.mem_singleton_self _
  | callback _ => exact hollow.elim
  | every _ _ => exact hollow.elim
  | timeout => exact hollow.elim

theorem pop_slower_cases {id : Nat} {w : TimingWheel} (ready : Ready id w) (begun : 0 < w.tick) :
    (∃ w', w.popUpSlower = .ok w' ∧ Ready id w' ∧ w'.tick = w.tick ∧
        (w'.timeline id).Perm (w.timelineAt id ((w.tick - 1) / kTimingMinute))) ∨
      (∃ fault, w.popUpSlower = .error fault) ∧
        ∃ tick, .fault tick ∈ w.timelineAt id ((w.tick - 1) / kTimingMinute) := by
  by_cases minute : w.tick % kTimingMinute = 0
  · rw [TimingWheel.popUpSlower, if_pos minute]
    have turn : w.tick = ((w.tick - 1) / kTimingMinute + 1) * kTimingMinute := by
      rw [kTimingMinute] at minute ⊢
      omega
    cases popped : w.popUp .kTimingTypeMinute with
    | ok last =>
        obtain ⟨behind, front⟩ := all_items_turn ready.coming
        have full := hollow_survives ⟨sized_set_wheel ready.sized _ _ (turn_slots_length _
          (List.ne_nil_of_length_eq_add_one (ready.sized .kTimingTypeMinute))), ready.settled, behind, ready.past⟩
          _ front popped
        obtain ⟨same, popped', readyLast, tick, timeline⟩ := pop_minute _ ready turn full
        rw [popped] at popped'
        cases popped'
        refine .inl ⟨last, rfl, readyLast, tick, ?_⟩
        have turns : last.tick / kTimingMinute = (w.tick - 1) / kTimingMinute + 1 := by
          rw [tick]
          rw [kTimingMinute] at minute ⊢
          omega
        rw [TimingWheel.timeline, turns]
        exact timeline
    | error fault =>
        refine .inr ⟨⟨fault, rfl⟩, ?_⟩
        by_cases full : ∀ entry ∈ (w.wheels .kTimingTypeMinute).headD [], ¬ Hollow entry
        · obtain ⟨last, popped', _⟩ := pop_minute _ ready turn full
          rw [popped] at popped'
          cases popped'
        · push Not at full
          obtain ⟨entry, front, hollow⟩ := full
          cases wheel : w.wheels .kTimingTypeMinute with
          | nil =>
              rw [wheel] at front
              cases front
          | cons slot slots =>
              rw [wheel] at front
              exact hollow_due id _ (by rw [wheel]; exact List.mem_cons_self) front hollow
  · rw [pop_up_slower_between minute]
    refine .inl ⟨w, rfl, ready, rfl, ?_⟩
    have turns : w.tick / kTimingMinute = (w.tick - 1) / kTimingMinute := by
      rw [kTimingMinute] at minute ⊢
      omega
    rw [TimingWheel.timeline, turns]

theorem destroy_again {id : Nat} {w : TimingWheel} (turns : Nat) (ready : Ready id w) (interval : Int) (other : Nat)
    (settled : Settled id (.every interval other)) :
    ∃ w', w.destroy (.migration (toUint32 interval) (.every interval other)) = .ok w' ∧ Effect id turns [] w w' := by
  have some' : toUint32 interval ≠ 0 := fun zero => settled.2.2 (by rw [zero, Nat.zero_mod])
  obtain ⟨w', inserted, effect⟩ := insert_entry_effect turns ready (toUint32 interval) some' (.every interval other)
    (fun _ _ => settled)
  have keep : toUint32 interval / kTimingDay ≤ 30 := by
    have hour := settled.2.1
    rw [kTimingHour] at hour
    rw [kTimingDay]
    omega
  have nothing : arrival id turns w.tick (toUint32 interval) (.every interval other) = [] := by
    rw [arrival, if_pos settled.2.1, landing, if_neg settled.2.2]
    exact ite_self _
  rw [decide_eq_true keep] at inserted
  rw [nothing] at effect
  exact ⟨w', by rw [TimingWheel.destroy, inserted], effect⟩

theorem resume_cases {id : Nat} {w : TimingWheel} (ready : Ready id w) (begun : 0 < w.tick) (rest : List Entry)
    (pending : ∀ entry ∈ rest, Pending id entry) :
    (∃ p, w.resume rest = .ok p ∧ Running id p ∧ p.wheel.tick = w.tick ∧
        (p.outlook id).Perm (rest.flatMap (owed id w.tick) ++ w.timelineAt id ((w.tick - 1) / kTimingMinute))) ∨
      (∃ fault, w.resume rest = .error fault) ∧
        ∃ tick, .fault tick ∈ w.timelineAt id ((w.tick - 1) / kTimingMinute) := by
  induction rest generalizing w with
  | nil =>
      rw [TimingWheel.resume]
      rcases pop_slower_cases ready begun with ⟨w', popped, ready', tick, timeline⟩ | ⟨⟨fault, stuck⟩, due⟩
      · rw [popped]
        exact .inl ⟨_, rfl, running_between ready', tick, timeline⟩
      · rw [stuck]
        exact .inr ⟨⟨fault, rfl⟩, due⟩
  | cons entry rest ih =>
      obtain ⟨here, later⟩ := List.forall_mem_cons.mp pending
      cases entry with
      | callback other =>
          have effect := execute_effect ((w.tick - 1) / kTimingMinute) ready other
          refine .inl ⟨_, rfl, ⟨effect.ready, ?_, ?_⟩, rfl, ?_⟩
          · rintro _ ⟨⟩
            exact begun
          · rintro _ ⟨⟩
            exact later
          · refine (List.Perm.append_left _ effect.timeline).trans ?_
            rw [List.flatMap_cons, List.append_assoc]
            exact List.perm_append_comm_assoc _ _ _
      | every interval other =>
          have effect := execute_effect ((w.tick - 1) / kTimingMinute) ready other
          have nothing : owed id w.tick (.callback other) = [] := if_neg here.1
          rw [nothing] at effect
          refine .inl ⟨_, rfl, ⟨effect.ready, ?_, ?_⟩, rfl, List.Perm.append_left _ effect.timeline⟩
          · rintro _ ⟨⟩
            exact begun
          · rintro _ ⟨⟩
            exact List.forall_mem_cons.mpr ⟨⟨rfl, here⟩, later⟩
      | timeout =>
          refine .inl ⟨_, rfl, ⟨ready, ?_, ?_⟩, rfl, .refl _⟩
          · rintro _ ⟨⟩
            exact begun
          · rintro _ ⟨⟩
            exact later
      | migration delay entry =>
          cases entry with
          | every interval other =>
              obtain ⟨rfl, settled⟩ := here
              obtain ⟨w', again, effect⟩ := destroy_again ((w.tick - 1) / kTimingMinute) ready interval other settled
              rw [TimingWheel.resume, again]
              have known := ih effect.ready (by rw [effect.tick]; exact begun) later
              rw [effect.tick] at known
              rcases known with ⟨p, resumed, running, tick, outlook⟩ | ⟨stuck, tick, due⟩
              · exact .inl ⟨p, resumed, running, tick, outlook.trans (List.Perm.append_left _ effect.timeline)⟩
              · exact .inr ⟨stuck, tick, effect.timeline.mem_iff.mp due⟩
          | callback _ => exact here.elim
          | timeout => exact here.elim
          | migration _ _ => exact here.elim

theorem settled_pending {id : Nat} {entry : Entry} (settled : Settled id entry) : Pending id entry := by
  cases entry with
  | migration _ _ => exact settled.elim
  | callback _ => exact settled
  | every _ _ => exact settled
  | timeout => exact settled

theorem turned_outlook {id : Nat} {w : TimingWheel} (turns : Nat) (now : Int) (ready : Ready id w) :
    let front := (w.wheels .kTimingTypeSecond).headD []
    let next := { w with lastTs := now, tick := w.tick + 1 }.setWheel .kTimingTypeSecond
      (turnSlots (w.wheels .kTimingTypeSecond))
    Ready id next ∧ (∀ entry ∈ front, Pending id entry) ∧
      (front.flatMap (owed id (w.tick + 1)) ++ next.timelineAt id turns).Perm (w.timelineAt id turns) := by
  have length : (w.wheels .kTimingTypeSecond).length = 60 := ready.sized .kTimingTypeSecond
  have turned := turn_slots_length (w.wheels .kTimingTypeSecond) (List.ne_nil_of_length_eq_add_one length)
  obtain ⟨behind, settled⟩ := all_items_turn ready.settled
  intro front next
  refine ⟨⟨sized_set_wheel ready.sized _ _ turned, behind, ready.coming, ?_⟩,
    fun entry listed => settled_pending (settled entry listed), ?_⟩
  · exact fun call listed => Nat.le_succ_of_le (ready.past call listed)
  · have shift : ∀ index entry, dueSecond id w.tick (index + 1) entry = dueSecond id (w.tick + 1) index entry := by
      intro index entry
      rw [dueSecond, dueSecond, Nat.add_right_comm w.tick 1 index]
      rfl
    have turn := spread_turn (dueSecond id w.tick) (dueSecond id (w.tick + 1)) shift (w.wheels .kTimingTypeSecond)
    rw [TimingWheel.timelineAt, TimingWheel.timelineAt, turn, List.append_assoc]
    exact List.perm_append_comm_assoc _ _ _

theorem turn_cases {id : Nat} {w : TimingWheel} (order : SetOrder) (now : Int) (closing : Bool) (ready : Ready id w) :
    (∃ p, w.turn order now closing = .ok p ∧ Running id p ∧ p.wheel.tick = w.tick + 1 ∧
        (p.outlook id).Perm (w.timeline id)) ∨
      (∃ fault, w.turn order now closing = .error fault) ∧ ∃ tick, .fault tick ∈ w.timeline id := by
  obtain ⟨ready', pending, outlook⟩ := turned_outlook (w.tick / kTimingMinute) now ready
  have owes : ((order.order (if closing then .timeout :: (w.wheels .kTimingTypeSecond).headD []
      else (w.wheels .kTimingTypeSecond).headD [])).flatMap (owed id (w.tick + 1))).Perm
        (((w.wheels .kTimingTypeSecond).headD []).flatMap (owed id (w.tick + 1))) := by
    refine ((order.perm _).flatMap_right _).trans ?_
    cases closing <;> exact .refl _
  have each : ∀ entry ∈ order.order (if closing then .timeout :: (w.wheels .kTimingTypeSecond).headD []
      else (w.wheels .kTimingTypeSecond).headD []), Pending id entry := by
    intro entry listed
    have inside := (order.perm _).mem_iff.mp listed
    cases closing with
    | true =>
        rcases List.mem_cons.mp inside with rfl | front
        · trivial
        · exact pending entry front
    | false => exact pending entry inside
  rcases resume_cases ready' (Nat.succ_pos w.tick) _ each with ⟨p, resumed, running, tick, same⟩ | ⟨stuck, tick, due⟩
  · exact .inl ⟨p, resumed, running, tick, same.trans ((List.Perm.append_right _ owes).trans outlook)⟩
  · exact .inr ⟨stuck, tick, outlook.mem_iff.mp (List.mem_append_right _ due)⟩

theorem start_timer_early {w : TimingWheel} (order : SetOrder) {now : Int} (closing : Bool)
    (early : ¬ w.SecondPassed now) : ∃ ts, w.startTimer order now closing = .ok ⟨{ w with lastTs := ts }, none⟩ := by
  rw [TimingWheel.startTimer]
  by_cases unset : w.lastTs = 0
  · rw [if_pos unset]
    dsimp only
    rw [if_pos (by omega)]
    exact ⟨now, rfl⟩
  · have soon : now - w.lastTs < 1000 := Int.lt_of_not_ge fun late => early ⟨unset, late⟩
    rw [if_neg unset, if_pos soon]
    exact ⟨w.lastTs, rfl⟩

theorem start_timer_passed {w : TimingWheel} (order : SetOrder) {now : Int} (closing : Bool)
    (passed : w.SecondPassed now) : w.startTimer order now closing = w.turn order now closing := by
  rw [TimingWheel.startTimer, if_neg passed.1]
  exact if_neg (Int.not_lt.mpr passed.2)

theorem start_timer_cases {id : Nat} {w : TimingWheel} (order : SetOrder) (now : Int) (closing : Bool)
    (ready : Ready id w) :
    (∃ p, w.startTimer order now closing = .ok p ∧ Running id p ∧
        p.wheel.tick = (if w.SecondPassed now then w.tick + 1 else w.tick) ∧ (p.outlook id).Perm (w.timeline id)) ∨
      (∃ fault, w.startTimer order now closing = .error fault) ∧ ∃ tick, .fault tick ∈ w.timeline id := by
  by_cases passed : w.SecondPassed now
  · rw [start_timer_passed order closing passed, if_pos passed]
    exact turn_cases order now closing ready
  · obtain ⟨ts, same⟩ := start_timer_early order closing passed
    rw [if_neg passed]
    exact .inl ⟨_, same, running_between ⟨ready.sized, ready.settled, ready.coming, ready.past⟩, rfl, .refl _⟩

end Lssvc.Network
