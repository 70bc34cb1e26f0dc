import Lssvc.Network.LongTimers

set_option autoImplicit false

namespace Lssvc.Network

open Lssvc.Foundation

def FrontHollow (w : TimingWheel) : Prop := ∃ entry ∈ (w.wheels .kTimingTypeMinute).headD [], Hollow entry

def Silent (rest : List Entry) : Prop := ∀ entry ∈ rest, ∃ delay other, entry = .migration delay other

def Defined (closing : Bool) (p : WheelProgram) : ProgramEvent → Prop
  | .wheel (.onTimer now) =>
      p.running = none → p.wheel.SecondPassed now → closing = false → (p.wheel.wheels .kTimingTypeSecond).headD [] = [] →
        (p.wheel.tick + 1) % kTimingMinute = 0 → ¬ FrontHollow p.wheel
  | .wheel (.runAfter delay _) => toUint32 delay ≠ 0
  | .wheel (.runEvery interval _) => toUint32 interval ≠ 0 ∧ toUint32 interval / kTimingDay ≤ 30
  | .wheel (.insertTimeout delay) => toUint32 delay ≠ 0
  | .returns =>
      ∀ rest ∈ p.running, Silent rest → p.wheel.tick % kTimingMinute = 0 → ¬ FrontHollow p.wheel

theorem front_hollow_due (id turns : Nat) (w : TimingWheel) :
    FrontHollow w ↔ .fault ((turns + 1) * kTimingMinute) ∈ w.timelineAt id turns := by
  constructor
  · rintro ⟨entry, front, hollow⟩
    refine List.mem_append_right _ (List.mem_append_right _ ?_)
    cases wheel : w.wheels .kTimingTypeMinute with
    | nil =>
        rw [wheel] at front
        cases front
    | cons slot slots =>
        rw [wheel] at front
        refine List.mem_append_left _ (List.mem_flatMap.mpr ⟨entry, front, ?_⟩)
        cases entry with
        | migration left entry =>
            have empty : left = 0 := hollow
            rw [dueMinute, landing, if_pos empty]
            exact List.mem_singleton_self _
        | callback _ => exact hollow.elim
        | every _ _ => exact hollow.elim
        | timeout => exact hollow.elim
  · intro due
    rcases List.mem_append.mp due with called | held
    · obtain ⟨_, _, impossible⟩ := List.mem_map.mp called
      cases impossible
    rcases List.mem_append.mp held with second | minute
    · obtain ⟨_, impossible, _⟩ := second_due_later second
      cases impossible
    obtain ⟨index, entry, inSlot, found⟩ := mem_spread_at minute
    cases entry with
    | migration left entry =>
        rw [dueMinute, landing] at found
        by_cases empty : left = 0
        · rw [if_pos empty] at found
          injection List.mem_singleton.mp found with same
          have first : index = 0 := by
            rw [kTimingMinute] at same
            omega
          subst first
          refine ⟨.migration left entry, ?_, empty⟩
          rwa [List.headD_eq_head?_getD, List.head?_eq_getElem?, ← List.getD_eq_getElem?_getD]
        · rw [if_neg empty] at found
          cases owed_time found
    | callback _ => cases found
    | every _ _ => cases found
    | timeout => cases found

theorem never_ok {Value : Type} {fault : WheelFault} : ¬ ∃ value : Value, Except.error fault = .ok value := by
  rintro ⟨_, impossible⟩
  cases impossible

theorem pop_slower_ok_iff {id : Nat} {w : TimingWheel} (ready : Ready id w) (begun : 0 < w.tick) :
    (∃ w', w.popUpSlower = .ok w') ↔ (w.tick % kTimingMinute = 0 → ¬ FrontHollow w) := by
  constructor
  · rintro ⟨w', popped⟩ minute hollow
    have due := (front_hollow_due id ((w.tick - 1) / kTimingMinute) w).mp hollow
    have now : ((w.tick - 1) / kTimingMinute + 1) * kTimingMinute = w.tick := by
      rw [kTimingMinute] at minute ⊢
      omega
    rw [now] at due
    rcases pop_slower_cases ready begun with ⟨next, popped', ready', tick, timeline⟩ | ⟨⟨fault, stuck⟩, _⟩
    · have later := fault_later (running_between ready') rfl (List.mem_append_right _ (timeline.mem_iff.mpr due))
      dsimp only at later
      omega
    · cases stuck.symm.trans popped
  · intro sound
    by_cases minute : w.tick % kTimingMinute = 0
    · rw [TimingWheel.popUpSlower, if_pos minute]
      have turn : w.tick = ((w.tick - 1) / kTimingMinute + 1) * kTimingMinute := by
        rw [kTimingMinute] at minute ⊢
        omega
      obtain ⟨last, popped, _⟩ := pop_minute ((w.tick - 1) / kTimingMinute) ready turn
        fun entry front hollow => sound minute ⟨entry, front, hollow⟩
      exact ⟨last, popped⟩
    · exact ⟨w, pop_up_slower_between minute⟩

theorem silent_cons (entry : Entry) (rest : List Entry) :
    Silent (entry :: rest) ↔ (∃ delay other, entry = .migration delay other) ∧ Silent rest := List.forall_mem_cons

theorem effect_front_hollow {id : Nat} {w w' : TimingWheel} (turns : Nat) (effect : Effect id turns [] w w') :
    FrontHollow w' ↔ FrontHollow w := by
  rw [front_hollow_due id turns w', effect.timeline.mem_iff, List.nil_append, ← front_hollow_due id turns w]

theorem resume_ok_iff {id : Nat} {w : TimingWheel} (ready : Ready id w) (begun : 0 < w.tick) (rest : List Entry)
    (pending : ∀ entry ∈ rest, Pending id entry) :
    (∃ p, w.resume rest = .ok p) ↔ (Silent rest → w.tick % kTimingMinute = 0 → ¬ FrontHollow w) := by
  induction rest generalizing w with
  | nil =>
      rw [TimingWheel.resume]
      refine Iff.trans ?_ ((pop_slower_ok_iff ready begun).trans ⟨fun sound _ => sound, fun sound => sound (List.forall_mem_nil _)⟩)
      cases w.popUpSlower with
      | error fault => exact iff_of_false never_ok never_ok
      | ok wheel => exact ⟨fun _ => ⟨wheel, rfl⟩, fun _ => ⟨_, rfl⟩⟩
  | cons entry rest ih =>
      obtain ⟨here, later⟩ := List.forall_mem_cons.mp pending
      cases entry with
      | migration delay entry =>
          cases entry with
          | every interval other =>
              obtain ⟨rfl, settled⟩ := here
              obtain ⟨w', again, effect⟩ := destroy_again ((w.tick - 1) / kTimingMinute) ready interval other settled
              rw [TimingWheel.resume, again]
              refine (ih effect.ready (by rw [effect.tick]; exact begun) later).trans ?_
              rw [effect.tick, effect_front_hollow _ effect, silent_cons]
              exact ⟨fun sound silent => sound silent.2, fun sound silent => sound ⟨⟨_, _, rfl⟩, silent⟩⟩
          | callback _ => exact here.elim
          | timeout => exact here.elim
          | migration _ _ => exact here.elim
      | callback other =>
          refine ⟨fun _ silent => ?_, fun _ => ⟨_, rfl⟩⟩
          obtain ⟨_, _, impossible⟩ := ((silent_cons _ _).mp silent).1
          cases impossible
      | every interval other =>
          refine ⟨fun _ silent => ?_, fun _ => ⟨_, rfl⟩⟩
          obtain ⟨_, _, impossible⟩ := ((silent_cons _ _).mp silent).1
          cases impossible
      | timeout =>
          refine ⟨fun _ silent => ?_, fun _ => ⟨_, rfl⟩⟩
          obtain ⟨_, _, impossible⟩ := ((silent_cons _ _).mp silent).1
          cases impossible

theorem settled_silent {id : Nat} {front : List Entry} (settled : ∀ entry ∈ front, Settled id entry) :
    Silent front ↔ front = [] := by
  constructor
  · intro silent
    refine List.eq_nil_iff_forall_not_mem.mpr fun entry listed => ?_
    obtain ⟨delay, other, rfl⟩ := silent entry listed
    exact settled _ listed
  · rintro rfl
    exact List.forall_mem_nil _

theorem turn_ok_iff {id : Nat} {w : TimingWheel} (order : SetOrder) (now : Int) (closing : Bool) (ready : Ready id w) :
    (∃ p, w.turn order now closing = .ok p) ↔
      (closing = false → (w.wheels .kTimingTypeSecond).headD [] = [] → (w.tick + 1) % kTimingMinute = 0 →
        ¬ FrontHollow w) := by
  obtain ⟨ready', _, _⟩ := turned_outlook (w.tick / kTimingMinute) now ready
  obtain ⟨_, settled⟩ := all_items_turn ready.settled
  have settled' : ∀ entry ∈ (if closing then Entry.timeout :: (w.wheels .kTimingTypeSecond).headD []
      else (w.wheels .kTimingTypeSecond).headD []), Settled id entry := by
    cases closing with
    | true => exact List.forall_mem_cons.mpr ⟨trivial, settled⟩
    | false => exact settled
  have ordered := fun entry listed => settled' entry ((order.perm _).mem_iff.mp listed)
  refine (resume_ok_iff ready' (Nat.succ_pos w.tick) _ fun entry listed => settled_pending (ordered entry listed)).trans ?_
  rw [settled_silent ordered]
  have empty : order.order (if closing then .timeout :: (w.wheels .kTimingTypeSecond).headD []
      else (w.wheels .kTimingTypeSecond).headD []) = [] ↔
        closing = false ∧ (w.wheels .kTimingTypeSecond).headD [] = [] := by
    rw [← List.length_eq_zero_iff, (order.perm _).length_eq, List.length_eq_zero_iff]
    cases closing <;> simp
  rw [empty]
  exact ⟨fun sound outside nothing => sound ⟨outside, nothing⟩, fun sound both => sound both.1 both.2⟩

theorem hand_in_ok_iff {id : Nat} {w : TimingWheel} (ready : Ready id w) (delay : Nat) (entry : Entry)
    (plain : Plain id entry) (settled : delay < kTimingHour → delay % kTimingMinute ≠ 0 → Settled id entry)
    (own : ∀ interval other, entry = .every interval other → delay = toUint32 interval) :
    (∃ w', w.destroy (.migration delay entry) = .ok w') ↔
      delay ≠ 0 ∧ ∀ interval other, entry = .every interval other → delay / kTimingDay ≤ 30 := by
  constructor
  · rintro ⟨w', kept⟩
    constructor
    · rintro rfl
      rw [TimingWheel.destroy, insert_entry_zero ready.sized] at kept
      cases kept
    · rintro interval other rfl
      by_contra far
      rw [own interval other rfl] at far kept
      rw [every_far_endless ready interval other far] at kept
      cases kept
  · rintro ⟨some', near⟩
    rcases hand_in_cases 0 ready delay entry plain settled own with ⟨w', kept, _⟩ | ⟨_, lasting⟩
    · exact ⟨w', kept⟩
    · by_cases hour : delay < kTimingHour
      · obtain ⟨w', kept, _⟩ := hand_in_kept 0 ready delay some' (by rw [kTimingDay]; rw [kTimingHour] at hour; omega)
          entry settled
        exact ⟨w', kept⟩
      · obtain ⟨far, interval, other, same⟩ := lasting fun impossible => absurd impossible hour
        exact absurd (near interval other same) (Nat.not_le_of_gt far)

theorem handed_in {id : Nat} (order : SetOrder) (closing : Bool) (p : WheelProgram) (event : WheelEvent)
    (foreign : ¬ Names id (.wheel event)) (handed : ∀ now, event ≠ .onTimer now) :
    ∃ delay entry, p.step order closing (.wheel event) =
        (p.wheel.destroy (.migration delay entry)).map (fun wheel => { p with wheel := wheel }) ∧
      Plain id entry ∧ (delay < kTimingHour → delay % kTimingMinute ≠ 0 → Settled id entry) ∧
      (∀ interval other, entry = .every interval other → delay = toUint32 interval) ∧
      (Defined closing p (.wheel event) ↔
        delay ≠ 0 ∧ ∀ interval other, entry = .every interval other → delay / kTimingDay ≤ 30) := by
  cases event with
  | onTimer now => exact absurd rfl (handed now)
  | runAfter delay other =>
      refine ⟨toUint32 delay, .callback other, rfl, foreign, fun _ _ => trivial, fun _ _ => nofun, ?_⟩
      exact ⟨fun some' => ⟨some', fun _ _ => nofun⟩, fun both => both.1⟩
  | runEvery interval other =>
      refine ⟨toUint32 interval, .every interval other, rfl, foreign, fun hour left => ⟨foreign, hour, left⟩,
        (fun interval' other' same => by cases same; rfl), ?_⟩
      exact ⟨fun both => ⟨both.1, fun _ _ _ => both.2⟩, fun both => ⟨both.1, both.2 interval other rfl⟩⟩
  | insertTimeout delay =>
      refine ⟨toUint32 delay, .timeout, rfl, trivial, fun _ _ => trivial, fun _ _ => nofun, ?_⟩
      exact ⟨fun some' => ⟨some', fun _ _ => nofun⟩, fun both => both.1⟩

theorem step_ok_iff {id : Nat} {p : WheelProgram} (order : SetOrder) (closing : Bool) (running : Running id p)
    (event : ProgramEvent) (foreign : ¬ Names id event) :
    (∃ p', p.step order closing event = .ok p') ↔ Defined closing p event := by
  cases event with
  | returns =>
      rw [WheelProgram.step, Defined]
      cases control : p.running with
      | none => exact ⟨fun _ _ impossible => (by cases impossible), fun _ => ⟨p, rfl⟩⟩
      | some rest =>
          refine (resume_ok_iff running.ready (running.begun rest control) rest (running.pending rest control)).trans ?_
          exact ⟨fun sound _ same => by cases same; exact sound, fun sound => sound rest rfl⟩
  | wheel event =>
      by_cases timer : ∃ now, event = .onTimer now
      · obtain ⟨now, rfl⟩ := timer
        rw [WheelProgram.step, Defined]
        cases control : p.running with
        | some rest => exact ⟨fun _ impossible => (by cases impossible), fun _ => ⟨p, rfl⟩⟩
        | none =>
            dsimp only
            by_cases passed : p.wheel.SecondPassed now
            · rw [start_timer_passed order closing passed, turn_ok_iff order now closing running.ready]
              exact ⟨fun sound _ _ => sound, fun sound => sound rfl passed⟩
            · obtain ⟨ts, same⟩ := start_timer_early order closing passed
              exact ⟨fun _ _ now => absurd now passed, fun _ => ⟨_, same⟩⟩
      · obtain ⟨delay, entry, step, plain, settled, own, defined⟩ :=
          handed_in order closing p event foreign (not_exists.mp timer)
        rw [step, defined, ← hand_in_ok_iff running.ready delay entry plain settled own]
        cases p.wheel.destroy (.migration delay entry) with
        | error fault => exact iff_of_false never_ok never_ok
        | ok wheel => exact ⟨fun _ => ⟨wheel, rfl⟩, fun _ => ⟨_, rfl⟩⟩

def WheelProgram.BeginsTick (p : WheelProgram) : ProgramEvent → Prop
  | .wheel (.onTimer now) => p.running = none ∧ p.wheel.SecondPassed now
  | _ => False

instance (p : WheelProgram) (event : ProgramEvent) : Decidable (p.BeginsTick event) :=
  match event with
  | .wheel (.onTimer now) => inferInstanceAs (Decidable (p.running = none ∧ p.wheel.SecondPassed now))
  | .wheel (.runAfter _ _) => inferInstanceAs (Decidable False)
  | .wheel (.runEvery _ _) => inferInstanceAs (Decidable False)
  | .wheel (.insertTimeout _) => inferInstanceAs (Decidable False)
  | .returns => inferInstanceAs (Decidable False)

theorem step_tick {id : Nat} {p p' : WheelProgram} (order : SetOrder) (closing : Bool) (running : Running id p)
    (event : ProgramEvent) (foreign : ¬ Names id event) (stepped : p.step order closing event = .ok p') :
    p'.wheel.tick = if p.BeginsTick event then p.wheel.tick + 1 else p.wheel.tick := by
  cases event with
  | returns =>
      rcases returns_cases order closing running with ⟨next, kept, _, tick, _⟩ | ⟨⟨fault, lost⟩, _⟩
      · cases kept.symm.trans stepped
        have between : ¬ p.BeginsTick .returns := not_false
        rw [if_neg between]
        exact tick
      · cases lost.symm.trans stepped
  | wheel event =>
      by_cases timer : ∃ now, event = .onTimer now
      · obtain ⟨now, rfl⟩ := timer
        rw [WheelProgram.step] at stepped
        cases control : p.running with
        | some rest =>
            rw [control] at stepped
            cases stepped
            have going : ¬ p.BeginsTick (.wheel (.onTimer now)) := by
              rintro ⟨outside, _⟩
              cases control.symm.trans outside
            rw [if_neg going]
        | none =>
            rw [control] at stepped
            dsimp only at stepped
            have begins : p.BeginsTick (.wheel (.onTimer now)) ↔ p.wheel.SecondPassed now := and_iff_right control
            rcases start_timer_cases order now closing running.ready with ⟨next, started, _, tick, _⟩ | ⟨⟨fault, stuck⟩, _⟩
            · cases started.symm.trans stepped
              rw [tick]
              exact if_congr begins.symm rfl rfl
            · cases stuck.symm.trans stepped
      · obtain ⟨delay, entry, step, plain, settled, own, _⟩ :=
          handed_in order closing p event foreign (not_exists.mp timer)
        rw [step] at stepped
        have between : ¬ p.BeginsTick (.wheel event) := by
          cases event with
          | onTimer now => exact absurd ⟨now, rfl⟩ timer
          | runAfter _ _ => exact not_false
          | runEvery _ _ => exact not_false
          | insertTimeout _ => exact not_false
        rcases hand_in_cases 0 running.ready delay entry plain settled own with ⟨next, kept, effect⟩ | ⟨⟨fault, lost⟩, _⟩
        · rw [kept] at stepped
          cases stepped
          rw [if_neg between]
          exact effect.tick
        · rw [lost] at stepped
          cases stepped

theorem step_running {id : Nat} {p p' : WheelProgram} (order : SetOrder) (closing : Bool) (running : Running id p)
    (event : ProgramEvent) (foreign : ¬ Names id event) (stepped : p.step order closing event = .ok p') :
    Running id p' := by
  rcases step_foreign order closing running event foreign with ⟨next, kept, running', _⟩ | ⟨⟨fault, lost⟩, _⟩
  · cases kept.symm.trans stepped
    exact running'
  · cases lost.symm.trans stepped

theorem fresh_id (events : List ProgramEvent) : ∃ id, ∀ event ∈ events, ¬ Names id event := by
  have bounded : ∃ bound, ∀ event ∈ events, ∀ id, Names id event → id < bound := by
    induction events with
    | nil => exact ⟨0, List.forall_mem_nil _⟩
    | cons event events ih =>
        obtain ⟨bound, below⟩ := ih
        have named : ∃ top, ∀ id, Names id event → id < top := by
          match event with
          | .wheel (.runAfter _ other) => exact ⟨other + 1, fun id (same : other = id) => by omega⟩
          | .wheel (.runEvery _ other) => exact ⟨other + 1, fun id (same : other = id) => by omega⟩
          | .wheel (.onTimer _) => exact ⟨0, fun _ impossible => impossible.elim⟩
          | .wheel (.insertTimeout _) => exact ⟨0, fun _ impossible => impossible.elim⟩
          | .returns => exact ⟨0, fun _ impossible => impossible.elim⟩
        obtain ⟨top, under⟩ := named
        refine ⟨max bound top, List.forall_mem_cons.mpr ⟨fun id names => ?_, fun other listed id names => ?_⟩⟩
        · exact Nat.lt_of_lt_of_le (under id names) (Nat.le_max_right ..)
        · exact Nat.lt_of_lt_of_le (below other listed id names) (Nat.le_max_left ..)
  obtain ⟨bound, below⟩ := bounded
  exact ⟨bound, fun event listed names => Nat.lt_irrefl bound (below event listed bound names)⟩

end Lssvc.Network
