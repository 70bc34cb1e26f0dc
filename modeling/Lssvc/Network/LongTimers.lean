import Lssvc.Network.WheelProgram

set_option autoImplicit false

namespace Lssvc.Network

open Lssvc.Foundation

def Lasting (delay : Nat) : Prop := delay < kTimingHour → delay % kTimingMinute ≠ 0

def Harmless (id : Nat) : ProgramEvent → Prop
  | .wheel (.onTimer _) => True
  | .wheel (.runAfter delay other) => other ≠ id ∧ Lasting (toUint32 delay)
  | .wheel (.runEvery interval other) =>
      other ≠ id ∧ Lasting (toUint32 interval) ∧ toUint32 interval / kTimingDay ≤ 30
  | .wheel (.insertTimeout delay) => Lasting (toUint32 delay)
  | .returns => True

def Names (id : Nat) : ProgramEvent → Prop
  | .wheel (.runAfter _ other) => other = id
  | .wheel (.runEvery _ other) => other = id
  | _ => False

def WheelProgram.Served (p : WheelProgram) (id due : Nat) : Prop :=
  p.wheel.callsOf id = (if due ≤ p.wheel.tick then [due] else []) ∨
    p.running ≠ none ∧ due = p.wheel.tick ∧ p.wheel.callsOf id = []

def TimerKept (order : SetOrder) (p : WheelProgram) (delay id : Nat) : Prop :=
  ∀ later, (∀ event ∈ later, Harmless id event) →
    ∃ p', run (programStep order) (p.step order false (.wheel (.runAfter delay id))) later = .ok p' ∧
      p'.Served id (p.wheel.tick + delay)

def Plain (id : Nat) : Entry → Prop
  | .callback other => other ≠ id
  | .every _ other => other ≠ id
  | .timeout => True
  | .migration _ _ => False

theorem plain_owes_nothing {id : Nat} {entry : Entry} (plain : Plain id entry) (tick : Nat) : owed id tick entry = [] := by
  cases entry with
  | callback other => exact if_neg plain
  | every _ _ => rfl
  | timeout => rfl
  | migration _ _ => rfl

theorem plain_arrival {id : Nat} {entry : Entry} (plain : Plain id entry) (turns tick delay : Nat) :
    (∀ due ∈ arrival id turns tick delay entry, ∃ tick, due = .fault tick) ∧
      (Lasting delay → arrival id turns tick delay entry = []) := by
  rw [arrival]
  by_cases seconds : delay < kTimingMinute
  · rw [if_pos seconds, plain_owes_nothing plain]
    exact ⟨List.forall_mem_nil _, fun _ => rfl⟩
  · rw [if_neg seconds]
    by_cases minutes : delay < kTimingHour
    · rw [if_pos minutes, landing]
      by_cases empty : delay % kTimingMinute = 0
      · rw [if_pos empty]
        exact ⟨List.forall_mem_singleton.mpr ⟨_, rfl⟩, fun lasting => absurd empty (lasting minutes)⟩
      · rw [if_neg empty, plain_owes_nothing plain]
        exact ⟨List.forall_mem_nil _, fun _ => rfl⟩
    · rw [if_neg minutes]
      exact ⟨List.forall_mem_nil _, fun _ => rfl⟩

theorem hand_in_kept {id : Nat} {w : TimingWheel} (turns : Nat) (ready : Ready id w) (delay : Nat)
    (some' : delay ≠ 0) (near : delay / kTimingDay ≤ 30) (entry : Entry)
    (settled : delay < kTimingHour → delay % kTimingMinute ≠ 0 → Settled id entry) :
    ∃ w', w.destroy (.migration delay entry) = .ok w' ∧
      Effect id turns (arrival id turns w.tick delay entry) w w' := by
  obtain ⟨w', inserted, effect⟩ := insert_entry_effect turns ready delay some' entry settled
  rw [decide_eq_true near] at inserted
  exact ⟨w', by rw [TimingWheel.destroy, inserted], effect⟩

-- A callback of runEvery for more than 30 days is not kept: its end inserts it
-- again and ends it again.
theorem every_far_endless {id : Nat} {w : TimingWheel} (ready : Ready id w) (interval : Int) (other : Nat)
    (far : ¬ toUint32 interval / kTimingDay ≤ 30) :
    w.destroy (.migration (toUint32 interval) (.every interval other)) = .error .endless := by
  have long : kTimingHour ≤ toUint32 interval := by
    rw [kTimingDay] at far
    rw [kTimingHour]
    omega
  have some' : toUint32 interval ≠ 0 := by
    rw [kTimingHour] at long
    omega
  have settled : toUint32 interval < kTimingHour → toUint32 interval % kTimingMinute ≠ 0 →
      Settled id (.every interval other) := fun hour => absurd hour (Nat.not_lt_of_le long)
  obtain ⟨w', inserted, effect⟩ := insert_entry_effect 0 ready (toUint32 interval) some' (.every interval other) settled
  have called := execute_effect 0 effect.ready other
  obtain ⟨w'', again, _⟩ :=
    insert_entry_effect 0 called.ready (toUint32 interval) some' (.every interval other) settled
  rw [decide_eq_false far] at inserted again
  rw [TimingWheel.destroy, inserted]
  dsimp only
  rw [TimingWheel.destroy, again]

theorem hand_in_cases {id : Nat} {w : TimingWheel} (turns : Nat) (ready : Ready id w) (delay : Nat) (entry : Entry)
    (plain : Plain id entry) (settled : delay < kTimingHour → delay % kTimingMinute ≠ 0 → Settled id entry)
    (own : ∀ interval other, entry = .every interval other → delay = toUint32 interval) :
    (∃ w', w.destroy (.migration delay entry) = .ok w' ∧ Effect id turns (arrival id turns w.tick delay entry) w w') ∨
      (∃ fault, w.destroy (.migration delay entry) = .error fault) ∧
        (Lasting delay → 30 < delay / kTimingDay ∧ ∃ interval other, entry = .every interval other) := by
  by_cases zero : delay = 0
  · subst zero
    refine .inr ⟨⟨.outOfRange, ?_⟩, fun lasting => absurd rfl (lasting (by decide))⟩
    rw [TimingWheel.destroy, insert_entry_zero ready.sized]
  · by_cases near : delay / kTimingDay ≤ 30
    · exact .inl (hand_in_kept turns ready delay zero near entry settled)
    · obtain ⟨w', inserted, effect⟩ := insert_entry_effect turns ready delay zero entry settled
      rw [decide_eq_false near] at inserted
      cases entry with
      | callback other =>
          have gone := effect.trans (execute_effect turns effect.ready other)
          rw [plain_owes_nothing plain, List.append_nil] at gone
          exact .inl ⟨w'.execute other, by rw [TimingWheel.destroy, inserted]; rfl, gone⟩
      | every interval other =>
          rw [own interval other rfl] at near ⊢
          exact .inr ⟨⟨.endless, every_far_endless ready interval other near⟩,
            fun _ => ⟨Nat.lt_of_not_le near, interval, other, rfl⟩⟩
      | timeout => exact .inl ⟨w', by rw [TimingWheel.destroy, inserted]; rfl, effect⟩
      | migration _ _ => exact plain.elim

theorem insert_outlook {id : Nat} {p : WheelProgram} {given : List Due} {w : TimingWheel} (running : Running id p)
    (effect : Effect id p.turns given p.wheel w) :
    Running id { p with wheel := w } ∧ (WheelProgram.outlook { p with wheel := w } id).Perm (given ++ p.outlook id) := by
  have turns : WheelProgram.turns { p with wheel := w } = p.turns := by
    rw [WheelProgram.turns, WheelProgram.turns, effect.tick]
  refine ⟨⟨effect.ready, fun rest left => by rw [effect.tick]; exact running.begun rest left, running.pending⟩, ?_⟩
  rw [WheelProgram.outlook, WheelProgram.outlook, turns, effect.tick]
  exact (List.Perm.append_left _ effect.timeline).trans (List.perm_append_comm_assoc _ _ _)

theorem timer_step_cases {id : Nat} {p : WheelProgram} (order : SetOrder) (closing : Bool) (now : Int) (running : Running id p) :
    (∃ p', p.step order closing (.wheel (.onTimer now)) = .ok p' ∧ Running id p' ∧ (p'.outlook id).Perm (p.outlook id)) ∨
      (∃ fault, p.step order closing (.wheel (.onTimer now)) = .error fault) ∧ ∃ tick, .fault tick ∈ p.outlook id := by
  obtain ⟨w, control⟩ := p
  cases control with
  | none =>
      rcases start_timer_cases order now closing running.ready with ⟨p', started, running', _, same⟩ | stuck
      · exact .inl ⟨p', started, running', same⟩
      · exact .inr stuck
  | some rest => exact .inl ⟨_, rfl, running, .refl _⟩

theorem returns_cases {id : Nat} {p : WheelProgram} (order : SetOrder) (closing : Bool) (running : Running id p) :
    (∃ p', p.step order closing .returns = .ok p' ∧ Running id p' ∧ p'.wheel.tick = p.wheel.tick ∧
        (p'.outlook id).Perm (p.outlook id)) ∨
      (∃ fault, p.step order closing .returns = .error fault) ∧ ∃ tick, .fault tick ∈ p.outlook id := by
  obtain ⟨w, control⟩ := p
  cases control with
  | none => exact .inl ⟨_, rfl, running, rfl, .refl _⟩
  | some rest =>
      rcases resume_cases running.ready (running.begun rest rfl) rest (running.pending rest rfl) with
        ⟨p', resumed, running', tick, same⟩ | ⟨stuck, tick, due⟩
      · exact .inl ⟨p', resumed, running', tick, same⟩
      · exact .inr ⟨stuck, tick, List.mem_append_right _ due⟩

theorem step_foreign {id : Nat} {p : WheelProgram} (order : SetOrder) (closing : Bool) (running : Running id p)
    (event : ProgramEvent) (foreign : ¬ Names id event) :
    (∃ p', p.step order closing event = .ok p' ∧ Running id p' ∧
        (∀ tick, .call tick ∈ p'.outlook id → .call tick ∈ p.outlook id) ∧
        (Harmless id event → (p'.outlook id).Perm (p.outlook id))) ∨
      (∃ fault, p.step order closing event = .error fault) ∧ (Harmless id event → ∃ tick, .fault tick ∈ p.outlook id) := by
  have handed : ∀ delay entry, Plain id entry →
      (delay < kTimingHour → delay % kTimingMinute ≠ 0 → Settled id entry) →
      (∀ interval other, entry = .every interval other → delay = toUint32 interval) →
      p.step order closing event = (p.wheel.destroy (.migration delay entry)).map (fun wheel => { p with wheel := wheel }) →
      (Harmless id event → Lasting delay ∧ ((∃ interval other, entry = .every interval other) → delay / kTimingDay ≤ 30)) →
      (∃ p', p.step order closing event = .ok p' ∧ Running id p' ∧
          (∀ tick, .call tick ∈ p'.outlook id → .call tick ∈ p.outlook id) ∧
          (Harmless id event → (p'.outlook id).Perm (p.outlook id))) ∨
        (∃ fault, p.step order closing event = .error fault) ∧ (Harmless id event → ∃ tick, .fault tick ∈ p.outlook id) := by
    intro delay entry plain settled own step harmless
    obtain ⟨faults, lasting⟩ := plain_arrival plain p.turns p.wheel.tick delay
    rcases hand_in_cases p.turns running.ready delay entry plain settled own with ⟨w', kept, effect⟩ | ⟨⟨fault, lost⟩, why⟩
    · obtain ⟨running', outlook⟩ := insert_outlook running effect
      rw [kept] at step
      refine .inl ⟨_, step, running', ?_, fun fine => ?_⟩
      · intro tick due
        rcases List.mem_append.mp (outlook.mem_iff.mp due) with new | old
        · obtain ⟨_, fault⟩ := faults _ new
          cases fault
        · exact old
      · rw [lasting (harmless fine).1] at outlook
        exact outlook
    · rw [lost] at step
      refine .inr ⟨⟨fault, step⟩, fun fine => ?_⟩
      obtain ⟨far, every⟩ := why (harmless fine).1
      exact absurd ((harmless fine).2 every) (Nat.not_le_of_gt far)
  cases event with
  | returns =>
      rcases returns_cases order closing running with ⟨p', resumed, running', _, same⟩ | ⟨stuck, due⟩
      · exact .inl ⟨p', resumed, running', fun tick => same.mem_iff.mp, fun _ => same⟩
      · exact .inr ⟨stuck, fun _ => due⟩
  | wheel event =>
      cases event with
      | onTimer now =>
          rcases timer_step_cases order closing now running with ⟨p', moved, running', same⟩ | ⟨stuck, due⟩
          · exact .inl ⟨p', moved, running', fun tick => same.mem_iff.mp, fun _ => same⟩
          · exact .inr ⟨stuck, fun _ => due⟩
      | runAfter delay other =>
          refine handed (toUint32 delay) (.callback other) foreign (fun _ _ => trivial) (fun _ _ => nofun) rfl ?_
          rintro ⟨_, lasting⟩
          refine ⟨lasting, ?_⟩
          rintro ⟨_, _, impossible⟩
          cases impossible
      | runEvery interval other =>
          refine handed (toUint32 interval) (.every interval other) foreign (fun hour left => ⟨foreign, hour, left⟩) ?_ rfl ?_
          · rintro interval' other' ⟨⟩
            rfl
          · rintro ⟨_, lasting, near⟩
            exact ⟨lasting, fun _ => near⟩
      | insertTimeout delay =>
          refine handed (toUint32 delay) .timeout trivial (fun _ _ => trivial) (fun _ _ => nofun) rfl ?_
          intro lasting
          refine ⟨lasting, ?_⟩
          rintro ⟨_, _, impossible⟩
          cases impossible

theorem harmless_foreign {id : Nat} {event : ProgramEvent} (harmless : Harmless id event) : ¬ Names id event := by
  cases event with
  | returns => exact not_false
  | wheel event =>
      cases event with
      | onTimer now => exact not_false
      | runAfter delay other => exact harmless.1
      | runEvery interval other => exact harmless.1
      | insertTimeout delay => exact not_false

theorem fresh_outlook (id : Nat) : WheelProgram.fresh.outlook id = [] := by
  simp [WheelProgram.outlook, WheelProgram.fresh, TimingWheel.timelineAt, TimingWheel.callsOf, TimingWheel.fresh,
    List.replicate, spread]

theorem run_foreign (order : SetOrder) (id : Nat) (before : List ProgramEvent) (new : ∀ event ∈ before, ¬ Names id event)
    (p : WheelProgram) (reached : run (programStep order) (.ok .fresh) before = .ok p) :
    Running id p ∧ ∀ tick, .call tick ∉ p.outlook id := by
  have known : ∀ p, run (programStep order) (.ok .fresh) before = .ok p →
      Running id p ∧ ∀ tick, .call tick ∉ p.outlook id := by
    refine run_history
      (fun _ (state : Except WheelFault WheelProgram) =>
        ∀ p, state = .ok p → Running id p ∧ ∀ tick, .call tick ∉ p.outlook id)
      (fun _ event => ¬ Names id event) ?_ ?_ before ?_
    · intro p same
      cases same
      refine ⟨running_fresh id, fun tick due => ?_⟩
      rw [fresh_outlook] at due
      cases due
    · intro past event foreign known p' stepped
      cases met : run (programStep order) (.ok .fresh) past with
      | error fault =>
          rw [met] at stepped
          cases stepped
      | ok p =>
          obtain ⟨running, none'⟩ := known p met
          rw [met] at stepped
          rcases step_foreign order false running event foreign with ⟨next, kept, running', calls, _⟩ | ⟨⟨fault, lost⟩, _⟩
          · have same : next = p' := Except.ok.inj (kept.symm.trans stepped)
            subst same
            exact ⟨running', fun tick due => none' tick (calls tick due)⟩
          · cases lost.symm.trans stepped
    · intro past event rest cut
      exact new event (by rw [cut]; exact List.mem_append_right _ List.mem_cons_self)
  exact known p reached

theorem run_harmless {id : Nat} {p : WheelProgram} (order : SetOrder) (running : Running id p)
    (sound : ∀ tick, .fault tick ∉ p.outlook id) (later : List ProgramEvent)
    (harmless : ∀ event ∈ later, Harmless id event) :
    ∃ p', run (programStep order) (.ok p) later = .ok p' ∧ Running id p' ∧ (p'.outlook id).Perm (p.outlook id) := by
  refine run_history
    (fun _ (state : Except WheelFault WheelProgram) =>
      ∃ p', state = .ok p' ∧ Running id p' ∧ (p'.outlook id).Perm (p.outlook id))
    (fun _ event => Harmless id event) ⟨p, rfl, running, .refl _⟩ ?_ later ?_
  · rintro past event fine ⟨before, met, runningBefore, same⟩
    rw [met]
    rcases step_foreign order false runningBefore event (harmless_foreign fine) with
      ⟨next, kept, running', _, still⟩ | ⟨_, due⟩
    · exact ⟨next, kept, running', (still fine).trans same⟩
    · obtain ⟨tick, fault⟩ := due fine
      exact absurd (same.mem_iff.mp fault) (sound tick)
  · intro past event rest cut
    exact harmless event (by rw [cut]; exact List.mem_append_right _ List.mem_cons_self)

theorem second_due_later {id tick : Nat} {slots : List (List Entry)} {due : Due}
    (held : due ∈ spread (dueSecond id tick) 0 slots) : ∃ later, due = .call later ∧ tick < later := by
  obtain ⟨index, entry, found, _⟩ := mem_spread held
  refine ⟨tick + (0 + index) + 1, owed_time found, ?_⟩
  omega

theorem minute_due_later {id turns : Nat} {slots : List (List Entry)} {due : Due}
    (held : due ∈ spread (dueMinute id turns) 0 slots) : (turns + 1) * kTimingMinute ≤ due.tick := by
  obtain ⟨index, entry, found, _⟩ := mem_spread held
  cases entry with
  | migration left entry =>
      refine Nat.le_trans (Nat.mul_le_mul_right _ ?_) (landing_time found)
      omega
  | callback _ => cases found
  | every _ _ => cases found
  | timeout => cases found

theorem held_later {id : Nat} {p : WheelProgram} {due : Due} (running : Running id p)
    (held : due ∈ spread (dueSecond id p.wheel.tick) 0 (p.wheel.wheels .kTimingTypeSecond) ++
      spread (dueMinute id p.turns) 0 (p.wheel.wheels .kTimingTypeMinute)) :
    p.wheel.tick ≤ due.tick ∧ (p.running = none → p.wheel.tick < due.tick) := by
  obtain ⟨w, control⟩ := p
  rcases List.mem_append.mp held with second | minute
  · obtain ⟨later, rfl, bound⟩ := second_due_later second
    exact ⟨Nat.le_of_lt bound, fun _ => bound⟩
  · have bound := minute_due_later minute
    cases control with
    | none =>
        dsimp only [WheelProgram.turns] at bound
        rw [kTimingMinute] at bound
        dsimp only
        omega
    | some rest =>
        dsimp only [WheelProgram.turns] at bound
        rw [kTimingMinute] at bound
        constructor
        · dsimp only
          omega
        · intro ended
          cases ended

theorem fault_later {id tick : Nat} {p : WheelProgram} (running : Running id p) (control : p.running = none)
    (fault : .fault tick ∈ p.outlook id) : p.wheel.tick < tick := by
  rw [WheelProgram.outlook, control] at fault
  rcases List.mem_append.mp fault with owing | fault
  · cases owing
  rcases List.mem_append.mp fault with called | held
  · obtain ⟨_, _, impossible⟩ := List.mem_map.mp called
    cases impossible
  · exact (held_later running held).2 control

theorem calls_past {id : Nat} {w : TimingWheel} (ready : Ready id w) {tick : Nat} (called : tick ∈ w.callsOf id) :
    tick ≤ w.tick := by
  obtain ⟨call, listed, rfl⟩ := List.mem_map.mp called
  exact ready.past call (List.mem_of_mem_filter listed)

theorem single_call {id due : Nat} {p : WheelProgram} (running : Running id p) (outlook : (p.outlook id).Perm [.call due]) :
    p.Served id due := by
  have whole := outlook
  rw [WheelProgram.outlook, TimingWheel.timelineAt] at whole
  have listed : ∀ tick ∈ p.wheel.callsOf id, tick = due := by
    intro tick called
    have inside := whole.mem_iff.mp (List.mem_append_right _ (List.mem_append_left _ (List.mem_map_of_mem called)))
    cases List.mem_singleton.mp inside
    rfl
  have once : (p.wheel.callsOf id).length ≤ 1 := by
    have length := whole.length_eq
    simp only [List.length_append, List.length_map, List.length_singleton] at length
    omega
  cases calls : p.wheel.callsOf id with
  | nil =>
      have held : Due.call due ∈ (p.running.getD []).flatMap (owed id p.wheel.tick) ++
          ((p.wheel.callsOf id).map .call ++ (spread (dueSecond id p.wheel.tick) 0 (p.wheel.wheels .kTimingTypeSecond) ++
            spread (dueMinute id p.turns) 0 (p.wheel.wheels .kTimingTypeMinute))) :=
        whole.mem_iff.mpr (List.mem_singleton_self _)
      rw [calls, List.map_nil, List.nil_append] at held
      rw [WheelProgram.Served, calls]
      rcases List.mem_append.mp held with owing | held
      · obtain ⟨entry, _, owes⟩ := List.mem_flatMap.mp owing
        cases owed_time owes
        refine .inr ⟨fun control => ?_, rfl, rfl⟩
        rw [control] at owing
        cases owing
      · obtain ⟨bound, sharp⟩ := held_later running held
        by_cases now : due = p.wheel.tick
        · refine .inr ⟨fun control => ?_, now, rfl⟩
          exact absurd now (Nat.ne_of_gt (sharp control))
        · have early : ¬ due ≤ p.wheel.tick := fun late => now (Nat.le_antisymm late bound)
          rw [if_neg early]
          exact .inl rfl
  | cons first rest =>
      have here : first ∈ p.wheel.callsOf id := by
        rw [calls]
        exact List.mem_cons_self
      have only : rest = [] := by
        rw [calls, List.length_cons] at once
        exact List.length_eq_zero_iff.mp (Nat.le_zero.mp (Nat.le_of_succ_le_succ once))
      have same := listed first here
      subst same
      rw [WheelProgram.Served, calls, only, if_pos (calls_past running.ready here)]
      exact .inl rfl

def toDo : List Entry → Nat
  | [] => 0
  | .every _ _ :: rest => toDo rest + 2
  | .callback _ :: rest => toDo rest + 1
  | .timeout :: rest => toDo rest + 1
  | .migration _ _ :: rest => toDo rest + 1

def WheelProgram.toDo (p : WheelProgram) : Nat := Lssvc.Network.toDo (p.running.getD [])

theorem resume_shorter (w : TimingWheel) (rest : List Entry) (p : WheelProgram) (resumed : w.resume rest = .ok p) :
    p.running = none ∨ p.toDo < toDo rest := by
  fun_induction TimingWheel.resume w rest with
  | case1 w =>
      cases popped : w.popUpSlower with
      | error fault =>
          rw [popped] at resumed
          cases resumed
      | ok wheel =>
          rw [popped] at resumed
          cases resumed
          exact .inl rfl
  | case2 w id rest =>
      cases resumed
      exact .inr (Nat.lt_succ_self _)
  | case3 w interval id rest =>
      cases resumed
      exact .inr (Nat.lt_succ_self _)
  | case4 w rest =>
      cases resumed
      exact .inr (Nat.lt_succ_self _)
  | case5 => cases resumed
  | case6 w delay entry rest w' kept ih =>
      refine (ih resumed).imp_right fun shorter => ?_
      exact Nat.lt_succ_of_lt shorter

theorem callbacks_end {id : Nat} (order : SetOrder) (p : WheelProgram) (running : Running id p) :
    ∃ returns : List ProgramEvent, (∀ event ∈ returns, Harmless id event) ∧
      ∀ p', run (programStep order) (.ok p) returns = .ok p' → Running id p' ∧ p'.running = none ∧
        p'.wheel.tick = p.wheel.tick ∧ (p'.outlook id).Perm (p.outlook id) := by
  induction left : p.toDo using Nat.strongRecOn generalizing p with
  | _ left ih =>
      cases control : p.running with
      | none =>
          refine ⟨[], List.forall_mem_nil _, fun p' reached => ?_⟩
          cases reached
          exact ⟨running, control, rfl, .refl _⟩
      | some rest =>
          have step : p.step order false .returns = p.wheel.resume rest := by rw [WheelProgram.step, control]
          rcases returns_cases order false running with ⟨next, resumed, running', tick, same⟩ | ⟨⟨fault, stuck⟩, _⟩
          · by_cases ended : next.running = none
            · refine ⟨[.returns], List.forall_mem_singleton.mpr trivial, fun p' reached => ?_⟩
              have here : next = p' := Except.ok.inj (resumed.symm.trans reached)
              subst here
              exact ⟨running', ended, tick, same⟩
            · have shorter := (resume_shorter p.wheel rest next (step.symm.trans resumed)).resolve_left ended
              have whole : p.toDo = toDo rest := by rw [WheelProgram.toDo, control, Option.getD_some]
              obtain ⟨more, harmless, known⟩ := ih next.toDo (by omega) next running' rfl
              refine ⟨.returns :: more, List.forall_mem_cons.mpr ⟨trivial, harmless⟩, fun p' reached => ?_⟩
              have reached' : run (programStep order) (p.step order false .returns) more = .ok p' := reached
              rw [resumed] at reached'
              obtain ⟨last, outside, tick', same'⟩ := known p' reached'
              exact ⟨last, outside, tick'.trans tick, same'.trans same⟩
          · refine ⟨[.returns], List.forall_mem_singleton.mpr trivial, fun p' reached => ?_⟩
            cases stuck.symm.trans reached

theorem one_tick {id : Nat} {p : WheelProgram} (order : SetOrder) (running : Running id p) (control : p.running = none) :
    ∃ ticks : List ProgramEvent, (∀ event ∈ ticks, Harmless id event) ∧
      ∀ p', run (programStep order) (.ok p) ticks = .ok p' → Running id p' ∧ p'.running = none ∧
        p'.wheel.tick = p.wheel.tick + 1 ∧ (p'.outlook id).Perm (p.outlook id) := by
  obtain ⟨w, _⟩ := p
  cases control
  have passing : ∀ w : TimingWheel, Ready id w → ∀ now, w.SecondPassed now → ∃ ticks : List ProgramEvent,
      (∀ event ∈ ticks, Harmless id event) ∧
        ∀ p', run (programStep order) (.ok ⟨w, none⟩) (.wheel (.onTimer now) :: ticks) = .ok p' → Running id p' ∧
          p'.running = none ∧ p'.wheel.tick = w.tick + 1 ∧ (p'.outlook id).Perm (w.timeline id) := by
    intro w ready now passed
    rcases start_timer_cases order now false ready with ⟨next, started, running', tick, same⟩ | ⟨⟨fault, stuck⟩, _⟩
    · obtain ⟨returns, harmless, known⟩ := callbacks_end order next running'
      refine ⟨returns, harmless, fun p' reached => ?_⟩
      have reached' : run (programStep order) (w.startTimer order now false) returns = .ok p' := reached
      rw [started] at reached'
      obtain ⟨last, outside, tick', same'⟩ := known p' reached'
      rw [if_pos passed] at tick
      exact ⟨last, outside, tick'.trans tick, same'.trans same⟩
    · refine ⟨[], List.forall_mem_nil _, fun p' reached => ?_⟩
      have reached' : w.startTimer order now false = .ok p' := reached
      cases stuck.symm.trans reached'
  by_cases unset : w.lastTs = 0
  · obtain ⟨ticks, harmless, known⟩ := passing { w with lastTs := 1 } ⟨running.ready.sized, running.ready.settled,
      running.ready.coming, running.ready.past⟩ 1001 ⟨Int.one_ne_zero, Int.le_refl 1000⟩
    refine ⟨.wheel (.onTimer 1) :: .wheel (.onTimer 1001) :: ticks,
      List.forall_mem_cons.mpr ⟨trivial, List.forall_mem_cons.mpr ⟨trivial, harmless⟩⟩, fun p' reached => ?_⟩
    have first : w.startTimer order 1 false = .ok ⟨{ w with lastTs := 1 }, none⟩ := by
      rw [TimingWheel.startTimer, if_pos unset]
      rfl
    have reached' : run (programStep order) (w.startTimer order 1 false) (.wheel (.onTimer 1001) :: ticks) = .ok p' := reached
    rw [first] at reached'
    exact known p' reached'
  · obtain ⟨ticks, harmless, known⟩ := passing w running.ready (max w.lastTs 0 + 1000) ⟨unset, by omega⟩
    exact ⟨.wheel (.onTimer (max w.lastTs 0 + 1000)) :: ticks, List.forall_mem_cons.mpr ⟨trivial, harmless⟩, known⟩

theorem ticks_to_come {id : Nat} {p : WheelProgram} (order : SetOrder) (running : Running id p) (count : Nat) :
    ∃ ticks : List ProgramEvent, (∀ event ∈ ticks, Harmless id event) ∧
      ∀ p', run (programStep order) (.ok p) ticks = .ok p' → Running id p' ∧ p'.running = none ∧
        p'.wheel.tick = p.wheel.tick + count ∧ (p'.outlook id).Perm (p.outlook id) := by
  induction count with
  | zero => exact callbacks_end order p running
  | succ count ih =>
      obtain ⟨ticks, harmless, known⟩ := ih
      cases reached : run (programStep order) (.ok p) ticks with
      | error fault =>
          refine ⟨ticks, harmless, fun p' impossible => ?_⟩
          cases reached.symm.trans impossible
      | ok middle =>
          obtain ⟨runningMiddle, outside, tick, outlook⟩ := known middle reached
          obtain ⟨more, harmlessMore, last⟩ := one_tick order runningMiddle outside
          refine ⟨ticks ++ more, List.forall_mem_append.mpr ⟨harmless, harmlessMore⟩, fun p' reached' => ?_⟩
          rw [run_append, reached] at reached'
          obtain ⟨running', outside', tick', outlook'⟩ := last p' reached'
          exact ⟨running', outside', by omega, outlook'.trans outlook⟩

theorem run_after_effect {id : Nat} {w : TimingWheel} (turns : Nat) (ready : Ready id w) (delay : Nat)
    (low : kTimingMinute ≤ delay) (high : delay < 30 * kTimingDay) :
    ∃ w', w.runAfter delay id = .ok w' ∧ Effect id turns (arrival id turns w.tick delay (.callback id)) w w' := by
  rw [kTimingMinute] at low
  rw [kTimingDay] at high
  have exact' : toUint32 (delay : Int) = delay := to_uint32_nat delay (by omega)
  have near : delay / kTimingDay ≤ 30 := by
    rw [kTimingDay]
    omega
  rw [TimingWheel.runAfter, exact']
  exact hand_in_kept turns ready delay (by omega) near (.callback id) (fun _ _ => trivial)

-- Below an hour the callback is called a whole number of minutes, counted from
-- the last full one, and the rest of the delay later.
theorem long_arrival (id turns tick delay : Nat) (low : kTimingMinute ≤ delay) :
    arrival id turns tick delay (.callback id) =
      if kTimingHour ≤ delay then []
      else if delay % kTimingMinute = 0 then [.fault ((turns + delay / kTimingMinute) * kTimingMinute)]
      else [.call (turns * kTimingMinute + delay)] := by
  rw [arrival, if_neg (Nat.not_lt_of_le low)]
  by_cases minutes : delay < kTimingHour
  · have whole : (turns + delay / kTimingMinute) * kTimingMinute + delay % kTimingMinute =
        turns * kTimingMinute + delay := by
      rw [Nat.add_mul, Nat.add_assoc, Nat.div_add_mod']
    rw [if_pos minutes, if_neg (Nat.not_le_of_lt minutes), landing, owed, if_pos rfl, whole]
  · rw [if_neg minutes, if_pos (Nat.le_of_not_lt minutes)]

theorem full_wheel_outlook {id : Nat} {p : WheelProgram} (control : p.running = none) (new : ∀ tick, .call tick ∉ p.outlook id)
    (full : ∀ slot ∈ p.wheel.wheels .kTimingTypeMinute, ∀ entry ∈ slot, ¬ Hollow entry) : p.outlook id = [] := by
  refine List.eq_nil_iff_forall_not_mem.mpr fun due held => ?_
  cases due with
  | call tick => exact new tick held
  | fault tick =>
      rw [WheelProgram.outlook, control] at held
      rcases List.mem_append.mp held with owing | held
      · cases owing
      rcases List.mem_append.mp held with called | held
      · obtain ⟨_, _, impossible⟩ := List.mem_map.mp called
        cases impossible
      · rcases List.mem_append.mp held with second | minute
        · obtain ⟨_, impossible, _⟩ := second_due_later second
          cases impossible
        · obtain ⟨index, entry, found, slot, listed, inSlot⟩ := mem_spread minute
          cases entry with
          | migration left entry =>
              have some' : left ≠ 0 := full slot listed _ inSlot
              rw [dueMinute, landing, if_neg some'] at found
              cases owed_time found
          | callback _ => cases found
          | every _ _ => cases found
          | timeout => cases found

theorem kept_after_ticks {order : SetOrder} {id delay : Nat} {p p' : WheelProgram}
    (handed : p.step order false (.wheel (.runAfter delay id)) = .ok p') (running : Running id p')
    (tick : p'.wheel.tick = p.wheel.tick) (kept : TimerKept order p delay id) (count : Nat) :
    ∃ last, Running id last ∧ last.running = none ∧ last.wheel.tick = p.wheel.tick + count ∧
      (last.outlook id).Perm (p'.outlook id) ∧
      last.wheel.callsOf id = if delay ≤ count then [p.wheel.tick + delay] else [] := by
  obtain ⟨ticks, harmless, known⟩ := ticks_to_come order running count
  obtain ⟨last, run', served⟩ := kept ticks harmless
  rw [handed] at run'
  obtain ⟨runningLast, outside, tickLast, same⟩ := known last run'
  rw [tick] at tickLast
  refine ⟨last, runningLast, outside, tickLast, same, ?_⟩
  have calls := served.resolve_right fun inside => inside.1 outside
  rw [calls, tickLast]
  by_cases enough : delay ≤ count
  · rw [if_pos enough, if_pos (Nat.add_le_add_left enough _)]
  · rw [if_neg enough, if_neg (by omega)]

theorem kept_outlook {order : SetOrder} {id delay : Nat} {p p' : WheelProgram}
    (handed : p.step order false (.wheel (.runAfter delay id)) = .ok p') (running : Running id p')
    (tick : p'.wheel.tick = p.wheel.tick) (kept : TimerKept order p delay id) :
    .call (p.wheel.tick + delay) ∈ p'.outlook id ∧ ∀ tick, .fault tick ∉ p'.outlook id := by
  constructor
  · obtain ⟨last, _, _, _, same, calls⟩ := kept_after_ticks handed running tick kept delay
    rw [if_pos (Nat.le_refl delay)] at calls
    refine same.mem_iff.mp (List.mem_append_right _ (List.mem_append_left _ ?_))
    rw [calls]
    exact List.mem_singleton_self _
  · intro late fault
    obtain ⟨last, runningLast, outside, tickLast, same, _⟩ := kept_after_ticks handed running tick kept late
    have later := fault_later runningLast outside (same.mem_iff.mpr fault)
    omega

-- A callback never gets its timer on time: on a full minute the minute wheel
-- turns once more before the tick is over.
theorem long_timers_iff (order : SetOrder) (before : List ProgramEvent) (p : WheelProgram)
    (reached : run (programStep order) (.ok .fresh) before = .ok p) (id : Nat)
    (new : ∀ event ∈ before, ¬ Names id event) (delay : Nat) (low : kTimingMinute ≤ delay)
    (high : delay < 30 * kTimingDay) :
    TimerKept order p delay id ↔
      p.running = none ∧ p.wheel.tick % kTimingMinute = 0 ∧ delay < kTimingHour ∧ delay % kTimingMinute ≠ 0 ∧
        ∀ slot ∈ p.wheel.wheels .kTimingTypeMinute, ∀ entry ∈ slot, ¬ Hollow entry := by
  obtain ⟨running, none'⟩ := run_foreign order id before new p reached
  obtain ⟨w', inserted, effect⟩ := run_after_effect p.turns running.ready delay low high
  have tick := effect.tick
  rw [long_arrival id _ _ _ low] at effect
  obtain ⟨running', outlook⟩ := insert_outlook running effect
  have handed : p.step order false (.wheel (.runAfter delay id)) = .ok { p with wheel := w' } := by
    rw [WheelProgram.step, TimingWheel.step, inserted]
    · rfl
    · nofun
  constructor
  · intro kept
    obtain ⟨called, sound⟩ := kept_outlook handed running' tick kept
    have full : ∀ slot ∈ p.wheel.wheels .kTimingTypeMinute, ∀ entry ∈ slot, ¬ Hollow entry := by
      intro slot listed entry inSlot hollow
      obtain ⟨tick, fault⟩ := hollow_due id p.turns listed inSlot hollow
      exact sound tick (outlook.mem_iff.mpr (List.mem_append_right _ (List.mem_append_right _ fault)))
    have arrived := (List.mem_append.mp (outlook.mem_iff.mp called)).resolve_right (none' _)
    by_cases hour : kTimingHour ≤ delay
    · rw [if_pos hour] at arrived
      cases arrived
    · rw [if_neg hour] at arrived
      by_cases empty : delay % kTimingMinute = 0
      · rw [if_pos empty] at arrived
        cases List.mem_singleton.mp arrived
      · rw [if_neg empty] at arrived
        injection List.mem_singleton.mp arrived with onTime
        rw [WheelProgram.turns] at onTime
        cases control : p.running with
        | none =>
            rw [control] at onTime
            refine ⟨rfl, ?_, Nat.lt_of_not_le hour, empty, full⟩
            dsimp only at onTime
            rw [kTimingMinute] at onTime ⊢
            omega
        | some rest =>
            have begun := running.begun rest control
            rw [control] at onTime
            dsimp only at onTime
            rw [kTimingMinute] at onTime
            omega
  · rintro ⟨control, phase, hour, left, full⟩ later harmless
    have onTime : p.turns * kTimingMinute = p.wheel.tick := by
      rw [WheelProgram.turns, control]
      exact Nat.div_mul_cancel (Nat.dvd_of_mod_eq_zero phase)
    rw [if_neg (Nat.not_le_of_lt hour), if_neg left, full_wheel_outlook control none' full, onTime,
      List.append_nil] at outlook
    have sound : ∀ tick, .fault tick ∉ WheelProgram.outlook { p with wheel := w' } id := by
      intro tick fault
      cases List.mem_singleton.mp (outlook.mem_iff.mp fault)
    obtain ⟨last, run', runningLast, same⟩ := run_harmless order running' sound later harmless
    rw [handed]
    exact ⟨last, run', single_call runningLast (same.trans outlook)⟩

def calledBack : List ProgramEvent :=
  [.wheel (.onTimer 1), .wheel (.runAfter 1 1), .wheel (.onTimer 1001), .wheel (.runAfter 5 2), .returns] ++
    (List.range 59).flatMap fun second => [.wheel (.onTimer (2001 + 1000 * second)), .returns]

theorem called_back_new : ∀ event ∈ calledBack, ¬ Names 7 event := by
  refine List.forall_mem_append.mpr ⟨by simp [Names], fun event listed => ?_⟩
  obtain ⟨second, _, inside⟩ := List.mem_flatMap.mp listed
  rcases List.mem_pair.mp inside with rfl | rfl <;> exact not_false

def WheelProgram.minuteBegins (p : WheelProgram) : Bool :=
  p.running.isNone && p.wheel.tick % kTimingMinute == 0 && (p.wheel.wheels .kTimingTypeMinute).all List.isEmpty

theorem long_timers_called_back :
    ∃ p, run (programStep listOrder) (.ok .fresh) calledBack = .ok p ∧ p.wheel.callsOf 2 = [6] ∧
      TimerKept listOrder p 61 7 := by
  have started : ((run (programStep listOrder) (.ok .fresh) calledBack).toOption.any
      fun p => p.minuteBegins && p.wheel.callsOf 2 == [6]) = true := by decide +kernel
  cases reached : run (programStep listOrder) (.ok .fresh) calledBack with
  | error fault =>
      rw [reached] at started
      cases started
  | ok p =>
      rw [reached] at started
      simp only [Except.toOption, Option.any_some, WheelProgram.minuteBegins, Bool.and_eq_true, Option.isNone_iff_eq_none,
        beq_iff_eq, List.all_eq_true, List.isEmpty_iff] at started
      obtain ⟨⟨⟨control, phase⟩, empty⟩, called⟩ := started
      refine ⟨p, rfl, called, ?_⟩
      refine (long_timers_iff listOrder calledBack p reached 7 called_back_new 61 (by decide) (by decide)).mpr
        ⟨control, phase, by decide, by decide, fun slot listed entry inSlot => ?_⟩
      rw [empty slot listed] at inSlot
      cases inSlot

def minuteOfTicks : List ProgramEvent :=
  .wheel (.onTimer 1) :: (List.range 60).map fun second => .wheel (.onTimer (1001 + 1000 * second))

-- A minute is a migration with nothing left: on the 60th tick it is inserted
-- with delay 0.
theorem minute_timer_fails : ¬ TimerKept listOrder .fresh 60 7 := by
  intro kept
  have harmless : ∀ event ∈ minuteOfTicks, Harmless 7 event := by
    refine List.forall_mem_cons.mpr ⟨trivial, ?_⟩
    intro event listed
    obtain ⟨second, _, rfl⟩ := List.mem_map.mp listed
    exact trivial
  obtain ⟨p', reached, _⟩ := kept minuteOfTicks harmless
  have failed : (run (programStep listOrder) (WheelProgram.fresh.step listOrder false (.wheel (.runAfter (60 : Nat) 7)))
      minuteOfTicks).toBool = false := by decide +kernel
  rw [reached] at failed
  cases failed

end Lssvc.Network
