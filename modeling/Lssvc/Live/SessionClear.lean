import Mathlib.Data.Finset.Option
import Lssvc.Live.SessionMembers

set_option autoImplicit false

namespace Lssvc.Live

open Lssvc.Foundation Lssvc.Utils

-- clear as it visits the players in the order it is given: unordered_set may
-- list them in any.
def clearInOrder (order : List Nat) (s : SessionState) : SessionState :=
  let s :=
    match s.session.publisher with
    | some publisher => closeUserNoLock s publisher
    | none => s
  let s := order.foldl closeUserNoLock s
  { s with session := { s.session with players := ∅ } }

inductive ClearingEvent where
  | change (event : SessionEvent)
  | clear (order : List Nat)
deriving DecidableEq, Repr

def clearingStep (s : SessionState) : ClearingEvent → SessionState
  | .change event => sessionStep s event
  | .clear order => clearInOrder order s

def Visits (start : SessionState) (events : List ClearingEvent) : Prop :=
  ∀ past order rest, events = past ++ .clear order :: rest →
    order.Nodup ∧ order.toFinset = (run clearingStep start past).session.players

def SessionState.members (s : SessionState) : Finset Nat := s.session.players ∪ s.session.publisher.toFinset

def SessionState.living (s : SessionState) : Finset Nat := s.members.filter fun user => (s.users user).destroyed = false

structure ClearsEveryone (order : List Nat) (s : SessionState) : Prop where
  publisher : (clearInOrder order s).session.publisher = none
  players : (clearInOrder order s).session.players = ∅
  closed : ∀ user ∈ s.members, .close user ∉ s.calls → (clearInOrder order s).calls.count (.close user) = 1

def OneToClose (s : SessionState) : Prop := s.living.card = if s.session.publisher.isSome then 1 else 0

theorem destroy_destroyed (s : SessionState) (user other : Nat) :
    ((s.destroy user).users other).destroyed = true ↔ other = user ∨ (s.users other).destroyed = true := by
  by_cases same : other = user
  · subst same
    simp [SessionState.destroy]
  · simp [SessionState.destroy, same]

structure Marks (closed : Nat → Prop) (before after : SessionState) : Prop where
  connection : ∀ user, (after.users user).connection = (before.users user).connection
  destroyed : ∀ user, (after.users user).destroyed = true ↔ closed user ∨ (before.users user).destroyed = true

theorem marks_destroy (s : SessionState) (user : Nat) : Marks (· = user) s (s.destroy user) := by
  refine ⟨fun other => ?_, fun other => destroy_destroyed s user other⟩
  by_cases same : other = user
  · subst same
    simp [SessionState.destroy]
  · simp [SessionState.destroy, same]

theorem marks_dead (s : SessionState) (user : Nat) (dead : (s.users user).destroyed = true) : Marks (· = user) s s := by
  refine ⟨fun _ => rfl, fun other => ?_⟩
  constructor
  · exact .inr
  · rintro (rfl | already)
    · exact dead
    · exact already

theorem marks_no_lock (s : SessionState) (user : Nat) : Marks (· = user) s (closeUserNoLock s user) := by
  by_cases dead : (s.users user).destroyed = true
  · rw [closeUserNoLock, if_pos dead]
    exact marks_dead s user dead
  · obtain ⟨connection, destroyed⟩ := marks_destroy s user
    rw [closeUserNoLock, if_neg dead]
    dsimp only
    split_ifs <;> exact ⟨connection, destroyed⟩

theorem marks_pass (users : List Nat) (s : SessionState) : Marks (· ∈ users) s (users.foldl closeUserNoLock s) := by
  induction users generalizing s with
  | nil => exact ⟨fun _ => rfl, fun _ => by simp⟩
  | cons first users ih =>
      have now := marks_no_lock s first
      have later := ih (closeUserNoLock s first)
      refine ⟨fun user => (later.connection user).trans (now.connection user), fun user => ?_⟩
      rw [List.foldl_cons, later.destroyed, now.destroyed, List.mem_cons, or_left_comm, or_assoc]

-- What holds in every run: a user that was closed is destroyed, so that no path
-- closes it again.
structure Tallied (types : Nat → UserType) (s : SessionState) : Prop where
  typed : ∀ user, (s.users user).type = types user
  once : ∀ user, s.calls.count (.close user) ≤ 1
  closed : ∀ user, .close user ∈ s.calls → (s.users user).destroyed = true

def Settled (s : SessionState) : Prop := ∀ user, (s.users user).destroyed = true → .close user ∈ s.calls

section

variable {types : Nat → UserType}

theorem tallied_session (s : SessionState) (session : LiveSession) (tallied : Tallied types s) :
    Tallied types { s with session := session } := ⟨tallied.typed, tallied.once, tallied.closed⟩

theorem tallied_destroy (s : SessionState) (user : Nat) (tallied : Tallied types s) : Tallied types (s.destroy user) where
  typed := fun other => (destroy_type s user other).trans (tallied.typed other)
  once := tallied.once
  closed := fun other closed => (destroy_destroyed s user other).mpr (.inr (tallied.closed other closed))

theorem tallied_close (s : SessionState) (user : Nat) (living : (s.users user).destroyed = false)
    (tallied : Tallied types s) : Tallied types ((s.destroy user).call (.close user)) := by
  have unclosed : .close user ∉ s.calls := fun closed => by
    rw [tallied.closed user closed] at living
    cases living
  refine ⟨(tallied_destroy s user tallied).typed, fun other => ?_, fun other closed => ?_⟩
  · have before := tallied.once other
    have total : ((s.destroy user).call (.close user)).calls.count (.close other) =
        s.calls.count (.close other) + [UserCall.close user].count (.close other) := List.count_append
    by_cases same : other = user
    · subst same
      rw [total, List.count_eq_zero_of_not_mem unclosed, List.count_singleton_self]
    · have different : UserCall.close user ≠ .close other := fun equal => same (UserCall.close.inj equal).symm
      rw [total, List.count_cons_of_ne different]
      exact before
  · rcases List.mem_append.mp closed with earlier | now
    · exact (tallied_destroy s user tallied).closed other earlier
    · cases List.mem_singleton.mp now
      exact (destroy_destroyed s user user).mpr (.inl rfl)

theorem settled_close (s : SessionState) (user : Nat) (settled : Settled s) :
    Settled ((s.destroy user).call (.close user)) := by
  intro other dead
  rcases (destroy_destroyed s user other).mp dead with rfl | earlier
  · exact List.mem_append_right _ (List.mem_singleton_self _)
  · exact List.mem_append_left _ (settled other earlier)

theorem session_step_tallied (s : SessionState) (event : SessionEvent) (known : ∀ user, types user ≠ .kUserTypeUnknown)
    (tallied : Tallied types s) :
    Tallied types (sessionStep s event) ∧ (Settled s → Settled (sessionStep s event)) := by
  cases event with
  | addPlayer user =>
      have count (other : Nat) : (addPlayer s user).calls.count (.close other) = s.calls.count (.close other) := by
        rw [addPlayer, SessionState.call, List.count_append]
        rfl
      refine ⟨⟨tallied.typed, fun other => ?_, fun other closed => ?_⟩, fun settled other dead => ?_⟩
      · exact (count other).trans_le (tallied.once other)
      · refine tallied.closed other ?_
        rw [← List.count_pos_iff, ← count other]
        exact List.count_pos_iff.mpr closed
      · exact List.mem_append_left _ (settled other dead)
  | setPublisher user =>
      have retired : Tallied types (retirePublisher s) ∧ (Settled s → Settled (retirePublisher s)) := by
        rw [retirePublisher]
        split
        · exact ⟨tallied, id⟩
        · rename_i old _
          by_cases dead : (s.users old).destroyed = true
          · rw [if_pos dead]
            exact ⟨tallied, id⟩
          · rw [if_neg dead]
            exact ⟨tallied_close s old (Bool.eq_false_iff.mpr dead) tallied, settled_close s old⟩
      rw [sessionStep, setPublisher]
      by_cases same : s.session.publisher = some user
      · rw [if_pos same]
        exact ⟨tallied, id⟩
      · rw [if_neg same]
        exact ⟨tallied_session _ _ retired.1, retired.2⟩
  | closeUser user =>
      rw [sessionStep, close_user_known s user (by rw [tallied.typed user]; exact known user)]
      by_cases dead : (s.users user).destroyed = true
      · rw [if_pos dead]
        exact ⟨tallied, id⟩
      · rw [if_neg dead]
        exact ⟨tallied_session _ _ (tallied_close s user (Bool.eq_false_iff.mpr dead) tallied), settled_close s user⟩

theorem no_lock_tallied (s : SessionState) (user : Nat) (known : ∀ user, types user ≠ .kUserTypeUnknown)
    (tallied : Tallied types s) : Tallied types (closeUserNoLock s user) := by
  rw [close_user_no_lock_known s user (by rw [tallied.typed user]; exact known user)]
  by_cases dead : (s.users user).destroyed = true
  · rw [if_pos dead]
    exact tallied
  · rw [if_neg dead]
    by_cases published : s.session.publisher.isSome = true
    · rw [if_pos published]
      exact tallied_session _ _ (tallied_close s user (Bool.eq_false_iff.mpr dead) tallied)
    · rw [if_neg published]
      exact tallied_destroy s user tallied

theorem pass_tallied (users : List Nat) (s : SessionState) (known : ∀ user, types user ≠ .kUserTypeUnknown)
    (tallied : Tallied types s) : Tallied types (users.foldl closeUserNoLock s) := by
  induction users generalizing s with
  | nil => exact tallied
  | cons user users ih => exact ih (closeUserNoLock s user) (no_lock_tallied s user known tallied)

theorem unpublished_pass (users : List Nat) (s : SessionState) (known : ∀ user, types user ≠ .kUserTypeUnknown)
    (tallied : Tallied types s) (nobody : s.session.publisher = none) :
    (users.foldl closeUserNoLock s).calls = s.calls ∧ (users.foldl closeUserNoLock s).session.publisher = none := by
  induction users generalizing s with
  | nil => exact ⟨rfl, nobody⟩
  | cons user users ih =>
      have next := close_user_no_lock_known s user (by rw [tallied.typed user]; exact known user)
      have same : (closeUserNoLock s user).calls = s.calls ∧ (closeUserNoLock s user).session.publisher = none := by
        rw [next, nobody]
        by_cases dead : (s.users user).destroyed = true
        · rw [if_pos dead]
          exact ⟨rfl, nobody⟩
        · rw [if_neg dead]
          exact ⟨rfl, nobody⟩
      obtain ⟨calls, publisher⟩ := ih (closeUserNoLock s user) (no_lock_tallied s user known tallied) same.2
      exact ⟨calls.trans same.1, publisher⟩

-- With one, the pass closes the first user still living; that resets publisher_,
-- and whoever comes later is left open.
theorem published_pass (users : List Nat) (s : SessionState) (known : ∀ user, types user ≠ .kUserTypeUnknown)
    (tallied : Tallied types s) (published : s.session.publisher.isSome = true) :
    ((∀ user ∈ users, (s.users user).destroyed = true) ∧ users.foldl closeUserNoLock s = s) ∨
      ∃ user ∈ users, (s.users user).destroyed = false ∧
        (users.foldl closeUserNoLock s).calls = s.calls ++ [.close user] ∧
          (users.foldl closeUserNoLock s).session.publisher = none := by
  induction users with
  | nil => exact .inl ⟨fun user impossible => absurd impossible List.not_mem_nil, rfl⟩
  | cons user users ih =>
      have next := close_user_no_lock_known s user (by rw [tallied.typed user]; exact known user)
      rw [List.foldl_cons]
      cases dead : (s.users user).destroyed with
      | true =>
          rw [if_pos dead] at next
          rw [next]
          rcases ih with ⟨allDead, same⟩ | ⟨first, inList, living, result⟩
          · exact .inl ⟨List.forall_mem_cons.mpr ⟨dead, allDead⟩, same⟩
          · exact .inr ⟨first, List.mem_cons_of_mem _ inList, living, result⟩
      | false =>
          rw [if_neg (by rw [dead]; exact Bool.false_ne_true), if_pos published] at next
          obtain ⟨calls, publisher⟩ := unpublished_pass users (closeUserNoLock s user) known
            (no_lock_tallied s user known tallied) (by rw [next]; rfl)
          refine .inr ⟨user, List.mem_cons_self, dead, ?_, publisher⟩
          rw [calls, next]
          rfl

theorem clear_in_order_pass (order : List Nat) (s : SessionState) :
    ∃ session, clearInOrder order s =
      { (s.session.publisher.toList ++ order).foldl closeUserNoLock s with session := session } ∧
      session.players = ∅ ∧
      session.publisher = ((s.session.publisher.toList ++ order).foldl closeUserNoLock s).session.publisher := by
  cases current : s.session.publisher with
  | none =>
      rw [clearInOrder, current]
      exact ⟨_, rfl, rfl, rfl⟩
  | some publisher =>
      rw [clearInOrder, current]
      exact ⟨_, rfl, rfl, rfl⟩

theorem no_lock_players (s : SessionState) (user : Nat) (known : (s.users user).type ≠ .kUserTypeUnknown) :
    (closeUserNoLock s user).session.players = s.session.players := by
  rw [close_user_no_lock_known s user known]
  by_cases dead : (s.users user).destroyed = true
  · rw [if_pos dead]
  · rw [if_neg dead]
    by_cases published : s.session.publisher.isSome = true
    · rw [if_pos published]
      rfl
    · rw [if_neg published]
      rfl

theorem clear_sorted (s : SessionState)
    (known : ∀ user, s.session.publisher = some user → (s.users user).type ≠ .kUserTypeUnknown) :
    clear s = clearInOrder (s.session.players.sort (· ≤ ·)) s := by
  cases current : s.session.publisher with
  | none => rw [clear, clearInOrder, current]
  | some publisher =>
      rw [clear, clearInOrder, current]
      dsimp only
      rw [no_lock_players s publisher (known publisher current)]

theorem mem_visited (order : List Nat) (s : SessionState) (visits : order.toFinset = s.session.players) (user : Nat) :
    user ∈ s.session.publisher.toList ++ order ↔ user ∈ s.members := by
  rw [SessionState.members, ← visits, List.mem_append, Finset.mem_union, List.mem_toFinset, Option.mem_toList,
    Option.mem_toFinset]
  exact or_comm

theorem mem_living (s : SessionState) (user : Nat) :
    user ∈ s.living ↔ user ∈ s.members ∧ (s.users user).destroyed = false := Finset.mem_filter

theorem clear_in_order_cases (order : List Nat) (s : SessionState) (known : ∀ user, types user ≠ .kUserTypeUnknown)
    (tallied : Tallied types s) (visits : order.toFinset = s.session.players) :
    (s.session.publisher.isSome = false ∧ (clearInOrder order s).calls = s.calls ∧
        (clearInOrder order s).session.publisher = none) ∨
      (s.session.publisher.isSome = true ∧ s.living = ∅ ∧
        (clearInOrder order s).session.publisher = s.session.publisher) ∨
      (s.session.publisher.isSome = true ∧ ∃ user ∈ s.living, (clearInOrder order s).calls = s.calls ++ [.close user] ∧
        (clearInOrder order s).session.publisher = none) := by
  obtain ⟨session, result, _, publisher⟩ := clear_in_order_pass order s
  rw [result, publisher]
  cases published : s.session.publisher.isSome with
  | false =>
      have nobody := Option.not_isSome_iff_eq_none.mp (Bool.eq_false_iff.mp published)
      exact .inl ⟨rfl, unpublished_pass _ s known tallied nobody⟩
  | true =>
      right
      rcases published_pass (s.session.publisher.toList ++ order) s known tallied published with
        ⟨allDead, same⟩ | ⟨user, inList, living, calls, cleared⟩
      · refine .inl ⟨rfl, Finset.eq_empty_of_forall_notMem fun user living => ?_, congrArg (·.session.publisher) same⟩
        obtain ⟨member, alive⟩ := (mem_living s user).mp living
        rw [allDead user ((mem_visited order s visits user).mpr member)] at alive
        cases alive
      · exact .inr ⟨rfl, user, (mem_living s user).mpr ⟨(mem_visited order s visits user).mp inList, living⟩, calls,
          cleared⟩

theorem clear_in_order_tallied (order : List Nat) (s : SessionState)
    (known : ∀ user, types user ≠ .kUserTypeUnknown) (tallied : Tallied types s) :
    Tallied types (clearInOrder order s) := by
  obtain ⟨session, result, _, _⟩ := clear_in_order_pass order s
  rw [result]
  exact tallied_session _ session (pass_tallied _ s known tallied)

theorem settled_clear (order : List Nat) (s : SessionState) (known : ∀ user, types user ≠ .kUserTypeUnknown)
    (tallied : Tallied types s) (visits : order.toFinset = s.session.players) (everyone : ClearsEveryone order s)
    (settled : Settled s) : Settled (clearInOrder order s) := by
  have kept (user : Nat) (earlier : .close user ∈ s.calls) : .close user ∈ (clearInOrder order s).calls := by
    rcases clear_in_order_cases order s known tallied visits with
      ⟨_, calls, _⟩ | ⟨published, _, same⟩ | ⟨_, _, _, calls, _⟩
    · rw [calls]
      exact earlier
    · rw [same.symm.trans everyone.publisher] at published
      cases published
    · rw [calls]
      exact List.mem_append_left _ earlier
  intro user dead
  obtain ⟨session, result, _, _⟩ := clear_in_order_pass order s
  rw [result] at dead
  rcases ((marks_pass _ s).destroyed user).mp dead with visited | before
  · by_cases earlier : .close user ∈ s.calls
    · exact kept user earlier
    · have once := everyone.closed user ((mem_visited order s visits user).mp visited) earlier
      rw [← List.count_pos_iff, once]
      exact Nat.zero_lt_one
  · exact kept user (settled user before)

theorem clears_everyone_iff (order : List Nat) (s : SessionState) (known : ∀ user, types user ≠ .kUserTypeUnknown)
    (tallied : Tallied types s) (settled : Settled s) (visits : order.toFinset = s.session.players) :
    ClearsEveryone order s ↔ OneToClose s := by
  have open' (user : Nat) (member : user ∈ s.members) (unclosed : .close user ∉ s.calls) : user ∈ s.living := by
    refine (mem_living s user).mpr ⟨member, ?_⟩
    cases flag : (s.users user).destroyed with
    | false => rfl
    | true => exact absurd (settled user flag) unclosed
  have unclosed (user : Nat) (living : user ∈ s.living) : .close user ∉ s.calls := by
    intro closed
    have alive := ((mem_living s user).mp living).2
    rw [tallied.closed user closed] at alive
    cases alive
  have players : (clearInOrder order s).session.players = ∅ := by
    obtain ⟨session, result, empty, _⟩ := clear_in_order_pass order s
    rw [result]
    exact empty
  rw [OneToClose]
  rcases clear_in_order_cases order s known tallied visits with
    ⟨published, calls, cleared⟩ | ⟨published, nobody, same⟩ | ⟨published, user, living, calls, cleared⟩
  · rw [published, if_neg Bool.false_ne_true, Finset.card_eq_zero]
    constructor
    · intro everyone
      refine Finset.eq_empty_of_forall_notMem fun user living => ?_
      have once := everyone.closed user ((mem_living s user).mp living).1 (unclosed user living)
      rw [calls, List.count_eq_zero_of_not_mem (unclosed user living)] at once
      cases once
    · intro nobody
      refine ⟨cleared, players, fun user member unclosed' => ?_⟩
      have living := open' user member unclosed'
      rw [nobody] at living
      exact absurd living (Finset.notMem_empty user)
  · rw [published, nobody, if_pos rfl]
    constructor
    · intro everyone
      rw [same.symm.trans everyone.publisher] at published
      cases published
    · intro impossible
      cases impossible
  · rw [published, if_pos rfl, Finset.card_eq_one]
    constructor
    · intro everyone
      refine ⟨user, Finset.eq_singleton_iff_unique_mem.mpr ⟨living, fun other alive => ?_⟩⟩
      have once := everyone.closed other ((mem_living s other).mp alive).1 (unclosed other alive)
      have inCalls : .close other ∈ s.calls ++ [UserCall.close user] := by
        rw [← calls, ← List.count_pos_iff, once]
        exact Nat.zero_lt_one
      rcases List.mem_append.mp inCalls with earlier | now
      · exact absurd earlier (unclosed other alive)
      · exact UserCall.close.inj (List.mem_singleton.mp now)
    · rintro ⟨only, alone⟩
      refine ⟨cleared, players, fun other member unclosed' => ?_⟩
      have alive := open' other member unclosed'
      rw [alone, Finset.mem_singleton] at alive living
      rw [calls, alive, ← living, List.count_append, List.count_singleton_self,
        List.count_eq_zero_of_not_mem (by rw [living, ← alive]; exact unclosed')]

end

theorem fresh_tallied (name : Str) (types : Nat → UserType) :
    Tallied types (.fresh name types) ∧ Settled (.fresh name types) := by
  refine ⟨⟨fun _ => rfl, fun _ => Nat.zero_le _, ?_⟩, ?_⟩
  · intro user impossible
    cases impossible
  · intro user impossible
    cases impossible

theorem clearing_run_tallied (name : Str) (types : Nat → UserType) (known : ∀ user, types user ≠ .kUserTypeUnknown)
    (events : List ClearingEvent) : Tallied types (run clearingStep (.fresh name types) events) := by
  refine run_invariant ?_ _ (fresh_tallied name types).1 events
  intro s event tallied
  cases event with
  | change event => exact (session_step_tallied s event known tallied).1
  | clear order => exact clear_in_order_tallied order s known tallied

theorem clearing_run_settled (name : Str) (types : Nat → UserType) (known : ∀ user, types user ≠ .kUserTypeUnknown)
    (events : List ClearingEvent) (visits : Visits (.fresh name types) events)
    (fine : ∀ past order rest, events = past ++ .clear order :: rest →
      ClearsEveryone order (run clearingStep (.fresh name types) past) ∨
        OneToClose (run clearingStep (.fresh name types) past)) :
    Settled (run clearingStep (.fresh name types) events) := by
  refine run_history (fun _ s => Settled s)
    (fun past event => ∀ order, event = .clear order →
      order.toFinset = (run clearingStep (.fresh name types) past).session.players ∧
        (ClearsEveryone order (run clearingStep (.fresh name types) past) ∨
          OneToClose (run clearingStep (.fresh name types) past))) (fresh_tallied name types).2 ?_ events ?_
  · intro past event allowed settled
    have tallied := clearing_run_tallied name types known past
    cases event with
    | change event => exact (session_step_tallied _ event known tallied).2 settled
    | clear order =>
        obtain ⟨visited, either⟩ := allowed order rfl
        have everyone := either.elim id (clears_everyone_iff order _ known tallied settled visited).mpr
        exact settled_clear order _ known tallied visited everyone settled
  · rintro past event rest cut order rfl
    exact ⟨(visits past order rest cut).2, fine past order rest cut⟩

theorem sessions_cleared_iff (name : Str) (types : Nat → UserType) (known : ∀ user, types user ≠ .kUserTypeUnknown)
    (events : List ClearingEvent) (visits : Visits (.fresh name types) events) :
    ((∀ past order rest, events = past ++ .clear order :: rest →
        ClearsEveryone order (run clearingStep (.fresh name types) past)) ∧
      ∀ user, (run clearingStep (.fresh name types) events).calls.count (.close user) ≤ 1) ↔
      ∀ past order rest, events = past ++ .clear order :: rest →
        OneToClose (run clearingStep (.fresh name types) past) := by
  have at_clear (past : List ClearingEvent) (order : List Nat) (rest : List ClearingEvent)
      (cut : events = past ++ .clear order :: rest)
      (fine : ∀ before order rest, past = before ++ .clear order :: rest →
        ClearsEveryone order (run clearingStep (.fresh name types) before) ∨
          OneToClose (run clearingStep (.fresh name types) before)) :
      ClearsEveryone order (run clearingStep (.fresh name types) past) ↔
        OneToClose (run clearingStep (.fresh name types) past) := by
    have earlier : Visits (.fresh name types) past := by
      rintro before order' rest' rfl
      exact visits before order' (rest' ++ .clear order :: rest) (by rw [cut, List.append_assoc]; rfl)
    exact clears_everyone_iff order _ known (clearing_run_tallied name types known past)
      (clearing_run_settled name types known past earlier fine) (visits past order rest cut).2
  constructor
  · rintro ⟨everyone, _⟩ past order rest cut
    refine (at_clear past order rest cut ?_).mp (everyone past order rest cut)
    rintro before order' rest' rfl
    exact .inl (everyone before order' (rest' ++ .clear order :: rest) (by rw [cut, List.append_assoc]; rfl))
  · intro alone
    refine ⟨fun past order rest cut => ?_, (clearing_run_tallied name types known events).once⟩
    refine (at_clear past order rest cut ?_).mpr (alone past order rest cut)
    rintro before order' rest' rfl
    exact .inr (alone before order' (rest' ++ .clear order :: rest) (by rw [cut, List.append_assoc]; rfl))

theorem visits_snoc (start : SessionState) (past : List ClearingEvent) (last : ClearingEvent)
    (visits : Visits start past)
    (now : ∀ order, last = .clear order →
      order.Nodup ∧ order.toFinset = (run clearingStep start past).session.players) :
    Visits start (past ++ [last]) := by
  intro before order rest cut
  refine each_event_snoc (fun past event => ∀ order, event = .clear order →
    order.Nodup ∧ order.toFinset = (run clearingStep start past).session.players) past last ?_ now before _ rest cut
    order rfl
  rintro before event rest cut order rfl
  exact visits before order rest cut

theorem visits_nil (start : SessionState) : Visits start [] := by
  intro past order rest cut
  cases past <;> cases cut

theorem visits_change (start : SessionState) (past : List ClearingEvent) (event : SessionEvent)
    (visits : Visits start past) : Visits start (past ++ [.change event]) :=
  visits_snoc start past (.change event) visits (by
    intro order impossible
    cases impossible)

def publisherAndViewer : Nat → UserType := fun user => if user = 0 then .kUserTypePublishRtmp else .kUserTypePlayerRtmp

theorem publisher_and_viewer_known (user : Nat) : publisherAndViewer user ≠ .kUserTypeUnknown := by
  rw [publisherAndViewer]
  split <;> decide

def clearedBehind : List ClearingEvent :=
  [.change (.addPlayer 1), .change (.addPlayer 2), .change (.closeUser 1), .change (.closeUser 2),
    .change (.setPublisher 0), .clear [2, 1]]

theorem cleared_behind_visits : Visits (.fresh [] publisherAndViewer) clearedBehind := by
  have joined := visits_change _ _ (.addPlayer 2) (visits_change _ _ (.addPlayer 1) (visits_nil (.fresh [] publisherAndViewer)))
  have left := visits_change _ _ (.setPublisher 0) (visits_change _ _ (.closeUser 2) (visits_change _ _ (.closeUser 1) joined))
  refine visits_snoc _ _ (.clear [2, 1]) left ?_
  rintro order ⟨⟩
  decide

theorem sessions_cleared_behind :
    Visits (.fresh [] publisherAndViewer) clearedBehind ∧
      (run clearingStep (.fresh [] publisherAndViewer) clearedBehind).calls.count (.close 0) = 1 ∧
      (((∀ past order rest, clearedBehind = past ++ .clear order :: rest →
            ClearsEveryone order (run clearingStep (.fresh [] publisherAndViewer) past)) ∧
          ∀ user, (run clearingStep (.fresh [] publisherAndViewer) clearedBehind).calls.count (.close user) ≤ 1) ↔
        ∀ past order rest, clearedBehind = past ++ .clear order :: rest →
          OneToClose (run clearingStep (.fresh [] publisherAndViewer) past)) :=
  ⟨cleared_behind_visits, by decide,
    sessions_cleared_iff [] publisherAndViewer publisher_and_viewer_known _ cleared_behind_visits⟩

theorem viewer_left_open :
    ¬ ∀ (name : Str) (types : Nat → UserType), (∀ user, types user ≠ .kUserTypeUnknown) →
      ∀ events, Visits (.fresh name types) events →
        ∀ past order rest, events = past ++ .clear order :: rest →
          ClearsEveryone order (run clearingStep (.fresh name types) past) := by
  intro claimed
  have first := visits_change (.fresh [] publisherAndViewer) [] (.setPublisher 0) (visits_nil _)
  have second := visits_change _ _ (.addPlayer 1) first
  have third := visits_snoc _ _ (.clear [1]) second (by
    rintro order ⟨⟩
    decide)
  have closed := (claimed [] publisherAndViewer publisher_and_viewer_known _ third
    [.change (.setPublisher 0), .change (.addPlayer 1)] [1] [] rfl).closed 1 (by decide) (by decide)
  revert closed
  decide

end Lssvc.Live
