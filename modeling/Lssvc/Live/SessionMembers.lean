import Lssvc.Live.Session

set_option autoImplicit false

namespace Lssvc.Live

open Lssvc.Foundation Lssvc.Utils

structure Members where
  players : Finset Nat
  publisher : Option Nat
deriving DecidableEq

def Members.step (m : Members) : SessionEvent → Members
  | .addPlayer user => { m with players := insert user m.players }
  | .setPublisher user => { m with publisher := some user }
  | .closeUser user =>
      { players := m.players.erase user, publisher := if m.publisher = some user then none else m.publisher }

def members (events : List SessionEvent) : Members := run Members.step ⟨∅, none⟩ events

def SessionState.fresh (name : Str) (types : Nat → UserType) : SessionState :=
  ⟨{ sessionName := name }, fun user => ⟨types user, user, 0, false⟩, []⟩

def Matches (s : SessionState) (m : Members) : Prop :=
  s.session.players = m.players ∧ s.session.publisher = m.publisher

def Unknown (past : List SessionEvent) (user : Nat) : Prop :=
  .addPlayer user ∉ past ∧ .setPublisher user ∉ past ∧ .closeUser user ∉ past

def Admissible (types : Nat → UserType) (past : List SessionEvent) : SessionEvent → Prop
  | .addPlayer user => types user = .kUserTypePlayerRtmp ∧ Unknown past user
  | .setPublisher user => types user = .kUserTypePublishRtmp ∧ Unknown past user
  | .closeUser user => .addPlayer user ∈ past ∨ .setPublisher user ∈ past

def WellFormed (types : Nat → UserType) (events : List SessionEvent) : Prop :=
  ∀ past event rest, events = past ++ event :: rest → Admissible types past event

theorem well_formed_nil (types : Nat → UserType) : WellFormed types [] := each_event_nil _

theorem well_formed_snoc (types : Nat → UserType) (past : List SessionEvent) (event : SessionEvent)
    (wellFormed : WellFormed types past) (admissible : Admissible types past event) :
    WellFormed types (past ++ [event]) := each_event_snoc _ past event wellFormed admissible

theorem destroy_type (s : SessionState) (user other : Nat) :
    ((s.destroy user).users other).type = (s.users other).type := by
  by_cases same : other = user
  · subst same
    simp [SessionState.destroy]
  · simp [SessionState.destroy, same]

theorem retire_publisher_type (s : SessionState) (user : Nat) :
    ((retirePublisher s).users user).type = (s.users user).type := by
  cases current : s.session.publisher with
  | none => simp only [retirePublisher, current]
  | some old =>
      by_cases dead : (s.users old).destroyed = true
      · simp only [retirePublisher, current, if_pos dead]
      · simp only [retirePublisher, current, if_neg dead]
        exact destroy_type s old user

theorem session_step_type (s : SessionState) (event : SessionEvent) (user : Nat) :
    ((sessionStep s event).users user).type = (s.users user).type := by
  cases event with
  | addPlayer => rfl
  | setPublisher other =>
      by_cases same : s.session.publisher = some other
      · simp only [sessionStep, setPublisher, if_pos same]
      · simp only [sessionStep, setPublisher, if_neg same]
        exact retire_publisher_type s user
  | closeUser other =>
      by_cases dead : (s.users other).destroyed = true
      · simp only [sessionStep, closeUser, if_pos dead]
      · rw [← destroy_type s other user]
        simp only [sessionStep, closeUser, if_neg dead]
        by_cases publisher : ((s.destroy other).users other).type.value ≤ UserType.kUserTypePlayerWebRTC.value
        · rw [if_pos publisher]
          rfl
        · rw [if_neg publisher]
          rfl

theorem members_snoc (past : List SessionEvent) (event : SessionEvent) :
    members (past ++ [event]) = (members past).step event := run_snoc Members.step _ past event

structure Ledger (types : Nat → UserType) (past : List SessionEvent) (s : SessionState) : Prop where
  typed : ∀ user, (s.users user).type = types user
  added : ∀ user, .addPlayer user ∈ past → types user = .kUserTypePlayerRtmp
  set : ∀ user, .setPublisher user ∈ past → types user = .kUserTypePublishRtmp
  players : ∀ user, user ∈ s.session.players ↔ .addPlayer user ∈ past
  gone : ∀ user, .closeUser user ∈ past → user ∉ (members past).players

theorem ledger_known (types : Nat → UserType) (past : List SessionEvent) (s : SessionState)
    (ledger : Ledger types past s) (user : Nat) (known : .addPlayer user ∈ past ∨ .setPublisher user ∈ past) :
    (s.users user).type = .kUserTypePublishRtmp ∨ (s.users user).type = .kUserTypePlayerRtmp := by
  rw [ledger.typed user]
  rcases known with added | set
  · exact .inr (ledger.added user added)
  · exact .inl (ledger.set user set)

theorem ledger_step (types : Nat → UserType) (past : List SessionEvent) (s : SessionState) (event : SessionEvent)
    (admissible : Admissible types past event) (ledger : Ledger types past s) :
    Ledger types (past ++ [event]) (sessionStep s event) := by
  have kept (user : Nat) : ((sessionStep s event).users user).type = types user :=
    (session_step_type s event user).trans (ledger.typed user)
  cases event with
  | addPlayer other =>
      obtain ⟨type, _, _, open'⟩ := admissible
      refine ⟨kept, ?_, ?_, ?_, ?_⟩
      · intro user
        simp only [List.mem_append, List.mem_singleton, SessionEvent.addPlayer.injEq]
        rintro (earlier | rfl)
        · exact ledger.added user earlier
        · exact type
      · intro user
        simp only [List.mem_append, List.mem_singleton, reduceCtorEq, or_false]
        exact ledger.set user
      · intro user
        simp only [sessionStep, addPlayer, SessionState.call, Finset.mem_insert, ledger.players user, List.mem_append,
          List.mem_singleton, SessionEvent.addPlayer.injEq]
        exact or_comm
      · intro user
        simp only [List.mem_append, List.mem_singleton, reduceCtorEq, or_false, members_snoc, Members.step,
          Finset.mem_insert, not_or]
        intro closed
        refine ⟨?_, ledger.gone user closed⟩
        rintro rfl
        exact open' closed
  | setPublisher other =>
      obtain ⟨type, _⟩ := admissible
      refine ⟨kept, ?_, ?_, ?_, ?_⟩
      · intro user
        simp only [List.mem_append, List.mem_singleton, reduceCtorEq, or_false]
        exact ledger.added user
      · intro user
        simp only [List.mem_append, List.mem_singleton, SessionEvent.setPublisher.injEq]
        rintro (earlier | rfl)
        · exact ledger.set user earlier
        · exact type
      · intro user
        simp only [sessionStep, set_publisher_session, ledger.players user, List.mem_append, List.mem_singleton,
          reduceCtorEq, or_false]
      · intro user
        simp only [List.mem_append, List.mem_singleton, reduceCtorEq, or_false, members_snoc, Members.step]
        exact ledger.gone user
  | closeUser other =>
      refine ⟨kept, ?_, ?_, ?_, ?_⟩
      · intro user
        simp only [List.mem_append, List.mem_singleton, reduceCtorEq, or_false]
        exact ledger.added user
      · intro user
        simp only [List.mem_append, List.mem_singleton, reduceCtorEq, or_false]
        exact ledger.set user
      · intro user
        simp only [sessionStep, (close_user_session s other (ledger_known types past s ledger other admissible)).1,
          ledger.players user, List.mem_append, List.mem_singleton, reduceCtorEq, or_false]
      · intro user
        simp only [List.mem_append, List.mem_singleton, SessionEvent.closeUser.injEq, members_snoc, Members.step,
          Finset.mem_erase, not_and]
        rintro (earlier | rfl) different
        · exact ledger.gone user earlier
        · exact absurd rfl different

structure Agreement (past : List SessionEvent) (s : SessionState) : Prop where
  same : Matches s (members past)
  origin : ∀ user, s.session.publisher = some user → .setPublisher user ∈ past
  alive : ∀ user, .setPublisher user ∈ past → ((s.users user).destroyed = false ↔ s.session.publisher = some user)
  untouched : ∀ user, Unknown past user → (s.users user).destroyed = false

theorem agreement_add (past : List SessionEvent) (s : SessionState) (other : Nat) (agreement : Agreement past s) :
    Agreement (past ++ [.addPlayer other]) (addPlayer s other) := by
  obtain ⟨⟨players, publisher⟩, origin, alive, untouched⟩ := agreement
  refine ⟨⟨?_, ?_⟩, ?_, ?_, ?_⟩
  · rw [members_snoc]
    exact congrArg (insert other) players
  · rw [members_snoc]
    exact publisher
  · intro user current
    exact List.mem_append_left _ (origin user current)
  · intro user
    simp only [List.mem_append, List.mem_singleton, reduceCtorEq, or_false]
    exact alive user
  · rintro user ⟨added, set, closed⟩
    simp only [List.mem_append, not_or] at added set closed
    exact untouched user ⟨added.1, set.1, closed.1⟩

theorem agreement_set (past : List SessionEvent) (s : SessionState) (other : Nat) (unknown : Unknown past other)
    (agreement : Agreement past s) : Agreement (past ++ [.setPublisher other]) (setPublisher s other) := by
  obtain ⟨⟨players, publisher⟩, origin, alive, untouched⟩ := agreement
  have fresh : s.session.publisher ≠ some other := fun current => unknown.2.1 (origin other current)
  refine ⟨⟨?_, ?_⟩, ?_, ?_, ?_⟩
  · rw [members_snoc, set_publisher_session]
    exact players
  · rw [members_snoc, set_publisher_session]
    rfl
  · intro user current
    rw [set_publisher_session] at current
    cases current
    exact List.mem_append_right past (List.mem_singleton_self _)
  · intro user set
    rw [set_publisher_destroyed s user other fresh, set_publisher_session]
    by_cases same : user = other
    · subst same
      exact ⟨fun _ => rfl, fun _ => ⟨untouched user unknown, fresh⟩⟩
    · have earlier : .setPublisher user ∈ past := by
        simpa [same] using set
      constructor
      · rintro ⟨living, replaced⟩
        exact absurd ((alive user earlier).mp living) replaced
      · intro current
        cases current
        exact absurd rfl same
  · rintro user ⟨added, set, closed⟩
    simp only [List.mem_append, List.mem_singleton, not_or] at added set closed
    rw [set_publisher_destroyed s user other fresh]
    exact ⟨untouched user ⟨added.1, set.1, closed.1⟩, fun current => set.1 (origin user current)⟩

theorem unknown_before_close (past : List SessionEvent) (other user : Nat)
    (unknown : Unknown (past ++ [.closeUser other]) user) : Unknown past user ∧ user ≠ other := by
  obtain ⟨added, set, closed⟩ := unknown
  simp only [List.mem_append, List.mem_singleton, SessionEvent.closeUser.injEq, not_or] at added set closed
  exact ⟨⟨added.1, set.1, closed.1⟩, closed.2⟩

theorem agreement_close_current (past : List SessionEvent) (s : SessionState) (other : Nat)
    (set : .setPublisher other ∈ past) (notAdded : other ∉ s.session.players)
    (type : (s.users other).type = .kUserTypePublishRtmp) (current : s.session.publisher = some other)
    (agreement : Agreement past s) : Agreement (past ++ [.closeUser other]) (closeUser s other) := by
  obtain ⟨⟨players, publisher⟩, origin, alive, untouched⟩ := agreement
  have living := (alive other set).mpr current
  have state : closeUser s other = (s.destroy other).resetPublisher.call (.close other) := by
    rw [close_user_rtmp s other (.inl type), living]
    rfl
  have destroyed (user : Nat) : ((closeUser s other).users user).destroyed = false ↔
      (s.users user).destroyed = false ∧ user ≠ other := by
    rw [state]
    by_cases same : user = other
    · subst same
      simp [SessionState.destroy, SessionState.resetPublisher, SessionState.call]
    · simp [SessionState.destroy, SessionState.resetPublisher, SessionState.call, same]
  have notMember : other ∉ (members past).players := players ▸ notAdded
  refine ⟨⟨?_, ?_⟩, ?_, ?_, ?_⟩
  · rw [members_snoc, state]
    exact players.trans (Finset.erase_eq_of_notMem notMember).symm
  · rw [members_snoc, state]
    simp only [Members.step, ← publisher, current, if_true]
    rfl
  · rw [state]
    rintro user ⟨⟩
  · intro user setNow
    have earlier : .setPublisher user ∈ past := by simpa using setNow
    rw [destroyed user, alive user earlier, state]
    constructor
    · rintro ⟨same, different⟩
      exact absurd (Option.some.inj (same.symm.trans current)) different
    · rintro ⟨⟩
  · intro user unknown
    obtain ⟨before, different⟩ := unknown_before_close past other user unknown
    exact (destroyed user).mpr ⟨untouched user before, different⟩

-- A publisher that was replaced closes: it was destroyed when the next one came,
-- and the call returns at its flag.
theorem agreement_close_replaced (past : List SessionEvent) (s : SessionState) (other : Nat)
    (set : .setPublisher other ∈ past) (notAdded : other ∉ s.session.players)
    (type : (s.users other).type = .kUserTypePublishRtmp) (replaced : s.session.publisher ≠ some other)
    (agreement : Agreement past s) : Agreement (past ++ [.closeUser other]) (closeUser s other) := by
  obtain ⟨⟨players, publisher⟩, origin, alive, untouched⟩ := agreement
  have dead : (s.users other).destroyed = true := by
    cases flag : (s.users other).destroyed with
    | true => rfl
    | false => exact absurd ((alive other set).mp flag) replaced
  have notMember : other ∉ (members past).players := players ▸ notAdded
  rw [close_user_rtmp s other (.inl type), if_pos dead]
  refine ⟨⟨?_, ?_⟩, ?_, ?_, ?_⟩
  · rw [members_snoc]
    exact players.trans (Finset.erase_eq_of_notMem notMember).symm
  · rw [members_snoc]
    simp only [Members.step, ← publisher, if_neg replaced]
  · intro user now
    exact List.mem_append_left _ (origin user now)
  · intro user setNow
    exact alive user (by simpa using setNow)
  · intro user unknown
    exact untouched user (unknown_before_close past other user unknown).1

theorem agreement_close (past : List SessionEvent) (s : SessionState) (other : Nat)
    (set : .setPublisher other ∈ past) (notAdded : other ∉ s.session.players)
    (type : (s.users other).type = .kUserTypePublishRtmp) (agreement : Agreement past s) :
    Agreement (past ++ [.closeUser other]) (closeUser s other) := by
  by_cases current : s.session.publisher = some other
  · exact agreement_close_current past s other set notAdded type current agreement
  · exact agreement_close_replaced past s other set notAdded type current agreement

theorem ledger_run (name : Str) (types : Nat → UserType) (events : List SessionEvent)
    (wellFormed : WellFormed types events) : Ledger types events (run sessionStep (.fresh name types) events) := by
  refine run_history (Ledger types) (Admissible types) ?_ ?_ events wellFormed
  · exact ⟨fun _ => rfl, by simp, by simp, by simp [SessionState.fresh], by simp⟩
  · intro past event admissible ledger
    exact ledger_step types past _ event admissible ledger

theorem agreement_run (name : Str) (types : Nat → UserType) (events : List SessionEvent)
    (wellFormed : WellFormed types events)
    (spared : ∀ user, .closeUser user ∈ events → types user ≠ .kUserTypePlayerRtmp) :
    Agreement events (run sessionStep (.fresh name types) events) := by
  have both : Ledger types events (run sessionStep (.fresh name types) events) ∧
      Agreement events (run sessionStep (.fresh name types) events) := by
    refine run_history (fun past s => Ledger types past s ∧ Agreement past s)
      (fun past event => Admissible types past event ∧
        ∀ user, event = .closeUser user → types user ≠ .kUserTypePlayerRtmp) ?_ ?_ events ?_
    · refine ⟨ledger_run name types [] (well_formed_nil types), ⟨rfl, rfl⟩, ?_, by simp, fun _ _ => rfl⟩
      rintro user ⟨⟩
    · rintro past event ⟨admissible, notPlayer⟩ ⟨ledger, agreement⟩
      refine ⟨ledger_step types past _ event admissible ledger, ?_⟩
      cases event with
      | addPlayer other => exact agreement_add past _ other agreement
      | setPublisher other => exact agreement_set past _ other admissible.2 agreement
      | closeUser other =>
          have notAdded : .addPlayer other ∉ past := fun added => notPlayer other rfl (ledger.added other added)
          have set : .setPublisher other ∈ past := admissible.resolve_left notAdded
          exact agreement_close past _ other set (fun member => notAdded ((ledger.players other).mp member))
            ((ledger.typed other).trans (ledger.set other set)) agreement
    · intro past event rest cut
      refine ⟨wellFormed past event rest cut, ?_⟩
      rintro user rfl
      exact spared user (cut ▸ List.mem_append_right past List.mem_cons_self)
  exact both.2

theorem session_members_iff (name : Str) (types : Nat → UserType) (events : List SessionEvent)
    (wellFormed : WellFormed types events) :
    Matches (run sessionStep (.fresh name types) events) (members events) ↔
      ∀ user, .closeUser user ∈ events → types user ≠ .kUserTypePlayerRtmp := by
  have ledger := ledger_run name types events wellFormed
  constructor
  · rintro ⟨players, _⟩ user closed player
    have gone := ledger.gone user closed
    rw [← players, ledger.players user] at gone
    obtain ⟨past, rest, cut⟩ := List.append_of_mem closed
    rcases wellFormed past (.closeUser user) rest cut with added | set
    · exact gone (cut ▸ List.mem_append_left _ added)
    · have publisher := ledger.set user (cut ▸ List.mem_append_left _ set)
      rw [player] at publisher
      cases publisher
  · intro spared
    exact (agreement_run name types events wellFormed spared).same

theorem session_members_takeover :
    Matches (run sessionStep (.fresh [] fun _ => .kUserTypePublishRtmp) [.setPublisher 0, .setPublisher 1, .closeUser 0])
        (members [.setPublisher 0, .setPublisher 1, .closeUser 0]) ↔
      ∀ user, .closeUser user ∈ [SessionEvent.setPublisher 0, .setPublisher 1, .closeUser 0] →
        UserType.kUserTypePublishRtmp ≠ .kUserTypePlayerRtmp := by
  refine session_members_iff [] (fun _ => .kUserTypePublishRtmp) _ ?_
  have first := well_formed_snoc (fun _ => .kUserTypePublishRtmp) _ (.setPublisher 0) (well_formed_nil _)
    ⟨rfl, by decide, by decide, by decide⟩
  have second := well_formed_snoc _ _ (.setPublisher 1) first ⟨rfl, by decide, by decide, by decide⟩
  exact well_formed_snoc _ _ (.closeUser 0) second (.inr (by decide))

-- A viewer leaves, and takes the publisher along.
theorem closed_player_stays :
    ¬ ∀ (name : Str) (types : Nat → UserType) (events : List SessionEvent), WellFormed types events →
      Matches (run sessionStep (.fresh name types) events) (members events) := by
  intro claimed
  let types : Nat → UserType := fun user => if user = 0 then .kUserTypePublishRtmp else .kUserTypePlayerRtmp
  have first := well_formed_snoc types _ (.setPublisher 0) (well_formed_nil types)
    ⟨rfl, by decide, by decide, by decide⟩
  have second := well_formed_snoc types _ (.addPlayer 1) first ⟨rfl, by decide, by decide, by decide⟩
  have third := well_formed_snoc types _ (.closeUser 1) second (.inl (by decide))
  have publisher := (claimed [] types _ third).2
  revert publisher
  decide

end Lssvc.Live
