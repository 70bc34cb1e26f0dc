import Lssvc.Live.Publishing

set_option autoImplicit false

namespace Lssvc.Live

open Lssvc.Foundation Lssvc.Mmedia Lssvc.Utils

-- lock_ of a session is a std::mutex: a thread that holds it must not lock it again.
inductive LockFault where
  | relocked (session : Nat)
deriving DecidableEq, Repr

def LiveService.retire (svc : LiveService) (session old : Nat) : LiveService :=
  svc.store session (((svc.state session).destroy old).call (.close old))

def LiveService.seat (svc : LiveService) (session user : Nat) : LiveService :=
  { svc with
    sessions := Function.update svc.sessions session { svc.sessions session with publisher := some user } }

-- LiveSession::closeUser in a thread that holds lock_ of the session `held`.
def closeUserHolding (svc : LiveService) (held : Option Nat) (user : Nat) : Except LockFault LiveService :=
  let session := (svc.users user).session
  if ¬ (svc.users user).destroyed ∧ held = some session then .error (.relocked session)
  else .ok (svc.store session (closeUser (svc.state session) user))

def onDestroyedHolding (svc : LiveService) (held : Option Nat) (conn : Nat) : Except LockFault LiveService :=
  match svc.contexts conn with
  | none => .ok (svc.clearContext conn)
  | some user => (closeUserHolding svc held user).map fun svc => svc.clearContext conn

section

-- The event loop and closed_ of every connection, and config->getAppInfo(domain, app).
variable (loop : Nat → Nat) (closed : Nat → Bool) (hasApp : Str → Str → Bool)

def ClosesAtOnce (here conn : Nat) : Prop := loop conn = loop here ∧ closed conn = false

instance (here conn : Nat) : Decidable (ClosesAtOnce loop closed here conn) := instDecidableAnd

-- forceClose is a task of the connection's loop. enqueueTask runs it at once in the
-- thread of that loop; from another thread the connection is closed later, which is
-- an event of its own.
def forceCloseFrom (svc : LiveService) (held : Option Nat) (here conn : Nat) : Except LockFault LiveService :=
  if ClosesAtOnce loop closed here conn then onDestroyedHolding svc held conn else .ok svc

def setPublisherFrom (svc : LiveService) (session here user : Nat) : Except LockFault LiveService :=
  match (svc.sessions session).publisher with
  | none => .ok (svc.seat session user)
  | some old =>
      if old = user then .ok svc
      else if (svc.users old).destroyed then .ok (svc.seat session user)
      else
        (forceCloseFrom loop closed (svc.retire session old) (some session) here (svc.users old).connection).map fun svc =>
          svc.seat session user

def refuse (svc : LiveService) (conn : Nat) : Except LockFault LiveService :=
  forceCloseFrom loop closed (svc.call (.forceClose conn)) none conn conn

def onPlayFrom (svc : LiveService) (conn : Nat) (sessionName : Str) : Except LockFault LiveService :=
  match createSession hasApp svc sessionName with
  | (svc, none) => refuse loop closed svc conn
  | (svc, some session) =>
      match createPlayerUser svc session conn sessionName with
      | (svc, none) => refuse loop closed svc conn
      | (svc, some user) =>
          let svc := svc.setContext conn user
          .ok (svc.store session (addPlayer (svc.state session) user))

def onPublishFrom (svc : LiveService) (conn : Nat) (sessionName : Str) : Except LockFault LiveService :=
  match createSession hasApp svc sessionName with
  | (svc, none) => refuse loop closed svc conn
  | (svc, some session) =>
      match createPublisher svc session conn sessionName with
      | (svc, none) => refuse loop closed svc conn
      | (svc, some user) => setPublisherFrom loop closed (svc.setContext conn user) session conn user

def onRecvFrom (svc : LiveService) (conn : Nat) (packet : Packet) : Except LockFault LiveService :=
  match svc.contexts conn with
  | none => refuse loop closed svc conn
  | some user => .ok (svc.call (.addPacket (svc.users user).session packet))

-- The loop of a connection runs its handlers; closeSession is called from outside the
-- loops.
def threadStep (svc : LiveService) : ServiceEvent → Except LockFault LiveService
  | .onPlay conn sessionName => onPlayFrom loop closed hasApp svc conn sessionName
  | .onPublish conn sessionName => onPublishFrom loop closed hasApp svc conn sessionName
  | .onRecv conn packet => onRecvFrom loop closed svc conn packet
  | .onConnectionDestroy conn => onDestroyedHolding svc none conn
  | .closeSession sessionName => .ok (closeSession svc sessionName)

def closing (here conn : Nat) : Option Nat := if ClosesAtOnce loop closed here conn then some conn else none

def closedAtOnce (svc : LiveService) : ServiceEvent → Option Nat
  | .onPlay conn sessionName =>
      if (createSession hasApp svc sessionName).2 = none then closing loop closed conn conn else none
  | .onPublish conn sessionName =>
      match (createSession hasApp svc sessionName).2 with
      | none => closing loop closed conn conn
      | some session =>
          match (svc.sessions session).publisher with
          | none => none
          | some old => closing loop closed conn (svc.users old).connection
  | .onRecv conn _ => if svc.contexts conn = none then closing loop closed conn conn else none
  | _ => none

def Relocks (svc : LiveService) : ServiceEvent → Prop
  | .onPublish conn sessionName => ∃ session old, (createSession hasApp svc sessionName).2 = some session ∧
      (svc.sessions session).publisher = some old ∧ ClosesAtOnce loop closed conn (svc.users old).connection ∧
      ((svc.users old).connection = conn ∨ ∃ user, svc.contexts (svc.users old).connection = some user ∧
        user ≠ old ∧ (svc.users user).destroyed = false ∧ (svc.users user).session = session)
  | _ => False

def LiveService.closeAlso (svc : LiveService) : Option Nat → LiveService
  | none => svc
  | some conn => onDestroyed svc conn

theorem store_state (svc : LiveService) (session : Nat) : svc.store session (svc.state session) = svc := by
  simp [LiveService.store, LiveService.state]

theorem on_destroyed_holding_none (svc : LiveService) (conn : Nat) :
    onDestroyedHolding svc none conn = .ok (onDestroyed svc conn) := by
  rw [onDestroyedHolding, onDestroyed, onConnectionDestroy]
  cases svc.contexts conn with
  | none => rfl
  | some user =>
      have free : ¬ (¬ (svc.users user).destroyed = true ∧ none = some (svc.users user).session) := by
        rintro ⟨_, held⟩
        cases held
      simp only [closeUserHolding, if_neg free]
      rfl

theorem refuse_closes (svc : LiveService) (conn : Nat) :
    refuse loop closed svc conn = .ok ((svc.call (.forceClose conn)).closeAlso (closing loop closed conn conn)) := by
  rw [refuse, forceCloseFrom, closing]
  by_cases living : ClosesAtOnce loop closed conn conn
  · rw [if_pos living, if_pos living, on_destroyed_holding_none, LiveService.closeAlso]
  · rw [if_neg living, if_neg living, LiveService.closeAlso]

theorem on_destroyed_holding (svc : LiveService) (session conn : Nat) :
    ((∃ user, svc.contexts conn = some user ∧ (svc.users user).destroyed = false ∧ (svc.users user).session = session) ∧
      onDestroyedHolding svc (some session) conn = .error (.relocked session)) ∨
    ((∀ user, svc.contexts conn = some user → (svc.users user).destroyed = true ∨ (svc.users user).session ≠ session) ∧
      onDestroyedHolding svc (some session) conn = .ok (onDestroyed svc conn)) := by
  rw [onDestroyedHolding, onDestroyed, onConnectionDestroy]
  cases attached : svc.contexts conn with
  | none =>
      refine .inr ⟨?_, rfl⟩
      intro user impossible
      cases impossible
  | some user =>
      dsimp only
      by_cases held : ¬ (svc.users user).destroyed = true ∧ some session = some (svc.users user).session
      · refine .inl ⟨⟨user, rfl, Bool.eq_false_iff.mpr held.1, (Option.some.inj held.2).symm⟩, ?_⟩
        simp only [closeUserHolding, if_pos held]
        rw [← Option.some.inj held.2]
        rfl
      · refine .inr ⟨fun other same => ?_, ?_⟩
        · cases same
          by_contra both
          rw [not_or] at both
          exact held ⟨both.1, congrArg some (not_not.mp both.2).symm⟩
        · simp only [closeUserHolding, if_neg held]
          rfl

theorem seat_closed (svc : LiveService) (session user conn : Nat)
    (free : ∀ other, svc.contexts conn = some other →
      (svc.users other).destroyed = true ∨ (svc.users other).session ≠ session) :
    (onDestroyed svc conn).seat session user = onDestroyed (svc.seat session user) conn := by
  rw [onDestroyed, onDestroyed, onConnectionDestroy, onConnectionDestroy]
  change _ = LiveService.clearContext (match svc.contexts conn with | none => _ | some _ => _) conn
  cases attached : svc.contexts conn with
  | none => rfl
  | some other =>
      dsimp only
      rcases free other attached with dead | elsewhere
      · have same (svc' : LiveService) (users : svc'.users = svc.users) :
            closeUser (svc'.state (svc.users other).session) other = svc'.state (svc.users other).session := by
          rw [closeUser, LiveService.state, users, if_pos dead]
        rw [same svc rfl, store_state, show ((svc.seat session user).users other).session = (svc.users other).session from rfl,
          same (svc.seat session user) rfl, store_state]
        rfl
      · have kept : (svc.seat session user).state (svc.users other).session = svc.state (svc.users other).session := by
          simp [LiveService.state, LiveService.seat, elsewhere]
        rw [show ((svc.seat session user).users other).session = (svc.users other).session from rfl, kept]
        simp only [LiveService.clearContext, LiveService.seat, LiveService.store, Function.update_of_ne elsewhere.symm]
        rw [Function.update_comm elsewhere]

theorem seat_publisher (svc : LiveService) (session user : Nat) (vacant : (svc.sessions session).publisher = none) :
    svc.store session (setPublisher (svc.state session) user) = svc.seat session user := by
  have different : (svc.state session).session.publisher ≠ some user := by
    intro same
    cases vacant.symm.trans same
  have retired : retirePublisher (svc.state session) = svc.state session := by
    rw [retirePublisher, show (svc.state session).session.publisher = none from vacant]
  rw [setPublisher, if_neg different, retired]
  simp [LiveService.store, LiveService.state, LiveService.seat]

theorem seat_retired (svc : LiveService) (session user old : Nat) (current : (svc.sessions session).publisher = some old)
    (other : old ≠ user) (living : (svc.users old).destroyed = false) :
    svc.store session (setPublisher (svc.state session) user) = (svc.retire session old).seat session user := by
  have place : (svc.state session).session.publisher = some old := current
  have different : (svc.state session).session.publisher ≠ some user := by
    rw [place]
    exact fun same => other (Option.some.inj same)
  have retired : retirePublisher (svc.state session) = ((svc.state session).destroy old).call (.close old) := by
    rw [retirePublisher, place]
    exact if_neg (by rw [show ((svc.state session).users old).destroyed = false from living]; decide)
  rw [setPublisher, if_neg different, retired]
  simp [LiveService.store, LiveService.state, LiveService.seat, LiveService.retire, SessionState.destroy, SessionState.call]

theorem retire_user (svc : LiveService) (session old user : Nat) :
    (((svc.retire session old).users user).destroyed = false ↔ user ≠ old ∧ (svc.users user).destroyed = false) ∧
      ((svc.retire session old).users user).session = (svc.users user).session := by
  have users : (svc.retire session old).users user =
      Function.update svc.users old { svc.users old with destroyed := true } user := rfl
  rw [users]
  by_cases same : user = old
  · subst same
    simp
  · simp [same]

theorem slot_relocks (svc next : LiveService) (sessionName : Str) (session conn old closing : Nat)
    (sound : ServiceSound svc) (opened : Opened svc next sessionName session)
    (current : (svc.sessions session).publisher = some old) :
    let retired := (next.addUser session conn .kUserTypePublishRtmp).retire session old
    (∃ user, retired.contexts closing = some user ∧ (retired.users user).destroyed = false ∧
        (retired.users user).session = session) ↔
      (closing = conn ∨ ∃ user, svc.contexts closing = some user ∧ user ≠ old ∧ (svc.users user).destroyed = false ∧
        (svc.users user).session = session) := by
  intro retired
  have joined := new_user svc next session conn .kUserTypePublishRtmp opened.nextUser
  have before (user : Nat) (known : user < svc.nextUser) :
      (next.addUser session conn .kUserTypePublishRtmp).users user = svc.users user := by
    rw [← opened.users]
    exact Function.update_of_ne (by rw [opened.nextUser]; exact Nat.ne_of_lt known) _ _
  have oldKnown := (sound.publishers session old current).1
  have living (user : Nat) := (retire_user (next.addUser session conn .kUserTypePublishRtmp) session old user).1
  have home (user : Nat) := (retire_user (next.addUser session conn .kUserTypePublishRtmp) session old user).2
  by_cases same : closing = conn
  · subst same
    refine ⟨fun _ => .inl rfl, fun _ => ⟨svc.nextUser, ?_, ?_, ?_⟩⟩
    · rw [← opened.nextUser]
      exact Function.update_self _ _ _
    · rw [living, joined]
      exact ⟨Nat.ne_of_gt oldKnown, rfl⟩
    · rw [home, joined]
  · have slot : retired.contexts closing = svc.contexts closing := by
      rw [← opened.contexts]
      exact Function.update_of_ne same _ _
    rw [slot, or_iff_right same]
    refine exists_congr fun user => and_congr_right fun attached => ?_
    rw [living, home, before user (sound.contexts closing user attached), and_assoc]

theorem relocks_publish (svc : LiveService) (conn : Nat) (sessionName : Str) (session old : Nat)
    (found : (createSession hasApp svc sessionName).2 = some session)
    (current : (svc.sessions session).publisher = some old) :
    Relocks loop closed hasApp svc (.onPublish conn sessionName) ↔ ClosesAtOnce loop closed conn (svc.users old).connection ∧
      ((svc.users old).connection = conn ∨ ∃ user, svc.contexts (svc.users old).connection = some user ∧
        user ≠ old ∧ (svc.users user).destroyed = false ∧ (svc.users user).session = session) := by
  constructor
  · rintro ⟨session', old', found', current', both⟩
    cases found.symm.trans found'
    cases current.symm.trans current'
    exact both
  · exact fun both => ⟨session, old, found, current, both⟩

theorem on_publish_thread (svc : LiveService) (conn : Nat) (sessionName : Str) (sound : ServiceSound svc) :
    (Relocks loop closed hasApp svc (.onPublish conn sessionName) ∧
        ∃ session, onPublishFrom loop closed hasApp svc conn sessionName = .error (.relocked session)) ∨
      (¬ Relocks loop closed hasApp svc (.onPublish conn sessionName) ∧ onPublishFrom loop closed hasApp svc conn sessionName =
        .ok ((onPublish hasApp svc conn sessionName).closeAlso
          (closedAtOnce loop closed hasApp svc (.onPublish conn sessionName)))) := by
  rcases create_session_cases hasApp svc sessionName sound with refused | ⟨next, session, created, opened⟩
  · refine .inr ⟨?_, ?_⟩
    · rintro ⟨_, _, impossible, _⟩
      rw [refused] at impossible
      cases impossible
    · simp only [onPublishFrom, onPublish, closedAtOnce, refused]
      exact refuse_closes loop closed svc conn
  · have user := create_user_opened svc next sessionName session conn .kUserTypePublishRtmp opened
    have found : (createSession hasApp svc sessionName).2 = some session := by rw [created]
    have published : onPublish hasApp svc conn sessionName =
        (next.addUser session conn .kUserTypePublishRtmp).store session
          (setPublisher ((next.addUser session conn .kUserTypePublishRtmp).state session) next.nextUser) := by
      simp only [onPublish, created, createPublisher, user, set_context_again]
    have commanded : onPublishFrom loop closed hasApp svc conn sessionName =
        setPublisherFrom loop closed (next.addUser session conn .kUserTypePublishRtmp) session conn next.nextUser := by
      simp only [onPublishFrom, created, createPublisher, user, set_context_again]
    have place : ((next.addUser session conn .kUserTypePublishRtmp).sessions session).publisher =
      (svc.sessions session).publisher := opened.publisher session
    rw [published, commanded, setPublisherFrom, place]
    simp only [closedAtOnce, found]
    cases current : (svc.sessions session).publisher with
    | none =>
        refine .inr ⟨?_, ?_⟩
        · rintro ⟨_, _, found', seated, _⟩
          cases found.symm.trans found'
          cases current.symm.trans seated
        rw [seat_publisher _ session next.nextUser (place.trans current), LiveService.closeAlso]
    | some old =>
        obtain ⟨known, _, living⟩ := sound.publishers session old current
        have other : old ≠ next.nextUser := Nat.ne_of_lt (opened.nextUser ▸ known)
        have kept : (next.addUser session conn .kUserTypePublishRtmp).users old = svc.users old := by
          rw [← opened.users]
          exact Function.update_of_ne other _ _
        have alive : ¬ (svc.users old).destroyed = true := by
          rw [living]
          decide
        rw [seat_retired _ session next.nextUser old (place.trans current) other (by rw [kept]; exact living)]
        have relocks := relocks_publish loop closed hasApp svc conn sessionName session old found current
        simp only [if_neg other, if_neg alive, kept, forceCloseFrom, relocks, closing]
        by_cases here : ClosesAtOnce loop closed conn (svc.users old).connection
        · have slot := slot_relocks svc next sessionName session conn old (svc.users old).connection sound opened current
          dsimp only at slot
          rw [if_pos here, if_pos here, ← slot]
          rcases on_destroyed_holding ((next.addUser session conn .kUserTypePublishRtmp).retire session old) session
            (svc.users old).connection with ⟨again, faults⟩ | ⟨free, closes⟩
          · exact .inl ⟨⟨here, again⟩, session, by rw [faults]; rfl⟩
          · refine .inr ⟨?_, ?_⟩
            · rintro ⟨_, user, attached, alive', home⟩
              rcases free user attached with dead | elsewhere
              · rw [dead] at alive'
                cases alive'
              · exact elsewhere home
            · rw [closes]
              exact congrArg Except.ok (seat_closed _ session next.nextUser _ free)
        · rw [if_neg here, if_neg here]
          exact .inr ⟨fun both => here both.1, rfl⟩

theorem thread_step_cases (svc : LiveService) (event : ServiceEvent) (sound : ServiceSound svc) :
    (Relocks loop closed hasApp svc event ∧ ∃ session, threadStep loop closed hasApp svc event = .error (.relocked session)) ∨
      (¬ Relocks loop closed hasApp svc event ∧ threadStep loop closed hasApp svc event =
        .ok ((serviceStep hasApp svc event).closeAlso (closedAtOnce loop closed hasApp svc event))) := by
  cases event with
  | onPlay conn sessionName =>
      refine .inr ⟨id, ?_⟩
      simp only [threadStep, serviceStep, closedAtOnce]
      rcases create_session_cases hasApp svc sessionName sound with refused | ⟨next, session, created, opened⟩
      · simp only [onPlayFrom, onPlay, refused, if_true]
        exact refuse_closes loop closed svc conn
      · have user := create_user_opened svc next sessionName session conn .kUserTypePlayerRtmp opened
        simp only [onPlayFrom, onPlay, created, createPlayerUser, user]
        rfl
  | onPublish conn sessionName => exact on_publish_thread loop closed hasApp svc conn sessionName sound
  | onRecv conn packet =>
      refine .inr ⟨id, ?_⟩
      simp only [threadStep, onRecvFrom, closedAtOnce, serviceStep, onRecv]
      cases svc.contexts conn with
      | none =>
          rw [if_pos rfl]
          exact refuse_closes loop closed svc conn
      | some user => rfl
  | onConnectionDestroy conn => exact .inr ⟨id, on_destroyed_holding_none svc conn⟩
  | closeSession sessionName => exact .inr ⟨id, rfl⟩

end

example : (threadStep (fun _ => 0) (fun _ => false) everyApp (onPublish everyApp .fresh 1 ['a', '/', 'b', '/', 'c'])
    (.onPublish 1 ['a', '/', 'b', '/', 'c'])).toOption.isSome = false := by decide +kernel

end Lssvc.Live
