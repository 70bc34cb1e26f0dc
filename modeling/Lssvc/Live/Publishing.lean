import Lssvc.Live.Service

set_option autoImplicit false

namespace Lssvc.Live

open Lssvc.Foundation Lssvc.Mmedia Lssvc.Utils

structure ServiceSound (svc : LiveService) : Prop where
  contexts : ∀ conn user, svc.contexts conn = some user → user < svc.nextUser
  types : ∀ user, user < svc.nextUser → RtmpType (svc.users user).type
  homes : ∀ user, user < svc.nextUser → (svc.users user).session < svc.nextSession
  publishers : ∀ session user, (svc.sessions session).publisher = some user →
    user < svc.nextUser ∧ (svc.users user).session = session ∧ (svc.users user).destroyed = false
  players : ∀ session, ∀ user ∈ (svc.sessions session).players,
    user < svc.nextUser ∧ (svc.users user).session = session
  names : ∀ name session, svc.names name = some session →
    session < svc.nextSession ∧ (svc.sessions session).sessionName = name ∧ (split name ['/'] false).length = 3
  unused : ∀ session, svc.nextSession ≤ session →
    (svc.sessions session).publisher = none ∧ (svc.sessions session).players = ∅

theorem fresh_service_sound : ServiceSound .fresh where
  contexts := fun _ _ impossible => by cases impossible
  types := fun _ impossible => absurd impossible (Nat.not_lt_zero _)
  homes := fun _ impossible => absurd impossible (Nat.not_lt_zero _)
  publishers := fun _ _ impossible => by cases impossible
  players := fun _ _ impossible => absurd impossible (Finset.notMem_empty _)
  names := fun _ _ impossible => by cases impossible
  unused := fun _ _ => ⟨rfl, rfl⟩

theorem call_sound (svc : LiveService) (call : ServiceCall) (sound : ServiceSound svc) : ServiceSound (svc.call call) :=
  ⟨sound.contexts, sound.types, sound.homes, sound.publishers, sound.players, sound.names, sound.unused⟩

theorem store_sound (svc : LiveService) (session : Nat) (s : SessionState) (sound : ServiceSound svc)
    (inside : session < svc.nextSession) (unchanged : Local session (svc.state session) s)
    (publisher : ∀ user, s.session.publisher = some user →
      user < svc.nextUser ∧ (svc.users user).session = session ∧ (s.users user).destroyed = false)
    (players : ∀ user ∈ s.session.players, user < svc.nextUser ∧ (svc.users user).session = session) :
    ServiceSound (svc.store session s) := by
  obtain ⟨type, home, others, name⟩ := unchanged
  have same : (svc.store session s).sessions session = s.session := Function.update_self _ _ _
  have different (other : Nat) (elsewhere : other ≠ session) :
      (svc.store session s).sessions other = svc.sessions other := Function.update_of_ne elsewhere _ _
  refine ⟨sound.contexts, ?_, ?_, ?_, ?_, ?_, ?_⟩
  · intro user known
    change RtmpType (s.users user).type
    rw [type user]
    exact sound.types user known
  · intro user known
    change (s.users user).session < svc.nextSession
    rw [home user]
    exact sound.homes user known
  · intro other user current
    change user < svc.nextUser ∧ (s.users user).session = other ∧ (s.users user).destroyed = false
    by_cases equal : other = session
    · subst equal
      rw [same] at current
      obtain ⟨known, member, living⟩ := publisher user current
      exact ⟨known, (home user).trans member, living⟩
    · rw [different other equal] at current
      obtain ⟨known, member, living⟩ := sound.publishers other user current
      refine ⟨known, (home user).trans member, (others user ?_).trans living⟩
      rw [show ((svc.state session).users user).session = other from member]
      exact equal
  · intro other user member
    change user < svc.nextUser ∧ (s.users user).session = other
    rw [home user]
    by_cases equal : other = session
    · subst equal
      rw [same] at member
      exact players user member
    · rw [different other equal] at member
      exact sound.players other user member
  · intro wanted other found
    obtain ⟨known, named, valid⟩ := sound.names wanted other found
    refine ⟨known, ?_, valid⟩
    by_cases equal : other = session
    · subst equal
      rw [same]
      exact name.trans named
    · rw [different other equal]
      exact named
  · intro other unusedId
    rw [different other (Nat.ne_of_gt (Nat.lt_of_lt_of_le inside unusedId))]
    exact sound.unused other unusedId

theorem add_user_sound (svc : LiveService) (session conn : Nat) (type : UserType) (sound : ServiceSound svc)
    (inside : session < svc.nextSession) (rtmp : RtmpType type) : ServiceSound (svc.addUser session conn type) := by
  have newUser : (svc.addUser session conn type).users svc.nextUser = ⟨type, conn, session, false⟩ :=
    Function.update_self _ _ _
  have oldUser (user : Nat) (known : user < svc.nextUser) : (svc.addUser session conn type).users user = svc.users user :=
    Function.update_of_ne (Nat.ne_of_lt known) _ _
  have count : (svc.addUser session conn type).nextUser = svc.nextUser + 1 := rfl
  refine ⟨?_, ?_, ?_, ?_, ?_, sound.names, sound.unused⟩
  · intro other user attached
    rw [count]
    by_cases same : other = conn
    · subst same
      rw [show (svc.addUser session other type).contexts other = some svc.nextUser from
        Function.update_self _ _ _] at attached
      cases attached
      exact Nat.lt_succ_self _
    · rw [show (svc.addUser session conn type).contexts other = svc.contexts other from
        Function.update_of_ne same _ _] at attached
      exact Nat.lt_succ_of_lt (sound.contexts other user attached)
  · intro user known
    rcases Nat.lt_succ_iff_lt_or_eq.mp known with earlier | rfl
    · rw [oldUser user earlier]
      exact sound.types user earlier
    · rw [newUser]
      exact rtmp
  · intro user known
    rcases Nat.lt_succ_iff_lt_or_eq.mp known with earlier | rfl
    · rw [oldUser user earlier]
      exact sound.homes user earlier
    · rw [newUser]
      exact inside
  · intro other user current
    obtain ⟨known, member⟩ := sound.publishers other user current
    rw [oldUser user known]
    exact ⟨Nat.lt_succ_of_lt known, member⟩
  · intro other user current
    obtain ⟨known, member⟩ := sound.players other user current
    rw [oldUser user known]
    exact ⟨Nat.lt_succ_of_lt known, member⟩

structure Opened (svc next : LiveService) (sessionName : Str) (session : Nat) : Prop where
  sound : ServiceSound next
  inside : session < next.nextSession
  named : (next.sessions session).sessionName = sessionName
  valid : (split sessionName ['/'] false).length = 3
  users : next.users = svc.users
  nextUser : next.nextUser = svc.nextUser
  contexts : next.contexts = svc.contexts
  publisher : ∀ other, (next.sessions other).publisher = (svc.sessions other).publisher
  players : ∀ other, (next.sessions other).players = (svc.sessions other).players

theorem opened_new_publisher {svc next : LiveService} {sessionName : Str} {session : Nat}
    (opened : Opened svc next sessionName session) : (next.sessions session).publisher ≠ some svc.nextUser := by
  intro current
  have known := (opened.sound.publishers session svc.nextUser current).1
  rw [opened.nextUser] at known
  exact Nat.lt_irrefl _ known

theorem add_session_opened (svc : LiveService) (sessionName : Str) (sound : ServiceSound svc)
    (valid : (split sessionName ['/'] false).length = 3) :
    Opened svc (svc.addSession sessionName) sessionName svc.nextSession := by
  obtain ⟨contexts, types, homes, publishers, players, names, unused⟩ := sound
  have fresh := unused svc.nextSession (Nat.le_refl _)
  have newSession : (svc.addSession sessionName).sessions svc.nextSession = { sessionName := sessionName } :=
    Function.update_self _ _ _
  have oldSession (other : Nat) (different : other ≠ svc.nextSession) :
      (svc.addSession sessionName).sessions other = svc.sessions other := Function.update_of_ne different _ _
  have members (other : Nat) :
      ((svc.addSession sessionName).sessions other).publisher = (svc.sessions other).publisher ∧
        ((svc.addSession sessionName).sessions other).players = (svc.sessions other).players := by
    by_cases same : other = svc.nextSession
    · subst same
      rw [newSession, fresh.1, fresh.2]
      exact ⟨rfl, rfl⟩
    · rw [oldSession other same]
      exact ⟨rfl, rfl⟩
  refine ⟨⟨contexts, types, ?_, ?_, ?_, ?_, ?_⟩, Nat.lt_succ_self _, congrArg LiveSession.sessionName newSession,
    valid, rfl, rfl, rfl, fun other => (members other).1, fun other => (members other).2⟩
  · exact fun user known => Nat.lt_succ_of_lt (homes user known)
  · intro other user current
    rw [(members other).1] at current
    exact publishers other user current
  · intro other user current
    rw [(members other).2] at current
    exact players other user current
  · intro wanted other known
    by_cases same : wanted = sessionName
    · subst same
      rw [show (svc.addSession wanted).names wanted = some svc.nextSession from Function.update_self _ _ _] at known
      cases known
      exact ⟨Nat.lt_succ_self _, congrArg LiveSession.sessionName newSession, valid⟩
    · rw [show (svc.addSession sessionName).names wanted = svc.names wanted from Function.update_of_ne same _ _] at known
      obtain ⟨inside, named, split⟩ := names wanted other known
      rw [oldSession other (Nat.ne_of_lt inside)]
      exact ⟨Nat.lt_succ_of_lt inside, named, split⟩
  · intro other later
    rw [(members other).1, (members other).2]
    exact unused other (Nat.le_of_succ_le later)

section

variable (hasApp : Str → Str → Bool)

theorem create_session_tables (svc : LiveService) (sessionName : Str) :
    createSession hasApp svc sessionName = (svc, none) ∨
      (∃ session, svc.names sessionName = some session ∧ createSession hasApp svc sessionName = (svc, some session)) ∨
      (svc.names sessionName = none ∧
        createSession hasApp svc sessionName = (svc.addSession sessionName, some svc.nextSession)) := by
  rw [createSession]
  cases found : svc.names sessionName with
  | some session => exact .inr (.inl ⟨session, rfl, rfl⟩)
  | none =>
      dsimp only
      split
      · split
        · exact .inr (.inr ⟨rfl, rfl⟩)
        · exact .inl rfl
      · exact .inl rfl

theorem create_session_cases (svc : LiveService) (sessionName : Str) (sound : ServiceSound svc) :
    createSession hasApp svc sessionName = (svc, none) ∨
      ∃ next session, createSession hasApp svc sessionName = (next, some session) ∧
        Opened svc next sessionName session := by
  cases found : svc.names sessionName with
  | some session =>
      obtain ⟨inside, named, valid⟩ := sound.names sessionName session found
      refine .inr ⟨svc, session, ?_, sound, inside, named, valid, rfl, rfl, rfl, fun _ => rfl, fun _ => rfl⟩
      simp only [createSession, found]
  | none =>
      rw [createSession, found]
      dsimp only
      split
      · rename_i domain app stream pieces
        by_cases configured : hasApp domain app = true
        · rw [if_pos configured]
          exact .inr ⟨_, _, rfl, add_session_opened svc sessionName sound (by rw [pieces]; rfl)⟩
        · rw [if_neg configured]
          exact .inl rfl
      · exact .inl rfl

theorem create_user_opened (svc next : LiveService) (sessionName : Str) (session conn : Nat) (type : UserType)
    (opened : Opened svc next sessionName session) :
    createUser next session conn sessionName type = (next.addUser session conn type, some next.nextUser) := by
  rw [createUser, if_neg (fun different => different opened.named.symm), if_neg (fun invalid => invalid opened.valid)]

theorem set_context_again (svc : LiveService) (session conn : Nat) (type : UserType) :
    (svc.addUser session conn type).setContext conn svc.nextUser = svc.addUser session conn type := by
  simp only [LiveService.setContext, LiveService.addUser, Function.update_idem]

theorem on_play_cases (svc : LiveService) (conn : Nat) (sessionName : Str) (sound : ServiceSound svc) :
    ((createSession hasApp svc sessionName).2 = none ∧ onPlay hasApp svc conn sessionName = svc.call (.forceClose conn)) ∨
      ∃ next session, (createSession hasApp svc sessionName).2 = some session ∧ Opened svc next sessionName session ∧
        onPlay hasApp svc conn sessionName =
          (next.addUser session conn .kUserTypePlayerRtmp).store session
            (addPlayer ((next.addUser session conn .kUserTypePlayerRtmp).state session) svc.nextUser) := by
  rcases create_session_cases hasApp svc sessionName sound with refused | ⟨next, session, created, opened⟩
  · refine .inl ⟨by rw [refused], ?_⟩
    simp only [onPlay, refused]
  · refine .inr ⟨next, session, by rw [created], opened, ?_⟩
    simp only [onPlay, created, createPlayerUser, create_user_opened svc next sessionName session conn _ opened,
      opened.nextUser]
    rw [← opened.nextUser, set_context_again]

theorem on_publish_cases (svc : LiveService) (conn : Nat) (sessionName : Str) (sound : ServiceSound svc) :
    ((createSession hasApp svc sessionName).2 = none ∧
      onPublish hasApp svc conn sessionName = svc.call (.forceClose conn)) ∨
      ∃ next session, (createSession hasApp svc sessionName).2 = some session ∧ Opened svc next sessionName session ∧
        onPublish hasApp svc conn sessionName =
          (next.addUser session conn .kUserTypePublishRtmp).store session
            (setPublisher ((next.addUser session conn .kUserTypePublishRtmp).state session) svc.nextUser) := by
  rcases create_session_cases hasApp svc sessionName sound with refused | ⟨next, session, created, opened⟩
  · refine .inl ⟨by rw [refused], ?_⟩
    simp only [onPublish, refused]
  · refine .inr ⟨next, session, by rw [created], opened, ?_⟩
    simp only [onPublish, created, createPublisher, create_user_opened svc next sessionName session conn _ opened,
      opened.nextUser]
    rw [← opened.nextUser, set_context_again]

theorem store_publisher (svc : LiveService) (session other : Nat) (s : SessionState) :
    ((svc.store session s).sessions other).publisher =
      if other = session then s.session.publisher else (svc.sessions other).publisher := by
  by_cases same : other = session
  · subst same
    rw [if_pos rfl]
    exact congrArg LiveSession.publisher (Function.update_self _ _ _)
  · rw [if_neg same]
    exact congrArg LiveSession.publisher (Function.update_of_ne same _ _)

theorem store_players (svc : LiveService) (session other : Nat) (s : SessionState) :
    ((svc.store session s).sessions other).players =
      if other = session then s.session.players else (svc.sessions other).players := by
  by_cases same : other = session
  · simp [LiveService.store, same]
  · simp [LiveService.store, same]

theorem new_user (svc next : LiveService) (session conn : Nat) (type : UserType) (same : next.nextUser = svc.nextUser) :
    (next.addUser session conn type).users svc.nextUser = ⟨type, conn, session, false⟩ := by
  rw [← same]
  exact Function.update_self _ _ _

theorem on_play_sound (svc : LiveService) (conn : Nat) (sessionName : Str) (sound : ServiceSound svc) :
    ServiceSound (onPlay hasApp svc conn sessionName) ∧
      ∀ session, ((onPlay hasApp svc conn sessionName).sessions session).publisher =
        (svc.sessions session).publisher := by
  rcases on_play_cases hasApp svc conn sessionName sound with ⟨_, refused⟩ | ⟨next, session, _, opened, played⟩
  · rw [refused]
    exact ⟨call_sound svc _ sound, fun _ => rfl⟩
  · have added := add_user_sound next session conn .kUserTypePlayerRtmp opened.sound opened.inside (.inr rfl)
    have joined := new_user svc next session conn .kUserTypePlayerRtmp opened.nextUser
    rw [played]
    refine ⟨store_sound _ session _ added opened.inside (local_add_player session _ _) ?_ ?_, ?_⟩
    · intro user current
      exact added.publishers session user current
    · intro user member
      rcases Finset.mem_insert.mp member with rfl | earlier
      · rw [joined]
        exact ⟨opened.nextUser ▸ Nat.lt_succ_self _, rfl⟩
      · exact added.players session user earlier
    · intro other
      rw [store_publisher, ← opened.publisher other]
      by_cases same : other = session
      · rw [if_pos same, same]
        rfl
      · rw [if_neg same]
        rfl

theorem on_publish_sound (svc : LiveService) (conn : Nat) (sessionName : Str) (sound : ServiceSound svc) :
    ServiceSound (onPublish hasApp svc conn sessionName) ∧
      ∀ session, ((onPublish hasApp svc conn sessionName).sessions session).publisher =
        if (createSession hasApp svc sessionName).2 = some session then some svc.nextUser
        else (svc.sessions session).publisher := by
  rcases on_publish_cases hasApp svc conn sessionName sound with ⟨none, refused⟩ | ⟨next, session, accepted, opened, published⟩
  · rw [refused, none]
    exact ⟨call_sound svc _ sound, fun _ => rfl⟩
  · have added := add_user_sound next session conn .kUserTypePublishRtmp opened.sound opened.inside (.inl rfl)
    have joined := new_user svc next session conn .kUserTypePublishRtmp opened.nextUser
    have fresh := opened_new_publisher opened
    rw [published, accepted]
    refine ⟨store_sound _ session _ added opened.inside (local_set_publisher session _ _ ?_) ?_ ?_, ?_⟩
    · exact fun old current => (added.publishers session old current).2.1
    · intro user current
      rw [set_publisher_session] at current
      cases current
      have living : ((next.addUser session conn .kUserTypePublishRtmp).users svc.nextUser).destroyed = false := by
        rw [joined]
      rw [joined]
      refine ⟨opened.nextUser ▸ Nat.lt_succ_self _, rfl, ?_⟩
      exact (set_publisher_destroyed _ svc.nextUser svc.nextUser fresh).mpr ⟨living, fresh⟩
    · intro user member
      rw [set_publisher_session] at member
      exact added.players session user member
    · intro other
      rw [store_publisher, set_publisher_session, ← opened.publisher other]
      by_cases same : other = session
      · rw [if_pos same, if_pos (congrArg some same.symm)]
      · rw [if_neg same, if_neg fun equal => same (Option.some.inj equal).symm]
        rfl

theorem on_connection_destroy_sound (svc : LiveService) (conn : Nat) (sound : ServiceSound svc) :
    ServiceSound (onConnectionDestroy svc conn) ∧
      ∀ session publisher, ((onConnectionDestroy svc conn).sessions session).publisher = some publisher ↔
        (svc.sessions session).publisher = some publisher ∧
          ¬ ∃ user, svc.contexts conn = some user ∧ (svc.users user).session = session ∧
            (svc.users user).destroyed = false := by
  cases attached : svc.contexts conn with
  | none =>
      simp only [onConnectionDestroy, attached]
      exact ⟨sound, fun session publisher => by simp⟩
  | some user =>
      have known := sound.contexts conn user attached
      have rtmp : RtmpType (((svc.state (svc.users user).session).users user).type) := sound.types user known
      obtain ⟨players, publisher⟩ := close_user_session (svc.state (svc.users user).session) user rtmp
      have unchanged := local_close_user (svc.users user).session (svc.state (svc.users user).session) user rtmp rfl
      simp only [onConnectionDestroy, attached]
      by_cases dead : (svc.users user).destroyed = true
      · have same := (close_user_rtmp (svc.state (svc.users user).session) user rtmp).trans (if_pos dead)
        rw [same]
        refine ⟨store_sound svc _ _ sound (sound.homes user known) (local_refl _ _) (sound.publishers _)
          (sound.players _), fun session current => ?_⟩
        rw [store_publisher]
        by_cases here : session = (svc.users user).session
        · rw [if_pos here, here]
          simp [dead, LiveService.state]
        · rw [if_neg here]
          simp [dead]
      · rw [show ((svc.state (svc.users user).session).users user).destroyed = (svc.users user).destroyed from rfl,
          if_neg dead] at publisher
        refine ⟨store_sound svc _ _ sound (sound.homes user known) unchanged ?_ ?_, fun session current => ?_⟩
        · intro other impossible
          rw [publisher] at impossible
          cases impossible
        · rw [players]
          exact sound.players _
        · rw [store_publisher]
          by_cases here : session = (svc.users user).session
          · rw [if_pos here, publisher]
            simp [dead, here]
          · rw [if_neg here]
            have elsewhere : (svc.users user).session ≠ session := fun same => here same.symm
            simp [elsewhere]

theorem clear_context_sound (svc : LiveService) (conn : Nat) (sound : ServiceSound svc) :
    ServiceSound (svc.clearContext conn) := by
  refine ⟨fun other user attached => ?_, sound.types, sound.homes, sound.publishers, sound.players, sound.names,
    sound.unused⟩
  change Function.update svc.contexts conn none other = some user at attached
  by_cases same : other = conn
  · subst same
    rw [Function.update_self] at attached
    cases attached
  · rw [Function.update_of_ne same] at attached
    exact sound.contexts other user attached

theorem erase_name_sound (svc : LiveService) (sessionName : Str) (sound : ServiceSound svc) :
    ServiceSound { svc with names := Function.update svc.names sessionName none } := by
  obtain ⟨contexts, types, homes, publishers, players, names, unused⟩ := sound
  refine ⟨contexts, types, homes, publishers, players, ?_, unused⟩
  intro wanted session found
  dsimp only at found
  by_cases same : wanted = sessionName
  · subst same
    rw [Function.update_self] at found
    cases found
  · rw [Function.update_of_ne same] at found
    exact names wanted session found

theorem close_session_sound (svc : LiveService) (sessionName : Str) (sound : ServiceSound svc) :
    ServiceSound (closeSession svc sessionName) ∧
      ∀ session publisher, ((closeSession svc sessionName).sessions session).publisher = some publisher ↔
        (svc.sessions session).publisher = some publisher ∧ svc.names sessionName ≠ some session := by
  cases found : svc.names sessionName with
  | none =>
      simp only [closeSession, found]
      exact ⟨sound, fun session publisher => by simp⟩
  | some closed =>
      have erased := erase_name_sound svc sessionName sound
      obtain ⟨unchanged, nobody, empty⟩ := clear_cleared closed
        (LiveService.state { svc with names := Function.update svc.names sessionName none } closed)
        (fun user member => by
          obtain ⟨known, home⟩ := sound.players closed user member
          exact ⟨sound.types user known, home⟩)
        (fun user current => by
          obtain ⟨known, home, living⟩ := sound.publishers closed user current
          exact ⟨sound.types user known, home, living⟩)
      simp only [closeSession, found]
      refine ⟨store_sound _ closed _ erased (sound.names sessionName closed found).1 unchanged ?_ ?_, ?_⟩
      · intro user impossible
        rw [nobody] at impossible
        cases impossible
      · rw [empty]
        exact fun user impossible => absurd impossible (Finset.notMem_empty user)
      · intro session publisher
        rw [store_publisher, nobody]
        by_cases here : session = closed
        · simp [here]
        · have elsewhere : closed ≠ session := fun same => here same.symm
          simp [here, elsewhere]

theorem close_session_elsewhere (svc : LiveService) (sessionName : Str) (session : Nat)
    (elsewhere : svc.names sessionName ≠ some session) :
    (closeSession svc sessionName).sessions session = svc.sessions session := by
  rw [closeSession]
  cases found : svc.names sessionName with
  | none => rfl
  | some closed =>
      have other : session ≠ closed := fun same => elsewhere (found.trans (congrArg some same.symm))
      simp [LiveService.store, other]

theorem close_session_count (svc : LiveService) (sessionName : Str) :
    (closeSession svc sessionName).nextSession = svc.nextSession := by
  rw [closeSession]
  split <;> rfl

theorem close_session_names (svc : LiveService) (sessionName : Str) :
    (closeSession svc sessionName).names = Function.update svc.names sessionName none := by
  rw [closeSession]
  cases found : svc.names sessionName with
  | none => exact (Function.update_eq_self_iff.mpr found.symm).symm
  | some closed => rfl

def Publishes (session user : Nat) (svc : LiveService) (event : ServiceEvent) : Prop :=
  ∃ conn sessionName, event = .onPublish conn sessionName ∧
    (createSession hasApp svc sessionName).2 = some session ∧ svc.nextUser = user

def Unseats (session : Nat) (svc : LiveService) : ServiceEvent → Prop
  | .onPublish _ sessionName => (createSession hasApp svc sessionName).2 = some session
  | .onConnectionDestroy conn => ∃ user, svc.contexts conn = some user ∧ (svc.users user).session = session ∧
      (svc.users user).destroyed = false
  | .closeSession sessionName => svc.names sessionName = some session
  | _ => False

theorem service_step_sound (svc : LiveService) (event : ServiceEvent) (sound : ServiceSound svc) :
    ServiceSound (serviceStep hasApp svc event) := by
  cases event with
  | onPlay conn sessionName => exact (on_play_sound hasApp svc conn sessionName sound).1
  | onPublish conn sessionName => exact (on_publish_sound hasApp svc conn sessionName sound).1
  | onRecv conn packet =>
      cases attached : svc.contexts conn with
      | none =>
          simp only [serviceStep, onRecv, attached]
          exact call_sound svc _ sound
      | some user =>
          simp only [serviceStep, onRecv, attached]
          exact call_sound svc _ sound
  | onConnectionDestroy conn => exact clear_context_sound _ conn (on_connection_destroy_sound svc conn sound).1
  | closeSession sessionName => exact (close_session_sound svc sessionName sound).1

theorem service_run_sound (events : List ServiceEvent) : ServiceSound (run (serviceStep hasApp) .fresh events) :=
  run_invariant (service_step_sound hasApp) _ fresh_service_sound events

theorem publisher_step (svc : LiveService) (event : ServiceEvent) (sound : ServiceSound svc) (session user : Nat) :
    ((serviceStep hasApp svc event).sessions session).publisher = some user ↔
      Publishes hasApp session user svc event ∨
        ((svc.sessions session).publisher = some user ∧ ¬ Unseats hasApp session svc event) := by
  cases event with
  | onPlay conn sessionName =>
      rw [serviceStep, (on_play_sound hasApp svc conn sessionName sound).2 session]
      simp [Publishes, Unseats]
  | onPublish conn sessionName =>
      rw [serviceStep, (on_publish_sound hasApp svc conn sessionName sound).2 session]
      by_cases accepted : (createSession hasApp svc sessionName).2 = some session
      · simp [Publishes, Unseats, accepted]
      · simp [Publishes, Unseats, accepted]
  | onRecv conn packet =>
      have kept : (serviceStep hasApp svc (.onRecv conn packet)).sessions = svc.sessions := by
        cases attached : svc.contexts conn <;> simp only [serviceStep, onRecv, attached] <;> rfl
      rw [kept]
      simp [Publishes, Unseats]
  | onConnectionDestroy conn =>
      rw [serviceStep, onDestroyed, LiveService.clearContext, (on_connection_destroy_sound svc conn sound).2 session user]
      simp only [Publishes, Unseats, reduceCtorEq, false_and, exists_false, false_or]
  | closeSession sessionName =>
      rw [serviceStep, (close_session_sound svc sessionName sound).2 session user]
      simp only [Publishes, Unseats, reduceCtorEq, false_and, exists_false, false_or, ne_eq]

theorem publisher_since (past : List ServiceEvent) (session user : Nat) :
    ((run (serviceStep hasApp) .fresh past).sessions session).publisher = some user ↔
      Since (serviceStep hasApp) .fresh (Publishes hasApp session user) (Unseats hasApp session) past := by
  refine since_iff (fun svc : LiveService => (svc.sessions session).publisher = some user) ?_ ?_ past
  · intro impossible
    cases impossible
  · intro before event
    exact publisher_step hasApp _ event (service_run_sound hasApp before) session user

theorem on_recv_adds (svc : LiveService) (conn session : Nat) (packet : Packet) :
    (onRecv svc conn packet).calls = svc.calls ++ [.addPacket session packet] ↔
      ∃ user, svc.contexts conn = some user ∧ (svc.users user).session = session := by
  cases attached : svc.contexts conn with
  | none => simp [onRecv, attached, LiveService.call]
  | some user => simp [onRecv, attached, LiveService.call]

theorem only_publisher_feeds_iff (events : List ServiceEvent) :
    (∀ past conn packet rest session, events = past ++ .onRecv conn packet :: rest →
      (onRecv (run (serviceStep hasApp) .fresh past) conn packet).calls =
        (run (serviceStep hasApp) .fresh past).calls ++ [.addPacket session packet] →
      ∃ user, (run (serviceStep hasApp) .fresh past).contexts conn = some user ∧
        ((run (serviceStep hasApp) .fresh past).sessions session).publisher = some user) ↔
    ∀ past conn packet rest user, events = past ++ .onRecv conn packet :: rest →
      (run (serviceStep hasApp) .fresh past).contexts conn = some user →
      ∃ session, Since (serviceStep hasApp) .fresh (Publishes hasApp session user) (Unseats hasApp session) past := by
  constructor
  · intro fed past conn packet rest user cut attached
    have added := (on_recv_adds _ conn _ packet).mpr ⟨user, attached, rfl⟩
    obtain ⟨feeder, same, publisher⟩ := fed past conn packet rest _ cut added
    cases attached.symm.trans same
    exact ⟨_, (publisher_since hasApp past _ user).mp publisher⟩
  · intro seated past conn packet rest session cut added
    obtain ⟨user, attached, home⟩ := (on_recv_adds _ conn session packet).mp added
    obtain ⟨published, since⟩ := seated past conn packet rest user cut attached
    have publisher := (publisher_since hasApp past published user).mpr since
    have member := ((service_run_sound hasApp past).publishers published user publisher).2.1
    refine ⟨user, attached, ?_⟩
    rw [← home, member]
    exact publisher

end

def everyApp (_ _ : Str) : Bool := true

theorem player_feeds_stream :
    ∃ events past conn packet rest session, events = past ++ .onRecv conn packet :: rest ∧
      (onRecv (run (serviceStep everyApp) .fresh past) conn packet).calls =
        (run (serviceStep everyApp) .fresh past).calls ++ [.addPacket session packet] ∧
      ¬ ∃ user, (run (serviceStep everyApp) .fresh past).contexts conn = some user ∧
        ((run (serviceStep everyApp) .fresh past).sessions session).publisher = some user := by
  refine ⟨[.onPlay 1 ['a', '/', 'b', '/', 'c'], .onRecv 1 { capacity := 0 }], [.onPlay 1 ['a', '/', 'b', '/', 'c']], 1,
    { capacity := 0 }, [], 0, rfl, by decide +kernel, ?_⟩
  rintro ⟨user, _, publisher⟩
  have nobody : ((run (serviceStep everyApp) .fresh [.onPlay 1 ['a', '/', 'b', '/', 'c']]).sessions 0).publisher =
      none := by decide +kernel
  cases nobody.symm.trans publisher

end Lssvc.Live
