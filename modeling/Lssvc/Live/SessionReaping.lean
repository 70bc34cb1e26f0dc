import Lssvc.Live.Publishing

set_option autoImplicit false

namespace Lssvc.Live

open Lssvc.Foundation Lssvc.Mmedia Lssvc.Utils

-- LIVE_TIMEOUT_SEC, which is in milliseconds.
def liveTimeoutSec : Int := 20 * 1000

-- The service, with stream_time_ of every stream and player_live_time_ of every
-- session.
structure TimedService where
  svc : LiveService := .fresh
  streamTime : Nat → Int := fun _ => 0
  playerLiveTime : Nat → Int := fun _ => 0

-- The constructors of a session and of its stream take the time.
def TimedService.afterOpening (t : TimedService) (next : LiveService) (now : Int) : TimedService :=
  if t.svc.nextSession < next.nextSession then
    { svc := next
      streamTime := Function.update t.streamTime t.svc.nextSession now
      playerLiveTime := Function.update t.playerLiveTime t.svc.nextSession now }
  else { t with svc := next }

-- The branch of closeUser that takes the time: no publisher, going by its type.
def closesAsPlayer (user : LiveUser) : Bool :=
  !user.destroyed && decide (UserType.kUserTypePlayerWebRTC.value < user.type.value)

inductive TimedEvent where
  | call (now : Int) (event : ServiceEvent)
  | onTimer (now : Int)

section

-- config->getAppInfo(domain, app) finds something, and stream_idle_time_ of what it
-- finds for a session.
variable (hasApp : Str → Str → Bool) (streamIdleTime : Str → Nat)

-- A session that clear() has run on is never asked for its times again.
def TimedService.call (t : TimedService) (now : Int) (event : ServiceEvent) : TimedService :=
  let next := serviceStep hasApp t.svc event
  match event with
  | .onPlay _ _ => t.afterOpening next now
  | .onPublish _ _ => t.afterOpening next now
  | .onRecv conn _ =>
      match t.svc.contexts conn with
      | none => { t with svc := next }
      | some user => { t with svc := next, streamTime := Function.update t.streamTime (t.svc.users user).session now }
  | .onConnectionDestroy conn =>
      match t.svc.contexts conn with
      | none => { t with svc := next }
      | some user =>
          if closesAsPlayer (t.svc.users user) then
            { t with
              svc := next
              playerLiveTime := Function.update t.playerLiveTime (t.svc.users user).session now }
          else { t with svc := next }
  | .closeSession _ => { t with svc := next }

def TimedService.isTimeout (t : TimedService) (now : Int) (session : Nat) : Bool :=
  if now - t.streamTime session > liveTimeoutSec then true
  else
    decide ((t.svc.sessions session).players = ∅) &&
      decide (now - t.playerLiveTime session > streamIdleTime (t.svc.sessions session).sessionName)

-- What sessions_ holds. An unordered_map promises no order; here it is that of the
-- numbers.
def openSessions (svc : LiveService) : List Nat :=
  (List.range svc.nextSession).filter fun session =>
    decide (svc.names (svc.sessions session).sessionName = some session)

def TimedService.reap (t : TimedService) (now : Int) (session : Nat) : TimedService :=
  if t.isTimeout streamIdleTime now session then
    { t with svc := closeSession t.svc (t.svc.sessions session).sessionName }
  else t

def TimedService.onTimer (t : TimedService) (now : Int) : TimedService :=
  (openSessions t.svc).foldl (fun t session => t.reap streamIdleTime now session) t

def timedStep (t : TimedService) : TimedEvent → TimedService
  | .call now event => t.call hasApp now event
  | .onTimer now => t.onTimer streamIdleTime now

def opensAt (session : Nat) (pair : TimedService × TimedEvent) : Option Int :=
  match pair.2 with
  | .call now event =>
      if pair.1.svc.nextSession = session ∧ session < (serviceStep hasApp pair.1.svc event).nextSession then some now
      else none
  | .onTimer _ => none

def feedsAt (session : Nat) (pair : TimedService × TimedEvent) : Option Int :=
  match pair.2 with
  | .call now (.onRecv conn _) =>
      if (pair.1.svc.contexts conn).map (fun user => (pair.1.svc.users user).session) = some session then some now
      else none
  | _ => opensAt hasApp session pair

def admitsPlayer (session : Nat) (pair : TimedService × TimedEvent) : Bool :=
  match pair.2 with
  | .call _ (.onPlay _ sessionName) => decide ((createSession hasApp pair.1.svc sessionName).2 = some session)
  | _ => false

theorem add_session_players (svc : LiveService) (sessionName : Str) (session : Nat) (sound : ServiceSound svc) :
    ((svc.addSession sessionName).sessions session).players = (svc.sessions session).players := by
  by_cases last : session = svc.nextSession
  · simp [LiveService.addSession, last, (sound.unused svc.nextSession (Nat.le_refl _)).2]
  · simp [LiveService.addSession, last]

structure Tables (svc next : LiveService) (came : Nat → Prop) : Prop where
  count : next.nextSession = svc.nextSession ∨ next.nextSession = svc.nextSession + 1
  names : ∀ name session, next.names name = some session →
    svc.names name = some session ∨ (session = svc.nextSession ∧ next.nextSession = svc.nextSession + 1)
  players : ∀ name session, next.names name = some session →
    ((next.sessions session).players = ∅ ↔ (svc.sessions session).players = ∅ ∧ ¬ came session)
  known : ∀ session, came session → session < next.nextSession

def Created (svc next : LiveService) (sessionName : Str) (session : Nat) : Prop :=
  (svc.names sessionName = some session ∧ next = svc) ∨
    (svc.names sessionName = none ∧ next = svc.addSession sessionName ∧ session = svc.nextSession)

theorem created_players (svc next : LiveService) (sessionName : Str) (session other : Nat) (sound : ServiceSound svc)
    (created : Created svc next sessionName session) :
    (next.sessions other).players = (svc.sessions other).players := by
  rcases created with ⟨_, rfl⟩ | ⟨_, rfl, _⟩
  · rfl
  · exact add_session_players svc sessionName other sound

theorem tables_created (svc next after : LiveService) (sessionName : Str) (session : Nat) (came : Nat → Prop)
    (sound : ServiceSound svc) (created : Created svc next sessionName session)
    (count : after.nextSession = next.nextSession) (names : after.names = next.names)
    (players : ∀ other, (after.sessions other).players = ∅ ↔ (next.sessions other).players = ∅ ∧ ¬ came other)
    (only : ∀ other, came other → other = session) : Tables svc after came where
  count := by
    rcases created with ⟨_, rfl⟩ | ⟨_, rfl, _⟩
    · exact .inl count
    · exact .inr count
  names := by
    intro name other found
    rw [names] at found
    rcases created with ⟨_, rfl⟩ | ⟨_, rfl, _⟩
    · exact .inl found
    · by_cases same : name = sessionName
      · simp only [LiveService.addSession, same, Function.update_self, Option.some.injEq] at found
        exact .inr ⟨found.symm, count⟩
      · simp only [LiveService.addSession, Function.update_of_ne same] at found
        exact .inl found
  players := by
    intro name other _
    rw [players other, created_players svc next sessionName session other sound created]
  known := by
    intro other here
    rw [only other here, count]
    rcases created with ⟨found, rfl⟩ | ⟨_, rfl, rfl⟩
    · exact (sound.names sessionName session found).1
    · exact Nat.lt_succ_self _

theorem tables_kept (svc next : LiveService) (count : next.nextSession = svc.nextSession)
    (kept : ∀ name session, next.names name = some session →
      svc.names name = some session ∧ (next.sessions session).players = (svc.sessions session).players) :
    Tables svc next fun _ => False where
  count := .inl count
  names := fun name session found => .inl (kept name session found).1
  players := by
    intro name session found
    simp [(kept name session found).2]
  known := fun _ impossible => impossible.elim

theorem create_session_found (svc next : LiveService) (sessionName : Str) (session : Nat)
    (result : createSession hasApp svc sessionName = (next, some session)) : Created svc next sessionName session := by
  rcases create_session_tables hasApp svc sessionName with refused | ⟨other, found, same⟩ | ⟨missing, added⟩
  · rw [refused] at result
    cases result
  · rw [same] at result
    cases result
    exact .inl ⟨found, rfl⟩
  · rw [added] at result
    cases result
    exact .inr ⟨missing, rfl, rfl⟩

theorem tables_on_play (svc : LiveService) (conn : Nat) (sessionName : Str) (sound : ServiceSound svc) :
    Tables svc (onPlay hasApp svc conn sessionName)
      fun session => (createSession hasApp svc sessionName).2 = some session := by
  rcases create_session_cases hasApp svc sessionName sound with refused | ⟨next, session, result, opened⟩
  · have same : onPlay hasApp svc conn sessionName = svc.call (.forceClose conn) := by simp only [onPlay, refused]
    have kept := tables_kept svc (svc.call (.forceClose conn)) rfl fun _ _ found => ⟨found, rfl⟩
    simpa [same, refused] using kept
  · have played : onPlay hasApp svc conn sessionName =
        (next.addUser session conn .kUserTypePlayerRtmp).store session
          (addPlayer ((next.addUser session conn .kUserTypePlayerRtmp).state session) next.nextUser) := by
      simp only [onPlay, result, createPlayerUser, create_user_opened svc next sessionName session conn _ opened]
      rw [set_context_again]
    rw [played, result]
    refine tables_created svc next _ sessionName session _ sound (create_session_found hasApp svc next _ _ result)
      (by rfl) (by rfl) ?_ ?_
    · intro other
      rw [store_players]
      by_cases same : other = session
      · simp [same, addPlayer, SessionState.call]
      · simp [same, Ne.symm same, LiveService.addUser, LiveService.setContext]
    · intro other here
      exact (Option.some.inj here).symm

theorem tables_on_publish (svc : LiveService) (conn : Nat) (sessionName : Str) (sound : ServiceSound svc) :
    Tables svc (onPublish hasApp svc conn sessionName) fun _ => False := by
  rcases create_session_cases hasApp svc sessionName sound with refused | ⟨next, session, result, opened⟩
  · have same : onPublish hasApp svc conn sessionName = svc.call (.forceClose conn) := by simp only [onPublish, refused]
    rw [same]
    exact tables_kept svc _ rfl fun _ _ found => ⟨found, rfl⟩
  · have published : onPublish hasApp svc conn sessionName =
        (next.addUser session conn .kUserTypePublishRtmp).store session
          (setPublisher ((next.addUser session conn .kUserTypePublishRtmp).state session) next.nextUser) := by
      simp only [onPublish, result, createPublisher, create_user_opened svc next sessionName session conn _ opened]
      rw [set_context_again]
    rw [published]
    refine tables_created svc next _ sessionName session _ sound (create_session_found hasApp svc next _ _ result)
      (by rfl) (by rfl) ?_ ?_
    · intro other
      rw [store_players, set_publisher_session]
      by_cases same : other = session
      · simp [same, LiveService.state, LiveService.addUser, LiveService.setContext]
      · simp [same, LiveService.addUser, LiveService.setContext]
    · exact fun _ impossible => impossible.elim

theorem tables_on_recv (svc : LiveService) (conn : Nat) (packet : Packet) :
    Tables svc (onRecv svc conn packet) fun _ => False := by
  rw [onRecv]
  split
  · exact tables_kept svc _ rfl fun _ _ found => ⟨found, rfl⟩
  · exact tables_kept svc _ rfl fun _ _ found => ⟨found, rfl⟩

theorem tables_on_destroyed (svc : LiveService) (conn : Nat) (sound : ServiceSound svc) :
    Tables svc (onDestroyed svc conn) fun _ => False := by
  rw [onDestroyed, onConnectionDestroy]
  cases attached : svc.contexts conn with
  | none => exact tables_kept svc (svc.clearContext conn) rfl fun _ _ found => ⟨found, rfl⟩
  | some user =>
      have rtmp : RtmpType ((svc.state (svc.users user).session).users user).type :=
        sound.types user (sound.contexts conn user attached)
      have players := (close_user_session (svc.state (svc.users user).session) user rtmp).1
      refine tables_kept svc ((svc.store _ (closeUser _ user)).clearContext conn) (by rfl) ?_
      intro name session found
      refine ⟨found, ?_⟩
      rw [LiveService.clearContext, store_players, players]
      by_cases same : session = (svc.users user).session
      · simp [same, LiveService.state]
      · simp [same]

theorem named_elsewhere (svc : LiveService) (sessionName name : Str) (session : Nat) (sound : ServiceSound svc)
    (other : name ≠ sessionName) (found : svc.names name = some session) : svc.names sessionName ≠ some session := by
  intro here
  exact other ((sound.names name session found).2.1.symm.trans (sound.names sessionName session here).2.1)

theorem tables_close_session (svc : LiveService) (sessionName : Str) (sound : ServiceSound svc) :
    Tables svc (closeSession svc sessionName) fun _ => False := by
  apply tables_kept svc _ (close_session_count svc sessionName)
  intro name session found
  rw [close_session_names] at found
  by_cases same : name = sessionName
  · simp [same] at found
  · rw [Function.update_of_ne same] at found
    have elsewhere := named_elsewhere svc sessionName name session sound same found
    exact ⟨found, congrArg LiveSession.players (close_session_elsewhere svc sessionName session elsewhere)⟩

theorem tables_call (t : TimedService) (now : Int) (event : ServiceEvent) (sound : ServiceSound t.svc) :
    Tables t.svc (serviceStep hasApp t.svc event) fun session => admitsPlayer hasApp session (t, .call now event) = true := by
  cases event with
  | onPlay conn sessionName => simpa [admitsPlayer, serviceStep] using tables_on_play hasApp t.svc conn sessionName sound
  | onPublish conn sessionName => simpa [admitsPlayer, serviceStep] using tables_on_publish hasApp t.svc conn sessionName sound
  | onRecv conn packet => simpa [admitsPlayer, serviceStep] using tables_on_recv t.svc conn packet
  | onConnectionDestroy conn => simpa [admitsPlayer, serviceStep] using tables_on_destroyed t.svc conn sound
  | closeSession sessionName => simpa [admitsPlayer, serviceStep] using tables_close_session t.svc sessionName sound

theorem call_svc (t : TimedService) (now : Int) (event : ServiceEvent) :
    (t.call hasApp now event).svc = serviceStep hasApp t.svc event := by
  cases event with
  | onPlay conn sessionName =>
      simp only [TimedService.call, TimedService.afterOpening]
      split <;> rfl
  | onPublish conn sessionName =>
      simp only [TimedService.call, TimedService.afterOpening]
      split <;> rfl
  | onRecv conn packet =>
      simp only [TimedService.call]
      split <;> rfl
  | onConnectionDestroy conn =>
      simp only [TimedService.call]
      split
      · rfl
      · split <;> rfl
  | closeSession sessionName => rfl

def Opens : ServiceEvent → Prop
  | .onPlay _ _ => True
  | .onPublish _ _ => True
  | _ => False

theorem count_kept (svc : LiveService) (event : ServiceEvent) (plain : ¬ Opens event) :
    (serviceStep hasApp svc event).nextSession = svc.nextSession := by
  cases event with
  | onPlay conn sessionName => exact absurd trivial plain
  | onPublish conn sessionName => exact absurd trivial plain
  | onRecv conn packet =>
      simp only [serviceStep, onRecv]
      split <;> rfl
  | onConnectionDestroy conn =>
      simp only [serviceStep, onDestroyed, onConnectionDestroy]
      split <;> rfl
  | closeSession sessionName => exact close_session_count svc sessionName

theorem plain_opens_nothing (t : TimedService) (now : Int) (event : ServiceEvent) (session : Nat)
    (plain : ¬ Opens event) : opensAt hasApp session (t, .call now event) = none := by
  simp only [opensAt, count_kept hasApp t.svc event plain]
  split
  · rename_i both
    omega
  · rfl

theorem after_opening_times (t : TimedService) (now : Int) (event : ServiceEvent) (session : Nat) :
    (t.afterOpening (serviceStep hasApp t.svc event) now).playerLiveTime session =
        (opensAt hasApp session (t, .call now event)).getD (t.playerLiveTime session) ∧
      (t.afterOpening (serviceStep hasApp t.svc event) now).streamTime session =
        (opensAt hasApp session (t, .call now event)).getD (t.streamTime session) := by
  simp only [TimedService.afterOpening, opensAt]
  by_cases more : t.svc.nextSession < (serviceStep hasApp t.svc event).nextSession
  · by_cases here : session = t.svc.nextSession
    · simp [more, here]
    · simp [more, here, Ne.symm here]
  · by_cases here : t.svc.nextSession = session
    · simp [here, here ▸ more]
    · simp [more, here]

theorem never_closes_as_player (svc : LiveService) (user : Nat) (sound : ServiceSound svc) (known : user < svc.nextUser) :
    closesAsPlayer (svc.users user) = false := by
  have low := known_type_low _ (rtmp_type_known _ (sound.types user known))
  simp [closesAsPlayer, Nat.not_lt.mpr low]

theorem call_player_live_time (t : TimedService) (now : Int) (event : ServiceEvent) (session : Nat)
    (sound : ServiceSound t.svc) :
    (t.call hasApp now event).playerLiveTime session =
      (opensAt hasApp session (t, .call now event)).getD (t.playerLiveTime session) := by
  cases event with
  | onPlay conn sessionName => exact (after_opening_times hasApp t now _ session).1
  | onPublish conn sessionName => exact (after_opening_times hasApp t now _ session).1
  | onRecv conn packet =>
      rw [plain_opens_nothing hasApp t now _ session id]
      simp only [TimedService.call]
      split <;> rfl
  | onConnectionDestroy conn =>
      rw [plain_opens_nothing hasApp t now _ session id]
      simp only [TimedService.call]
      cases attached : t.svc.contexts conn with
      | none => rfl
      | some user => simp [never_closes_as_player t.svc user sound (sound.contexts conn user attached)]
  | closeSession sessionName =>
      rw [plain_opens_nothing hasApp t now _ session id]
      rfl

theorem call_stream_time (t : TimedService) (now : Int) (event : ServiceEvent) (session : Nat) :
    (t.call hasApp now event).streamTime session =
      (feedsAt hasApp session (t, .call now event)).getD (t.streamTime session) := by
  cases event with
  | onPlay conn sessionName => exact (after_opening_times hasApp t now _ session).2
  | onPublish conn sessionName => exact (after_opening_times hasApp t now _ session).2
  | onRecv conn packet =>
      simp only [TimedService.call, feedsAt]
      cases attached : t.svc.contexts conn with
      | none => simp
      | some user =>
          by_cases here : session = (t.svc.users user).session
          · simp [here]
          · simp [here, Ne.symm here]
  | onConnectionDestroy conn =>
      simp only [feedsAt, plain_opens_nothing hasApp t now (.onConnectionDestroy conn) session id, TimedService.call]
      split
      · rfl
      · split <;> rfl
  | closeSession sessionName =>
      simp only [feedsAt, plain_opens_nothing hasApp t now (.closeSession sessionName) session id, TimedService.call]
      rfl

theorem opening_feeds (t : TimedService) (now time : Int) (event : ServiceEvent) (session : Nat)
    (opened : opensAt hasApp session (t, .call now event) = some time) :
    feedsAt hasApp session (t, .call now event) = some time := by
  cases event with
  | onRecv conn packet =>
      rw [plain_opens_nothing hasApp t now _ session id] at opened
      cases opened
  | _ => exact opened

theorem opens_at (t : TimedService) (now : Int) (event : ServiceEvent) (session : Nat) :
    opensAt hasApp session (t, .call now event) =
      if t.svc.nextSession = session ∧ session < (serviceStep hasApp t.svc event).nextSession then some now else none :=
  rfl

structure Reckoned (past : List (TimedService × TimedEvent)) (t : TimedService) : Prop where
  sound : ServiceSound t.svc
  opened : ∀ session, past.filterMap (opensAt hasApp session) =
    if session < t.svc.nextSession then [t.playerLiveTime session] else []
  fed : ∀ session, session < t.svc.nextSession →
    (past.filterMap (feedsAt hasApp session)).getLast? = some (t.streamTime session)
  came : ∀ name session, t.svc.names name = some session →
    ((t.svc.sessions session).players = ∅ ↔ ∀ pair ∈ past, admitsPlayer hasApp session pair = false)
  strangers : ∀ session, t.svc.nextSession ≤ session → ∀ pair ∈ past, admitsPlayer hasApp session pair = false

theorem reckoned_start : Reckoned hasApp [] {} where
  sound := fresh_service_sound
  opened := by simp [LiveService.fresh]
  fed := by simp [LiveService.fresh]
  came := by simp [LiveService.fresh]
  strangers := by simp

theorem reckoned_call (past : List (TimedService × TimedEvent)) (t : TimedService) (now : Int) (event : ServiceEvent)
    (reckoned : Reckoned hasApp past t) :
    Reckoned hasApp (past ++ [(t, .call now event)]) (t.call hasApp now event) := by
  have tables := tables_call hasApp t now event reckoned.sound
  have count := tables.count
  exact
    { sound := by
        rw [call_svc]
        exact service_step_sound hasApp t.svc event reckoned.sound
      opened := by
        intro session
        have before := reckoned.opened session
        rw [List.filterMap_append, before, call_svc, call_player_live_time hasApp t now event session reckoned.sound]
        by_cases old : session < t.svc.nextSession
        · have different : t.svc.nextSession ≠ session := Nat.ne_of_gt old
          have still : session < (serviceStep hasApp t.svc event).nextSession := by omega
          simp [opens_at, old, different, still]
        · by_cases here : t.svc.nextSession = session
          · by_cases more : session < (serviceStep hasApp t.svc event).nextSession
            · simp [opens_at, here, more]
            · simp [opens_at, here, more]
          · have later : ¬ session < (serviceStep hasApp t.svc event).nextSession := by omega
            simp [opens_at, old, here, later]
      fed := by
        intro session present
        rw [call_svc] at present
        rw [List.filterMap_append, call_stream_time]
        cases feeds : feedsAt hasApp session (t, .call now event) with
        | some time => simp [feeds]
        | none =>
            have old : session < t.svc.nextSession := by
              by_contra late
              have here : t.svc.nextSession = session := by omega
              have opens : opensAt hasApp session (t, .call now event) = some now := by simp [opens_at, here, present]
              rw [opening_feeds hasApp t now now event session opens] at feeds
              cases feeds
            simpa [feeds] using reckoned.fed session old
      came := by
        intro name session found
        rw [call_svc] at found ⊢
        rw [tables.players name session found]
        simp only [List.forall_mem_append, List.forall_mem_singleton, Bool.not_eq_true]
        rcases tables.names name session found with old | ⟨rfl, _⟩
        · rw [reckoned.came name session old]
        · simp only [(reckoned.sound.unused t.svc.nextSession (Nat.le_refl _)).2, true_and]
          exact ⟨fun none => ⟨reckoned.strangers _ (Nat.le_refl _), none⟩, And.right⟩
      strangers := by
        intro session later
        rw [call_svc] at later
        simp only [List.forall_mem_append, List.forall_mem_singleton]
        refine ⟨reckoned.strangers session (by omega), ?_⟩
        cases here : admitsPlayer hasApp session (t, .call now event) with
        | false => rfl
        | true => exact absurd (tables.known session here) (Nat.not_lt.mpr later) }

theorem no_lock_calls (s : SessionState) (user : Nat) (call : UserCall) (earlier : call ∈ s.calls) :
    call ∈ (closeUserNoLock s user).calls := by
  simp only [closeUserNoLock]
  split
  · exact earlier
  · split
    · split
      · exact List.mem_append_left _ earlier
      · exact earlier
    · exact List.mem_append_left _ earlier

theorem pass_calls (users : List Nat) (s : SessionState) (call : UserCall) (earlier : call ∈ s.calls) :
    call ∈ (users.foldl closeUserNoLock s).calls := by
  induction users generalizing s with
  | nil => exact earlier
  | cons user users ih => exact ih (closeUserNoLock s user) (no_lock_calls s user call earlier)

theorem clear_calls_publisher (s : SessionState) (user : Nat) (current : s.session.publisher = some user)
    (living : (s.users user).destroyed = false) (rtmp : RtmpType (s.users user).type) :
    .close user ∈ (clear s).calls := by
  have first : .close user ∈ (closeUserNoLock s user).calls := by
    rw [close_user_no_lock_rtmp s user rtmp]
    simp [living, current, SessionState.resetPublisher, SessionState.call]
  rw [clear, current]
  exact pass_calls _ _ _ first

structure Closed (svc next : LiveService) (session : Nat) : Prop where
  sound : ServiceSound next
  players : (next.sessions session).players = ∅
  publisher : (next.sessions session).publisher = none
  told : ∀ user, (svc.sessions session).publisher = some user → .user (.close user) ∈ next.calls
  calls : ∀ call ∈ svc.calls, call ∈ next.calls

theorem close_session_closed (svc : LiveService) (sessionName : Str) (session : Nat) (sound : ServiceSound svc)
    (found : svc.names sessionName = some session) : Closed svc (closeSession svc sessionName) session := by
  have members (user : Nat) (member : user ∈ (svc.sessions session).players) :
      RtmpType (svc.users user).type ∧ (svc.users user).session = session := by
    obtain ⟨known, home⟩ := sound.players session user member
    exact ⟨sound.types user known, home⟩
  have seated (user : Nat) (current : (svc.sessions session).publisher = some user) :
      RtmpType (svc.users user).type ∧ (svc.users user).session = session ∧ (svc.users user).destroyed = false := by
    obtain ⟨known, home, living⟩ := sound.publishers session user current
    exact ⟨sound.types user known, home, living⟩
  obtain ⟨_, nobody, empty⟩ := clear_cleared session (svc.state session) members seated
  have result : closeSession svc sessionName =
      { svc with names := Function.update svc.names sessionName none }.store session (clear (svc.state session)) := by
    simp only [closeSession, found]
    rfl
  exact
    { sound := (close_session_sound svc sessionName sound).1
      players := by simp [result, LiveService.store, empty]
      publisher := by simp [result, LiveService.store, nobody]
      told := by
        intro user current
        obtain ⟨rtmp, _, living⟩ := seated user current
        have told := clear_calls_publisher (svc.state session) user current living rtmp
        simp only [result, LiveService.store, List.mem_append, List.mem_map]
        exact .inr ⟨_, told, rfl⟩
      calls := by
        intro call earlier
        simp only [result, LiveService.store, List.mem_append]
        exact .inl earlier }

structure Reaped (t after : TimedService) (due : Nat → Prop) : Prop where
  sound : ServiceSound after.svc
  count : after.svc.nextSession = t.svc.nextSession
  streamTime : after.streamTime = t.streamTime
  playerLiveTime : after.playerLiveTime = t.playerLiveTime
  names : ∀ name session, after.svc.names name = some session ↔ t.svc.names name = some session ∧ ¬ due session
  kept : ∀ session, ¬ due session → after.svc.sessions session = t.svc.sessions session
  players : ∀ session, due session → (after.svc.sessions session).players = ∅
  publisher : ∀ session, due session → (after.svc.sessions session).publisher = none
  told : ∀ session, due session → ∀ user, (t.svc.sessions session).publisher = some user →
    .user (.close user) ∈ after.svc.calls
  calls : ∀ call ∈ t.svc.calls, call ∈ after.svc.calls

theorem reaped_nothing (t : TimedService) (sound : ServiceSound t.svc) (due : Nat → Prop) (none : ∀ session, ¬ due session) :
    Reaped t t due where
  sound := sound
  count := rfl
  streamTime := rfl
  playerLiveTime := rfl
  names := fun name session => by simp [none session]
  kept := fun _ _ => rfl
  players := fun session is => absurd is (none session)
  publisher := fun session is => absurd is (none session)
  told := fun session is => absurd is (none session)
  calls := fun _ earlier => earlier

theorem reaped_one (t : TimedService) (session : Nat) (sound : ServiceSound t.svc)
    (found : t.svc.names (t.svc.sessions session).sessionName = some session) :
    Reaped t { t with svc := closeSession t.svc (t.svc.sessions session).sessionName } (· = session) := by
  have closed := close_session_closed t.svc _ session sound found
  exact
    { sound := closed.sound
      count := close_session_count t.svc _
      streamTime := rfl
      playerLiveTime := rfl
      names := by
        intro name other
        rw [close_session_names]
        by_cases same : name = (t.svc.sessions session).sessionName
        · simp [same, found, eq_comm]
        · have different : t.svc.names name = some other → other ≠ session := by
            rintro here rfl
            exact named_elsewhere t.svc _ name other sound same here found
          simpa [same] using different
      kept := by
        intro other different
        apply close_session_elsewhere
        rw [found]
        simpa using Ne.symm different
      players := by
        rintro _ rfl
        exact closed.players
      publisher := by
        rintro _ rfl
        exact closed.publisher
      told := by
        rintro _ rfl
        exact closed.told
      calls := closed.calls }

theorem reaped_trans (t middle after : TimedService) (first second : Nat → Prop) (one : Reaped t middle first)
    (two : Reaped middle after second) (apart : ∀ session, second session → ¬ first session) :
    Reaped t after fun session => first session ∨ second session where
  sound := two.sound
  count := two.count.trans one.count
  streamTime := two.streamTime.trans one.streamTime
  playerLiveTime := two.playerLiveTime.trans one.playerLiveTime
  names := by
    intro name session
    rw [two.names, one.names]
    tauto
  kept := by
    intro session neither
    rw [not_or] at neither
    exact (two.kept session neither.2).trans (one.kept session neither.1)
  players := by
    rintro session (is | is)
    · by_cases again : second session
      · exact two.players session again
      · rw [two.kept session again]
        exact one.players session is
    · exact two.players session is
  publisher := by
    rintro session (is | is)
    · by_cases again : second session
      · exact two.publisher session again
      · rw [two.kept session again]
        exact one.publisher session is
    · exact two.publisher session is
  told := by
    rintro session (is | is) user current
    · exact two.calls _ (one.told session is user current)
    · apply two.told session is user
      rw [one.kept session (apart session is)]
      exact current
  calls := fun call earlier => two.calls call (one.calls call earlier)

theorem reaped_timeout (t after : TimedService) (due : Nat → Prop) (now : Int) (session : Nat)
    (reaped : Reaped t after due) (kept : ¬ due session) :
    after.isTimeout streamIdleTime now session = t.isTimeout streamIdleTime now session := by
  simp only [TimedService.isTimeout, reaped.streamTime, reaped.playerLiveTime, reaped.kept session kept]

theorem reap_reaped (t : TimedService) (now : Int) (session : Nat) (sound : ServiceSound t.svc)
    (found : t.svc.names (t.svc.sessions session).sessionName = some session) :
    Reaped t (t.reap streamIdleTime now session)
      fun other => other = session ∧ t.isTimeout streamIdleTime now session = true := by
  rw [TimedService.reap]
  split
  · rename_i timeout
    simpa [timeout] using reaped_one t session sound found
  · rename_i timeout
    apply reaped_nothing t sound
    simp [timeout]

theorem sweep_reaped (sessions : List Nat) (t : TimedService) (now : Int) (sound : ServiceSound t.svc)
    (found : ∀ session ∈ sessions, t.svc.names (t.svc.sessions session).sessionName = some session)
    (once : sessions.Nodup) :
    Reaped t (sessions.foldl (fun t session => t.reap streamIdleTime now session) t)
      fun session => session ∈ sessions ∧ t.isTimeout streamIdleTime now session = true := by
  induction sessions generalizing t with
  | nil => exact reaped_nothing t sound _ (by simp)
  | cons session sessions ih =>
      rw [List.forall_mem_cons] at found
      rw [List.nodup_cons] at once
      have first := reap_reaped streamIdleTime t now session sound found.1
      have others (other : Nat) (inside : other ∈ sessions) :
          ¬ (other = session ∧ t.isTimeout streamIdleTime now session = true) := by
        rintro ⟨rfl, _⟩
        exact once.1 inside
      have rest := ih (t.reap streamIdleTime now session) first.sound (by
        intro other inside
        rw [first.kept other (others other inside), first.names]
        exact ⟨found.2 other inside, others other inside⟩) once.2
      have both := reaped_trans t _ _ _ _ first rest (fun other is => others other is.1)
      have same : (fun other => (other = session ∧ t.isTimeout streamIdleTime now session = true) ∨
          (other ∈ sessions ∧ (t.reap streamIdleTime now session).isTimeout streamIdleTime now other = true)) =
          fun other => other ∈ session :: sessions ∧ t.isTimeout streamIdleTime now other = true := by
        funext other
        by_cases inside : other ∈ sessions
        · have different : other ≠ session := fun equal => once.1 (equal ▸ inside)
          simp [inside, different, reaped_timeout streamIdleTime t _ _ now other first (others other inside)]
        · by_cases here : other = session
          · simp [here, once.1]
          · simp [inside, here]
      rwa [same] at both

theorem open_session_named (t : TimedService) (session : Nat) (inside : session ∈ openSessions t.svc) :
    t.svc.names (t.svc.sessions session).sessionName = some session := by
  simpa using (List.mem_filter.mp inside).2

theorem on_timer_reaped (t : TimedService) (now : Int) (sound : ServiceSound t.svc) :
    Reaped t (t.onTimer streamIdleTime now)
      fun session => session ∈ openSessions t.svc ∧ t.isTimeout streamIdleTime now session = true :=
  sweep_reaped streamIdleTime _ t now sound (open_session_named t) (List.nodup_range.filter _)

theorem reckoned_timer (past : List (TimedService × TimedEvent)) (t : TimedService) (now : Int)
    (reckoned : Reckoned hasApp past t) :
    Reckoned hasApp (past ++ [(t, .onTimer now)]) (t.onTimer streamIdleTime now) := by
  have reaped := on_timer_reaped streamIdleTime t now reckoned.sound
  exact
    { sound := reaped.sound
      opened := by
        intro session
        rw [reaped.count, reaped.playerLiveTime, List.filterMap_append, reckoned.opened session]
        simp [opensAt]
      fed := by
        intro session present
        rw [reaped.count] at present
        rw [reaped.streamTime, List.filterMap_append]
        simpa [feedsAt, opensAt] using reckoned.fed session present
      came := by
        intro name session found
        obtain ⟨before, spared⟩ := (reaped.names name session).mp found
        rw [reaped.kept session spared, reckoned.came name session before]
        simp [or_imp, forall_and, admitsPlayer]
      strangers := by
        intro session later
        rw [reaped.count] at later
        simpa [or_imp, forall_and, admitsPlayer] using reckoned.strangers session later }

theorem reckoned_run (events : List TimedEvent) :
    Reckoned hasApp (met (timedStep hasApp streamIdleTime) {} events) (run (timedStep hasApp streamIdleTime) {} events) := by
  induction events using List.reverseRecOn with
  | nil => exact reckoned_start hasApp
  | append_singleton events event ih =>
      rw [met_append, run_snoc]
      cases event with
      | call now event => exact reckoned_call hasApp _ _ now event ih
      | onTimer now => exact reckoned_timer hasApp streamIdleTime _ _ now ih

-- What the past says of the timeout: nothing came for 20 seconds, or no player
-- ever came, for stream_idle_time_ from the opening on.
def Due (past : List (TimedService × TimedEvent)) (now : Int) (name : Str) (session : Nat) : Prop :=
  (∃ fed, (past.filterMap (feedsAt hasApp session)).getLast? = some fed ∧ fed + liveTimeoutSec < now) ∨
    ∃ opened, past.filterMap (opensAt hasApp session) = [opened] ∧ opened + streamIdleTime name < now ∧
      ∀ pair ∈ past, admitsPlayer hasApp session pair = false

theorem timeout_due (past : List (TimedService × TimedEvent)) (t : TimedService) (now : Int) (name : Str)
    (session : Nat) (reckoned : Reckoned hasApp past t) (found : t.svc.names name = some session) :
    t.isTimeout streamIdleTime now session = true ↔ Due hasApp streamIdleTime past now name session := by
  obtain ⟨present, named, _⟩ := reckoned.sound.names name session found
  have opened := reckoned.opened session
  rw [if_pos present] at opened
  have fed := reckoned.fed session present
  have nobody := reckoned.came name session found
  have quiet : t.streamTime session + liveTimeoutSec < now ↔ liveTimeoutSec < now - t.streamTime session := by omega
  have idle : t.playerLiveTime session + (streamIdleTime name : Int) < now ↔
      (streamIdleTime name : Int) < now - t.playerLiveTime session := by omega
  simp only [Due, opened, fed, Option.some.injEq, exists_eq_left', List.cons.injEq, and_true, ← nobody, quiet, idle,
    TimedService.isTimeout, named]
  split <;> simp_all [and_comm]

theorem sessions_reaped_iff (events : List TimedEvent) (now : Int) (name : Str) (session : Nat)
    (found : (run (timedStep hasApp streamIdleTime) {} events).svc.names name = some session) :
    (((run (timedStep hasApp streamIdleTime) {} events).onTimer streamIdleTime now).svc.names name = none ↔
        Due hasApp streamIdleTime (met (timedStep hasApp streamIdleTime) {} events) now name session) ∧
      (¬ Due hasApp streamIdleTime (met (timedStep hasApp streamIdleTime) {} events) now name session →
        ((run (timedStep hasApp streamIdleTime) {} events).onTimer streamIdleTime now).svc.names name = some session ∧
          ((run (timedStep hasApp streamIdleTime) {} events).onTimer streamIdleTime now).svc.sessions session =
            (run (timedStep hasApp streamIdleTime) {} events).svc.sessions session) ∧
      (Due hasApp streamIdleTime (met (timedStep hasApp streamIdleTime) {} events) now name session →
        (((run (timedStep hasApp streamIdleTime) {} events).onTimer streamIdleTime now).svc.sessions session).players =
            ∅ ∧
          (((run (timedStep hasApp streamIdleTime) {} events).onTimer streamIdleTime now).svc.sessions
            session).publisher = none ∧
          ∀ user, ((run (timedStep hasApp streamIdleTime) {} events).svc.sessions session).publisher = some user →
            .user (.close user) ∈
              ((run (timedStep hasApp streamIdleTime) {} events).onTimer streamIdleTime now).svc.calls) := by
  have reckoned := reckoned_run hasApp streamIdleTime events
  generalize run (timedStep hasApp streamIdleTime) {} events = t at found reckoned
  generalize met (timedStep hasApp streamIdleTime) {} events = past at reckoned
  have reaped := on_timer_reaped streamIdleTime t now reckoned.sound
  obtain ⟨present, named, _⟩ := reckoned.sound.names name session found
  have inside : session ∈ openSessions t.svc := by
    simp [openSessions, present, named, found]
  rw [← timeout_due hasApp streamIdleTime past t now name session reckoned found]
  refine ⟨?_, ?_, ?_⟩
  · rw [Option.eq_none_iff_forall_ne_some]
    constructor
    · intro gone
      by_contra spared
      exact gone session ((reaped.names name session).mpr ⟨found, fun due => spared due.2⟩)
    · intro timeout other still
      obtain ⟨before, spared⟩ := (reaped.names name other).mp still
      cases found.symm.trans before
      exact spared ⟨inside, timeout⟩
  · intro early
    have spared : ¬ (session ∈ openSessions t.svc ∧ t.isTimeout streamIdleTime now session = true) :=
      fun due => early due.2
    exact ⟨(reaped.names name session).mpr ⟨found, spared⟩, reaped.kept session spared⟩
  · intro timeout
    have due := And.intro inside timeout
    exact ⟨reaped.players session due, reaped.publisher session due, reaped.told session due⟩

end

-- A publisher that nobody watches in its first half minute is closed, though its
-- last packet is half a second old.
def unwatched : List TimedEvent :=
  [.call 0 (.onPublish 1 ['a', '/', 'b', '/', 'c']), .call 30500 (.onRecv 1 { capacity := 0 })]

def halfMinuteIdle (_ : Str) : Nat := 30 * 1000

theorem sessions_reaped_unwatched :
    ((run (timedStep everyApp halfMinuteIdle) {} unwatched).onTimer halfMinuteIdle 31000).svc.names
        ['a', '/', 'b', '/', 'c'] = none ∧
      .user (.close 0) ∈ ((run (timedStep everyApp halfMinuteIdle) {} unwatched).onTimer halfMinuteIdle 31000).svc.calls := by
  have due : Due everyApp halfMinuteIdle (met (timedStep everyApp halfMinuteIdle) {} unwatched) 31000
      ['a', '/', 'b', '/', 'c'] 0 := .inr ⟨0, by decide +kernel, by decide, by decide +kernel⟩
  obtain ⟨gone, _, closed⟩ := sessions_reaped_iff everyApp halfMinuteIdle unwatched 31000 ['a', '/', 'b', '/', 'c'] 0
    (by decide +kernel)
  exact ⟨gone.mpr due, (closed due).2.2 0 (by decide +kernel)⟩

end Lssvc.Live
