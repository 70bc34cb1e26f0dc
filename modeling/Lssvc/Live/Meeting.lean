import Lssvc.Live.Publishing
import Lssvc.Mmedia.SessionName

set_option autoImplicit false

namespace Lssvc.Live

open Lssvc.Foundation Lssvc.Mmedia Lssvc.Utils

section

variable (hasApp : Str → Str → Bool)

def join (svc : LiveService) (isPlayer : Bool) (conn : Nat) (sessionName : Str) : LiveService :=
  if isPlayer then onPlay hasApp svc conn sessionName else onPublish hasApp svc conn sessionName

structure InSession (svc : LiveService) (session user : Nat) (isPlayer : Bool) : Prop where
  home : (svc.users user).session = session
  listed : if isPlayer then user ∈ (svc.sessions session).players else (svc.sessions session).publisher = some user

def Joined (svc : LiveService) (isPlayer : Bool) (conn : Nat) (sessionName : Str) : Prop :=
  (join hasApp svc isPlayer conn sessionName).contexts conn = some svc.nextUser

theorem created_named (svc next : LiveService) (sessionName : Str) (session : Nat)
    (created : createSession hasApp svc sessionName = (next, some session)) : next.names sessionName = some session := by
  rw [createSession] at created
  cases found : svc.names sessionName with
  | some known =>
      rw [found] at created
      cases created
      exact found
  | none =>
      rw [found] at created
      dsimp only at created
      split at created
      · split at created
        · cases created
          exact Function.update_self _ _ _
        · cases created
      · cases created

theorem join_cases (svc : LiveService) (isPlayer : Bool) (conn : Nat) (sessionName : Str) (sound : ServiceSound svc) :
    ((createSession hasApp svc sessionName).2 = none ∧
      join hasApp svc isPlayer conn sessionName = svc.call (.forceClose conn)) ∨
      ∃ next session type s, createSession hasApp svc sessionName = (next, some session) ∧
        Opened svc next sessionName session ∧ Local session ((next.addUser session conn type).state session) s ∧
        (if isPlayer then next.nextUser ∈ s.session.players else s.session.publisher = some next.nextUser) ∧
        join hasApp svc isPlayer conn sessionName = (next.addUser session conn type).store session s := by
  rcases create_session_cases hasApp svc sessionName sound with refused | ⟨next, session, created, opened⟩
  · refine .inl ⟨by rw [refused], ?_⟩
    cases isPlayer <;> simp only [join, onPlay, onPublish, refused, if_true, if_false, Bool.false_eq_true]
  · right
    cases isPlayer with
    | true =>
        refine ⟨next, session, .kUserTypePlayerRtmp, _, created, opened, local_add_player session _ next.nextUser,
          Finset.mem_insert_self _ _, ?_⟩
        simp only [join, onPlay, created, createPlayerUser, create_user_opened svc next sessionName session conn _ opened,
          set_context_again, if_true]
    | false =>
        have added := add_user_sound next session conn .kUserTypePublishRtmp opened.sound opened.inside (.inl rfl)
        have unchanged := local_set_publisher session ((next.addUser session conn .kUserTypePublishRtmp).state session)
          next.nextUser fun old current => (added.publishers session old current).2.1
        refine ⟨next, session, .kUserTypePublishRtmp, _, created, opened, unchanged,
          congrArg LiveSession.publisher (set_publisher_session _ next.nextUser), ?_⟩
        simp only [join, onPublish, created, createPublisher, create_user_opened svc next sessionName session conn _ opened,
          set_context_again, if_false, Bool.false_eq_true]

theorem join_keeps_sound (svc : LiveService) (isPlayer : Bool) (conn : Nat) (sessionName : Str) (sound : ServiceSound svc) :
    ServiceSound (join hasApp svc isPlayer conn sessionName) := by
  cases isPlayer with
  | true => exact (on_play_sound hasApp svc conn sessionName sound).1
  | false => exact (on_publish_sound hasApp svc conn sessionName sound).1

theorem joined_session (svc : LiveService) (isPlayer : Bool) (conn : Nat) (sessionName : Str) (sound : ServiceSound svc)
    (joined : Joined hasApp svc isPlayer conn sessionName) :
    let after := join hasApp svc isPlayer conn sessionName
    ∃ next session, createSession hasApp svc sessionName = (next, some session) ∧
      after.names sessionName = some session ∧ InSession after session svc.nextUser isPlayer := by
  rcases join_cases hasApp svc isPlayer conn sessionName sound with ⟨_, refused⟩ |
    ⟨next, session, type, s, created, opened, ⟨_, home, _, _⟩, listed, accepted⟩
  · rw [Joined, refused] at joined
    exact absurd (sound.contexts conn svc.nextUser joined) (Nat.lt_irrefl _)
  · rw [accepted]
    have stored : ((next.addUser session conn type).store session s).sessions session = s.session := Function.update_self _ _ _
    refine ⟨next, session, created, created_named hasApp svc next sessionName session created, ?_, ?_⟩
    · have new := new_user svc next session conn type opened.nextUser
      exact (home svc.nextUser).trans (congrArg LiveUser.session new)
    · rw [stored, ← opened.nextUser]
      exact listed

theorem created_joined (svc : LiveService) (isPlayer : Bool) (conn : Nat) (sessionName : Str) (sound : ServiceSound svc)
    (created : (createSession hasApp svc sessionName).2 ≠ none) : Joined hasApp svc isPlayer conn sessionName := by
  rcases join_cases hasApp svc isPlayer conn sessionName sound with ⟨none, _⟩ |
    ⟨next, session, type, s, _, opened, _, _, accepted⟩
  · exact absurd none created
  · rw [Joined, accepted, ← opened.nextUser]
    exact Function.update_self _ _ _

theorem created_session_iff (svc next : LiveService) (sessionName : Str) (session other : Nat)
    (inside : session < svc.nextSession) (created : createSession hasApp svc sessionName = (next, some other)) :
    session = other ↔ svc.names sessionName = some session := by
  rcases create_session_tables hasApp svc sessionName with refused | ⟨known, found, same⟩ | ⟨unknown, new⟩
  · cases refused.symm.trans created
  · cases same.symm.trans created
    rw [found, Option.some_inj, eq_comm]
  · cases new.symm.trans created
    rw [unknown]
    exact ⟨fun same => absurd same (Nat.ne_of_lt inside), fun impossible => by cases impossible⟩

theorem create_session_names (svc : LiveService) (sessionName name : Str) (session : Nat) (inside : session < svc.nextSession) :
    ((createSession hasApp svc sessionName).1.names name = some session ↔ svc.names name = some session) ∧
      svc.nextSession ≤ (createSession hasApp svc sessionName).1.nextSession := by
  rcases create_session_tables hasApp svc sessionName with refused | ⟨known, found, same⟩ | ⟨unknown, new⟩
  · rw [refused]
    exact ⟨Iff.rfl, Nat.le_refl _⟩
  · rw [same]
    exact ⟨Iff.rfl, Nat.le_refl _⟩
  · rw [new]
    refine ⟨?_, Nat.le_succ _⟩
    change Function.update svc.names sessionName (some svc.nextSession) name = some session ↔ _
    by_cases here : name = sessionName
    · subst here
      rw [Function.update_self, unknown, Option.some_inj]
      exact ⟨fun same => absurd same (Nat.ne_of_gt inside), fun impossible => by cases impossible⟩
    · rw [Function.update_of_ne here]

theorem join_names (svc : LiveService) (isPlayer : Bool) (conn : Nat) (sessionName name : Str) (session : Nat)
    (sound : ServiceSound svc) (inside : session < svc.nextSession) :
    ((join hasApp svc isPlayer conn sessionName).names name = some session ↔ svc.names name = some session) ∧
      svc.nextSession ≤ (join hasApp svc isPlayer conn sessionName).nextSession := by
  rcases join_cases hasApp svc isPlayer conn sessionName sound with ⟨_, refused⟩ |
    ⟨next, other, type, s, created, _, _, _, accepted⟩
  · rw [refused]
    exact ⟨Iff.rfl, Nat.le_refl _⟩
  · have names := create_session_names hasApp svc sessionName name session inside
    rw [created] at names
    rw [accepted]
    exact names

-- Only closeSession takes a name away, and no later session gets the same number.
theorem step_names (svc : LiveService) (event : ServiceEvent) (name : Str) (session : Nat) (sound : ServiceSound svc)
    (inside : session < svc.nextSession) :
    ((serviceStep hasApp svc event).names name = some session ↔
        svc.names name = some session ∧ event ≠ .closeSession name) ∧
      svc.nextSession ≤ (serviceStep hasApp svc event).nextSession := by
  cases event with
  | onPlay conn sessionName =>
      have kept := join_names hasApp svc true conn sessionName name session sound inside
      rw [join, if_pos rfl] at kept
      rw [serviceStep]
      exact ⟨by simpa using kept.1, kept.2⟩
  | onPublish conn sessionName =>
      have kept := join_names hasApp svc false conn sessionName name session sound inside
      rw [join, if_neg Bool.false_ne_true] at kept
      rw [serviceStep]
      exact ⟨by simpa using kept.1, kept.2⟩
  | onRecv conn packet =>
      have same : ∃ call, serviceStep hasApp svc (.onRecv conn packet) = svc.call call := by
        cases named : svc.contexts conn <;> simp only [serviceStep, onRecv, named] <;> exact ⟨_, rfl⟩
      obtain ⟨call, called⟩ := same
      rw [called]
      exact ⟨by simp [LiveService.call], Nat.le_refl _⟩
  | onConnectionDestroy conn =>
      have same : (serviceStep hasApp svc (.onConnectionDestroy conn)).names = svc.names ∧
          (serviceStep hasApp svc (.onConnectionDestroy conn)).nextSession = svc.nextSession := by
        cases named : svc.contexts conn <;> simp only [serviceStep, onDestroyed, onConnectionDestroy, named] <;> exact ⟨rfl, rfl⟩
      rw [same.1, same.2]
      exact ⟨by simp, Nat.le_refl _⟩
  | closeSession sessionName =>
      rw [serviceStep, close_session_names, close_session_count]
      refine ⟨?_, Nat.le_refl _⟩
      by_cases here : name = sessionName
      · simp [here]
      · simp [here, Ne.symm here]

theorem run_names (svc : LiveService) (between : List ServiceEvent) (name : Str) (session : Nat) (sound : ServiceSound svc)
    (inside : session < svc.nextSession) :
    ((run (serviceStep hasApp) svc between).names name = some session ↔
        svc.names name = some session ∧ .closeSession name ∉ between) ∧
      svc.nextSession ≤ (run (serviceStep hasApp) svc between).nextSession := by
  induction between generalizing svc with
  | nil => exact ⟨by simp [run], Nat.le_refl _⟩
  | cons event between ih =>
      obtain ⟨now, grows⟩ := step_names hasApp svc event name session sound inside
      obtain ⟨later, growsLater⟩ := ih (serviceStep hasApp svc event) (service_step_sound hasApp svc event sound)
        (Nat.lt_of_lt_of_le inside grows)
      refine ⟨?_, Nat.le_trans grows growsLater⟩
      change (run (serviceStep hasApp) (serviceStep hasApp svc event) between).names name = some session ↔ _
      rw [later, now, List.mem_cons, not_or, and_assoc, ne_comm]

theorem step_player_stays (svc : LiveService) (event : ServiceEvent) (name : Str) (session user : Nat)
    (sound : ServiceSound svc) (named : svc.names name = some session) (open' : event ≠ .closeSession name)
    (listed : user ∈ (svc.sessions session).players) : user ∈ ((serviceStep hasApp svc event).sessions session).players := by
  cases event with
  | onPlay conn sessionName =>
      rcases on_play_cases hasApp svc conn sessionName sound with ⟨_, refused⟩ | ⟨next, other, _, opened, played⟩
      · rw [serviceStep, refused]
        exact listed
      · rw [serviceStep, played, store_players]
        rw [← opened.players session] at listed
        split
        · rename_i same
          rw [same] at listed
          exact Finset.mem_insert_of_mem listed
        · exact listed
  | onPublish conn sessionName =>
      rcases on_publish_cases hasApp svc conn sessionName sound with ⟨_, refused⟩ | ⟨next, other, _, opened, published⟩
      · rw [serviceStep, refused]
        exact listed
      · rw [serviceStep, published, store_players, set_publisher_session]
        rw [← opened.players session] at listed
        split
        · rename_i same
          rw [same] at listed
          exact listed
        · exact listed
  | onRecv conn packet =>
      cases attached : svc.contexts conn <;> simp only [serviceStep, onRecv, attached] <;> exact listed
  | onConnectionDestroy conn =>
      rw [serviceStep, onDestroyed, onConnectionDestroy]
      cases attached : svc.contexts conn with
      | none => exact listed
      | some other =>
          have rtmp : RtmpType ((svc.state (svc.users other).session).users other).type :=
            sound.types other (sound.contexts conn other attached)
          have players := (close_user_session (svc.state (svc.users other).session) other rtmp).1
          rw [LiveService.clearContext, store_players, players]
          split
          · rename_i same
            rw [same] at listed
            exact listed
          · exact listed
  | closeSession sessionName =>
      have elsewhere : svc.names sessionName ≠ some session := fun here => open' (by
        rw [← (sound.names sessionName session here).2.1, ← (sound.names name session named).2.1])
      rw [serviceStep, close_session_elsewhere svc sessionName session elsewhere]
      exact listed

theorem run_player_stays (svc : LiveService) (between : List ServiceEvent) (name : Str) (session user : Nat)
    (sound : ServiceSound svc) (named : svc.names name = some session) (open' : .closeSession name ∉ between)
    (listed : user ∈ (svc.sessions session).players) :
    user ∈ ((run (serviceStep hasApp) svc between).sessions session).players := by
  induction between generalizing svc with
  | nil => exact listed
  | cons event between ih =>
      rw [List.mem_cons, not_or] at open'
      have different : event ≠ .closeSession name := fun same => open'.1 same.symm
      have inside := (sound.names name session named).1
      exact ih _ (service_step_sound hasApp svc event sound)
        ((step_names hasApp svc event name session sound inside).1.mpr ⟨named, different⟩) open'.2
        (step_player_stays hasApp svc event name session user sound named different listed)

theorem join_event (svc : LiveService) (isPlayer : Bool) (conn : Nat) (sessionName : Str) :
    ∃ event, (∀ name, event ≠ .closeSession name) ∧
      join hasApp svc isPlayer conn sessionName = serviceStep hasApp svc event := by
  cases isPlayer with
  | true => exact ⟨.onPlay conn sessionName, nofun, rfl⟩
  | false => exact ⟨.onPublish conn sessionName, nofun, rfl⟩

def Meeting (after last : LiveService) (isPlayer isPlayer' : Bool) (user user' : Nat) (meets stays : Prop) : Prop :=
  ∃ session session', InSession after session user isPlayer ∧ InSession last session' user' isPlayer' ∧
    (session = session' ↔ meets ∧ stays) ∧ (isPlayer = true → stays → user ∈ (last.sessions session).players)

theorem meeting_holds (svc : LiveService) (sound : ServiceSound svc) (isPlayer isPlayer' : Bool) (conn conn' : Nat)
    (name name' : Str) (between : List ServiceEvent) (joined : Joined hasApp svc isPlayer conn name)
    (joined' : Joined hasApp (run (serviceStep hasApp) (join hasApp svc isPlayer conn name) between) isPlayer' conn' name') :
    let later := run (serviceStep hasApp) (join hasApp svc isPlayer conn name) between
    Meeting (join hasApp svc isPlayer conn name) (join hasApp later isPlayer' conn' name') isPlayer isPlayer' svc.nextUser
      later.nextUser (name = name') (.closeSession name ∉ between) := by
  obtain ⟨_, session, _, known, first⟩ := joined_session hasApp svc isPlayer conn name sound joined
  have soundAfter := join_keeps_sound hasApp svc isPlayer conn name sound
  have inside := (soundAfter.names name session known).1
  have soundLater : ServiceSound (run (serviceStep hasApp) (join hasApp svc isPlayer conn name) between) :=
    run_invariant (service_step_sound hasApp) _ soundAfter between
  obtain ⟨next, session', created, _, second⟩ :=
    joined_session hasApp _ isPlayer' conn' name' soundLater joined'
  obtain ⟨names, grows⟩ := run_names hasApp _ between name' session soundAfter inside
  have same := created_session_iff hasApp _ next name' session session' (Nat.lt_of_lt_of_le inside grows) created
  refine ⟨session, session', first, second, ?_, ?_⟩
  · rw [same, names]
    constructor
    · rintro ⟨known', open'⟩
      obtain rfl : name = name' :=
        (soundAfter.names name session known).2.1.symm.trans (soundAfter.names name' session known').2.1
      exact ⟨rfl, open'⟩
    · rintro ⟨rfl, open'⟩
      exact ⟨known, open'⟩
  · rintro rfl open'
    obtain ⟨event, plain, joins⟩ := join_event hasApp (run (serviceStep hasApp) (join hasApp svc true conn name) between)
      isPlayer' conn' name'
    have named := (run_names hasApp _ between name session soundAfter inside).1.mpr ⟨known, open'⟩
    rw [joins]
    exact step_player_stays hasApp _ event name session svc.nextUser soundLater named (plain name)
      (run_player_stays hasApp _ between name session svc.nextUser soundAfter known open' first.listed)

end

theorem server_session_named (visit other : Visit) (before before' : RtmpNaming) :
    let ctx := visit.commands.foldl RtmpNaming.handle before
    let ctx' := other.commands.foldl RtmpNaming.handle before'
    ctx.sessionName = visit.url.sessionName ∧ ctx.param = chars (visit.url.query.getD []) ∧
      split ctx.sessionName ['/'] false = [chars visit.url.host, chars visit.url.app, chars visit.url.stream] ∧
      ∀ (hasApp : Str → Str → Bool) (events between : List ServiceEvent) (conn conn' : Nat),
        let svc := run (serviceStep hasApp) .fresh events
        let after := join hasApp svc ctx.isPlayer conn ctx.sessionName
        let later := run (serviceStep hasApp) after between
        let last := join hasApp later ctx'.isPlayer conn' ctx'.sessionName
        Joined hasApp svc ctx.isPlayer conn ctx.sessionName →
          Joined hasApp later ctx'.isPlayer conn' ctx'.sessionName →
            Meeting after last ctx.isPlayer ctx'.isPlayer svc.nextUser later.nextUser (visit.url.SameStream other.url)
              (.closeSession ctx.sessionName ∉ between) := by
  obtain ⟨named, param, _⟩ := visit_named visit before
  obtain ⟨named', _, _⟩ := visit_named other before'
  refine ⟨named, param, ?_, fun hasApp events between conn conn' joined joined' => ?_⟩
  · rw [named]
    exact split_session_name visit.url
  · have sound := service_run_sound hasApp events
    have same : (visit.commands.foldl RtmpNaming.handle before).sessionName =
        (other.commands.foldl RtmpNaming.handle before').sessionName ↔ visit.url.SameStream other.url := by
      rw [named, named']
      exact session_names_same_iff visit.url other.url
    rw [← propext same]
    exact meeting_holds hasApp _ sound _ _ conn conn' _ _ between joined joined'

theorem every_app_created (svc : LiveService) (url : StreamUrl) :
    (createSession everyApp svc url.sessionName).2 ≠ none := by
  rw [createSession, split_session_name]
  cases svc.names url.sessionName with
  | some session => exact Option.some_ne_none session
  | none => exact Option.some_ne_none svc.nextSession

def demoUrl (port query : Option Bytes) (portValid : ∀ p ∈ port, slash ∉ p) : StreamUrl where
  host := text "localhost"
  port := port
  app := text "ucloud"
  segment := none
  stream := text "test"
  query := query
  hostValid := by decide
  portValid := portValid
  appValid := by decide
  segmentValid := fun _ impossible => by cases impossible
  streamValid := by decide

def demoVisit (isPlayer : Bool) (url : StreamUrl) : Visit where
  url := url
  app := none
  objectEncoding := none
  between := []
  connectedOnce := fun _ impossible => absurd impossible List.not_mem_nil
  isPlayer := isPlayer
  tranId := []

theorem publisher_meets_player :
    let publisher := demoVisit false (demoUrl none none fun _ impossible => by cases impossible)
    let player := demoVisit true (demoUrl (some (text "1935")) (some (text "x")) (by decide))
    let ctx := publisher.commands.foldl RtmpNaming.handle {}
    let ctx' := player.commands.foldl RtmpNaming.handle {}
    let after := join everyApp .fresh ctx.isPlayer 1 ctx.sessionName
    let later := run (serviceStep everyApp) after [.onRecv 1 (newPacket 1)]
    let last := join everyApp later ctx'.isPlayer 2 ctx'.sessionName
    ∃ session, InSession after session 0 false ∧ InSession last session later.nextUser true := by
  intro publisher player ctx ctx' after later last
  obtain ⟨named, _, _, meets⟩ := server_session_named publisher player {} {}
  obtain ⟨named', _, _, _⟩ := server_session_named player publisher {} {}
  have joined : Joined everyApp .fresh ctx.isPlayer 1 ctx.sessionName := by
    refine created_joined everyApp .fresh ctx.isPlayer 1 ctx.sessionName fresh_service_sound ?_
    rw [show ctx.sessionName = publisher.url.sessionName from named]
    exact every_app_created .fresh publisher.url
  have sound : ServiceSound later :=
    run_invariant (service_step_sound everyApp) _
      (join_keeps_sound everyApp .fresh ctx.isPlayer 1 ctx.sessionName fresh_service_sound) _
  have joined' : Joined everyApp later ctx'.isPlayer 2 ctx'.sessionName := by
    refine created_joined everyApp later ctx'.isPlayer 2 ctx'.sessionName sound ?_
    rw [show ctx'.sessionName = player.url.sessionName from named']
    exact every_app_created later player.url
  obtain ⟨session, session', first, second, meet, _⟩ := meets everyApp [] _ 1 2 joined joined'
  obtain rfl := meet.mpr ⟨⟨rfl, rfl, rfl⟩, by simp⟩
  exact ⟨session, first, second⟩

end Lssvc.Live
