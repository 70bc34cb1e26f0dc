import Lssvc.Live.SessionClear
import Lssvc.Live.ThreadClosing

set_option autoImplicit false

namespace Lssvc.Live

open Lssvc.Foundation Lssvc.Mmedia Lssvc.Utils

theorem marks_close_user (s : SessionState) (user : Nat) : Marks (· = user) s (closeUser s user) := by
  by_cases dead : (s.users user).destroyed = true
  · rw [closeUser, if_pos dead]
    exact marks_dead s user dead
  · obtain ⟨connection, destroyed⟩ := marks_destroy s user
    rw [closeUser, if_neg dead]
    dsimp only
    split_ifs <;> exact ⟨connection, destroyed⟩

theorem marks_set_publisher (s : SessionState) (user : Nat) (fresh : s.session.publisher ≠ some user) :
    Marks (s.session.publisher = some ·) s (setPublisher s user) := by
  rw [setPublisher, if_neg fresh]
  cases current : s.session.publisher with
  | none =>
      rw [retirePublisher, current]
      refine ⟨fun _ => rfl, fun _ => by simp⟩
  | some old =>
      have same (other : Nat) : other = old ↔ some old = some other := by rw [Option.some_inj, eq_comm]
      rw [retirePublisher, current]
      by_cases dead : (s.users old).destroyed = true
      · simp only [if_pos dead]
        obtain ⟨connection, destroyed⟩ := marks_dead s old dead
        exact ⟨connection, fun other => by rw [← same]; exact destroyed other⟩
      · simp only [if_neg dead]
        obtain ⟨connection, destroyed⟩ := marks_destroy s old
        exact ⟨connection, fun other => by rw [← same]; exact destroyed other⟩

theorem marks_clear (s : SessionState)
    (known : ∀ user, s.session.publisher = some user → (s.users user).type ≠ .kUserTypeUnknown) :
    Marks (· ∈ s.members) s (clear s) := by
  obtain ⟨session, result, _, _⟩ := clear_in_order_pass (s.session.players.sort (· ≤ ·)) s
  obtain ⟨connection, destroyed⟩ := marks_pass (s.session.publisher.toList ++ s.session.players.sort (· ≤ ·)) s
  rw [clear_sorted s known, result]
  refine ⟨connection, fun user => ?_⟩
  rw [← mem_visited (s.session.players.sort (· ≤ ·)) s (Finset.sort_toFinset ..) user]
  exact destroyed user

def CreatedFor (svc : LiveService) (conn user : Nat) : Prop :=
  user < svc.nextUser ∧ (svc.users user).connection = conn

instance (svc : LiveService) (conn user : Nat) : Decidable (CreatedFor svc conn user) := instDecidableAnd

structure NoUserLeft (svc : LiveService) (conn : Nat) : Prop where
  destroyed : ∀ user, CreatedFor svc conn user → (svc.users user).destroyed = true
  members : ∀ session user,
    (svc.sessions session).publisher = some user ∨ user ∈ (svc.sessions session).players →
      (svc.users user).connection = conn → (svc.users user).destroyed = true

-- A living user of the connection that its kUserContext no longer names.
def Abandoned (conn user : Nat) (svc : LiveService) : Prop :=
  CreatedFor svc conn user ∧ svc.contexts conn ≠ some user ∧ (svc.users user).destroyed = false

structure Attached (svc : LiveService) : Prop where
  sound : ServiceSound svc
  owner : ∀ conn user, svc.contexts conn = some user → (svc.users user).connection = conn

theorem attached_add_user (svc : LiveService) (session conn : Nat) (type : UserType) (attached : Attached svc)
    (inside : session < svc.nextSession) (rtmp : RtmpType type) : Attached (svc.addUser session conn type) := by
  refine ⟨add_user_sound svc session conn type attached.sound inside rtmp, ?_⟩
  intro other user named
  by_cases same : other = conn
  · subst same
    rw [show (svc.addUser session other type).contexts other = some svc.nextUser from Function.update_self ..] at named
    cases named
    rw [show (svc.addUser session other type).users svc.nextUser = ⟨type, other, session, false⟩ from
      Function.update_self ..]
  · rw [show (svc.addUser session conn type).contexts other = svc.contexts other from
      Function.update_of_ne same ..] at named
    have earlier := Nat.ne_of_lt (attached.sound.contexts other user named)
    rw [show (svc.addUser session conn type).users user = svc.users user from Function.update_of_ne earlier ..]
    exact attached.owner other user named

theorem abandoned_add_user (svc : LiveService) (session other : Nat) (type : UserType) (attached : Attached svc)
    (conn user : Nat) :
    Abandoned conn user (svc.addUser session other type) ↔
      Abandoned conn user svc ∨
        (other = conn ∧ svc.contexts conn = some user ∧ (svc.users user).destroyed = false) := by
  have newUser : (svc.addUser session other type).users svc.nextUser = ⟨type, other, session, false⟩ :=
    Function.update_self ..
  have oldUser (known : user < svc.nextUser) : (svc.addUser session other type).users user = svc.users user :=
    Function.update_of_ne (Nat.ne_of_lt known) ..
  have slot : (svc.addUser session other type).contexts other = some svc.nextUser := Function.update_self ..
  have otherSlot (different : conn ≠ other) : (svc.addUser session other type).contexts conn = svc.contexts conn :=
    Function.update_of_ne different ..
  constructor
  · rintro ⟨⟨known, owned⟩, unnamed, living⟩
    rcases Nat.lt_succ_iff_lt_or_eq.mp known with earlier | rfl
    · rw [oldUser earlier] at owned living
      by_cases same : conn = other
      · by_cases named : svc.contexts conn = some user
        · exact .inr ⟨same.symm, named, living⟩
        · exact .inl ⟨⟨earlier, owned⟩, named, living⟩
      · rw [otherSlot same] at unnamed
        exact .inl ⟨⟨earlier, owned⟩, unnamed, living⟩
    · rw [newUser] at owned
      cases owned
      exact absurd slot unnamed
  · have unnamed (earlier : user < svc.nextUser) (stale : conn ≠ other → svc.contexts conn ≠ some user) :
        (svc.addUser session other type).contexts conn ≠ some user := by
      by_cases same : conn = other
      · rw [same, slot]
        exact fun equal => Nat.ne_of_gt earlier (Option.some.inj equal)
      · rw [otherSlot same]
        exact stale same
    rintro (⟨⟨known, owned⟩, stale, living⟩ | ⟨rfl, named, living⟩)
    · rw [← oldUser known] at owned living
      exact ⟨⟨Nat.lt_succ_of_lt known, owned⟩, unnamed known fun _ => stale, living⟩
    · have known := attached.sound.contexts other user named
      have owned := attached.owner other user named
      rw [← oldUser known] at owned living
      exact ⟨⟨Nat.lt_succ_of_lt known, owned⟩, unnamed known fun different => absurd rfl different, living⟩

section

variable {closed : Nat → Prop} {svc : LiveService} {session : Nat} {s : SessionState}
  (marks : Marks closed (svc.state session) s)
include marks

theorem attached_store (sound : ServiceSound (svc.store session s)) (attached : Attached svc) :
    Attached (svc.store session s) :=
  ⟨sound, fun conn user named => (marks.connection user).trans (attached.owner conn user named)⟩

theorem abandoned_store (conn user : Nat) :
    Abandoned conn user (svc.store session s) ↔ Abandoned conn user svc ∧ ¬ closed user := by
  have living : (s.users user).destroyed = false ↔ (svc.users user).destroyed = false ∧ ¬ closed user := by
    rw [← Bool.not_eq_true, marks.destroyed, not_or, Bool.not_eq_true, and_comm]
    rfl
  have owned : (s.users user).connection = (svc.users user).connection := marks.connection user
  simp only [Abandoned, CreatedFor, LiveService.store, living, owned, and_assoc]

end

section

variable (hasApp : Str → Str → Bool)

def Abandons (conn user : Nat) (svc : LiveService) : ServiceEvent → Prop
  | .onPlay other sessionName =>
      other = conn ∧ svc.contexts conn = some user ∧ (svc.users user).destroyed = false ∧
        ∃ session, (createSession hasApp svc sessionName).2 = some session
  | .onPublish other sessionName =>
      other = conn ∧ svc.contexts conn = some user ∧ (svc.users user).destroyed = false ∧
        ∃ session, (createSession hasApp svc sessionName).2 = some session ∧
          (svc.sessions session).publisher ≠ some user
  | _ => False

def Retires (user : Nat) (svc : LiveService) : ServiceEvent → Prop
  | .onPublish _ sessionName => ∃ session, (createSession hasApp svc sessionName).2 = some session ∧
      (svc.sessions session).publisher = some user
  | .closeSession sessionName => ∃ session, svc.names sessionName = some session ∧ user ∈ (svc.state session).members
  | _ => False

theorem abandoned_opened {svc next : LiveService} {sessionName : Str} {session : Nat}
    (opened : Opened svc next sessionName session) (conn user : Nat) :
    Abandoned conn user next ↔ Abandoned conn user svc := by
  simp only [Abandoned, CreatedFor, opened.users, opened.nextUser, opened.contexts]

theorem attached_opened {svc next : LiveService} {sessionName : Str} {session : Nat}
    (opened : Opened svc next sessionName session) (attached : Attached svc) : Attached next := by
  refine ⟨opened.sound, fun conn user named => ?_⟩
  rw [opened.contexts] at named
  rw [opened.users]
  exact attached.owner conn user named

theorem on_play_abandoned (svc : LiveService) (other : Nat) (sessionName : Str) (attached : Attached svc) :
    Attached (onPlay hasApp svc other sessionName) ∧
      ∀ conn user, Abandoned conn user (onPlay hasApp svc other sessionName) ↔
        Abandons hasApp conn user svc (.onPlay other sessionName) ∨ Abandoned conn user svc := by
  have sound := (on_play_sound hasApp svc other sessionName attached.sound).1
  rcases on_play_cases hasApp svc other sessionName attached.sound with
    ⟨none, refused⟩ | ⟨next, session, accepted, opened, played⟩
  · rw [refused]
    refine ⟨⟨call_sound svc _ attached.sound, attached.owner⟩, fun conn user => ?_⟩
    simp only [Abandons, none, reduceCtorEq, exists_false, and_false, false_or]
    rfl
  · have added := attached_add_user next session other .kUserTypePlayerRtmp (attached_opened opened attached)
      opened.inside (.inr rfl)
    have marks : Marks (fun _ => False) ((next.addUser session other .kUserTypePlayerRtmp).state session)
        (addPlayer ((next.addUser session other .kUserTypePlayerRtmp).state session) svc.nextUser) :=
      ⟨fun _ => rfl, fun _ => by rw [false_or]; rfl⟩
    rw [played] at sound ⊢
    refine ⟨attached_store marks sound added, fun conn user => ?_⟩
    rw [abandoned_store marks, abandoned_add_user next session other _ (attached_opened opened attached),
      abandoned_opened opened]
    simp only [Abandons, accepted, opened.contexts, opened.users, Option.some_inj, exists_eq', and_true, not_false_eq_true]
    exact or_comm

theorem on_publish_abandoned (svc : LiveService) (other : Nat) (sessionName : Str) (attached : Attached svc) :
    Attached (onPublish hasApp svc other sessionName) ∧
      ∀ conn user, Abandoned conn user (onPublish hasApp svc other sessionName) ↔
        Abandons hasApp conn user svc (.onPublish other sessionName) ∨
          (Abandoned conn user svc ∧ ¬ Retires hasApp user svc (.onPublish other sessionName)) := by
  have sound := (on_publish_sound hasApp svc other sessionName attached.sound).1
  rcases on_publish_cases hasApp svc other sessionName attached.sound with
    ⟨none, refused⟩ | ⟨next, session, accepted, opened, published⟩
  · rw [refused]
    refine ⟨⟨call_sound svc _ attached.sound, attached.owner⟩, fun conn user => ?_⟩
    simp only [Abandons, Retires, none, reduceCtorEq, false_and, exists_false, and_false, false_or, not_false_eq_true,
      and_true]
    rfl
  · have added := attached_add_user next session other .kUserTypePublishRtmp (attached_opened opened attached)
      opened.inside (.inl rfl)
    have fresh := opened_new_publisher opened
    have marks := marks_set_publisher ((next.addUser session other .kUserTypePublishRtmp).state session) svc.nextUser fresh
    rw [published] at sound ⊢
    refine ⟨attached_store marks sound added, fun conn user => ?_⟩
    rw [abandoned_store marks, abandoned_add_user next session other _ (attached_opened opened attached),
      abandoned_opened opened]
    rw [show ((next.addUser session other .kUserTypePublishRtmp).state session).session.publisher =
      (svc.sessions session).publisher from opened.publisher session]
    simp only [Abandons, Retires, accepted, opened.contexts, opened.users, Option.some_inj, exists_eq_left']
    tauto

theorem on_connection_destroy_abandoned (svc : LiveService) (other : Nat) (attached : Attached svc) :
    Attached (onConnectionDestroy svc other) ∧
      (∀ conn user, Abandoned conn user (onConnectionDestroy svc other) ↔ Abandoned conn user svc) ∧
      ∀ user, svc.contexts other = some user → ((onConnectionDestroy svc other).users user).destroyed = true := by
  have sound := (on_connection_destroy_sound svc other attached.sound).1
  cases named : svc.contexts other with
  | none =>
      simp only [onConnectionDestroy, named]
      exact ⟨attached, fun _ _ => trivial, fun _ impossible => by cases impossible⟩
  | some closed =>
      simp only [onConnectionDestroy, named] at sound ⊢
      have marks := marks_close_user (svc.state (svc.users closed).session) closed
      refine ⟨attached_store marks sound attached, fun conn user => ?_, fun user same => ?_⟩
      · rw [abandoned_store marks, and_iff_left_iff_imp]
        rintro ⟨⟨_, owned⟩, unnamed, _⟩ rfl
        rw [attached.owner other user named] at owned
        subst owned
        exact unnamed named
      · cases same
        exact (marks.destroyed closed).mpr (.inl rfl)

theorem on_destroyed_abandoned (svc : LiveService) (other : Nat) (attached : Attached svc) :
    Attached (onDestroyed svc other) ∧
      ∀ conn user, Abandoned conn user (onDestroyed svc other) ↔ Abandoned conn user svc := by
  obtain ⟨kept, abandoned, closed⟩ := on_connection_destroy_abandoned svc other attached
  have contexts : (onConnectionDestroy svc other).contexts = svc.contexts := by
    rw [onConnectionDestroy]
    split <;> rfl
  have cleared (conn : Nat) (different : conn ≠ other) :
      (onDestroyed svc other).contexts conn = (onConnectionDestroy svc other).contexts conn :=
    Function.update_of_ne different _ _
  refine ⟨⟨clear_context_sound _ other kept.sound, fun conn user named => ?_⟩, fun conn user => ?_⟩
  · by_cases same : conn = other
    · rw [same, show (onDestroyed svc other).contexts other = none from Function.update_self _ _ _] at named
      cases named
    · rw [cleared conn same] at named
      exact kept.owner conn user named
  · rw [← abandoned conn user]
    constructor
    · rintro ⟨created, unnamed, living⟩
      refine ⟨created, fun named => ?_, living⟩
      by_cases same : conn = other
      · rw [contexts, same] at named
        exact Bool.false_ne_true (living.symm.trans (closed user named))
      · exact unnamed ((cleared conn same).trans named)
    · rintro ⟨created, unnamed, living⟩
      refine ⟨created, fun named => ?_, living⟩
      by_cases same : conn = other
      · rw [same, show (onDestroyed svc other).contexts other = none from Function.update_self _ _ _] at named
        cases named
      · exact unnamed ((cleared conn same).symm.trans named)

theorem close_session_abandoned (svc : LiveService) (sessionName : Str) (attached : Attached svc) :
    Attached (closeSession svc sessionName) ∧
      ∀ conn user, Abandoned conn user (closeSession svc sessionName) ↔
        Abandoned conn user svc ∧ ¬ Retires hasApp user svc (.closeSession sessionName) := by
  have sound := (close_session_sound svc sessionName attached.sound).1
  cases found : svc.names sessionName with
  | none =>
      simp only [closeSession, found, Retires, reduceCtorEq, false_and, exists_false, not_false_eq_true, and_true]
      exact ⟨attached, fun _ _ => trivial⟩
  | some session =>
      simp only [closeSession, found] at sound ⊢
      have marks := marks_clear (LiveService.state { svc with names := Function.update svc.names sessionName none } session)
        fun user current =>
          rtmp_type_known _ (attached.sound.types user (attached.sound.publishers session user current).1)
      have erased : Attached { svc with names := Function.update svc.names sessionName none } :=
        ⟨erase_name_sound svc sessionName attached.sound, attached.owner⟩
      refine ⟨attached_store marks sound erased, fun conn user => ?_⟩
      rw [abandoned_store marks]
      simp only [Retires, found, Option.some_inj, exists_eq_left']
      exact Iff.rfl

theorem abandoned_step (svc : LiveService) (event : ServiceEvent) (attached : Attached svc) :
    Attached (serviceStep hasApp svc event) ∧
      ∀ conn user, Abandoned conn user (serviceStep hasApp svc event) ↔
        Abandons hasApp conn user svc event ∨ (Abandoned conn user svc ∧ ¬ Retires hasApp user svc event) := by
  cases event with
  | onPlay other sessionName =>
      obtain ⟨kept, abandoned⟩ := on_play_abandoned hasApp svc other sessionName attached
      refine ⟨kept, fun conn user => ?_⟩
      simp only [serviceStep, abandoned, Retires, not_false_eq_true, and_true]
  | onPublish other sessionName => exact on_publish_abandoned hasApp svc other sessionName attached
  | onRecv other packet =>
      have same : ∃ call, serviceStep hasApp svc (.onRecv other packet) = svc.call call := by
        cases named : svc.contexts other <;> simp only [serviceStep, onRecv, named] <;> exact ⟨_, rfl⟩
      obtain ⟨call, called⟩ := same
      rw [called]
      refine ⟨⟨call_sound svc call attached.sound, attached.owner⟩, fun conn user => ?_⟩
      simp only [Abandons, Retires, false_or, not_false_eq_true, and_true]
      exact Iff.rfl
  | onConnectionDestroy other =>
      obtain ⟨kept, abandoned⟩ := on_destroyed_abandoned svc other attached
      refine ⟨kept, fun conn user => ?_⟩
      simp only [serviceStep, abandoned, Abandons, Retires, false_or, not_false_eq_true, and_true]
  | closeSession sessionName =>
      obtain ⟨kept, abandoned⟩ := close_session_abandoned hasApp svc sessionName attached
      refine ⟨kept, fun conn user => ?_⟩
      simp only [serviceStep, abandoned, Abandons, false_or]

theorem fresh_attached : Attached .fresh := ⟨fresh_service_sound, fun _ _ impossible => by cases impossible⟩

theorem no_user_left_iff (svc : LiveService) (conn : Nat) (sound : ServiceSound svc) (detached : svc.contexts conn = none) :
    NoUserLeft svc conn ↔ ∀ user, ¬ Abandoned conn user svc := by
  constructor
  · rintro nobody user ⟨created, _, living⟩
    rw [nobody.destroyed user created] at living
    cases living
  · intro none'
    have destroyed (user : Nat) (created : CreatedFor svc conn user) : (svc.users user).destroyed = true := by
      by_contra living
      exact none' user ⟨created, fun named => (nomatch detached.symm.trans named), Bool.eq_false_iff.mpr living⟩
    refine ⟨destroyed, fun session user member owned => destroyed user ⟨?_, owned⟩⟩
    rcases member with current | player
    · exact (sound.publishers session user current).1
    · exact (sound.players session user player).1

variable (loop : Nat → Nat)

structure Threads where
  svc : LiveService := .fresh
  closed : Nat → Bool := fun _ => false

def Threads.step (t : Threads) (event : ServiceEvent) : Except LockFault LiveService :=
  threadStep loop t.closed hasApp t.svc event

def Threads.destroys (t : Threads) (event : ServiceEvent) : Option Nat :=
  match event with
  | .onConnectionDestroy conn => some conn
  | event => closedAtOnce loop t.closed hasApp t.svc event

-- A fault leaves the state as it was, for the sake of a total run: what is asked of a
-- run is that no step faults.
def Threads.next (t : Threads) (event : ServiceEvent) : Threads :=
  match t.step hasApp loop event with
  | .ok svc => ⟨svc, fun conn => t.closed conn || t.destroys hasApp loop event == some conn⟩
  | .error _ => t

def Threads.Relocks (t : Threads) (event : ServiceEvent) : Prop := Lssvc.Live.Relocks loop t.closed hasApp t.svc event

def Displaces (conn user : Nat) (t : Threads) (event : ServiceEvent) : Prop :=
  ¬ t.Relocks hasApp loop event ∧ Abandons hasApp conn user t.svc event

def Discharges (user : Nat) (t : Threads) (event : ServiceEvent) : Prop :=
  ¬ t.Relocks hasApp loop event ∧ Retires hasApp user t.svc event

def LeavesNobody (t : Threads) (event : ServiceEvent) : Prop :=
  ∃ after, t.step hasApp loop event = .ok after ∧ ∀ conn, t.destroys hasApp loop event = some conn → NoUserLeft after conn

theorem thread_next_abandoned (t : Threads) (event : ServiceEvent) (attached : Attached t.svc) :
    Attached (t.next hasApp loop event).svc ∧
      ∀ conn user, Abandoned conn user (t.next hasApp loop event).svc ↔
        Displaces hasApp loop conn user t event ∨
          (Abandoned conn user t.svc ∧ ¬ Discharges hasApp loop user t event) := by
  simp only [Displaces, Discharges, Threads.next, Threads.step, Threads.Relocks]
  rcases thread_step_cases loop t.closed hasApp t.svc event attached.sound with ⟨relocks, session, fault⟩ | ⟨free, next⟩
  · rw [fault]
    refine ⟨attached, fun conn user => ?_⟩
    simp only [relocks, not_true_eq_false, false_and, false_or, not_false_eq_true, and_true]
  · rw [next]
    simp only [free, not_false_eq_true, true_and]
    obtain ⟨kept, abandoned⟩ := abandoned_step hasApp t.svc event attached
    cases closedAtOnce loop t.closed hasApp t.svc event with
    | none => exact ⟨kept, abandoned⟩
    | some other =>
        obtain ⟨keptThen, abandonedThen⟩ := on_destroyed_abandoned (serviceStep hasApp t.svc event) other kept
        exact ⟨keptThen, fun conn user => (abandonedThen conn user).trans (abandoned conn user)⟩

theorem destroys_detached (t : Threads) (after : LiveService) (event : ServiceEvent) (conn : Nat)
    (sound : ServiceSound t.svc) (done : t.step hasApp loop event = .ok after)
    (destroys : t.destroys hasApp loop event = some conn) : after.contexts conn = none := by
  have detached (svc : LiveService) : (onDestroyed svc conn).contexts conn = none := Function.update_self _ _ _
  rw [Threads.step] at done
  rcases thread_step_cases loop t.closed hasApp t.svc event sound with ⟨_, session, fault⟩ | ⟨_, carried⟩
  · cases fault.symm.trans done
  · rw [carried] at done
    cases event with
    | onConnectionDestroy other =>
        cases destroys
        cases done
        exact detached t.svc
    | _ =>
        simp only [Threads.destroys] at destroys
        rw [destroys] at done
        cases done
        exact detached _

theorem attached_run (events : List ServiceEvent) : Attached (run (Threads.next hasApp loop) {} events).svc :=
  run_invariant (fun t event attached => (thread_next_abandoned hasApp loop t event attached).1) _ fresh_attached events

theorem abandoned_since (past : List ServiceEvent) (conn user : Nat) :
    Abandoned conn user (run (Threads.next hasApp loop) {} past).svc ↔
      Since (Threads.next hasApp loop) {} (Displaces hasApp loop conn user) (Discharges hasApp loop user) past := by
  refine since_iff (fun t : Threads => Abandoned conn user t.svc) ?_ ?_ past
  · rintro ⟨⟨impossible, _⟩, _⟩
    exact Nat.not_lt_zero _ impossible
  · intro before event
    exact (thread_next_abandoned hasApp loop _ event (attached_run hasApp loop before)).2 conn user

end

end Lssvc.Live
