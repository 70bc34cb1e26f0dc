import Mathlib.Data.Finset.Sort
import Mathlib.Logic.Function.Basic
import Lssvc.Foundation.Runs
import Lssvc.Utils.Strings

set_option autoImplicit false

namespace Lssvc.Live

open Lssvc.Foundation Lssvc.Utils

inductive UserType where
  | kUserTypePublishRtmp
  | kUserTypePublishMpegts
  | kUserTypePublishPav
  | kUserTypePublishWebRTC
  | kUserTypePlayerPav
  | kUserTypePlayerFlv
  | kUserTypePlayerHls
  | kUserTypePlayerRtmp
  | kUserTypePlayerWebRTC
  | kUserTypeUnknown
deriving DecidableEq, Repr

def UserType.value : UserType → Nat
  | .kUserTypePublishRtmp => 0
  | .kUserTypePublishMpegts => 1
  | .kUserTypePublishPav => 2
  | .kUserTypePublishWebRTC => 3
  | .kUserTypePlayerPav => 4
  | .kUserTypePlayerFlv => 5
  | .kUserTypePlayerHls => 6
  | .kUserTypePlayerRtmp => 7
  | .kUserTypePlayerWebRTC => 8
  | .kUserTypeUnknown => 255

-- Users, sessions and connections are shared pointers: they are known by number.
structure LiveUser where
  type : UserType
  connection : Nat
  session : Nat
  destroyed : Bool := false
deriving DecidableEq, Repr

structure LiveSession where
  sessionName : Str
  players : Finset Nat := ∅
  publisher : Option Nat := none
deriving DecidableEq

inductive UserCall where
  | active (user : Nat)
  | close (user : Nat)
deriving DecidableEq, Repr

structure SessionState where
  session : LiveSession
  users : Nat → LiveUser
  calls : List UserCall

def SessionState.call (s : SessionState) (call : UserCall) : SessionState := { s with calls := s.calls ++ [call] }

-- destroyed_.exchange(true).
def SessionState.destroy (s : SessionState) (user : Nat) : SessionState :=
  { s with users := Function.update s.users user { s.users user with destroyed := true } }

def SessionState.resetPublisher (s : SessionState) : SessionState :=
  { s with session := { s.session with publisher := none } }

def SessionState.erasePlayer (s : SessionState) (user : Nat) : SessionState :=
  { s with session := { s.session with players := s.session.players.erase user } }

def closeUser (s : SessionState) (user : Nat) : SessionState :=
  if (s.users user).destroyed then s
  else
    let s := s.destroy user
    let s :=
      if (s.users user).type.value ≤ UserType.kUserTypePlayerWebRTC.value then s.resetPublisher
      else s.erasePlayer user
    s.call (.close user)

-- Here the publisher branch closes the user only where there is a publisher.
def closeUserNoLock (s : SessionState) (user : Nat) : SessionState :=
  if (s.users user).destroyed then s
  else
    let s := s.destroy user
    if (s.users user).type.value ≤ UserType.kUserTypePlayerWebRTC.value then
      if s.session.publisher.isSome then (s.call (.close user)).resetPublisher else s
    else (s.erasePlayer user).call (.close user)

def addPlayer (s : SessionState) (user : Nat) : SessionState :=
  { s with session := { s.session with players := insert user s.session.players } }.call (.active user)

-- The takeover path: the publisher in place is closed, but not yet replaced.
def retirePublisher (s : SessionState) : SessionState :=
  match s.session.publisher with
  | none => s
  | some old => if (s.users old).destroyed then s else (s.destroy old).call (.close old)

def setPublisher (s : SessionState) (user : Nat) : SessionState :=
  if s.session.publisher = some user then s
  else { retirePublisher s with session := { (retirePublisher s).session with publisher := some user } }

-- unordered_set promises no order; here the players are visited by number.
def clear (s : SessionState) : SessionState :=
  let s :=
    match s.session.publisher with
    | some publisher => closeUserNoLock s publisher
    | none => s
  let s := (s.session.players.sort (· ≤ ·)).foldl closeUserNoLock s
  { s with session := { s.session with players := ∅ } }

inductive SessionEvent where
  | addPlayer (user : Nat)
  | setPublisher (user : Nat)
  | closeUser (user : Nat)
deriving DecidableEq, Repr

def sessionStep (s : SessionState) : SessionEvent → SessionState
  | .addPlayer user => addPlayer s user
  | .setPublisher user => setPublisher s user
  | .closeUser user => closeUser s user

def RtmpType (type : UserType) : Prop := type = .kUserTypePublishRtmp ∨ type = .kUserTypePlayerRtmp

-- Every type but kUserTypeUnknown compares as at most kUserTypePlayerWebRTC: the
-- close paths take players for publishers.
theorem known_type_low (type : UserType) (known : type ≠ .kUserTypeUnknown) :
    type.value ≤ UserType.kUserTypePlayerWebRTC.value := by
  cases type with
  | kUserTypeUnknown => exact absurd rfl known
  | _ => decide

theorem rtmp_type_known (type : UserType) (rtmp : RtmpType type) : type ≠ .kUserTypeUnknown := by
  rcases rtmp with rfl | rfl <;> decide

structure Local (session : Nat) (before after : SessionState) : Prop where
  type : ∀ user, (after.users user).type = (before.users user).type
  home : ∀ user, (after.users user).session = (before.users user).session
  others : ∀ user, (before.users user).session ≠ session →
    (after.users user).destroyed = (before.users user).destroyed
  name : after.session.sessionName = before.session.sessionName

theorem local_refl (session : Nat) (s : SessionState) : Local session s s :=
  ⟨fun _ => rfl, fun _ => rfl, fun _ _ => rfl, rfl⟩

theorem local_trans (session : Nat) (first second third : SessionState) (left : Local session first second)
    (right : Local session second third) : Local session first third where
  type := fun user => (right.type user).trans (left.type user)
  home := fun user => (right.home user).trans (left.home user)
  others := fun user elsewhere =>
    (right.others user (by rw [left.home user]; exact elsewhere)).trans (left.others user elsewhere)
  name := right.name.trans left.name

theorem local_destroy (session : Nat) (s : SessionState) (user : Nat) (member : (s.users user).session = session) :
    Local session s (s.destroy user) := by
  have cases' (other : Nat) : (s.destroy user).users other = s.users other ∨
      (other = user ∧ (s.destroy user).users other = { s.users user with destroyed := true }) := by
    by_cases same : other = user
    · subst same
      exact .inr ⟨rfl, Function.update_self _ _ _⟩
    · exact .inl (Function.update_of_ne same _ _)
  refine ⟨fun other => ?_, fun other => ?_, fun other elsewhere => ?_, rfl⟩
  · rcases cases' other with kept | ⟨rfl, changed⟩
    · rw [kept]
    · rw [changed]
  · rcases cases' other with kept | ⟨rfl, changed⟩
    · rw [kept]
    · rw [changed]
  · rcases cases' other with kept | ⟨rfl, _⟩
    · rw [kept]
    · exact absurd member elsewhere

theorem close_user_known (s : SessionState) (user : Nat) (known : (s.users user).type ≠ .kUserTypeUnknown) :
    closeUser s user =
      if (s.users user).destroyed then s else (s.destroy user).resetPublisher.call (.close user) := by
  have type := (local_destroy (s.users user).session s user rfl).type user
  have low := known_type_low _ (type ▸ known)
  simp only [closeUser, if_pos low]

theorem close_user_rtmp (s : SessionState) (user : Nat) (rtmp : RtmpType (s.users user).type) :
    closeUser s user =
      if (s.users user).destroyed then s else (s.destroy user).resetPublisher.call (.close user) :=
  close_user_known s user (rtmp_type_known _ rtmp)

theorem close_user_session (s : SessionState) (user : Nat) (rtmp : RtmpType (s.users user).type) :
    (closeUser s user).session.players = s.session.players ∧
      (closeUser s user).session.publisher =
        if (s.users user).destroyed then s.session.publisher else none := by
  rw [close_user_rtmp s user rtmp]
  by_cases dead : (s.users user).destroyed = true
  · rw [if_pos dead, if_pos dead]
    exact ⟨rfl, rfl⟩
  · rw [if_neg dead, if_neg dead]
    exact ⟨rfl, rfl⟩

theorem close_user_no_lock_known (s : SessionState) (user : Nat)
    (known : (s.users user).type ≠ .kUserTypeUnknown) :
    closeUserNoLock s user =
      if (s.users user).destroyed then s
      else if s.session.publisher.isSome then ((s.destroy user).call (.close user)).resetPublisher
      else s.destroy user := by
  have type := (local_destroy (s.users user).session s user rfl).type user
  have low := known_type_low _ (type ▸ known)
  simp only [closeUserNoLock, if_pos low]
  rfl

theorem close_user_no_lock_rtmp (s : SessionState) (user : Nat) (rtmp : RtmpType (s.users user).type) :
    closeUserNoLock s user =
      if (s.users user).destroyed then s
      else if s.session.publisher.isSome then ((s.destroy user).call (.close user)).resetPublisher
      else s.destroy user :=
  close_user_no_lock_known s user (rtmp_type_known _ rtmp)

theorem retire_publisher_session (s : SessionState) : (retirePublisher s).session = s.session := by
  cases current : s.session.publisher with
  | none => simp only [retirePublisher, current]
  | some old =>
      by_cases dead : (s.users old).destroyed = true
      · simp only [retirePublisher, current, if_pos dead]
      · simp only [retirePublisher, current, if_neg dead]
        rfl

theorem set_publisher_session (s : SessionState) (user : Nat) :
    (setPublisher s user).session = { s.session with publisher := some user } := by
  by_cases same : s.session.publisher = some user
  · rw [setPublisher, if_pos same, ← same]
  · rw [setPublisher, if_neg same, retire_publisher_session]

theorem retire_publisher_destroyed (s : SessionState) (user : Nat) :
    ((retirePublisher s).users user).destroyed = false ↔
      (s.users user).destroyed = false ∧ s.session.publisher ≠ some user := by
  cases current : s.session.publisher with
  | none => simp [retirePublisher, current]
  | some old =>
      by_cases same : user = old
      · subst same
        by_cases dead : (s.users user).destroyed = true <;>
          simp [retirePublisher, current, dead, SessionState.destroy, SessionState.call]
      · have different : old ≠ user := fun equal => same equal.symm
        by_cases dead : (s.users old).destroyed = true <;>
          simp [retirePublisher, current, dead, SessionState.destroy, SessionState.call, same, different]

theorem set_publisher_destroyed (s : SessionState) (user other : Nat) (fresh : s.session.publisher ≠ some other) :
    ((setPublisher s other).users user).destroyed = false ↔
      (s.users user).destroyed = false ∧ s.session.publisher ≠ some user := by
  rw [setPublisher, if_neg fresh]
  exact retire_publisher_destroyed s user

theorem local_add_player (session : Nat) (s : SessionState) (user : Nat) : Local session s (addPlayer s user) :=
  ⟨fun _ => rfl, fun _ => rfl, fun _ _ => rfl, rfl⟩

theorem local_set_publisher (session : Nat) (s : SessionState) (user : Nat)
    (member : ∀ old, s.session.publisher = some old → (s.users old).session = session) :
    Local session s (setPublisher s user) := by
  by_cases same : s.session.publisher = some user
  · rw [setPublisher, if_pos same]
    exact local_refl session s
  · have retired : Local session s (retirePublisher s) := by
      cases current : s.session.publisher with
      | none =>
          rw [retirePublisher, current]
          exact local_refl session s
      | some old =>
          rw [retirePublisher, current]
          by_cases dead : (s.users old).destroyed = true
          · simp only [if_pos dead]
            exact local_refl session s
          · simp only [if_neg dead]
            obtain ⟨type, home, others, name⟩ := local_destroy session s old (member old current)
            exact ⟨type, home, others, name⟩
    rw [setPublisher, if_neg same]
    exact ⟨retired.type, retired.home, retired.others, retired.name⟩

theorem local_close_user (session : Nat) (s : SessionState) (user : Nat) (rtmp : RtmpType (s.users user).type)
    (member : (s.users user).session = session) : Local session s (closeUser s user) := by
  rw [close_user_rtmp s user rtmp]
  by_cases dead : (s.users user).destroyed = true
  · rw [if_pos dead]
    exact local_refl session s
  · rw [if_neg dead]
    obtain ⟨type, home, others, name⟩ := local_destroy session s user member
    exact ⟨type, home, others, name⟩

theorem local_close_user_no_lock (session : Nat) (s : SessionState) (user : Nat)
    (rtmp : RtmpType (s.users user).type) (member : (s.users user).session = session) :
    Local session s (closeUserNoLock s user) := by
  obtain ⟨type, home, others, name⟩ := local_destroy session s user member
  rw [close_user_no_lock_rtmp s user rtmp]
  by_cases dead : (s.users user).destroyed = true
  · rw [if_pos dead]
    exact local_refl session s
  · rw [if_neg dead]
    by_cases published : s.session.publisher.isSome = true
    · rw [if_pos published]
      exact ⟨type, home, others, name⟩
    · rw [if_neg published]
      exact ⟨type, home, others, name⟩

theorem close_user_no_lock_publisher (s : SessionState) (user : Nat) (rtmp : RtmpType (s.users user).type)
    (nobody : s.session.publisher = none) : (closeUserNoLock s user).session.publisher = none := by
  rw [close_user_no_lock_rtmp s user rtmp, nobody]
  by_cases dead : (s.users user).destroyed = true
  · rw [if_pos dead]
    exact nobody
  · rw [if_neg dead]
    exact nobody

theorem close_all_cleared (session : Nat) (users : List Nat) (s : SessionState)
    (members : ∀ user ∈ users, RtmpType (s.users user).type ∧ (s.users user).session = session)
    (nobody : s.session.publisher = none) :
    Local session s (users.foldl closeUserNoLock s) ∧
      (users.foldl closeUserNoLock s).session.publisher = none := by
  induction users generalizing s with
  | nil => exact ⟨local_refl session s, nobody⟩
  | cons user users ih =>
      obtain ⟨⟨rtmp, member⟩, later⟩ := List.forall_mem_cons.mp members
      have first := local_close_user_no_lock session s user rtmp member
      obtain ⟨rest, cleared⟩ := ih (closeUserNoLock s user) (by
        intro other inList
        rw [first.type other, first.home other]
        exact later other inList) (close_user_no_lock_publisher s user rtmp nobody)
      exact ⟨local_trans session _ _ _ first rest, cleared⟩

theorem close_publisher_cleared (session : Nat) (s : SessionState) (user : Nat)
    (rtmp : RtmpType (s.users user).type) (member : (s.users user).session = session)
    (current : s.session.publisher = some user) (living : (s.users user).destroyed = false) :
    Local session s (closeUserNoLock s user) ∧ (closeUserNoLock s user).session.publisher = none ∧
      (closeUserNoLock s user).session.players = s.session.players := by
  refine ⟨local_close_user_no_lock session s user rtmp member, ?_⟩
  rw [close_user_no_lock_rtmp s user rtmp, living, current]
  exact ⟨rfl, rfl⟩

theorem clear_cleared (session : Nat) (s : SessionState)
    (members : ∀ user ∈ s.session.players, RtmpType (s.users user).type ∧ (s.users user).session = session)
    (published : ∀ user, s.session.publisher = some user →
      RtmpType (s.users user).type ∧ (s.users user).session = session ∧ (s.users user).destroyed = false) :
    Local session s (clear s) ∧ (clear s).session.publisher = none ∧ (clear s).session.players = ∅ := by
  have unseated : ∃ s', clear s = { (s'.session.players.sort (· ≤ ·)).foldl closeUserNoLock s' with
        session := { ((s'.session.players.sort (· ≤ ·)).foldl closeUserNoLock s').session with players := ∅ } } ∧
      Local session s s' ∧ s'.session.publisher = none ∧ s'.session.players = s.session.players := by
    cases current : s.session.publisher with
    | none =>
        refine ⟨s, ?_, local_refl session s, current, rfl⟩
        rw [clear, current]
    | some user =>
        obtain ⟨rtmp, member, living⟩ := published user current
        obtain ⟨unchanged, cleared, same⟩ := close_publisher_cleared session s user rtmp member current living
        refine ⟨closeUserNoLock s user, ?_, unchanged, cleared, same⟩
        rw [clear, current]
  obtain ⟨s', result, first, nobody, same⟩ := unseated
  obtain ⟨rest, cleared⟩ := close_all_cleared session (s'.session.players.sort (· ≤ ·)) s' (by
    intro user inList
    rw [Finset.mem_sort, same] at inList
    rw [first.type user, first.home user]
    exact members user inList) nobody
  obtain ⟨type, home, others, name⟩ := local_trans session _ _ _ first rest
  rw [result]
  exact ⟨⟨type, home, others, name⟩, cleared, rfl⟩

end Lssvc.Live
