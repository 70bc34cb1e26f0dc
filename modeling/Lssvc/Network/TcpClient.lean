import Mathlib.Data.List.Nodup
import Mathlib.Logic.Function.Basic
import Lssvc.Foundation.Runs

set_option autoImplicit false

namespace Lssvc.Network

open Lssvc.Foundation

inductive TcpConnStatus where
  | kTcpConnStatusInit
  | kTcpConnStatusConnecting
  | kTcpConnStatusConnected
  | kTcpConnStatusDisconnected
deriving DecidableEq, Repr

-- What connect answers: 0, EINPROGRESS, or another error.
inductive ConnectResult where
  | connected
  | inProgress
  | refused
deriving DecidableEq, Repr

-- A TcpClient in its loop: fd_, which is -1 without a socket, closed_, and the
-- descriptors that events_ has the client under. fds are the sockets it has made
-- that are open still, of all it has created; shut counts those closed. The calls
-- of its callbacks are counted, and the rounds of writev.
structure TcpClient where
  status : TcpConnStatus := .kTcpConnStatusInit
  fd : Option Nat := none
  closed : Bool := false
  events : Nat → Bool := fun _ => false
  fds : List Nat := []
  created : Nat := 0
  shut : Nat := 0
  connectedCb : Nat := 0
  closeCb : Nat := 0
  messageCb : Nat := 0
  writes : Nat := 0
  taken : List Nat := []

def TcpClient.Live (client : TcpClient) : Prop :=
  client.status = .kTcpConnStatusConnecting ∨ client.status = .kTcpConnStatusConnected

instance (client : TcpClient) : Decidable client.Live := inferInstanceAs (Decidable (_ ∨ _))

def TcpClient.delEvent (client : TcpClient) : TcpClient :=
  match client.fd with
  | none => client
  | some fd => { client with events := Function.update client.events fd false }

def TcpClient.close (client : TcpClient) : TcpClient :=
  match client.fd with
  | none => client
  | some fd =>
      if fd > 1 then { client with fd := none, fds := client.fds.erase fd, shut := client.shut + 1 } else client

-- LSSTcpConnection::onClose
def TcpClient.closeConnection (client : TcpClient) : TcpClient :=
  if client.closed then client else { client with closed := true, closeCb := client.closeCb + 1 }.close

def TcpClient.leave (client : TcpClient) : TcpClient :=
  { (if client.Live then client.delEvent else client) with status := .kTcpConnStatusDisconnected }

def TcpClient.onClose (client : TcpClient) : TcpClient := client.leave.closeConnection

def TcpClient.updateConnectionStatus (client : TcpClient) : TcpClient :=
  { client with status := .kTcpConnStatusConnected, connectedCb := client.connectedCb + 1 }

-- fd is what createNonblockingTcpSocket has made.
def TcpClient.connectInLoop (client : TcpClient) (fd : Option Nat) (result : ConnectResult) : TcpClient :=
  match fd with
  | none => { client with fd := none }.onClose
  | some fd =>
      let client : TcpClient :=
        { client with
          fd := some fd
          fds := client.fds ++ [fd]
          created := client.created + 1
          status := .kTcpConnStatusConnecting
          events := Function.update client.events fd true }
      match result with
      | .connected => client.updateConnectionStatus
      | .inProgress => client
      | .refused => client.onClose

-- LSSTcpConnection::onRead, which calls message_cb_ so many times, and closes where
-- a read returns 0 or fails.
def TcpClient.readConnection (client : TcpClient) (messages : Nat) (ends : Bool) : TcpClient :=
  if client.closed then client
  else
    let client := { client with messageCb := client.messageCb + messages }
    if ends then client.onClose else client

def TcpClient.onRead (client : TcpClient) (error : Bool) (messages : Nat) (ends : Bool) : TcpClient :=
  match client.status with
  | .kTcpConnStatusConnecting => if error then client.onClose else client.updateConnectionStatus
  | .kTcpConnStatusConnected => client.readConnection messages ends
  | _ => client

def TcpClient.writeConnection (client : TcpClient) (fails : Bool) : TcpClient :=
  if client.closed then client
  else
    let client := { client with writes := client.writes + 1 }
    if fails then client.onClose else client

def TcpClient.onWrite (client : TcpClient) (error fails : Bool) : TcpClient :=
  match client.status with
  | .kTcpConnStatusConnecting => if error then client.onClose else client.updateConnectionStatus
  | .kTcpConnStatusConnected => client.writeConnection fails
  | _ => client

-- sendInLoop. Its send_len is unsigned, so that no failed write closes here.
def TcpClient.sendConnection (client : TcpClient) (size : Nat) : TcpClient :=
  if client.closed then client else { client with taken := client.taken ++ [size] }

def TcpClient.send (client : TcpClient) (size : Nat) : TcpClient :=
  match client.status with
  | .kTcpConnStatusConnected => client.sendConnection size
  | _ => client

-- onClose is a hang-up, an error, the idle timeout or forceClose.
inductive ClientEvent where
  | connectInLoop (fd : Option Nat) (result : ConnectResult)
  | onRead (ready : Nat) (error : Bool) (messages : Nat) (ends : Bool)
  | onWrite (ready : Nat) (error fails : Bool)
  | onClose
  | send (size : Nat)

def clientStep (client : TcpClient) : ClientEvent → TcpClient
  | .connectInLoop fd result => client.connectInLoop fd result
  | .onRead _ error messages ends => client.onRead error messages ends
  | .onWrite _ error fails => client.onWrite error fails
  | .onClose => client.onClose
  | .send size => client.send size

-- A new socket is none that is open; epoll_wait reports what is registered.
def Feasible (client : TcpClient) : ClientEvent → Prop
  | .connectInLoop fd _ => ∀ made ∈ fd, 1 < made ∧ made ∉ client.fds
  | .onRead ready _ _ _ => client.events ready = true
  | .onWrite ready _ _ => client.events ready = true
  | .onClose => True
  | .send _ => True

instance (client : TcpClient) (event : ClientEvent) : Decidable (Feasible client event) :=
  match event with
  | .connectInLoop none _ => .isTrue (by simp [Feasible])
  | .connectInLoop (some fd) _ => decidable_of_iff (1 < fd ∧ fd ∉ client.fds) (by simp [Feasible])
  | .onRead ready _ _ _ => inferInstanceAs (Decidable (client.events ready = true))
  | .onWrite ready _ _ => inferInstanceAs (Decidable (client.events ready = true))
  | .onClose => .isTrue trivial
  | .send _ => .isTrue trivial

structure ClientSound (client : TcpClient) : Prop where
  closeCb : client.closeCb = if client.closed then 1 else 0
  shut : client.shut ≤ client.closeCb
  opened : client.fds.length + client.shut = client.created
  once : client.fds.Nodup
  events : ∀ fd, client.events fd = true → fd ∈ client.fds
  fd : ∀ fd, client.fd = some fd → 1 < fd ∧ fd ∈ client.fds
  connectedCb : client.connectedCb + (if client.status = .kTcpConnStatusConnecting then 1 else 0) ≤ client.created

structure ClientKept (client : TcpClient) : Prop where
  sound : ClientSound client
  live : client.Live → ∃ fd, client.fd = some fd ∧ client.events fd = true
  init : client.status = .kTcpConnStatusInit → client.fd = none
  ended : client.status = .kTcpConnStatusDisconnected → client.closed = true

theorem client_start : ClientKept {} where
  sound :=
    { closeCb := rfl
      shut := Nat.le_refl _
      opened := rfl
      once := List.nodup_nil
      events := by simp
      fd := by simp
      connectedCb := by simp }
  live := by simp [TcpClient.Live]
  init := fun _ => rfl
  ended := by simp

theorem leave_frame (client : TcpClient) :
    client.leave = { client with
      status := .kTcpConnStatusDisconnected
      events := client.leave.events } := by
  simp only [TcpClient.leave, TcpClient.delEvent]
  split
  · split <;> rfl
  · rfl

theorem leave_events (client : TcpClient) (fd : Nat) (still : client.leave.events fd = true) :
    client.events fd = true ∧ (client.Live → client.fd ≠ some fd) := by
  simp only [TcpClient.leave, TcpClient.delEvent] at still
  by_cases live : client.Live
  · cases here : client.fd with
    | none =>
        simp only [live, if_true, here] at still
        simp [still]
    | some own =>
        simp only [live, if_true, here] at still
        by_cases same : fd = own
        · simp [same] at still
        · simp only [Function.update_of_ne same] at still
          simp [still, Ne.symm same]
  · simp only [live, if_false] at still
    simp [still, live]

theorem leave_sound (client : TcpClient) (sound : ClientSound client) : ClientSound client.leave := by
  rw [leave_frame]
  exact
    { closeCb := sound.closeCb
      shut := sound.shut
      opened := sound.opened
      once := sound.once
      events := fun fd still => sound.events fd (leave_events client fd still).1
      fd := sound.fd
      connectedCb := by
        have counted := sound.connectedCb
        simp only [reduceCtorEq, if_false, Nat.add_zero]
        omega }

theorem close_connection_sound (client : TcpClient) (sound : ClientSound client)
    (gone : client.closed = true ∨ ∀ fd, client.fd = some fd → client.events fd = false) :
    ClientSound client.closeConnection := by
  rw [TcpClient.closeConnection]
  cases closed : client.closed with
  | true => simpa using sound
  | false =>
      have none_yet := sound.closeCb
      have shut := sound.shut
      simp only [closed, Bool.false_eq_true, if_false] at none_yet
      simp only [Bool.false_eq_true, if_false, TcpClient.close]
      cases here : client.fd with
      | none =>
          exact
            { closeCb := by simp [none_yet]
              shut := Nat.le_succ_of_le shut
              opened := sound.opened
              once := sound.once
              events := sound.events
              fd := by simp
              connectedCb := sound.connectedCb }
      | some fd =>
          obtain ⟨high, inside⟩ := sound.fd fd here
          have unregistered : client.events fd = false := by
            rcases gone with impossible | gone
            · simp [closed] at impossible
            · exact gone fd here
          simp only [if_pos high]
          exact
            { closeCb := by simp [none_yet]
              shut := Nat.succ_le_succ shut
              opened := by
                have total := sound.opened
                have some' : 0 < client.fds.length := List.length_pos_of_mem inside
                simp only [List.length_erase_of_mem inside]
                omega
              once := sound.once.erase fd
              events := by
                intro other still
                have different : other ≠ fd := by
                  rintro rfl
                  simp [unregistered] at still
                exact (List.mem_erase_of_ne different).mpr (sound.events other still)
              fd := by simp
              connectedCb := sound.connectedCb }

theorem close_connection_over (client : TcpClient) :
    client.closeConnection.closed = true ∧ client.closeConnection.status = client.status := by
  rw [TcpClient.closeConnection]
  cases closed : client.closed with
  | true => simp [closed]
  | false =>
      simp only [Bool.false_eq_true, if_false, TcpClient.close]
      split
      · simp
      · split <;> simp

theorem on_close_kept (client : TcpClient) (sound : ClientSound client)
    (gone : client.closed = true ∨ client.fd = none ∨ client.Live) : ClientKept client.onClose := by
  have left := leave_sound client sound
  have ended := close_connection_over client.leave
  have status : client.onClose.status = .kTcpConnStatusDisconnected := ended.2
  exact
    { sound := by
        apply close_connection_sound client.leave left
        have frame := leave_frame client
        rcases gone with closed | missing | live
        · exact .inl (by rw [frame]; exact closed)
        · exact .inr (by rw [frame]; simp [missing])
        · refine .inr fun fd here => ?_
          rw [frame] at here
          cases still : client.leave.events fd with
          | false => rfl
          | true => exact absurd here ((leave_events client fd still).2 live)
      live := by simp [TcpClient.Live, status]
      init := by simp [status]
      ended := fun _ => ended.1 }

theorem kept_on_close (client : TcpClient) (kept : ClientKept client) : ClientKept client.onClose := by
  apply on_close_kept client kept.sound
  cases status : client.status with
  | kTcpConnStatusInit => exact .inr (.inl (kept.init status))
  | kTcpConnStatusConnecting => exact .inr (.inr (.inl status))
  | kTcpConnStatusConnected => exact .inr (.inr (.inr status))
  | kTcpConnStatusDisconnected => exact .inl (kept.ended status)

theorem kept_update_status (client : TcpClient) (kept : ClientKept client)
    (connecting : client.status = .kTcpConnStatusConnecting) : ClientKept client.updateConnectionStatus where
  sound :=
    { kept.sound with
      connectedCb := by
        have counted := kept.sound.connectedCb
        simpa [TcpClient.updateConnectionStatus, connecting] using counted }
  live := fun _ => kept.live (.inl connecting)
  init := by simp [TcpClient.updateConnectionStatus]
  ended := by simp [TcpClient.updateConnectionStatus]

def TcpClient.connecting (client : TcpClient) (fd : Nat) : TcpClient :=
  { client with
    fd := some fd
    fds := client.fds ++ [fd]
    created := client.created + 1
    status := .kTcpConnStatusConnecting
    events := Function.update client.events fd true }

theorem kept_connecting (client : TcpClient) (fd : Nat) (kept : ClientKept client) (high : 1 < fd)
    (fresh : fd ∉ client.fds) : ClientKept (client.connecting fd) where
  sound :=
    { closeCb := kept.sound.closeCb
      shut := kept.sound.shut
      opened := by
        have total := kept.sound.opened
        simp only [TcpClient.connecting, List.length_append, List.length_singleton]
        omega
      once := by
        apply List.Nodup.append kept.sound.once (List.nodup_singleton _)
        simpa using fresh
      events := by
        intro other here
        by_cases same : other = fd
        · simp [TcpClient.connecting, same]
        · simp only [TcpClient.connecting, Function.update_of_ne same] at here
          simp [TcpClient.connecting, kept.sound.events other here]
      fd := by simp [TcpClient.connecting, high]
      connectedCb := by
        have counted := kept.sound.connectedCb
        simp only [TcpClient.connecting, if_true]
        omega }
  live := fun _ => ⟨fd, by simp [TcpClient.connecting]⟩
  init := by simp [TcpClient.connecting]
  ended := by simp [TcpClient.connecting]

theorem kept_connect (client : TcpClient) (fd : Option Nat) (result : ConnectResult) (kept : ClientKept client)
    (feasible : Feasible client (.connectInLoop fd result)) : ClientKept (client.connectInLoop fd result) := by
  cases fd with
  | none =>
      apply on_close_kept { client with fd := none } _ (.inr (.inl rfl))
      exact
        { kept.sound with
          fd := by simp }
  | some fd =>
      obtain ⟨high, fresh⟩ := feasible fd rfl
      have made := kept_connecting client fd kept high fresh
      cases result with
      | connected => exact kept_update_status (client.connecting fd) made rfl
      | inProgress => exact made
      | refused => exact kept_on_close (client.connecting fd) made

theorem kept_settle (client : TcpClient) (error : Bool) (kept : ClientKept client)
    (connecting : client.status = .kTcpConnStatusConnecting) :
    ClientKept (if error then client.onClose else client.updateConnectionStatus) := by
  cases error with
  | true => exact kept_on_close client kept
  | false => exact kept_update_status client kept connecting

theorem kept_counts (client : TcpClient) (messages writes : Nat) (taken : List Nat) (kept : ClientKept client) :
    ClientKept { client with messageCb := messages, writes := writes, taken := taken } where
  sound := { kept.sound with }
  live := kept.live
  init := kept.init
  ended := kept.ended

theorem kept_then_close (client : TcpClient) (ends : Bool) (kept : ClientKept client) :
    ClientKept (if ends then client.onClose else client) := by
  cases ends with
  | true => exact kept_on_close client kept
  | false => exact kept

theorem kept_step (client : TcpClient) (event : ClientEvent) (kept : ClientKept client)
    (feasible : Feasible client event) : ClientKept (clientStep client event) := by
  cases event with
  | connectInLoop fd result => exact kept_connect client fd result kept feasible
  | onRead ready error messages ends =>
      simp only [clientStep, TcpClient.onRead]
      split
      · rename_i connecting
        exact kept_settle client error kept connecting
      · rw [TcpClient.readConnection]
        split
        · exact kept
        · exact kept_then_close _ ends (kept_counts client (client.messageCb + messages) client.writes client.taken kept)
      · exact kept
  | onWrite ready error fails =>
      simp only [clientStep, TcpClient.onWrite]
      split
      · rename_i connecting
        exact kept_settle client error kept connecting
      · rw [TcpClient.writeConnection]
        split
        · exact kept
        · exact kept_then_close _ fails (kept_counts client client.messageCb (client.writes + 1) client.taken kept)
      · exact kept
  | onClose => exact kept_on_close client kept
  | send size =>
      simp only [clientStep, TcpClient.send]
      split
      · rw [TcpClient.sendConnection]
        split
        · exact kept
        · exact kept_counts client client.messageCb client.writes (client.taken ++ [size]) kept
      · exact kept

structure Deaf (before after : TcpClient) : Prop where
  closed : after.closed = true
  messageCb : after.messageCb = before.messageCb
  writes : after.writes = before.writes
  taken : after.taken = before.taken
  shut : after.shut = before.shut
  closeCb : after.closeCb = before.closeCb

theorem deaf_refl (client : TcpClient) (closed : client.closed = true) : Deaf client client :=
  ⟨closed, rfl, rfl, rfl, rfl, rfl⟩

theorem deaf_trans {first second third : TcpClient} (left : Deaf first second) (right : Deaf second third) :
    Deaf first third where
  closed := right.closed
  messageCb := right.messageCb.trans left.messageCb
  writes := right.writes.trans left.writes
  taken := right.taken.trans left.taken
  shut := right.shut.trans left.shut
  closeCb := right.closeCb.trans left.closeCb

theorem deaf_on_close (client : TcpClient) (closed : client.closed = true) : Deaf client client.onClose := by
  have still : client.leave.closed = true := by
    rw [leave_frame]
    exact closed
  rw [TcpClient.onClose, TcpClient.closeConnection, if_pos still, leave_frame]
  exact ⟨closed, rfl, rfl, rfl, rfl, rfl⟩

theorem deaf_settle (client : TcpClient) (error : Bool) (closed : client.closed = true) :
    Deaf client (if error then client.onClose else client.updateConnectionStatus) := by
  cases error with
  | true => exact deaf_on_close client closed
  | false => exact ⟨closed, rfl, rfl, rfl, rfl, rfl⟩

theorem deaf_connect (client : TcpClient) (fd : Option Nat) (result : ConnectResult) (closed : client.closed = true) :
    Deaf client (client.connectInLoop fd result) := by
  cases fd with
  | none =>
      have cleared : Deaf client { client with fd := none } := ⟨closed, rfl, rfl, rfl, rfl, rfl⟩
      exact deaf_trans cleared (deaf_on_close { client with fd := none } closed)
  | some fd =>
      have made : Deaf client (client.connecting fd) := ⟨closed, rfl, rfl, rfl, rfl, rfl⟩
      cases result with
      | connected => exact ⟨closed, rfl, rfl, rfl, rfl, rfl⟩
      | inProgress => exact made
      | refused => exact deaf_trans made (deaf_on_close (client.connecting fd) closed)

theorem deaf_step (client : TcpClient) (event : ClientEvent) (closed : client.closed = true) :
    Deaf client (clientStep client event) := by
  cases event with
  | connectInLoop fd result => exact deaf_connect client fd result closed
  | onRead ready error messages ends =>
      simp only [clientStep, TcpClient.onRead, TcpClient.readConnection, if_pos closed]
      split
      · exact deaf_settle client error closed
      · exact deaf_refl client closed
      · exact deaf_refl client closed
  | onWrite ready error fails =>
      simp only [clientStep, TcpClient.onWrite, TcpClient.writeConnection, if_pos closed]
      split
      · exact deaf_settle client error closed
      · exact deaf_refl client closed
      · exact deaf_refl client closed
  | onClose => exact deaf_on_close client closed
  | send size =>
      simp only [clientStep, TcpClient.send, TcpClient.sendConnection, if_pos closed]
      split <;> exact deaf_refl client closed

theorem deaf_run (client : TcpClient) (events : List ClientEvent) (closed : client.closed = true) :
    Deaf client (run clientStep client events) :=
  run_invariant (fun state event deaf => deaf_trans deaf (deaf_step state event deaf.closed)) client
    (deaf_refl client closed) events

theorem client_run (client : TcpClient) (events : List ClientEvent) (kept : ClientKept client)
    (feasible : ∀ pair ∈ met clientStep client events, Feasible pair.1 pair.2) :
    ClientKept (run clientStep client events) := by
  induction events generalizing client with
  | nil => exact kept
  | cons event events ih =>
      simp only [met, List.forall_mem_cons] at feasible
      exact ih (clientStep client event) (kept_step client event kept feasible.1) feasible.2

def firstConnection : List ClientEvent :=
  [.connectInLoop (some 5) .inProgress, .onWrite 5 false false, .send 10, .onRead 5 false 2 true]

def secondConnection : List ClientEvent :=
  [.connectInLoop (some 5) .inProgress, .onWrite 5 false false, .send 10, .onRead 5 false 2 false, .onClose]

end Lssvc.Network
