import Lssvc.Live.Session
import Lssvc.Mmedia.Packet

set_option autoImplicit false

namespace Lssvc.Live

open Lssvc.Foundation Lssvc.Mmedia Lssvc.Utils

inductive ServiceCall where
  | forceClose (conn : Nat)
  | user (call : UserCall)
  | addPacket (session : Nat) (packet : Packet)
deriving DecidableEq, Repr

-- The heap of users and sessions, of which sessions_ names the open ones, and
-- kUserContext of every connection.
structure LiveService where
  users : Nat → LiveUser
  nextUser : Nat
  sessions : Nat → LiveSession
  nextSession : Nat
  names : Str → Option Nat
  contexts : Nat → Option Nat
  calls : List ServiceCall

def LiveService.fresh : LiveService where
  users := fun _ => ⟨.kUserTypeUnknown, 0, 0, false⟩
  nextUser := 0
  sessions := fun _ => { sessionName := [] }
  nextSession := 0
  names := fun _ => none
  contexts := fun _ => none
  calls := []

def LiveService.call (svc : LiveService) (call : ServiceCall) : LiveService := { svc with calls := svc.calls ++ [call] }

def LiveService.setContext (svc : LiveService) (conn user : Nat) : LiveService :=
  { svc with contexts := Function.update svc.contexts conn (some user) }

def LiveService.clearContext (svc : LiveService) (conn : Nat) : LiveService :=
  { svc with contexts := Function.update svc.contexts conn none }

def LiveService.state (svc : LiveService) (session : Nat) : SessionState := ⟨svc.sessions session, svc.users, []⟩

def LiveService.store (svc : LiveService) (session : Nat) (s : SessionState) : LiveService :=
  { svc with
    users := s.users
    sessions := Function.update svc.sessions session s.session
    calls := svc.calls ++ s.calls.map .user }

def LiveService.addSession (svc : LiveService) (sessionName : Str) : LiveService :=
  { svc with
    sessions := Function.update svc.sessions svc.nextSession { sessionName := sessionName }
    nextSession := svc.nextSession + 1
    names := Function.update svc.names sessionName (some svc.nextSession) }

def LiveService.addUser (svc : LiveService) (session conn : Nat) (type : UserType) : LiveService :=
  { svc with
    users := Function.update svc.users svc.nextUser ⟨type, conn, session, false⟩
    nextUser := svc.nextUser + 1 }.setContext conn svc.nextUser

section

-- config->getAppInfo(domain, app) finds something.
variable (hasApp : Str → Str → Bool)

def createSession (svc : LiveService) (sessionName : Str) : LiveService × Option Nat :=
  match svc.names sessionName with
  | some session => (svc, some session)
  | none =>
      match split sessionName ['/'] false with
      | [domain, app, _] =>
          if hasApp domain app then (svc.addSession sessionName, some svc.nextSession) else (svc, none)
      | _ => (svc, none)

-- createPublisher and createPlayerUser, which differ in the class of the user.
def createUser (svc : LiveService) (session conn : Nat) (sessionName : Str) (type : UserType) :
    LiveService × Option Nat :=
  if sessionName ≠ (svc.sessions session).sessionName then (svc, none)
  else if (split sessionName ['/'] false).length ≠ 3 then (svc, none)
  else (svc.addUser session conn type, some svc.nextUser)

def createPublisher (svc : LiveService) (session conn : Nat) (sessionName : Str) : LiveService × Option Nat :=
  createUser svc session conn sessionName .kUserTypePublishRtmp

def createPlayerUser (svc : LiveService) (session conn : Nat) (sessionName : Str) : LiveService × Option Nat :=
  createUser svc session conn sessionName .kUserTypePlayerRtmp

def onPlay (svc : LiveService) (conn : Nat) (sessionName : Str) : LiveService :=
  match createSession hasApp svc sessionName with
  | (svc, none) => svc.call (.forceClose conn)
  | (svc, some session) =>
      match createPlayerUser svc session conn sessionName with
      | (svc, none) => svc.call (.forceClose conn)
      | (svc, some user) =>
          let svc := svc.setContext conn user
          svc.store session (addPlayer (svc.state session) user)

def onPublish (svc : LiveService) (conn : Nat) (sessionName : Str) : LiveService :=
  match createSession hasApp svc sessionName with
  | (svc, none) => svc.call (.forceClose conn)
  | (svc, some session) =>
      match createPublisher svc session conn sessionName with
      | (svc, none) => svc.call (.forceClose conn)
      | (svc, some user) =>
          let svc := svc.setContext conn user
          svc.store session (setPublisher (svc.state session) user)

def onRecv (svc : LiveService) (conn : Nat) (packet : Packet) : LiveService :=
  match svc.contexts conn with
  | none => svc.call (.forceClose conn)
  | some user => svc.call (.addPacket (svc.users user).session packet)

def onConnectionDestroy (svc : LiveService) (conn : Nat) : LiveService :=
  match svc.contexts conn with
  | none => svc
  | some user => svc.store (svc.users user).session (closeUser (svc.state (svc.users user).session) user)

-- RtmpServer::onDestroyed.
def onDestroyed (svc : LiveService) (conn : Nat) : LiveService := (onConnectionDestroy svc conn).clearContext conn

def closeSession (svc : LiveService) (sessionName : Str) : LiveService :=
  match svc.names sessionName with
  | none => svc
  | some session =>
      let svc := { svc with names := Function.update svc.names sessionName none }
      svc.store session (clear (svc.state session))

inductive ServiceEvent where
  | onPlay (conn : Nat) (sessionName : Str)
  | onPublish (conn : Nat) (sessionName : Str)
  | onRecv (conn : Nat) (packet : Packet)
  | onConnectionDestroy (conn : Nat)
  | closeSession (sessionName : Str)
deriving DecidableEq, Repr

def serviceStep (svc : LiveService) : ServiceEvent → LiveService
  | .onPlay conn sessionName => onPlay hasApp svc conn sessionName
  | .onPublish conn sessionName => onPublish hasApp svc conn sessionName
  | .onRecv conn packet => onRecv svc conn packet
  | .onConnectionDestroy conn => onDestroyed svc conn
  | .closeSession sessionName => closeSession svc sessionName

end

end Lssvc.Live
