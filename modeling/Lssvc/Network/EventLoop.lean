import Mathlib.Algebra.GroupWithZero.Nat

set_option autoImplicit false

namespace Lssvc.Network

structure EpollFlags where
  err : Bool := false
  hup : Bool := false
  pri : Bool := false
  input : Bool := false
  output : Bool := false
deriving DecidableEq, Repr

inductive EventHandler where
  | onError
  | onClose
  | onRead
  | onWrite
  | nothing
deriving DecidableEq, Repr

-- The tests of LSSEventLoop::loop, of which only the first that holds counts.
def dispatch (ev : EpollFlags) : EventHandler :=
  if ev.err then .onError
  else if ev.hup && !ev.input then .onClose
  else if ev.input || ev.pri then .onRead
  else if ev.output then .onWrite
  else .nothing

-- An open connection with its socket: the lengths in io_vec_list_, the bytes the
-- socket still takes, whether it has data, whether event_ has EPOLLOUT, and
-- whether an edge is pending. In a loop that never ends it is spinning.
structure TcpConnection where
  ioVecList : List Nat := []
  room : Nat
  readable : Bool
  wantsWrite : Bool := false
  pending : Bool
  spinning : Bool := false
deriving DecidableEq, Repr

-- addEvent asks for EPOLLIN only.
def TcpConnection.fresh (room : Nat) (readable : Bool) : TcpConnection :=
  { room := room, readable := readable, pending := readable }

def TcpConnection.flags (conn : TcpConnection) : EpollFlags :=
  { input := conn.readable, output := conn.wantsWrite && decide (0 < conn.room) }

-- EPOLL_CTL_MOD looks at the socket again.
def TcpConnection.enableWriting (conn : TcpConnection) (en : Bool) : TcpConnection :=
  { conn with
    wantsWrite := en
    pending := conn.pending || conn.readable || (en && decide (0 < conn.room)) }

def TcpConnection.sendList (conn : TcpConnection) (sizes : List Nat) : TcpConnection :=
  let conn := { conn with ioVecList := conn.ioVecList ++ sizes }
  if conn.ioVecList ≠ [] then conn.enableWriting true else conn

def TcpConnection.append (conn : TcpConnection) (size : Nat) : TcpConnection :=
  { conn with ioVecList := conn.ioVecList ++ [size] }.enableWriting true

-- send_len is unsigned: where write fails with EAGAIN it is -1, and one byte more
-- than there is stays to be sent.
def TcpConnection.sendBytes (conn : TcpConnection) (size : Nat) : TcpConnection :=
  if conn.ioVecList = [] then
    if conn.room = 0 ∧ size ≠ 0 then conn.append (size + 1)
    else if size ≤ conn.room then { conn with room := conn.room - size }
    else { conn with room := 0 }.append (size - conn.room)
  else if size > 0 then conn.append size
  else conn

-- `while (ret > 0)`
def eraseWritten : Nat → List Nat → List Nat
  | _, [] => []
  | ret, len :: list =>
      if ret = 0 then len :: list
      else if len > ret then (len - ret) :: list
      else eraseWritten (ret - len) list

-- A writev of a socket that works, with no more entries than IOV_MAX: neither an
-- error other than EAGAIN nor EINVAL, on which onWrite closes the connection.
def TcpConnection.writev (conn : TcpConnection) : TcpConnection :=
  let ret := min conn.room conn.ioVecList.sum
  { conn with ioVecList := eraseWritten ret conn.ioVecList, room := conn.room - ret }

def TcpConnection.arrive (conn : TcpConnection) : TcpConnection := { conn with readable := true, pending := true }

-- The peer takes n + 1 bytes, which is an edge where the socket was full.
def TcpConnection.drain (conn : TcpConnection) (n : Nat) : TcpConnection :=
  { conn with
    room := conn.room + (n + 1)
    pending := conn.pending || (conn.wantsWrite && decide (conn.room = 0)) }

-- The calls of writev until one fails with EAGAIN, with what the peer takes in
-- between.
def TcpConnection.writeLoop : TcpConnection → List Nat → TcpConnection
  | conn, [] => conn.writev
  | conn, n :: taken => if conn.writev.ioVecList = [] then conn.writev else (conn.writev.drain n).writeLoop taken

inductive ConnAction where
  | send (sizes : List Nat)
  | sendBytes (size : Nat)
  | arrive
  | drain (n : Nat)
deriving DecidableEq, Repr

def TcpConnection.act (conn : TcpConnection) : ConnAction → TcpConnection
  | .send sizes => conn.sendList sizes
  | .sendBytes size => conn.sendBytes size
  | .arrive => conn.arrive
  | .drain n => conn.drain n

def TcpConnection.acts (conn : TcpConnection) (during : List ConnAction) : TcpConnection :=
  during.foldl TcpConnection.act conn

-- It reads until EAGAIN; its callbacks send.
def TcpConnection.onRead (conn : TcpConnection) (during : List ConnAction) : TcpConnection :=
  { conn.acts during with readable := false }

-- What is left after the last EAGAIN has a length, or writev goes on writing
-- nothing.
def TcpConnection.onWrite (conn : TcpConnection) (taken : List Nat) (during : List ConnAction) : TcpConnection :=
  if conn.ioVecList ≠ [] then
    let conn := conn.writeLoop taken
    if conn.ioVecList = [] then (conn.enableWriting false).acts during
    else if conn.ioVecList.sum = 0 then { conn with spinning := true }
    else conn
  else (conn.enableWriting false).acts during

inductive LoopEvent where
  | action (action : ConnAction)
  | epollWait (taken : List Nat) (during : List ConnAction)
deriving DecidableEq, Repr

-- epoll_wait hands the edge out once, with all the flags that are up by then.
def TcpConnection.epollWait (conn : TcpConnection) (taken : List Nat) (during : List ConnAction) : TcpConnection :=
  if conn.pending then
    let next := { conn with pending := false }
    match dispatch conn.flags with
    | .onRead => next.onRead during
    | .onWrite => next.onWrite taken during
    | _ => next
  else conn

def loopStep (conn : TcpConnection) (event : LoopEvent) : TcpConnection :=
  if conn.spinning then conn
  else
    match event with
    | .action action => conn.act action
    | .epollWait taken during => conn.epollWait taken during

end Lssvc.Network
