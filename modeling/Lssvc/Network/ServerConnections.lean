import Mathlib.Data.List.Nodup
import Mathlib.Logic.Function.Basic
import Lssvc.Foundation.Runs
import Lssvc.Network.EventLoop

set_option autoImplicit false

namespace Lssvc.Network

open Lssvc.Foundation

-- fd_ of a connection, which is -1 behind LSSEvent::close, and closed_.
structure Accepted where
  fd : Option Nat
  closed : Bool := false
deriving DecidableEq, Repr

structure Report where
  fd : Nat
  flags : EpollFlags
  owner : Nat
deriving DecidableEq, Repr

-- A report when the loop came to it: whether its connection was open still, whom
-- events_ had for the descriptor, and how many connections there had been at the
-- epoll_wait.
structure Told where
  owner : Nat
  ownerOpen : Bool
  receiver : Option Nat
  since : Nat
deriving DecidableEq, Repr

-- A TcpServer in its loop. Connections are numbered as they are accepted; fds are
-- the descriptors the kernel has open for them. The acceptor's own event is only
-- there in what it accepts.
structure ServerLoop where
  conns : List Accepted := []
  connections : List Nat := []
  events : Nat → Option Nat := fun _ => none
  fds : Nat → Bool := fun _ => false
  batch : List Report := []
  since : Nat := 0
  destroyed : List Nat := []
  told : List Told := []

def ServerLoop.addEvent (s : ServerLoop) (fd id : Nat) : ServerLoop :=
  if s.events fd ≠ none then s else { s with events := Function.update s.events fd (some id) }

-- It looks for the descriptor, whichever event is there.
def ServerLoop.delEvent (s : ServerLoop) (fd : Nat) : ServerLoop :=
  { s with events := Function.update s.events fd none }

def ServerLoop.onAccept (s : ServerLoop) (fd : Nat) : ServerLoop :=
  let conn : Accepted := { fd := some fd }
  let inserted : ServerLoop :=
    { s with
      conns := s.conns ++ [conn]
      connections := s.connections ++ [s.conns.length]
      fds := Function.update s.fds fd true }
  inserted.addEvent fd s.conns.length

-- delEvent of an event without a descriptor finds nothing.
def ServerLoop.onConnectionClose (s : ServerLoop) (id : Nat) (fd : Option Nat) : ServerLoop :=
  let s := { s with connections := s.connections.erase id }
  let s := match fd with
    | some fd => s.delEvent fd
    | none => s
  { s with destroyed := s.destroyed ++ [id] }

-- LSSEvent::close
def ServerLoop.close (s : ServerLoop) (id : Nat) (fd : Option Nat) : ServerLoop :=
  match fd with
  | some fd =>
      if fd > 1 then
        { s with
          conns := s.conns.set id ⟨none, true⟩
          fds := Function.update s.fds fd false }
      else s
  | none => s

def ServerLoop.onClose (s : ServerLoop) (id : Nat) : ServerLoop :=
  match s.conns[id]? with
  | none => s
  | some conn =>
      if conn.closed then s
      else
        let stored : ServerLoop := { s with conns := s.conns.set id { conn with closed := true } }
        (stored.onConnectionClose id conn.fd).close id conn.fd

def ServerLoop.isOpen (s : ServerLoop) (id : Nat) : Bool := (s.conns[id]?.map fun conn => !conn.closed).getD false

-- onError closes as onClose does. What onRead and onWrite lead to are events of
-- their own.
def ServerLoop.handle (s : ServerLoop) (id : Nat) (flags : EpollFlags) : ServerLoop :=
  match dispatch flags with
  | .onError => s.onClose id
  | .onClose => s.onClose id
  | _ => s

def ServerLoop.takes (s : ServerLoop) (report : Report) (batch : List Report) : ServerLoop :=
  let told : Told :=
    { owner := report.owner, ownerOpen := s.isOpen report.owner, receiver := s.events report.fd, since := s.since }
  { s with batch := batch, told := s.told ++ [told] }

-- The next turn of the loop over epoll_events_, for whom events_ has by then.
def ServerLoop.next (s : ServerLoop) : ServerLoop :=
  match s.batch with
  | [] => s
  | report :: batch =>
      match s.events report.fd with
      | none => s.takes report batch
      | some id => (s.takes report batch).handle id report.flags

inductive ServerLoopEvent where
  | onAccept (fd : Nat)
  | onClose (id : Nat)
  | epollWait (reported : List (Nat × EpollFlags))
  | next

def serverLoopStep (s : ServerLoop) : ServerLoopEvent → ServerLoop
  | .onAccept fd => s.onAccept fd
  | .onClose id => s.onClose id
  | .epollWait reported =>
      { s with
        batch := reported.map fun (fd, flags) => { fd := fd, flags := flags, owner := (s.events fd).getD 0 }
        since := s.conns.length }
  | .next => s.next

-- What the kernel keeps to. accept yields a descriptor that is not open, above
-- those of the standard streams; epoll_wait is called behind the batch, and
-- reports what is registered.
def KernelKeeps (s : ServerLoop) : ServerLoopEvent → Prop
  | .onAccept fd => 1 < fd ∧ s.fds fd = false
  | .onClose _ => True
  | .epollWait reported => s.batch = [] ∧ ∀ report ∈ reported, s.events report.1 ≠ none
  | .next => True

structure Tracks (s : ServerLoop) : Prop where
  events : ∀ fd id : Nat, s.events fd = some id ↔ s.conns[id]? = some ({ fd := some fd } : Accepted)
  fds : ∀ fd id, s.events fd = some id → 1 < fd ∧ s.fds fd = true
  registered : ∀ id : Nat, s.conns[id]? ≠ some ({ fd := none } : Accepted)
  connections : ∀ id, id ∈ s.connections ↔ s.isOpen id = true
  connectionsOnce : s.connections.Nodup
  destroyed : ∀ id, id ∈ s.destroyed ↔ id < s.conns.length ∧ s.isOpen id = false
  destroyedOnce : s.destroyed.Nodup

theorem tracks_start : Tracks {} where
  events := by simp
  fds := by simp
  registered := by simp
  connections := by simp [ServerLoop.isOpen]
  connectionsOnce := List.nodup_nil
  destroyed := by simp
  destroyedOnce := List.nodup_nil

theorem tracks_frame (s : ServerLoop) (batch : List Report) (since : Nat) (told : List Told) (tracks : Tracks s) :
    Tracks { s with batch := batch, since := since, told := told } where
  events := tracks.events
  fds := tracks.fds
  registered := tracks.registered
  connections := tracks.connections
  connectionsOnce := tracks.connectionsOnce
  destroyed := tracks.destroyed
  destroyedOnce := tracks.destroyedOnce

theorem is_open_iff (s : ServerLoop) (id : Nat) :
    s.isOpen id = true ↔ ∃ fd, s.conns[id]? = some ({ fd := fd } : Accepted) := by
  rw [ServerLoop.isOpen]
  cases found : s.conns[id]? with
  | none => simp
  | some conn =>
      obtain ⟨fd, closed⟩ := conn
      cases closed <;> simp

theorem tracks_open (s : ServerLoop) (tracks : Tracks s) (id : Nat) :
    s.isOpen id = true ↔ ∃ fd, s.events fd = some id := by
  rw [is_open_iff]
  constructor
  · rintro ⟨fd, found⟩
    cases fd with
    | none => exact absurd found (tracks.registered id)
    | some fd => exact ⟨fd, (tracks.events fd id).mpr found⟩
  · rintro ⟨fd, here⟩
    exact ⟨some fd, (tracks.events fd id).mp here⟩

def ServerLoop.accepted (s : ServerLoop) (fd : Nat) : ServerLoop :=
  { s with
    conns := s.conns ++ [({ fd := some fd } : Accepted)]
    connections := s.connections ++ [s.conns.length]
    events := Function.update s.events fd (some s.conns.length)
    fds := Function.update s.fds fd true }

theorem on_accept_registers (s : ServerLoop) (fd : Nat) (tracks : Tracks s) (fresh : s.fds fd = false) :
    s.onAccept fd = s.accepted fd := by
  have free : s.events fd = none := by
    cases here : s.events fd with
    | none => rfl
    | some id => exact absurd (fresh.symm.trans (tracks.fds fd id here).2) Bool.false_ne_true
  simp [ServerLoop.onAccept, ServerLoop.addEvent, ServerLoop.accepted, free]

theorem open_lt (s : ServerLoop) (id : Nat) (isOpen : s.isOpen id = true) : id < s.conns.length := by
  obtain ⟨fd, found⟩ := (is_open_iff s id).mp isOpen
  exact (List.getElem?_eq_some_iff.mp found).1

theorem accepted_conns (s : ServerLoop) (fd id : Nat) :
    (s.accepted fd).conns[id]? = if id = s.conns.length then some ({ fd := some fd } : Accepted) else s.conns[id]? := by
  simp only [ServerLoop.accepted, List.getElem?_append, List.getElem?_singleton]
  by_cases last : id = s.conns.length
  · simp [last]
  · by_cases before : id < s.conns.length
    · simp [before, last]
    · have behind : id - s.conns.length ≠ 0 := by omega
      simp [before, last, behind]

theorem accepted_open (s : ServerLoop) (fd id : Nat) :
    (s.accepted fd).isOpen id = if id = s.conns.length then true else s.isOpen id := by
  simp only [ServerLoop.isOpen, accepted_conns]
  split <;> rfl

theorem tracks_accepted (s : ServerLoop) (fd : Nat) (tracks : Tracks s) (high : 1 < fd) (fresh : s.fds fd = false) :
    Tracks (s.accepted fd) where
  events := by
    intro other id
    rw [accepted_conns]
    have free : s.conns[s.conns.length]? = none := by simp
    by_cases same : other = fd
    · have none_has : ∀ id : Nat, s.conns[id]? ≠ some ({ fd := some fd } : Accepted) := by
        intro id found
        have named := (tracks.fds fd id ((tracks.events fd id).mpr found)).2
        simp [fresh] at named
      by_cases last : id = s.conns.length
      · simp [ServerLoop.accepted, same, last]
      · simp [ServerLoop.accepted, same, last, none_has id, Ne.symm last]
    · by_cases last : id = s.conns.length
      · have here := tracks.events other s.conns.length
        simp only [free] at here
        simp [ServerLoop.accepted, same, last, here, Ne.symm same]
      · simpa [ServerLoop.accepted, same, last] using tracks.events other id
  fds := by
    intro other id
    by_cases same : other = fd
    · simp [ServerLoop.accepted, same, high]
    · simpa [ServerLoop.accepted, same] using tracks.fds other id
  registered := by
    intro id
    rw [accepted_conns]
    split
    · simp
    · exact tracks.registered id
  connections := by
    intro id
    simp only [accepted_open]
    by_cases last : id = s.conns.length
    · simp [ServerLoop.accepted, last]
    · simpa [ServerLoop.accepted, last] using tracks.connections id
  connectionsOnce := by
    have outside : s.conns.length ∉ s.connections := fun inside =>
      Nat.lt_irrefl _ (open_lt s _ ((tracks.connections _).mp inside))
    simp only [ServerLoop.accepted]
    apply List.Nodup.append tracks.connectionsOnce (List.nodup_singleton _)
    simpa using outside
  destroyed := by
    intro id
    simp only [accepted_open]
    have lengths : (s.accepted fd).conns.length = s.conns.length + 1 := by simp [ServerLoop.accepted]
    have same : (s.accepted fd).destroyed = s.destroyed := rfl
    rw [lengths, same, tracks.destroyed id]
    by_cases last : id = s.conns.length
    · simp [last]
    · have bound : id < s.conns.length + 1 ↔ id < s.conns.length := by omega
      simp [last, bound]
  destroyedOnce := tracks.destroyedOnce

def ServerLoop.closedAt (s : ServerLoop) (id fd : Nat) : ServerLoop :=
  { s with
    conns := s.conns.set id { fd := none, closed := true }
    connections := s.connections.erase id
    events := Function.update s.events fd none
    fds := Function.update s.fds fd false
    destroyed := s.destroyed ++ [id] }

theorem on_close_open (s : ServerLoop) (id fd : Nat) (tracks : Tracks s) (here : s.events fd = some id) :
    s.onClose id = s.closedAt id fd := by
  have found := (tracks.events fd id).mp here
  have high := (tracks.fds fd id here).1
  simp [ServerLoop.onClose, found, ServerLoop.onConnectionClose, ServerLoop.delEvent, ServerLoop.close,
    high, ServerLoop.closedAt]

theorem on_close_closed (s : ServerLoop) (id : Nat) (gone : s.isOpen id = false) : s.onClose id = s := by
  rw [ServerLoop.onClose]
  cases found : s.conns[id]? with
  | none => rfl
  | some conn =>
      have closed : conn.closed = true := by simpa [ServerLoop.isOpen, found] using gone
      simp [closed]

theorem closed_conns (s : ServerLoop) (id fd other : Nat) (present : id < s.conns.length) :
    (s.closedAt id fd).conns[other]? =
      if other = id then some ({ fd := none, closed := true } : Accepted) else s.conns[other]? := by
  simp only [ServerLoop.closedAt, List.getElem?_set]
  by_cases same : id = other
  · simp [same, same ▸ present]
  · simp [same, Ne.symm same]

theorem closed_open (s : ServerLoop) (id fd other : Nat) (present : id < s.conns.length) :
    (s.closedAt id fd).isOpen other = if other = id then false else s.isOpen other := by
  simp only [ServerLoop.isOpen, closed_conns s id fd other present]
  split <;> rfl

theorem tracks_closed (s : ServerLoop) (id fd : Nat) (tracks : Tracks s) (here : s.events fd = some id) :
    Tracks (s.closedAt id fd) := by
  have isOpen : s.isOpen id = true := (tracks_open s tracks id).mpr ⟨fd, here⟩
  have present := open_lt s id isOpen
  have lengths : (s.closedAt id fd).conns.length = s.conns.length := by simp [ServerLoop.closedAt]
  exact
    { events := by
        intro other owner
        rw [closed_conns s id fd owner present]
        have found := (tracks.events fd id).mp here
        by_cases same : other = fd
        · have others : s.conns[owner]? = some ({ fd := some fd } : Accepted) → owner = id := fun there =>
            Option.some.inj (((tracks.events fd owner).mpr there).symm.trans here)
          by_cases gone : owner = id
          · simp [ServerLoop.closedAt, same, gone]
          · have not_there : s.conns[owner]? ≠ some ({ fd := some fd } : Accepted) := fun there => gone (others there)
            simp [ServerLoop.closedAt, same, gone, not_there]
        · by_cases gone : owner = id
          · have other_fd : s.events other ≠ some id := by
              intro there
              have both := (tracks.events other id).mp there
              rw [found] at both
              simp at both
              exact same both.symm
            simp [ServerLoop.closedAt, same, gone, other_fd]
          · simpa [ServerLoop.closedAt, same, gone] using tracks.events other owner
      fds := by
        intro other owner
        by_cases same : other = fd
        · simp [ServerLoop.closedAt, same]
        · simpa [ServerLoop.closedAt, same] using tracks.fds other owner
      registered := by
        intro other
        rw [closed_conns s id fd other present]
        split
        · simp
        · exact tracks.registered other
      connections := by
        intro other
        rw [closed_open s id fd other present]
        have kept : (s.closedAt id fd).connections = s.connections.erase id := rfl
        rw [kept, List.Nodup.mem_erase_iff tracks.connectionsOnce, tracks.connections other]
        by_cases gone : other = id <;> simp [gone]
      connectionsOnce := tracks.connectionsOnce.erase id
      destroyed := by
        intro other
        rw [closed_open s id fd other present, lengths]
        have told : (s.closedAt id fd).destroyed = s.destroyed ++ [id] := rfl
        rw [told, List.mem_append, List.mem_singleton, tracks.destroyed other]
        by_cases gone : other = id <;> simp [gone, present]
      destroyedOnce := by
        have outside : id ∉ s.destroyed := by simp [tracks.destroyed id, isOpen]
        apply List.Nodup.append tracks.destroyedOnce (List.nodup_singleton _)
        simpa using outside }

structure Batched (s : ServerLoop) (report : Report) : Prop where
  before : report.owner < s.since
  held : s.isOpen report.owner = true → s.events report.fd = some report.owner
  reused : ∀ id, s.events report.fd = some id → id = report.owner ∨ s.since ≤ id

structure Straight (told : Told) : Prop where
  owner : told.receiver = some told.owner ↔ told.ownerOpen = true
  reused : ∀ id, told.receiver = some id → id = told.owner ∨ told.since ≤ id

structure Serves (s : ServerLoop) : Prop where
  tracks : Tracks s
  since : s.since ≤ s.conns.length
  batched : ∀ report ∈ s.batch, Batched s report
  told : ∀ told ∈ s.told, Straight told

theorem batched_accepted (s : ServerLoop) (fd : Nat) (report : Report) (serves : Serves s) (fresh : s.fds fd = false)
    (batched : Batched s report) : Batched (s.accepted fd) report where
  before := batched.before
  held := by
    have old : report.owner ≠ s.conns.length := Nat.ne_of_lt (Nat.lt_of_lt_of_le batched.before serves.since)
    simp only [accepted_open, if_neg old]
    intro isOpen
    have here := batched.held isOpen
    have other : report.fd ≠ fd := by
      intro same
      have named := (serves.tracks.fds report.fd report.owner here).2
      simp [same, fresh] at named
    simpa [ServerLoop.accepted, other] using here
  reused := by
    intro id
    by_cases same : report.fd = fd
    · simp only [ServerLoop.accepted, same, Function.update_self, Option.some.injEq]
      rintro rfl
      exact .inr serves.since
    · simpa [ServerLoop.accepted, same] using batched.reused id

theorem batched_closed (s : ServerLoop) (id fd : Nat) (report : Report) (present : id < s.conns.length)
    (here : s.events fd = some id) (batched : Batched s report) :
    Batched (s.closedAt id fd) report where
  before := batched.before
  held := by
    rw [closed_open s id fd report.owner present]
    intro isOpen
    have other_owner : report.owner ≠ id := by
      intro same
      simp [same] at isOpen
    have there := batched.held (by simpa [other_owner] using isOpen)
    have other : report.fd ≠ fd := by
      intro same
      rw [same, here] at there
      exact other_owner (Option.some.inj there).symm
    simpa [ServerLoop.closedAt, other] using there
  reused := by
    intro other
    by_cases same : report.fd = fd
    · simp [ServerLoop.closedAt, same]
    · simpa [ServerLoop.closedAt, same] using batched.reused other

theorem serves_on_close (s : ServerLoop) (id : Nat) (serves : Serves s) : Serves (s.onClose id) := by
  cases isOpen : s.isOpen id with
  | false => rwa [on_close_closed s id isOpen]
  | true =>
      obtain ⟨fd, here⟩ := (tracks_open s serves.tracks id).mp isOpen
      have present := open_lt s id isOpen
      rw [on_close_open s id fd serves.tracks here]
      exact
        { tracks := tracks_closed s id fd serves.tracks here
          since := by simpa [ServerLoop.closedAt] using serves.since
          batched := fun report waiting =>
            batched_closed s id fd report present here (serves.batched report waiting)
          told := serves.told }

theorem serves_on_accept (s : ServerLoop) (fd : Nat) (serves : Serves s) (high : 1 < fd) (fresh : s.fds fd = false) :
    Serves (s.onAccept fd) := by
  rw [on_accept_registers s fd serves.tracks fresh]
  exact
    { tracks := tracks_accepted s fd serves.tracks high fresh
      since := by
        have since := serves.since
        simp only [ServerLoop.accepted, List.length_append, List.length_singleton]
        omega
      batched := fun report waiting => batched_accepted s fd report serves fresh (serves.batched report waiting)
      told := serves.told }

theorem serves_handle (s : ServerLoop) (id : Nat) (flags : EpollFlags) (serves : Serves s) :
    Serves (s.handle id flags) := by
  rw [ServerLoop.handle]
  split
  · exact serves_on_close s id serves
  · exact serves_on_close s id serves
  · exact serves

theorem serves_takes (s : ServerLoop) (report : Report) (batch : List Report) (serves : Serves s)
    (waiting : s.batch = report :: batch) : Serves (s.takes report batch) := by
  have batched := serves.batched report (by simp [waiting])
  exact
    { tracks := tracks_frame s batch s.since _ serves.tracks
      since := serves.since
      batched := by
        intro other later
        have still := serves.batched other (waiting ▸ List.mem_cons_of_mem report later)
        exact { before := still.before, held := still.held, reused := still.reused }
      told := by
        intro told looked
        simp only [ServerLoop.takes, List.mem_append, List.mem_singleton] at looked
        rcases looked with earlier | rfl
        · exact serves.told told earlier
        · exact
            { owner := ⟨fun here => (tracks_open s serves.tracks report.owner).mpr ⟨report.fd, here⟩, batched.held⟩
              reused := batched.reused } }

theorem serves_next (s : ServerLoop) (serves : Serves s) : Serves s.next := by
  rw [ServerLoop.next]
  cases waiting : s.batch with
  | nil => exact serves
  | cons report batch =>
      have taken := serves_takes s report batch serves waiting
      dsimp only
      split
      · exact taken
      · exact serves_handle _ _ report.flags taken

theorem serves_epoll_wait (s : ServerLoop) (reported : List (Nat × EpollFlags)) (serves : Serves s)
    (registered : ∀ report ∈ reported, s.events report.1 ≠ none) :
    Serves (serverLoopStep s (.epollWait reported)) where
  tracks := tracks_frame s _ s.conns.length s.told serves.tracks
  since := Nat.le_refl _
  batched := by
    intro report waiting
    simp only [serverLoopStep, List.mem_map] at waiting
    obtain ⟨⟨fd, flags⟩, inside, rfl⟩ := waiting
    obtain ⟨id, here⟩ := Option.ne_none_iff_exists'.mp (registered _ inside)
    have isOpen := (tracks_open s serves.tracks id).mpr ⟨fd, here⟩
    exact
      { before := by simpa [serverLoopStep, here] using open_lt s id isOpen
        held := by simp [serverLoopStep, here]
        reused := by simp [serverLoopStep, here] }
  told := serves.told

theorem serves_step (s : ServerLoop) (event : ServerLoopEvent) (serves : Serves s) (keeps : KernelKeeps s event) :
    Serves (serverLoopStep s event) := by
  cases event with
  | onAccept fd => exact serves_on_accept s fd serves keeps.1 keeps.2
  | onClose id => exact serves_on_close s id serves
  | epollWait reported => exact serves_epoll_wait s reported serves keeps.2
  | next => exact serves_next s serves

theorem serves_start : Serves {} where
  tracks := tracks_start
  since := Nat.le_refl _
  batched := by simp
  told := by simp

theorem run_serves (s : ServerLoop) (serves : Serves s) (events : List ServerLoopEvent)
    (keeps : ∀ pair ∈ met serverLoopStep s events, KernelKeeps pair.1 pair.2) : Serves (run serverLoopStep s events) := by
  induction events generalizing s with
  | nil => exact serves
  | cons event events ih =>
      simp only [met, List.forall_mem_cons] at keeps
      exact ih (serverLoopStep s event) (serves_step s event serves keeps.1) keeps.2

theorem tracks_partition (s : ServerLoop) (tracks : Tracks s) :
    (s.connections ++ s.destroyed).Perm (List.range s.conns.length) := by
  have apart : ∀ id ∈ s.connections, id ∉ s.destroyed := by
    intro id open'
    simp [tracks.destroyed id, (tracks.connections id).mp open']
  have once : (s.connections ++ s.destroyed).Nodup := by
    apply List.Nodup.append tracks.connectionsOnce tracks.destroyedOnce
    exact List.disjoint_left.mpr fun id => apart id
  apply (List.perm_ext_iff_of_nodup once List.nodup_range).mpr
  intro id
  simp only [List.mem_append, List.mem_range, tracks.connections id, tracks.destroyed id]
  constructor
  · rintro (isOpen | ⟨present, _⟩)
    · exact open_lt s id isOpen
    · exact present
  · intro present
    cases s.isOpen id <;> simp [present]

instance (s : ServerLoop) (event : ServerLoopEvent) : Decidable (KernelKeeps s event) :=
  match event with
  | .onAccept fd => inferInstanceAs (Decidable (1 < fd ∧ s.fds fd = false))
  | .onClose _ => inferInstanceAs (Decidable True)
  | .epollWait reported =>
      inferInstanceAs (Decidable (s.batch = [] ∧ ∀ report ∈ reported, s.events report.1 ≠ none))
  | .next => inferInstanceAs (Decidable True)

theorem server_connections_served (events : List ServerLoopEvent)
    (keeps : ∀ pair ∈ met serverLoopStep {} events, KernelKeeps pair.1 pair.2) :
    ((run serverLoopStep {} events).connections ++ (run serverLoopStep {} events).destroyed).Perm
        (List.range (run serverLoopStep {} events).conns.length) ∧
      (∀ id, id ∈ (run serverLoopStep {} events).connections ↔
        ∃ fd, (run serverLoopStep {} events).events fd = some id) ∧
      (∀ fd id, (run serverLoopStep {} events).events fd = some id ↔
        (run serverLoopStep {} events).conns[id]? = some ({ fd := some fd } : Accepted)) ∧
      ∀ told ∈ (run serverLoopStep {} events).told,
        (told.receiver = some told.owner ↔ told.ownerOpen = true) ∧
          ∀ id, told.receiver = some id → id = told.owner ∨ told.since ≤ id := by
  have serves := run_serves {} serves_start events keeps
  generalize run serverLoopStep {} events = s at serves
  have tracks := serves.tracks
  refine ⟨tracks_partition s tracks, ?_, tracks.events, ?_⟩
  · intro id
    rw [tracks.connections id, tracks_open s tracks id]
  · intro told looked
    exact ⟨(serves.told told looked).owner, (serves.told told looked).reused⟩

-- Two peers hang up; the first report's callbacks close the second connection as
-- well, its descriptor is accepted again, and the second report closes that one.
def reusedDescriptor : List ServerLoopEvent :=
  [.onAccept 5, .onAccept 6, .epollWait [(5, { hup := true }), (6, { hup := true })], .next, .onClose 1, .onAccept 6,
    .next]

theorem server_connections_served_reused :
    ((run serverLoopStep {} reusedDescriptor).connections ++ (run serverLoopStep {} reusedDescriptor).destroyed).Perm
        (List.range 3) ∧
      (run serverLoopStep {} reusedDescriptor).told.getLast?.map Told.receiver = some (some 2) := by
  have served := server_connections_served reusedDescriptor (by decide)
  exact ⟨served.1, by decide⟩

end Lssvc.Network
