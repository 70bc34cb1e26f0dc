import Lssvc.Mmedia.Acknowledgements
import Lssvc.Mmedia.Dialogue

set_option autoImplicit false

namespace Lssvc.Mmedia

open Lssvc.Foundation Lssvc.Utils

-- One end of a connection: the pipe its messages go out on, its context, and what
-- parse keeps of the bytes that came in.
structure Side where
  pipe : Pipe := {}
  state : Except ContextFault RtmpContext
  inBytes : Int := 0
  lastLeft : Int := 0

def Side.push (side : Side) (packet : Packet) : Side := { side with pipe := pipeStep side.pipe (.pushOutQueue packet) }

def Side.pushAll (side : Side) (packets : List Packet) : Side := packets.foldl Side.push side

-- What parseMessage does before its loop, sendBytesRecv included.
def Side.count (side : Side) (readable : Nat) : Side :=
  match side.state with
  | .error _ => side
  | .ok ctx =>
      let side := { side with inBytes := toInt32 (side.inBytes + (readable - side.lastLeft)) }
      if ctx.ackSize ≤ side.inBytes then
        { side.push (controlPacket kRtmpMsgTypeBytesRead
            (overwrite controlData 0 (writeUint32T (toUint32 side.inBytes))) 4) with
          inBytes := 0 }
      else side

-- A message is handled inside the loop; what its handler sends is queued at once.
def Side.complete (side : Side) (data : Packet) : Side :=
  { side with state := (completeAt side.state data).1 }.pushAll (completeAt side.state data).2

def readSide (sayer hearer : Side) (n : Nat) : Side × Side :=
  if sayer.pipe.wire.take n = [] then (sayer, hearer)
  else
    let pipe := pipeStep sayer.pipe (.readFd n)
    let hearer := hearer.count (sayer.pipe.incoming.buf ++ sayer.pipe.wire.take n).length
    let fresh := pipe.incoming.messages.drop sayer.pipe.incoming.messages.length
    ({ sayer with pipe := pipe },
      { fresh.foldl Side.complete hearer with lastLeft := toInt32 pipe.incoming.buf.length })

structure Duplex where
  client : Side
  server : Side

inductive KernelMove where
  | writev (ret : Nat)
  | readFd (n : Nat)

def duplexStep (s : Duplex) : Delivery × KernelMove → Duplex
  | (.toRight, .writev ret) => { s with client := { s.client with pipe := pipeStep s.client.pipe (.writev ret) } }
  | (.toLeft, .writev ret) => { s with server := { s.server with pipe := pipeStep s.server.pipe (.writev ret) } }
  | (.toRight, .readFd n) =>
      let (client, server) := readSide s.client s.server n
      { client := client, server := server }
  | (.toLeft, .readFd n) =>
      let (server, client) := readSide s.server s.client n
      { client := client, server := server }

-- Behind the handshake, when the client has sent its connect.
def opened (party : Party (Except ContextFault RtmpContext) Packet Packet) : Side :=
  { state := party.start : Side }.pushAll party.opening

theorem push_all_frame (packets : List Packet) (side : Side) :
    (side.pushAll packets).state = side.state ∧ (side.pushAll packets).inBytes = side.inBytes ∧
      (side.pushAll packets).lastLeft = side.lastLeft ∧
      (side.pushAll packets).pipe.incoming = side.pipe.incoming ∧
      (side.pushAll packets).pipe.pieces = side.pipe.pieces ∧ (side.pushAll packets).pipe.wire = side.pipe.wire := by
  induction packets generalizing side with
  | nil => exact ⟨rfl, rfl, rfl, rfl, rfl, rfl⟩
  | cons packet packets ih => exact ih (side.push packet)

structure SameTail (s t : Pipe) : Prop where
  incoming : s.incoming = t.incoming
  pieces : s.pieces = t.pieces
  wire : s.wire = t.wire

theorem complete_all_frame (messages : List Packet) (side : Side) :
    (messages.foldl Side.complete side).inBytes = side.inBytes ∧
      SameTail (messages.foldl Side.complete side).pipe side.pipe := by
  induction messages generalizing side with
  | nil => exact ⟨rfl, rfl, rfl, rfl⟩
  | cons data messages ih =>
      obtain ⟨inBytes, tail⟩ := ih (side.complete data)
      obtain ⟨_, pushedBytes, _, pushedIncoming, pushedPieces, pushedWire⟩ := push_all_frame (completeAt side.state data).2
        { side with state := (completeAt side.state data).1 }
      exact ⟨inBytes.trans pushedBytes, tail.incoming.trans pushedIncoming, tail.pieces.trans pushedPieces,
        tail.wire.trans pushedWire⟩

theorem count_frame (side : Side) (readable : Nat) : SameTail (side.count readable).pipe side.pipe := by
  rw [Side.count]
  split
  · exact ⟨rfl, rfl, rfl⟩
  · dsimp only
    split
    · exact ⟨rfl, rfl, rfl⟩
    · exact ⟨rfl, rfl, rfl⟩

theorem push_all_carried (packets : List Packet) (side : Side) (carried : ∃ built, Carrying side.pipe built)
    (carriable : ∀ packet ∈ packets, Carriable (queued packet)) :
    (∃ built, Carrying (side.pushAll packets).pipe built) ∧
      (side.pushAll packets).pipe.submitted = side.pipe.submitted ++ packets.map queued := by
  induction packets generalizing side with
  | nil => exact ⟨carried, (List.append_nil _).symm⟩
  | cons packet packets ih =>
      obtain ⟨now, later⟩ := List.forall_mem_cons.mp carriable
      obtain ⟨built, carrying⟩ := carried
      obtain ⟨carriedAll, submitted⟩ := ih (side.push packet) (carrying_push side.pipe built packet now carrying) later
      refine ⟨carriedAll, submitted.trans ?_⟩
      exact List.append_assoc _ _ _

structure SideAt (party : Party (Except ContextFault RtmpContext) Packet Packet) (side : Side) (told : List Packet) :
    Prop where
  carried : ∃ built, Carrying side.pipe built
  submitted : side.pipe.submitted = (party.said told).map queued
  state : side.state = party.stateAfter told

def arrivedAll (told : List Packet) : List Packet := told.map fun packet => (queued packet).arrived

theorem side_hears (party : Party (Except ContextFault RtmpContext) Packet Packet) (reacts : party.react = reactTo)
    (more : List Packet) (side : Side) (told : List Packet) (sideAt : SideAt party side told)
    (carriable : ∀ packet ∈ party.said (told ++ more), Carriable (queued packet)) :
    SideAt party ((arrivedAll more).foldl Side.complete side) (told ++ more) := by
  induction more generalizing side told with
  | nil =>
      rw [List.append_nil]
      exact sideAt
  | cons packet more ih =>
      have front : party.said (told ++ [packet]) <+: party.said (told ++ packet :: more) :=
        said_front party ⟨more, by rw [List.append_assoc]; rfl⟩
      have said := said_append party told [packet]
      rw [Party.replies, Party.replies, List.append_nil, reacts, ← sideAt.state] at said
      have here : ∀ reply ∈ (completeAt side.state (queued packet).arrived).2, Carriable (queued reply) := fun reply inside =>
        carriable reply (front.subset (said ▸ List.mem_append_right _ inside))
      obtain ⟨carried, submitted⟩ := push_all_carried (completeAt side.state (queued packet).arrived).2
        { side with state := (completeAt side.state (queued packet).arrived).1 } sideAt.carried here
      obtain ⟨state, _⟩ := push_all_frame (completeAt side.state (queued packet).arrived).2
        { side with state := (completeAt side.state (queued packet).arrived).1 }
      have next : SideAt party (side.complete (queued packet).arrived) (told ++ [packet]) := by
        refine ⟨carried, submitted.trans ?_, state.trans ?_⟩
        · rw [said, List.map_append, ← sideAt.submitted]
          rfl
        · rw [state_after_snoc, reacts, ← sideAt.state]
          rfl
      have rest := ih (side.complete (queued packet).arrived) (told ++ [packet]) next
        (by rw [List.append_assoc]; exact carriable)
      rw [List.append_assoc] at rest
      exact rest

structure Says (party : Party (Except ContextFault RtmpContext) Packet Packet) (all : List Packet) : Prop where
  reacts : party.react = reactTo
  carriable : ∀ packet ∈ all, Carriable (queued packet)
  slim : ∀ packet ∈ all, Slim (queued packet)
  followed : AllFollowed kRtmpBufferSize RtmpIn.fresh.inChunkSize (all.map queued)
  few : (sentBytes kRtmpBufferSize freshStreams (all.map queued)).length < 2048000

structure Between (sayer hearer : Side) (told : List Packet) : Prop where
  messages : sayer.pipe.incoming.messages = arrivedAll told
  counted : hearer.inBytes = sayer.pipe.pieces.flatten.length
  left : hearer.lastLeft = sayer.pipe.incoming.buf.length
  within : sayer.pipe.incoming.buf.length ≤ sayer.pipe.pieces.flatten.length

theorem arrive_shorter (outcome : ParseOutcome) (piece : Bytes) :
    (arrive outcome piece).buf.length ≤ outcome.buf.length + piece.length := by
  rw [arrive]
  split
  · exact Nat.le_add_right _ _
  · have shorter := parse_loop_shorter outcome.state (toUint32 (outcome.buf ++ piece).length) (outcome.buf ++ piece)
    exact List.length_append ▸ shorter

theorem pieces_few (party : Party (Except ContextFault RtmpContext) Packet Packet) (all told : List Packet)
    (speaks : Says party all) (side : Side) (sideAt : SideAt party side told) (front : party.said told <+: all) :
    side.pipe.pieces.flatten.length + side.pipe.wire.length < 2048000 ∧
      AllFollowed kRtmpBufferSize RtmpIn.fresh.inChunkSize side.pipe.submitted := by
  obtain ⟨built, carrying⟩ := sideAt.carried
  obtain ⟨rest, whole⟩ := front
  have followed := speaks.followed
  have few := speaks.few
  have bounds := carrying_bounds side.pipe built carrying
  rw [← whole, List.map_append] at followed few
  rw [sent_bytes_append, List.length_append] at few
  rw [sideAt.submitted] at bounds ⊢
  exact ⟨by omega, ((all_followed_append _ _ _ _).mp followed).1⟩

theorem count_silent (side : Side) (ctx : RtmpContext) (state : side.state = .ok ctx) (window : ctx.ackSize = 2048000)
    (readable : Nat) (total : Nat) (few : total < 2048000)
    (counts : side.inBytes + (readable - side.lastLeft) = total) :
    side.count readable = { side with inBytes := total } := by
  rw [Side.count, state]
  dsimp only
  rw [counts, to_int32_exact _ ⟨by omega, by omega⟩, if_neg (by omega)]

theorem read_side_taken (sayer hearer : Side) (n : Nat) (some' : sayer.pipe.wire.take n ≠ []) :
    ∃ left, left = toInt32 (pipeStep sayer.pipe (.readFd n)).incoming.buf.length ∧
      readSide sayer hearer n =
        ({ sayer with pipe := pipeStep sayer.pipe (.readFd n) },
          { ((pipeStep sayer.pipe (.readFd n)).incoming.messages.drop sayer.pipe.incoming.messages.length).foldl Side.complete
              (hearer.count (sayer.pipe.incoming.buf ++ sayer.pipe.wire.take n).length) with
            lastLeft := left }) :=
  ⟨_, rfl, if_neg some'⟩

theorem read_side_frame (sayer hearer : Side) (n : Nat) :
    (readSide sayer hearer n).1.pipe = pipeStep sayer.pipe (.readFd n) ∧
      (readSide sayer hearer n).1.inBytes = sayer.inBytes ∧ (readSide sayer hearer n).1.lastLeft = sayer.lastLeft ∧
      SameTail (readSide sayer hearer n).2.pipe hearer.pipe := by
  by_cases nothing : sayer.pipe.wire.take n = []
  · rw [readSide, if_pos nothing, pipeStep, if_pos nothing]
    exact ⟨rfl, rfl, rfl, rfl, rfl, rfl⟩
  · obtain ⟨_, completed⟩ := complete_all_frame
      ((pipeStep sayer.pipe (.readFd n)).incoming.messages.drop sayer.pipe.incoming.messages.length)
      (hearer.count (sayer.pipe.incoming.buf ++ sayer.pipe.wire.take n).length)
    have counted := count_frame hearer (sayer.pipe.incoming.buf ++ sayer.pipe.wire.take n).length
    obtain ⟨left, _, taken⟩ := read_side_taken sayer hearer n nothing
    rw [taken]
    exact ⟨rfl, rfl, rfl, completed.incoming.trans counted.incoming, completed.pieces.trans counted.pieces,
      completed.wire.trans counted.wire⟩

theorem read_side_hears (sayerParty hearerParty : Party (Except ContextFault RtmpContext) Packet Packet)
    (saysAll hearsAll : List Packet) (speaks : Says sayerParty saysAll) (answers : Says hearerParty hearsAll)
    (sayer hearer : Side) (told other : List Packet) (n : Nat) (sayerAt : SideAt sayerParty sayer told)
    (hearerAt : SideAt hearerParty hearer other) (between : Between sayer hearer other)
    (under : other <+: sayerParty.said told) (front : sayerParty.said told <+: saysAll)
    (replies : hearerParty.said saysAll <+: hearsAll) (ctx : RtmpContext) (state : hearer.state = .ok ctx)
    (window : ctx.ackSize = 2048000) :
    ∃ heard, other <+: heard ∧ heard <+: sayerParty.said told ∧ SideAt sayerParty (readSide sayer hearer n).1 told ∧
      SideAt hearerParty (readSide sayer hearer n).2 heard ∧
      Between (readSide sayer hearer n).1 (readSide sayer hearer n).2 heard := by
  by_cases nothing : sayer.pipe.wire.take n = []
  · rw [readSide, if_pos nothing]
    exact ⟨other, List.prefix_refl _, under, sayerAt, hearerAt, between⟩
  · obtain ⟨built, carrying⟩ := sayerAt.carried
    obtain ⟨few, followed⟩ := pieces_few sayerParty saysAll told speaks sayer sayerAt front
    have taken : (sayer.pipe.wire.take n).length ≤ sayer.pipe.wire.length := List.length_take_le' _ _
    have proper : Proper sayer.pipe (.readFd n) := by
      change (sayer.pipe.incoming.buf ++ sayer.pipe.wire.take n).length < 2147483648
      have within := between.within
      rw [List.length_append]
      omega
    obtain ⟨incomingAfter, piecesAfter⟩ : (pipeStep sayer.pipe (.readFd n)).incoming =
        arrive sayer.pipe.incoming (sayer.pipe.wire.take n) ∧
          (pipeStep sayer.pipe (.readFd n)).pieces = sayer.pipe.pieces ++ [sayer.pipe.wire.take n] := by
      rw [pipeStep, if_neg nothing]
      exact ⟨rfl, rfl⟩
    obtain ⟨builtAfter, carryingAfter⟩ := carrying_read sayer.pipe built n proper carrying
    have delivered := (carrying_delivers _ builtAfter carryingAfter (by rw [read_submitted]; exact followed)).inOrder
    have grown := arrive_messages sayer.pipe.incoming (sayer.pipe.wire.take n)
    rw [read_submitted, sayerAt.submitted, List.map_map, incomingAfter] at delivered
    have whole := List.prefix_iff_eq_take.mp delivered
    rw [← List.map_take] at whole
    have known := congrArg List.length between.messages
    have longer := grown.length_le
    rw [known, arrivedAll, List.length_map] at longer
    have ahead : other <+: (sayerParty.said told).take (arrive sayer.pipe.incoming (sayer.pipe.wire.take n)).messages.length :=
      List.prefix_of_prefix_length_le under (List.take_prefix _ _)
        (by rw [List.length_take]; exact Nat.le_min.mpr ⟨longer, under.length_le⟩)
    have heardFront := List.take_prefix (arrive sayer.pipe.incoming (sayer.pipe.wire.take n)).messages.length
      (sayerParty.said told)
    generalize (sayerParty.said told).take (arrive sayer.pipe.incoming (sayer.pipe.wire.take n)).messages.length = heard
      at whole ahead heardFront
    obtain ⟨more, rfl⟩ := ahead
    have fresh : (arrive sayer.pipe.incoming (sayer.pipe.wire.take n)).messages.drop sayer.pipe.incoming.messages.length =
        arrivedAll more := by
      rw [show (arrive sayer.pipe.incoming (sayer.pipe.wire.take n)).messages = arrivedAll (other ++ more) from whole,
        between.messages, arrivedAll, arrivedAll, arrivedAll, List.map_append, List.drop_left]
    have total : (sayer.pipe.pieces ++ [sayer.pipe.wire.take n]).flatten.length =
        sayer.pipe.pieces.flatten.length + (sayer.pipe.wire.take n).length := by
      rw [List.flatten_append, List.flatten_singleton, List.length_append]
    have counted := count_silent hearer ctx state window (sayer.pipe.incoming.buf ++ sayer.pipe.wire.take n).length
      (sayer.pipe.pieces ++ [sayer.pipe.wire.take n]).flatten.length (by omega)
      (by rw [between.counted, between.left, total, List.length_append]; omega)
    have shorter := arrive_shorter sayer.pipe.incoming (sayer.pipe.wire.take n)
    have within := between.within
    have hears := side_hears hearerParty answers.reacts more
      { hearer with inBytes := (sayer.pipe.pieces ++ [sayer.pipe.wire.take n]).flatten.length } other
      ⟨hearerAt.carried, hearerAt.submitted, hearerAt.state⟩
      fun packet inside => answers.carriable packet
        (((said_front hearerParty (heardFront.trans front)).trans replies).subset inside)
    obtain ⟨inBytes, _⟩ := complete_all_frame (arrivedAll more)
      { hearer with inBytes := (sayer.pipe.pieces ++ [sayer.pipe.wire.take n]).flatten.length }
    obtain ⟨left, counts, reads⟩ := read_side_taken sayer hearer n nothing
    rw [reads, counted, incomingAfter, fresh]
    refine ⟨other ++ more, List.prefix_append _ _, heardFront, ⟨⟨builtAfter, carryingAfter⟩, ?_, sayerAt.state⟩,
      ⟨hears.carried, hears.submitted, hears.state⟩, ⟨?_, ?_, ?_, ?_⟩⟩
    · exact (read_submitted sayer.pipe n).trans sayerAt.submitted
    · rw [incomingAfter]
      exact whole
    · rw [piecesAfter]
      exact inBytes
    · rw [counts, incomingAfter]
      exact to_int32_exact _ ⟨by omega, by omega⟩
    · rw [incomingAfter, piecesAfter]
      omega

structure Talk (caller callee : Party (Except ContextFault RtmpContext) Packet Packet) (last : Heard Packet Packet) :
    Prop where
  quiet : Quiet caller callee last
  only : ∀ x, Below x last → Quiet caller callee x → x = last
  asks : Says caller last.right
  answers : Says callee last.left
  callerWindow : ∀ told, told <+: last.left → ∃ ctx, caller.stateAfter told = .ok ctx ∧ ctx.ackSize = 2048000
  calleeWindow : ∀ told, told <+: last.right → ∃ ctx, callee.stateAfter told = .ok ctx ∧ ctx.ackSize = 2048000

structure Talking (caller callee : Party (Except ContextFault RtmpContext) Packet Packet) (last : Heard Packet Packet)
    (s : Duplex) (heard : Heard Packet Packet) : Prop where
  inTransit : InTransit caller callee heard
  below : Below heard last
  client : SideAt caller s.client heard.left
  server : SideAt callee s.server heard.right
  toServer : Between s.client s.server heard.right
  toClient : Between s.server s.client heard.left

section

variable (caller callee : Party (Except ContextFault RtmpContext) Packet Packet) (last : Heard Packet Packet)

theorem side_written (party : Party (Except ContextFault RtmpContext) Packet Packet) (side : Side) (told : List Packet)
    (ret : Nat) (sideAt : SideAt party side told) :
    SideAt party { side with pipe := pipeStep side.pipe (.writev ret) } told := by
  obtain ⟨built, carrying⟩ := sideAt.carried
  exact ⟨carrying_writev side.pipe built ret carrying, (writev_submitted side.pipe ret).trans sideAt.submitted, sideAt.state⟩

theorem between_kept {sayer sayer' hearer hearer' : Side} {told : List Packet}
    (incoming : sayer'.pipe.incoming = sayer.pipe.incoming) (pieces : sayer'.pipe.pieces = sayer.pipe.pieces)
    (inBytes : hearer'.inBytes = hearer.inBytes) (lastLeft : hearer'.lastLeft = hearer.lastLeft)
    (between : Between sayer hearer told) : Between sayer' hearer' told := by
  obtain ⟨messages, counted, left, within⟩ := between
  rw [← incoming] at messages left within
  rw [← pieces] at counted within
  exact ⟨messages, inBytes.trans counted, lastLeft.trans left, within⟩

def KernelMove.event : KernelMove → PipeEvent
  | .writev ret => .writev ret
  | .readFd n => .readFd n

def CanMove (s : Duplex) (move : Delivery × KernelMove) : Prop :=
  match move.1 with
  | .toRight => Moves s.client.pipe move.2.event
  | .toLeft => Moves s.server.pipe move.2.event

def toMove (all : List Packet) (s : Pipe) : Nat :=
  2 * ((sentBytes kRtmpBufferSize freshStreams (all.map queued)).length - s.pieces.flatten.length) - s.wire.length

theorem to_move_pending (party : Party (Except ContextFault RtmpContext) Packet Packet) (all told : List Packet)
    (side : Side) (sideAt : SideAt party side told) (front : party.said told <+: all) :
    toMove all side.pipe = pending side.pipe + 2 * ((sentBytes kRtmpBufferSize freshStreams (all.map queued)).length -
      (sentBytes kRtmpBufferSize freshStreams ((party.said told).map queued)).length) := by
  obtain ⟨built, carrying⟩ := sideAt.carried
  obtain ⟨rest, whole⟩ := front
  have bounds := carrying_bounds side.pipe built carrying
  have length : (sentBytes kRtmpBufferSize freshStreams ((party.said told).map queued)).length ≤
      (sentBytes kRtmpBufferSize freshStreams (all.map queued)).length := by
    rw [← whole, List.map_append, sent_bytes_append, List.length_append]
    exact Nat.le_add_right _ _
  rw [sideAt.submitted] at bounds
  rw [toMove, pending, unread, sideAt.submitted]
  omega

theorem tail_to_move {s t : Pipe} (all : List Packet) (tail : SameTail s t) : toMove all s = toMove all t := by
  rw [toMove, toMove, tail.pieces, tail.wire]

theorem side_moves (party : Party (Except ContextFault RtmpContext) Packet Packet) (all told : List Packet)
    (side after : Side) (sideAt : SideAt party side told) (afterAt : SideAt party after told) (front : party.said told <+: all)
    (move : KernelMove) (moves : Moves side.pipe move.event) (pipe : after.pipe = pipeStep side.pipe move.event) :
    toMove all after.pipe < toMove all side.pipe := by
  obtain ⟨built, carrying⟩ := sideAt.carried
  have less := move_settles side.pipe built move.event moves carrying
  rw [to_move_pending party all told side sideAt front, to_move_pending party all told after afterAt front, pipe]
  omega

def remaining (s : Duplex) : Nat := toMove last.right s.client.pipe + toMove last.left s.server.pipe

theorem talking_step (talk : Talk caller callee last) (s : Duplex) (heard : Heard Packet Packet)
    (talking : Talking caller callee last s heard) (move : Delivery × KernelMove) :
    (∃ heard, Talking caller callee last (duplexStep s move) heard) ∧
      (CanMove s move → remaining last (duplexStep s move) < remaining last s) := by
  obtain ⟨inTransit, below, client, server, toServer, toClient⟩ := talking
  have asked := said_front caller below.left
  have answered := said_front callee below.right
  rw [← talk.quiet.right] at asked
  rw [← talk.quiet.left] at answered
  match move with
  | (.toRight, .writev ret) =>
      have written := side_written caller s.client heard.left ret client
      obtain ⟨incoming, pieces⟩ := writev_received s.client.pipe ret
      refine ⟨⟨heard, inTransit, below, written, server, between_kept incoming pieces rfl rfl toServer,
        ⟨toClient.messages, toClient.counted, toClient.left, toClient.within⟩⟩, fun moves => ?_⟩
      exact Nat.add_lt_add_right
        (side_moves caller last.right heard.left s.client _ client written asked (.writev ret) moves rfl) _
  | (.toLeft, .writev ret) =>
      have written := side_written callee s.server heard.right ret server
      obtain ⟨incoming, pieces⟩ := writev_received s.server.pipe ret
      refine ⟨⟨heard, inTransit, below, client, written,
        ⟨toServer.messages, toServer.counted, toServer.left, toServer.within⟩,
        between_kept incoming pieces rfl rfl toClient⟩, fun moves => ?_⟩
      exact Nat.add_lt_add_left
        (side_moves callee last.left heard.right s.server _ server written answered (.writev ret) moves rfl) _
  | (.toRight, .readFd n) =>
      obtain ⟨ctx, state, window⟩ := talk.calleeWindow heard.right below.right
      obtain ⟨told, longer, sent, clientAt, serverAt, between⟩ :=
        read_side_hears caller callee last.right last.left talk.asks talk.answers s.client s.server heard.left heard.right n
          client server toServer inTransit.right asked (by rw [← talk.quiet.left]) ctx (server.state.trans state) window
      obtain ⟨pipe, inBytes, lastLeft, tail⟩ := read_side_frame s.client s.server n
      refine ⟨⟨{ left := heard.left, right := told }, ⟨inTransit.left.trans (said_front callee longer), sent⟩,
        ⟨below.left, sent.trans asked⟩, clientAt, serverAt, between,
        between_kept tail.incoming tail.pieces inBytes lastLeft toClient⟩, fun moves => ?_⟩
      exact Nat.add_lt_add_of_lt_of_le
        (side_moves caller last.right heard.left s.client _ client clientAt asked (.readFd n) moves pipe)
        (Nat.le_of_eq (tail_to_move _ tail))
  | (.toLeft, .readFd n) =>
      obtain ⟨ctx, state, window⟩ := talk.callerWindow heard.left below.left
      obtain ⟨told, longer, sent, serverAt, clientAt, between⟩ :=
        read_side_hears callee caller last.left last.right talk.answers talk.asks s.server s.client heard.right heard.left n
          server client toClient inTransit.left answered (by rw [← talk.quiet.right]) ctx (client.state.trans state) window
      obtain ⟨pipe, inBytes, lastLeft, tail⟩ := read_side_frame s.server s.client n
      refine ⟨⟨{ left := told, right := heard.right }, ⟨sent, inTransit.right.trans (said_front caller longer)⟩,
        ⟨sent.trans answered, below.right⟩, clientAt, serverAt,
        between_kept tail.incoming tail.pieces inBytes lastLeft toServer, between⟩, fun moves => ?_⟩
      exact Nat.add_lt_add_of_le_of_lt (Nat.le_of_eq (tail_to_move _ tail))
        (side_moves callee last.left heard.right s.server _ server serverAt answered (.readFd n) moves pipe)

def duplexStart : Duplex := { client := opened caller, server := opened callee }

theorem opened_at (party : Party (Except ContextFault RtmpContext) Packet Packet) (all : List Packet)
    (speaks : Says party all) (front : party.said [] <+: all) : SideAt party (opened party) [] := by
  have opening : party.said [] = party.opening := List.append_nil _
  rw [opening] at front
  obtain ⟨carried, submitted⟩ := push_all_carried party.opening { state := party.start } ⟨[], carrying_fresh⟩
    fun packet inside => speaks.carriable packet (front.subset inside)
  obtain ⟨state, _⟩ := push_all_frame party.opening { state := party.start }
  exact ⟨carried, by rw [opening]; exact submitted, state⟩

theorem opened_between (sayer hearer : Party (Except ContextFault RtmpContext) Packet Packet) :
    Between (opened sayer) (opened hearer) [] := by
  obtain ⟨_, _, _, incoming, pieces, _⟩ := push_all_frame sayer.opening { state := sayer.start }
  obtain ⟨_, inBytes, lastLeft, _⟩ := push_all_frame hearer.opening { state := hearer.start }
  exact between_kept incoming pieces inBytes lastLeft
    (⟨rfl, rfl, rfl, Nat.le_refl _⟩ : Between { state := sayer.start } { state := hearer.start } [])

theorem talking_start (talk : Talk caller callee last) : Talking caller callee last (duplexStart caller callee) {} := by
  have asked : caller.said [] <+: caller.said last.left := said_front caller List.nil_prefix
  have answered : callee.said [] <+: callee.said last.right := said_front callee List.nil_prefix
  rw [← talk.quiet.right] at asked
  rw [← talk.quiet.left] at answered
  exact ⟨⟨List.nil_prefix, List.nil_prefix⟩, ⟨List.nil_prefix, List.nil_prefix⟩,
    opened_at caller last.right talk.asks asked, opened_at callee last.left talk.answers answered,
    opened_between caller callee, opened_between callee caller⟩

theorem run_talking (talk : Talk caller callee last) (moves : List (Delivery × KernelMove)) :
    ∃ heard, Talking caller callee last (run duplexStep (duplexStart caller callee) moves) heard := by
  have keeps (s : Duplex) (move : Delivery × KernelMove) (before : ∃ heard, Talking caller callee last s heard) :
      ∃ heard, Talking caller callee last (duplexStep s move) heard := by
    obtain ⟨heard, talking⟩ := before
    exact (talking_step caller callee last talk s heard talking move).1
  exact run_invariant keeps _ ⟨{}, talking_start caller callee last talk⟩ moves

theorem pipe_still (s : Pipe) (few : s.ctx.ioVecList.length ≤ kIovMax)
    (still : ∀ move : KernelMove, ¬ Moves s move.event) : s.ctx.ioVecList = [] ∧ s.wire = [] :=
  ⟨not_not.mp fun waiting => still (.writev 1) ⟨Nat.one_pos, waiting, few⟩,
    not_not.mp fun waiting => still (.readFd 1) ⟨Nat.one_pos, waiting⟩⟩

theorem still_heard (party : Party (Except ContextFault RtmpContext) Packet Packet) (all : List Packet)
    (speaks : Says party all) (sayer hearer : Side) (told other : List Packet) (sayerAt : SideAt party sayer told)
    (between : Between sayer hearer other) (front : party.said told <+: all) (under : other <+: party.said told)
    (still : ∀ move : KernelMove, ¬ Moves sayer.pipe move.event) : other = party.said told := by
  obtain ⟨built, carrying⟩ := sayerAt.carried
  obtain ⟨_, followed⟩ := pieces_few party all told speaks sayer sayerAt front
  have slim : ∀ message ∈ sayer.pipe.submitted, Slim message := by
    rw [sayerAt.submitted]
    exact List.forall_mem_map.mpr fun packet said => speaks.slim packet (front.subset said)
  obtain ⟨written, read⟩ := pipe_still sayer.pipe (carrying.fits slim) still
  have delivered := ((carrying_delivers sayer.pipe built carrying followed).all written read).1
  rw [between.messages, sayerAt.submitted, List.map_map] at delivered
  have lengths := congrArg List.length delivered
  rw [arrivedAll, List.length_map, List.length_map] at lengths
  exact under.eq_of_length lengths

theorem talking_still (talk : Talk caller callee last) (s : Duplex) (heard : Heard Packet Packet)
    (talking : Talking caller callee last s heard) (still : ∀ move, ¬ CanMove s move) : heard = last := by
  have asked := said_front caller talking.below.left
  have answered := said_front callee talking.below.right
  rw [← talk.quiet.right] at asked
  rw [← talk.quiet.left] at answered
  exact talk.only heard talking.below
    ⟨still_heard callee last.left talk.answers s.server s.client heard.right heard.left talking.server talking.toClient
        answered talking.inTransit.left fun move => still (.toLeft, move),
      still_heard caller last.right talk.asks s.client s.server heard.left heard.right talking.client talking.toServer
        asked talking.inTransit.right fun move => still (.toRight, move)⟩

theorem moves_few (talk : Talk caller callee last) (moves : List (Delivery × KernelMove)) (s : Duplex)
    (heard : Heard Packet Packet) (talking : Talking caller callee last s heard)
    (moving : ∀ pair ∈ met duplexStep s moves, CanMove pair.1 pair.2) :
    moves.length + remaining last (run duplexStep s moves) ≤ remaining last s := by
  induction moves generalizing s heard with
  | nil => exact Nat.le_of_eq (Nat.zero_add _)
  | cons move moves ih =>
      obtain ⟨here, later⟩ := List.forall_mem_cons.mp moving
      obtain ⟨⟨heard', talking'⟩, less⟩ := talking_step caller callee last talk s heard talking move
      have bound := ih (duplexStep s move) heard' talking' later
      have fewer := less here
      change moves.length + 1 + remaining last (run duplexStep (duplexStep s move) moves) ≤ _
      omega

end

-- What fits one chunk, with room to spare.
structure Short (packet : Packet) : Prop where
  sendable : Sendable (queued packet) (queued packet).header
  few : (queued packet).header.msgLen ≤ DEFAULT_PACKET_SIZE

theorem short_carriable (packet : Packet) (short : Short packet) : Carriable (queued packet) := by
  refine ⟨short.sendable, ?_⟩
  have few := short.few
  have one : continuations kRtmpBufferSize (queued packet).header.msgLen = 0 :=
    continuations_last _ _ (by decide) (Nat.le_trans few (by decide))
  rw [Light, headerRoom, one]
  decide

theorem short_slim (packet : Packet) (short : Short packet) : Slim (queued packet) := by
  have few := short.few
  have one : continuations kRtmpBufferSize (queued packet).header.msgLen = 0 :=
    continuations_last _ _ (by decide) (Nat.le_trans few (by decide))
  rw [Slim, entries, short.sendable.ext]
  dsimp only
  rw [one]
  decide

theorem short_followed (packet : Packet) (short : Short packet) (inSize : Int)
    (enough : ((queued packet).header.msgLen : Int) ≤ inSize) : Followed kRtmpBufferSize inSize (queued packet) := by
  have few := short.few
  exact ⟨short.sendable, Nat.lt_of_le_of_lt few (by decide), (by decide : (0 : UInt32) < 0xFFFFFF),
    .inr ⟨Nat.le_trans few (by decide), enough⟩⟩

theorem all_short_followed (packets : List Packet) (short : ∀ packet ∈ packets, Short packet)
    (others : ∀ packet ∈ packets, (queued packet).header.msgType ≠ kRtmpMsgTypeChunkSize) :
    AllFollowed kRtmpBufferSize kRtmpBufferSize (packets.map queued) := by
  induction packets with
  | nil => trivial
  | cons packet packets ih =>
      obtain ⟨here, later⟩ := List.forall_mem_cons.mp short
      obtain ⟨other, rest⟩ := List.forall_mem_cons.mp others
      have few := here.few
      have behind : chunkSizeBehind kRtmpBufferSize (queued packet) = kRtmpBufferSize := if_neg fun both => other both.1
      refine ⟨short_followed packet here _ (Int.ofNat_le.mpr (Nat.le_trans few (by decide))), ?_⟩
      rw [behind]
      exact ih later rest

theorem short_bytes (packets : List Packet) (short : ∀ packet ∈ packets, Short packet) (streams : Nat → OutStream) :
    (sentBytes kRtmpBufferSize streams (packets.map queued)).length ≤ packets.length * 1042 := by
  induction packets generalizing streams with
  | nil => exact Nat.zero_le _
  | cons packet packets ih =>
      obtain ⟨here, later⟩ := List.forall_mem_cons.mp short
      have rest := ih later (Function.update streams (queued packet).header.csId
        (sentStream (streams (queued packet).header.csId) (queued packet).header (queued packet)))
      have few := here.few
      have whole := here.sendable.whole
      have front : (messageBytes kRtmpBufferSize (streams (queued packet).header.csId) (queued packet).header
          (queued packet)).length ≤ 18 + DEFAULT_PACKET_SIZE := by
        have most := first_header_most (queued packet).header
          (chunkFormat (streams (queued packet).header.csId) (queued packet).header (queued packet).timestamp
            (queued packet).fmt0).1
          (chunkFormat (streams (queued packet).header.csId) (queued packet).header (queued packet).timestamp
            (queued packet).fmt0).2
        rw [firstHeader] at most
        simp only [List.length_append] at most
        rw [messageBytes]
        simp only [List.length_append]
        rw [body_stream_last _ _ _ (by rw [whole]; exact Nat.le_trans few (by decide)), whole]
        omega
      rw [List.map_cons, sentBytes, List.length_append, List.length_cons]
      rw [DEFAULT_PACKET_SIZE] at front
      omega

theorem amf_short (msgSid : UInt32) (body : Bytes) (some' : 0 < body.length) (few : body.length ≤ DEFAULT_PACKET_SIZE) :
    Short (amfMessage msgSid body) :=
  ⟨⟨rfl, (by decide : 2 ≤ 3), (by decide : 3 < 65600), some', rfl⟩, few⟩

theorem chunk_size_short (size : Int) : Short (sendSetChunkSize size) :=
  ⟨⟨rfl, (by decide : 2 ≤ 2), (by decide : 2 < 65600), (by decide : 0 < 4), rfl⟩, (by decide : 4 ≤ 1024)⟩

section

variable (isPlayer : Bool) (u : ClientUrl)

theorem name_short : Short (nameMessage isPlayer u) := by
  obtain ⟨empty, _⟩ := client_name_empty isPlayer (chars u.url)
  have name : (clientStart isPlayer u).naming.name = [] := empty
  cases isPlayer with
  | true =>
      rw [nameMessage, if_pos rfl, playBody, name]
      exact amf_short 1 _ (by decide) (by decide)
  | false =>
      rw [nameMessage, if_neg Bool.false_ne_true, publishBody, name]
      exact amf_short 1 _ (by decide) (by decide)

theorem client_short (fits : (connectBody (clientStart isPlayer u).naming).length ≤ DEFAULT_PACKET_SIZE) :
    ∀ packet ∈ clientMessages isPlayer u, Short packet := by
  refine List.forall_mem_cons.mpr ⟨chunk_size_short _, List.forall_mem_cons.mpr ⟨?_, List.forall_mem_cons.mpr ⟨?_,
    List.forall_mem_singleton.mpr (name_short isPlayer u)⟩⟩⟩
  · exact amf_short 0 _ (by rw [connect_body_length]; omega) fits
  · exact amf_short 0 _ (by decide) (by decide)

theorem server_short : ∀ packet ∈ serverMessages isPlayer, Short packet := by
  have result : 0 < (connectResultBody false).length := by
    rw [connectResultBody]
    simp
  have start : ∀ packet ∈ startAnswers isPlayer, Short packet := by
    cases isPlayer with
    | true =>
        refine List.forall_mem_cons.mpr ⟨?_, List.forall_mem_singleton.mpr (amf_short 1 _ (by decide) (by decide))⟩
        exact ⟨⟨rfl, by decide, by decide, by decide, by decide⟩, by decide⟩
    | false => exact List.forall_mem_singleton.mpr (amf_short 1 _ (by decide) (by decide))
  refine List.forall_mem_append.mpr ⟨?_, List.forall_mem_cons.mpr ⟨amf_short 0 _ (by decide) (by decide), start⟩⟩
  refine List.forall_mem_cons.mpr ⟨?_, List.forall_mem_cons.mpr ⟨?_, List.forall_mem_cons.mpr ⟨chunk_size_short _,
    List.forall_mem_singleton.mpr (amf_short 0 _ result (connect_result_short false))⟩⟩⟩
  · exact ⟨⟨rfl, by decide, by decide, by decide, by decide⟩, by decide⟩
  · exact ⟨⟨rfl, by decide, by decide, by decide, by decide⟩, by decide⟩

theorem chunk_size_announced (inSize : Int) :
    chunkSizeBehind inSize (queued (sendSetChunkSize kRtmpBufferSize)) = kRtmpBufferSize := by
  rw [chunkSizeBehind, if_pos (by decide)]
  decide

theorem client_speech (fits : (connectBody (clientStart isPlayer u).naming).length ≤ DEFAULT_PACKET_SIZE) :
    Says (clientParty (clientStart isPlayer u)) (clientMessages isPlayer u) := by
  have short := client_short isPlayer u fits
  refine ⟨rfl, fun packet inside => short_carriable packet (short packet inside),
    fun packet inside => short_slim packet (short packet inside), ?_, ?_⟩
  · have rest := all_short_followed (clientMessages isPlayer u).tail
      (fun packet inside => short packet (List.mem_of_mem_tail inside)) (by
        refine List.forall_mem_cons.mpr ⟨?_, List.forall_mem_cons.mpr ⟨?_, List.forall_mem_singleton.mpr ?_⟩⟩
        all_goals exact (by decide : kRtmpMsgTypeAMFMessage ≠ kRtmpMsgTypeChunkSize))
    refine ⟨short_followed _ (chunk_size_short _) _ (by decide : (4 : Int) ≤ 128), ?_⟩
    rw [chunk_size_announced]
    exact rest
  · have bytes := short_bytes _ short freshStreams
    exact Nat.lt_of_le_of_lt bytes (by decide : 4 * 1042 < 2048000)

theorem server_speech : Says serverParty (serverMessages isPlayer) := by
  have short := server_short isPlayer
  refine ⟨rfl, fun packet inside => short_carriable packet (short packet inside),
    fun packet inside => short_slim packet (short packet inside), ?_, ?_⟩
  · have rest := all_short_followed ((serverMessages isPlayer).drop 3)
      (fun packet inside => short packet (List.mem_of_mem_drop inside)) (by
        refine List.forall_mem_cons.mpr ⟨(by decide : kRtmpMsgTypeAMFMessage ≠ kRtmpMsgTypeChunkSize),
          List.forall_mem_cons.mpr ⟨(by decide : kRtmpMsgTypeAMFMessage ≠ kRtmpMsgTypeChunkSize), ?_⟩⟩
        cases isPlayer with
        | true =>
            exact List.forall_mem_cons.mpr ⟨(by decide : kRtmpMsgTypeUserControl ≠ kRtmpMsgTypeChunkSize),
              List.forall_mem_singleton.mpr (by decide : kRtmpMsgTypeAMFMessage ≠ kRtmpMsgTypeChunkSize)⟩
        | false => exact List.forall_mem_singleton.mpr (by decide : kRtmpMsgTypeAMFMessage ≠ kRtmpMsgTypeChunkSize))
    have window : Short (sendAckWindowSize 2048000) := short _ (by simp [serverMessages, connectAnswers])
    have bandwidth : Short (sendSetPeerBandwidth 2048000) := short _ (by simp [serverMessages, connectAnswers])
    refine ⟨short_followed _ window _ (by decide : (4 : Int) ≤ 128), short_followed _ bandwidth _ (by decide : (5 : Int) ≤ 128),
      short_followed _ (chunk_size_short _) _ (by decide : (4 : Int) ≤ 128), ?_⟩
    rw [chunk_size_announced]
    exact rest
  · have bytes := short_bytes _ short freshStreams
    refine Nat.lt_of_le_of_lt bytes ?_
    cases isPlayer <;> decide

theorem state_kept (party : Party (Except ContextFault RtmpContext) Packet Packet) (reacts : party.react = reactTo)
    (ctx : RtmpContext) (start : party.start = .ok ctx) (told : List Packet)
    (kept : ∀ packet ∈ told, (reactTo (.ok ctx) packet).1 = .ok ctx) : party.stateAfter told = .ok ctx := by
  induction told using List.reverseRecOn with
  | nil => exact start
  | append_singleton told packet ih =>
      obtain ⟨before, here⟩ := List.forall_mem_append.mp kept
      rw [state_after_snoc, ih before, reacts]
      exact here packet (List.mem_singleton_self _)

theorem client_window (fits : (connectBody (clientStart isPlayer u).naming).length ≤ DEFAULT_PACKET_SIZE)
    (told : List Packet) (front : told <+: serverMessages isPlayer) :
    ∃ ctx, (clientParty (clientStart isPlayer u)).stateAfter told = .ok ctx ∧ ctx.ackSize = 2048000 := by
  have begins := (client_begins isPlayer u fits).1
  have started : ∀ packet ∈ startAnswers isPlayer, (reactTo (.ok (clientStart isPlayer u)) packet).1 =
      .ok (clientStart isPlayer u) := by
    cases isPlayer with
    | true =>
        exact List.forall_mem_cons.mpr ⟨congrArg Prod.fst (react_begin _),
          List.forall_mem_singleton.mpr (congrArg Prod.fst (react_status _ _ _ _ (by decide)))⟩
    | false => exact List.forall_mem_singleton.mpr (congrArg Prod.fst (react_status _ _ _ _ (by decide)))
  have kept : ∀ packet ∈ serverMessages isPlayer, (reactTo (.ok (clientStart isPlayer u)) packet).1 =
      .ok (clientStart isPlayer u) := by
    refine List.forall_mem_append.mpr ⟨?_, List.forall_mem_cons.mpr
      ⟨congrArg Prod.fst (react_create_stream_result isPlayer u), started⟩⟩
    exact List.forall_mem_cons.mpr ⟨congrArg Prod.fst (react_ack_window _ 2048000 (by decide) (by decide)),
      List.forall_mem_cons.mpr ⟨rfl, List.forall_mem_cons.mpr ⟨rfl,
        List.forall_mem_singleton.mpr (congrArg Prod.fst (react_connect_result isPlayer u))⟩⟩⟩
  exact ⟨clientStart isPlayer u, state_kept _ rfl _ begins told fun packet inside => kept packet (front.subset inside), rfl⟩

theorem server_window (fits : (connectBody (clientStart isPlayer u).naming).length ≤ DEFAULT_PACKET_SIZE)
    (told : List Packet) (front : told <+: clientMessages isPlayer u) :
    ∃ ctx, serverParty.stateAfter told = .ok ctx ∧ ctx.ackSize = 2048000 := by
  have chunk : serverParty.stateAfter ((clientMessages isPlayer u).take 1) = .ok {} := rfl
  have connect : serverParty.stateAfter ((clientMessages isPlayer u).take 2) = .ok (serverConnected u) :=
    congrArg Prod.fst (react_connect isPlayer u fits)
  have created : serverParty.stateAfter ((clientMessages isPlayer u).take 3) = .ok (serverConnected u) := by
    rw [show (clientMessages isPlayer u).take 3 = (clientMessages isPlayer u).take 2 ++ [createStreamMessage] from rfl,
      state_after_snoc, connect]
    exact congrArg Prod.fst (react_create_stream u)
  have named : serverParty.stateAfter (clientMessages isPlayer u) = .ok (serverNamed isPlayer u) := by
    rw [show clientMessages isPlayer u = (clientMessages isPlayer u).take 3 ++ [nameMessage isPlayer u] from rfl,
      state_after_snoc, created]
    exact congrArg Prod.fst (react_name isPlayer u)
  have taken := List.prefix_iff_eq_take.mp front
  have few : told.length ≤ 4 := front.length_le
  generalize told.length = count at taken few
  subst taken
  interval_cases count
  · exact ⟨_, rfl, rfl⟩
  · exact ⟨_, chunk, rfl⟩
  · exact ⟨_, connect, rfl⟩
  · exact ⟨_, created, rfl⟩
  · exact ⟨_, named, rfl⟩

theorem dialogue_talk (fits : (connectBody (clientStart isPlayer u).naming).length ≤ DEFAULT_PACKET_SIZE) :
    Talk (clientParty (clientStart isPlayer u)) serverParty (lastHeard isPlayer u) where
  quiet := last_quiet isPlayer u fits
  only := only_last_quiet isPlayer u fits
  asks := client_speech isPlayer u fits
  answers := server_speech isPlayer
  callerWindow := client_window isPlayer u fits
  calleeWindow := server_window isPlayer u fits

def dialogueStart : Duplex := duplexStart (clientParty (clientStart isPlayer u)) serverParty

structure DuplexGoes (s : Duplex) : Prop where
  asked : s.client.pipe.submitted <+: (clientMessages isPlayer u).map queued
  answered : s.server.pipe.submitted <+: (serverMessages isPlayer).map queued
  server : ∃ ctx, s.server.state = .ok ctx ∧ ctx.forceClosed = false ∧ ctx.calls <+: [namedCall isPlayer u]
  client : ∃ ctx, s.client.state = .ok ctx ∧ ctx.forceClosed = false ∧ ctx.calls = []

structure DuplexOver (s : Duplex) : Prop where
  asked : s.client.pipe.submitted = (clientMessages isPlayer u).map queued
  answered : s.server.pipe.submitted = (serverMessages isPlayer).map queued
  server : s.server.state = .ok (serverNamed isPlayer u)
  client : s.client.state = .ok (clientStart isPlayer u)

theorem duplex_settles (fits : (connectBody (clientStart isPlayer u).naming).length ≤ DEFAULT_PACKET_SIZE)
    (moves : List (Delivery × KernelMove)) :
    DuplexGoes isPlayer u (run duplexStep (dialogueStart isPlayer u) moves) ∧
      ((∀ move, ¬ CanMove (run duplexStep (dialogueStart isPlayer u) moves) move) →
        DuplexOver isPlayer u (run duplexStep (dialogueStart isPlayer u) moves)) ∧
      ((∀ pair ∈ met duplexStep (dialogueStart isPlayer u) moves, CanMove pair.1 pair.2) →
        moves.length ≤ 2 * (dialogueLength isPlayer * 1042)) := by
  have talk := dialogue_talk isPlayer u fits
  obtain ⟨heard, talking⟩ := run_talking _ _ _ talk moves
  obtain ⟨asked, answered, server, client⟩ := below_goes isPlayer u fits heard talking.below
  refine ⟨⟨?_, ?_, ?_, ?_⟩, fun still => ?_, fun moving => ?_⟩
  · rw [dialogueStart, talking.client.submitted]
    exact asked.map queued
  · rw [dialogueStart, talking.server.submitted]
    exact answered.map queued
  · rw [dialogueStart, talking.server.state]
    exact server
  · rw [dialogueStart, talking.client.state]
    exact client
  · have ended := talking_still _ _ _ talk _ heard talking still
    obtain ⟨_, _, _, _, saidAll, named⟩ := server_replies isPlayer u fits
    obtain ⟨_, _, _, askedAll, kept⟩ := client_replies isPlayer u fits
    subst ended
    refine ⟨?_, ?_, ?_, ?_⟩
    · exact talking.client.submitted.trans (congrArg (List.map queued) askedAll)
    · exact talking.server.submitted.trans (congrArg (List.map queued) saidAll)
    · exact talking.server.state.trans named
    · exact talking.client.state.trans kept
  · have few := moves_few _ _ _ talk moves _ _ (talking_start _ _ _ talk) moving
    have asking := short_bytes _ (client_short isPlayer u fits) freshStreams
    have answering := short_bytes _ (server_short isPlayer) freshStreams
    have most : remaining (lastHeard isPlayer u) (dialogueStart isPlayer u) ≤
        2 * ((clientMessages isPlayer u).length * 1042) + 2 * ((serverMessages isPlayer).length * 1042) :=
      Nat.add_le_add (Nat.le_trans (Nat.sub_le _ _) (Nat.mul_le_mul_left 2 (Nat.le_trans (Nat.sub_le _ _) asking)))
        (Nat.le_trans (Nat.sub_le _ _) (Nat.mul_le_mul_left 2 (Nat.le_trans (Nat.sub_le _ _) answering)))
    have size := last_size isPlayer u
    rw [Heard.size, lastHeard] at size
    rw [dialogueStart] at most
    dsimp only at size
    omega

end

theorem duplex_settles_localhost :
    ∃ moves, (∀ pair ∈ met duplexStep (dialogueStart true localhostUrl) moves, CanMove pair.1 pair.2) ∧
      DuplexGoes true localhostUrl (run duplexStep (dialogueStart true localhostUrl) moves) ∧
      DuplexOver true localhostUrl (run duplexStep (dialogueStart true localhostUrl) moves) := by
  have settles := duplex_settles true localhostUrl (localhost_fits true)
  by_contra endless
  have grow : ∀ count, ∃ moves : List (Delivery × KernelMove), moves.length = count ∧
      ∀ pair ∈ met duplexStep (dialogueStart true localhostUrl) moves, CanMove pair.1 pair.2 := by
    intro count
    induction count with
    | zero => exact ⟨[], rfl, List.forall_mem_nil _⟩
    | succ count ih =>
        obtain ⟨moves, length, moving⟩ := ih
        obtain ⟨goes, ended, _⟩ := settles moves
        have further : ∃ move, CanMove (run duplexStep (dialogueStart true localhostUrl) moves) move := by
          by_contra still
          exact endless ⟨moves, moving, goes, ended (not_exists.mp still)⟩
        obtain ⟨move, can⟩ := further
        refine ⟨moves ++ [move], by rw [List.length_append, length]; rfl, ?_⟩
        rw [met_append]
        exact List.forall_mem_append.mpr ⟨moving, List.forall_mem_singleton.mpr can⟩
  obtain ⟨moves, length, moving⟩ := grow (2 * (dialogueLength true * 1042) + 1)
  have few := (settles moves).2.2 moving
  omega

end Lssvc.Mmedia
