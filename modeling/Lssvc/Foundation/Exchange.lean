import Mathlib.Data.List.Infix
import Lssvc.Foundation.Runs

set_option autoImplicit false

namespace Lssvc.Foundation

structure Party (State Told Said : Type) where
  start : State
  opening : List Said
  react : State → Told → State × List Said

section Parties

variable {State Told Said : Type} (party : Party State Told Said)

def Party.stateAfter (told : List Told) : State :=
  told.foldl (fun state message => (party.react state message).1) party.start

def Party.replies : State → List Told → List Said
  | _, [] => []
  | state, message :: told => (party.react state message).2 ++ Party.replies (party.react state message).1 told

def Party.said (told : List Told) : List Said := party.opening ++ party.replies party.start told

theorem replies_append (state : State) (told more : List Told) :
    party.replies state (told ++ more) = party.replies state told ++
      party.replies (told.foldl (fun state message => (party.react state message).1) state) more := by
  induction told generalizing state with
  | nil => rfl
  | cons message told ih =>
      rw [List.cons_append, Party.replies, Party.replies, ih, List.append_assoc]
      rfl

theorem said_append (told more : List Told) :
    party.said (told ++ more) = party.said told ++ party.replies (party.stateAfter told) more := by
  rw [Party.said, replies_append, ← List.append_assoc]
  rfl

theorem said_front {told longer : List Told} (front : told <+: longer) : party.said told <+: party.said longer := by
  obtain ⟨more, rfl⟩ := front
  rw [said_append]
  exact List.prefix_append _ _

theorem state_after_snoc (told : List Told) (message : Told) :
    party.stateAfter (told ++ [message]) = (party.react (party.stateAfter told) message).1 := List.foldl_append

end Parties

variable {Left Right A B : Type} (caller : Party Left B A) (callee : Party Right A B)

-- What each of two parties has been told. What it has said follows from that, and
-- what is under way is what the other has not been told yet.
@[ext] structure Heard (A B : Type) where
  left : List B := []
  right : List A := []

inductive Delivery where
  | toLeft
  | toRight
deriving DecidableEq, Repr

def deliver (x : Heard A B) : Delivery → Heard A B
  | .toLeft => { x with left := x.left ++ (callee.said x.right)[x.left.length]?.toList }
  | .toRight => { x with right := x.right ++ (caller.said x.left)[x.right.length]?.toList }

structure InTransit (x : Heard A B) : Prop where
  left : x.left <+: callee.said x.right
  right : x.right <+: caller.said x.left

structure Quiet (x : Heard A B) : Prop where
  left : x.left = callee.said x.right
  right : x.right = caller.said x.left

structure Below (x y : Heard A B) : Prop where
  left : x.left <+: y.left
  right : x.right <+: y.right

theorem next_front {α : Type} {front whole : List α} (isFront : front <+: whole) :
    front ++ whole[front.length]?.toList <+: whole := by
  obtain ⟨rest, rfl⟩ := isFront
  rw [List.getElem?_append_right (Nat.le_refl _), Nat.sub_self]
  cases rest with
  | nil => exact List.prefix_refl _
  | cons next rest => exact (List.prefix_append_right_inj front).mpr ⟨rest, rfl⟩

theorem deliver_in_transit (x : Heard A B) (way : Delivery) (inTransit : InTransit caller callee x) :
    InTransit caller callee (deliver caller callee x way) := by
  cases way with
  | toLeft =>
      exact ⟨next_front inTransit.left, inTransit.right.trans (said_front caller (List.prefix_append _ _))⟩
  | toRight =>
      exact ⟨inTransit.left.trans (said_front callee (List.prefix_append _ _)), next_front inTransit.right⟩

theorem run_in_transit (ways : List Delivery) : InTransit caller callee (run (deliver caller callee) {} ways) :=
  run_invariant (fun x way => deliver_in_transit caller callee x way) {} ⟨List.nil_prefix, List.nil_prefix⟩ ways

theorem heard_right_below {x last : Heard A B} (quiet : Quiet caller callee last) (below : Below x last) {told : List A}
    (sent : told <+: caller.said x.left) : told <+: last.right := by
  rw [quiet.right]
  exact sent.trans (said_front caller below.left)

theorem heard_left_below {x last : Heard A B} (quiet : Quiet caller callee last) (below : Below x last) {told : List B}
    (sent : told <+: callee.said x.right) : told <+: last.left := by
  rw [quiet.left]
  exact sent.trans (said_front callee below.right)

theorem deliver_below {last : Heard A B} (quiet : Quiet caller callee last) (x : Heard A B) (way : Delivery)
    (inTransit : InTransit caller callee x) (below : Below x last) : Below (deliver caller callee x way) last := by
  cases way with
  | toLeft => exact ⟨heard_left_below caller callee quiet below (next_front inTransit.left), below.right⟩
  | toRight => exact ⟨below.left, heard_right_below caller callee quiet below (next_front inTransit.right)⟩

theorem run_below {last : Heard A B} (quiet : Quiet caller callee last) (ways : List Delivery) :
    Below (run (deliver caller callee) {} ways) last := by
  induction ways using List.reverseRecOn with
  | nil => exact ⟨List.nil_prefix, List.nil_prefix⟩
  | append_singleton ways way ih =>
      rw [run_snoc]
      exact deliver_below caller callee quiet _ way (run_in_transit caller callee ways) ih

def Heard.size (x : Heard A B) : Nat := x.left.length + x.right.length

theorem below_size {x y : Heard A B} (below : Below x y) : x.size ≤ y.size :=
  Nat.add_le_add below.left.length_le below.right.length_le

theorem deliver_size (x : Heard A B) (way : Delivery) (moved : deliver caller callee x way ≠ x) :
    (deliver caller callee x way).size = x.size + 1 := by
  have one {α : Type} (told : List α) (next : Option α) (more : told ++ next.toList ≠ told) :
      (told ++ next.toList).length = told.length + 1 := by
    cases next with
    | none => exact absurd (List.append_nil told) more
    | some message => exact List.length_append
  cases way with
  | toLeft =>
      have grown := one x.left _ fun same => moved (Heard.ext same rfl)
      rw [Heard.size, Heard.size, deliver]
      dsimp only
      omega
  | toRight =>
      have grown := one x.right _ fun same => moved (Heard.ext rfl same)
      rw [Heard.size, Heard.size, deliver]
      dsimp only
      omega

theorem not_quiet_moves (x : Heard A B) (inTransit : InTransit caller callee x) (busy : ¬ Quiet caller callee x) :
    ∃ way, deliver caller callee x way ≠ x := by
  have stuck {α : Type} {told sent : List α} (front : told <+: sent) (same : told ++ sent[told.length]?.toList = told) :
      told = sent := by
    obtain ⟨rest, rfl⟩ := front
    rw [List.getElem?_append_right (Nat.le_refl _), Nat.sub_self, List.append_right_eq_self] at same
    cases rest with
    | nil => exact (List.append_nil told).symm
    | cons next rest => cases same
  by_contra still
  have fixed (way : Delivery) : deliver caller callee x way = x := not_not.mp fun moved => still ⟨way, moved⟩
  exact busy ⟨stuck inTransit.left (congrArg Heard.left (fixed .toLeft)),
    stuck inTransit.right (congrArg Heard.right (fixed .toRight))⟩

theorem moves_counted (ways : List Delivery)
    (moving : ∀ pair ∈ met (deliver caller callee) {} ways, deliver caller callee pair.1 pair.2 ≠ pair.1) :
    (run (deliver caller callee) {} ways).size = ways.length := by
  induction ways using List.reverseRecOn with
  | nil => rfl
  | append_singleton ways way ih =>
      rw [met_append, List.forall_mem_append] at moving
      rw [run_snoc, deliver_size caller callee _ way (moving.2 _ (List.mem_singleton_self _)), ih moving.1, List.length_append]
      rfl

theorem below_same {x y : Heard A B} (below : Below x y) (full : y.size ≤ x.size) : x = y := by
  have left := below.left.length_le
  have right := below.right.length_le
  rw [Heard.size, Heard.size] at full
  exact Heard.ext (below.left.eq_of_length_le (by omega)) (below.right.eq_of_length_le (by omega))

theorem exchange_settles {last : Heard A B} (quiet : Quiet caller callee last)
    (only : ∀ x, Below x last → Quiet caller callee x → x = last) (ways : List Delivery)
    (moving : ∀ pair ∈ met (deliver caller callee) {} ways, deliver caller callee pair.1 pair.2 ≠ pair.1) :
    Below (run (deliver caller callee) {} ways) last ∧ ways.length ≤ last.size ∧
      (ways.length = last.size ↔ run (deliver caller callee) {} ways = last) ∧
      (ways.length < last.size → ∃ way, deliver caller callee (run (deliver caller callee) {} ways) way ≠
        run (deliver caller callee) {} ways) := by
  have below := run_below caller callee quiet ways
  have counted := moves_counted caller callee ways moving
  refine ⟨below, counted ▸ below_size below, ⟨fun full => ?_, fun same => ?_⟩, fun few => ?_⟩
  · exact below_same below (by omega)
  · rw [← counted, same]
  · refine not_quiet_moves caller callee _ (run_in_transit caller callee ways) fun still => ?_
    have ended := only _ below still
    rw [ended] at counted
    omega

end Lssvc.Foundation
