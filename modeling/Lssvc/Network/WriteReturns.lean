import Lssvc.Network.GatherWrite

set_option autoImplicit false

namespace Lssvc.Network

open Lssvc.Foundation

def WriteResult.Fails : WriteResult → Prop
  | .accepted _ => False
  | .transient => True
  | .hard => True

-- writev takes no more than there is, and something where there is something.
def TcpOutput.Takes (out : TcpOutput) : WriteResult → Prop
  | .accepted n => n ≤ out.sizes.sum ∧ (0 < out.sizes.sum → 0 < n)
  | .transient => True
  | .hard => True

theorem erase_written_last (ret : Nat) (list : List Nat) (bounded : ret ≤ list.sum) :
    (eraseWritten ret list).getLast? = some 0 ↔ list.getLast? = some 0 := by
  induction list generalizing ret with
  | nil => rfl
  | cons len list ih =>
      rw [List.sum_cons] at bounded
      rw [eraseWritten]
      by_cases done : ret = 0
      · rw [if_pos done]
      · rw [if_neg done]
        by_cases part : len > ret
        · rw [if_pos part]
          cases list with
          | nil =>
              rw [List.getLast?_singleton, List.getLast?_singleton, Option.some_inj, Option.some_inj]
              omega
          | cons next list => rw [List.getLast?_cons_cons, List.getLast?_cons_cons]
        · rw [if_neg part, ih (ret - len) (by omega)]
          cases list with
          | nil =>
              rw [List.getLast?_nil, List.getLast?_singleton, Option.some_inj]
              rw [List.sum_nil] at bounded
              constructor
              · intro impossible
                cases impossible
              · intro zero
                omega
          | cons next list => rw [List.getLast?_cons_cons]

theorem last_some_sum (list : List Nat) (some' : list ≠ []) (last : list.getLast? ≠ some 0) : 0 < list.sum := by
  obtain ⟨final, isLast⟩ := Option.isSome_iff_exists.mp (List.getLast?_isSome.mpr some')
  obtain ⟨front, rfl⟩ := List.getLast?_eq_some_iff.mp isLast
  have positive : final ≠ 0 := fun zero => last (by rw [isLast, zero])
  rw [List.sum_append, List.sum_singleton]
  omega

section Loop

variable (mem : Memory)

theorem writev_accepted (out : TcpOutput) (n : Nat) (rest : eraseVecs n out.ioVecList ≠ []) :
    ∃ next, out.writev mem (.accepted n) = .going next ∧ next.ioVecList = eraseVecs n out.ioVecList := by
  rw [TcpOutput.writev]
  exact ⟨_, if_neg rest, rfl⟩

theorem writev_going (out next : TcpOutput) (result : WriteResult) (goes : out.writev mem result = .going next) :
    next.ioVecList ≠ [] ∧ ∃ n, result = .accepted n ∧ next.sizes = eraseWritten n out.sizes := by
  cases result with
  | accepted n =>
      by_cases rest : eraseVecs n out.ioVecList = []
      · rw [TcpOutput.writev] at goes
        cases (if_pos rest).symm.trans goes
      · obtain ⟨other, same, left⟩ := writev_accepted mem out n rest
        cases same.symm.trans goes
        refine ⟨left ▸ rest, n, rfl, ?_⟩
        rw [TcpOutput.sizes, left]
        exact erase_sizes n out.ioVecList
  | transient => cases goes
  | hard => cases goes

theorem loop_returns (out : TcpOutput) (waiting : out.ioVecList ≠ []) (last : out.sizes.getLast? ≠ some 0)
    (results : Nat → WriteResult) (kernel : Suits TcpOutput.Takes (rounds (TcpOutput.writev mem) out) results) :
    Returns (rounds (TcpOutput.writev mem) out) results := by
  refine returns_of_measure (fun state => state.ioVecList ≠ [] ∧ state.sizes.getLast? ≠ some 0)
    (fun state => state.sizes.sum) ⟨waiting, last⟩ ?_ kernel
  rintro state result next ⟨some', final⟩ takes goes
  obtain ⟨left, n, rfl, sizes⟩ := writev_going mem state next result goes
  obtain ⟨bounded, progress⟩ := takes
  have positive := last_some_sum state.sizes (fun empty => some' (List.map_eq_nil_iff.mp empty)) final
  have less := erase_written_sum n state.sizes bounded
  have taken := progress positive
  refine ⟨⟨left, ?_⟩, ?_⟩
  · rw [sizes]
    exact fun zero => final ((erase_written_last n state.sizes bounded).mp zero)
  · rw [sizes]
    omega

-- The empty entry at the end stays, and the list with it.
theorem loop_forever (out : TcpOutput) (last : out.sizes.getLast? = some 0) (results : Nat → WriteResult)
    (never : ∀ call, ¬ (results call).Fails)
    (kernel : Suits TcpOutput.Takes (rounds (TcpOutput.writev mem) out) results) :
    ¬ Returns (rounds (TcpOutput.writev mem) out) results := by
  refine never_returns (fun state => state.sizes.getLast? = some 0) last ?_ kernel
  intro count state final takes
  have fine := never count
  cases accepted : results count with
  | accepted n =>
      rw [accepted] at takes
      have still : (eraseWritten n state.sizes).getLast? = some 0 := (erase_written_last n state.sizes takes.1).mpr final
      have sizes : (eraseVecs n state.ioVecList).map IoVec.size = eraseWritten n state.sizes := erase_sizes n state.ioVecList
      have rest : eraseVecs n state.ioVecList ≠ [] := by
        intro empty
        rw [← sizes, empty] at still
        cases still
      obtain ⟨next, goes, left⟩ := writev_accepted mem state n rest
      refine ⟨next, goes, ?_⟩
      rw [TcpOutput.sizes, left, sizes]
      exact still
  | transient =>
      rw [accepted] at fine
      exact absurd trivial fine
  | hard =>
      rw [accepted] at fine
      exact absurd trivial fine

theorem loop_fails (out : TcpOutput) (results : Nat → WriteResult) (call : Nat) (fails : (results call).Fails) :
    Returns (rounds (TcpOutput.writev mem) out) results := by
  refine returns_of_answer call fun state next goes => ?_
  obtain ⟨_, n, accepted, _⟩ := writev_going mem state next (results call) goes
  rw [accepted] at fails
  exact fails

theorem on_write_waiting (out : TcpOutput) (isOpen : out.closed = false) (waiting : out.ioVecList ≠ []) :
    out.onWrite mem = rounds (TcpOutput.writev mem) out := by
  funext results
  rw [TcpOutput.onWrite, if_neg (ne_true_of_eq_false isOpen), if_pos waiting]

theorem on_write_last (out : TcpOutput) (isOpen : out.closed = false) (results : Nat → WriteResult)
    (kernel : Suits TcpOutput.Takes (out.onWrite mem) results) :
    Returns (out.onWrite mem) results ↔ out.sizes.getLast? ≠ some 0 ∨ ∃ call, (results call).Fails := by
  by_cases waiting : out.ioVecList ≠ []
  · rw [on_write_waiting mem out isOpen waiting] at kernel ⊢
    constructor
    · intro returns
      by_contra neither
      obtain ⟨last, never⟩ := not_or.mp neither
      exact loop_forever mem out (not_not.mp last) results (not_exists.mp never) kernel returns
    · rintro (last | ⟨call, fails⟩)
      · exact loop_returns mem out waiting last results kernel
      · exact loop_fails mem out results call fails
  · have empty : out.ioVecList = [] := not_not.mp waiting
    constructor
    · intro _
      refine .inl ?_
      rw [TcpOutput.sizes, empty]
      exact fun impossible => by cases impossible
    · intro _
      refine ⟨0, (out.enableWriting false).writeCompleteCb, ?_⟩
      rw [TcpOutput.onWrite, if_neg (ne_true_of_eq_false isOpen), if_neg waiting]

end Loop

theorem sent_lists (out : TcpOutput) (isOpen : out.closed = false) (lists : List (List IoVec)) :
    (run TcpOutput.sendInLoop out lists).closed = false ∧
      (run TcpOutput.sendInLoop out lists).ioVecList = out.ioVecList ++ lists.flatten := by
  induction lists generalizing out with
  | nil => exact ⟨isOpen, (List.append_nil _).symm⟩
  | cons list lists ih =>
      obtain ⟨queued, stillOpen, _, _⟩ := send_open out list isOpen
      obtain ⟨stays, all⟩ := ih (out.sendInLoop list) stillOpen
      refine ⟨stays, all.trans ?_⟩
      rw [queued, List.append_assoc, List.flatten_cons]

end Lssvc.Network
