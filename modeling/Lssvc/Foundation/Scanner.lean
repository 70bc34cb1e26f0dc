import Mathlib.Data.List.Infix

set_option autoImplicit false

namespace Lssvc.Foundation

-- One attempt at the front of a buffer: break down, ask for more input (the
-- state may already have changed), or take some items and emit one output.
inductive ScanStep (State Output : Type) where
  | fail
  | wait (next : State)
  | take (next : State) (used : Nat) (output : Output)

-- The field carries the progress argument, so that draining a buffer is total.
structure Scanner (State Item Output : Type) where
  step : State → List Item → ScanStep State Output
  bounds : ∀ state buffer next used output,
    step state buffer = .take next used output → 0 < used ∧ used ≤ buffer.length

structure Scan (State Item Output : Type) where
  state : State
  rest : List Item
  outputs : List Output

variable {State Item Output : Type}

def Scan.fresh (state : State) : Scan State Item Output := ⟨state, [], []⟩

def Scan.emit (earlier : List Output) (scan : Scan State Item Output) : Scan State Item Output :=
  { scan with outputs := earlier ++ scan.outputs }

def Scanner.drain (scanner : Scanner State Item Output) (state : State) (buffer : List Item) :
    Option (Scan State Item Output) :=
  match _taken : scanner.step state buffer with
  | .fail => none
  | .wait next => some ⟨next, buffer, []⟩
  | .take next used output => (scanner.drain next (buffer.drop used)).map (Scan.emit [output])
termination_by buffer.length
decreasing_by
  have progress := scanner.bounds state buffer next used output _taken
  rw [List.length_drop]
  omega

theorem drain_wait (scanner : Scanner State Item Output) (state next : State) (buffer : List Item)
    (waited : scanner.step state buffer = .wait next) : scanner.drain state buffer = some ⟨next, buffer, []⟩ := by
  rw [Scanner.drain]
  split <;> simp_all

theorem drain_take (scanner : Scanner State Item Output) (state next : State) (buffer : List Item) (used : Nat)
    (output : Output) (taken : scanner.step state buffer = .take next used output) :
    scanner.drain state buffer = (scanner.drain next (buffer.drop used)).map (Scan.emit [output]) := by
  rw [Scanner.drain]
  split <;> simp_all

def Scanner.feed (scanner : Scanner State Item Output) :
    Scan State Item Output → List (List Item) → Option (Scan State Item Output)
  | scan, [] => some scan
  | scan, piece :: pieces =>
      (scanner.drain scan.state (scan.rest ++ piece)).bind fun next =>
        scanner.feed (next.emit scan.outputs) pieces

def Scanner.Within (scanner : Scanner State Item Output) (limit : Nat) :
    Scan State Item Output → List (List Item) → Prop
  | _, [] => True
  | scan, piece :: pieces =>
      (scan.rest ++ piece).length < limit ∧
        ∀ next, scanner.drain scan.state (scan.rest ++ piece) = some next →
          scanner.Within limit (next.emit scan.outputs) pieces

-- What makes a scanner insensitive to where its input is cut. Taking does not
-- depend on the items behind the taken ones, and the state left behind by an
-- attempt that asked for more input makes the repeated attempt come out as the
-- original state would have.
structure Resumable (scanner : Scanner State Item Output) (limit : Nat) (valid : State → Prop) : Prop where
  emptyWaits : ∀ state, scanner.step state [] = .wait state
  sound : ∀ state buffer, valid state → buffer.length < limit → scanner.step state buffer ≠ .fail
  waitValid : ∀ state buffer next, valid state → scanner.step state buffer = .wait next → valid next
  takeValid : ∀ state buffer next used output, valid state →
    scanner.step state buffer = .take next used output → valid next
  takeExtends : ∀ state buffer more next used output, valid state → (buffer ++ more).length < limit →
    scanner.step state buffer = .take next used output →
    scanner.step state (buffer ++ more) = .take next used output
  waitResumes : ∀ state buffer more next, valid state → (buffer ++ more).length < limit →
    scanner.step state buffer = .wait next →
    scanner.step next (buffer ++ more) = scanner.step state (buffer ++ more)

-- The takes a stream allows, each witnessed by a front of the stream short
-- enough to be buffered; the stream itself may be of any length.
inductive Chain (scanner : Scanner State Item Output) (limit : Nat) :
    State → List Item → State → List Item → List Output → Prop where
  | refl (state : State) (stream : List Item) : Chain scanner limit state stream state stream []
  | take {state middle last : State} {front stream rest : List Item} {used : Nat} {output : Output}
      {outputs : List Output} (isFront : front <+: stream) (short : front.length < limit)
      (taken : scanner.step state front = .take middle used output)
      (later : Chain scanner limit middle (stream.drop used) last rest outputs) :
      Chain scanner limit state stream last rest (output :: outputs)

theorem chain_front (scanner : Scanner State Item Output) (limit : Nat) {state next : State} {front : List Item}
    {output : Output} (short : front.length < limit)
    (taken : scanner.step state front = .take next front.length output) (more : List Item) :
    Chain scanner limit state (front ++ more) next more [output] := by
  refine .take (List.prefix_append front more) short taken ?_
  rw [List.drop_left]
  exact .refl next more

theorem chain_append (scanner : Scanner State Item Output) (limit : Nat) {state last : State}
    {stream rest : List Item} {outputs : List Output} (chain : Chain scanner limit state stream last rest outputs)
    (more : List Item) : Chain scanner limit state (stream ++ more) last (rest ++ more) outputs := by
  induction chain with
  | refl state stream => exact .refl state (stream ++ more)
  | @take state middle last front stream rest used output outputs isFront short taken later ih =>
      have inFront := (scanner.bounds state front middle used output taken).2
      have inStream : used ≤ stream.length := Nat.le_trans inFront isFront.length_le
      refine .take (isFront.trans (List.prefix_append stream more)) short taken ?_
      rwa [List.drop_append_of_le_length inStream]

theorem chain_trans (scanner : Scanner State Item Output) (limit : Nat) {state middle last : State}
    {stream between rest : List Item} {front back : List Output}
    (first : Chain scanner limit state stream middle between front)
    (second : Chain scanner limit middle between last rest back) :
    Chain scanner limit state stream last rest (front ++ back) := by
  induction first with
  | refl => exact second
  | take isFront short taken _ ih => exact .take isFront short taken (ih second)

variable {scanner : Scanner State Item Output} {limit : Nat} {valid : State → Prop}

theorem chain_valid (law : Resumable scanner limit valid) {state last : State} {stream rest : List Item}
    {outputs : List Output} (chain : Chain scanner limit state stream last rest outputs)
    (start : valid state) : valid last := by
  induction chain with
  | refl => exact start
  | take _ _ taken _ ih => exact ih (law.takeValid _ _ _ _ _ start taken)

theorem take_unique (law : Resumable scanner limit valid) {state left right : State}
    {a b stream : List Item} {usedA usedB : Nat} {outA outB : Output} (start : valid state)
    (frontA : a <+: stream) (frontB : b <+: stream) (shortA : a.length < limit) (shortB : b.length < limit)
    (takenA : scanner.step state a = .take left usedA outA)
    (takenB : scanner.step state b = .take right usedB outB) :
    left = right ∧ usedA = usedB ∧ outA = outB := by
  rcases List.prefix_or_prefix_of_prefix frontA frontB with ⟨more, rfl⟩ | ⟨more, rfl⟩
  · have extended := law.takeExtends _ _ more _ _ _ start shortB takenA
    simpa using extended.symm.trans takenB
  · have extended := law.takeExtends _ _ more _ _ _ start shortA takenB
    simpa using takenA.symm.trans extended

theorem take_excludes_wait (law : Resumable scanner limit valid) {state middle next : State}
    {front stream : List Item} {used : Nat} {output : Output} (start : valid state)
    (isFront : front <+: stream) (short : stream.length < limit)
    (taken : scanner.step state front = .take middle used output) :
    scanner.step state stream ≠ .wait next := by
  obtain ⟨more, rfl⟩ := isFront
  rw [law.takeExtends _ _ more _ _ _ start short taken]
  simp

theorem chain_maximal (law : Resumable scanner limit valid) {state last other next : State}
    {stream rest otherRest : List Item} {outputs others : List Output} (start : valid state)
    (chain : Chain scanner limit state stream last rest outputs)
    (short : rest.length < limit) (waits : scanner.step last rest = .wait next)
    (partialChain : Chain scanner limit state stream other otherRest others) :
    others <+: outputs ∧ Chain scanner limit other otherRest last rest (outputs.drop others.length) := by
  induction partialChain generalizing outputs with
  | refl => exact ⟨List.nil_prefix, by simpa using chain⟩
  | @take state middle other front stream otherRest used output others isFront shortFront taken _ ih =>
      cases chain with
      | refl => exact absurd waits (take_excludes_wait law start isFront short taken)
      | take isFront' shortFront' taken' later' =>
          obtain ⟨rfl, rfl, rfl⟩ := take_unique law start isFront isFront' shortFront shortFront' taken taken'
          obtain ⟨front, tail⟩ := ih (law.takeValid _ _ _ _ _ start taken) later'
          exact ⟨(List.prefix_cons_inj output).mpr front, tail⟩

theorem chain_unique (law : Resumable scanner limit valid) {state last other next otherNext : State}
    {stream rest otherRest : List Item} {outputs others : List Output} (start : valid state)
    (chain : Chain scanner limit state stream last rest outputs)
    (short : rest.length < limit) (waits : scanner.step last rest = .wait next)
    (otherChain : Chain scanner limit state stream other otherRest others)
    (otherShort : otherRest.length < limit) (otherWaits : scanner.step other otherRest = .wait otherNext) :
    last = other ∧ rest = otherRest ∧ outputs = others := by
  obtain ⟨front, tail⟩ := chain_maximal law start chain short waits otherChain
  obtain ⟨back, _⟩ := chain_maximal law start otherChain otherShort otherWaits chain
  have same : outputs = others := List.IsPrefix.eq_of_length_le back front.length_le
  subst same
  rw [List.drop_length] at tail
  cases tail
  exact ⟨rfl, rfl, rfl⟩

theorem drain_chain (law : Resumable scanner limit valid) (state : State) (buffer : List Item)
    (start : valid state) (short : buffer.length < limit) :
    ∃ last result, scanner.drain state buffer = some result ∧ valid last ∧ valid result.state ∧
      Chain scanner limit state buffer last result.rest result.outputs ∧
      result.rest.length < limit ∧ scanner.step last result.rest = .wait result.state := by
  induction size : buffer.length using Nat.strongRecOn generalizing state buffer with
  | ind n ih =>
      subst size
      cases step : scanner.step state buffer with
      | fail => exact absurd step (law.sound state buffer start short)
      | wait next =>
          exact ⟨state, ⟨next, buffer, []⟩, drain_wait scanner state next buffer step, start,
            law.waitValid _ _ _ start step, .refl state buffer, short, step⟩
      | take next used output =>
          obtain ⟨positive, within⟩ := scanner.bounds _ _ _ _ _ step
          have smaller : (buffer.drop used).length < buffer.length := by rw [List.length_drop]; omega
          obtain ⟨last, result, drained, lastValid, resultValid, chain, shortRest, waits⟩ :=
            ih _ smaller next (buffer.drop used) (law.takeValid _ _ _ _ _ start step) (by omega) rfl
          refine ⟨last, result.emit [output], ?_, lastValid, resultValid,
            .take (List.prefix_refl buffer) short step chain, shortRest, waits⟩
          rw [drain_take scanner state next buffer used output step, drained]
          rfl

theorem drain_resumes (law : Resumable scanner limit valid) (clean state : State) (rest piece : List Item)
    (start : valid clean) (short : (rest ++ piece).length < limit)
    (waited : scanner.step clean rest = .wait state) :
    scanner.drain state (rest ++ piece) = scanner.drain clean (rest ++ piece) := by
  have same := law.waitResumes clean rest piece state start short waited
  rw [Scanner.drain, Scanner.drain]
  split <;> split <;> simp_all

theorem feed_chain (law : Resumable scanner limit valid) (pieces : List (List Item))
    (scan : Scan State Item Output) (clean : State) (start : valid clean)
    (shortRest : scan.rest.length < limit) (waited : scanner.step clean scan.rest = .wait scan.state)
    (within : scanner.Within limit scan pieces) :
    ∃ last result outputs, scanner.feed scan pieces = some result ∧ valid result.state ∧
      Chain scanner limit clean (scan.rest ++ pieces.flatten) last result.rest outputs ∧
      result.outputs = scan.outputs ++ outputs ∧ result.rest.length < limit ∧
      scanner.step last result.rest = .wait result.state := by
  induction pieces generalizing scan clean with
  | nil =>
      refine ⟨clean, scan, [], rfl, law.waitValid _ _ _ start waited, ?_, by simp, shortRest, waited⟩
      simpa using Chain.refl clean scan.rest
  | cons piece pieces ih =>
      obtain ⟨short, later⟩ := within
      obtain ⟨middle, drained, drain, middleValid, _, chain, shortDrained, waits⟩ :=
        drain_chain law clean (scan.rest ++ piece) start short
      have resumed := (drain_resumes law clean scan.state scan.rest piece start short waited).trans drain
      obtain ⟨last, result, outputs, fed, resultValid, tail, emitted, shortResult, finalWait⟩ :=
        ih (drained.emit scan.outputs) middle middleValid shortDrained waits (later drained resumed)
      refine ⟨last, result, drained.outputs ++ outputs, ?_, resultValid, ?_, ?_, shortResult, finalWait⟩
      · rw [Scanner.feed, resumed]
        exact fed
      · rw [List.flatten_cons, ← List.append_assoc]
        exact chain_trans scanner limit (chain_append scanner limit chain pieces.flatten) tail
      · rw [emitted]
        simp [Scan.emit]

theorem feed_of_chain (law : Resumable scanner limit valid) {state last next : State}
    {stream rest : List Item} {outputs : List Output} (start : valid state)
    (chain : Chain scanner limit state stream last rest outputs)
    (short : rest.length < limit) (waits : scanner.step last rest = .wait next)
    (pieces : List (List Item)) (cut : pieces.flatten = stream) (positive : 0 < limit)
    (within : scanner.Within limit (.fresh state) pieces) :
    scanner.feed (.fresh state) pieces = some ⟨next, rest, outputs⟩ := by
  obtain ⟨other, result, others, fed, _, otherChain, emitted, otherShort, otherWaits⟩ :=
    feed_chain law pieces (.fresh state) state start positive (law.emptyWaits state) within
  rw [show (Scan.fresh state : Scan State Item Output).rest ++ pieces.flatten = stream from cut] at otherChain
  obtain ⟨rfl, sameRest, rfl⟩ := chain_unique law start chain short waits otherChain otherShort otherWaits
  rw [← sameRest] at otherWaits
  rw [fed]
  cases result with
  | mk resultState resultRest resultOutputs =>
      simp only [Scan.fresh, List.nil_append] at emitted sameRest otherWaits
      have sameState : next = resultState := by simpa using waits.symm.trans otherWaits
      simp [emitted, sameRest, sameState]

theorem feed_unique (law : Resumable scanner limit valid) (state : State) (start : valid state)
    (pieces others : List (List Item)) (same : pieces.flatten = others.flatten) (positive : 0 < limit)
    (within : scanner.Within limit (.fresh state) pieces)
    (otherWithin : scanner.Within limit (.fresh state) others) :
    ∃ result, scanner.feed (.fresh state) pieces = some result ∧
      scanner.feed (.fresh state) others = some result := by
  obtain ⟨last, result, outputs, fed, _, chain, emitted, short, waits⟩ :=
    feed_chain law pieces (.fresh state) state start positive (law.emptyWaits state) within
  refine ⟨result, fed, ?_⟩
  rw [feed_of_chain law start chain short waits others same.symm positive otherWithin]
  cases result
  simp_all [Scan.fresh]

theorem feed_of_prefix (law : Resumable scanner limit valid) {state last next : State}
    {stream rest : List Item} {outputs : List Output} (start : valid state)
    (chain : Chain scanner limit state stream last rest outputs)
    (short : rest.length < limit) (waits : scanner.step last rest = .wait next)
    (pieces : List (List Item)) (front : pieces.flatten <+: stream) (positive : 0 < limit)
    (within : scanner.Within limit (.fresh state) pieces) :
    ∃ result, scanner.feed (.fresh state) pieces = some result ∧ result.outputs <+: outputs := by
  obtain ⟨other, result, others, fed, _, otherChain, emitted, _, _⟩ :=
    feed_chain law pieces (.fresh state) state start positive (law.emptyWaits state) within
  obtain ⟨more, rfl⟩ := front
  have whole := chain_append scanner limit otherChain more
  obtain ⟨come, _⟩ := chain_maximal law start chain short waits whole
  refine ⟨result, fed, ?_⟩
  rw [emitted]
  exact come

end Lssvc.Foundation
