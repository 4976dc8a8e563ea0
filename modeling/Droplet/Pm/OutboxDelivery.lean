import Droplet.Pm.Outbox

/-! The outbox loses nothing: a row the cursor has gone past was handled, or failed often and long
enough to be given up, and rows are first handled in the order of the outbox. -/

namespace Droplet.Pm.Outbox

variable {Id : Type}

/-- A row with this key cannot commit any more. -/
def Settled (consumer : Consumer) (time : ℚ) (key : Key Id) : Prop :=
  ((ofLex key).1 : ℚ) + consumer.settleMs ≤ time

variable {consumer : Consumer}

theorem Settled.later {time t : ℚ} {key : Key Id} (settled : Settled consumer time key)
    (later : time ≤ t) : Settled consumer t key :=
  le_trans settled later

variable [LinearOrder Id]

def failureClocks (log : List (Outcome Id)) (replica : ℕ) (id : Id) : List ℤ :=
  log.filterMap (fun outcome =>
    match outcome with
    | .failed r i clock => if r = replica ∧ i = id then some clock else none
    | _ => none)

/-- Failures enough, and far enough apart. -/
def Spread (consumer : Consumer) (clocks : List ℤ) : Prop :=
  POISON_MIN_FAILURES ≤ clocks.length ∧
    ∃ first ∈ clocks, ∃ last ∈ clocks, consumer.poisonAfterMs ≤ last - first

/-- A row was handled, or given up behind failures enough. -/
def Done (consumer : Consumer) (log : List (Outcome Id)) (key : Key Id) : Prop :=
  .handled key ∈ log ∨ ∃ front back, log = front ++ .deadLettered key :: back ∧
    ∃ replica, Spread consumer (failureClocks front replica (ofLex key).2)

/-- The first success of a row is behind those of the rows before it alone. -/
def FirstsInOrder (log : List (Outcome Id)) : Prop :=
  ∀ front back key, log = front ++ .handled key :: back → .handled key ∉ front →
    ∀ other, .handled other ∈ front → other < key

theorem failureClocks_append (log more : List (Outcome Id)) (replica : ℕ) (id : Id) :
    failureClocks (log ++ more) replica id =
      failureClocks log replica id ++ failureClocks more replica id := by
  simp [failureClocks]

theorem Done.append {log : List (Outcome Id)} {key : Key Id} (done : Done consumer log key)
    (more : List (Outcome Id)) : Done consumer (log ++ more) key := by
  rcases done with handled | ⟨front, back, rfl, spread⟩
  · exact .inl (List.mem_append_left _ handled)
  · exact .inr ⟨front, back ++ more, by simp, spread⟩

/-- An outcome behind the log keeps the order if it is no success, a repeated one, or a success
past all others. -/
theorem FirstsInOrder.note {log : List (Outcome Id)} (firsts : FirstsInOrder log) (outcome : Outcome Id)
    (last : ∀ key, outcome = .handled key → ∀ other, .handled other ∈ log → other ≤ key) :
    FirstsInOrder (log ++ [outcome]) := by
  intro front back key split fresh other earlier
  rcases List.eq_nil_or_concat back with rfl | ⟨inner, final, rfl⟩
  · obtain ⟨rfl, same⟩ := List.append_inj' split rfl
    have outcome_eq := (List.cons.inj same).1
    refine lt_of_le_of_ne (last key outcome_eq other earlier) ?_
    intro equal
    exact fresh (equal ▸ earlier)
  · have inside : log = front ++ .handled key :: inner := by
      have longer : log ++ [outcome] = (front ++ .handled key :: inner) ++ [final] := by
        rw [split]
        simp
      exact (List.append_inj' longer rfl).1
    exact firsts front inner key inside fresh other earlier

theorem createdAt_mono (first second : OutboxRow Id) (order : first.key ≤ second.key) :
    first.createdAt ≤ second.createdAt := by
  rcases Prod.Lex.toLex_le_toLex.mp order with less | ⟨same, _⟩
  · exact le_of_lt less
  · exact le_of_eq same

theorem settled_lt (consumer : Consumer) (time t : ℚ) (key : Key Id) (row : OutboxRow Id)
    (settled : Settled consumer time key) (later : time < t)
    (punctual : t ≤ row.createdAt + consumer.settleMs) : key < row.key := by
  have less : (ofLex key).1 < row.createdAt := by
    unfold Settled at settled
    have chain : ((ofLex key).1 : ℚ) < row.createdAt := by linarith
    exact_mod_cast chain
  exact Prod.Lex.lt_iff.mpr (.inl less)

/-- What the tables and the log have to do with each other. -/
structure Core (consumer : Consumer) (state : State Id) : Prop where
  unique : state.rows.Pairwise (fun first second => first.key ≠ second.key)
  unstarted : state.cursor = none → ∀ key, .handled key ∉ state.log
  started : ∀ cursor, state.cursor = some cursor → ∃ initial, state.initial = some initial ∧
    initial ≤ cursor ∧ (initial < cursor → Settled consumer state.time cursor) ∧
      ∀ row ∈ state.rows, visible consumer row = true → initial < row.key → row.key ≤ cursor →
        Done consumer state.log row.key
  heard : ∀ key, .handled key ∈ state.log → Settled consumer state.time key ∧
    ∀ cursor, state.cursor = some cursor → ∀ row ∈ state.rows, visible consumer row = true →
      cursor < row.key → key ≤ row.key
  firsts : FirstsInOrder state.log
  counted : ∀ replica id failure, state.tracked replica id = some failure →
    failure.count ≤ (failureClocks state.log replica id).length ∧
      failure.firstAt ∈ failureClocks state.log replica id

/-- A batch that holds all there is to handle up to its last row. -/
structure Batch (consumer : Consumer) (state : State Id) (cursor : Key Id)
    (rows : List (OutboxRow Id)) : Prop where
  sorted : rows.Pairwise (fun first second => first.key < second.key)
  after : ∀ row ∈ rows, cursor < row.key
  settled : ∀ row ∈ rows, Settled consumer state.time row.key
  fresh : ∀ row ∈ rows, ∀ key, .handled key ∈ state.log → key ≤ row.key
  whole : ∀ x ∈ state.rows, visible consumer x = true → ∀ row ∈ rows, cursor < x.key →
    x.key ≤ row.key → ∃ z ∈ rows, z.key = x.key

def PhaseOk (consumer : Consumer) (state : State Id) : Phase Id → Prop
  | .begun => True
  | .loading now => (now : ℚ) ≤ state.time
  | .creating now => (now : ℚ) ≤ state.time
  | .rereading now => (now : ℚ) ≤ state.time
  | .reading now cursor => (now : ℚ) ≤ state.time ∧ state.cursor = some cursor
  | .handling rows _ => ∃ cursor, state.cursor = some cursor ∧ Batch consumer state cursor rows
  | .advancing row rest _ => ∃ cursor, state.cursor = some cursor ∧
      Batch consumer state cursor (row :: rest) ∧ Done consumer state.log row.key

structure Sound (consumer : Consumer) (state : State Id) : Prop where
  core : Core consumer state
  phase : ∀ sweep, state.sweep = some sweep → PhaseOk consumer state sweep.phase

variable {state : State Id}

theorem Core.later (core : Core consumer state) (t : ℚ) (later : state.time ≤ t) :
    Core consumer { state with time := t } := by
  refine ⟨core.unique, core.unstarted, ?_, ?_, core.firsts, core.counted⟩
  · intro cursor stored
    obtain ⟨initial, first, order, settled, done⟩ := core.started cursor stored
    exact ⟨initial, first, order, fun less => (settled less).later later, done⟩
  · intro key handled
    obtain ⟨settled, behind⟩ := core.heard key handled
    exact ⟨settled.later later, behind⟩

variable {cursor : Key Id} {rows : List (OutboxRow Id)}

theorem Batch.later (batch : Batch consumer state cursor rows) (t : ℚ) (later : state.time ≤ t) :
    Batch consumer { state with time := t } cursor rows :=
  ⟨batch.sorted, batch.after, fun row member => (batch.settled row member).later later, batch.fresh,
    batch.whole⟩

theorem PhaseOk.later {phase : Phase Id} (ok : PhaseOk consumer state phase) (t : ℚ)
    (later : state.time ≤ t) : PhaseOk consumer { state with time := t } phase := by
  cases phase with
  | begun => trivial
  | loading | creating | rereading => exact le_trans ok later
  | reading now cursor => exact ⟨le_trans ok.1 later, ok.2⟩
  | handling rows full =>
    obtain ⟨cursor, stored, batch⟩ := ok
    exact ⟨cursor, stored, batch.later t later⟩
  | advancing row rest full =>
    obtain ⟨cursor, stored, batch, done⟩ := ok
    exact ⟨cursor, stored, batch.later t later, done⟩

/-- Steps that change the table of rows: what they add is past everything settled. -/
structure Grows (consumer : Consumer) (before after : State Id) : Prop where
  time : after.time = before.time
  cursor : after.cursor = before.cursor
  initial : after.initial = before.initial
  tracked : after.tracked = before.tracked
  log : after.log = before.log
  unique : after.rows.Pairwise (fun first second => first.key ≠ second.key)
  rows : ∀ row ∈ after.rows, row ∈ before.rows ∨
    ∀ key, Settled consumer before.time key → key < row.key

variable {before after : State Id}

section

variable (grows : Grows consumer before after)
include grows

theorem Grows.core (core : Core consumer before) : Core consumer after := by
  refine ⟨grows.unique, ?_, ?_, ?_, grows.log ▸ core.firsts, ?_⟩
  · rw [grows.cursor, grows.log]
    exact core.unstarted
  · intro cursor stored
    rw [grows.cursor] at stored
    obtain ⟨initial, first, order, settled, done⟩ := core.started cursor stored
    refine ⟨initial, grows.initial ▸ first, order, grows.time ▸ settled, ?_⟩
    intro row member seen above below
    rw [grows.log]
    rcases grows.rows row member with old | new
    · exact done row old seen above below
    · exact absurd below (not_le_of_gt (new cursor (settled (lt_of_lt_of_le above below))))
  · intro key handled
    rw [grows.log] at handled
    obtain ⟨settled, behind⟩ := core.heard key handled
    refine ⟨grows.time ▸ settled, ?_⟩
    intro cursor stored row member seen above
    rw [grows.cursor] at stored
    rcases grows.rows row member with old | new
    · exact behind cursor stored row old seen above
    · exact le_of_lt (new key settled)
  · rw [grows.tracked, grows.log]
    exact core.counted

theorem Grows.batch (batch : Batch consumer before cursor rows) : Batch consumer after cursor rows := by
  refine ⟨batch.sorted, batch.after, grows.time ▸ batch.settled, grows.log ▸ batch.fresh, ?_⟩
  intro x member seen row listed above below
  rcases grows.rows x member with old | new
  · exact batch.whole x old seen row listed above below
  · exact absurd below (not_le_of_gt (new row.key (batch.settled row listed)))

theorem Grows.phase {phase : Phase Id} (ok : PhaseOk consumer before phase) : PhaseOk consumer after phase := by
  cases phase with
  | begun => trivial
  | loading | creating | rereading =>
    rw [PhaseOk, grows.time]
    exact ok
  | reading now cursor => exact ⟨grows.time ▸ ok.1, grows.cursor ▸ ok.2⟩
  | handling rows full =>
    obtain ⟨cursor, stored, batch⟩ := ok
    exact ⟨cursor, grows.cursor ▸ stored, grows.batch batch⟩
  | advancing row rest full =>
    obtain ⟨cursor, stored, batch, done⟩ := ok
    exact ⟨cursor, grows.cursor ▸ stored, grows.batch batch, grows.log ▸ done⟩

theorem Grows.sound (sound : Sound consumer before)
    (sweep : after.sweep = before.sweep) : Sound consumer after := by
  refine ⟨grows.core sound.core, ?_⟩
  intro under same
  rw [sweep] at same
  exact grows.phase (sound.phase under same)

end

theorem Sound.later (sound : Sound consumer state) (t : ℚ) (later : state.time ≤ t) :
    Sound consumer { state with time := t } :=
  ⟨sound.core.later t later, fun sweep under => (sound.phase sweep under).later t later⟩

theorem grows_pending (consumer : Consumer) (state : State Id) (core : Core consumer state)
    (pending : List (OutboxRow Id)) : Grows consumer state { state with pending := pending } :=
  ⟨rfl, rfl, rfl, rfl, rfl, core.unique, fun _ member => .inl member⟩

theorem grows_commit (consumer : Consumer) (state : State Id) (t : ℚ) (row : OutboxRow Id)
    (pending : List (OutboxRow Id)) (core : Core consumer state) (later : state.time < t)
    (punctual : t ≤ row.createdAt + consumer.settleMs) (new : ∀ other ∈ state.rows, other.id ≠ row.id) :
    Grows consumer state { state with pending := pending, rows := row :: state.rows } := by
  refine ⟨rfl, rfl, rfl, rfl, rfl, ?_, ?_⟩
  · refine List.pairwise_cons.mpr ⟨?_, core.unique⟩
    intro other member same
    have ids : row.id = other.id := congrArg (fun key : Key Id => (ofLex key).2) same
    exact new other member ids.symm
  · intro other member
    rcases List.mem_cons.mp member with rfl | old
    · right
      intro key settled
      exact settled_lt consumer state.time t key other settled later punctual
    · exact .inl old

theorem grows_remove (consumer : Consumer) (state : State Id) (core : Core consumer state)
    (keep : OutboxRow Id → Bool) : Grows consumer state { state with rows := state.rows.filter keep } := by
  refine ⟨rfl, rfl, rfl, rfl, rfl, core.unique.filter keep, ?_⟩
  intro row member
  exact .inl (List.mem_of_mem_filter member)

theorem Core.note (core : Core consumer state) (outcome : Outcome Id)
    (success : ∀ key, outcome = .handled key → state.cursor ≠ none ∧
      Settled consumer state.time key ∧ (∀ other, .handled other ∈ state.log → other ≤ key) ∧
      ∀ cursor, state.cursor = some cursor → ∀ row ∈ state.rows, visible consumer row = true →
        cursor < row.key → key ≤ row.key) : Core consumer (state.note outcome) := by
  refine ⟨core.unique, ?_, ?_, ?_, ?_, ?_⟩
  · intro absent key handled
    rcases List.mem_append.mp handled with old | new
    · exact core.unstarted absent key old
    · exact (success key (List.mem_singleton.mp new).symm).1 absent
  · intro cursor stored
    obtain ⟨initial, first, order, settled, done⟩ := core.started cursor stored
    exact ⟨initial, first, order, settled,
      fun row member seen above below => (done row member seen above below).append [outcome]⟩
  · intro key handled
    rcases List.mem_append.mp handled with old | new
    · exact core.heard key old
    · obtain ⟨_, settled, _, behind⟩ := success key (List.mem_singleton.mp new).symm
      exact ⟨settled, behind⟩
  · apply core.firsts.note
    intro key same other earlier
    exact (success key same).2.2.1 other earlier
  · intro replica id failure stored
    obtain ⟨many, first⟩ := core.counted replica id failure stored
    simp only [State.note, failureClocks_append, List.length_append]
    exact ⟨by omega, List.mem_append_left _ first⟩

theorem Batch.note (batch : Batch consumer state cursor rows) (outcome : Outcome Id)
    (success : ∀ key, outcome = .handled key → ∀ row ∈ rows, key ≤ row.key) :
    Batch consumer (state.note outcome) cursor rows := by
  refine ⟨batch.sorted, batch.after, batch.settled, ?_, batch.whole⟩
  intro row member key handled
  rcases List.mem_append.mp handled with old | new
  · exact batch.fresh row member key old
  · exact success key (List.mem_singleton.mp new).symm row member

theorem Core.setTracked (core : Core consumer state) (replica : ℕ) (id : Id) (failure : Option Failure)
    (counted : ∀ known, failure = some known →
      known.count ≤ (failureClocks state.log replica id).length ∧
        known.firstAt ∈ failureClocks state.log replica id) :
    Core consumer (state.setTracked replica id failure) := by
  refine ⟨core.unique, core.unstarted, core.started, core.heard, core.firsts, ?_⟩
  intro other row known stored
  simp only [State.setTracked, Function.update_apply] at stored
  split at stored
  · next same =>
    rw [Function.update_apply] at stored
    split at stored
    · next same_row =>
      subst same same_row
      exact counted known stored
    · subst same
      exact core.counted _ row known stored
  · exact core.counted other row known stored

variable {rest : List (OutboxRow Id)} {row : OutboxRow Id}

theorem Batch.head_le (batch : Batch consumer state cursor (row :: rest)) :
    ∀ other ∈ row :: rest, row.key ≤ other.key := by
  intro other member
  rcases List.mem_cons.mp member with rfl | later
  · exact le_refl _
  · exact le_of_lt ((List.pairwise_cons.mp batch.sorted).1 other later)

theorem Batch.head_first (batch : Batch consumer state cursor (row :: rest)) (x : OutboxRow Id)
    (member : x ∈ state.rows) (seen : visible consumer x = true) (above : cursor < x.key) : row.key ≤ x.key := by
  by_contra before
  obtain ⟨z, listed, same⟩ := batch.whole x member seen row List.mem_cons_self above
    (le_of_lt (not_le.mp before))
  exact before (same ▸ batch.head_le z listed)

theorem Core.advance (core : Core consumer state) (stored : state.cursor = some cursor)
    (batch : Batch consumer state cursor (row :: rest)) (done : Done consumer state.log row.key) :
    Core consumer { state with cursor := some row.key } := by
  refine ⟨core.unique, by simp, ?_, ?_, core.firsts, core.counted⟩
  · intro moved same
    obtain rfl := Option.some.inj same
    obtain ⟨initial, first, order, _, before⟩ := core.started cursor stored
    have past := batch.after row List.mem_cons_self
    refine ⟨initial, first, le_trans order (le_of_lt past), fun _ => batch.settled row List.mem_cons_self, ?_⟩
    intro x member seen above below
    by_cases old : x.key ≤ cursor
    · exact before x member seen above old
    · have same : x.key = row.key := le_antisymm below (batch.head_first x member seen (not_le.mp old))
      rw [same]
      exact done
  · intro key handled
    obtain ⟨settled, behind⟩ := core.heard key handled
    refine ⟨settled, ?_⟩
    intro moved same x member seen above
    obtain rfl := Option.some.inj same
    exact behind cursor stored x member seen (lt_trans (batch.after row List.mem_cons_self) above)

theorem Batch.advance (batch : Batch consumer state cursor (row :: rest)) :
    Batch consumer { state with cursor := some row.key } row.key rest := by
  obtain ⟨next, sorted⟩ := List.pairwise_cons.mp batch.sorted
  refine ⟨sorted, next, fun other member => batch.settled other (List.mem_cons_of_mem _ member),
    fun other member => batch.fresh other (List.mem_cons_of_mem _ member), ?_⟩
  intro x member seen other listed above below
  obtain ⟨z, found, same⟩ := batch.whole x member seen other (List.mem_cons_of_mem _ listed)
    (lt_trans (batch.after row List.mem_cons_self) above) below
  rcases List.mem_cons.mp found with rfl | later
  · exact absurd same (ne_of_lt above)
  · exact ⟨z, later, same⟩

theorem batch_read (consumer : Consumer) (state : State Id) (core : Core consumer state)
    (cursor : Key Id) (stored : state.cursor = some cursor) (now : ℤ) (clock : (now : ℚ) ≤ state.time)
    (limit : ℕ) : Batch consumer state cursor (readOutboxBatch consumer state.rows cursor now limit) := by
  have order : Std.Total (fun first second : OutboxRow Id => first.key ≤ second.key) :=
    ⟨fun first second => le_total first.key second.key⟩
  have transitive : IsTrans (OutboxRow Id) (fun first second => first.key ≤ second.key) :=
    ⟨fun _ _ _ => le_trans⟩
  generalize settled : state.rows.filter (fun row => visible consumer row &&
    decide (cursor < row.key ∧ row.createdAt ≤ now - consumer.settleMs)) = selected
  have read : readOutboxBatch consumer state.rows cursor now limit =
      (selected.insertionSort (fun first second => first.key ≤ second.key)).take limit := by
    rw [← settled]
    rfl
  generalize whole : selected.insertionSort (fun first second => first.key ≤ second.key) = all at read
  have perm : all.Perm selected := whole ▸ List.perm_insertionSort _ _
  have mem_all : ∀ row, row ∈ all ↔ row ∈ state.rows ∧ visible consumer row = true ∧
      cursor < row.key ∧ row.createdAt ≤ now - consumer.settleMs := by
    intro row
    rw [perm.mem_iff, ← settled, List.mem_filter, Bool.and_eq_true, decide_eq_true_iff]
  have sorted : all.Pairwise (fun first second => first.key < second.key) := by
    have distinct : all.Pairwise (fun first second => first.key ≠ second.key) := by
      rw [perm.pairwise_iff (fun different => different.symm), ← settled]
      exact core.unique.filter _
    have ascending : all.Pairwise (fun first second => first.key ≤ second.key) :=
      whole ▸ List.pairwise_insertionSort _ _
    exact (ascending.and distinct).imp (fun both => lt_of_le_of_ne both.1 both.2)
  have taken : ∀ row ∈ all.take limit, row ∈ all := fun row member => List.mem_of_mem_take member
  rw [read]
  refine ⟨sorted.sublist (List.take_sublist _ _), ?_, ?_, ?_, ?_⟩
  · intro row member
    exact ((mem_all row).mp (taken row member)).2.2.1
  · intro row member
    have old := ((mem_all row).mp (taken row member)).2.2.2
    have cast : ((row.createdAt + consumer.settleMs : ℤ) : ℚ) ≤ (now : ℚ) := by
      exact_mod_cast (by omega : row.createdAt + consumer.settleMs ≤ now)
    push_cast at cast
    exact le_trans cast clock
  · intro row member key handled
    obtain ⟨stored_row, seen, above, _⟩ := (mem_all row).mp (taken row member)
    exact (core.heard key handled).2 cursor stored row stored_row seen above
  · intro x stored_row seen row member above below
    have old := ((mem_all row).mp (taken row member)).2.2.2
    have inside : x ∈ all :=
      (mem_all x).mpr ⟨stored_row, seen, above, le_trans (createdAt_mono x row below) old⟩
    rw [← List.take_append_drop limit all] at inside sorted
    rcases List.mem_append.mp inside with front | back
    · exact ⟨x, front, rfl⟩
    · exact absurd below (not_le_of_gt ((List.pairwise_append.mp sorted).2.2 row member x back))

theorem Core.enter (core : Core consumer state) (sweep : Option (Sweep Id)) :
    Core consumer { state with sweep := sweep } :=
  ⟨core.unique, core.unstarted, core.started, core.heard, core.firsts, core.counted⟩

theorem PhaseOk.memory {phase : Phase Id} (ok : PhaseOk consumer state phase)
    (tracked : ℕ → Id → Option Failure) (sweep : Option (Sweep Id)) :
    PhaseOk consumer { state with tracked := tracked, sweep := sweep } phase := by
  cases phase with
  | handling rows full =>
    obtain ⟨cursor, stored, batch⟩ := ok
    exact ⟨cursor, stored, batch.sorted, batch.after, batch.settled, batch.fresh, batch.whole⟩
  | advancing row rest full =>
    obtain ⟨cursor, stored, batch, done⟩ := ok
    exact ⟨cursor, stored, ⟨batch.sorted, batch.after, batch.settled, batch.fresh, batch.whole⟩, done⟩
  | _ => exact ok

theorem Core.sound (core : Core consumer state) (sweep : Sweep Id) (phase : Phase Id)
    (ok : PhaseOk consumer state phase) : Sound consumer (state.enter sweep phase) := by
  refine ⟨core.enter _, ?_⟩
  intro other same
  obtain rfl := Option.some.inj same
  exact ok.memory state.tracked _

theorem Core.endSweep (core : Core consumer state) : Sound consumer state.endSweep :=
  ⟨core.enter none, by simp [State.endSweep]⟩

section

variable [OrderBot Id]

theorem Core.createCursor (core : Core consumer state) (now : ℤ) : Core consumer (state.createCursor now) := by
  unfold State.createCursor
  split
  · exact core
  · next absent =>
    refine ⟨core.unique, by simp, ?_, ?_, core.firsts, core.counted⟩
    · intro cursor same
      refine ⟨cursor, same, le_refl _, fun less => absurd less (lt_irrefl _), ?_⟩
      intro row _ _ above below
      exact absurd below (not_le_of_gt above)
    · intro key handled
      exact absurd handled (core.unstarted absent key)

theorem PhaseOk.createCursor {phase : Phase Id} (ok : PhaseOk consumer state phase) (now : ℤ) :
    PhaseOk consumer (state.createCursor now) phase := by
  unfold State.createCursor
  split
  · exact ok
  · next absent =>
    cases phase with
    | reading clock cursor =>
      have stored := ok.2
      rw [absent] at stored
      cases stored
    | handling | advancing =>
      obtain ⟨cursor, stored, _⟩ := ok
      rw [absent] at stored
      cases stored
    | _ => exact ok

theorem createCursor_time (state : State Id) (now : ℤ) : (state.createCursor now).time = state.time := by
  unfold State.createCursor
  split <;> rfl

theorem createCursor_sweep (state : State Id) (now : ℤ) : (state.createCursor now).sweep = state.sweep := by
  unfold State.createCursor
  split <;> rfl

theorem proceed_sound (consumer : Consumer) (state after : State Id) (t : ℚ) (sweep : Sweep Id)
    (core : Core consumer state) (ok : PhaseOk consumer state sweep.phase) (clock : state.time = t)
    (taken : proceed consumer state t sweep = some after) : Sound consumer after := by
  unfold proceed at taken
  split at taken
  · split at taken
    · obtain rfl := Option.some.inj taken
      exact core.endSweep
    · obtain rfl := Option.some.inj taken
      exact core.sound sweep _ (by rw [PhaseOk, clock]; exact Int.floor_le t)
  · next now phase =>
    rw [phase] at ok
    split at taken
    · next cursor stored =>
      obtain rfl := Option.some.inj taken
      exact core.sound sweep _ ⟨ok, stored⟩
    · obtain rfl := Option.some.inj taken
      exact core.sound sweep _ ok
  · next now phase =>
    rw [phase] at ok
    obtain rfl := Option.some.inj taken
    exact (core.createCursor now).sound sweep _ (by rw [PhaseOk, createCursor_time]; exact ok)
  · next now phase =>
    rw [phase] at ok
    split at taken
    · next cursor stored =>
      obtain rfl := Option.some.inj taken
      exact core.sound sweep _ ⟨ok, stored⟩
    · obtain rfl := Option.some.inj taken
      exact core.endSweep
  · next now cursor phase =>
    rw [phase] at ok
    obtain rfl := Option.some.inj taken
    exact core.sound sweep _ ⟨cursor, ok.2,
      batch_read consumer state core cursor ok.2 now ok.1 sweep.batchSize⟩
  · split at taken
    · obtain rfl := Option.some.inj taken
      exact core.sound _ _ trivial
    · obtain rfl := Option.some.inj taken
      exact core.endSweep
  · cases taken
  · next row rest full phase =>
    rw [phase] at ok
    obtain ⟨cursor, stored, batch, done⟩ := ok
    obtain rfl := Option.some.inj taken
    exact (core.advance stored batch done).sound sweep _ ⟨row.key, rfl, batch.advance⟩

end

theorem failureClocks_failed (log : List (Outcome Id)) (replica : ℕ) (id : Id) (clock : ℤ) :
    failureClocks (log ++ [.failed replica id clock]) replica id =
      failureClocks log replica id ++ [clock] := by
  simp [failureClocks]

theorem counted_failed (consumer : Consumer) (state : State Id) (core : Core consumer state)
    (replica : ℕ) (id : Id) (clock : ℤ) :
    ((state.tracked replica id).map Failure.count).getD 0 + 1 ≤
        (failureClocks (state.note (.failed replica id clock)).log replica id).length ∧
      ((state.tracked replica id).map Failure.firstAt).getD clock ∈
        failureClocks (state.note (.failed replica id clock)).log replica id ∧
      clock ∈ failureClocks (state.note (.failed replica id clock)).log replica id := by
  rw [State.note, failureClocks_failed, List.length_append]
  cases known : state.tracked replica id with
  | none => simp
  | some failure =>
    obtain ⟨many, first⟩ := core.counted replica id failure known
    simp only [Option.map_some, Option.getD_some, List.length_singleton]
    exact ⟨by omega, List.mem_append_left _ first, by simp⟩

theorem handle_sound (consumer : Consumer) (state after : State Id) (t : ℚ) (success : Bool)
    (sweep : Sweep Id) (core : Core consumer state) (ok : PhaseOk consumer state sweep.phase)
    (taken : handle consumer state t success sweep = some after) : Sound consumer after := by
  unfold handle at taken
  split at taken
  · next row rest full phase =>
    rw [phase] at ok
    obtain ⟨cursor, stored, batch⟩ := ok
    split at taken
    · obtain rfl := Option.some.inj taken
      have noted : Core consumer (state.note (.handled row.key)) := by
        apply core.note
        intro key same
        obtain rfl := Outcome.handled.inj same
        refine ⟨by simp [stored], batch.settled row List.mem_cons_self,
          batch.fresh row List.mem_cons_self, ?_⟩
        intro current now x member seen above
        obtain rfl : cursor = current := Option.some.inj (stored.symm.trans now)
        exact batch.head_first x member seen above
      have kept := batch.note (.handled row.key) (by
        intro key same
        obtain rfl := Outcome.handled.inj same
        exact batch.head_le)
      refine (noted.setTracked sweep.replica row.id none (by simp)).sound sweep _
        ⟨cursor, stored, ⟨kept.sorted, kept.after, kept.settled, kept.fresh, kept.whole⟩, ?_⟩
      exact .inl (by simp [State.setTracked, State.note])
    · have failed : Core consumer (state.note (.failed sweep.replica row.id ⌊t⌋)) :=
        core.note _ (by simp)
      obtain ⟨many, first, last⟩ := counted_failed consumer state core sweep.replica row.id ⌊t⌋
      dsimp only at taken
      split at taken
      · next poison =>
        obtain rfl := Option.some.inj taken
        have given := failed.note (.deadLettered row.key) (by simp)
        have kept := (batch.note (.failed sweep.replica row.id ⌊t⌋) (by simp)).note
          (.deadLettered row.key) (by simp)
        refine (given.setTracked sweep.replica row.id none (by simp)).sound sweep _
          ⟨cursor, stored, ⟨kept.sorted, kept.after, kept.settled, kept.fresh, kept.whole⟩, ?_⟩
        exact .inr ⟨_, [], rfl, sweep.replica, le_trans poison.1 many, _, first, ⌊t⌋, last, poison.2⟩
      · obtain rfl := Option.some.inj taken
        apply Core.endSweep
        apply failed.setTracked
        intro known same
        obtain rfl := Option.some.inj same
        exact ⟨many, first⟩
  · cases taken

/-- A consumer that has not run yet, with any rows committed and any under way. -/
structure Fresh (state : State Id) : Prop where
  unique : state.rows.Pairwise (fun first second => first.id ≠ second.id)
  cursor : state.cursor = none
  sweep : state.sweep = none
  tracked : ∀ replica id, state.tracked replica id = none
  log : state.log = []

theorem Fresh.sound (fresh : Fresh state) : Sound consumer state := by
  constructor
  · constructor
    · apply fresh.unique.imp
      intro first second different same
      exact different (congrArg (fun key : Key Id => (ofLex key).2) same)
    · simp [fresh.log]
    · simp [fresh.cursor]
    · simp [fresh.log]
    · intro front back key split
      rw [fresh.log] at split
      simp at split
    · simp [fresh.tracked]
  · simp [fresh.sweep]

variable [OrderBot Id]

theorem step_sound (consumer : Consumer) (state after : State Id) (t : ℚ) (event : Event Id)
    (sound : Sound consumer state) (taken : step consumer state t event = some after) : Sound consumer after := by
  unfold step at taken
  split at taken
  · cases taken
  · next later =>
    rw [not_le] at later
    obtain ⟨core, phase⟩ := sound.later t (le_of_lt later)
    cases event with
    | insert row =>
      obtain rfl := Option.some.inj taken
      have grown := (grows_pending consumer state sound.core (row :: state.pending)).sound sound rfl
      exact grown.later t (le_of_lt later)
    | commit row =>
      dsimp only at taken
      split at taken
      · next allowed =>
        obtain rfl := Option.some.inj taken
        obtain ⟨_, punctual, new⟩ := allowed
        have grown := (grows_commit consumer state t row (state.pending.erase row) sound.core later
          punctual new).sound sound rfl
        exact grown.later t (le_of_lt later)
      · cases taken
    | rollback row =>
      obtain rfl := Option.some.inj taken
      have grown := (grows_pending consumer state sound.core (state.pending.erase row)).sound sound rfl
      exact grown.later t (le_of_lt later)
    | remove id =>
      obtain rfl := Option.some.inj taken
      have grown := (grows_remove consumer state sound.core (fun row => row.id ≠ id)).sound sound rfl
      exact grown.later t (le_of_lt later)
    | rival stamp =>
      obtain rfl := Option.some.inj taken
      refine ⟨core.createCursor stamp, ?_⟩
      intro sweep under
      rw [createCursor_sweep] at under
      exact (phase sweep under).createCursor stamp
    | begin replica batchSize =>
      dsimp only at taken
      split at taken
      · cases taken
      · obtain rfl := Option.some.inj taken
        exact core.sound ⟨replica, batchSize, 0, .begun⟩ .begun trivial
    | proceed =>
      obtain ⟨sweep, under, taken⟩ := Option.bind_eq_some_iff.mp taken
      exact proceed_sound consumer _ after t sweep core (phase sweep under) rfl taken
    | handle success =>
      obtain ⟨sweep, under, taken⟩ := Option.bind_eq_some_iff.mp taken
      exact handle_sound consumer _ after t success sweep core (phase sweep under) taken
    | stop =>
      obtain rfl := Option.some.inj taken
      exact core.endSweep
    | crash replica =>
      obtain rfl := Option.some.inj taken
      constructor
      · refine ⟨core.unique, core.unstarted, core.started, core.heard, core.firsts, ?_⟩
        intro other id failure stored
        simp only [Function.update_apply] at stored
        split at stored
        · cases stored
        · exact core.counted other id failure stored
      · intro sweep under
        have kept : state.sweep = some sweep := (Option.filter_eq_some_iff.mp under).1
        exact (phase sweep kept).memory _ _

theorem run_sound (consumer : Consumer) (state after : State Id) (events : List (ℚ × Event Id))
    (sound : Sound consumer state) (ran : run consumer state events = some after) : Sound consumer after := by
  induction events generalizing state with
  | nil => exact Option.some.inj ran ▸ sound
  | cons event events ih =>
    obtain ⟨next, taken, ran⟩ := Option.bind_eq_some_iff.mp ran
    exact ih next (step_sound consumer state next event.1 event.2 sound taken) ran

/-- In every state of every run: a row of a work item, behind the first cursor and not past the
present one, was handled or given up after failures enough, and the first successes are in the
order of the outbox. -/
theorem outbox_loses_nothing (consumer : Consumer) (start after : State Id) (fresh : Fresh start)
    (events : List (ℚ × Event Id)) (ran : run consumer start events = some after) :
    (∀ initial cursor, after.initial = some initial → after.cursor = some cursor →
      ∀ row ∈ after.rows, row.workItemId ≠ none → initial < row.key → row.key ≤ cursor →
        Done consumer after.log row.key) ∧
      FirstsInOrder after.log := by
  have sound := run_sound consumer start after events fresh.sound ran
  refine ⟨?_, sound.core.firsts⟩
  intro initial cursor first stored row member attached above below
  obtain ⟨known, same, _, _, done⟩ := sound.core.started cursor stored
  obtain rfl : known = initial := Option.some.inj (same.symm.trans first)
  apply done row member _ above below
  simp [visible, Option.isSome_iff_ne_none, attached]

/-- Nothing written yet. -/
def emptyOutbox : State ℕ :=
  ⟨0, [], [], none, none, fun _ _ => none, none, []⟩

def webhooks : Consumer := { name := "pm-webhooks" }

def slowRow : OutboxRow ℕ := ⟨2, 8, some "w1", none⟩
def quickRow : OutboxRow ℕ := ⟨1, 9, some "w2", none⟩

/-- The cursor is created; of two rows the later one commits first; a sweep then hands on both. -/
def lateCommit : List (ℚ × Event ℕ) :=
  [(1, .begin 0 10), (2, .proceed), (3, .proceed), (4, .proceed), (5, .proceed), (6, .proceed),
    (7, .proceed), (8, .insert slowRow), (9, .insert quickRow), (10, .commit quickRow),
    (5000, .commit slowRow), (7000, .begin 1 10), (7001, .proceed), (7002, .proceed), (7003, .proceed),
    (7004, .handle true), (7005, .proceed), (7006, .handle true), (7007, .proceed), (7008, .proceed)]

theorem late_commit_handled :
    ∃ after, run webhooks emptyOutbox lateCommit = some after ∧
      after.log = [.handled slowRow.key, .handled quickRow.key] ∧ FirstsInOrder after.log := by
  have fresh : Fresh emptyOutbox := ⟨List.Pairwise.nil, rfl, rfl, fun _ _ => rfl, rfl⟩
  have logged : (run webhooks emptyOutbox lateCommit).map State.log =
      some [.handled slowRow.key, .handled quickRow.key] := by decide +kernel
  obtain ⟨after, ran, log⟩ := Option.map_eq_some_iff.mp logged
  exact ⟨after, ran, log, (outbox_loses_nothing webhooks emptyOutbox after fresh lateCommit ran).2⟩

end Droplet.Pm.Outbox
