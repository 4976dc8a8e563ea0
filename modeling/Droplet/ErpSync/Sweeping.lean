import Droplet.ErpSync.Holder

/-! What a sweep makes of two reads (`erp-sync/reconcile.ts`), and which cursor it parks when it fails
(`erp-sync/erp-sync.service.ts`). -/

namespace Droplet.ErpSync

inductive ErpDriftClass where
  | missed_newer
  | watermark_behind
  deriving DecidableEq

structure ErpEntityDrift where
  entity : String
  fullCount : ℕ
  incrementalCount : ℕ
  missedCount : ℕ
  watermarkBehind : Bool
  classes : List ErpDriftClass
  earliestMissedAt : Option ℤ

section Drift

variable (dateParse : String → Option ℤ)

def isWatermarkAhead : Option String → Option String → Bool
  | none, _ => false
  | some _, none => true
  | some candidate, some reference =>
    match isoInstant dateParse candidate, isoInstant dateParse reference with
    | some a, some b => b < a
    | _, _ => false

def seen (incremental : List Row) (row : Row) : Bool := incremental.any fun other => other.key = row.key

structure Missed where
  count : ℕ := 0
  earliestAt : Option ℤ := none

def Missed.step (watermark : Option String) (incremental : List Row) (missed : Missed) (row : Row) :
    Missed :=
  if seen incremental row then missed
  else
    let value := watermarkValueOf row
    if !isWatermarkAhead dateParse value watermark then missed
    else
      { count := missed.count + 1
        earliestAt :=
          match value >>= isoInstant dateParse, missed.earliestAt with
          | none, earliest => earliest
          | some at_, none => some at_
          | some at_, some earliest => if at_ < earliest then some at_ else some earliest }

/-- The rows are those that `identify` keeps. -/
def diffForDrift (entity : String) (watermark : Option String) (incremental full : List Row) :
    ErpEntityDrift :=
  let missed := full.foldl (Missed.step dateParse watermark incremental) {}
  let behind := isWatermarkAhead dateParse (highestWatermark dateParse full)
    ((highestWatermark dateParse incremental).or watermark)
  { entity
    fullCount := full.length
    incrementalCount := incremental.length
    missedCount := missed.count
    watermarkBehind := behind
    classes := (if 0 < missed.count then [.missed_newer] else []) ++
      if behind then [.watermark_behind] else []
    earliestMissedAt := missed.earliestAt }

def After (watermark : Option String) (row : Row) : Prop :=
  ∀ text ∈ watermark, ∃ since at_, isoInstant dateParse text = some since ∧
    position dateParse row = some at_ ∧ since < at_

def Withheld (watermark : Option String) (incremental : List Row) (row : Row) : Prop :=
  seen incremental row = false ∧ After dateParse watermark row

open scoped Classical in
/-- The full rows that were withheld. -/
noncomputable def withheld (watermark : Option String) (incremental full : List Row) : List Row :=
  full.filter fun row => Withheld dateParse watermark incremental row

variable {dateParse} {watermark : Option String} {incremental full : List Row} {row : Row}

theorem ahead_iff (placed : watermark = none → position dateParse row ≠ none) :
    isWatermarkAhead dateParse (watermarkValueOf row) watermark = true ↔
      After dateParse watermark row := by
  simp only [After, position] at placed ⊢
  cases watermark with
  | none =>
    cases read : watermarkValueOf row with
    | none => exact absurd (by rw [read]; rfl) (placed rfl)
    | some value => simp [isWatermarkAhead]
  | some text =>
    cases watermarkValueOf row with
    | none => simp [isWatermarkAhead]
    | some value =>
      cases instant : isoInstant dateParse value <;> cases since : isoInstant dateParse text <;>
        simp [isWatermarkAhead, instant, since]

structure Missed.Of (dateParse : String → Option ℤ) (rows : List Row) (missed : Missed) : Prop where
  count : missed.count = rows.length
  unplaced : missed.earliestAt = none → instants dateParse rows = ∅
  least : ∀ at_, missed.earliestAt = some at_ → IsLeast (instants dateParse rows) at_

theorem Missed.Of.earliest {rows : List Row} {missed : Missed} (held : missed.Of dateParse rows)
    (at_ : ℤ) : missed.earliestAt = some at_ ↔ IsLeast (instants dateParse rows) at_ := by
  refine ⟨held.least at_, fun least => ?_⟩
  cases found : missed.earliestAt with
  | none => simp [held.unplaced found, IsLeast] at least
  | some other => rw [(held.least other found).unique least]

theorem Missed.Of.step {rows : List Row} {missed : Missed} (held : missed.Of dateParse rows)
    (unseen : seen incremental row = false)
    (ahead : isWatermarkAhead dateParse (watermarkValueOf row) watermark = true) {at_ : ℤ}
    (placed : position dateParse row = some at_) :
    (missed.step dateParse watermark incremental row).Of dateParse (rows ++ [row]) := by
  have value : watermarkValueOf row >>= isoInstant dateParse = some at_ := placed
  unfold Missed.step
  rw [if_neg (by simp [unseen])]
  simp only [ahead, value, Bool.not_true, Bool.false_eq_true, if_false]
  refine ⟨by simp [held.count], ?_, ?_⟩
  · intro nothing
    cases before : missed.earliestAt with
    | none => simp [before] at nothing
    | some earliest =>
      simp only [before] at nothing
      split at nothing <;> cases nothing
  · intro first same
    rw [instants_concat, placed]
    cases before : missed.earliestAt with
    | none =>
      simp only [before, Option.some.injEq] at same
      simp [held.unplaced before, same, IsLeast, lowerBounds]
    | some earliest =>
      obtain ⟨member, least⟩ := held.least earliest before
      simp only [before] at same
      split at same
      · rename_i earlier
        obtain rfl := Option.some.inj same
        refine ⟨.inr rfl, ?_⟩
        rintro other (old | new)
        · exact earlier.le.trans (least old)
        · exact (Option.some.inj new).le
      · rename_i later
        obtain rfl := Option.some.inj same
        refine ⟨.inl member, ?_⟩
        rintro other (old | new)
        · exact least old
        · exact Option.some.inj new ▸ not_lt.mp later

theorem Missed.of_fold (rows : List Row) (placed : watermark = none → ∀ row ∈ rows, seen incremental row = false →
      position dateParse row ≠ none) :
    Missed.Of dateParse (withheld dateParse watermark incremental rows)
      (rows.foldl (Missed.step dateParse watermark incremental) {}) := by
  induction rows using List.reverseRecOn with
  | nil => constructor <;> simp [withheld, instants]
  | append_singleton rows row ih =>
    have held := ih fun none_ other there => placed none_ other (by simp [there])
    rw [List.foldl_append, List.foldl_cons, List.foldl_nil]
    generalize rows.foldl (Missed.step dateParse watermark incremental) {} = missed at *
    have split : withheld dateParse watermark incremental (rows ++ [row]) =
        withheld dateParse watermark incremental rows ++
          withheld dateParse watermark incremental [row] := by
      simp [withheld]
    rw [split]
    by_cases here : Withheld dateParse watermark incremental row
    · have one : withheld dateParse watermark incremental [row] = [row] := by
        simp [withheld, here]
      obtain ⟨unseen, later⟩ := here
      have ahead := (ahead_iff fun none_ => placed none_ row (by simp) unseen).mpr later
      obtain ⟨at_, instant⟩ : ∃ at_, position dateParse row = some at_ := by
        cases watermark with
        | none => exact Option.ne_none_iff_exists'.mp (placed rfl row (by simp) unseen)
        | some text =>
          obtain ⟨-, at_, -, instant, -⟩ := later text rfl
          exact ⟨at_, instant⟩
      rw [one]
      exact held.step unseen ahead instant
    · have none_ : withheld dateParse watermark incremental [row] = [] := by
        simp [withheld, here]
      have same : missed.step dateParse watermark incremental row = missed := by
        unfold Missed.step
        split
        · rfl
        · rename_i unseen
          have unseen := Bool.eq_false_iff.mpr unseen
          have early : ¬ isWatermarkAhead dateParse (watermarkValueOf row) watermark = true := by
            intro ahead
            exact here ⟨unseen, (ahead_iff fun none_ => placed none_ row (by simp) unseen).mp ahead⟩
          simp [early]
      rw [none_, List.append_nil, same]
      exact held

/-- Rows that were read have instants, and a row of the full read has one after all of them. -/
def Outrun (dateParse : String → Option ℤ) (incremental full : List Row) : Prop :=
  (instants dateParse incremental).Nonempty ∧
    ∃ at_ ∈ instants dateParse full, ∀ other ∈ instants dateParse incremental, other < at_

theorem behind_iff (covers : ∀ row ∈ full, After dateParse watermark row → row ∈ incremental) :
    isWatermarkAhead dateParse (highestWatermark dateParse full)
        ((highestWatermark dateParse incremental).or watermark) = true ↔
      Outrun dateParse incremental full := by
  rcases highestWatermark_cases dateParse full with
    ⟨high, at_, is, parsed, -, ⟨⟨row, there, placed⟩, top⟩⟩ | ⟨empty, unplaced, -⟩
  · rcases highestWatermark_cases dateParse incremental with
      ⟨reached, other, is', parsed', -, ⟨member, top'⟩⟩ | ⟨empty, unplaced, nothing⟩
    · rw [is, is', Option.some_or, isWatermarkAhead]
      simp only [parsed, parsed', decide_eq_true_eq]
      constructor
      · intro later
        exact ⟨⟨other, member⟩, at_, ⟨row, there, placed⟩,
          fun before inside => lt_of_le_of_lt (top' inside) later⟩
      · intro outrun
        obtain ⟨-, last, inside, after⟩ := outrun
        exact lt_of_lt_of_le (after other member) (top inside)
    · -- no row that was read is placed, so the row that is highest is not after the watermark
      have unread : ¬ After dateParse watermark row := by
        intro later
        have inside : at_ ∈ instants dateParse incremental := ⟨row, covers row there later, placed⟩
        simp [empty] at inside
      have outrun : ¬ Outrun dateParse incremental full := by simp [Outrun, empty]
      simp only [outrun, iff_false, is]
      intro ahead
      cases reached : highestWatermark dateParse incremental with
      | some value => simp [reached, isWatermarkAhead, (unplaced value reached).1] at ahead
      | none =>
        rw [reached, Option.none_or] at ahead
        apply unread
        intro text same
        rw [Option.mem_def.mp same] at ahead
        simp only [isWatermarkAhead, parsed] at ahead
        cases since : isoInstant dateParse text with
        | none => simp [since] at ahead
        | some since' => exact ⟨since', at_, rfl, placed, by simpa [since] using ahead⟩
  · have outrun : ¬ Outrun dateParse incremental full := by simp [Outrun, empty]
    simp only [outrun, iff_false]
    intro ahead
    cases high : highestWatermark dateParse full with
    | none => simp [high, isWatermarkAhead] at ahead
    | some value =>
      obtain ⟨unparsed, filled, row, there, valued⟩ := unplaced value high
      cases reference : (highestWatermark dateParse incremental).or watermark with
      | some text => simp [high, reference, isWatermarkAhead, unparsed] at ahead
      | none =>
        obtain ⟨reached, rfl⟩ := Option.or_eq_none_iff.mp reference
        rcases highestWatermark_cases dateParse incremental with
          ⟨_, _, is, -⟩ | ⟨-, -, nothing⟩
        · rw [reached] at is
          cases is
        · exact filled (nothing reached row (covers row there nofun) value valued)

theorem instants_perm {rows others : List Row} (same : rows.Perm others) :
    instants dateParse rows = instants dateParse others := by
  ext at_
  simp [instants, same.mem_iff]

/-- With every full row after the watermark read, no row is reported missed, and the reads lag behind only
where rows that were read are all placed before another; what is reported missed are the rows that were
withheld, in whatever order they come. -/
theorem drift_is_a_withheld_row (entity : String) (watermark : Option String)
    (incremental full : List Row) :
    let drift := diffForDrift dateParse entity watermark incremental full
    ((∀ row ∈ full, After dateParse watermark row → row ∈ incremental) →
      ErpDriftClass.missed_newer ∉ drift.classes ∧
        (.watermark_behind ∈ drift.classes ↔ Outrun dateParse incremental full)) ∧
    ((watermark = none → ∀ row ∈ full, seen incremental row = false →
        position dateParse row ≠ none) →
      drift.missedCount = (withheld dateParse watermark incremental full).length ∧
        ∀ at_, drift.earliestMissedAt = some at_ ↔
          IsLeast (instants dateParse (withheld dateParse watermark incremental full)) at_) ∧
    ∀ other, other.Perm full → (∀ row ∈ full, position dateParse row ≠ none) →
      (diffForDrift dateParse entity watermark incremental other).missedCount = drift.missedCount ∧
        (diffForDrift dateParse entity watermark incremental other).earliestMissedAt =
          drift.earliestMissedAt := by
  refine ⟨?_, ?_, ?_⟩
  · intro covers
    have read (row : Row) (there : row ∈ full) (later : After dateParse watermark row) :
        seen incremental row = true :=
      List.any_eq_true.mpr ⟨row, covers row there later, by simp⟩
    have held := @Missed.of_fold dateParse watermark incremental full (by
      intro none_ row there unseen
      have seen_ := read row there (by simp [After, none_])
      simp [unseen] at seen_)
    have nothing : withheld dateParse watermark incremental full = [] := by
      rw [withheld, List.filter_eq_nil_iff]
      intro row there hidden
      obtain ⟨unseen, later⟩ : Withheld dateParse watermark incremental row := by simpa using hidden
      simp [read row there later] at unseen
    have count := held.count
    rw [nothing, List.length_nil] at count
    rw [← behind_iff covers]
    simp [diffForDrift, count]
  · intro placed
    have held := Missed.of_fold full placed
    exact ⟨held.count, held.earliest⟩
  · intro other same placed
    have held := @Missed.of_fold dateParse watermark incremental full
      fun _ row there _ => placed row there
    have held' := @Missed.of_fold dateParse watermark incremental other
      fun _ row there _ => placed row (same.mem_iff.mp there)
    have reordered : (withheld dateParse watermark incremental other).Perm
        (withheld dateParse watermark incremental full) := same.filter _
    refine ⟨held'.count.trans (reordered.length_eq.trans held.count.symm), ?_⟩
    apply Option.ext
    intro at_
    exact (held'.earliest at_).trans (instants_perm reordered ▸ (held.earliest at_).symm)

end Drift

/-- Of two rows the later one is after the watermark, and nothing was read. -/
theorem withheld_row_is_missed :
    let drift := diffForDrift twoDays "invoice" (some "2026-01-01") [] [firstRow, secondRow]
    let rows := withheld twoDays (some "2026-01-01") [] [firstRow, secondRow]
    drift.missedCount = 1 ∧ rows.length = 1 ∧ IsLeast (instants twoDays rows) 1767312000000 := by
  have missed := (@drift_is_a_withheld_row twoDays "invoice" (some "2026-01-01") []
    [firstRow, secondRow]).2.1 (fun none_ => (by cases none_))
  exact ⟨by decide, missed.1.symm.trans (by decide), (missed.2 _).mp (by decide)⟩

/-- Nothing is after the watermark; still, of the two rows up to it one was read. -/
theorem read_before_the_watermark_lags :
    [firstRow].Sublist [firstRow, secondRow] ∧
      (∀ row ∈ [firstRow, secondRow], After twoDays (some "2026-01-02") row → row ∈ [firstRow]) ∧
      (diffForDrift twoDays "invoice" (some "2026-01-02") [firstRow]
        [firstRow, secondRow]).classes = [.watermark_behind] := by
  refine ⟨by decide, ?_, by decide⟩
  intro row there later
  rcases List.mem_cons.mp there with rfl | there
  · exact List.mem_singleton_self _
  · rw [List.mem_singleton.mp there] at later
    obtain ⟨since, at_, parsed, placed, before⟩ := later _ rfl
    have same : position twoDays secondRow = isoInstant twoDays "2026-01-02" := by decide
    rw [same, parsed] at placed
    exact absurd (Option.some.inj placed) before.ne

namespace Sweep

open SyncPolicy

variable (setting : Setting)

/-- The sweep of a connection, with nothing else at work. -/
structure Lone where
  world : World
  sweep : Sweep
  /-- What the full reads answered. -/
  reads : List (CursorId × List Row)

def answered (sweep : Sweep) (answer : Answer) : List (CursorId × List Row) :=
  match sweep.stage, answer with
  | .full cursor, .rows page => [(cursor.id, page)]
  | _, _ => []

def proceed (now : Lone) (answer : Answer) : Lone where
  world := now.world.apply (now.sweep.react setting answer).2
  sweep := (now.sweep.react setting answer).1
  reads := now.reads ++ now.sweep.answered answer

def begins (world : World) (connection : ConnectionId) (now : ℤ) (ids : List CursorId) : Lone :=
  let due := ids.map fun id => (world.cursors id).snapshot id
  ⟨world, { connection, at_ := now, due, todo := due }, []⟩

/-- How many due cursors are in front of the one at hand. -/
def passed (sweep : Sweep) : ℕ := sweep.due.length - sweep.todo.length - 1

/-- The cursor that is processed, or the first one where none is yet. -/
def atHand (sweep : Sweep) : Option ClaimedErpCursor := sweep.due[sweep.passed]?

def front (sweep : Sweep) : List ClaimedErpCursor := sweep.due.take sweep.passed

/-- Those of the cursors whose entity is served have been swept, and no other cursor has changed. -/
structure Swept (reads : List (CursorId × List Row)) (start world : World) (at_ : ℤ)
    (cursors : List ClaimedErpCursor) : Prop where
  swept : ∀ cursor ∈ cursors, setting.served cursor.id = true → ∃ rows, (cursor.id, rows) ∈ reads ∧
    world.cursors cursor.id = (start.cursors cursor.id).releaseSuccess
      (Tick.next setting cursor rows) at_ (some at_)
  others : ∀ id, (∀ cursor ∈ cursors, setting.served cursor.id = true → cursor.id ≠ id) →
    world.cursors id = start.cursors id

def failedState (err : SyncFailureLike) : ErpSyncState :=
  match classifySyncFailure err with
  | .RESYNC_REQUIRED => .RESYNC_REQUIRED
  | .FATAL => .FAILED
  | _ => .BACKOFF

def failedCount (err : SyncFailureLike) (consecutiveFailures : ℕ) : ℕ :=
  if Cursor.resyncs err then 0 else consecutiveFailures + 1

/-- The failure is stored in the cursor at hand, with one more failure than before the sweep; those in front
of it that are served stay IDLE and swept, with the position of their full read, and every other one as it
was. -/
structure Parks (reads : List (CursorId × List Row)) (start world : World) (sweep : Sweep)
    (err : SyncFailureLike) (change : Change) : Prop where
  parked : change.released.map ClaimedErpCursor.id = sweep.atHand.map ClaimedErpCursor.id
  stored : ∀ cursor ∈ sweep.atHand, let row := (world.apply change).cursors cursor.id
    row.state = failedState err ∧
      row.consecutiveFailures = failedCount err (start.cursors cursor.id).consecutiveFailures ∧
      row.watermark = if Cursor.resyncs err then none else (world.cursors cursor.id).watermark
  swept : ∀ cursor ∈ sweep.front, setting.served cursor.id = true → ∃ rows, (cursor.id, rows) ∈ reads ∧
    let row := (world.apply change).cursors cursor.id
    row.state = .IDLE ∧ row.consecutiveFailures = 0 ∧ row.lastSweepAt = some sweep.at_ ∧
      row.watermark = (highWaterMark setting.dateParse rows).or (start.cursors cursor.id).watermark
  others : ∀ id, sweep.atHand.map ClaimedErpCursor.id ≠ some id →
    (∀ cursor ∈ sweep.front, setting.served cursor.id = true → cursor.id ≠ id) →
      (world.apply change).cursors id = start.cursors id

/-- Before its drift is pushed, no cursor was skipped; after that, just one was, or there is no other and no
failure of it is forgotten. -/
def Placed (start : World) (err : SyncFailureLike) (sweep : Sweep) : Prop :=
  let skipped := sweep.front.countP fun cursor => !setting.served cursor.id
  let alone := sweep.due.length = 1 ∧ (Cursor.resyncs err = true ∨
    ∀ cursor ∈ sweep.due, (start.cursors cursor.id).consecutiveFailures = 0)
  match sweep.stage with
  | .recording _ _ => skipped = 1 ∨ alone
  | .releasing _ _ => skipped = 1 ∨ alone
  | _ => skipped = 0

variable (reads : List (CursorId × List Row)) (start world : World) (sweep : Sweep)

/-- Where the sweep is in the due cursors, and how many drifts it has pushed for those in front. -/
def AtCursor (pushed : ℕ) (cursor : ClaimedErpCursor) : Prop :=
  ∃ front, sweep.due = front ++ cursor :: sweep.todo ∧
    sweep.drifted = (front.countP fun cursor => setting.served cursor.id) + pushed ∧
      setting.served cursor.id = true ∧ Swept setting reads start world sweep.at_ front

def Underway : Prop :=
  match sweep.stage with
  | .connecting => sweep.todo = sweep.due ∧ sweep.drifted = 0 ∧ world.cursors = start.cursors
  | .incremental cursor => AtCursor setting reads start world sweep 0 cursor
  | .full cursor => AtCursor setting reads start world sweep 0 cursor
  | .landing cursor rows => (cursor.id, rows) ∈ reads ∧ AtCursor setting reads start world sweep 0 cursor
  | .recording cursor rows => (cursor.id, rows) ∈ reads ∧ AtCursor setting reads start world sweep 1 cursor
  | .releasing cursor rows => (cursor.id, rows) ∈ reads ∧ AtCursor setting reads start world sweep 1 cursor
  | _ => True

variable {setting} {reads start world sweep}

theorem Underway.turn (front : List ClaimedErpCursor) (due : sweep.due = front ++ sweep.todo)
    (drifted : sweep.drifted = front.countP fun cursor => setting.served cursor.id)
    (swept : Swept setting reads start world sweep.at_ front) :
    Underway setting reads start world (sweep.turn setting) := by
  have split := List.takeWhile_append_dropWhile
    (p := fun cursor : ClaimedErpCursor => !setting.served cursor.id) (l := sweep.todo)
  have skips : ∀ cursor ∈ sweep.todo.takeWhile fun cursor => !setting.served cursor.id,
      setting.served cursor.id = false := fun cursor there => by
    simpa using List.mem_takeWhile_imp there
  unfold Sweep.turn
  cases rest : sweep.todo.dropWhile fun cursor => !setting.served cursor.id with
  | nil => trivial
  | cons cursor rest' =>
    rw [rest] at split
    refine ⟨front ++ sweep.todo.takeWhile fun cursor => !setting.served cursor.id, ?_, ?_, ?_, ?_⟩
    · rw [List.append_assoc, split]
      exact due
    · have none_ : (sweep.todo.takeWhile fun cursor => !setting.served cursor.id).countP
          (fun cursor => setting.served cursor.id) = 0 :=
        List.countP_eq_zero.mpr fun other there => by simp [skips other there]
      rw [List.countP_append, none_]
      exact drifted
    · have head := List.head?_dropWhile_not (fun cursor => !setting.served cursor.id) sweep.todo
      simpa [rest] using head
    · constructor
      · intro other there served
        rcases List.mem_append.mp there with old | skipped
        · exact swept.swept other old served
        · simp [skips other skipped] at served
      · intro id apart
        exact swept.others id fun other there => apart other (List.mem_append_left _ there)

theorem Swept.succeeds {front : List ClaimedErpCursor} {cursor : ClaimedErpCursor}
    (swept : Swept setting reads start world sweep.at_ front) (served : setting.served cursor.id = true)
    (once : cursor.id ∉ front.map ClaimedErpCursor.id) {rows : List Row} (read : (cursor.id, rows) ∈ reads) :
    Swept setting reads start
      (world.apply (.succeeds cursor (Tick.next setting cursor rows) sweep.at_ (some sweep.at_)))
      sweep.at_ (front ++ [cursor]) := by
  have fresh := swept.others cursor.id fun other there _ same =>
    once (List.mem_map.mpr ⟨other, there, same⟩)
  constructor
  · intro other there served
    simp only [World.apply, World.setCursor]
    rcases List.mem_append.mp there with old | new
    · obtain ⟨rows', read', swept'⟩ := swept.swept other old served
      have apart : other.id ≠ cursor.id :=
        fun same => once (List.mem_map.mpr ⟨other, old, same⟩)
      exact ⟨rows', read', by rw [Function.update_of_ne apart, swept']⟩
    · rw [List.mem_singleton.mp new, Function.update_self, fresh]
      exact ⟨rows, read, rfl⟩
  · intro id apart
    have other : id ≠ cursor.id := (apart cursor (by simp) served).symm
    simp only [World.apply, World.setCursor, Function.update_of_ne other]
    exact swept.others id fun other there => apart other (List.mem_append_left _ there)

theorem AtCursor.more {pushed : ℕ} {cursor : ClaimedErpCursor} (more : List (CursorId × List Row))
    (at_ : AtCursor setting reads start world sweep pushed cursor) :
    AtCursor setting (reads ++ more) start world sweep pushed cursor := by
  obtain ⟨front, due, drifted, served, swept⟩ := at_
  refine ⟨front, due, drifted, served, ?_, swept.others⟩
  intro other there served
  obtain ⟨rows, read, is_⟩ := swept.swept other there served
  exact ⟨rows, List.mem_append_left _ read, is_⟩

theorem Underway.more (more : List (CursorId × List Row)) (underway : Underway setting reads start world sweep) :
    Underway setting (reads ++ more) start world sweep := by
  unfold Underway at *
  split at underway
  · exact underway
  · exact underway.more more
  · exact underway.more more
  iterate 3 exact ⟨List.mem_append_left _ underway.1, underway.2.more more⟩
  · trivial

theorem Underway.proceed (once : (sweep.due.map ClaimedErpCursor.id).Nodup) (answer : Answer)
    (underway : Underway setting reads start world sweep) :
    Underway setting (reads ++ sweep.answered answer) start (world.apply (sweep.react setting answer).2)
      (sweep.react setting answer).1 := by
  have read : ∀ cursor page, sweep.stage = .full cursor → answer = .rows page →
      (cursor.id, page) ∈ reads ++ sweep.answered answer := by
    intro cursor page stage rows
    simp [answered, stage, rows]
  replace underway := underway.more (sweep.answered answer)
  generalize reads ++ sweep.answered answer = reads at *
  unfold react
  split
  · trivial
  · rename_i stage
    simp only [Underway, stage] at underway
    obtain ⟨todo, drifted, same⟩ := underway
    exact Underway.turn [] todo.symm drifted ⟨nofun, fun id _ => congrFun same id⟩
  · trivial
  · rename_i cursor page stage
    simp only [Underway, stage] at underway
    exact underway
  · trivial
  · rename_i cursor page stage
    simp only [Underway, stage] at underway
    obtain ⟨front, due, drifted, served, swept⟩ := underway
    split
    · exact ⟨read cursor page stage rfl, front, due, drifted, served, swept⟩
    · exact ⟨read cursor page stage rfl, front, due, congrArg (· + 1) drifted, served, swept⟩
  · trivial
  · rename_i cursor rows now waitMs stage
    simp only [Underway, stage] at underway
    obtain ⟨read, front, due, drifted, served, swept⟩ := underway
    exact ⟨read, front, due, congrArg (· + 1) drifted, served, ⟨swept.swept, swept.others⟩⟩
  · trivial
  · rename_i cursor rows now waitMs stage
    simp only [Underway, stage] at underway
    exact underway
  · trivial
  · rename_i cursor rows now waitMs stage
    simp only [Underway, stage] at underway
    obtain ⟨read, front, due, drifted, served, swept⟩ := underway
    apply Underway.turn (front ++ [cursor])
    · rw [List.append_assoc]
      exact due
    · rw [List.countP_append, drifted]
      simp [served]
    · refine swept.succeeds served ?_ read
      rw [due, List.map_append, List.map_cons] at once
      intro there
      exact (List.nodup_append.mp once).2.2 _ there _ (by simp) rfl
  · split <;> trivial
  · split <;> trivial
  · split <;> trivial
  · trivial
  · trivial
  · exact underway

theorem Did.due {after_ : Sweep} {answer : Answer} {change : Change}
    (did : sweep.Did setting answer after_ change) : after_.due = sweep.due := by
  cases did with
  | turns => exact turn_same.2
  | succeeds cursor rows stage after_ then_ =>
    rcases then_ with rfl | ⟨err, rfl⟩
    · exact turn_same.2
    · rfl
  | _ => rfl

theorem run_underway (connection : ConnectionId) (now : ℤ) {ids : List CursorId} (once : ids.Nodup)
    (answers : List Answer) :
    let reached := Stepping.run (Sweep.proceed setting) (begins start connection now ids) answers
    reached.sweep.due = ids.map (fun id => (start.cursors id).snapshot id) ∧
      Underway setting reached.reads start reached.world reached.sweep := by
  apply @Stepping.run_keeps _ _ _ _ fun reached : Lone =>
    reached.sweep.due = ids.map (fun id => (start.cursors id).snapshot id) ∧
      Underway setting reached.reads start reached.world reached.sweep
  · intro reached answer kept
    refine ⟨(react_did reached.sweep answer).due.trans kept.1, Underway.proceed ?_ answer kept.2⟩
    simpa [kept.1, Cursor.snapshot, Function.comp_def] using once
  · exact ⟨rfl, rfl, rfl, rfl⟩

variable {cursor : ClaimedErpCursor}

theorem AtCursor.atHand {pushed : ℕ} (at_ : AtCursor setting reads start world sweep pushed cursor) :
    sweep.atHand = some cursor ∧ Swept setting reads start world sweep.at_ sweep.front ∧
      sweep.drifted + (sweep.front.countP fun cursor => !setting.served cursor.id) =
        sweep.front.length + pushed := by
  obtain ⟨front, due, drifted, served, swept⟩ := at_
  have passed : sweep.passed = front.length := by
    simp [Sweep.passed, due]
    omega
  have taken : sweep.front = front := by simp [Sweep.front, passed, due]
  have counts := List.length_eq_countP_add_countP (fun cursor : ClaimedErpCursor =>
    setting.served cursor.id) (l := front)
  refine ⟨by simp [Sweep.atHand, passed, due], taken ▸ swept, ?_⟩
  rw [taken, drifted]
  simp only [Bool.not_eq_true, Bool.decide_eq_false] at counts
  omega

variable {err : SyncFailureLike}

/-- What is written of a failure: where, and the count. -/
def blamed (err : SyncFailureLike) (cursor : ClaimedErpCursor) : CursorId × ℕ :=
  (cursor.id, failedCount err cursor.consecutiveFailures)

theorem charged_iff (once : (sweep.due.map ClaimedErpCursor.id).Nodup) (hand : sweep.atHand = some cursor) :
    sweep.charged.map (blamed err) = sweep.atHand.map (blamed err) ↔
      sweep.drifted = sweep.passed ∨ sweep.due.length ≤ sweep.drifted ∧ sweep.passed = 0 ∧
        (Cursor.resyncs err = true ∨ cursor.consecutiveFailures = 0) := by
  have there := (List.getElem?_eq_some_iff.mp hand).1
  have unique {i j : ℕ} (inside : i < sweep.due.length) :
      sweep.due[i]?.map ClaimedErpCursor.id = sweep.due[j]?.map ClaimedErpCursor.id ↔ i = j := by
    refine ⟨fun same => ?_, fun same => by rw [same]⟩
    rw [← List.getElem?_map, ← List.getElem?_map] at same
    exact (List.getElem?_inj (by simpa using inside) once).mp same
  have ids {found : Option ClaimedErpCursor} (same : found.map (blamed err) = sweep.atHand.map (blamed err)) :
      found.map ClaimedErpCursor.id = sweep.atHand.map ClaimedErpCursor.id := by
    simpa [Option.map_map, Function.comp_def, blamed] using congrArg (Option.map Prod.fst) same
  by_cases inside : sweep.drifted < sweep.due.length
  · have found : sweep.charged = sweep.due[sweep.drifted]? := by
      simp [charged, List.getElem?_eq_getElem inside]
    rw [found]
    constructor
    · exact fun same => Or.inl ((unique inside).mp (ids same))
    · rintro (same | same)
      · rw [same]
        rfl
      · omega
  · have found : sweep.charged = sweep.due[0]?.map fun cursor => { cursor with consecutiveFailures := 0 } := by
      rw [charged, List.getElem?_eq_none (by omega), Option.none_or, List.head?_eq_getElem?]
    rw [found]
    by_cases first : sweep.passed = 0
    · have head : sweep.due[0]? = some cursor := first ▸ hand
      rw [hand, head, or_iff_right (by omega)]
      by_cases resyncs : Cursor.resyncs err = true
      · simp [blamed, failedCount, resyncs, first]
        omega
      · simp [blamed, failedCount, resyncs, first]
        omega
    · constructor
      · intro same
        have equal := ids same
        rw [Option.map_map] at equal
        exact absurd ((unique (by omega)).mp equal).symm first
      · omega

theorem releaseFailure_stored (count : ℕ) (now waitMs : ℤ) (before : Cursor) :
    let row := before.releaseFailure count err now waitMs
    row.state = failedState err ∧ row.consecutiveFailures = failedCount err count ∧
      row.watermark = if Cursor.resyncs err then none else before.watermark := by
  refine ⟨?_, ?_, Cursor.releaseFailure_watermark _ _ _ _ _⟩
  all_goals
    unfold Cursor.releaseFailure
    first | unfold failedState | unfold failedCount Cursor.resyncs
    cases classifySyncFailure err <;> rfl

theorem parks_iff {at_ : Option ClaimedErpCursor} (now waitMs : ℤ) (failing : sweep.stage = .failing at_ err)
    (own : ∀ cursor ∈ sweep.due, cursor = (start.cursors cursor.id).snapshot cursor.id)
    (apart : ∀ cursor ∈ sweep.front, sweep.atHand.map ClaimedErpCursor.id ≠ some cursor.id)
    (swept : ∀ cursor ∈ sweep.front, setting.served cursor.id = true → ∃ rows, (cursor.id, rows) ∈ reads ∧
      world.cursors cursor.id = (start.cursors cursor.id).releaseSuccess
        (Tick.next setting cursor rows) sweep.at_ (some sweep.at_))
    (others : ∀ id, sweep.atHand.map ClaimedErpCursor.id ≠ some id →
      (∀ cursor ∈ sweep.front, setting.served cursor.id = true → cursor.id ≠ id) →
        world.cursors id = start.cursors id) :
    Parks setting reads start world sweep err (sweep.react setting (.goes now waitMs)).2 ↔
      sweep.charged.map (blamed err) = sweep.atHand.map (blamed err) := by
  have change : (sweep.react setting (.goes now waitMs)).2 = (sweep.charged.map fun cursor =>
      Change.fails cursor err sweep.at_ waitMs).getD .nothing := by
    simp only [react, failing]
    cases sweep.charged <;> rfl
  have counts {cursor : ClaimedErpCursor} (hand : sweep.atHand = some cursor) :
      (start.cursors cursor.id).consecutiveFailures = cursor.consecutiveFailures :=
    (congrArg ClaimedErpCursor.consecutiveFailures (own cursor (List.mem_of_getElem? hand))).symm
  have written {blame : ClaimedErpCursor} (charges : sweep.charged = some blame) :
      (world.apply (sweep.react setting (.goes now waitMs)).2).cursors blame.id =
        (world.cursors blame.id).releaseFailure blame.consecutiveFailures err sweep.at_ waitMs := by
    rw [change, charges]
    exact Function.update_self ..
  have released : (sweep.react setting (.goes now waitMs)).2.released = sweep.charged := by
    rw [change]
    cases sweep.charged <;> rfl
  constructor
  · intro parks
    have parked := parks.parked
    rw [released] at parked
    cases charges : sweep.charged with
    | none => simpa [charges, eq_comm] using parked
    | some blame =>
      obtain ⟨cursor, hand, equal⟩ := Option.map_eq_some_iff.mp (charges ▸ parked).symm
      have stored := (parks.stored cursor hand).2.1
      rw [equal, written charges, (releaseFailure_stored _ _ _ _).2.1, ← equal, counts hand] at stored
      simp [hand, blamed, equal, stored]
  · intro same
    have ids : sweep.charged.map ClaimedErpCursor.id = sweep.atHand.map ClaimedErpCursor.id := by
      simpa [Option.map_map, Function.comp_def, blamed] using congrArg (Option.map Prod.fst) same
    have untouched (id : CursorId) (other : sweep.atHand.map ClaimedErpCursor.id ≠ some id) :
        (world.apply (sweep.react setting (.goes now waitMs)).2).cursors id = world.cursors id := by
      rw [← ids] at other
      rw [change]
      cases charges : sweep.charged with
      | none => rfl
      | some cursor =>
        rw [charges] at other
        exact Function.update_of_ne (fun equal => other (by simp [equal])) _ _
    refine ⟨released ▸ ids, ?_, ?_, ?_⟩
    · intro cursor hand
      rw [Option.mem_def.mp hand] at same
      obtain ⟨blame, charges, equal⟩ := Option.map_eq_some_iff.mp same
      obtain ⟨equal, count⟩ := Prod.mk.inj equal
      have stored := @releaseFailure_stored err blame.consecutiveFailures sweep.at_ waitMs (world.cursors blame.id)
      rw [← written charges, equal, count, ← counts hand] at stored
      exact stored
    · intro cursor there served
      obtain ⟨rows, read, is_⟩ := swept cursor there served
      refine ⟨rows, read, ?_⟩
      rw [untouched _ (apart cursor there), is_]
      refine ⟨rfl, rfl, rfl, ?_⟩
      exact congrArg (Option.or _) (congrArg ClaimedErpCursor.watermark (own cursor (List.mem_of_mem_take there)))
    · intro id other away
      rw [untouched id other]
      exact others id other away

theorem AtCursor.parks_iff {pushed : ℕ} (at_ : AtCursor setting reads start world sweep pushed cursor)
    (few : pushed ≤ 1) (once : (sweep.due.map ClaimedErpCursor.id).Nodup)
    (own : ∀ cursor ∈ sweep.due, cursor = (start.cursors cursor.id).snapshot cursor.id) {next : World}
    (kept : ∀ id, cursor.id ≠ id → next.cursors id = world.cursors id)
    (failing : Option ClaimedErpCursor) (now waitMs : ℤ) :
    Parks setting reads start next (sweep.goes (.failing failing err)) err
        ((sweep.goes (.failing failing err)).react setting (.goes now waitMs)).2 ↔
      (sweep.front.countP fun cursor => !setting.served cursor.id) = pushed ∨
        pushed ≠ 0 ∧ sweep.due.length = 1 ∧ (Cursor.resyncs err = true ∨
          ∀ cursor ∈ sweep.due, (start.cursors cursor.id).consecutiveFailures = 0) := by
  obtain ⟨hand, swept, count⟩ := at_.atHand
  have fronts : sweep.front.length = sweep.passed := by
    simp [Sweep.front, Sweep.passed]
    omega
  have inside : sweep.passed < sweep.due.length := (List.getElem?_eq_some_iff.mp hand).1
  have apart : ∀ other ∈ sweep.front, cursor.id ≠ other.id := by
    intro other there same
    obtain ⟨i, before, found⟩ := List.mem_take_iff_getElem.mp there
    have equal := (List.getElem?_inj (i := i) (j := sweep.passed) (by simp; omega) once).mp (by
      rw [List.getElem?_map, List.getElem?_map, show sweep.due[sweep.passed]? = some cursor from hand,
        List.getElem?_eq_getElem (by omega), found]
      simp [same])
    omega
  refine (@Sweep.parks_iff setting reads start next (sweep.goes (.failing failing err)) err failing now waitMs rfl own
    ?_ ?_ ?_).trans ((charged_iff once hand).trans ?_)
  · intro other there
    change Option.map _ sweep.atHand ≠ _
    rw [hand]
    exact fun equal => apart other there (Option.some.inj equal)
  · intro other there served
    rw [kept _ (apart other there)]
    exact swept.swept other there served
  · intro id other away
    change Option.map _ sweep.atHand ≠ _ at other
    rw [hand] at other
    rw [kept id fun equal => other (congrArg some equal)]
    exact swept.others id away
  · have skipped := List.countP_le_length (p := fun cursor : ClaimedErpCursor =>
      !setting.served cursor.id) (l := sweep.front)
    have uncounted (one : sweep.due.length = 1) : cursor.consecutiveFailures = 0 ↔
        ∀ cursor ∈ sweep.due, (start.cursors cursor.id).consecutiveFailures = 0 := by
      obtain ⟨only, due⟩ := List.length_eq_one_iff.mp one
      have same : cursor = only := by simpa [due] using List.mem_of_getElem? hand
      have mine := congrArg ClaimedErpCursor.consecutiveFailures (own cursor (List.mem_of_getElem? hand))
      rw [due, ← same, mine]
      simp [Cursor.snapshot]
    constructor
    · rintro (same | ⟨past, first, forgets⟩)
      · exact Or.inl (by omega)
      · have one : sweep.due.length = 1 := by omega
        rw [uncounted one] at forgets
        exact Or.inr ⟨by omega, one, forgets⟩
    · rintro (same | ⟨some_, one, forgets⟩)
      · exact Or.inl (by omega)
      · rw [← uncounted one] at forgets
        exact Or.inr ⟨by omega, by omega, forgets⟩

/-- The failure parks the cursor at hand exactly where the drifts pushed so far count the due cursors in front
of it. -/
theorem failed_sweep_parks_iff (start : World) (connection : ConnectionId) (at_ : ℤ)
    {ids : List CursorId} (once : ids.Nodup) (before : List Answer) (err : SyncFailureLike)
    (applied : Option (ℤ × ℤ)) (now waitMs : ℤ) :
    let reached := Stepping.run (Sweep.proceed setting) (begins start connection at_ ids) before
    let thrown := Sweep.proceed setting reached (.fails err applied)
    (∃ cursor, thrown.sweep.stage = .failing cursor err) →
      (Parks setting thrown.reads start thrown.world thrown.sweep err
          (thrown.sweep.react setting (.goes now waitMs)).2 ↔
        Placed setting start err reached.sweep) := by
  intro reached thrown failed
  obtain ⟨at_, failing⟩ := failed
  obtain ⟨due, underway⟩ : reached.sweep.due = ids.map (fun id => (start.cursors id).snapshot id) ∧
      Underway setting reached.reads start reached.world reached.sweep := run_underway connection _ once before
  have own : ∀ cursor ∈ reached.sweep.due, cursor = (start.cursors cursor.id).snapshot cursor.id := by
    rw [due]
    intro cursor there
    obtain ⟨id, -, rfl⟩ := List.mem_map.mp there
    rfl
  replace once : (reached.sweep.due.map ClaimedErpCursor.id).Nodup := by
    simpa [due, Cursor.snapshot, Function.comp_def] using once
  clear_value reached
  obtain ⟨world, sweep, reads⟩ := reached
  dsimp only at once own underway
  cases stage : sweep.stage with
  | connecting =>
    simp only [Underway, stage] at underway
    obtain ⟨todo, drifted, same⟩ := underway
    have passed : sweep.passed = 0 := by simp [Sweep.passed, todo]
    have throws : thrown = ⟨world, sweep.goes (.failing none err), reads⟩ := by
      simp only [thrown, Sweep.proceed, react, answered, stage, List.append_nil]
      rfl
    have front : sweep.front = [] := by simp [Sweep.front, passed]
    rw [throws]
    refine (@Sweep.parks_iff setting reads start world (sweep.goes (.failing none err)) err none now waitMs rfl own
      ?_ ?_ fun id _ _ => congrFun same id).trans ?_
    · change ∀ cursor ∈ sweep.front, _
      simp [front]
    · change ∀ cursor ∈ sweep.front, _
      simp [front]
    · change sweep.charged.map _ = sweep.atHand.map _ ↔ _
      cases due : sweep.due <;> simp [charged, Sweep.atHand, Placed, stage, front, passed, drifted, due]
  | incremental cursor | full cursor =>
    simp only [Underway, stage] at underway
    have throws : thrown = ⟨world, sweep.goes (.failing (some cursor) err), reads⟩ := by
      simp only [thrown, Sweep.proceed, react, answered, stage, List.append_nil]
      rfl
    rw [throws, underway.parks_iff (by decide) once own fun _ _ => rfl]
    simp [Placed, stage]
  | landing cursor rows | recording cursor rows =>
    simp only [Underway, stage] at underway
    have throws : thrown = ⟨world, sweep.goes (.failing (some cursor) err), reads⟩ := by
      simp only [thrown, Sweep.proceed, react, answered, stage, List.append_nil]
      rfl
    rw [throws, underway.2.parks_iff (by decide) once own fun _ _ => rfl]
    simp [Placed, stage]
  | releasing cursor rows =>
    simp only [Underway, stage] at underway
    cases applied with
    | none =>
      have throws : thrown = ⟨world, sweep.goes (.failing (some cursor) err), reads⟩ := by
        simp only [thrown, Sweep.proceed, react, answered, stage, List.append_nil]
        rfl
      rw [throws, underway.2.parks_iff (by decide) once own fun _ _ => rfl]
      simp [Placed, stage]
    | some stamp =>
      have throws : thrown = ⟨world.apply (.succeeds cursor (Tick.next setting cursor rows)
          sweep.at_ (some sweep.at_)), sweep.goes (.failing none err), reads⟩ := by
        simp only [thrown, Sweep.proceed, react, answered, stage, List.append_nil]
      rw [throws, underway.2.parks_iff (by decide) once own fun id other =>
        Function.update_of_ne (Ne.symm other) _ _]
      simp [Placed, stage]
  | failing reads' err' =>
    simp only [thrown, Sweep.proceed, react, stage] at failing
    split at failing <;> cases failing
  | noting => simp [thrown, Sweep.proceed, react, stage, goes] at failing
  | done => simp [thrown, Sweep.proceed, react, stage] at failing

/-- The first cursor is swept, and the reads of the second one fail. -/
theorem failed_read_parks_second :
    let reached := Stepping.run (Sweep.proceed oneFeed) (begins World.start 0 0 [0, 1])
      [.goes 0 0, .rows [], .rows [firstRow], .goes 0 0, .goes 0 0, .goes 0 0]
    let thrown := Sweep.proceed oneFeed reached (.fails syncTargetAbsent none)
    (thrown.world.cursors 0).watermark = some "2026-01-01" ∧
      Parks oneFeed thrown.reads World.start thrown.world thrown.sweep syncTargetAbsent
        (thrown.sweep.react oneFeed (.goes 0 0)).2 :=
  ⟨by decide, (failed_sweep_parks_iff World.start 0 0 (by decide)
    [.goes 0 0, .rows [], .rows [firstRow], .goes 0 0, .goes 0 0, .goes 0 0]
      syncTargetAbsent none 0 0 ⟨_, rfl⟩).mpr rfl⟩

/-- The drift of the first cursor is not recorded, and the second one is parked. -/
theorem failed_record_parks_next :
    let reached := Stepping.run (Sweep.proceed { oneFeed with landsOnBox := fun _ => false })
      (begins World.start 0 0 [0, 1]) [.goes 0 0, .rows [], .rows []]
    let thrown := Sweep.proceed { oneFeed with landsOnBox := fun _ => false } reached
      (.fails syncTargetAbsent none)
    (∃ cursor, thrown.sweep.stage = .failing cursor syncTargetAbsent) ∧
      ¬ Parks { oneFeed with landsOnBox := fun _ => false } thrown.reads World.start thrown.world thrown.sweep
        syncTargetAbsent (thrown.sweep.react oneFeed (.goes 0 0)).2 :=
  ⟨⟨_, rfl⟩, fun parks => absurd parks.parked (by decide)⟩

end Sweep

end Droplet.ErpSync
