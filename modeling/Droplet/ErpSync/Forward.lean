import Droplet.ErpSync.Landed

/-! When the position of a cursor never moves back. -/

namespace Droplet.ErpSync

open SyncPolicy Places

/-- The instant of a position; before all others where there is none. -/
noncomputable def rank (setting : Setting) (watermark : Option String) : WithBot ℤ :=
  watermark.bind (isoInstant setting.dateParse)

def notBefore (setting : Setting) (since : Option String) (row : Row) : Bool :=
  match since.bind (isoInstant setting.dateParse), position setting.dateParse row with
  | some since, some at_ => since ≤ at_
  | some _, none => false
  | none, _ => true

/-- The page is empty, or holds a row that is not before the position it was read from. -/
def fresh (setting : Setting) (since : Option String) (page : List Row) : Bool :=
  (identify page).isEmpty ||
    (identify page).any fun row => notBefore setting since row

/-- The entity is not read as re-sent rows alone, and nobody has stored a later position since this
execution began. -/
def steady (setting : Setting) (id : CursorId) (world : World) : Event → Prop
  | .proceed i answer =>
    match world.executions[i]? with
    | some (.tick tick) =>
      match tick.stage, answer with
      | .reading cursor, .rows page =>
        cursor.id = id → fresh setting cursor.watermark page = true
      | .releasing cursor _, _ =>
        cursor.id = id →
          rank setting (world.cursors id).watermark ≤ rank setting cursor.watermark
      | _, _ => True
    | some (.sweep sweep) =>
      match sweep.stage with
      | .releasing cursor _ =>
        cursor.id = id →
          rank setting (world.cursors id).watermark ≤ rank setting cursor.watermark
      | _ => True
    | none => True
  | _ => True

/-- The position is taken back on purpose: a disconnect, or a failure of the vendor to honour it. -/
def Change.resets (id : CursorId) : Change → Prop
  | .fails cursor err _ _ => cursor.id = id ∧ Cursor.resyncs err = true
  | _ => False

def resets (setting : Setting) (id : CursorId) (world : World) : Event → Prop
  | .disconnect connection => setting.connectionOf id = connection
  | .proceed i answer => ∃ execution, world.executions[i]? = some execution ∧
      (execution.react setting world answer).2.resets id
  | _ => False

variable {setting : Setting} {world : World} {id : CursorId}

theorem rank_le_of_notBefore {since : Option String} {row : Row} (later : notBefore setting since row = true) :
    rank setting since ≤ rank setting (watermarkValueOf row) := by
  have same : rank setting (watermarkValueOf row) = position setting.dateParse row := rfl
  unfold notBefore at later
  rw [same, rank]
  split at later
  · rename_i before after_ first second
    rw [first, second]
    exact WithBot.coe_le_coe.mpr (by simpa using later)
  · cases later
  · rename_i first
    rw [first]
    exact bot_le

variable {cursor : ClaimedErpCursor} {page : List Row}

theorem next_of_empty (empty : identify page = []) : Tick.next setting cursor page = cursor.watermark := by
  simp [Tick.next, highWaterMark, highestWatermark, empty]

theorem rank_next (placed : ∀ row ∈ page, position setting.dateParse row ≠ none) {row : Row}
    (there : row ∈ identify page) (later : rank setting cursor.watermark ≤ rank setting (watermarkValueOf row)) :
    rank setting cursor.watermark ≤ rank setting (Tick.next setting cursor page) := by
  obtain ⟨found, nothing⟩ := highWaterMark_spec page placed
  cases high : highWaterMark setting.dateParse page with
  | none =>
    rw [nothing high] at there
    cases there
  | some value =>
    obtain ⟨best, -, -, instant, parsed, top⟩ := found value high
    obtain ⟨at_, here⟩ := Option.ne_none_iff_exists'.mp (placed row (List.mem_of_mem_filter there))
    have placed_rank : rank setting (watermarkValueOf row) = (at_ : WithBot ℤ) := here
    rw [placed_rank] at later
    have below : (at_ : WithBot ℤ) ≤ instant := WithBot.coe_le_coe.mpr (top row there at_ here)
    have value_rank : rank setting (Tick.next setting cursor page) = (instant : WithBot ℤ) := by
      rw [Tick.next, high, Option.some_or, rank, Option.bind_some, parsed]
      rfl
    rw [value_rank]
    exact later.trans below

/-- What is going to be stored is not before what was read. -/
def TickStage.Forward (setting : Setting) (id : CursorId) : TickStage → Prop
  | .landing cursor rows => cursor.id = id →
      rank setting cursor.watermark ≤ rank setting (Tick.next setting cursor rows)
  | .releasing cursor next => cursor.id = id → rank setting cursor.watermark ≤ rank setting next
  | _ => True

def SweepStage.Forward (setting : Setting) (id : CursorId) : SweepStage → Prop
  | .landing cursor rows => cursor.id = id →
      rank setting cursor.watermark ≤ rank setting (Tick.next setting cursor rows)
  | .recording cursor rows => cursor.id = id →
      rank setting cursor.watermark ≤ rank setting (Tick.next setting cursor rows)
  | .releasing cursor rows => cursor.id = id →
      rank setting cursor.watermark ≤ rank setting (Tick.next setting cursor rows)
  | _ => True

def Execution.Forward (setting : Setting) (id : CursorId) : Execution → Prop
  | .tick running => running.stage.Forward setting id
  | .sweep running => running.stage.Forward setting id

theorem Tick.turn_forward {tick : Tick} : tick.turn.stage.Forward setting id := by
  unfold Tick.turn
  split <;> trivial

theorem Tick.ready_forward {tick : Tick} (forward : tick.stage.Forward setting id) :
    (Tick.ready tick).stage.Forward setting id := by
  unfold Tick.ready
  split
  · exact Tick.turn_forward
  · exact forward

theorem answers_placed {since : Option String} {visible page : List Row}
    (placed : ∀ row ∈ visible, position setting.dateParse row ≠ none)
    (answered : answers setting since visible page = true) :
    ∀ row ∈ page, position setting.dateParse row ≠ none := by
  intro row there
  rw [answers, Bool.and_eq_true, List.all_eq_true] at answered
  exact placed row (by simpa using answered.1 row there)

theorem fresh_next (placed : ∀ row ∈ page, position setting.dateParse row ≠ none)
    (freshly : fresh setting cursor.watermark page = true) :
    rank setting cursor.watermark ≤ rank setting (Tick.next setting cursor page) := by
  rw [fresh, Bool.or_eq_true, List.isEmpty_iff, List.any_eq_true] at freshly
  rcases freshly with empty | ⟨row, there, later⟩
  · rw [next_of_empty empty]
  · exact rank_next placed there (rank_le_of_notBefore later)

theorem full_next (placed : ∀ row ∈ world.data cursor.id, position setting.dateParse row ≠ none)
    (lands : setting.landsOnBox cursor.id = true) (ready : Ready setting world cursor.promise)
    (answered : answers setting none (world.data cursor.id) page = true) :
    rank setting cursor.watermark ≤ rank setting (Tick.next setting cursor page) := by
  cases was : cursor.watermark with
  | none => exact bot_le
  | some value =>
    obtain ⟨⟨row, there, valued⟩, -⟩ := ready lands value was
    have whole : row ∈ page := by
      rw [answers, Bool.and_eq_true, List.all_eq_true, List.all_eq_true] at answered
      simpa [after] using answered.2 row (List.mem_of_mem_filter there)
    have keyed : row ∈ identify page := by
      rw [identify, List.mem_filter] at there ⊢
      exact ⟨whole, there.2⟩
    rw [← was]
    exact rank_next (answers_placed placed answered) keyed (by rw [was, valued])

variable {answer : Answer}

theorem Tick.Did.forward {tick next : Tick} {change : Change}
    (did : tick.Did setting world.cursors answer next change) (kept : Kept setting world)
    (lands : setting.landsOnBox id = true) (forward : tick.stage.Forward setting id)
    (fits : Execution.fits setting world (.tick tick) answer = true)
    (freshly : ∀ cursor page, tick.stage = .reading cursor → answer = .rows page → cursor.id = id →
      fresh setting cursor.watermark page = true) : next.stage.Forward setting id := by
  cases did with
  | rests => exact forward
  | ends | strands | succeeds | succeedsLate | late => trivial
  | turns => exact Tick.turn_forward
  | skips | claims => exact Tick.ready_forward forward
  | moves cursor stage current simple promises =>
    rcases simple with rfl | rfl | ⟨err, read, rfl⟩ <;> trivial
  | reads cursor page stage given on_box =>
    intro own
    refine fresh_next ?_ (freshly cursor page stage given own)
    have answered : answers setting cursor.watermark (world.data cursor.id) page = true := by
      simpa [Execution.fits, given, stage] using fits
    exact answers_placed (kept.placed cursor.id) answered
  | readsOnly cursor page stage elsewhere =>
    intro own
    rw [own, lands] at elsewhere
    cases elsewhere
  | lands cursor rows stage =>
    rw [stage] at forward
    exact forward
  | fails _ _ _ _ _ _ _ over_ | failsLate _ _ _ _ _ _ over_ =>
    rcases over_ with rfl | rfl <;> trivial

theorem Sweep.turn_forward {sweep : Sweep} : (sweep.turn setting).stage.Forward setting id := by
  unfold Sweep.turn
  split <;> trivial

theorem Sweep.Did.forward {sweep next : Sweep} {change : Change}
    (did : sweep.Did setting answer next change) (kept : Kept setting world)
    (promised : ∀ promise ∈ sweep.promises setting, Ready setting world promise)
    (lands : setting.landsOnBox id = true) (forward : sweep.stage.Forward setting id)
    (fits : Execution.fits setting world (.sweep sweep) answer = true) : next.stage.Forward setting id := by
  cases did with
  | rests => exact forward
  | turns => exact Sweep.turn_forward
  | moves stage alive simple promises =>
    rcases simple with ⟨cursor, -, rfl⟩ | ⟨cursor, rows, before, rfl⟩ | ⟨reads, err, rfl, _⟩ | rfl | rfl
    · trivial
    · rw [before] at forward
      exact forward
    · trivial
    · trivial
    · trivial
  | reads cursor page stage given on_box =>
    intro own
    have answered : answers setting none (world.data cursor.id) page = true := by
      simpa [Execution.fits, given, stage] using fits
    have ready : Ready setting world cursor.promise :=
      promised _ (Sweep.stage_promise (by rw [stage]; rfl))
    exact full_next (kept.placed cursor.id) on_box ready answered
  | readsOnly cursor page stage elsewhere =>
    intro own
    rw [own, lands] at elsewhere
    cases elsewhere
  | lands cursor rows stage =>
    rw [stage] at forward
    exact forward
  | succeeds cursor rows stage after_ then_ =>
    rcases then_ with rfl | ⟨err, rfl⟩
    · exact Sweep.turn_forward
    · trivial
  | fails reads cursor err waitMs stage charged then_ over_ =>
    rcases over_ with rfl | rfl <;> trivial

/-- Everything under way will move the position on. -/
structure Moving (setting : Setting) (id : CursorId) (world : World) : Prop where
  kept : Kept setting world
  forward : ∀ execution ∈ world.executions, execution.Forward setting id

theorem Moving.start : Moving setting id World.start := by
  refine ⟨Kept.start, ?_⟩
  intro execution there
  cases there

theorem steady_tick {i : ℕ} {tick : Tick} (found : world.executions[i]? = some (.tick tick))
    (steadily : steady setting id world (.proceed i answer)) :
    (∀ cursor page, tick.stage = .reading cursor → answer = .rows page → cursor.id = id →
      fresh setting cursor.watermark page = true) ∧
    (∀ cursor next, tick.stage = .releasing cursor next → cursor.id = id →
      rank setting (world.cursors id).watermark ≤ rank setting cursor.watermark) := by
  rw [steady, found] at steadily
  dsimp only at steadily
  constructor
  · intro cursor page stage given own
    rw [stage, given] at steadily
    exact steadily own
  · intro cursor next stage own
    rw [stage] at steadily
    exact steadily own

theorem steady_sweep {i : ℕ} {sweep : Sweep} (found : world.executions[i]? = some (.sweep sweep))
    (steadily : steady setting id world (.proceed i answer)) :
    ∀ cursor rows, sweep.stage = .releasing cursor rows → cursor.id = id →
      rank setting (world.cursors id).watermark ≤ rank setting cursor.watermark := by
  rw [steady, found] at steadily
  dsimp only at steadily
  intro cursor rows stage own
  rw [stage] at steadily
  exact steadily own

theorem Moving.proceed (moving : Moving setting id world) (lands : setting.landsOnBox id = true)
    {i : ℕ} (steadily : steady setting id world (.proceed i answer)) :
    Moving setting id (world.proceed setting i answer) := by
  refine ⟨moving.kept.proceed i answer, ?_⟩
  unfold World.proceed
  split
  · exact moving.forward
  · rename_i execution found
    split
    · rename_i fits
      intro other there
      rcases List.mem_or_eq_of_mem_set there with old | same
      · exact moving.forward other old
      · have member := List.mem_of_getElem? found
        have forward := moving.forward execution member
        rw [same]
        cases execution with
        | tick running =>
          exact (Tick.react_did world.cursors running answer).forward moving.kept lands forward fits
            (steady_tick found steadily).1
        | sweep running =>
          exact (Sweep.react_did running answer).forward moving.kept
            (moving.kept.promised _ member) lands forward fits
    · exact moving.forward

theorem Moving.step (moving : Moving setting id world) (lands : setting.landsOnBox id = true)
    (event : Event) (steadily : steady setting id world event) : Moving setting id (world.step setting event) := by
  have kept := moving.kept.step event
  cases event with
  | tick | sweep =>
    refine ⟨kept, ?_⟩
    rw [World.step]
    split
    · intro execution there
      rcases List.mem_append.mp there with old | new
      · exact moving.forward execution old
      · rw [List.mem_singleton.mp new]
        trivial
    · exact moving.forward
  | proceed i answer => exact moving.proceed lands steadily
  | disconnect connection => exact ⟨kept, moving.forward⟩
  | crash i =>
    refine ⟨kept, ?_⟩
    rw [World.step]
    split
    · exact moving.forward
    · rename_i execution found
      intro other there
      rcases List.mem_or_eq_of_mem_set there with old | same
      · exact moving.forward other old
      · rw [same]
        cases execution <;> trivial
  | appears other row =>
    refine ⟨kept, ?_⟩
    rw [World.step]
    split
    · exact moving.forward
    · exact moving.forward

theorem apply_watermark (change : Change) (lasting : ¬ change.resets id)
    (stored : ∀ cursor watermark now sweptAt, change = .succeeds cursor watermark now sweptAt →
      cursor.id = id → rank setting (world.cursors id).watermark ≤ rank setting watermark) :
    rank setting (world.cursors id).watermark ≤
      rank setting ((world.apply change).cursors id).watermark := by
  cases change with
  | nothing | lands => exact le_refl _
  | claims other =>
    by_cases same : id = other
    · subst same
      cases claimed : (world.cursors id).claim with
      | none => simp [World.apply, World.setCursor, claimed]
      | some next => simp [World.apply, World.setCursor, claimed, (Cursor.claim_cases claimed).2]
    · simp [World.apply, World.setCursor, same]
  | succeeds cursor watermark now sweptAt =>
    by_cases same : id = cursor.id
    · have later := stored cursor watermark now sweptAt rfl same.symm
      subst same
      simpa [World.apply, World.setCursor, Cursor.releaseSuccess] using later
    · simp [World.apply, World.setCursor, same]
  | fails cursor err now waitMs =>
    by_cases same : id = cursor.id
    · have keeps : Cursor.resyncs err = false := by
        by_contra back
        exact lasting ⟨same.symm, by simpa using back⟩
      subst same
      simp [World.apply, World.setCursor, Cursor.releaseFailure_watermark, keeps]
    · simp [World.apply, World.setCursor, same]

theorem Moving.watermark (moving : Moving setting id world) {event : Event}
    (steadily : steady setting id world event) (lasting : ¬ resets setting id world event) :
    rank setting (world.cursors id).watermark ≤
      rank setting ((world.step setting event).cursors id).watermark := by
  cases event with
  | tick | sweep | crash | appears =>
    rw [World.step]
    split <;> exact le_refl _
  | disconnect connection =>
    have other : setting.connectionOf id ≠ connection := lasting
    simp [World.step, other]
  | proceed i answer =>
    rw [World.step]
    unfold World.proceed
    split
    · exact le_refl _
    · rename_i execution found
      split
      · refine apply_watermark _ (fun back => lasting ⟨execution, found, back⟩) ?_
        intro cursor watermark now sweptAt wrote own
        have forward := moving.forward execution (List.mem_of_getElem? found)
        cases execution with
        | tick running =>
          have did := @Tick.react_did setting world.cursors running answer
          have change : (running.react setting world.cursors answer).2 =
            .succeeds cursor watermark now sweptAt := wrote
          rw [change] at did
          generalize (running.react setting world.cursors answer).1 = after_ at did
          have releasing : running.stage = .releasing cursor watermark := by
            cases did with
            | succeeds _ _ _ stage | succeedsLate _ _ _ _ _ stage => exact stage
          have stored := (steady_tick found steadily).2 cursor watermark releasing own
          have on := forward
          simp only [Execution.Forward, releasing, TickStage.Forward] at on
          exact stored.trans (on own)
        | sweep running =>
          have did := @Sweep.react_did setting running answer
          have change : (running.react setting answer).2 = .succeeds cursor watermark now sweptAt := wrote
          rw [change] at did
          generalize (running.react setting answer).1 = after_ at did
          obtain ⟨rows, stage, same⟩ : ∃ rows, running.stage = .releasing cursor rows ∧
              watermark = Tick.next setting cursor rows := by
            cases did with
            | succeeds _ rows stage _ _ => exact ⟨rows, stage, rfl⟩
          have stored := steady_sweep found steadily cursor rows stage own
          have on := forward
          simp only [Execution.Forward, stage, SweepStage.Forward] at on
          rw [same]
          exact stored.trans (on own)
      · exact le_refl _

theorem Moving.runs_watermark (moving : Moving setting id world)
    (lands : setting.landsOnBox id = true) {during : List Event}
    (along : Stepping.Along (World.step setting) (steady setting id) world during)
    (lasting : Stepping.Along (World.step setting)
      (fun world event => ¬ resets setting id world event) world during) :
    rank setting (world.cursors id).watermark ≤
      rank setting ((world.runs setting during).cursors id).watermark := by
  induction during generalizing world with
  | nil => exact le_refl _
  | cons event rest ih =>
    exact (moving.watermark along.1 lasting.1).trans (ih (moving.step lands event along.1) along.2 lasting.2)

/-- For every run of ticks, sweeps, disconnects and crashes over a growing dataset: every row up to the
stored position has been landed. And where no read brings re-sent rows alone and nobody stores a
position over one that has moved on meanwhile, the position only goes back when the cursor is reset. -/
theorem watermark_kept (setting : Setting) (id : CursorId) (lands : setting.landsOnBox id = true)
    (events : List Event) :
    let world := World.start.runs setting events
    (∀ (value : String) (row : Row) (top at_ : ℤ), (world.cursors id).watermark = some value →
      row ∈ world.data id → isoInstant setting.dateParse value = some top →
        position setting.dateParse row = some at_ → at_ ≤ top → row ∈ world.landed id) ∧
    (Stepping.Along (World.step setting) (steady setting id) World.start events →
      ∀ before during : List Event, events = before ++ during →
        Stepping.Along (World.step setting) (fun world event => ¬ resets setting id world event)
          (World.start.runs setting before) during →
        rank setting ((World.start.runs setting before).cursors id).watermark ≤
          rank setting (world.cursors id).watermark) := by
  intro world
  constructor
  · intro value row top at_ stored there instant placed below
    have kept := (@Kept.runs setting events).stored id lands value stored
    exact (kept.2 row there top at_ instant placed below).resolve_left (by simp)
  · intro along before during parts lasting
    rw [parts, Stepping.Along.append] at along
    have moving : Moving setting id (World.start.runs setting before) :=
      along.1.keeps (fun _ event moving steadily => moving.step lands event steadily) Moving.start
    have later := moving.runs_watermark lands along.2 lasting
    have end_ : world = (World.start.runs setting before).runs setting during := by
      simp only [world, World.runs, parts, Stepping.run_append]
    rw [end_]
    exact later

def twoDays (text : String) : Option ℤ :=
  if text = "2026-01-01" then some 1767225600000
  else if text = "2026-01-02" then some 1767312000000
  else none

def oneFeed : Setting where
  dateParse := twoDays
  connectionOf := fun _ => 0
  served := fun _ => true
  landsOnBox := fun _ => true

def firstRow : Row := ⟨some "1", some "2026-01-01", none⟩

def secondRow : Row := ⟨some "2", some "2026-01-02", none⟩

/-- One run of the tick on the cursor, whose vendor answers with this page. -/
def readsPage (i : ℕ) (page : List Row) : List Event :=
  [.tick 0 [0], .proceed i (.goes 0 0), .proceed i (.goes 0 0), .proceed i (.goes 0 0),
    .proceed i (.rows page), .proceed i (.goes 0 0), .proceed i (.goes 0 0), .proceed i (.goes 0 0)]

def readsBoth : List Event :=
  [.appears 0 firstRow, .appears 0 secondRow] ++ readsPage 0 [firstRow, secondRow]

/-- The first row is read and its position stored; then the second one appears. -/
def readsFirst : List Event :=
  .appears 0 firstRow :: readsPage 0 [firstRow] ++ [.appears 0 secondRow]

theorem second_read_moves_on :
    ((World.start.runs oneFeed readsFirst).cursors 0).watermark = some "2026-01-01" ∧
    rank oneFeed ((World.start.runs oneFeed readsFirst).cursors 0).watermark ≤
      rank oneFeed
        ((World.start.runs oneFeed (readsFirst ++ readsPage 1 [firstRow, secondRow])).cursors 0).watermark :=
  ⟨by decide, (watermark_kept oneFeed 0 rfl (readsFirst ++ readsPage 1 [firstRow, secondRow])).2
    ⟨trivial, trivial, trivial, trivial, trivial, fun _ => rfl, trivial, fun _ => bot_le, trivial,
      trivial, trivial, trivial, trivial, trivial, fun _ => rfl, trivial, fun _ => le_refl _,
      trivial, trivial⟩
    readsFirst (readsPage 1 [firstRow, secondRow]) rfl
    ⟨id, fun ⟨_, found, back⟩ => by cases found; exact back,
      fun ⟨_, found, back⟩ => by cases found; exact back,
      fun ⟨_, found, back⟩ => by cases found; exact back,
      fun ⟨_, found, back⟩ => by cases found; exact back,
      fun ⟨_, found, back⟩ => by cases found; exact back,
      fun ⟨_, found, back⟩ => by cases found; exact back,
      fun ⟨_, found, back⟩ => by cases found; exact back, trivial⟩⟩

/-- The second tick is only sent the first row again, and the position goes back to it. -/
theorem resent_row_moves_back :
    ((World.start.runs oneFeed readsBoth).cursors 0).watermark = some "2026-01-02" ∧
      ((World.start.runs oneFeed (readsBoth ++ readsPage 1 [firstRow])).cursors 0).watermark =
        some "2026-01-01" ∧
      isoInstant oneFeed.dateParse "2026-01-01" = some 1767225600000 ∧
      isoInstant oneFeed.dateParse "2026-01-02" = some 1767312000000 := by
  decide

end Droplet.ErpSync
