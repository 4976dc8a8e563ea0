import Droplet.ErpSync.Steps
import Droplet.Lib.Histories

/-! What the position of a cursor promises: everything up to it has been landed. -/

namespace Droplet.ErpSync

open SyncPolicy Places

variable {setting : Setting}

/-- What is up to the position is landed, but for the rows the promise names. -/
def Ready (setting : Setting) (world : World) (promise : Promise) : Prop :=
  setting.landsOnBox promise.id = true → ∀ value, promise.watermark = some value →
    (∃ row ∈ identify (world.data promise.id), watermarkValueOf row = some value) ∧
    ∀ row ∈ world.data promise.id, ∀ top at_, isoInstant setting.dateParse value = some top →
      position setting.dateParse row = some at_ → at_ ≤ top →
        row ∈ promise.rows ∨ row ∈ world.landed promise.id

def Tick.promises (setting : Setting) (tick : Tick) : List Promise :=
  tick.todo.map ClaimedErpCursor.promise ++ tick.claimed.map ClaimedErpCursor.promise ++
    (tick.stage.promise setting).toList

def Sweep.promises (setting : Setting) (sweep : Sweep) : List Promise :=
  sweep.todo.map ClaimedErpCursor.promise ++ (sweep.stage.promise setting).toList

def Execution.promises (setting : Setting) : Execution → List Promise
  | .tick running => running.promises setting
  | .sweep running => running.promises setting

variable {promise : Promise} {tick : Tick}

theorem Tick.turn_promises (there : promise ∈ tick.turn.promises setting) : promise ∈ tick.promises setting := by
  unfold Tick.turn at there
  split at there
  · rename_i none
    simp only [Tick.promises, TickStage.promise, Option.toList_none, List.append_nil] at there ⊢
    exact List.mem_append_left _ there
  · rename_i cursor rest some
    simp only [Tick.promises, TickStage.promise, Option.toList_some, List.mem_append,
      List.mem_singleton] at there
    simp only [Tick.promises, List.mem_append, some, List.map_cons, List.mem_cons]
    tauto

theorem Tick.ready_promises (there : promise ∈ (Tick.ready tick).promises setting) :
    promise ∈ tick.promises setting := by
  unfold Tick.ready at there
  split at there
  · exact Tick.turn_promises there
  · exact there

theorem Tick.goes_promises {stage : TickStage} (there : promise ∈ (tick.goes stage).promises setting) :
    promise ∈ tick.promises setting ∨ stage.promise setting = some promise := by
  simp only [Tick.promises, Tick.goes, List.mem_append, Option.mem_toList] at there ⊢
  tauto

theorem Sweep.turn_promises {sweep : Sweep} (there : promise ∈ (sweep.turn setting).promises setting) :
    promise ∈ sweep.promises setting := by
  unfold Sweep.turn at there
  split at there
  · simp [Sweep.promises, SweepStage.promise] at there
  · rename_i cursor rest some
    have member : ∀ other ∈ cursor :: rest, other ∈ sweep.todo := by
      intro other found
      rw [← some] at found
      exact (List.dropWhile_suffix _).mem found
    simp only [Sweep.promises, SweepStage.promise, Option.toList_some, List.mem_append,
      List.mem_singleton, List.mem_map] at there
    rw [Sweep.promises, List.mem_append, List.mem_map]
    rcases there with ⟨other, found, same⟩ | same
    · exact .inl ⟨other, member other (List.mem_cons_of_mem _ found), same⟩
    · exact .inl ⟨cursor, member cursor List.mem_cons_self, same.symm⟩

/-- Whatever is stored, or is going to be, is kept. -/
structure Kept (setting : Setting) (world : World) : Prop where
  placed : ∀ id, ∀ row ∈ world.data id, position setting.dateParse row ≠ none
  stored : ∀ id, Ready setting world ⟨id, [], (world.cursors id).watermark⟩
  promised : ∀ execution ∈ world.executions, ∀ promise ∈ execution.promises setting,
    Ready setting world promise

variable {world : World}

theorem Kept.start : Kept setting World.start := by
  constructor <;> simp [World.start, Ready, UNSTARTED_ERP_CURSOR]

theorem Ready.none (id : CursorId) (rows : List Row) : Ready setting world ⟨id, rows, none⟩ :=
  fun _ _ same => nomatch same

theorem Ready.frame {next : World} (ready : Ready setting world promise) (data : next.data = world.data)
    (landed : ∀ row ∈ world.landed promise.id, row ∈ next.landed promise.id) : Ready setting next promise := by
  intro lands value same
  obtain ⟨source, all⟩ := ready lands value same
  rw [data]
  refine ⟨source, ?_⟩
  intro row there top at_ instant placed below
  exact (all row there top at_ instant placed below).imp_right (landed row)

variable {id : CursorId}

theorem Kept.write (kept : Kept setting world) {cursor : Cursor}
    (ready : Ready setting world ⟨id, [], cursor.watermark⟩) : Kept setting (world.setCursor id cursor) := by
  refine ⟨kept.placed, ?_, ?_⟩
  · intro other
    by_cases same : other = id
    · subst same
      simpa [World.setCursor, Ready] using ready
    · simpa [World.setCursor, Ready, same] using kept.stored other
  · intro execution there promise member
    exact (kept.promised execution there promise member).frame rfl (fun _ found => found)

theorem next_ready {cursor : ClaimedErpCursor} {page : List Row}
    (placed : ∀ row ∈ world.data cursor.id, position setting.dateParse row ≠ none)
    (ready : Ready setting world cursor.promise)
    (answered : answers setting cursor.watermark (world.data cursor.id) page = true ∨
      answers setting none (world.data cursor.id) page = true) :
    Ready setting world ⟨cursor.id, page, Tick.next setting cursor page⟩ := by
  have within : ∀ row ∈ page, row ∈ world.data cursor.id := by
    intro row there
    rcases answered with answered | answered <;>
    · rw [answers, Bool.and_eq_true, List.all_eq_true] at answered
      simpa using answered.1 row there
  -- what the page leaves out is up to the position it was read from
  have missing : ∀ row ∈ world.data cursor.id, row ∉ page → ∃ value since at_,
      cursor.watermark = some value ∧ isoInstant setting.dateParse value = some since ∧
        position setting.dateParse row = some at_ ∧ at_ ≤ since := by
    intro row there absent
    have before : ∀ since, answers setting since (world.data cursor.id) page = true →
        after setting since row = false := by
      intro since answered
      rw [answers, Bool.and_eq_true, List.all_eq_true, List.all_eq_true] at answered
      have given := answered.2 row there
      simpa [absent] using given
    obtain ⟨at_, here⟩ := Option.ne_none_iff_exists'.mp (placed row there)
    rcases answered with answered | answered
    · have early := before _ answered
      cases since : cursor.watermark with
      | none => simp [after, since] at early
      | some value =>
        cases instant : isoInstant setting.dateParse value with
        | none => simp [after, since, instant] at early
        | some bound => exact ⟨value, bound, at_, rfl, instant, here,
            by simpa [after, since, instant, here] using early⟩
    · have early := before _ answered
      simp [after] at early
  intro lands value same
  obtain ⟨found, nothing⟩ := highWaterMark_spec page fun row there => placed row (within row there)
  rw [Tick.next] at same
  cases high : highWaterMark setting.dateParse page with
  | none =>
    rw [high, Option.none_or] at same
    obtain ⟨source, all⟩ := ready lands value same
    refine ⟨source, ?_⟩
    intro row there top at_ instant placed below
    exact .inr ((all row there top at_ instant placed below).resolve_left (by simp [ClaimedErpCursor.promise]))
  | some best =>
    rw [high, Option.some_or, Option.some.injEq] at same
    subst same
    obtain ⟨row, there, valued, instant, parsed, top⟩ := found best high
    have keyed : row ∈ identify (world.data cursor.id) := by
      rw [identify, List.mem_filter] at there ⊢
      exact ⟨within row there.1, there.2⟩
    refine ⟨⟨row, keyed, valued⟩, ?_⟩
    intro other member top' at_ instant' placed' below
    by_cases paged : other ∈ page
    · exact .inl paged
    · obtain ⟨since, bound, at_', was, parsed', here, early⟩ := missing other member paged
      cases placed'.symm.trans here
      exact .inr (((ready lands since was).2 other member bound at_ parsed' placed' early).resolve_left
        (by simp [ClaimedErpCursor.promise]))

/-- A success writes what was promised. -/
def Change.Due (setting : Setting) (world : World) : Change → Prop
  | .succeeds cursor watermark _ _ => Ready setting world ⟨cursor.id, [], watermark⟩
  | _ => True

theorem Ready.apply (ready : Ready setting world promise) (change : Change) :
    Ready setting (world.apply change) promise := by
  cases change with
  | lands id rows =>
    refine ready.frame rfl ?_
    intro row there
    by_cases same : promise.id = id
    · simp only [World.apply, same, Function.update_self]
      exact List.mem_append_left _ (same ▸ there)
    · simpa [World.apply, same] using there
  | _ => exact ready.frame rfl (fun _ there => there)

theorem Kept.apply (kept : Kept setting world) {change : Change}
    (due : change.Due setting world) : Kept setting (world.apply change) := by
  cases change with
  | nothing => exact kept
  | claims id =>
    refine kept.write ?_
    cases claimed : (world.cursors id).claim with
    | none => exact kept.stored id
    | some next =>
      rw [Option.getD_some, (Cursor.claim_cases claimed).2]
      exact kept.stored id
  | lands id rows =>
    refine ⟨kept.placed, ?_, ?_⟩
    · intro other
      exact (kept.stored other).apply (.lands id rows)
    · intro execution there promise member
      exact (kept.promised execution there promise member).apply (.lands id rows)
  | succeeds cursor watermark now sweptAt => exact kept.write due
  | fails cursor err now waitMs =>
    refine kept.write ?_
    rw [Cursor.releaseFailure_watermark]
    split
    · exact Ready.none _ _
    · exact kept.stored cursor.id

theorem Ready.landed {rows : List Row} {watermark : Option String}
    (ready : Ready setting world ⟨id, rows, watermark⟩) :
    Ready setting (world.apply (.lands id rows)) ⟨id, [], watermark⟩ := by
  intro lands value same
  obtain ⟨source, all⟩ := ready lands value same
  refine ⟨source, ?_⟩
  intro row there top at_ instant placed below
  refine .inr ?_
  simp only [World.apply, Function.update_self, List.mem_append]
  exact (all row there top at_ instant placed below).symm

theorem Tick.stage_promise (same : tick.stage.promise setting = some promise) :
    promise ∈ tick.promises setting := by
  simp [Tick.promises, same]

theorem Sweep.stage_promise {sweep : Sweep} (same : sweep.stage.promise setting = some promise) :
    promise ∈ sweep.promises setting := by
  simp [Sweep.promises, same]

theorem Sweep.goes_promises {sweep : Sweep} {stage : SweepStage}
    (there : promise ∈ (sweep.goes stage).promises setting) :
    promise ∈ sweep.promises setting ∨ stage.promise setting = some promise := by
  simp only [Sweep.promises, Sweep.goes, List.mem_append, Option.mem_toList] at there ⊢
  tauto

theorem Tick.goes_kept {stage : TickStage} {change : Change}
    (promised : ∀ promise ∈ tick.promises setting, Ready setting world promise)
    (due : change.Due setting world) (fresh : ∀ promise, stage.promise setting = some promise →
      Ready setting (world.apply change) promise) :
    change.Due setting world ∧
      ∀ promise ∈ (tick.goes stage).promises setting,
        Ready setting (world.apply change) promise := by
  refine ⟨due, ?_⟩
  intro promise there
  rcases Tick.goes_promises there with old | new
  · exact (promised promise old).apply _
  · exact fresh promise new

theorem Tick.Did.kept {tick next : Tick} {answer : Answer} {change : Change}
    (did : tick.Did setting world.cursors answer next change)
    (placed : ∀ id, ∀ row ∈ world.data id, position setting.dateParse row ≠ none)
    (promised : ∀ promise ∈ tick.promises setting, Ready setting world promise)
    (fits : Execution.fits setting world (.tick tick) answer = true) :
    change.Due setting world ∧
      ∀ promise ∈ next.promises setting, Ready setting (world.apply change) promise := by
  have here : ∀ {promise : Promise}, tick.stage.promise setting = some promise →
      Ready setting world promise := fun same => promised _ (Tick.stage_promise same)
  cases did with
  | rests => exact ⟨trivial, promised⟩
  | ends | strands | late => exact Tick.goes_kept promised trivial nofun
  | turns => exact ⟨trivial, fun promise there => promised promise (Tick.turn_promises there)⟩
  | skips cursor rest todo stage =>
    refine ⟨trivial, ?_⟩
    intro promise there
    refine promised promise ?_
    have member := Tick.ready_promises there
    simp only [Tick.promises, List.mem_append, todo, List.map_cons, List.mem_cons] at member ⊢
    tauto
  | claims cursor rest todo stage free =>
    refine ⟨trivial, ?_⟩
    intro promise there
    refine (promised promise ?_).apply _
    have member := Tick.ready_promises there
    simp only [Tick.promises, List.mem_append, todo, List.map_append, List.map_cons, List.map_nil,
      List.mem_cons, List.not_mem_nil, or_false] at member ⊢
    tauto
  | moves cursor stage current simple promises =>
    refine Tick.goes_kept promised trivial ?_
    intro promise new
    rcases promises with none | same
    · rw [none] at new
      cases new
    · exact here (same ▸ new)
  | reads cursor page stage given lands =>
    refine Tick.goes_kept promised trivial ?_
    intro promise new
    cases new
    refine next_ready (placed cursor.id) (here (by rw [stage]; rfl)) (.inl ?_)
    simpa [Execution.fits, given, stage, World.apply] using fits
  | readsOnly cursor page stage lands =>
    refine Tick.goes_kept promised trivial ?_
    intro promise new landing
    cases new
    rw [lands] at landing
    cases landing
  | lands cursor rows stage =>
    refine Tick.goes_kept promised trivial ?_
    intro promise new
    cases new
    exact Ready.landed (here (by rw [stage]; rfl))
  | succeeds _ _ _ stage | succeedsLate _ _ _ _ _ stage =>
    exact Tick.goes_kept promised (here (by rw [stage]; rfl)) nofun
  | fails _ _ _ _ _ _ _ over_ | failsLate _ _ _ _ _ _ over_ =>
    refine Tick.goes_kept promised trivial ?_
    rcases over_ with rfl | rfl <;> exact nofun

theorem Sweep.goes_kept {sweep : Sweep} {stage : SweepStage} {change : Change}
    (promised : ∀ promise ∈ sweep.promises setting, Ready setting world promise)
    (due : change.Due setting world) (fresh : ∀ promise, stage.promise setting = some promise →
      Ready setting (world.apply change) promise) :
    change.Due setting world ∧
      ∀ promise ∈ (sweep.goes stage).promises setting,
        Ready setting (world.apply change) promise := by
  refine ⟨due, ?_⟩
  intro promise there
  rcases Sweep.goes_promises there with old | new
  · exact (promised promise old).apply _
  · exact fresh promise new

theorem Sweep.Did.kept {sweep next : Sweep} {answer : Answer} {change : Change}
    (did : sweep.Did setting answer next change)
    (placed : ∀ id, ∀ row ∈ world.data id, position setting.dateParse row ≠ none)
    (promised : ∀ promise ∈ sweep.promises setting, Ready setting world promise)
    (fits : Execution.fits setting world (.sweep sweep) answer = true) :
    change.Due setting world ∧
      ∀ promise ∈ next.promises setting, Ready setting (world.apply change) promise := by
  have here : ∀ {promise : Promise}, sweep.stage.promise setting = some promise →
      Ready setting world promise := fun same => promised _ (Sweep.stage_promise same)
  cases did with
  | rests => exact ⟨trivial, promised⟩
  | turns alive => exact ⟨trivial, fun promise there => promised promise (Sweep.turn_promises there)⟩
  | moves stage alive simple promises =>
    refine Sweep.goes_kept promised trivial ?_
    intro promise new
    rcases promises with none | same
    · rw [none] at new
      cases new
    · exact here (same ▸ new)
  | reads cursor page stage given lands =>
    refine Sweep.goes_kept promised trivial ?_
    intro promise new
    cases new
    refine next_ready (placed cursor.id) (here (by rw [stage]; rfl)) (.inr ?_)
    simpa [Execution.fits, given, stage, World.apply] using fits
  | readsOnly cursor page stage lands =>
    refine @Sweep.goes_kept _ _ sweep _ .nothing promised trivial ?_
    intro promise new landing
    cases new
    rw [lands] at landing
    cases landing
  | lands cursor rows stage =>
    refine @Sweep.goes_kept _ _ sweep _ (.lands cursor.id rows) promised trivial ?_
    intro promise new
    cases new
    exact Ready.landed (here (by rw [stage]; rfl))
  | succeeds cursor rows stage after_ then_ =>
    have due := here (by rw [stage]; rfl)
    rcases then_ with rfl | ⟨err, rfl⟩
    · refine ⟨due, ?_⟩
      intro promise there
      exact (promised promise (Sweep.turn_promises there)).apply _
    · exact Sweep.goes_kept promised due nofun
  | fails reads cursor err waitMs stage charged then_ over_ =>
    refine Sweep.goes_kept promised trivial ?_
    rcases over_ with rfl | rfl <;> exact nofun

theorem Kept.proceed (kept : Kept setting world) (i : ℕ) (answer : Answer) :
    Kept setting (world.proceed setting i answer) := by
  unfold World.proceed
  split
  · exact kept
  · rename_i execution found
    split
    · rename_i fits
      dsimp only
      have promised := kept.promised execution (List.mem_of_getElem? found)
      have result : (execution.react setting world answer).2.Due setting world ∧
          ∀ promise ∈ (execution.react setting world answer).1.promises setting,
            Ready setting (world.apply (execution.react setting world answer).2) promise := by
        cases execution with
        | tick running => exact (Tick.react_did world.cursors running answer).kept kept.placed promised fits
        | sweep running => exact (Sweep.react_did running answer).kept kept.placed promised fits
      generalize execution.react setting world answer = outcome at result ⊢
      obtain ⟨due, still⟩ := result
      have applied := kept.apply due
      refine ⟨applied.placed, applied.stored, ?_⟩
      intro other there promise member
      rcases List.mem_or_eq_of_mem_set there with old | same
      · exact (kept.promised other old promise member).apply _
      · exact still promise (same ▸ member)
    · exact kept

theorem Ready.grow (ready : Ready setting world promise) {row : Row}
    (later : grows setting (world.data id) row = true) :
    Ready setting { world with data := Function.update world.data id (world.data id ++ [row]) }
      promise := by
  by_cases same : promise.id = id
  · subst same
    intro lands value stored
    obtain ⟨⟨source, keyed, valued⟩, all⟩ := ready lands value stored
    simp only [Function.update_self]
    refine ⟨⟨source, ?_, valued⟩, ?_⟩
    · rw [identify, List.filter_append]
      exact List.mem_append_left _ keyed
    · intro other there top at_ instant placed below
      rcases List.mem_append.mp there with old | new
      · exact all other old top at_ instant placed below
      · cases List.mem_singleton.mp new
        unfold grows at later
        rw [placed, List.all_eq_true] at later
        have before := later source (List.mem_of_mem_filter keyed)
        have here : position setting.dateParse source = some top := by
          rw [position, valued]
          exact instant
        simp only [here, decide_eq_true_eq] at before
        omega
  · intro lands value stored
    have kept := ready lands value stored
    simpa [same] using kept

theorem Kept.step (kept : Kept setting world) (event : Event) : Kept setting (world.step setting event) := by
  have stored : ∀ id, Ready setting world ((world.cursors id).snapshot id).promise := kept.stored
  cases event with
  | tick now ids =>
    rw [World.step]
    split
    · refine ⟨kept.placed, kept.stored, ?_⟩
      intro execution there promise member
      rcases List.mem_append.mp there with old | new
      · exact kept.promised execution old promise member
      · rw [List.mem_singleton.mp new] at member
        simp only [Execution.promises, Tick.promises, TickStage.promise, List.map_map, List.map_nil,
          Option.toList_none, List.append_nil, List.mem_map] at member
        obtain ⟨id, -, rfl⟩ := member
        exact stored id
    · exact kept
  | sweep now connection ids =>
    rw [World.step]
    split
    · refine ⟨kept.placed, kept.stored, ?_⟩
      intro execution there promise member
      rcases List.mem_append.mp there with old | new
      · exact kept.promised execution old promise member
      · rw [List.mem_singleton.mp new] at member
        simp only [Execution.promises, Sweep.promises, SweepStage.promise, List.map_map,
          Option.toList_none, List.append_nil, List.mem_map] at member
        obtain ⟨id, -, rfl⟩ := member
        exact stored id
    · exact kept
  | proceed i answer => exact kept.proceed i answer
  | disconnect connection =>
    refine ⟨kept.placed, ?_, kept.promised⟩
    intro id
    change Ready setting world _
    dsimp only [World.step]
    split
    · exact Ready.none _ _
    · exact kept.stored id
  | crash i =>
    rw [World.step]
    split
    · exact kept
    · rename_i execution found
      refine ⟨kept.placed, kept.stored, ?_⟩
      intro other there promise member
      rcases List.mem_or_eq_of_mem_set there with old | same
      · exact kept.promised other old promise member
      · have own := kept.promised execution (List.mem_of_getElem? found)
        rw [same] at member
        cases execution with
        | tick running =>
          rcases Tick.goes_promises member with old | new
          · exact own promise old
          · cases new
        | sweep running =>
          rcases Sweep.goes_promises member with old | new
          · exact own promise old
          · cases new
  | appears id row =>
    rw [World.step]
    split
    · rename_i later
      refine ⟨?_, fun other => (kept.stored other).grow later, fun execution there promise member =>
          (kept.promised execution there promise member).grow later⟩
      intro other row' there
      by_cases same : other = id
      · subst same
        simp only [Function.update_self, List.mem_append, List.mem_singleton] at there
        rcases there with old | rfl
        · exact kept.placed other row' old
        · intro none
          simp [grows, none] at later
      · simp only [Function.update_of_ne same] at there
        exact kept.placed other row' there
    · exact kept

theorem Kept.runs (events : List Event) : Kept setting (World.start.runs setting events) :=
  Stepping.run_keeps (fun _ event kept => kept.step event) events Kept.start

end Droplet.ErpSync
