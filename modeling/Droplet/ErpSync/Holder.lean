import Droplet.ErpSync.Forward

/-! One holder at a time, where ticks, sweeps and disconnects keep out of each other's way. -/

namespace Droplet.ErpSync

open SyncPolicy Places

variable {setting : Setting}

/-- The cursor whose entity is read and that is not released yet. -/
def TickStage.reads : TickStage → Option ClaimedErpCursor
  | .reading cursor => some cursor
  | .landing cursor _ => some cursor
  | .releasing cursor _ => some cursor
  | .failing cursor _ true => some cursor
  | _ => none

/-- It is between starting to read the cursor's entity and releasing the cursor. -/
def Execution.reads (id : CursorId) : Execution → Bool
  | .tick running => running.stage.reads.any fun cursor => cursor.id = id
  | .sweep running => running.stage.reads.any fun cursor => cursor.id = id

def Tick.holds (tick : Tick) : List ClaimedErpCursor :=
  if tick.stage.isDone then [] else tick.claimed ++ tick.stage.current.toList

/-- The cursor is claimed by this tick, or this sweep is at work on its connection. -/
def Execution.takes (setting : Setting) (id : CursorId) : Execution → Bool
  | .tick running => running.holds.any fun cursor => cursor.id = id
  | .sweep running => !running.stage.isDone && running.connection = setting.connectionOf id

def Execution.isOn (setting : Setting) (connection : ConnectionId) : Execution → Bool
  | .tick running => running.holds.any fun cursor => setting.connectionOf cursor.id = connection
  | .sweep running => !running.stage.isDone && running.connection = connection

/-- It is at work on the connection, or has read its cursors to claim them. -/
def Execution.minds (setting : Setting) (connection : ConnectionId) : Execution → Bool
  | .tick running => !running.stage.isDone &&
      (running.todo ++ running.holds).any fun cursor => setting.connectionOf cursor.id = connection
  | .sweep running => !running.stage.isDone && running.connection = connection

def Execution.sweeps (connection : ConnectionId) : Execution → Bool
  | .tick _ => false
  | .sweep running => !running.stage.isDone && running.connection = connection

/-- A sweep begins on a connection nobody works on, a tick claims no cursor of a connection that is being
swept, a disconnect comes while nobody has to do with the connection, and nothing throws between a
successful release and the next cursor. -/
def orderly (setting : Setting) (world : World) : Event → Bool
  | .sweep _ connection _ => world.executions.all fun execution => !execution.isOn setting connection
  | .disconnect connection => world.executions.all fun execution => !execution.minds setting connection
  | .proceed i answer =>
    match world.executions[i]? with
    | some (.tick tick) =>
      match tick.stage, answer with
      | .claiming, _ =>
        match tick.todo with
        | cursor :: _ => world.executions.all fun execution =>
          !execution.sweeps (setting.connectionOf cursor.id)
        | [] => true
      | .settled _, .fails _ _ => false
      | .releasing _ _, .fails _ (some _) => false
      | _, _ => true
    | _ => true
  | _ => true

def Change.released : Change → Option ClaimedErpCursor
  | .succeeds cursor _ _ _ => some cursor
  | .fails cursor _ _ _ => some cursor
  | _ => none

def TickStage.isLate : TickStage → Bool
  | .failingLate _ _ => true
  | _ => false

structure Tick.Hands (cursors : CursorId → Cursor) (tick next : Tick) (change : Change) : Prop where
  todo : ∀ cursor ∈ next.todo, cursor ∈ tick.todo
  less : ∀ cursor ∈ next.holds, cursor ∈ tick.holds ∨
    cursor ∈ tick.todo ∧ change = .claims cursor.id
  distinct : (tick.holds.map ClaimedErpCursor.id).Nodup →
    (∀ id, change = .claims id → id ∉ tick.holds.map ClaimedErpCursor.id) →
      (next.holds.map ClaimedErpCursor.id).Nodup
  released : ∀ cursor, change.released = some cursor → cursor ∈ tick.holds ∧
    ((tick.holds.map ClaimedErpCursor.id).Nodup → cursor.id ∉ next.holds.map ClaimedErpCursor.id)
  claimed : ∀ id, change = .claims id → tick.stage = .claiming ∧
    (cursors id).claimable = true ∧ ∃ cursor rest, tick.todo = cursor :: rest ∧ cursor.id = id
  alive : next.stage.isDone = false → tick.stage.isDone = false
  timely : next.stage.isLate = false

variable {cursors : CursorId → Cursor} {tick next : Tick} {change : Change} {answer : Answer}

theorem Tick.turn_holds (free : tick.stage.current = none) (alive : tick.stage.isDone = false) :
    tick.turn.holds.Perm tick.holds := by
  unfold Tick.turn
  split
  · rename_i none
    simp [Tick.holds, TickStage.isDone, free, none]
  · rename_i cursor rest some
    have held : tick.holds = cursor :: rest := by
      simp [Tick.holds, alive, free, some]
    rw [held]
    exact List.perm_append_singleton cursor rest

theorem Tick.ready_holds (free : tick.stage.current = none) (alive : tick.stage.isDone = false) :
    (Tick.ready tick).holds.Perm tick.holds := by
  unfold Tick.ready
  split
  · exact Tick.turn_holds free alive
  · exact .refl _

theorem Tick.turn_todo : tick.turn.todo = tick.todo := by
  unfold Tick.turn
  split <;> rfl

theorem Tick.ready_todo : (Tick.ready tick).todo = tick.todo := by
  unfold Tick.ready
  split
  · exact Tick.turn_todo
  · rfl

theorem Tick.turn_late : tick.turn.stage.isLate = false := by
  unfold Tick.turn
  split <;> rfl

theorem Tick.ready_late (timely : tick.stage.isLate = false) : (Tick.ready tick).stage.isLate = false := by
  unfold Tick.ready
  split
  · exact Tick.turn_late
  · exact timely

theorem Tick.Hands.quiet (holds : next.holds.Perm tick.holds ∨ next.holds = [])
    (todo : ∀ cursor ∈ next.todo, cursor ∈ tick.todo)
    (alive : next.stage.isDone = false → tick.stage.isDone = false)
    (timely : next.stage.isLate = false) (silent : change.released = none)
    (unclaimed : ∀ id, change ≠ .claims id) : Tick.Hands cursors tick next change where
  todo := todo
  less := by
    intro cursor there
    rcases holds with same | none
    · exact .inl (same.mem_iff.mp there)
    · rw [none] at there
      cases there
  distinct := by
    intro distinct _
    rcases holds with same | none
    · exact (same.map _).nodup_iff.mpr distinct
    · simp [none]
  released := by
    intro cursor release
    rw [silent] at release
    cases release
  claimed := fun id claims => absurd claims (unclaimed id)
  alive := alive
  timely := timely

variable {cursor : ClaimedErpCursor}

theorem Tick.Hands.release (current : tick.stage.current = some cursor)
    (alive : tick.stage.isDone = false) (stage : TickStage) (free : stage.current = none)
    (timely : stage.isLate = false) (released : change.released = some cursor)
    (unclaimed : ∀ id, change ≠ .claims id) : Tick.Hands cursors tick (tick.goes stage) change := by
  have held : tick.holds = tick.claimed ++ [cursor] := by
    simp [Tick.holds, alive, current]
  have left : ∀ other ∈ (tick.goes stage).holds, other ∈ tick.claimed := by
    intro other there
    unfold Tick.holds at there
    split at there
    · cases there
    · simpa [Tick.goes, free] using there
  constructor
  · exact fun other there => there
  · intro other there
    rw [held]
    exact .inl (List.mem_append_left _ (left other there))
  · intro distinct _
    rw [held, List.map_append] at distinct
    unfold Tick.holds
    split
    · simp
    · simpa [Tick.goes, free] using (List.nodup_append.mp distinct).1
  · intro other release
    rw [released] at release
    cases release
    rw [held]
    refine ⟨by simp, ?_⟩
    intro distinct there
    obtain ⟨other, member, same⟩ := List.mem_map.mp there
    rw [List.map_append, List.nodup_append] at distinct
    exact distinct.2.2 other.id (List.mem_map_of_mem (left other member)) cursor.id (by simp) same
  · exact fun id claims => absurd claims (unclaimed id)
  · exact fun _ => alive
  · exact timely

theorem Tick.goes_holds {stage : TickStage} (current : tick.stage.current = some cursor)
    (still : stage.current = some cursor) : (tick.goes stage).holds = tick.holds := by
  have busy : ∀ stage : TickStage, stage.current = some cursor → stage.isDone = false := by
    intro stage same
    cases stage <;> first | rfl | cases same
  simp [Tick.holds, Tick.goes, busy _ current, busy _ still, current, still]

/-- Every step of a tick is of these kinds, where nothing throws after a successful release. -/
theorem Tick.Did.hands (did : tick.Did setting cursors answer next change) (timely : tick.stage.isLate = false)
    (settled : ∀ cursor err applied, tick.stage = .settled cursor → answer ≠ .fails err applied)
    (lost : ∀ cursor watermark err stamp, tick.stage = .releasing cursor watermark →
      answer ≠ .fails err (some stamp)) : Tick.Hands cursors tick next change := by
  -- a stage at a cursor is neither done nor late
  have still : ∀ (cursor : ClaimedErpCursor) (stage : TickStage),
      tick.stage.current = some cursor → stage.current = some cursor →
        Tick.Hands cursors tick (tick.goes stage) .nothing := by
    intro cursor stage current stays
    refine .quiet (.inl (by rw [Tick.goes_holds current stays])) (fun _ there => there) ?_ ?_ rfl
      (fun id claims => by cases claims)
    · intro _
      cases shape : tick.stage <;> rw [shape] at current <;> first | rfl | cases current
    · change stage.isLate = false
      cases stage <;> first | rfl | cases stays
  cases did with
  | rests =>
    exact .quiet (.inl (.refl _)) (fun _ there => there) id timely rfl (fun id claims => by cases claims)
  | ends =>
    exact .quiet (.inr rfl) (fun _ there => there) (fun alive => by cases alive) rfl rfl
      (fun id claims => by cases claims)
  | turns free alive =>
    refine .quiet (.inl (Tick.turn_holds free alive)) ?_ (fun _ => alive) Tick.turn_late rfl
      (fun id claims => by cases claims)
    intro cursor there
    rwa [Tick.turn_todo] at there
  | skips cursor rest todo stage =>
    have alive : tick.stage.isDone = false := by rw [stage]; rfl
    have current : tick.stage.current = none := by rw [stage]; rfl
    refine .quiet (.inl ?_) ?_ (fun _ => alive)
      (@Tick.ready_late { tick with todo := rest } timely) rfl (fun id claims => by cases claims)
    · exact @Tick.ready_holds { tick with todo := rest } current alive
    · intro other there
      rw [Tick.ready_todo] at there
      rw [todo]
      exact List.mem_cons_of_mem _ there
  | claims cursor rest todo stage free =>
    have alive : tick.stage.isDone = false := by rw [stage]; rfl
    have current : tick.stage.current = none := by rw [stage]; rfl
    have held : tick.holds = tick.claimed := by simp [Tick.holds, alive, current]
    have holds : (Tick.ready { tick with todo := rest, claimed := tick.claimed ++ [cursor] }).holds.Perm
        (tick.claimed ++ [cursor]) := by
      refine (@Tick.ready_holds { tick with todo := rest, claimed := tick.claimed ++ [cursor] }
        current alive).trans ?_
      simp [Tick.holds, alive, current]
    constructor
    · intro other there
      rw [Tick.ready_todo] at there
      rw [todo]
      exact List.mem_cons_of_mem _ there
    · intro other there
      rcases List.mem_append.mp (holds.mem_iff.mp there) with old | new
      · rw [held]
        exact .inl old
      · cases List.mem_singleton.mp new
        exact .inr ⟨by simp [todo], rfl⟩
    · intro distinct fresh
      rw [(holds.map _).nodup_iff, List.map_append, List.nodup_append]
      rw [held] at distinct fresh
      refine ⟨distinct, by simp, ?_⟩
      intro first there second other same
      rw [List.map_singleton, List.mem_singleton] at other
      exact fresh cursor.id rfl (other ▸ same ▸ there)
    · exact fun other release => by cases release
    · intro id claims
      cases claims
      exact ⟨stage, free, cursor, rest, todo, rfl⟩
    · exact fun _ => alive
    · exact @Tick.ready_late { tick with todo := rest, claimed := tick.claimed ++ [cursor] } timely
  | strands cursor rest todo stage free =>
    constructor
    · exact fun _ there => there
    · intro other there
      cases there
    · intro _ _
      simp [Tick.holds, Tick.goes, TickStage.isDone]
    · exact fun other release => by cases release
    · intro id claims
      cases claims
      exact ⟨stage, free, cursor, rest, todo, rfl⟩
    · exact fun alive => by cases alive
    · rfl
  | moves cursor stage current simple promises =>
    refine still cursor stage current ?_
    rcases simple with rfl | rfl | ⟨err, read, rfl⟩ <;> rfl
  | reads cursor _ stage | readsOnly cursor _ stage => exact still cursor _ (by rw [stage]; rfl) rfl
  | lands cursor rows stage =>
    have kept := still cursor (.releasing cursor (Tick.next setting cursor rows)) (by rw [stage]; rfl) rfl
    constructor
    · exact kept.todo
    · intro other there
      exact .inl ((kept.less other there).resolve_right (fun both => by cases both.2))
    · exact fun distinct _ => kept.distinct distinct (fun id claims => by cases claims)
    · exact fun other release => by cases release
    · exact fun id claims => by cases claims
    · exact kept.alive
    · exact kept.timely
  | succeeds cursor watermark now stage =>
    exact .release (by rw [stage]; rfl) (by rw [stage]; rfl) _ rfl rfl rfl (fun id claims => by cases claims)
  | succeedsLate cursor watermark now waitMs err stage given =>
    exact absurd given (lost cursor watermark err (now, waitMs) stage)
  | late cursor err applied stage given => exact absurd given (settled cursor err applied stage)
  | fails cursor err read now waitMs stage then_ over_ =>
    refine .release (by rw [stage]; rfl) (by rw [stage]; rfl) then_ ?_ ?_ rfl
      (fun id claims => by cases claims)
    all_goals rcases over_ with rfl | rfl <;> rfl
  | failsLate cursor err now waitMs stage then_ over_ =>
    rw [stage] at timely
    cases timely

/-- A sweep works only on the cursors of its connection that it read. -/
structure Sweep.Within (setting : Setting) (sweep : Sweep) : Prop where
  own : ∀ cursor ∈ sweep.due, setting.connectionOf cursor.id = sweep.connection
  todo : ∀ cursor ∈ sweep.todo, cursor ∈ sweep.due
  reads : ∀ cursor, sweep.stage.reads = some cursor → cursor ∈ sweep.due

/-- The cursor is, but for its failures, one that the sweep read. -/
def Sweep.Owns (sweep : Sweep) (cursor : ClaimedErpCursor) : Prop :=
  ∃ other ∈ sweep.due, cursor.id = other.id ∧ cursor.resets = other.resets

theorem Sweep.Owns.of_mem {sweep : Sweep} {cursor : ClaimedErpCursor} (member : cursor ∈ sweep.due) :
    sweep.Owns cursor := ⟨cursor, member, rfl, rfl⟩

/-- What a step of a sweep does to the cursors it works on. -/
structure Sweep.Hands (setting : Setting) (sweep next : Sweep) (change : Change) : Prop where
  within : next.Within setting
  connection : next.connection = sweep.connection
  due : next.due = sweep.due
  alive : next.stage.isDone = false → sweep.stage.isDone = false
  released : ∀ cursor, change.released = some cursor →
    sweep.Owns cursor ∧ sweep.stage.isDone = false
  unclaimed : ∀ id, change ≠ .claims id

variable {sweep after_ : Sweep}

theorem Sweep.turn_same : (sweep.turn setting).connection = sweep.connection ∧
    (sweep.turn setting).due = sweep.due := by
  unfold Sweep.turn
  split <;> exact ⟨rfl, rfl⟩

theorem Sweep.Within.turn (within : sweep.Within setting) : (sweep.turn setting).Within setting := by
  unfold Sweep.turn
  split
  · exact ⟨within.own, fun cursor there => (List.not_mem_nil there).elim, fun cursor reads => by cases reads⟩
  · rename_i cursor rest left
    have there : ∀ other ∈ cursor :: rest, other ∈ sweep.due := by
      intro other member
      rw [← left] at member
      exact within.todo other (List.dropWhile_subset _ member)
    refine ⟨within.own, fun other member => there other (List.mem_cons_of_mem _ member), ?_⟩
    intro other reads
    cases reads
    exact there cursor List.mem_cons_self

theorem Sweep.Within.goes (within : sweep.Within setting) {stage : SweepStage}
    (same : ∀ cursor, stage.reads = some cursor → cursor ∈ sweep.due) : (sweep.goes stage).Within setting :=
  ⟨within.own, within.todo, same⟩

theorem Sweep.charged_owned (charged : sweep.charged = some cursor) : sweep.Owns cursor := by
  unfold Sweep.charged at charged
  cases there : sweep.due[sweep.drifted]? with
  | none =>
    rw [there, Option.none_or] at charged
    obtain ⟨first, found, rfl⟩ := Option.map_eq_some_iff.mp charged
    exact ⟨first, List.mem_of_mem_head? found, rfl, rfl⟩
  | some other =>
    rw [there] at charged
    cases charged
    exact .of_mem (List.mem_of_getElem? there)

theorem Sweep.Did.hands {answer : Answer} (did : sweep.Did setting answer after_ change)
    (within : sweep.Within setting) : Sweep.Hands setting sweep after_ change := by
  have turned : ∀ change : Change, sweep.stage.isDone = false →
      (∀ cursor, change.released = some cursor → sweep.Owns cursor) →
        (∀ id, change ≠ .claims id) → Sweep.Hands setting sweep (sweep.turn setting) change :=
    fun change alive own unclaimed => ⟨within.turn, Sweep.turn_same.1, Sweep.turn_same.2,
      fun _ => alive, fun cursor released => ⟨own cursor released, alive⟩, unclaimed⟩
  cases did with
  | rests =>
    exact ⟨within, rfl, rfl, id, fun cursor released => (by cases released), fun id claims => by cases claims⟩
  | turns alive =>
    exact turned _ alive (fun cursor released => by cases released) (fun id claims => by cases claims)
  | moves stage alive simple promises =>
    refine ⟨within.goes ?_, rfl, rfl, fun _ => alive, fun cursor released => (by cases released),
      fun id claims => by cases claims⟩
    intro cursor reads
    rcases simple with ⟨at_, was, rfl⟩ | ⟨at_, rows, was, rfl⟩ | ⟨there, err, rfl, kept⟩ | rfl | rfl
    iterate 2
      · cases reads
        exact within.reads cursor (by rw [was]; rfl)
    · exact within.reads cursor (kept cursor reads)
    · cases reads
    · cases reads
  | reads cursor page stage given lands =>
    refine ⟨within.goes ?_, rfl, rfl, fun _ => by rw [stage]; rfl,
      fun cursor released => (by cases released), fun id claims => by cases claims⟩
    intro other reads
    cases reads
    exact within.reads cursor (by rw [stage]; rfl)
  | readsOnly cursor _ stage | lands cursor _ stage =>
    refine ⟨⟨within.own, within.todo, ?_⟩, rfl, rfl, fun _ => by rw [stage]; rfl,
      fun cursor released => (by cases released), fun id claims => by cases claims⟩
    intro other reads
    cases reads
    exact within.reads cursor (by rw [stage]; rfl)
  | succeeds cursor rows stage after_ then_ =>
    have alive : sweep.stage.isDone = false := by rw [stage]; rfl
    have own : sweep.Owns cursor := .of_mem (within.reads cursor (by rw [stage]; rfl))
    rcases then_ with rfl | ⟨err, rfl⟩
    · refine turned _ alive ?_ (fun id claims => by cases claims)
      intro other released
      cases released
      exact own
    · refine ⟨within.goes (fun other reads => by cases reads), rfl, rfl, fun _ => alive, ?_,
        fun id claims => by cases claims⟩
      intro other released
      cases released
      exact ⟨own, alive⟩
  | fails reads cursor err waitMs stage charged then_ over_ =>
    have alive : sweep.stage.isDone = false := by rw [stage]; rfl
    refine ⟨within.goes ?_, rfl, rfl, fun _ => alive, ?_, fun id claims => by cases claims⟩
    · intro other reads
      rcases over_ with rfl | rfl <;> cases reads
    · intro other released
      cases released
      exact ⟨Sweep.charged_owned charged, alive⟩

/-- What an execution keeps by itself: it works on cursors that were not reset since it read them, and
those a tick holds are marked. -/
def Execution.Settled (setting : Setting) (cursors : CursorId → Cursor) : Execution → Prop
  | .tick running =>
    (running.stage.isDone = false → ∀ cursor ∈ running.todo ++ running.holds,
      cursor.resets = (cursors cursor.id).resets) ∧
    (∀ cursor ∈ running.holds, (cursors cursor.id).state = .SYNCING) ∧
    (running.holds.map ClaimedErpCursor.id).Nodup ∧ running.stage.isLate = false
  | .sweep running =>
    (running.stage.isDone = false → ∀ cursor ∈ running.due,
      cursor.resets = (cursors cursor.id).resets) ∧ running.Within setting

structure Exclusive (setting : Setting) (world : World) : Prop where
  alone : ∀ (id : CursorId) (i j : ℕ) (first second : Execution),
    world.executions[i]? = some first → world.executions[j]? = some second →
      first.takes setting id = true → second.takes setting id = true → i = j
  settled : ∀ (i : ℕ) (execution : Execution), world.executions[i]? = some execution →
    execution.Settled setting world.cursors

variable {world : World} {execution : Execution} {id : CursorId}

theorem Exclusive.start : Exclusive setting World.start :=
  ⟨fun _ _ _ _ _ found => (by cases found), fun _ _ found => by cases found⟩

theorem Tick.takes_holds {tick : Tick} :
    (Execution.tick tick).takes setting id = true ↔ id ∈ tick.holds.map ClaimedErpCursor.id := by
  simp [Execution.takes]

theorem Execution.Settled.reads (settled : execution.Settled setting world.cursors)
    (at_ : execution.reads id = true) : execution.takes setting id = true := by
  cases execution with
  | tick running =>
    simp only [Execution.reads, Option.any_eq_true, decide_eq_true_eq] at at_
    obtain ⟨cursor, reads, same⟩ := at_
    have current : running.stage.current = some cursor ∧ running.stage.isDone = false := by
      cases stage : running.stage with
      | failing other err read =>
        rw [stage] at reads
        cases read with
        | true => exact ⟨reads, rfl⟩
        | false => cases reads
      | _ =>
        rw [stage] at reads
        first | exact ⟨reads, rfl⟩ | cases reads
    rw [Tick.takes_holds]
    exact List.mem_map.mpr ⟨cursor, by simp [Tick.holds, current.1, current.2], same⟩
  | sweep running =>
    simp only [Execution.reads, Option.any_eq_true, decide_eq_true_eq] at at_
    obtain ⟨cursor, reads, same⟩ := at_
    have alive : running.stage.isDone = false := by
      cases stage : running.stage with
      | done =>
        rw [stage] at reads
        cases reads
      | _ => rfl
    have own := settled.2.own cursor (settled.2.reads cursor reads)
    simp [Execution.takes, alive, ← own, same]

theorem World.apply_resets (world : World) (change : Change) (id : CursorId) :
    ((world.apply change).cursors id).resets = (world.cursors id).resets := by
  cases change with
  | nothing | lands => rfl
  | claims other =>
    by_cases same : id = other
    · subst same
      simp only [World.apply, World.setCursor, Function.update_self]
      cases claim : (world.cursors id).claim with
      | none => rfl
      | some next => rw [(Cursor.claim_cases claim).2]; rfl
    · simp [World.apply, World.setCursor, same]
  | succeeds cursor watermark now sweptAt =>
    by_cases same : id = cursor.id
    · subst same
      simp [World.apply, World.setCursor, Cursor.releaseSuccess]
    · simp [World.apply, World.setCursor, same]
  | fails cursor err now waitMs =>
    by_cases same : id = cursor.id
    · subst same
      simp [World.apply, World.setCursor, Cursor.releaseFailure_resets]
    · simp [World.apply, World.setCursor, same]

theorem World.apply_syncing (syncing : (world.cursors id).state = .SYNCING)
    (kept : ∀ cursor, change.released = some cursor → cursor.id ≠ id) :
    ((world.apply change).cursors id).state = .SYNCING := by
  cases change with
  | nothing | lands => exact syncing
  | claims other =>
    by_cases same : id = other
    · subst same
      simp [World.apply, World.setCursor, Cursor.claim, Cursor.not_claimable_syncing syncing, syncing]
    · simp [World.apply, World.setCursor, same, syncing]
  | succeeds cursor | fails cursor =>
    have differ : id ≠ cursor.id := Ne.symm (kept cursor rfl)
    simp [World.apply, World.setCursor, differ, syncing]

theorem World.apply_claimed (free : (world.cursors id).claimable = true) :
    ((world.apply (.claims id)).cursors id).state = .SYNCING := by
  simp [World.apply, World.setCursor, Cursor.claim, free]

theorem Execution.Settled.apply (settled : execution.Settled setting world.cursors)
    (kept : ∀ cursor, change.released = some cursor → execution.takes setting cursor.id = false) :
    execution.Settled setting (world.apply change).cursors := by
  cases execution with
  | tick running =>
    refine ⟨?_, ?_, settled.2.2⟩
    · intro alive cursor there
      rw [World.apply_resets]
      exact settled.1 alive cursor there
    · intro cursor held
      refine World.apply_syncing (settled.2.1 cursor held) ?_
      intro other released same
      have taken : (Execution.tick running).takes setting other.id = true := by
        rw [same, Tick.takes_holds]
        exact List.mem_map_of_mem held
      rw [kept other released] at taken
      cases taken
  | sweep running =>
    refine ⟨?_, settled.2⟩
    intro alive cursor there
    rw [World.apply_resets]
    exact settled.1 alive cursor there

/-- What a step of an execution does to what it has taken. -/
structure Execution.Turn (setting : Setting) (world : World) (execution next : Execution)
    (change : Change) : Prop where
  settled : next.Settled setting (world.apply change).cursors
  takes : ∀ id, next.takes setting id = true → execution.takes setting id = true ∨
    (world.cursors id).claimable = true ∧
      ∀ other ∈ world.executions, other.sweeps (setting.connectionOf id) = false
  released : ∀ cursor, change.released = some cursor → execution.takes setting cursor.id = true ∧
    cursor.resets = (world.cursors cursor.id).resets

variable {i : ℕ}

theorem orderly_tick (found : world.executions[i]? = some (.tick tick))
    (orderly : orderly setting world (.proceed i answer) = true) :
    (∀ cursor err applied, tick.stage = .settled cursor → answer ≠ .fails err applied) ∧
    (∀ cursor watermark err stamp, tick.stage = .releasing cursor watermark →
      answer ≠ .fails err (some stamp)) ∧
    ∀ cursor rest, tick.stage = .claiming → tick.todo = cursor :: rest →
      ∀ other ∈ world.executions, other.sweeps (setting.connectionOf cursor.id) = false := by
  simp only [ErpSync.orderly, found] at orderly
  refine ⟨?_, ?_, ?_⟩
  · intro cursor err applied stage given
    simp [stage, given] at orderly
  · intro cursor watermark err stamp stage given
    simp [stage, given] at orderly
  · intro cursor rest stage todo other there
    simp only [stage, todo, List.all_eq_true, Bool.not_eq_true'] at orderly
    exact orderly other there

theorem Tick.holds_alive (held : cursor ∈ tick.holds) : tick.stage.isDone = false := by
  unfold Tick.holds at held
  split at held
  · cases held
  · rename_i alive
    simpa using alive

theorem Tick.turn_taken (found : world.executions[i]? = some (.tick tick))
    (settled : (Execution.tick tick).Settled setting world.cursors)
    (orderly : orderly setting world (.proceed i answer) = true)
    (did : tick.Did setting world.cursors answer next change) :
    Execution.Turn setting world (.tick tick) (.tick next) change := by
  obtain ⟨quiet, lost, unswept⟩ := orderly_tick found orderly
  obtain ⟨unreset, syncing, distinct, timely⟩ := settled
  have hands := did.hands timely quiet lost
  have unheld : ∀ id, change = .claims id → id ∉ tick.holds.map ClaimedErpCursor.id := by
    intro id claims held
    obtain ⟨cursor, there, same⟩ := List.mem_map.mp held
    have free := (hands.claimed id claims).2.1
    rw [← same, Cursor.not_claimable_syncing (syncing cursor there)] at free
    cases free
  constructor
  · refine ⟨?_, ?_, hands.distinct distinct unheld, hands.timely⟩
    · intro alive cursor there
      rw [World.apply_resets]
      refine unreset (hands.alive alive) cursor ?_
      rcases List.mem_append.mp there with waits | held
      · exact List.mem_append_left _ (hands.todo cursor waits)
      · rcases hands.less cursor held with before | ⟨waits, claims⟩
        · exact List.mem_append_right _ before
        · exact List.mem_append_left _ waits
    · intro cursor held
      rcases hands.less cursor held with before | ⟨waits, rfl⟩
      · refine World.apply_syncing (syncing cursor before) ?_
        intro other released same
        refine (hands.released other released).2 distinct ?_
        rw [same]
        exact List.mem_map_of_mem held
      · exact World.apply_claimed (hands.claimed cursor.id rfl).2.1
  · intro id taken
    obtain ⟨cursor, held, same⟩ := List.mem_map.mp (Tick.takes_holds.mp taken)
    rcases hands.less cursor held with before | ⟨waits, claims⟩
    · rw [Tick.takes_holds, ← same]
      exact .inl (List.mem_map_of_mem before)
    · rw [same] at claims
      obtain ⟨stage, free, first, rest, todo, own⟩ := hands.claimed id claims
      refine .inr ⟨free, ?_⟩
      rw [← own]
      exact unswept first rest stage todo
  · intro cursor released
    have held := (hands.released cursor released).1
    rw [Tick.takes_holds]
    exact ⟨List.mem_map_of_mem held, unreset (Tick.holds_alive held) cursor (List.mem_append_right _ held)⟩

theorem Sweep.turn_taken (settled : (Execution.sweep sweep).Settled setting world.cursors)
    (did : sweep.Did setting answer after_ change) :
    Execution.Turn setting world (.sweep sweep) (.sweep after_) change := by
  obtain ⟨unreset, within⟩ := settled
  have hands := did.hands within
  constructor
  · refine ⟨?_, hands.within⟩
    intro alive cursor there
    rw [World.apply_resets]
    rw [hands.due] at there
    exact unreset (hands.alive alive) cursor there
  · intro id taken
    simp only [Execution.takes, Bool.and_eq_true, Bool.not_eq_true', decide_eq_true_eq] at taken ⊢
    exact .inl ⟨hands.alive taken.1, hands.connection ▸ taken.2⟩
  · intro cursor released
    obtain ⟨⟨other, there, same, resets⟩, alive⟩ := hands.released cursor released
    refine ⟨?_, same ▸ resets ▸ unreset alive other there⟩
    simp [Execution.takes, alive, same, within.own other there]

section

variable (exclusive : Exclusive setting world)
include exclusive

theorem Exclusive.turn (found : world.executions[i]? = some execution)
    (orderly : orderly setting world (.proceed i answer) = true) :
    Execution.Turn setting world execution (execution.react setting world answer).1
      (execution.react setting world answer).2 := by
  have settled := exclusive.settled i execution found
  cases execution with
  | tick running => exact Tick.turn_taken found settled orderly (Tick.react_did _ _ _)
  | sweep running => exact Sweep.turn_taken settled (Sweep.react_did _ _)

theorem Exclusive.taken (found : world.executions[i]? = some execution) (taken : execution.takes setting id = true)
    (free : (world.cursors id).claimable = true) : execution.sweeps (setting.connectionOf id) = true := by
  have settled := exclusive.settled i execution found
  cases execution with
  | tick running =>
    obtain ⟨cursor, held, same⟩ := List.mem_map.mp (Tick.takes_holds.mp taken)
    rw [← same, Cursor.not_claimable_syncing (settled.2.1 cursor held)] at free
    cases free
  | sweep running => exact taken

theorem Exclusive.proceed (i : ℕ) (answer : Answer) (orderly : orderly setting world (.proceed i answer) = true) :
    Exclusive setting (world.proceed setting i answer) := by
  unfold World.proceed
  split
  · exact exclusive
  · rename_i execution found
    split
    · have turn := exclusive.turn found orderly
      generalize moved : execution.react setting world answer = after_ at turn
      obtain ⟨next, change⟩ := after_
      dsimp only at turn ⊢
      -- nobody else has taken what the next state takes
      have others : ∀ (id : CursorId) (j : ℕ) (other : Execution), j ≠ i →
          world.executions[j]? = some other → next.takes setting id = true →
            other.takes setting id = false := by
        intro id j other differ there taken
        by_contra also
        rw [Bool.not_eq_false] at also
        rcases turn.takes id taken with before | ⟨free, unswept⟩
        · exact differ (exclusive.alone id j i other execution there found also before)
        · have sweeps := exclusive.taken there also free
          rw [unswept other (List.mem_of_getElem? there)] at sweeps
          cases sweeps
      constructor
      · intro id j k first second at_first at_second takes_first takes_second
        rcases set_cases at_first with ⟨rfl, rfl⟩ | ⟨differ, was_first⟩
        · rcases set_cases at_second with ⟨rfl, rfl⟩ | ⟨differ, was_second⟩
          · rfl
          · rw [others id k second differ was_second takes_first] at takes_second
            cases takes_second
        · rcases set_cases at_second with ⟨rfl, rfl⟩ | ⟨_, was_second⟩
          · rw [others id j first differ was_first takes_second] at takes_first
            cases takes_first
          · exact exclusive.alone id j k first second was_first was_second takes_first takes_second
      · intro j other there
        rcases set_cases there with ⟨rfl, rfl⟩ | ⟨differ, there⟩
        · exact turn.settled
        · refine (exclusive.settled j other there).apply ?_
          intro cursor released
          by_contra also
          rw [Bool.not_eq_false] at also
          exact differ (exclusive.alone cursor.id j i other execution there found also
            (turn.released cursor released).1)
    · exact exclusive

theorem Exclusive.begins (settled : execution.Settled setting world.cursors)
    (apart : ∀ id other, execution.takes setting id = true → other ∈ world.executions →
      other.takes setting id = false) :
    Exclusive setting { world with executions := world.executions ++ [execution] } := by
  constructor
  · intro id j k first second at_first at_second takes_first takes_second
    rcases append_cases at_first with ⟨rfl, rfl⟩ | was_first
    · rcases append_cases at_second with ⟨rfl, rfl⟩ | was_second
      · rfl
      · rw [apart id second takes_first (List.mem_of_getElem? was_second)] at takes_second
        cases takes_second
    · rcases append_cases at_second with ⟨rfl, rfl⟩ | was_second
      · rw [apart id first takes_second (List.mem_of_getElem? was_first)] at takes_first
        cases takes_first
      · exact exclusive.alone id j k first second was_first was_second takes_first takes_second
  · intro j other there
    rcases append_cases there with ⟨rfl, rfl⟩ | was
    · exact settled
    · exact exclusive.settled j other was

theorem Exclusive.ticks (now : ℤ) (ids : List CursorId) :
    Exclusive setting (world.step setting (.tick now ids)) := by
  simp only [World.step]
  split
  · refine exclusive.begins ?_ ?_
    · refine ⟨?_, fun cursor held => (List.not_mem_nil held).elim, List.nodup_nil, rfl⟩
      intro _ cursor there
      simp only [Tick.holds, TickStage.isDone, TickStage.current, Bool.false_eq_true, if_false,
        Option.toList_none, List.append_nil, List.mem_map] at there
      obtain ⟨id, _, rfl⟩ := there
      rfl
    · intro id other taken
      rw [Tick.takes_holds] at taken
      cases taken
  · exact exclusive

end

theorem Execution.takes_on (taken : execution.takes setting id = true) :
    execution.isOn setting (setting.connectionOf id) = true := by
  cases execution with
  | tick running =>
    simp only [Execution.takes, Execution.isOn, List.any_eq_true, decide_eq_true_eq] at taken ⊢
    obtain ⟨cursor, held, rfl⟩ := taken
    exact ⟨cursor, held, rfl⟩
  | sweep running => exact taken

theorem Exclusive.sweeps (exclusive : Exclusive setting world) (now : ℤ) (connection : ConnectionId)
    (ids : List CursorId) (orderly : orderly setting world (.sweep now connection ids) = true) :
    Exclusive setting (world.step setting (.sweep now connection ids)) := by
  simp only [World.step]
  split
  · rename_i allowed
    simp only [Bool.and_eq_true, List.all_eq_true, decide_eq_true_eq] at allowed
    refine exclusive.begins ⟨?_, ⟨?_, fun cursor there => there, fun cursor reads => by cases reads⟩⟩ ?_
    · intro _ cursor there
      obtain ⟨id, _, rfl⟩ := List.mem_map.mp there
      rfl
    · intro cursor there
      obtain ⟨id, member, rfl⟩ := List.mem_map.mp there
      exact allowed.1.2 id member
    · intro id other taken there
      by_contra also
      rw [Bool.not_eq_false] at also
      simp only [ErpSync.orderly, List.all_eq_true, Bool.not_eq_true'] at orderly
      have free := orderly other there
      simp only [Execution.takes, Bool.and_eq_true, decide_eq_true_eq] at taken
      rw [taken.2, Execution.takes_on also] at free
      cases free
  · exact exclusive

theorem Execution.Settled.disconnect {cursors : CursorId → Cursor} {connection : ConnectionId}
    (settled : execution.Settled setting cursors)
    (apart : execution.minds setting connection = false) :
    execution.Settled setting fun id =>
      if setting.connectionOf id = connection then (cursors id).reset else cursors id := by
  cases execution with
  | tick running =>
    have elsewhere : running.stage.isDone = false →
        ∀ cursor ∈ running.todo ++ running.holds, setting.connectionOf cursor.id ≠ connection := by
      intro alive cursor there same
      simp only [Execution.minds, alive, Bool.not_false, Bool.true_and, List.any_eq_false,
        decide_eq_true_eq] at apart
      exact apart cursor there same
    refine ⟨?_, ?_, settled.2.2⟩
    · intro alive cursor there
      dsimp only
      rw [if_neg (elsewhere alive cursor there)]
      exact settled.1 alive cursor there
    · intro cursor held
      dsimp only
      rw [if_neg (elsewhere (Tick.holds_alive held) cursor (List.mem_append_right _ held))]
      exact settled.2.1 cursor held
  | sweep running =>
    refine ⟨?_, settled.2⟩
    intro alive cursor there
    have elsewhere : setting.connectionOf cursor.id ≠ connection := by
      intro same
      simp only [Execution.minds, alive, Bool.not_false, Bool.true_and, decide_eq_false_iff_not] at apart
      exact apart (settled.2.own cursor there ▸ same)
    dsimp only
    rw [if_neg elsewhere]
    exact settled.1 alive cursor there

theorem Execution.Settled.crash {cursors : CursorId → Cursor}
    (settled : execution.Settled setting cursors) : execution.crashed.Settled setting cursors := by
  cases execution with
  | tick running =>
    exact ⟨fun alive => (by cases alive), fun cursor held => (by cases held), List.nodup_nil, rfl⟩
  | sweep running =>
    exact ⟨fun alive => (by cases alive), settled.2.own, settled.2.todo, fun cursor reads => by cases reads⟩

theorem Execution.crashed_takes : execution.crashed.takes setting id = false := by
  cases execution <;> rfl

theorem Exclusive.crash (exclusive : Exclusive setting world) (i : ℕ) :
    Exclusive setting (world.step setting (.crash i)) := by
  simp only [World.step]
  split
  · exact exclusive
  · rename_i execution found
    constructor
    · intro id j k first second at_first at_second takes_first takes_second
      rcases set_cases at_first with ⟨rfl, rfl⟩ | ⟨_, was_first⟩
      · rw [Execution.crashed_takes] at takes_first
        cases takes_first
      · rcases set_cases at_second with ⟨rfl, rfl⟩ | ⟨_, was_second⟩
        · rw [Execution.crashed_takes] at takes_second
          cases takes_second
        · exact exclusive.alone id j k first second was_first was_second takes_first takes_second
    · intro j other there
      rcases set_cases there with ⟨rfl, rfl⟩ | ⟨_, was⟩
      · exact (exclusive.settled j execution found).crash
      · exact exclusive.settled j other was

theorem Exclusive.step (exclusive : Exclusive setting world) (event : Event)
    (orderly : orderly setting world event = true) : Exclusive setting (world.step setting event) := by
  cases event with
  | tick now ids => exact exclusive.ticks now ids
  | sweep now connection ids => exact exclusive.sweeps now connection ids orderly
  | proceed i answer => exact exclusive.proceed i answer orderly
  | crash i => exact exclusive.crash i
  | disconnect connection =>
    refine ⟨exclusive.alone, ?_⟩
    intro i execution found
    simp only [ErpSync.orderly, List.all_eq_true, Bool.not_eq_true'] at orderly
    exact (exclusive.settled i execution found).disconnect (orderly execution (List.mem_of_getElem? found))
  | appears id row =>
    simp only [World.step]
    split
    · exact ⟨exclusive.alone, exclusive.settled⟩
    · exact exclusive

def World.writes (setting : Setting) (world : World) (i : ℕ) (answer : Answer) : Change :=
  match world.executions[i]? with
  | none => .nothing
  | some execution =>
    if execution.fits setting world answer then (execution.react setting world answer).2 else .nothing

/-- In every run of ticks, sweeps, disconnects and crashes that keep out of each other's way, one
execution at a time is at a cursor, and what is released is a cursor that no other execution has and
that was not reset since it was read. -/
theorem cursor_has_one_holder (setting : Setting) (events : List Event)
    (along : Stepping.Along (World.step setting)
      (fun world event => orderly setting world event = true) World.start events) :
    let world := World.start.runs setting events
    (∀ (id : CursorId) (i j : ℕ) (first second : Execution), world.executions[i]? = some first →
      world.executions[j]? = some second → first.reads id = true → second.reads id = true → i = j) ∧
    ∀ (i : ℕ) (answer : Answer) (cursor : ClaimedErpCursor),
      orderly setting world (.proceed i answer) = true →
        (world.writes setting i answer).released = some cursor →
          cursor.resets = (world.cursors cursor.id).resets ∧
          ∀ (j : ℕ) (other : Execution), j ≠ i → world.executions[j]? = some other →
            other.takes setting cursor.id = false ∧ other.reads cursor.id = false := by
  intro world
  have exclusive : Exclusive setting world :=
    along.keeps (fun _ event exclusive orderly => exclusive.step event orderly) .start
  constructor
  · intro id i j first second at_first at_second reads_first reads_second
    exact exclusive.alone id i j first second at_first at_second
      ((exclusive.settled i first at_first).reads reads_first)
      ((exclusive.settled j second at_second).reads reads_second)
  · intro i answer cursor orderly released
    unfold World.writes at released
    split at released
    · cases released
    · rename_i execution found
      split at released
      · have turn := exclusive.turn found orderly
        obtain ⟨taken, unreset⟩ := turn.released cursor released
        refine ⟨unreset, ?_⟩
        intro j other differ there
        have free : other.takes setting cursor.id = false := by
          by_contra also
          rw [Bool.not_eq_false] at also
          exact differ (exclusive.alone cursor.id j i other execution there found also taken)
        refine ⟨free, ?_⟩
        by_contra reads
        rw [Bool.not_eq_false] at reads
        rw [(exclusive.settled j other there).reads reads] at free
        cases free
      · cases released

/-- Two ticks claim one of the two due cursors each, and both read. -/
def sharesCursors : List Event :=
  [.tick 0 [0, 1], .tick 0 [0, 1]] ++ ([0, 1, 1, 0, 0, 0, 1, 1].map fun i => .proceed i (.goes 0 0)) ++
    [.proceed 0 (.rows []), .proceed 0 (.goes 0 0)]

theorem shared_cursors_are_held_apart :
    let world := World.start.runs oneFeed sharesCursors
    world.executions.map (Execution.reads 0) = [true, false] ∧
      world.executions.map (Execution.reads 1) = [false, true] ∧
      world.writes oneFeed 0 (.goes 0 0) = .succeeds ⟨0, none, 0, 0⟩ none 0 none ∧
      ∀ (j : ℕ) (other : Execution), j ≠ 0 → world.executions[j]? = some other →
        other.takes oneFeed 0 = false ∧ other.reads 0 = false :=
  ⟨by decide, by decide, rfl, ((cursor_has_one_holder oneFeed sharesCursors
    (by decide)).2 0 (.goes 0 0) ⟨0, none, 0, 0⟩ rfl rfl).2⟩

def startsReading : List Event :=
  [.tick 0 [0], .proceed 0 (.goes 0 0), .proceed 0 (.goes 0 0), .proceed 0 (.goes 0 0)]

/-- A sweep begins to read the cursor too, and the tick makes it claimable under the sweep. A
disconnect resets it, and the tick stores the position it has read before. -/
theorem sweep_and_reset_amid_tick :
    let world := World.start.runs oneFeed (startsReading ++ [.sweep 0 0 [0], .proceed 1 (.goes 0 0)])
    let released := world.runs oneFeed
      [.proceed 0 (.rows []), .proceed 0 (.goes 0 0), .proceed 0 (.goes 0 0)]
    let reset := World.start.runs oneFeed (.appears 0 firstRow :: startsReading ++
      [.proceed 0 (.rows [firstRow]), .disconnect 0, .proceed 0 (.goes 0 0)])
    world.executions.map (Execution.reads 0) = [true, true] ∧
      released.executions.map (Execution.reads 0) = [false, true] ∧
      (released.cursors 0).claimable = true ∧
      (reset.cursors 0).watermark = none ∧ (reset.cursors 0).resets = 1 ∧
      ((reset.runs oneFeed [.proceed 0 (.goes 0 0)]).cursors 0).watermark = some "2026-01-01" := by
  decide

end Droplet.ErpSync
