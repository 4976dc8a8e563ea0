import Droplet.ErpSync.Runs

/-! What one step of a tick or a sweep can do. -/

namespace Droplet.ErpSync

open SyncPolicy

/-- The cursor that is claimed, at its turn and not released yet. -/
def TickStage.current : TickStage → Option ClaimedErpCursor
  | .loading cursor => some cursor
  | .connecting cursor => some cursor
  | .reading cursor => some cursor
  | .landing cursor _ => some cursor
  | .releasing cursor _ => some cursor
  | .failing cursor _ _ => some cursor
  | _ => none

def TickStage.isDone : TickStage → Bool
  | .done => true
  | _ => false

/-- A position with the rows that are still to be landed for it. -/
structure Promise where
  id : CursorId
  rows : List Row
  watermark : Option String

def ClaimedErpCursor.promise (cursor : ClaimedErpCursor) : Promise := ⟨cursor.id, [], cursor.watermark⟩

def TickStage.promise (setting : Setting) : TickStage → Option Promise
  | .loading cursor => some cursor.promise
  | .connecting cursor => some cursor.promise
  | .reading cursor => some cursor.promise
  | .landing cursor rows => some ⟨cursor.id, rows, Tick.next setting cursor rows⟩
  | .releasing cursor next => some ⟨cursor.id, [], next⟩
  | _ => none

namespace Tick

inductive Did (setting : Setting) (cursors : CursorId → Cursor) (tick : Tick) (answer : Answer) :
    Tick → Change → Prop
  | rests : Did setting cursors tick answer tick .nothing
  | ends : Did setting cursors tick answer (tick.goes .done) .nothing
  | turns (free : tick.stage.current = none) (alive : tick.stage.isDone = false) :
      Did setting cursors tick answer tick.turn .nothing
  | skips (cursor : ClaimedErpCursor) (rest : List ClaimedErpCursor) (todo : tick.todo = cursor :: rest)
      (stage : tick.stage = .claiming) :
      Did setting cursors tick answer (ready { tick with todo := rest }) .nothing
  | claims (cursor : ClaimedErpCursor) (rest : List ClaimedErpCursor) (todo : tick.todo = cursor :: rest)
      (stage : tick.stage = .claiming) (free : (cursors cursor.id).claimable = true) :
      Did setting cursors tick answer
        (ready { tick with todo := rest, claimed := tick.claimed ++ [cursor] }) (.claims cursor.id)
  | strands (cursor : ClaimedErpCursor) (rest : List ClaimedErpCursor)
      (todo : tick.todo = cursor :: rest) (stage : tick.stage = .claiming)
      (free : (cursors cursor.id).claimable = true) :
      Did setting cursors tick answer (tick.goes .done) (.claims cursor.id)
  | moves (cursor : ClaimedErpCursor) (stage : TickStage) (current : tick.stage.current = some cursor)
      (simple : stage = .connecting cursor ∨ stage = .reading cursor ∨
        ∃ err read, stage = .failing cursor err read)
      (promises : stage.promise setting = none ∨
        stage.promise setting = tick.stage.promise setting) :
      Did setting cursors tick answer (tick.goes stage) .nothing
  | reads (cursor : ClaimedErpCursor) (page : List Row) (stage : tick.stage = .reading cursor)
      (given : answer = .rows page) (lands : setting.landsOnBox cursor.id = true) :
      Did setting cursors tick answer (tick.goes (.landing cursor page)) .nothing
  | readsOnly (cursor : ClaimedErpCursor) (page : List Row) (stage : tick.stage = .reading cursor)
      (lands : setting.landsOnBox cursor.id = false) :
      Did setting cursors tick answer (tick.goes (.releasing cursor (next setting cursor page))) .nothing
  | lands (cursor : ClaimedErpCursor) (rows : List Row) (stage : tick.stage = .landing cursor rows) :
      Did setting cursors tick answer (tick.goes (.releasing cursor (next setting cursor rows)))
        (.lands cursor.id rows)
  | succeeds (cursor : ClaimedErpCursor) (next : Option String) (now : ℤ)
      (stage : tick.stage = .releasing cursor next) :
      Did setting cursors tick answer (tick.goes (.settled cursor)) (.succeeds cursor next now none)
  | succeedsLate (cursor : ClaimedErpCursor) (next : Option String) (now waitMs : ℤ)
      (err : SyncFailureLike) (stage : tick.stage = .releasing cursor next)
      (given : answer = .fails err (some (now, waitMs))) :
      Did setting cursors tick answer (tick.goes (.failingLate cursor err))
        (.succeeds cursor next now none)
  | late (cursor : ClaimedErpCursor) (err : SyncFailureLike) (applied : Option (ℤ × ℤ))
      (stage : tick.stage = .settled cursor) (given : answer = .fails err applied) :
      Did setting cursors tick answer (tick.goes (.failingLate cursor err)) .nothing
  | fails (cursor : ClaimedErpCursor) (err : SyncFailureLike) (read : Bool) (now waitMs : ℤ)
      (stage : tick.stage = .failing cursor err read) (then_ : TickStage)
      (over_ : then_ = .noting ∨ then_ = .done) :
      Did setting cursors tick answer (tick.goes then_) (.fails cursor err now waitMs)
  | failsLate (cursor : ClaimedErpCursor) (err : SyncFailureLike) (now waitMs : ℤ)
      (stage : tick.stage = .failingLate cursor err) (then_ : TickStage)
      (over_ : then_ = .noting ∨ then_ = .done) :
      Did setting cursors tick answer (tick.goes then_) (.fails cursor err now waitMs)

variable {setting : Setting}

theorem react_did (cursors : CursorId → Cursor) (tick : Tick) (answer : Answer) :
    Did setting cursors tick answer (tick.react setting cursors answer).1
      (tick.react setting cursors answer).2 := by
  unfold react
  split
  · rename_i stage
    split
    · exact .turns (by rw [stage]; rfl) (by rw [stage]; rfl)
    · rename_i cursor rest todo
      split
      · rename_i free
        exact .claims cursor rest todo stage free
      · exact .skips cursor rest todo stage
  · rename_i stage
    split
    · rename_i cursor rest stamps todo
      split
      · rename_i free
        exact .strands cursor _ todo stage free
      · exact .ends
    · exact .ends
  · rename_i cursor now waitMs stage
    split
    · exact .moves cursor _ (by rw [stage]; rfl) (.inl rfl) (.inr (by rw [stage]; rfl))
    · exact .moves cursor _ (by rw [stage]; rfl) (.inr (.inr ⟨_, _, rfl⟩)) (.inl rfl)
  · rename_i cursor stage
    exact .moves cursor _ (by rw [stage]; rfl) (.inr (.inr ⟨_, _, rfl⟩)) (.inl rfl)
  · exact .ends
  · rename_i cursor now waitMs stage
    exact .moves cursor _ (by rw [stage]; rfl) (.inr (.inl rfl)) (.inr (by rw [stage]; rfl))
  · rename_i cursor err applied stage
    exact .moves cursor _ (by rw [stage]; rfl) (.inr (.inr ⟨_, _, rfl⟩)) (.inl rfl)
  · rename_i cursor page stage
    split
    · rename_i lands
      exact .reads cursor page stage rfl lands
    · rename_i lands
      exact .readsOnly cursor page stage (by simpa using lands)
  · rename_i cursor err applied stage
    exact .moves cursor _ (by rw [stage]; rfl) (.inr (.inr ⟨_, _, rfl⟩)) (.inl rfl)
  · rename_i cursor rows now waitMs stage
    exact .lands cursor rows stage
  · rename_i cursor rows err applied stage
    exact .moves cursor _ (by rw [stage]; rfl) (.inr (.inr ⟨_, _, rfl⟩)) (.inl rfl)
  · rename_i cursor next now waitMs stage
    exact .succeeds cursor next now stage
  · rename_i cursor next err applied stage
    split
    · exact .succeedsLate cursor next _ _ err stage rfl
    · exact .moves cursor _ (by rw [stage]; rfl) (.inr (.inr ⟨_, _, rfl⟩)) (.inl rfl)
  · rename_i cursor now waitMs stage
    exact .turns (by rw [stage]; rfl) (by rw [stage]; rfl)
  · rename_i cursor err applied stage
    exact .late cursor err applied stage rfl
  · rename_i cursor err read now waitMs stage
    exact .fails cursor err read now waitMs stage _ (.inl rfl)
  · rename_i cursor err read err' applied stage
    split
    · exact .fails cursor err read _ _ stage _ (.inr rfl)
    · exact .ends
  · rename_i cursor err now waitMs stage
    exact .failsLate cursor err now waitMs stage _ (.inl rfl)
  · rename_i cursor err err' applied stage
    split
    · exact .failsLate cursor err _ _ stage _ (.inr rfl)
    · exact .ends
  · rename_i now waitMs stage
    exact .turns (by rw [stage]; rfl) (by rw [stage]; rfl)
  · exact .ends
  · exact .rests

end Tick

def SweepStage.promise (setting : Setting) : SweepStage → Option Promise
  | .incremental cursor => some cursor.promise
  | .full cursor => some cursor.promise
  | .landing cursor rows => some ⟨cursor.id, rows, Tick.next setting cursor rows⟩
  | .recording cursor rows => some ⟨cursor.id, [], Tick.next setting cursor rows⟩
  | .releasing cursor rows => some ⟨cursor.id, [], Tick.next setting cursor rows⟩
  | _ => none

/-- The cursor whose entity is read and that is not released yet. -/
def SweepStage.reads : SweepStage → Option ClaimedErpCursor
  | .incremental cursor => some cursor
  | .full cursor => some cursor
  | .landing cursor _ => some cursor
  | .recording cursor _ => some cursor
  | .releasing cursor _ => some cursor
  | .failing reads _ => reads
  | _ => none

def SweepStage.isDone : SweepStage → Bool
  | .done => true
  | _ => false

namespace Sweep

inductive Did (setting : Setting) (sweep : Sweep) (answer : Answer) : Sweep → Change → Prop
  | rests : Did setting sweep answer sweep .nothing
  | turns (alive : sweep.stage.isDone = false) :
      Did setting sweep answer (sweep.turn setting) .nothing
  | moves (stage : SweepStage) (alive : sweep.stage.isDone = false)
      (simple : (∃ cursor, sweep.stage = .incremental cursor ∧ stage = .full cursor) ∨
        (∃ cursor rows, sweep.stage = .recording cursor rows ∧ stage = .releasing cursor rows) ∨
        (∃ reads err, stage = .failing reads err ∧
          ∀ cursor, reads = some cursor → sweep.stage.reads = some cursor) ∨ stage = .noting ∨ stage = .done)
      (promises : stage.promise setting = none ∨
        stage.promise setting = sweep.stage.promise setting) :
      Did setting sweep answer (sweep.goes stage) .nothing
  | reads (cursor : ClaimedErpCursor) (page : List Row) (stage : sweep.stage = .full cursor)
      (given : answer = .rows page) (lands : setting.landsOnBox cursor.id = true) :
      Did setting sweep answer (sweep.goes (.landing cursor page)) .nothing
  | readsOnly (cursor : ClaimedErpCursor) (page : List Row) (stage : sweep.stage = .full cursor)
      (lands : setting.landsOnBox cursor.id = false) :
      Did setting sweep answer
        { sweep with drifted := sweep.drifted + 1, stage := .recording cursor page } .nothing
  | lands (cursor : ClaimedErpCursor) (rows : List Row) (stage : sweep.stage = .landing cursor rows) :
      Did setting sweep answer
        { sweep with drifted := sweep.drifted + 1, stage := .recording cursor rows }
        (.lands cursor.id rows)
  | succeeds (cursor : ClaimedErpCursor) (rows : List Row) (stage : sweep.stage = .releasing cursor rows)
      (after_ : Sweep)
      (then_ : after_ = sweep.turn setting ∨ ∃ err, after_ = sweep.goes (.failing none err)) :
      Did setting sweep answer after_
        (.succeeds cursor (Tick.next setting cursor rows) sweep.at_ (some sweep.at_))
  | fails (reads : Option ClaimedErpCursor) (cursor : ClaimedErpCursor) (err : SyncFailureLike)
      (waitMs : ℤ) (stage : sweep.stage = .failing reads err) (charged : sweep.charged = some cursor)
      (then_ : SweepStage) (over_ : then_ = .noting ∨ then_ = .done) :
      Did setting sweep answer (sweep.goes then_) (.fails cursor err sweep.at_ waitMs)

variable {setting : Setting}

theorem react_did (sweep : Sweep) (answer : Answer) :
    Did setting sweep answer (sweep.react setting answer).1 (sweep.react setting answer).2 := by
  unfold react
  split
  · rename_i stage
    exact .moves _ (by rw [stage]; rfl) (.inr (.inr (.inr (.inr rfl)))) (.inl rfl)
  · rename_i stage
    exact .turns (by rw [stage]; rfl)
  · rename_i err applied stage
    exact .moves _ (by rw [stage]; rfl) (.inr (.inr (.inl ⟨_, _, rfl, fun _ same => by rw [stage]; exact same⟩))) (.inl rfl)
  · rename_i cursor page stage
    exact .moves _ (by rw [stage]; rfl) (.inl ⟨cursor, stage, rfl⟩) (.inr (by rw [stage]; rfl))
  · rename_i cursor err applied stage
    exact .moves _ (by rw [stage]; rfl) (.inr (.inr (.inl ⟨_, _, rfl, fun _ same => by rw [stage]; exact same⟩))) (.inl rfl)
  · rename_i cursor page stage
    split
    · rename_i lands
      exact .reads cursor page stage rfl lands
    · rename_i lands
      exact .readsOnly cursor page stage (by simpa using lands)
  · rename_i cursor err applied stage
    exact .moves _ (by rw [stage]; rfl) (.inr (.inr (.inl ⟨_, _, rfl, fun _ same => by rw [stage]; exact same⟩))) (.inl rfl)
  · rename_i cursor rows now waitMs stage
    exact .lands cursor rows stage
  · rename_i cursor rows err applied stage
    exact .moves _ (by rw [stage]; rfl) (.inr (.inr (.inl ⟨_, _, rfl, fun _ same => by rw [stage]; exact same⟩))) (.inl rfl)
  · rename_i cursor rows now waitMs stage
    exact .moves _ (by rw [stage]; rfl) (.inr (.inl ⟨cursor, rows, stage, rfl⟩)) (.inr (by rw [stage]; rfl))
  · rename_i cursor rows err applied stage
    exact .moves _ (by rw [stage]; rfl) (.inr (.inr (.inl ⟨_, _, rfl, fun _ same => by rw [stage]; exact same⟩))) (.inl rfl)
  · rename_i cursor rows now waitMs stage
    exact .succeeds cursor rows stage _ (.inl rfl)
  · rename_i cursor rows err applied stage
    split
    · exact .succeeds cursor rows stage _ (.inr ⟨err, rfl⟩)
    · exact .moves _ (by rw [stage]; rfl) (.inr (.inr (.inl ⟨_, _, rfl, fun _ same => by rw [stage]; exact same⟩))) (.inl rfl)
  · rename_i reads err now waitMs stage
    split
    · rename_i cursor charged
      exact .fails reads cursor err waitMs stage charged _ (.inl rfl)
    · exact .moves _ (by rw [stage]; rfl) (.inr (.inr (.inr (.inl rfl)))) (.inl rfl)
  · rename_i reads err err' applied stage
    split
    · rename_i cursor stamp waitMs charged
      exact .fails reads cursor err waitMs stage charged _ (.inr rfl)
    · exact .moves _ (by rw [stage]; rfl) (.inr (.inr (.inr (.inr rfl)))) (.inl rfl)
  · rename_i now waitMs stage
    exact .moves _ (by rw [stage]; rfl) (.inr (.inr (.inr (.inr rfl)))) (.inl rfl)
  · rename_i err applied stage
    exact .moves _ (by rw [stage]; rfl) (.inr (.inr (.inr (.inr rfl)))) (.inl rfl)
  · exact .rests

end Sweep

end Droplet.ErpSync
