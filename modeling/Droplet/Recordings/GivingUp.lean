import Droplet.Lib.Stepping
import Droplet.Recordings.Ticks

/-! When a failing move is tried again, when the owner is told, and what is deleted, over any run. -/

namespace Droplet.Recordings

open Effects

/-- Someone is yet to be told that a move gave up. -/
def OwesNotice (store : Store) : Prop :=
  ∃ row, (episode row store.trace).failures = MAX_AUTO_RETRIES + 1 ∧
    (episode row store.trace).told = 0

variable (arithmetic : Arithmetic)

/-- A tick takes up no row that has not waited, and no restart comes between a fourth failure and its
notice. -/
def Kept (world : World) : Event Operation Answer → Prop
  | .begin_ _ => True
  | .answer answer =>
    match world.program with
    | some (.call command _) => Allowed arithmetic world.state command answer
    | _ => True
  | .restart => ¬ OwesNotice world.state

def World.run (clock : ℤ) (events : List (Event Operation Answer)) : World :=
  Stepping.run (World.step arithmetic) ⟨emptyStore clock, none⟩ events

theorem emptyStore_calm (clock : ℤ) : Calm (emptyStore clock) := by
  refine ⟨⟨allRight_nil, by simp [emptyStore], by simp [emptyStore], fun _ _ => rfl,
    by simp [emptyStore], ?_⟩, ?_⟩
  · intro id
    simp [emptyStore, episode, Episode.Bounded, Episode.fresh]
  · intro id many
    cases many

variable {arithmetic} {clock : ℤ} {events : List (Event Operation Answer)}

theorem Kept.allows {world : World} {event : Event Operation Answer} (kept : Kept arithmetic world event) :
    Machine.Allows (Allowed arithmetic) Tracked Calm world event := by
  obtain ⟨state, program⟩ := world
  cases event with
  | begin_ operation => trivial
  | answer answer =>
    cases program with
    | none => trivial
    | some program => cases program <;> exact kept
  | restart =>
    intro tracked
    refine ⟨tracked, ?_⟩
    intro row many
    have bounded := tracked.bounded row
    by_contra not_one
    refine kept ⟨row, many, ?_⟩
    have at_most := bounded.2.1
    omega

theorem world_sound
    (kept : Stepping.Along (World.step arithmetic) (Kept arithmetic) ⟨emptyStore clock, none⟩ events) :
    Machine.Sound (exec arithmetic) (Allowed arithmetic) Tracked Calm
      (World.run arithmetic clock events) := by
  refine Stepping.Along.keeps ?_ kept (emptyStore_calm clock)
  intro world event sound granted
  exact sound.step start_ends granted.allows

theorem sound_tracked {world : World}
    (sound : Machine.Sound (exec arithmetic) (Allowed arithmetic) Tracked Calm world) : Tracked world.state := by
  obtain ⟨state, program⟩ := world
  cases program with
  | none => exact sound.1
  | some program =>
    cases program with
    | done | call => exact sound.1

/-- A failing move backs off and stops, as long as a tick takes up no row that has not waited and no
restart comes between a fourth failure and its notice. -/
theorem failing_move_backs_off (arithmetic : Arithmetic) (clock : ℤ)
    (events : List (Event Operation Answer))
    (kept : Stepping.Along (World.step arithmetic) (Kept arithmetic) ⟨emptyStore clock, none⟩ events) :
    let world := World.run arithmetic clock events
    (∀ earlier row instant later,
      world.state.trace = earlier ++ .started row false instant :: later →
        (episode row earlier).failures ≤ MAX_AUTO_RETRIES ∧
        ∀ last delay, (episode row earlier).lastAt = some last →
          RETRY_DELAYS_MS[(episode row earlier).failures - 1]? = some delay →
            last + delay ≤ instant) ∧
    (∀ row, (episode row world.state.trace).told ≤ 1 ∧
      (0 < (episode row world.state.trace).told →
        (episode row world.state.trace).failures = MAX_AUTO_RETRIES + 1)) ∧
    (world.program = none → ∀ row,
      (episode row world.state.trace).failures = MAX_AUTO_RETRIES + 1 →
        (episode row world.state.trace).told = 1) ∧
    ∀ earlier row later, world.state.trace = earlier ++ .deleted row :: later →
      lastLive earlier = some row → MovedAway earlier row := by
  intro world
  have sound : Machine.Sound (exec arithmetic) (Allowed arithmetic) Tracked Calm world :=
    world_sound kept
  have tracked := sound_tracked sound
  refine ⟨?_, ?_, ?_, ?_⟩
  · intro earlier row instant later split
    exact tracked.right earlier _ later split
  · intro row
    exact (tracked.bounded row).2
  · intro idle row
    rw [Machine.Sound, idle] at sound
    exact sound.2 row
  · intro earlier row later split
    exact tracked.right earlier _ later split

/-- Texts in ASCII; the need fits. -/
def plainArithmetic : Arithmetic where
  toLowerCase := id
  textBefore := fun a b => decide (a < b)
  idBefore := fun a b => decide (a < b)
  fits := fun _ _ => true
  growTarget := id
  shrinkFloor := id

def bay : RecordingsDriveCandidate where
  fsUuid := "A"
  sizeBytes := 40 * 1073741824
  freeBytes := 30 * 1073741824
  mounted := true
  readOnly := false
  fsType := some "ext4"
  encryption := .luks2
  preparation := .prepared
  isSystemDisk := false
  smart := some .PASSED

def onSystemDisk (drives : List RecordingsDriveCandidate) (status : NvrMigrationStatus) :
    Observation where
  host := some ⟨.volume, none, true, none, none, none, none⟩
  hostError := none
  migration := some status
  drives := drives
  drivesError := none
  sizing := ⟨none, 20 * 1073741824⟩

def idleJob : NvrMigrationStatus := ⟨.idle, none, none, none⟩

def failedJob : NvrMigrationStatus := ⟨.failed, some .migrate, some "copy_failed", none⟩

/-- A tick creates the row of the bay drive and starts the move. -/
def firstMove : List (Event Operation Answer) :=
  [.begin_ .reconcile, .answer ⟨0, .observed (onSystemDisk [bay] idleJob)⟩, .answer ⟨1, .fine⟩,
    .answer ⟨2, .fine⟩, .answer ⟨3, .fine⟩, .answer ⟨4, .fine⟩, .answer ⟨5, .fine⟩,
    .answer ⟨6, .fine⟩]

/-- The move fails at 62. -/
def failedMove : List (Event Operation Answer) :=
  firstMove ++
  [.begin_ .pollMigration, .answer ⟨60, .fine⟩, .answer ⟨61, .status failedJob⟩,
    .answer ⟨62, .fine⟩, .answer ⟨63, .fine⟩, .answer ⟨64, .fine⟩]

/-- A tick finds no drive, the next one finds it again. -/
def driveReturns : List (Event Operation Answer) :=
  failedMove ++
  [.begin_ .reconcile, .answer ⟨100, .observed (onSystemDisk [] failedJob)⟩, .answer ⟨101, .fine⟩,
    .begin_ .reconcile, .answer ⟨200, .observed (onSystemDisk [bay] failedJob)⟩,
    .answer ⟨201, .fine⟩, .answer ⟨202, .fine⟩, .answer ⟨203, .fine⟩, .answer ⟨204, .fine⟩]

/-- The second start comes 141 ms after the first failure, not an hour. -/
theorem returned_drive_does_not_wait :
    let trace := (World.run plainArithmetic 0 driveReturns).state.trace
    ∃ earlier, trace = earlier ++ [.started 0 false 203] ∧ (episode 0 earlier).failures = 1 ∧
      (episode 0 earlier).lastAt = some 62 ∧ RETRY_DELAYS_MS[0]? = some 3600000 := by
  refine ⟨(World.run plainArithmetic 0 driveReturns).state.trace.dropLast, ?_, ?_, ?_, rfl⟩
  · decide +kernel
  · decide +kernel
  · decide +kernel

theorem Kept.unobserved (world : World) (instant : ℤ) {outcome : Outcome}
    (plain : ∀ observation, outcome ≠ .observed observation) :
    Kept arithmetic world (.answer ⟨instant, outcome⟩) := by
  unfold Kept
  dsimp only
  split
  · rename_i command _ _
    cases outcome with
    | observed observation => exact absurd rfl (plain observation)
    | _ => cases command <;> trivial
  · trivial

theorem Kept.observed {world : World} {instant : ℤ} {observation : Observation}
    (elsewhere : ∀ w ∈ workRow arithmetic ((world.state.at_ instant).factsOf arithmetic observation),
      w.status ≠ .MISSING ∧ w.status ≠ .ACTIVE) :
    Kept arithmetic world (.answer ⟨instant, .observed observation⟩) := by
  unfold Kept
  dsimp only
  split
  · rename_i command _ _
    cases command with
    | collectFacts =>
      intro _ _ _ w work _ status
      rcases status with missing | active
      · exact absurd missing (elsewhere w work).1
      · exact absurd active (elsewhere w work).2
    | _ => trivial
  · trivial

/-- A tick finds the row DEGRADED and lets it wait, and one after an hour starts the move again. -/
def retriedMove : List (Event Operation Answer) :=
  failedMove ++
  [.begin_ .reconcile, .answer ⟨100, .observed (onSystemDisk [bay] failedJob)⟩,
    .begin_ .reconcile, .answer ⟨3600100, .observed (onSystemDisk [bay] failedJob)⟩,
    .answer ⟨3600101, .fine⟩, .answer ⟨3600102, .fine⟩, .answer ⟨3600103, .fine⟩, .answer ⟨3600104, .fine⟩]

theorem retried_move_has_waited :
    let trace := (World.run plainArithmetic 0 retriedMove).state.trace
    ∃ earlier, trace = earlier ++ [.started 0 false 3600103] ∧ (episode 0 earlier).failures = 1 ∧
      (episode 0 earlier).lastAt = some 62 ∧
      ∀ last delay, (episode 0 earlier).lastAt = some last →
        RETRY_DELAYS_MS[(episode 0 earlier).failures - 1]? = some delay → last + delay ≤ 3600103 := by
  have split : (World.run plainArithmetic 0 retriedMove).state.trace =
      (World.run plainArithmetic 0 retriedMove).state.trace.dropLast ++ [.started 0 false 3600103] := by
    decide +kernel
  refine ⟨_, split, by decide +kernel, by decide +kernel, ?_⟩
  refine ((failing_move_backs_off plainArithmetic 0 retriedMove ?_).1 _ 0 _ _ split).2
  have fine (world : World) (instant : ℤ) : Kept plainArithmetic world (.answer ⟨instant, .fine⟩) :=
    .unobserved world instant (by simp)
  exact ⟨trivial, .observed (by decide +kernel), fine _ _, fine _ _, fine _ _, fine _ _, fine _ _, fine _ _,
    trivial, fine _ _, .unobserved _ _ (by simp), fine _ _, fine _ _, fine _ _,
    trivial, .observed (by decide +kernel), trivial, .observed (by decide +kernel),
    fine _ _, fine _ _, fine _ _, fine _ _, trivial⟩

end Droplet.Recordings
