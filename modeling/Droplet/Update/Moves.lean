import Droplet.Update.Agent

/-! What one write can do to one row, and what one step of a run, of a resume and of the box can be,
said once. -/

namespace Droplet.Update

inductive DbWrite.Did (table : Table) (now id : ℕ) : DbWrite → Row → Prop
  | same (write : DbWrite) : Did table now id write (table.row id)
  | claims (claimId : ClaimId) : (table.row id).status.applicable → (table.row id).claim = none →
      Did table now id (.claim id claimId)
        { table.row id with claim := some claimId, updatedAt := now }
  | releases (claimId : ClaimId) : (table.row id).claim = some claimId →
      Did table now id (.release id claimId) { table.row id with claim := none, updatedAt := now }
  | advances (target : Status) (reason : Option String) (outcome : Option Outcome) :
      Did table now id (.advance id (table.row id).status target reason outcome)
        ((table.row id).advance target reason outcome now)
  | records (outcome : Outcome) : (table.row id).status = .committed →
      Did table now id (.record id outcome) { table.row id with outcome, updatedAt := now }
  | supersedes (found : Release) :
      ((table.row id).status = .pending ∨
        ((table.row id).status = .verifying ∧ (table.row id).claim = none)) →
      Did table now id (.create found)
        { table.row id with status := .superseded, updatedAt := now }
  | creates (found : Release) : id = table.count →
      Did table now id (.create found)
        { release := found, status := .pending, failureReason := none, outcome := .notApplied,
          claim := none, updatedAt := now }

theorem Table.update_did {table : Table} {now id other : ℕ} {write : DbWrite} {change : Row → Row}
    (did : other = id → DbWrite.Did table now other write (change (table.row other))) :
    DbWrite.Did table now other write ((table.update id change).row other) := by
  simp only [Table.update]
  split
  · rename_i same
    have changed := did same
    rw [same] at changed ⊢
    exact changed
  · exact .same write

theorem DbWrite.create_did (table : Table) (now id : ℕ) (found : Release) :
    DbWrite.Did table now id (.create found) (((DbWrite.create found).apply table now).row id) := by
  simp only [DbWrite.apply, DbWrite.hits, if_true, Table.create, Table.supersedePendingUpdates,
    Table.supersedeUnclaimedVerifyingUpdates, Table.updateWhere, decide_eq_true_eq]
  split
  · rename_i last
    exact .creates found last
  · by_cases pending : (table.row id).status = .pending
    · rw [if_pos pending]
      exact .supersedes found (.inl pending)
    · rw [if_neg pending]
      split
      · rename_i unclaimed
        simp only [Bool.and_eq_true, decide_eq_true_eq, Option.isNone_iff_eq_none] at unclaimed
        exact .supersedes found (.inr unclaimed)
      · exact .same _

theorem DbWrite.apply_did (table : Table) (now id : ℕ) (write : DbWrite) :
    DbWrite.Did table now id write ((write.apply table now).row id) := by
  cases write with
  | create found => exact DbWrite.create_did table now id found
  | nothing => simpa [DbWrite.apply] using DbWrite.Did.same DbWrite.nothing
  | claim _ claimId =>
    simp only [DbWrite.apply, DbWrite.hits, Bool.and_eq_true, Option.isNone_iff_eq_none]
    split
    · rename_i hits
      apply Table.update_did
      intro same
      subst same
      exact .claims claimId hits.1 hits.2
    · exact .same _
  | release _ claimId =>
    simp only [DbWrite.apply, DbWrite.hits, decide_eq_true_eq]
    split
    · rename_i hits
      apply Table.update_did
      intro same
      subst same
      exact .releases claimId hits
    · exact .same _
  | advance _ seen target reason outcome =>
    simp only [DbWrite.apply, DbWrite.hits, decide_eq_true_eq]
    split
    · rename_i hits
      apply Table.update_did
      intro same
      subst same hits
      exact .advances target reason outcome
    · exact .same _
  | record _ outcome =>
    simp only [DbWrite.apply, DbWrite.hits, decide_eq_true_eq]
    split
    · rename_i hits
      apply Table.update_did
      intro same
      subst same
      exact .records outcome hits
    · exact .same _

theorem DbWrite.apply_count (table : Table) (now : ℕ) (write : DbWrite) :
    (write.apply table now).count = table.count ∨
      ((write.apply table now).count = table.count + 1 ∧ ∃ found, write = .create found) := by
  unfold DbWrite.apply
  split
  · cases write with
    | create found => exact .inr ⟨rfl, found, rfl⟩
    | _ => exact .inl rfl
  · exact .inl rfl

/-- A move that touches neither the table nor the host. -/
inductive Run.Passes (run : Run) (table : Table) : RunStage → RunStage → Prop
  | channel (name : String) : Passes run table .settings (.floor name)
  | stale (channel reason : String) : run.staleReason table channel = some reason →
      Passes run table (.floor channel) (.observe .superseded (some reason) none)
  | newer (channel : String) : run.staleReason table channel = none →
      Passes run table (.floor channel) .setup
  | again : run.seen.status = .verifying → Passes run table .setup .parse
  | begins : run.seen.status ≠ .verifying →
      Passes run table .setup (.observe .verifying none none)
  | parsed : Passes run table .parse .fetch
  | unparsed (reason : String) : Passes run table .parse (.observe .rejected (some reason) none)
  | fetched : Passes run table .fetch .refs
  | mismatch :
      Passes run table .fetch (.observe .rejected (some "configs_mismatch") none)
  | pulled : Passes run table .pull .stageConfigs
  | unsigned : Passes run table .pull (.observe .rejected (some "image_signature_failed") none)
  | reconciled : Passes run table .reconcile .clients
  | unreconciled : Passes run table .reconcile .refuse
  | clients : Passes run table .clients .migrate
  | migrated : Passes run table .migrate (.observe .applying none none)
  | healthy : Passes run table .gate .swapSelf
  | unhealthy : Passes run table .gate .rollbackConfigs
  | rolledBack : Passes run table .rollbackGate
      (.observe .rolledBack (some "health_gate_failed") (some .rolledBack))
  | degraded : Passes run table .rollbackGate
      (.observe .failed (some "degraded_health") (some .rollbackFailed))
  | observed (target : Status) (reason : Option String) (outcome : Option Outcome) :
      target ∈ (table.row run.id).status.allowed →
      Passes run table (.observe target reason outcome)
        (.write (table.row run.id).status target reason outcome)

/-- A call of the runner, and where the run goes when it returns. -/
inductive Run.Calls (run : Run) (host : Host) : RunStage → HostOp → RunStage → Prop
  | pin : Calls run host .pin (.pin run.id run.manifest run.refs) .save
  | save : Calls run host .save (.save run.id) .pull
  | stageConfigs :
      Calls run host .stageConfigs (.stageConfigs run.id run.manifest.configs) .reconcile
  | refuse : (host.dirs run.id).preImage ≠ none →
      Calls run host .refuse (.restoreConfigs run.id)
        (.observe .rejected (some "env_reconcile_failed") none)
  | restore : (host.dirs run.id).preImage ≠ none →
      Calls run host .rollbackConfigs (.restoreConfigs run.id) .rollbackServices
  | launch : host.swapMaterial run.id .release →
      Calls run host .swapSelf (.launch run.id .release) .release

/-- `recreateServices` -/
inductive Run.Recreates : RunStage → RecreateTarget → RunStage → Prop
  | release : Recreates .recreate .release .gate
  | previous : Recreates .rollbackServices .previous .rollbackGate

inductive Run.Did (run : Run) (table : Table) (host : Host) : Reaction → Prop
  | stays : Did run table host run.stay
  | gaveUp : (run.stage = .claim ∨ run.stage = .handed ∨ run.stage = .release) →
      Did run table host run.finish
  | leaves : run.stage ≠ .claim → Did run table host run.leave
  | claims : run.stage = .claim → (DbWrite.claim run.id run.claimId).hits table →
      Did run table host
        { run.go .settings with
          db := .claim run.id run.claimId
          notes := [.attempted run.id host.tree] }
  | claimLost : run.stage = .claim →
      Did run table host { run.finish with db := .claim run.id run.claimId }
  | finds : run.stage = .handed → (table.row run.id).status.applicable →
      (table.row run.id).claim = some run.claimId →
      Did run table host
        { task := .run { run with seen := table.row run.id, stage := .settings }
          notes := [.attempted run.id host.tree] }
  | passes (next : RunStage) : run.Passes table run.stage next → Did run table host (run.go next)
  | readsRefs : run.stage = .refs →
      Did run table host { task := .run { run with refs := host.refs, stage := .pin } }
  | calls (op : HostOp) (next : RunStage) : run.Calls host run.stage op next →
      Did run table host { run.go next with host := op }
  | callThrew (op : HostOp) (next : RunStage) : run.Calls host run.stage op next →
      Did run table host { run.leave with host := op }
  | recreates (target : RecreateTarget) (next : RunStage) (left : List (String × Option String)) :
      Run.Recreates run.stage target next → (host.dirs run.id).override target ≠ none →
      Did run table host
        { run.go (if left = [] then next else .release) with
          host := .recreate run.id target
            ((sidecars run.manifest run.refs).map ReleaseService.name) left }
  | writes (seen target : Status) (reason : Option String) (outcome : Option Outcome) :
      run.stage = .write seen target reason outcome → (table.row run.id).status = seen →
      Did run table host
        { run.go (Run.advanced target) with db := .advance run.id seen target reason outcome }
  | writeThrew (seen target : Status) (reason : Option String) (outcome : Option Outcome) :
      run.stage = .write seen target reason outcome →
      Did run table host { run.leave with db := .advance run.id seen target reason outcome }
  | releases : run.stage = .release →
      Did run table host { run.finish with db := .release run.id run.claimId }

variable {outcome : Option Outcome} {reason : Option String}

variable (answer : Answer)

namespace Run

variable {run : Run} {table : Table} {host : Host}

variable {next : RunStage}

theorem after_did (passes : run.Passes table run.stage next) (started : run.stage ≠ .claim) :
    run.Did table host (run.after answer next) := by
  unfold after
  split
  · exact .passes next passes
  · exact .leaves started
  · exact .stays

theorem call_did {op : HostOp} (calls : run.Calls host run.stage op next)
    (started : run.stage ≠ .claim) : run.Did table host (run.call answer op next) := by
  unfold call
  split
  · exact .calls op next calls
  · exact .callThrew op next calls
  · exact .leaves started
  · exact .stays

theorem restores_did (calls : (host.dirs run.id).preImage ≠ none →
      run.Calls host run.stage (.restoreConfigs run.id) next) (started : run.stage ≠ .claim) :
    run.Did table host (run.restores host answer next) := by
  unfold restores
  split
  · exact .leaves started
  · rename_i saved
    exact call_did answer (calls (by simpa using saved)) started

theorem recreates_did {target : RecreateTarget} (recreates : Run.Recreates run.stage target next)
    (started : run.stage ≠ .claim) : run.Did table host (run.recreates host answer target next) := by
  unfold Run.recreates
  split
  · exact .leaves started
  · rename_i pinned
    split
    · exact .recreates target next _ recreates (by simpa using pinned)
    · exact .leaves started
    · exact .stays

theorem gates_did {healthy unhealthy : RunStage} (passes : run.Passes table run.stage healthy)
    (passes' : run.Passes table run.stage unhealthy) (started : run.stage ≠ .claim) :
    run.Did table host (run.gates answer healthy unhealthy) := by
  unfold gates
  split
  · split
    · exact .passes _ passes
    · exact .passes _ passes'
  · exact .leaves started
  · exact .stays

theorem takesClaim_did (stage : run.stage = .claim) : run.Did table host (run.takesClaim table host answer) := by
  unfold takesClaim
  split
  · split
    · rename_i hits
      exact .claims stage hits
    · exact .gaveUp (.inl stage)
  · exact .claimLost stage
  · exact .gaveUp (.inl stage)
  · exact .stays

theorem findsClaim_did (stage : run.stage = .handed) : run.Did table host (run.findsClaim table host answer) := by
  unfold findsClaim
  split
  · split
    · rename_i held
      simp only [Bool.and_eq_true, decide_eq_true_eq] at held
      exact .finds stage held.1 held.2
    · exact .leaves (by rw [stage]; decide)
  · exact .gaveUp (.inr (.inl stage))
  · exact .stays

theorem readsFloor_did {channel : String} (stage : run.stage = .floor channel) :
    run.Did table host (run.readsFloor table channel answer) := by
  unfold readsFloor
  split
  · split
    · rename_i reason stale
      exact .passes _ (stage ▸ .stale channel reason stale)
    · rename_i newer
      exact .passes _ (stage ▸ .newer channel newer)
  · exact .leaves (by rw [stage]; simp)
  · exact .stays

theorem readsSetup_did (stage : run.stage = .setup) : run.Did table host (run.readsSetup answer) := by
  have started : run.stage ≠ .claim := by rw [stage]; decide
  unfold readsSetup
  split
  · split
    · rename_i verifying
      exact .passes _ (stage ▸ .again verifying)
    · rename_i other
      exact .passes _ (stage ▸ .begins other)
  · exact .leaves started
  · exact .leaves started
  · exact .stays

theorem observes_did {target : Status} (stage : run.stage = .observe target reason outcome) :
    run.Did table host (run.observes table answer target reason outcome) := by
  have started : run.stage ≠ .claim := by rw [stage]; simp
  unfold observes
  split
  · split
    · rename_i edge
      exact .passes _ (stage ▸ .observed target reason outcome edge)
    · exact .leaves started
  · exact .leaves started
  · exact .stays

theorem writes_did {seen target : Status} (stage : run.stage = .write seen target reason outcome) :
    run.Did table host (run.writes table answer seen target reason outcome) := by
  have started : run.stage ≠ .claim := by rw [stage]; simp
  unfold writes
  split
  · split
    · rename_i unchanged
      exact .writes seen target reason outcome stage unchanged
    · exact .leaves started
  · exact .writeThrew seen target reason outcome stage
  · exact .leaves started
  · exact .stays

theorem releases_did (stage : run.stage = .release) : run.Did table host (run.releases answer) := by
  unfold releases
  split
  · exact .releases stage
  · exact .releases stage
  · exact .gaveUp (.inr (.inr stage))
  · exact .stays

theorem react_did (run : Run) (table : Table) (host : Host) (answer : Answer) :
    run.Did table host (run.react table host answer) := by
  unfold react
  split
  case _ stage => exact takesClaim_did answer stage
  case _ stage => exact findsClaim_did answer stage
  case _ stage =>
    unfold readsChannel
    split
    · exact .passes _ (stage ▸ .channel _)
    · exact .leaves (by rw [stage]; decide)
    · exact .stays
  case _ stage => exact readsFloor_did answer stage
  case _ stage => exact readsSetup_did answer stage
  case _ stage =>
    unfold parses
    split
    · exact .passes _ (stage ▸ .unparsed _)
    · exact after_did answer (stage ▸ .parsed) (by rw [stage]; decide)
  case _ stage =>
    unfold fetches
    split
    · exact .passes _ (stage ▸ .mismatch)
    · exact .leaves (by rw [stage]; decide)
    · exact after_did answer (stage ▸ .fetched) (by rw [stage]; decide)
  case _ stage =>
    unfold readsRefs
    split
    · exact .readsRefs stage
    · exact .leaves (by rw [stage]; decide)
    · exact .stays
  case _ stage => exact call_did answer (stage ▸ .pin) (by rw [stage]; decide)
  case _ stage => exact call_did answer (stage ▸ .save) (by rw [stage]; decide)
  case _ stage =>
    unfold pulls
    split
    · exact .passes _ (stage ▸ .unsigned)
    · exact .leaves (by rw [stage]; decide)
    · exact after_did answer (stage ▸ .pulled) (by rw [stage]; decide)
  case _ stage => exact call_did answer (stage ▸ .stageConfigs) (by rw [stage]; decide)
  case _ stage =>
    unfold reconciles
    split
    · exact .passes _ (stage ▸ .unreconciled)
    · split
      · exact .passes _ (stage ▸ .reconciled)
      · exact .passes _ (stage ▸ .unreconciled)
      · exact .stays
  case _ stage => exact restores_did answer (fun saved => stage ▸ .refuse saved) (by rw [stage]; decide)
  case _ stage => exact after_did answer (stage ▸ .clients) (by rw [stage]; decide)
  case _ stage => exact after_did answer (stage ▸ .migrated) (by rw [stage]; decide)
  case _ stage => exact recreates_did answer (stage ▸ .release) (by rw [stage]; decide)
  case _ stage => exact gates_did answer (stage ▸ .healthy) (stage ▸ .unhealthy) (by rw [stage]; decide)
  case _ stage =>
    unfold swapsSelf
    split
    · rename_i material
      exact call_did answer (stage ▸ .launch material) (by rw [stage]; decide)
    · exact .leaves (by rw [stage]; decide)
  case _ stage =>
    exact restores_did answer (fun saved => stage ▸ .restore saved) (by rw [stage]; decide)
  case _ stage => exact recreates_did answer (stage ▸ .previous) (by rw [stage]; decide)
  case _ stage =>
    exact gates_did answer (stage ▸ .rolledBack) (stage ▸ .degraded) (by rw [stage]; decide)
  case _ stage => exact observes_did answer stage
  case _ stage => exact writes_did answer stage
  case _ stage => exact releases_did answer stage

end Run

/-- A move that touches neither the table nor the host. -/
inductive Resume.Passes (resume : Resume) (table : Table) : ResumeStage → ResumeStage → Prop
  | parsed : Passes resume table .parse .refs
  | unparsed (reason : String) : Passes resume table .parse (.observe .failed (some reason) none)
  | listens (yes : Bool) : Passes resume table .listen (.gate yes)
  | deafTarget : runningTarget resume.manifest resume.refs →
      Passes resume table (.gate false) .rollbackConfigs
  | deafPrevious : runningTarget resume.manifest resume.refs = false →
      Passes resume table (.gate false)
        (.observe .failed (some "degraded_health") (some .rollbackFailed))
  | observed (target : Status) (reason : Option String) (outcome : Option Outcome) :
      target ∈ (table.row resume.id).status.allowed →
      Passes resume table (.observe target reason outcome)
        (.write (table.row resume.id).status target reason outcome)
  | nothingMissing : Passes resume table .enabled (.record .committed)
  | missing (services : List ReleaseService) : Passes resume table .enabled (.start services)
  | enabledFailed : Passes resume table .enabled (.record .servicesStartFailed)
  | startFailed (services : List ReleaseService) :
      Passes resume table (.start services) (.record .servicesStartFailed)
  | gated (services : List ReleaseService) (outcome : Outcome) :
      Passes resume table (.startGate services) (.record outcome)

/-- The verdict of a gate that probed what runs now. -/
inductive Resume.Judged (resume : Resume) (unhealthy : Option String) : ResumeStage → Prop
  | commits : runningTarget resume.manifest resume.refs → unhealthy = none →
      Judged resume unhealthy (.observe .committed none (some .startingServices))
  | rollsBack (name : String) : runningTarget resume.manifest resume.refs → unhealthy = some name →
      Judged resume unhealthy .rollbackConfigs
  | rolledBack : runningTarget resume.manifest resume.refs = false → unhealthy = none →
      Judged resume unhealthy
        (.observe .rolledBack (some "health_gate_failed") (some .rolledBack))
  | degraded (name : String) : runningTarget resume.manifest resume.refs = false →
      unhealthy = some name →
      Judged resume unhealthy (.observe .failed (some "degraded_health") (some .rollbackFailed))

inductive Resume.Did (resume : Resume) (table : Table) (host : Host) : Reaction → Prop
  | stays : Did resume table host resume.stay
  | ends : Did resume table host Reaction.ended
  | passes (next : ResumeStage) : resume.Passes table resume.stage next →
      Did resume table host (resume.go next)
  | readsRefs : resume.stage = .refs →
      Did resume table host
        { task := .resume { resume with refs := host.refs, stage := .listen }
          notes := [.refsRead resume.boot resume.id host.refs] }
  | gates (probes : Probes) (next : ResumeStage) : resume.stage = .gate true →
      resume.Judged (healthGate (deployed resume.manifest resume.refs) probes) next →
      Did resume table host
        { resume.go next with
          notes := [.gated resume.boot resume.id (deployed resume.manifest resume.refs) probes] }
  | restores (task : Task) : resume.stage = .rollbackConfigs →
      (host.dirs resume.id).preImage ≠ none →
      (task = .done ∨ task = .resume { resume with stage := .rollbackServices }) →
      Did resume table host { host := .restoreConfigs resume.id, task }
  | recreates (left : List (String × Option String)) (task : Task) :
      resume.stage = .rollbackServices → (host.dirs resume.id).previous ≠ none →
      (task = .done ∨ task = .resume { resume with stage := .swapBack }) →
      Did resume table host
        { host := .recreate resume.id .previous
            ((sidecars resume.manifest resume.refs).map ReleaseService.name) left
          task }
  | launches : resume.stage = .swapBack → host.swapMaterial resume.id .previous →
      Did resume table host { Reaction.ended with host := .launch resume.id .previous }
  | writes (seen target : Status) (reason : Option String) (outcome : Option Outcome)
      (task : Task) : resume.stage = .write seen target reason outcome →
      (task = .done ∨ (target = .committed ∧ (table.row resume.id).status = seen ∧
        task = .resume { resume with stage := .enabled })) →
      Did resume table host
        { db := .advance resume.id seen target reason outcome, task }
  | starts (services : List ReleaseService) (images : Pins) (next : ResumeStage) :
      resume.stage = .start services →
      ((∃ outcome, next = .record outcome) ∨ ∃ started, next = .startGate started) →
      Did resume table host { resume.go next with host := .start images }
  | records (outcome : Outcome) : resume.stage = .record outcome →
      Did resume table host { Reaction.ended with db := .record resume.id outcome }

namespace Resume

variable {resume : Resume} {table : Table} {host : Host}

theorem judge_cases (resume : Resume) (unhealthy : Option String) :
    ∃ next, resume.Judged unhealthy next ∧ resume.judge unhealthy = resume.go next := by
  unfold judge
  split
  · rename_i target
    cases unhealthy with
    | none => exact ⟨_, .commits target rfl, rfl⟩
    | some name => exact ⟨_, .rollsBack name target rfl, rfl⟩
  · rename_i other
    have previous : runningTarget resume.manifest resume.refs = false := by simpa using other
    cases unhealthy with
    | none => exact ⟨_, .rolledBack previous rfl, rfl⟩
    | some name => exact ⟨_, .degraded name previous rfl, rfl⟩

theorem gates_did {listening : Bool} (stage : resume.stage = .gate listening) :
    resume.Did table host (resume.gates answer listening) := by
  unfold gates
  cases listening with
  | true =>
    rw [if_pos rfl]
    split
    · rename_i probes
      obtain ⟨next, judged, same⟩ :=
        judge_cases resume (healthGate (deployed resume.manifest resume.refs) probes)
      rw [same]
      exact .gates probes next stage judged
    · exact .ends
    · exact .stays
  | false =>
    rw [if_neg (by decide), judge]
    split
    · rename_i target
      exact .passes _ (stage ▸ .deafTarget target)
    · rename_i other
      exact .passes _ (stage ▸ .deafPrevious (by simpa using other))

theorem rollsBackConfigs_did (stage : resume.stage = .rollbackConfigs) :
    resume.Did table host (resume.rollsBackConfigs host answer) := by
  unfold rollsBackConfigs
  split
  · exact .ends
  · rename_i saved
    have present : (host.dirs resume.id).preImage ≠ none := by simpa using saved
    split
    · exact .restores _ stage present (.inr rfl)
    · exact .restores _ stage present (.inl rfl)
    · exact .ends
    · exact .stays

theorem rollsBackServices_did (stage : resume.stage = .rollbackServices) :
    resume.Did table host (resume.rollsBackServices host answer) := by
  unfold rollsBackServices
  split
  · exact .ends
  · rename_i pinned
    have present : (host.dirs resume.id).previous ≠ none := by simpa [UpdateDir.override] using pinned
    split
    · split
      · exact .recreates _ _ stage present (.inr rfl)
      · exact .recreates _ _ stage present (.inl rfl)
    · exact .ends
    · exact .stays

theorem observes_did {target : Status} (stage : resume.stage = .observe target reason outcome) :
    resume.Did table host (resume.observes table answer target reason outcome) := by
  unfold observes
  split
  · split
    · rename_i edge
      exact .passes _ (stage ▸ .observed target reason outcome edge)
    · exact .ends
  · exact .ends
  · exact .stays

theorem writes_did {seen target : Status} (stage : resume.stage = .write seen target reason outcome) :
    resume.Did table host (resume.writes table answer seen target reason outcome) := by
  unfold writes
  split
  · split
    · rename_i unchanged
      split
      · rename_i commits
        exact .writes seen target reason outcome _ stage (.inr ⟨commits, unchanged, rfl⟩)
      · exact .writes seen target reason outcome _ stage (.inl rfl)
    · exact .ends
  · exact .writes seen target reason outcome _ stage (.inl rfl)
  · exact .ends
  · exact .stays

theorem asksEnabled_did (stage : resume.stage = .enabled) : resume.Did table host (resume.asksEnabled answer) := by
  unfold asksEnabled
  split
  · simp only
    split
    · exact .passes _ (stage ▸ .nothingMissing)
    · exact .passes _ (stage ▸ .missing _)
  · exact .passes _ (stage ▸ .enabledFailed)
  · exact .stays

theorem starts_did {missing : List ReleaseService} (stage : resume.stage = .start missing) :
    resume.Did table host (resume.starts answer missing) := by
  unfold starts
  split
  · simp only
    split
    · exact .starts missing _ _ stage (.inl ⟨_, rfl⟩)
    · exact .starts missing _ _ stage (.inr ⟨_, rfl⟩)
  · exact .starts missing _ _ stage (.inl ⟨_, rfl⟩)
  · exact .passes _ (stage ▸ .startFailed missing)
  · exact .stays

theorem react_did (resume : Resume) (table : Table) (host : Host) (answer : Answer) :
    resume.Did table host (resume.react table host answer) := by
  unfold react
  split
  case _ stage =>
    unfold parses
    split
    · exact .passes _ (stage ▸ .parsed)
    · exact .passes _ (stage ▸ .unparsed _)
    · exact .ends
    · exact .stays
  case _ stage =>
    unfold readsRefs
    split
    · exact .readsRefs stage
    · exact .ends
    · exact .stays
  case _ stage =>
    unfold listens
    split
    · exact .passes _ (stage ▸ .listens _)
    · exact .ends
    · exact .stays
  case _ stage => exact gates_did answer stage
  case _ stage => exact rollsBackConfigs_did answer stage
  case _ stage => exact rollsBackServices_did answer stage
  case _ stage =>
    unfold swapsBack
    split
    · rename_i material
      split
      · exact .launches stage material
      · exact .launches stage material
      · exact .ends
      · exact .stays
    · exact .ends
  case _ stage => exact observes_did answer stage
  case _ stage => exact writes_did answer stage
  case _ stage => exact asksEnabled_did answer stage
  case _ stage => exact starts_did answer stage
  case _ started stage =>
    unfold gatesStarted
    split
    · split
      all_goals exact .passes _ (stage ▸ .gated _ _)
    · exact .passes _ (stage ▸ .gated _ _)
    · exact .stays
  case _ stage =>
    unfold records
    split
    · exact .records _ stage
    · exact .records _ stage
    · exact .ends
    · exact .stays

end Resume

/-- A task that a poll, a window, a request or a skip starts. -/
inductive Box.Spawns (box : Box) : Task → Prop
  | poll (found : Release) : Spawns box (.poll .known found)
  | applyNow : Spawns box (.applyNow .check)
  | skip (id : ℕ) : Spawns box (.skip id)
  | window : box.resuming = false → Spawns box (pickRun box.table box.now)

inductive Box.Moved (box : Box) : Event → Box → Prop
  | still (event : Event) : Moved box event { box with now := box.now + 1 }
  | spawns (event : Event) (task : Task) : box.Spawns task →
      Moved box event { box.spawn task with now := box.now + 1 }
  | acts (i : ℕ) (answer : Answer) (task : Task) : box.tasks[i]? = some task →
      Moved box (.advance i answer)
        { box.perform i (box.react task answer) with
          now := box.now + 1 }
  | helps (i : ℕ) (answer : Answer) (helper : Helper) : box.host.helpers[i]? = some helper →
      Moved box (.helper i answer) { box.helperStep i helper answer with now := box.now + 1 }
  | helperDies (i : ℕ) (helper : Helper) : box.host.helpers[i]? = some helper →
      Moved box (.helperDies i) { box.setHelper i helper .gone with now := box.now + 1 }
  | dies : Moved box .crash { box.die with now := box.now + 1 }
  | boots : box.alive = false → Moved box .boot { box.boot with now := box.now + 1 }

theorem Box.step_moved (box : Box) (event : Event) : box.Moved event (box.step event) := by
  cases event with
  | poll found =>
    simp only [Box.step, Box.handle]
    split
    · exact .spawns _ _ (.poll found)
    · exact .still _
  | window =>
    simp only [Box.step, Box.handle]
    split
    · rename_i free
      simp only [Bool.and_eq_true, Bool.not_eq_true'] at free
      exact .spawns _ _ (.window free.2)
    · exact .still _
  | applyNow =>
    simp only [Box.step, Box.handle]
    split
    · exact .spawns _ _ .applyNow
    · exact .still _
  | skip =>
    simp only [Box.step, Box.handle]
    split
    · split
      · exact .spawns _ _ (.skip _)
      · exact .still _
    · exact .still _
  | advance i answer =>
    simp only [Box.step, Box.handle]
    split
    · exact .still _
    · rename_i task current
      exact .acts i answer task current
  | helper i answer =>
    simp only [Box.step, Box.handle]
    split
    · exact .still _
    · rename_i helper found
      exact .helps i answer helper found
  | helperDies i =>
    simp only [Box.step, Box.handle]
    split
    · exact .still _
    · rename_i helper found
      exact .helperDies i helper found
  | crash => exact .dies
  | boot =>
    simp only [Box.step, Box.handle]
    split
    · exact .still _
    · rename_i gone
      exact .boots (by simpa using gone)

end Droplet.Update
