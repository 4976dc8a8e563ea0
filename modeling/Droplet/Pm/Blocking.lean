import Droplet.Lib.Acyclic
import Droplet.Pm.Relations

/-! No item blocks itself, however indirectly: the search finds every path within its bounds and
fails past them, so no transaction closes a cycle. -/

namespace Droplet.Pm.Relations

open EdgeGraph

def BlocksEdge (db : Database) (x y : String) : Prop :=
  ∃ row ∈ db.relations, row.kind = .blocks ∧ db.bothEndsInPm row = true ∧ row.fromId = x ∧ row.toId = y

variable (db : Database)

theorem mem_levelEdges (order : RowOrder) (frontier : List String)
    (whole : (levelEdges db order frontier).length ≤ RELATION_SCAN_MAX_EDGES_PER_LEVEL)
    (x y : String) (member : x ∈ frontier) (edge : BlocksEdge db x y) : y ∈ levelEdges db order frontier := by
  obtain ⟨row, stored, kind, ends, rfl, rfl⟩ := edge
  have kept : row ∈ db.relations.filter (fun row =>
      row.kind = .blocks && decide (row.fromId ∈ frontier) && db.bothEndsInPm row) := by
    simp [stored, kind, ends, member]
  have arranged := (order.perm _).mem_iff.mpr kept
  unfold levelEdges at whole ⊢
  rw [List.length_map, List.length_take] at whole
  rw [List.take_of_length_le (by omega)]
  exact List.mem_map_of_mem arranged

variable (targetId : String)

theorem scanEdges_spec (edges visited next : List String)
    (after later : List String) (scanned : scanEdges targetId edges visited next = .ok (some (after, later))) :
    (∀ y ∈ edges, y ≠ targetId ∧ y ∈ after) ∧ visited ⊆ after ∧ next ⊆ later ∧
      ∀ x ∈ after, x ∈ visited ∨ x ∈ later := by
  induction edges generalizing visited next with
  | nil =>
    obtain ⟨rfl, rfl⟩ := Prod.mk.inj (Option.some.inj (Except.ok.inj scanned))
    exact ⟨by simp, fun x member => member, fun x member => member, fun x member => .inl member⟩
  | cons toId rest ih =>
    rw [scanEdges] at scanned
    split at scanned
    · cases Except.ok.inj scanned
    · next other =>
      split at scanned
      · next seen =>
        obtain ⟨each, grows, queued, fresh⟩ := ih visited next scanned
        refine ⟨?_, grows, queued, fresh⟩
        rw [List.forall_mem_cons]
        exact ⟨⟨other, grows seen⟩, each⟩
      · split at scanned
        · cases scanned
        · obtain ⟨each, grows, queued, fresh⟩ := ih _ _ scanned
          have added : toId ∈ after := grows (by simp)
          refine ⟨?_, fun x member => grows (by simp [member]),
            fun x member => queued (by simp [member]), ?_⟩
          · rw [List.forall_mem_cons]
            exact ⟨⟨other, added⟩, each⟩
          · intro x member
            rcases fresh x member with old | new
            · rcases List.mem_append.mp old with before | here
              · exact .inl before
              · exact .inr (queued (List.mem_append_right _ here))
            · exact .inr new

/-- The invariant of the search: the edges out of what is visited and not on the frontier lead to
what is visited, and none to the target. -/
def Explored (db : Database) (targetId : String) (frontier visited : List String) : Prop :=
  ∀ x ∈ visited, x ∉ frontier → ∀ y, BlocksEdge db x y → y ∈ visited ∧ y ≠ targetId

variable (orders : ℕ → RowOrder)

theorem scanLevels_closed (targetId : String) (room : ℕ)
    (frontier visited : List String) (explored : Explored db targetId frontier visited)
    (ended : scanLevels db orders targetId room frontier visited = .ok false) :
    ∃ closed, visited ⊆ closed ∧ Explored db targetId [] closed := by
  induction room generalizing frontier visited with
  | zero =>
    rw [scanLevels] at ended
    split at ended
    · next empty => exact ⟨visited, fun _ member => member, empty ▸ explored⟩
    · cases ended
  | succ room ih =>
    simp only [scanLevels] at ended
    split at ended
    · next empty => exact ⟨visited, fun _ member => member, empty ▸ explored⟩
    · split at ended
      · cases ended
      · next whole =>
        split at ended
        · cases ended
        · cases ended
        · next after later scanned =>
          obtain ⟨each, grows, _, fresh⟩ := scanEdges_spec _ _ _ _ _ _ scanned
          have next : Explored db targetId later after := by
            intro x member done y edge
            have old : x ∈ visited := (fresh x member).resolve_right done
            by_cases waiting : x ∈ frontier
            · have listed := mem_levelEdges db (orders room) frontier (by omega) x y waiting edge
              exact ⟨(each y listed).2, (each y listed).1⟩
            · obtain ⟨seen, other⟩ := explored x old waiting y edge
              exact ⟨grows seen, other⟩
          obtain ⟨closed, reached, done⟩ := ih later after next ended
          exact ⟨closed, fun x member => reached (grows member), done⟩

/-- `false` is returned only where there is no path. -/
theorem blocksPathExists_false (startId targetId : String)
    (ended : blocksPathExists db orders startId targetId = .ok false) :
    ¬ Relation.TransGen (BlocksEdge db) startId targetId := by
  have first : Explored db targetId [startId] [startId] := fun x member done => absurd member done
  obtain ⟨closed, reached, done⟩ := scanLevels_closed db orders targetId _ _ _ first ended
  exact unreached_of_closed (BlocksEdge db) (fun x => x ∈ closed) startId targetId
    (reached List.mem_cons_self) (fun x y member edge => done x member List.not_mem_nil y edge)

theorem canonicalise_apart (input : Ends) (apart : input.fromId ≠ input.toId) :
    (canonicalise input).fromId ≠ (canonicalise input).toId := by
  unfold canonicalise
  split
  · exact apart.symm
  · exact apart

theorem openCreate_apart (input ends : Ends) (opened : openCreate db input = .ok ends) :
    ends.fromId ≠ ends.toId := by
  unfold openCreate at opened
  split at opened
  · cases opened
  · next apart =>
    split at opened
    · obtain rfl := Except.ok.inj opened
      exact canonicalise_apart input apart
    · cases opened

theorem createTransaction_ok (db after : Database) (orders : ℕ → RowOrder) (newId : String)
    (actorId : Option String) (ends : Ends)
    (committed : createTransaction db orders newId actorId ends = .ok after) :
    cycleCheck db orders ends = .ok false ∧ after.items = db.items ∧
      after.relations = db.relations ++ [⟨newId, ends.fromId, ends.toId, ends.kind, actorId⟩] := by
  unfold createTransaction at committed
  split at committed
  · cases committed
  · cases committed
  · next unblocked =>
    split at committed
    · cases committed
    · split at committed
      · cases committed
      · obtain rfl := Except.ok.inj committed
        exact ⟨unblocked, rfl, rfl⟩

theorem createTransaction_acyclic (db after : Database) (orders : ℕ → RowOrder) (newId : String)
    (actorId : Option String) (ends : Ends) (apart : ends.fromId ≠ ends.toId)
    (committed : createTransaction db orders newId actorId ends = .ok after)
    (acyclic : Acyclic (BlocksEdge db)) : Acyclic (BlocksEdge after) := by
  obtain ⟨unblocked, items, relations⟩ := createTransaction_ok db after orders newId actorId ends committed
  have pm : ∀ row, after.bothEndsInPm row = db.bothEndsInPm row := by
    intro row
    simp only [Database.bothEndsInPm, Database.inPm, items]
  by_cases kind : ends.kind = .blocks
  · have unreached : ¬ Relation.TransGen (BlocksEdge db) ends.toId ends.fromId := by
      apply blocksPathExists_false db orders
      simpa [cycleCheck, isSymmetricKind, kind] using unblocked
    apply (acyclic.with ends.fromId ends.toId apart unreached).mono
    intro x y edge
    obtain ⟨row, stored, blocks, both, rfl, rfl⟩ := edge
    rw [relations, List.mem_append, List.mem_singleton] at stored
    rcases stored with old | rfl
    · exact .inl ⟨row, old, blocks, pm row ▸ both, rfl, rfl⟩
    · exact .inr ⟨rfl, rfl⟩
  · apply acyclic.mono
    intro x y edge
    obtain ⟨row, stored, blocks, both, rfl, rfl⟩ := edge
    rw [relations, List.mem_append, List.mem_singleton] at stored
    rcases stored with old | rfl
    · exact ⟨row, old, blocks, pm row ▸ both, rfl, rfl⟩
    · exact absurd blocks kind

theorem deleteTransaction_acyclic (db after : Database) (actorId : Option String)
    (existing : RelationRow) (committed : deleteTransaction db actorId existing = .ok after)
    (acyclic : Acyclic (BlocksEdge db)) : Acyclic (BlocksEdge after) := by
  unfold deleteTransaction at committed
  split at committed
  · obtain rfl := Except.ok.inj committed
    apply acyclic.mono
    intro x y edge
    obtain ⟨row, stored, blocks, both, rfl, rfl⟩ := edge
    exact ⟨row, List.mem_of_mem_filter stored, blocks, both, rfl, rfl⟩
  · cases committed

/-- The invariant: no cycle, and no call under way that would block an item by itself. -/
structure Sound (service : Service) : Prop where
  acyclic : Acyclic (BlocksEdge service.db)
  apart : ∀ client actorId ends, service.calls client = some (.create actorId ends) →
    ends.fromId ≠ ends.toId

theorem Sound.setCall {service : Service} (sound : Sound service) (client : ℕ) (pending : Option Pending)
    (apart : ∀ actorId ends, pending = some (.create actorId ends) → ends.fromId ≠ ends.toId) :
    Sound (service.setCall client pending) := by
  refine ⟨sound.acyclic, ?_⟩
  intro other actorId ends called
  by_cases same : other = client
  · subst same
    apply apart actorId ends
    simpa [Service.setCall] using called
  · apply sound.apart other actorId ends
    simpa [Service.setCall, Function.update_of_ne same] using called

theorem openCall_apart (call : Call) (pending : Pending) (opened : openCall db call = .ok pending)
    (actorId : Option String) (ends : Ends) (create : pending = .create actorId ends) :
    ends.fromId ≠ ends.toId := by
  cases call with
  | create actor input =>
    obtain ⟨found, checked, rfl⟩ := Fallible.map_ok_iff.mp opened
    cases create
    exact openCreate_apart db input _ checked
  | delete actor relationId =>
    obtain ⟨found, _, rfl⟩ := Fallible.map_ok_iff.mp opened
    cases create

variable (service : Service)

theorem transaction_acyclic (sound : Sound service) (client : ℕ) (pending : Pending)
    (called : service.calls client = some pending) (newId : String) (orders : ℕ → RowOrder)
    (after : Database) (committed : transaction service.db newId orders pending = .ok after) :
    Acyclic (BlocksEdge after) := by
  cases pending with
  | create actorId ends =>
    exact createTransaction_acyclic _ _ _ _ _ ends (sound.apart client actorId ends called)
      committed sound.acyclic
  | delete actorId existing => exact deleteTransaction_acyclic _ _ _ _ committed sound.acyclic

theorem step_sound (event : Event) (sound : Sound service) : Sound (step service event).1 := by
  cases event with
  | request client call =>
    simp only [step]
    split
    · exact sound
    · split
      · next pending opened =>
        apply sound.setCall
        intro actorId ends create
        exact openCall_apart _ _ _ opened actorId ends (Option.some.inj create)
      · exact sound
  | transact client newId orders =>
    simp only [step]
    split
    · exact sound
    · next pending called =>
      have idle := sound.setCall client none (by simp)
      split
      · next after committed =>
        exact ⟨transaction_acyclic service sound client pending called newId orders after committed,
          idle.apart⟩
      · exact idle
  | abort client => exact sound.setCall client none (by simp)

theorem run_sound (events : List Event) (sound : Sound service) : Sound (run service events) := by
  induction events generalizing service with
  | nil => exact sound
  | cons event events ih => exact ih _ (step_sound service event sound)

theorem step_error (event : Event) (failure : RelationError)
    (failed : (step service event).2 = some failure) : (step service event).1.db = service.db := by
  cases event with
  | request client call =>
    simp only [step] at failed ⊢
    split
    · rfl
    · split <;> rfl
  | transact client newId orders =>
    simp only [step] at failed ⊢
    split
    · rfl
    · next pending called =>
      split
      · next after committed => simp [called, committed] at failed
      · rfl
  | abort client => cases failed

theorem scanEdges_error (edges visited next : List String)
    (failure : RelationError) (failed : scanEdges targetId edges visited next = .error failure) :
    failure = .relationScanExhausted := by
  induction edges generalizing visited next with
  | nil => cases failed
  | cons toId rest ih =>
    rw [scanEdges] at failed
    split at failed
    · cases failed
    · split at failed
      · exact ih _ _ failed
      · split at failed
        · exact (Except.error.inj failed).symm
        · exact ih _ _ failed

theorem scanLevels_error (targetId : String) (room : ℕ) (frontier visited : List String) (failure : RelationError)
    (failed : scanLevels db orders targetId room frontier visited = .error failure) :
    failure = .relationScanExhausted := by
  induction room generalizing frontier visited with
  | zero =>
    rw [scanLevels] at failed
    split at failed
    · cases failed
    · exact (Except.error.inj failed).symm
  | succ room ih =>
    simp only [scanLevels] at failed
    split at failed
    · cases failed
    · split at failed
      · exact (Except.error.inj failed).symm
      · split at failed
        · next scanned =>
          rw [← Except.error.inj failed]
          exact scanEdges_error _ _ _ _ _ scanned
        · cases failed
        · exact ih _ _ failed

theorem cycleCheck_error (ends : Ends) (failure : RelationError)
    (failed : cycleCheck db orders ends = .error failure) : failure = .relationScanExhausted := by
  unfold cycleCheck at failed
  split at failed
  · cases failed
  · exact scanLevels_error _ _ _ _ _ _ _ failed

def SameRows (db other : Database) : Prop :=
  db.items = other.items ∧ db.relations.Perm other.relations

theorem acyclic_sameRows (db other : Database) (same : SameRows db other)
    (acyclic : Acyclic (BlocksEdge other)) : Acyclic (BlocksEdge db) := by
  obtain ⟨items, rows⟩ := same
  apply acyclic.mono
  intro x y edge
  obtain ⟨row, stored, blocks, both, rfl, rfl⟩ := edge
  refine ⟨row, rows.mem_iff.mp stored, blocks, ?_, rfl, rfl⟩
  simpa only [Database.bothEndsInPm, Database.inPm, items] using both

/-- Whatever the calls of any clients, in any serial order of their transactions: the rows of the
committed tables hold no cycle of blocking items, a call that fails changes no table, and a search
that runs out of a bound fails its call. -/
theorem blocks_stay_acyclic (start : Service) (idle : ∀ client, start.calls client = none)
    (acyclic : Acyclic (BlocksEdge start.db)) (events : List Event) :
    (∀ db, SameRows db (run start events).db → Acyclic (BlocksEdge db)) ∧
    (∀ event failure, (step (run start events) event).2 = some failure →
      (step (run start events) event).1.db = (run start events).db) ∧
    ∀ client newId orders actorId ends failure,
      (run start events).calls client = some (.create actorId ends) →
      cycleCheck (run start events).db orders ends = .error failure →
      failure = .relationScanExhausted ∧
        (step (run start events) (.transact client newId orders)).2 = some failure := by
  have sound : Sound (run start events) := by
    apply run_sound
    refine ⟨acyclic, ?_⟩
    intro client actorId ends called
    rw [idle client] at called
    cases called
  refine ⟨?_, fun event failure => step_error _ event failure, ?_⟩
  · intro db same
    exact acyclic_sameRows db _ same sound.acyclic
  · intro client newId orders actorId ends failure called failed
    refine ⟨cycleCheck_error _ _ _ _ failed, ?_⟩
    simp only [step, called, transaction, createTransaction, failed]

def twoItems : Service where
  db := ⟨fun id => if id = "a" ∨ id = "b" then some .project else none, [], []⟩
  calls := fun _ => none

/-- Two clients at once: one lets `a` block `b`, the other the other way round. -/
def crossedCalls : List Event :=
  let asStored : RowOrder := ⟨fun rows => rows, fun _ => .refl _⟩
  [.request 0 (.create none ⟨"a", "b", .blocks⟩), .request 1 (.create none ⟨"b", "a", .blocks⟩),
    .transact 0 "r1" (fun _ => asStored), .transact 1 "r2" (fun _ => asStored)]

theorem crossed_calls_acyclic :
    (run twoItems crossedCalls).db.relations = [⟨"r1", "a", "b", .blocks, none⟩] ∧
      Acyclic (BlocksEdge (run twoItems crossedCalls).db) := by
  refine ⟨by decide, ?_⟩
  have start : Acyclic (BlocksEdge twoItems.db) := by
    intro x cycle
    cases cycle with
    | single edge | tail _ edge => simp [BlocksEdge, twoItems] at edge
  exact (blocks_stay_acyclic twoItems (fun _ => rfl) start crossedCalls).1 _ ⟨rfl, .refl _⟩

/-- Whatever holds of the edges and of the queue holds of all the search is led to. -/
theorem scanEdges_reach {reached : String → Prop} (edges visited next : List String)
    (listed : ∀ y ∈ edges, reached y) (queued : ∀ y ∈ next, reached y) :
    (scanEdges targetId edges visited next = .ok none → reached targetId) ∧
      ∀ after later, scanEdges targetId edges visited next = .ok (some (after, later)) →
        ∀ y ∈ later, reached y := by
  induction edges generalizing visited next with
  | nil => simpa [scanEdges] using queued
  | cons toId rest ih =>
    rw [List.forall_mem_cons] at listed
    rw [scanEdges]
    split
    · next same => simpa using same ▸ listed.1
    · split
      · exact ih _ _ listed.2 queued
      · split
        · simp
        · apply ih _ _ listed.2
          intro y member
          rcases List.mem_append.mp member with old | new
          · exact queued y old
          · exact List.mem_singleton.mp new ▸ listed.1

theorem scanLevels_true (startId targetId : String) (room : ℕ) (frontier visited : List String)
    (reached : ∀ x ∈ frontier, Relation.ReflTransGen (BlocksEdge db) startId x)
    (found : scanLevels db orders targetId room frontier visited = .ok true) :
    Relation.TransGen (BlocksEdge db) startId targetId := by
  induction room generalizing frontier visited with
  | zero =>
    rw [scanLevels] at found
    split at found <;> cases found
  | succ room ih =>
    have listed : ∀ y ∈ levelEdges db (orders room) frontier,
        Relation.TransGen (BlocksEdge db) startId y := by
      intro y member
      obtain ⟨row, taken, rfl⟩ := List.mem_map.mp member
      have kept := ((orders room).perm _).mem_iff.mp (List.mem_of_mem_take taken)
      simp only [List.mem_filter, Bool.and_eq_true, decide_eq_true_eq] at kept
      obtain ⟨stored, ⟨kind, from_⟩, ends⟩ := kept
      exact .tail' (reached _ from_) ⟨row, stored, kind, ends, rfl, rfl⟩
    simp only [scanLevels] at found
    split at found
    · cases found
    · split at found
      · cases found
      · have scan := scanEdges_reach targetId _ visited [] listed (by simp)
        split at found
        · cases found
        · next scanned => exact scan.1 scanned
        · next after later scanned =>
          apply ih later after _ found
          intro x member
          exact (scan.2 after later scanned x member).to_reflTransGen

/-- A row is refused as a cycle exactly where it would close one, but where the search fails. -/
theorem cycle_refused_iff (service : Service) (client : ℕ) (newId : String) (orders : ℕ → RowOrder)
    (actorId : Option String) (ends : Ends) (kind : ends.kind = .blocks)
    (called : service.calls client = some (.create actorId ends)) :
    (step service (.transact client newId orders)).2 = some .relationScanExhausted ∨
      ((step service (.transact client newId orders)).2 = some .relationCycle ↔
        Relation.TransGen (BlocksEdge service.db) ends.toId ends.fromId) := by
  have walked : cycleCheck service.db orders ends =
      blocksPathExists service.db orders ends.toId ends.fromId := by
    simp [cycleCheck, isSymmetricKind, kind]
  simp only [step, called, transaction, createTransaction, walked]
  cases result : blocksPathExists service.db orders ends.toId ends.fromId with
  | error failure =>
    rw [scanLevels_error _ _ _ _ _ _ _ result]
    exact .inl rfl
  | ok found =>
    right
    cases found with
    | true =>
      refine iff_of_true rfl (scanLevels_true _ _ _ _ _ _ _ ?_ result)
      simp [Relation.ReflTransGen.refl]
    | false =>
      refine iff_of_false ?_ (blocksPathExists_false _ _ _ _ result)
      grind

theorem crossed_call_refused : Relation.TransGen (BlocksEdge (run twoItems (crossedCalls.take 3)).db) "a" "b" := by
  have refused := cycle_refused_iff (run twoItems (crossedCalls.take 3)) 1 "r2"
    (fun _ => ⟨fun rows => rows, fun _ => .refl _⟩) none ⟨"b", "a", .blocks⟩ rfl rfl
  exact (refused.resolve_left (fun failed => by cases failed)).mp rfl

end Droplet.Pm.Relations
