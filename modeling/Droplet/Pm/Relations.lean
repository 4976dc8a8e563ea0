import Droplet.Audit.Canonical

/-! Relations between work items (`services/pm/pm-relations.service.ts`): the bounded search for
a `BLOCKS` path, the two writes, and their transactions as clients interleave them. -/

namespace Droplet.Pm.Relations

inductive ProjectKind where
  | project
  | serviceDesk
  deriving DecidableEq

inductive RelationKind where
  | blocks
  | relates
  | duplicates
  deriving DecidableEq

structure RelationRow where
  id : String
  fromId : String
  toId : String
  kind : RelationKind
  createdById : Option String
  deriving DecidableEq

inductive ActivityVerb where
  | relationAdded
  | relationRemoved

structure ActivityRow where
  workItemId : String
  actorId : Option String
  verb : ActivityVerb
  kind : RelationKind
  otherId : String

/-- The tables the service reads and writes: of an item only the kind of its project is read. -/
structure Database where
  items : String → Option ProjectKind
  relations : List RelationRow
  activity : List ActivityRow

inductive RelationError where
  | workItemNotFound
  | relationNotFound
  | relationSelf
  | relationExists
  | relationCycle
  | relationScanExhausted

def RELATION_SCAN_MAX_DEPTH : ℕ := 32
def RELATION_SCAN_MAX_NODES : ℕ := 500
def RELATION_SCAN_MAX_EDGES_PER_LEVEL : ℕ := 1000

def isSymmetricKind (kind : RelationKind) : Bool := kind = .relates || kind = .duplicates

def Database.inPm (db : Database) (id : String) : Bool := db.items id = some .project

/-- `BOTH_ENDS_IN_PM`. -/
def Database.bothEndsInPm (db : Database) (row : RelationRow) : Bool :=
  db.inPm row.fromId && db.inPm row.toId

/-- The order the rows of a query without `orderBy` come in. -/
structure RowOrder where
  arrange : List RelationRow → List RelationRow
  perm : ∀ rows, (arrange rows).Perm rows

/-- The ends of the edges out of a level, one more than the limit at most. -/
def levelEdges (db : Database) (order : RowOrder) (frontier : List String) : List String :=
  ((order.arrange (db.relations.filter (fun row =>
    row.kind = .blocks && decide (row.fromId ∈ frontier) && db.bothEndsInPm row))).take
      (RELATION_SCAN_MAX_EDGES_PER_LEVEL + 1)).map RelationRow.toId

/-- The inner loop: `none` where it finds the target, else the visited ids and the next level. -/
def scanEdges (targetId : String) :
    List String → List String → List String → Except RelationError (Option (List String × List String))
  | [], visited, next => .ok (some (visited, next))
  | toId :: rest, visited, next =>
    if toId = targetId then .ok none
    else if toId ∈ visited then scanEdges targetId rest visited next
    else if (visited ++ [toId]).length > RELATION_SCAN_MAX_NODES then .error .relationScanExhausted
    else scanEdges targetId rest (visited ++ [toId]) (next ++ [toId])

/-- The outer loop, with room for so many levels. -/
def scanLevels (db : Database) (orders : ℕ → RowOrder) (targetId : String) :
    ℕ → List String → List String → Except RelationError Bool
  | 0, frontier, _ => if frontier = [] then .ok false else .error .relationScanExhausted
  | room + 1, frontier, visited =>
    if frontier = [] then .ok false
    else
      let edges := levelEdges db (orders room) frontier
      if edges.length > RELATION_SCAN_MAX_EDGES_PER_LEVEL then .error .relationScanExhausted
      else
        match scanEdges targetId edges visited [] with
        | .error failure => .error failure
        | .ok none => .ok true
        | .ok (some (visited, next)) => scanLevels db orders targetId room next visited

def blocksPathExists (db : Database) (orders : ℕ → RowOrder) (startId targetId : String) :
    Except RelationError Bool :=
  scanLevels db orders targetId RELATION_SCAN_MAX_DEPTH [startId] [startId]

structure Ends where
  fromId : String
  toId : String
  kind : RelationKind

/-- A symmetric pair in the order of its code units. -/
def canonicalise (input : Ends) : Ends :=
  if isSymmetricKind input.kind ∧ Audit.codeUnits input.toId < Audit.codeUnits input.fromId then
    { input with fromId := input.toId, toId := input.fromId }
  else input

/-- The checks of `createRelation` ahead of its transaction. -/
def openCreate (db : Database) (input : Ends) : Except RelationError Ends :=
  if input.fromId = input.toId then .error .relationSelf
  else if db.inPm input.fromId && db.inPm input.toId then .ok (canonicalise input)
  else .error .workItemNotFound

def relationActivity (actorId : Option String) (verb : ActivityVerb) (ends : Ends) : List ActivityRow :=
  [⟨ends.fromId, actorId, verb, ends.kind, ends.toId⟩, ⟨ends.toId, actorId, verb, ends.kind, ends.fromId⟩]

/-- What the transaction finds of a `BLOCKS` path: a symmetric kind is not walked. -/
def cycleCheck (db : Database) (orders : ℕ → RowOrder) (ends : Ends) : Except RelationError Bool :=
  if isSymmetricKind ends.kind then .ok false
  else blocksPathExists db orders ends.toId ends.fromId

/-- The transaction of `createRelation`, with the id the database gives the row. -/
def createTransaction (db : Database) (orders : ℕ → RowOrder) (newId : String)
    (actorId : Option String) (ends : Ends) : Except RelationError Database :=
  match cycleCheck db orders ends with
  | .error failure => .error failure
  | .ok true => .error .relationCycle
  | .ok false =>
    -- the unique keys (`P2002`), then the foreign keys (`P2003`)
    if db.relations.any (fun row => row.id = newId ||
        (row.fromId = ends.fromId && row.toId = ends.toId && row.kind = ends.kind)) then
      .error .relationExists
    else if (db.items ends.fromId).isNone || (db.items ends.toId).isNone then
      .error .workItemNotFound
    else
      .ok { db with
        relations := db.relations ++ [⟨newId, ends.fromId, ends.toId, ends.kind, actorId⟩]
        activity := db.activity ++ relationActivity actorId .relationAdded ends }

/-- The lookup of `deleteRelation` ahead of its transaction. -/
def openDelete (db : Database) (relationId : String) : Except RelationError RelationRow :=
  match db.relations.find? (fun row => row.id = relationId && db.bothEndsInPm row) with
  | some existing => .ok existing
  | none => .error .relationNotFound

/-- The transaction of `deleteRelation`: a row that has gone meanwhile is `P2025`. -/
def deleteTransaction (db : Database) (actorId : Option String) (existing : RelationRow) :
    Except RelationError Database :=
  if db.relations.any (fun row => row.id = existing.id) then
    .ok { db with
      relations := db.relations.filter (fun row => row.id ≠ existing.id)
      activity := db.activity ++
        relationActivity actorId .relationRemoved ⟨existing.fromId, existing.toId, existing.kind⟩ }
  else .error .relationNotFound

inductive Call where
  | create (actorId : Option String) (input : Ends)
  | delete (actorId : Option String) (relationId : String)

/-- A call between its reads and its transaction. -/
inductive Pending where
  | create (actorId : Option String) (ends : Ends)
  | delete (actorId : Option String) (existing : RelationRow)

/-- The committed tables, and where each client is. -/
structure Service where
  db : Database
  calls : ℕ → Option Pending

/-- One step of one client. The transactions stand in the order they are equivalent to; one that
loses a conflict is aborted. -/
inductive Event where
  | request (client : ℕ) (call : Call)
  | transact (client : ℕ) (newId : String) (orders : ℕ → RowOrder)
  | abort (client : ℕ)

def Service.setCall (service : Service) (client : ℕ) (pending : Option Pending) : Service :=
  { service with calls := Function.update service.calls client pending }

def openCall (db : Database) : Call → Except RelationError Pending
  | .create actorId input => (openCreate db input).map (Pending.create actorId)
  | .delete actorId relationId => (openDelete db relationId).map (Pending.delete actorId)

def transaction (db : Database) (newId : String) (orders : ℕ → RowOrder) :
    Pending → Except RelationError Database
  | .create actorId ends => createTransaction db orders newId actorId ends
  | .delete actorId existing => deleteTransaction db actorId existing

def step (service : Service) : Event → Service × Option RelationError
  | .request client call =>
    match service.calls client with
    | some _ => (service, none)
    | none =>
      match openCall service.db call with
      | .ok pending => (service.setCall client (some pending), none)
      | .error failure => (service, some failure)
  | .transact client newId orders =>
    match service.calls client with
    | none => (service, none)
    | some pending =>
      match transaction service.db newId orders pending with
      | .ok db => ({ service.setCall client none with db := db }, none)
      | .error failure => (service.setCall client none, some failure)
  | .abort client => (service.setCall client none, none)

def run (service : Service) (events : List Event) : Service :=
  events.foldl (fun service event => (step service event).1) service

end Droplet.Pm.Relations
