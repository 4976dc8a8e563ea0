import Droplet.Audit.Verify
import Droplet.Lib.Turns

/-! Appends to the activity chain (`services/activity.service.ts`), as any number of processes
and transactions make them at once.

A step is one thing that happens: a call comes in, a promise settles, a statement runs, a
transaction ends. A statement of a transaction sees the committed rows and its own. The
lock belongs to a transaction and goes when the transaction ends; ids come from a
sequence that never goes back. -/

namespace Droplet.Audit

open Turns

structure ActivityActor where
  type : ActivityActorType
  id : Option String

/-- The params of a call as `snapshotRecordParams` copies them, `at` filled in. Calls that
`validateRecordParams` refuses append nothing. -/
structure RecordParams where
  kind : ActivityKind
  severity : ActivitySeverity
  sourceIcon : String
  what : String
  sub : Option String
  refs : Json Json.NumberText
  actor : ActivityActor
  atMs : ℤ

def CURRENT_ACTIVITY_SCHEMA_VERSION : ℤ := 2

def contentOf (params : RecordParams) : ActivityRowContent where
  atMs := params.atMs
  severity := params.severity
  sourceIcon := params.sourceIcon
  what := params.what
  sub := params.sub
  kind := params.kind
  refs := params.refs
  actorType := some params.actor.type
  actorId := params.actor.id
  schemaVersion := CURRENT_ACTIVITY_SCHEMA_VERSION

/-- How far `appendNow` has come. -/
inductive Stage where
  | start
  | locked
  | read (tail : Option String)
  | signed (prevSignatureHash signature : String)
  | inserted

structure Append where
  content : ActivityRowContent
  stage : Stage

inductive TxStatus where
  | active
  | aborted
  | closed

/-- A transaction: the rows it has inserted, and its entry of `appendQueues`. -/
structure Tx where
  status : TxStatus
  readCommitted : Bool
  rows : List ActivityRow
  appends : Queue Append

/-- A `record()` call: its params, and the transaction it runs in. -/
structure Record where
  params : RecordParams
  tx : Option ℕ

structure Database where
  committed : List ActivityRow
  nextId : ℤ
  lock : Option ℕ
  txs : ℕ → Option Tx
  records : ℕ → Queue Record

def Database.empty : Database := ⟨[], 1, none, fun _ => none, fun _ => .empty⟩

/-- `ORDER BY "id" DESC LIMIT 1`. -/
def tailRow (rows : List ActivityRow) : Option ActivityRow := greatest ActivityRow.id rows

def tailSignature (rows : List ActivityRow) : Option String := (tailRow rows).map ActivityRow.signature

variable {Key : Type} (digests : Digests Key) (key : Key)

/-- The link to the row whose signature was read; none, or an empty one, is the origin. -/
def linkTo (tail : Option String) : String :=
  if tail.getD "" = "" then "" else digests.hashSignature (tail.getD "")

def Database.setTx (db : Database) (t : ℕ) (tx : Tx) : Database :=
  { db with txs := Function.update db.txs t (some tx) }

/-- An append of a transaction goes on, or is over. -/
def Tx.setAppend (tx : Tx) (i : ℕ) (phase : Phase Append) : Tx :=
  { tx with appends := tx.appends.set i phase }

/-- A transaction that is open, and an append of it that is running. -/
structure Working (db : Database) (t : ℕ) (tx : Tx) (i : ℕ) (append : Append) : Prop where
  found : db.txs t = some tx
  runs : tx.appends.Runs i append

def unlocked (db : Database) (t : ℕ) : Option ℕ := if db.lock = some t then none else db.lock

inductive Step (db : Database) : Database → Prop
  /-- `$transaction` begins one. -/
  | begin (t : ℕ) (readCommitted : Bool) (fresh : db.txs t = none) :
      Step db (db.setTx t ⟨.active, readCommitted, [], .empty⟩)
  /-- `appendActivityRowInTx` is called. -/
  | call (t : ℕ) (tx : Tx) (params : RecordParams) (found : db.txs t = some tx) :
      Step db (db.setTx t { tx with appends := tx.appends.join ⟨contentOf params, .start⟩ })
  /-- An append's turn has come. -/
  | start (t : ℕ) (tx : Tx) (i : ℕ) (content : ActivityRowContent) (found : db.txs t = some tx)
      (ready : tx.appends.Ready i ⟨content, .start⟩) :
      Step db (db.setTx t (tx.setAppend i (.running ⟨content, .start⟩)))
  /-- The lock is free, or the transaction's own. -/
  | lock (t : ℕ) (tx : Tx) (i : ℕ) (content : ActivityRowContent)
      (working : Working db t tx i ⟨content, .start⟩) (active : tx.status = .active)
      (free : db.lock = none ∨ db.lock = some t) :
      Step db { db.setTx t (tx.setAppend i (if tx.readCommitted then
          .running ⟨content, .locked⟩ else .settled)) with lock := some t }
  | read (t : ℕ) (tx : Tx) (i : ℕ) (content : ActivityRowContent)
      (working : Working db t tx i ⟨content, .locked⟩) (active : tx.status = .active) :
      Step db (db.setTx t (tx.setAppend i
        (.running ⟨content, .read (tailSignature (db.committed ++ tx.rows))⟩)))
  | sign (t : ℕ) (tx : Tx) (i : ℕ) (content : ActivityRowContent) (tail : Option String)
      (signature : String) (working : Working db t tx i ⟨content, .read tail⟩)
      (signed : Audit.sign digests key content (linkTo digests tail) = some signature) :
      Step db (db.setTx t (tx.setAppend i
        (.running ⟨content, .signed (linkTo digests tail) signature⟩)))
  | insert (t : ℕ) (tx : Tx) (i : ℕ) (content : ActivityRowContent)
      (prevSignatureHash signature : String)
      (working : Working db t tx i ⟨content, .signed prevSignatureHash signature⟩)
      (active : tx.status = .active) :
      Step db { db.setTx t { tx.setAppend i (.running ⟨content, .inserted⟩) with
          rows := tx.rows ++ [⟨db.nextId, storedContent content, signature, prevSignatureHash⟩] } with
        nextId := db.nextId + 1 }
  /-- An append is over: it has inserted its row, or it rejects (a signer that throws, a
  statement on a transaction that is over). -/
  | settle (t : ℕ) (tx : Tx) (i : ℕ) (append : Append) (working : Working db t tx i append) :
      Step db (db.setTx t (tx.setAppend i .settled))
  /-- A statement of an append fails: the transaction is aborted. An insert that fails may
  have taken ids. -/
  | abort (t : ℕ) (tx : Tx) (i : ℕ) (append : Append) (taken : ℕ)
      (working : Working db t tx i append) (active : tx.status = .active) :
      Step db { db.setTx t { tx.setAppend i .settled with status := .aborted } with
        nextId := db.nextId + taken }
  /-- The `finally` of the append whose promise is stored. -/
  | forget (t : ℕ) (tx : Tx) (i : ℕ) (found : db.txs t = some tx)
      (stored : tx.appends.entry = some i) (settled : tx.appends.Settled i) :
      Step db (db.setTx t { tx with appends := tx.appends.drop })
  | commit (t : ℕ) (tx : Tx) (found : db.txs t = some tx) (active : tx.status = .active) :
      Step db { db.setTx t { tx with status := .closed, rows := [] } with
        committed := db.committed ++ tx.rows
        lock := unlocked db t }
  /-- Also what becomes of an aborted transaction, and of one whose process dies. -/
  | rollback (t : ℕ) (tx : Tx) (found : db.txs t = some tx) (running : tx.status ≠ .closed) :
      Step db { db.setTx t { tx with status := .closed, rows := [] } with lock := unlocked db t }
  /-- `record()` is called in a process. -/
  | record (p : ℕ) (params : RecordParams) :
      Step db { db with records := Function.update db.records p ((db.records p).join ⟨params, none⟩) }
  /-- Its turn has come: it opens a transaction and appends in it. -/
  | startRecord (p i t : ℕ) (params : RecordParams) (ready : (db.records p).Ready i ⟨params, none⟩)
      (fresh : db.txs t = none) :
      Step db { db.setTx t ⟨.active, true, [], Queue.empty.join ⟨contentOf params, .start⟩⟩ with
        records := Function.update db.records p
          ((db.records p).set i (.running ⟨params, some t⟩)) }
  /-- It settles when its transaction has ended. -/
  | settleRecord (p i t : ℕ) (params : RecordParams) (tx : Tx)
      (runs : (db.records p).Runs i ⟨params, some t⟩) (found : db.txs t = some tx)
      (ended : tx.status = .closed) :
      Step db { db with records := Function.update db.records p ((db.records p).set i .settled) }

/-- What any interleaving of steps can lead to. -/
inductive Reachable : Database → Prop
  | empty : Reachable .empty
  | step {db next : Database} (reached : Reachable db) (step : Step digests key db next) :
      Reachable next

theorem tailRow_ascending (rows : List ActivityRow) (ascending : Ascending rows) : tailRow rows = rows.getLast? :=
  greatest_ascending ActivityRow.id rows ascending

variable {digests key}

theorem Tagged.signature_ne_empty {content : ActivityRowContent} {prev signature : String}
    (tagged : Tagged digests key content prev signature) : signature ≠ "" := by
  obtain ⟨_, _, rfl⟩ := Option.map_eq_some_iff.mp tagged
  exact digests.hmac_ne_empty _ _

theorem linkTo_last (rows : List ActivityRow) (last : ActivityRow) (ascending : Ascending rows)
    (member : last ∈ rows.getLast?) (signed : last.signature ≠ "") :
    linkTo digests (tailSignature rows) = digests.hashSignature last.signature := by
  rw [tailSignature, tailRow_ascending rows ascending, Option.mem_def.mp member]
  simp [linkTo, signed]

end Droplet.Audit
