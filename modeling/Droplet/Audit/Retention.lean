import Droplet.Audit.Append
import Droplet.Audit.Tamper

/-! Retention of the activity chain (`services/audit-retention-purge.service.ts`) and rotation
of its key (`services/activity.singleton.ts`): a purge deletes the oldest ids up to the
first row it must keep, and what is left verifies under the ring of the day. -/

namespace Droplet.Audit

open HashChain

structure AuditPurgeOptions where
  batchSize : Option ℤ
  maxRowsPerTable : Option ℤ

def DEFAULT_BATCH_SIZE : ℤ := 5000
def DEFAULT_MAX_ROWS_PER_TABLE : ℤ := 100000

/-- `Math.max(1, option ?? fallback)`. -/
def atLeastOne (option : Option ℤ) (fallback : ℤ) : ℕ := (max 1 (option.getD fallback)).toNat

inductive IdFilter where
  | lt (id : ℤ)
  | lte (id : ℤ)

def IdFilter.matches : IdFilter → ℤ → Bool
  | .lt bound, id => decide (id < bound)
  | .lte bound, id => decide (id ≤ bound)

/-- The ids to delete: those before the first row to keep, or all up to the last old one;
`none` where there is nothing to delete. -/
def idFilter (rows : List ActivityRow) (cutoff : ℤ) : Option IdFilter :=
  match (findPage (rows.filter (fun row => decide (cutoff ≤ row.content.atMs))) none 1).head? with
  | some firstSurvivor => some (.lt firstSurvivor.id)
  | none =>
    match tailRow (rows.filter (fun row => decide (row.content.atMs < cutoff))) with
    | some lastOld => some (.lte lastOld.id)
    | none => none

/-- `droplet_purge_activity_rows`: the rows that are left, and how many went. -/
def purgeRows (rows : List ActivityRow) (ids : List ℤ) : List ActivityRow × ℕ :=
  (rows.filter (fun row => decide (row.id ∉ ids)),
    (rows.filter (fun row => decide (row.id ∈ ids))).length)

/-- The loop over the batches, `fuel` of them at most. -/
def purgeBatches (idFilter : IdFilter) (batchSize maxRowsPerTable : ℕ) :
    ℕ → List ActivityRow → ℕ → Option (List ActivityRow × ℕ)
  | 0, _, _ => none
  | fuel + 1, rows, deleted =>
    if deleted < maxRowsPerTable then
      let take := min batchSize (maxRowsPerTable - deleted)
      let batch := findPage (rows.filter (fun row => idFilter.matches row.id)) none take
      if batch.length = 0 then some (rows, deleted)
      else
        let (left, n) := purgeRows rows (batch.map ActivityRow.id)
        if batch.length < take then some (left, deleted + n)
        else purgeBatches idFilter batchSize maxRowsPerTable fuel left (deleted + n)
    else some (rows, deleted)

/-- A full batch takes a row at least, so there are never more batches than rows and one. -/
def purgeActivityRowPrefix (rows : List ActivityRow) (cutoff : ℤ) (batchSize maxRowsPerTable : ℕ) :
    Option (List ActivityRow × ℕ) :=
  match idFilter rows cutoff with
  | none => some (rows, 0)
  | some filter => purgeBatches filter batchSize maxRowsPerTable (rows.length + 1) rows 0

/-- What the purge did to the two tables that are not chained. -/
structure OtherDeletions where
  commandAuditDeleted : ℕ
  notificationDeleted : ℕ

def countText (n : ℕ) : Json.NumberText where
  text := Nat.toDigits 10 n
  nonempty := by simp
  digits := by
    intro c member
    exact .inl (Nat.isDigit_of_mem_toDigits (by decide) (by decide) member)

def purgeParams (activityDeleted : ℕ) (others : OtherDeletions) (olderThanDays : ℤ) (now : ℤ) :
    RecordParams where
  kind := .system
  severity := .info
  sourceIcon := "shield"
  what := "Audit log purged"
  sub := some (toString activityDeleted ++ " activity rows older than " ++ toString olderThanDays ++
    " days")
  refs := .obj [
    ("action", .str "audit.retention_purge"),
    ("activityDeleted", .num (countText activityDeleted)),
    ("commandAuditDeleted", .num (countText others.commandAuditDeleted)),
    ("notificationDeleted", .num (countText others.notificationDeleted)),
    ("retentionDays", .num (countText olderThanDays.toNat))]
  actor := ⟨.system, none⟩
  atMs := now

/-- The table, the ring of keys, and everything that was ever appended. -/
structure Ledger (Key : Type) where
  rows : List ActivityRow
  history : List ActivityRow
  nextId : ℤ
  retired : List (AuditKeyEpoch Key)
  current : AuditKeyEpoch Key

def Ledger.empty {Key : Type} (current : AuditKeyEpoch Key) : Ledger Key := ⟨[], [], 1, [], current⟩

/-- `getAuditKeyring`: oldest first, the current key last. -/
def Ledger.keyring {Key : Type} (ledger : Ledger Key) : List (AuditKeyEpoch Key) :=
  ledger.retired ++ [ledger.current]

variable {Key : Type} (digests : Digests Key)

/-- One append by itself; nothing is written where the signer throws. Appends that were
rolled back before it have taken `skipped` ids. -/
def appendRow (ledger : Ledger Key) (params : RecordParams) (skipped : ℕ) : Ledger Key :=
  let prevSignatureHash := linkTo digests (tailSignature ledger.rows)
  match sign digests ledger.current.key (contentOf params) prevSignatureHash with
  | none => ledger
  | some signature =>
    let row : ActivityRow :=
      ⟨ledger.nextId + skipped, storedContent (contentOf params), signature, prevSignatureHash⟩
    { ledger with
      rows := ledger.rows ++ [row]
      history := ledger.history ++ [row]
      nextId := ledger.nextId + skipped + 1 }

def cutoffOf (now olderThanDays : ℤ) : ℤ := now - olderThanDays * 86400000

/-- The rows a purge leaves and how many it deletes. -/
def purged (ledger : Ledger Key) (now olderThanDays : ℤ) (options : AuditPurgeOptions) :
    Option (List ActivityRow × ℕ) :=
  if olderThanDays ≤ 0 then some (ledger.rows, 0)
  else purgeActivityRowPrefix ledger.rows (cutoffOf now olderThanDays)
    (atLeastOne options.batchSize DEFAULT_BATCH_SIZE)
    (atLeastOne options.maxRowsPerTable DEFAULT_MAX_ROWS_PER_TABLE)

/-- A run of the purge, with its own row at the instant `recordedAt`; `none` where the
recorder fails, which the purge does not notice. -/
def purgeAuditLogs (ledger : Ledger Key) (now olderThanDays : ℤ) (options : AuditPurgeOptions)
    (others : OtherDeletions) (recordedAt : Option ℤ) (skipped : ℕ) : Option (Ledger Key) :=
  match purged ledger now olderThanDays options with
  | none => none
  | some (rows, activityDeleted) =>
    let left := { ledger with rows := rows }
    match recordedAt with
    | some instant =>
      if 0 < activityDeleted then
        some (appendRow digests left (purgeParams activityDeleted others olderThanDays instant)
          skipped)
      else some left
    | none => some left

/-- A key that is already in the ring is refused. -/
def adoptAuditKey (ledger : Ledger Key) (next : AuditKeyEpoch Key) : Ledger Key :=
  if next.keyId = ledger.current.keyId ∨ ∃ epoch ∈ ledger.retired, epoch.keyId = next.keyId then
    ledger
  else { ledger with retired := ledger.retired ++ [ledger.current], current := next }

inductive Event (Key : Type) where
  | append (params : RecordParams) (skipped : ℕ)
  | purge (now olderThanDays : ℤ) (options : AuditPurgeOptions) (others : OtherDeletions)
      (recordedAt : Option ℤ) (skipped : ℕ)
  | rotate (next : AuditKeyEpoch Key)

def perform (ledger : Ledger Key) : Event Key → Option (Ledger Key)
  | .append params skipped => some (appendRow digests ledger params skipped)
  | .purge now olderThanDays options others recordedAt skipped =>
    purgeAuditLogs digests ledger now olderThanDays options others recordedAt skipped
  | .rotate next => some (adoptAuditKey ledger next)

def run (ledger : Ledger Key) : List (Event Key) → Option (Ledger Key)
  | [] => some ledger
  | event :: rest => (perform digests ledger event).bind (fun next => run next rest)

theorem findPage_none (rows : List ActivityRow) (take : ℕ) (ascending : Ascending rows) :
    findPage rows none take = rows.take take :=
  findPage_eq [] rows take ascending

theorem idFilter_some (rows : List ActivityRow) (cutoff : ℤ) (filter : IdFilter)
    (ascending : Ascending rows) (found : idFilter rows cutoff = some filter) :
    ∃ old kept, rows = old ++ kept ∧ (∀ row ∈ old, row.content.atMs < cutoff) ∧
      (∀ row ∈ old, filter.matches row.id = true) ∧
      ∀ row ∈ kept, filter.matches row.id = false := by
  have survivors := ascending.filter (fun row => decide (cutoff ≤ row.content.atMs))
  unfold idFilter at found
  rw [findPage_none _ _ survivors] at found
  cases first : rows.filter (fun row => decide (cutoff ≤ row.content.atMs)) with
  | cons survivor others =>
    simp only [first, List.take_succ_cons, List.head?_cons, Option.some.injEq] at found
    subst found
    obtain ⟨old, rest, rfl, young, _, _⟩ := List.filter_eq_cons_iff.mp first
    obtain ⟨_, later, across⟩ := List.pairwise_append.mp ascending
    refine ⟨old, survivor :: rest, rfl, ?_, ?_, ?_⟩
    · intro row member
      simpa using young row member
    · intro row member
      exact decide_eq_true (across row member survivor List.mem_cons_self)
    · intro row member
      refine decide_eq_false (not_lt.mpr ?_)
      rcases List.mem_cons.mp member with rfl | after
      · exact le_rfl
      · exact le_of_lt ((List.pairwise_cons.mp later).1 row after)
  | nil =>
    have old : ∀ row ∈ rows, row.content.atMs < cutoff := by
      intro row member
      simpa using List.filter_eq_nil_iff.mp first row member
    have all : rows.filter (fun row => decide (row.content.atMs < cutoff)) = rows :=
      List.filter_eq_self.mpr (fun row member => decide_eq_true (old row member))
    simp only [first, List.take_nil, List.head?_nil, all, tailRow_ascending rows ascending] at found
    refine ⟨rows, [], by simp, old, ?_, by simp⟩
    rcases List.eq_nil_or_concat rows with rfl | ⟨front, last, rfl⟩
    · simp
    · simp only [List.concat_eq_append, List.getLast?_append, List.getLast?_singleton,
        Option.some_or, Option.some.injEq] at found
      subst found
      intro row member
      rw [List.concat_eq_append, List.mem_append, List.mem_singleton] at member
      refine decide_eq_true ?_
      rcases member with earlier | rfl
      · rw [List.concat_eq_append, Ascending, List.pairwise_append] at ascending
        exact le_of_lt (ascending.2.2 row earlier last (by simp))
      · exact le_rfl

theorem purgeRows_front (front rest : List ActivityRow) (ascending : Ascending (front ++ rest)) :
    purgeRows (front ++ rest) (front.map ActivityRow.id) = (rest, front.length) := by
  obtain ⟨_, _, across⟩ := List.pairwise_append.mp ascending
  have outside : ∀ row ∈ rest, row.id ∉ front.map ActivityRow.id := by
    intro row member inside
    obtain ⟨twin, earlier, same⟩ := List.mem_map.mp inside
    have order := across twin earlier row member
    omega
  have inside : ∀ row ∈ front, row.id ∈ front.map ActivityRow.id :=
    fun row member => List.mem_map_of_mem member
  simp only [purgeRows, List.filter_append, Prod.mk.injEq]
  constructor
  · rw [List.filter_eq_nil_iff.mpr, List.filter_eq_self.mpr, List.nil_append]
    · intro row member
      exact decide_eq_true (outside row member)
    · intro row member
      simp [inside row member]
  · rw [List.filter_eq_self.mpr, List.filter_eq_nil_iff.mpr, List.append_nil]
    · intro row member
      simp [outside row member]
    · intro row member
      exact decide_eq_true (inside row member)

theorem purgeBatches_spec (filter : IdFilter) (batchSize maxRowsPerTable : ℕ)
    (positive : 0 < batchSize) (old kept : List ActivityRow) (fuel deleted : ℕ)
    (ascending : Ascending (old ++ kept)) (inside : ∀ row ∈ old, filter.matches row.id = true)
    (outside : ∀ row ∈ kept, filter.matches row.id = false) (enough : old.length < fuel) :
    ∃ k, purgeBatches filter batchSize maxRowsPerTable fuel (old ++ kept) deleted =
      some (old.drop k ++ kept, deleted + (old.take k).length) := by
  induction fuel generalizing old deleted with
  | zero => omega
  | succ fuel ih =>
    have matching : (old ++ kept).filter (fun row => filter.matches row.id) = old := by
      rw [List.filter_append, List.filter_eq_self.mpr inside, List.filter_eq_nil_iff.mpr, List.append_nil]
      intro row member
      simp [outside row member]
    have oldAscending : Ascending old := (List.pairwise_append.mp ascending).1
    rw [purgeBatches]
    split
    · next room =>
      have some_room : 0 < min batchSize (maxRowsPerTable - deleted) := by omega
      generalize min batchSize (maxRowsPerTable - deleted) = take at some_room ⊢
      simp only [matching, findPage_none old take oldAscending]
      have parts : old ++ kept = old.take take ++ (old.drop take ++ kept) := by
        rw [← List.append_assoc, List.take_append_drop]
      have deletion := purgeRows_front (old.take take) (old.drop take ++ kept) (parts ▸ ascending)
      rw [← parts] at deletion
      split
      · exact ⟨0, by simp⟩
      · next some_rows =>
        rw [deletion]
        split
        · exact ⟨take, rfl⟩
        · next full =>
          have shorter : (old.drop take).length < fuel := by
            rw [List.length_take] at full
            rw [List.length_drop]
            omega
          obtain ⟨k, rest⟩ := ih (old.drop take) (deleted + (old.take take).length) (by
              rw [parts] at ascending
              exact (List.pairwise_append.mp ascending).2.1)
            (fun row member => inside row (List.mem_of_mem_drop member)) shorter
          refine ⟨take + k, ?_⟩
          rw [rest, List.drop_drop, List.take_add, List.length_append, Nat.add_assoc]
    · exact ⟨0, by simp⟩

/-- A purge returns; it deletes a beginning of the rows, of which none is young enough to
keep. -/
theorem purged_spec (ledger : Ledger Key) (now olderThanDays : ℤ) (options : AuditPurgeOptions)
    (ascending : Ascending ledger.rows) :
    ∃ gone left, ledger.rows = gone ++ left ∧
      purged ledger now olderThanDays options = some (left, gone.length) ∧
      ∀ row ∈ gone, row.content.atMs < cutoffOf now olderThanDays := by
  unfold purged
  split
  · exact ⟨[], ledger.rows, rfl, rfl, by simp⟩
  · unfold purgeActivityRowPrefix
    cases found : idFilter ledger.rows (cutoffOf now olderThanDays) with
    | none => exact ⟨[], ledger.rows, rfl, rfl, by simp⟩
    | some filter =>
      obtain ⟨old, kept, parts, young, inside, outside⟩ := idFilter_some _ _ filter ascending found
      have positive : 0 < atLeastOne options.batchSize DEFAULT_BATCH_SIZE := by
        unfold atLeastOne
        omega
      obtain ⟨k, batches⟩ := purgeBatches_spec filter _
        (atLeastOne options.maxRowsPerTable DEFAULT_MAX_ROWS_PER_TABLE) positive old kept
        (ledger.rows.length + 1) 0 (parts ▸ ascending) inside outside (by
          rw [parts, List.length_append]
          omega)
      refine ⟨old.take k, old.drop k ++ kept, ?_, ?_, ?_⟩
      · rw [← List.append_assoc, List.take_append_drop, parts]
      · simp only
        rw [← parts] at batches
        rw [batches, Nat.zero_add]
      · intro row member
        exact young row (List.mem_of_mem_take member)

/-- The rows are what is left at the end of the history, and they are sound under the ring. -/
structure LedgerInv (ledger : Ledger Key) : Prop where
  history : Ascending ledger.history
  below : ∀ row ∈ ledger.history, row.id < ledger.nextId
  left : ∃ gone, ledger.history = gone ++ ledger.rows
  linked : RowsLinked digests ledger.rows
  assigned : Assigned (Accepts digests ledger.keyring) 0 ledger.rows

theorem LedgerInv.empty (current : AuditKeyEpoch Key) : LedgerInv digests (.empty current) :=
  ⟨List.Pairwise.nil, by simp [Ledger.empty], ⟨[], rfl⟩, List.IsChain.nil, assigned_nil _ 0⟩

variable {digests}

variable {ledger : Ledger Key}

section

variable (inv : LedgerInv digests ledger)
include inv

theorem LedgerInv.ascending : Ascending ledger.rows := by
  obtain ⟨gone, parts⟩ := inv.left
  have history := inv.history
  rw [parts] at history
  exact (List.pairwise_append.mp history).2.1

theorem LedgerInv.sound : Sound digests ledger.keyring ledger.rows := by
  obtain ⟨epochs, ordered, _, matched⟩ := inv.assigned
  exact ⟨inv.linked, epochs, ordered, matched⟩

theorem LedgerInv.append (params : RecordParams) (skipped : ℕ) :
    LedgerInv digests (appendRow digests ledger params skipped) := by
  cases signed : sign digests ledger.current.key (contentOf params)
      (linkTo digests (tailSignature ledger.rows)) with
  | none =>
    simp only [appendRow, signed]
    exact inv
  | some signature =>
    simp only [appendRow, signed]
    obtain ⟨gone, parts⟩ := inv.left
    have here : Accepts digests ledger.keyring ledger.retired.length
        ⟨ledger.nextId + skipped, storedContent (contentOf params), signature,
          linkTo digests (tailSignature ledger.rows)⟩ := by
      refine ⟨ledger.current, by simp [Ledger.keyring], ?_⟩
      exact Tagged.covered signed (storedContent_covered (contentOf params)).symm
    constructor
    · refine List.pairwise_append.mpr ⟨inv.history, List.pairwise_singleton _ _, ?_⟩
      intro row member last same
      rw [List.mem_singleton.mp same]
      have low := inv.below row member
      simp only
      omega
    · intro row member
      rcases List.mem_append.mp member with earlier | last
      · have low := inv.below row earlier
        simp only
        omega
      · rw [List.mem_singleton.mp last]
        simp
    · exact ⟨gone, by rw [parts, List.append_assoc]⟩
    · rw [RowsLinked, linked_append_singleton]
      refine ⟨inv.linked, ?_⟩
      intro last member
      obtain ⟨i, epoch, _, tagged⟩ := inv.sound.accepted last (List.mem_of_getLast? member)
      exact linkTo_last ledger.rows last inv.ascending member tagged.signature_ne_empty
    · refine inv.assigned.append ?_ (Nat.zero_le _) here
      intro i row accepted
      obtain ⟨epoch, found, _⟩ := accepted
      obtain ⟨bound, _⟩ := List.getElem?_eq_some_iff.mp found
      simp only [Ledger.keyring, List.length_append, List.length_singleton] at bound
      omega

theorem LedgerInv.drop (gone left : List ActivityRow)
    (parts : ledger.rows = gone ++ left) : LedgerInv digests { ledger with rows := left } := by
  obtain ⟨before, history⟩ := inv.left
  have linked := inv.linked
  have assigned := inv.assigned
  rw [parts, ← List.append_nil (gone ++ left)] at linked assigned
  exact ⟨inv.history, inv.below, ⟨before ++ gone, by rw [history, parts, List.append_assoc]⟩,
    Linked.part linked, assigned.part⟩

theorem LedgerInv.adopt (next : AuditKeyEpoch Key) : LedgerInv digests (adoptAuditKey ledger next) := by
  unfold adoptAuditKey
  split
  · exact inv
  · refine ⟨inv.history, inv.below, inv.left, inv.linked, inv.assigned.mono ?_⟩
    intro i row accepted
    obtain ⟨epoch, found, tagged⟩ := accepted
    obtain ⟨bound, _⟩ := List.getElem?_eq_some_iff.mp found
    refine ⟨epoch, ?_, tagged⟩
    show (ledger.keyring ++ [next])[i]? = some epoch
    rw [List.getElem?_append_left bound]
    exact found

theorem perform_inv (event : Event Key) :
    ∃ next, perform digests ledger event = some next ∧ LedgerInv digests next := by
  cases event with
  | append params skipped => exact ⟨_, rfl, inv.append params skipped⟩
  | rotate next => exact ⟨_, rfl, inv.adopt next⟩
  | purge now olderThanDays options others recordedAt skipped =>
    obtain ⟨gone, left, parts, returns, _⟩ := purged_spec ledger now olderThanDays options inv.ascending
    have dropped := inv.drop gone left parts
    simp only [perform, purgeAuditLogs, returns]
    cases recordedAt with
    | none => exact ⟨_, rfl, dropped⟩
    | some instant =>
      simp only
      split
      · exact ⟨_, rfl, dropped.append _ skipped⟩
      · exact ⟨_, rfl, dropped⟩

end

theorem run_inv (events : List (Event Key)) (inv : LedgerInv digests ledger) :
    ∃ next, run digests ledger events = some next ∧ LedgerInv digests next := by
  induction events generalizing ledger with
  | nil => exact ⟨ledger, rfl, inv⟩
  | cons event rest ih =>
    obtain ⟨next, performed, kept⟩ := perform_inv inv event
    obtain ⟨final, returns, invFinal⟩ := ih kept
    exact ⟨final, by rw [run, performed, Option.bind_some, returns], invFinal⟩

theorem appendRow_keeps (digests : Digests Key) (ledger : Ledger Key) (params : RecordParams)
    (skipped : ℕ) (row : ActivityRow) (member : row ∈ ledger.rows) :
    row ∈ (appendRow digests ledger params skipped).rows := by
  simp only [appendRow]
  split
  · exact member
  · exact List.mem_append_left _ member

theorem purgeAuditLogs_keeps (digests : Digests Key) (ledger : Ledger Key) (now olderThanDays : ℤ)
    (options : AuditPurgeOptions) (others : OtherDeletions) (recordedAt : Option ℤ) (skipped : ℕ)
    (ascending : Ascending ledger.rows) :
    ∃ next, purgeAuditLogs digests ledger now olderThanDays options others recordedAt skipped =
        some next ∧
      ∀ row ∈ ledger.rows, cutoffOf now olderThanDays ≤ row.content.atMs → row ∈ next.rows := by
  obtain ⟨gone, left, parts, returns, young⟩ := purged_spec ledger now olderThanDays options ascending
  have kept : ∀ row ∈ ledger.rows, cutoffOf now olderThanDays ≤ row.content.atMs → row ∈ left := by
    intro row member recent
    rw [parts] at member
    rcases List.mem_append.mp member with deleted | survives
    · exact absurd recent (not_le.mpr (young row deleted))
    · exact survives
  simp only [purgeAuditLogs, returns]
  cases recordedAt with
  | none => exact ⟨_, rfl, kept⟩
  | some instant =>
    simp only
    split
    · refine ⟨_, rfl, ?_⟩
      intro row member recent
      exact appendRow_keeps digests _ _ _ row (kept row member recent)
    · exact ⟨_, rfl, kept⟩

/-- After every run of appends, purges and rotations the rows are the end of everything
ever appended, the walk under the ring of the day counts them all and says ok, and no
purge deletes a row that is not older than its cutoff. -/
theorem retention_keeps_verification (digests : Digests Key) (current : AuditKeyEpoch Key)
    (events : List (Event Key)) :
    ∃ ledger, run digests (.empty current) events = some ledger ∧
      Ascending ledger.history ∧ (∃ gone, ledger.history = gone ++ ledger.rows) ∧
      verifyActivityChain digests ledger.keyring ledger.rows none =
        some ⟨true, ledger.rows.length, none⟩ ∧
      ∀ now olderThanDays options others recordedAt skipped, ∃ next,
        purgeAuditLogs digests ledger now olderThanDays options others recordedAt skipped =
            some next ∧
          ∀ row ∈ ledger.rows, cutoffOf now olderThanDays ≤ row.content.atMs →
            row ∈ next.rows := by
  obtain ⟨ledger, returns, inv⟩ := run_inv events (LedgerInv.empty digests current)
  refine ⟨ledger, returns, inv.history, inv.left,
    (verifyActivityChain_ok_iff digests _ _ inv.ascending).mpr inv.sound, ?_⟩
  intro now olderThanDays options others recordedAt skipped
  exact purgeAuditLogs_keeps digests ledger now olderThanDays options others recordedAt skipped
    inv.ascending

end Droplet.Audit
