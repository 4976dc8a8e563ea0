import Droplet.Audit.Append
import Droplet.Audit.Tamper

/-! The chain never forks, whatever the processes and transactions do: only the transaction
that holds the lock has rows that are not committed, and one append of it at a time reads
the tail, signs and inserts. -/

namespace Droplet.Audit

open HashChain Turns

variable {Key : Type} (digests : Digests Key) (key : Key)

/-- Rows in ascending id below the next one, linked from the origin and signed. -/
structure Good (bound : ℤ) (rows : List ActivityRow) : Prop where
  ascending : Ascending rows
  below : ∀ row ∈ rows, row.id < bound
  linked : RowsLinked digests rows
  origin : ∀ first ∈ rows.head?, first.prevSignatureHash = ""
  tagged : ∀ row ∈ rows, Tagged digests key row.content row.prevSignatureHash row.signature

variable {digests key}

theorem Good.empty (bound : ℤ) : Good digests key bound [] :=
  ⟨List.Pairwise.nil, by simp, List.IsChain.nil, by simp, by simp⟩

variable {rows : List ActivityRow}

theorem Good.mono {bound later : ℤ} (good : Good digests key bound rows) (more : bound ≤ later) :
    Good digests key later rows :=
  { good with below := fun row member => lt_of_lt_of_le (good.below row member) more }

theorem Good.snoc {bound : ℤ} {content : ActivityRowContent} {prevSignatureHash signature : String}
    (good : Good digests key bound rows) (link : prevSignatureHash = linkTo digests (tailSignature rows))
    (tagged : Tagged digests key content prevSignatureHash signature) :
    Good digests key (bound + 1)
      (rows ++ [⟨bound, storedContent content, signature, prevSignatureHash⟩]) := by
  constructor
  · refine List.pairwise_append.mpr ⟨good.ascending, List.pairwise_singleton _ _, ?_⟩
    intro row member last same
    rw [List.mem_singleton.mp same]
    exact good.below row member
  · intro row member
    rcases List.mem_append.mp member with earlier | last
    · exact (good.below row earlier).trans (by omega)
    · rw [List.mem_singleton.mp last]
      simp
  · rw [RowsLinked, linked_append_singleton]
    refine ⟨good.linked, ?_⟩
    intro last member
    have signed := (good.tagged last (List.mem_of_getLast? member)).signature_ne_empty
    exact link.trans (linkTo_last rows last good.ascending member signed)
  · intro first member
    rcases List.eq_nil_or_concat rows with rfl | ⟨front, last, rfl⟩
    · obtain rfl := Option.some.inj member
      exact link
    · apply good.origin first
      simpa [List.concat_eq_append, List.head?_append] using member
  · intro row member
    rcases List.mem_append.mp member with earlier | last
    · exact good.tagged row earlier
    · rw [List.mem_singleton.mp last]
      exact tagged.covered (storedContent_covered content).symm

variable (digests key)

/-- What an append knows at its stage: the lock is its transaction's, and what it has read
is still the tail. -/
def StageOk (held : Prop) (tail : Option String) (append : Append) : Prop :=
  match append.stage with
  | .start => True
  | .locked => held
  | .read seen => held ∧ seen = tail
  | .signed prevSignatureHash signature =>
    held ∧ prevSignatureHash = linkTo digests tail ∧
      Tagged digests key append.content prevSignatureHash signature
  | .inserted => True

structure Inv (db : Database) : Prop where
  chain : Good digests key db.nextId db.committed
  own : ∀ t tx, db.txs t = some tx → Good digests key db.nextId (db.committed ++ tx.rows)
  held : ∀ t tx, db.txs t = some tx → tx.rows ≠ [] → db.lock = some t
  orderly : ∀ t tx, db.txs t = some tx → Orderly tx.appends
  stages : ∀ t tx i append, Working db t tx i append → tx.status = .active →
    StageOk digests key (db.lock = some t) (tailSignature (db.committed ++ tx.rows)) append

theorem Inv.empty : Inv digests key .empty := by
  constructor
  · exact Good.empty 1
  iterate 3
    · intro t tx found
      cases found
  · intro t tx i append working
    cases working.found

variable {digests key}

theorem StageOk.free {held held' : Prop} {tail tail' : Option String} {append : Append}
    (ok : StageOk digests key held tail append) (free : ¬ held) : StageOk digests key held' tail' append := by
  unfold StageOk at ok ⊢
  split <;> simp_all

theorem found_update {txs : ℕ → Option Tx} {t u : ℕ} {tx other : Tx}
    (found : Function.update txs t (some tx) u = some other) :
    (u = t ∧ other = tx) ∨ (u ≠ t ∧ txs u = some other) := by
  by_cases same : u = t
  · subst same
    rw [Function.update_self] at found
    exact .inl ⟨rfl, (Option.some.inj found).symm⟩
  · rw [Function.update_of_ne same] at found
    exact .inr ⟨same, found⟩

variable {db : Database}

/-- One transaction changes, perhaps with the lock, the committed rows and the sequence,
while nothing is taken from another that holds the lock. -/
theorem Inv.change (inv : Inv digests key db) (t : ℕ) (tx : Tx)
    (committed : List ActivityRow) (nextId : ℤ) (lock : Option ℕ) (records : ℕ → Queue Record)
    (later : db.nextId ≤ nextId) (chain : Good digests key nextId committed)
    (others : ∀ u, u ≠ t → db.lock = some u → lock = some u ∧ committed = db.committed)
    (own : Good digests key nextId (committed ++ tx.rows)) (held : tx.rows ≠ [] → lock = some t)
    (orderly : Orderly tx.appends) (stages : ∀ i append, tx.appends.Runs i append → tx.status = .active →
      StageOk digests key (lock = some t) (tailSignature (committed ++ tx.rows)) append) :
    Inv digests key ⟨committed, nextId, lock, Function.update db.txs t (some tx), records⟩ := by
  constructor
  · exact chain
  · intro u other found
    rcases found_update found with ⟨rfl, rfl⟩ | ⟨apart, old⟩
    · exact own
    · by_cases holds : db.lock = some u
      · show Good digests key nextId (committed ++ other.rows)
        rw [(others u apart holds).2]
        exact (inv.own u other old).mono later
      · have none_yet : other.rows = [] := by
          by_contra some_rows
          exact holds (inv.held u other old some_rows)
        rw [none_yet, List.append_nil]
        exact chain
  · intro u other found some_rows
    rcases found_update found with ⟨rfl, rfl⟩ | ⟨apart, old⟩
    · exact held some_rows
    · exact (others u apart (inv.held u other old some_rows)).1
  · intro u other found
    rcases found_update found with ⟨rfl, rfl⟩ | ⟨apart, old⟩
    · exact orderly
    · exact inv.orderly u other old
  · intro u other i append working active
    rcases found_update working.found with ⟨rfl, rfl⟩ | ⟨apart, old⟩
    · exact stages i append working.runs active
    · have ok := inv.stages u other i append ⟨old, working.runs⟩ active
      by_cases holds : db.lock = some u
      · obtain ⟨still, rows⟩ := others u apart holds
        simp only [still, rows]
        simpa only [holds] using ok
      · exact ok.free holds

theorem Inv.setTx (inv : Inv digests key db) {t : ℕ} {old tx : Tx}
    (found : db.txs t = some old) (rows : tx.rows = old.rows) (orderly : Orderly tx.appends)
    (stages : ∀ i append, tx.appends.Runs i append → tx.status = .active →
      StageOk digests key (db.lock = some t) (tailSignature (db.committed ++ old.rows)) append) :
    Inv digests key (db.setTx t tx) := by
  refine inv.change t tx db.committed db.nextId db.lock db.records le_rfl inv.chain
    (fun u _ holds => ⟨holds, rfl⟩) ?_ ?_ orderly ?_
  · rw [rows]
    exact inv.own t old found
  · rw [rows]
    exact inv.held t old found
  · rw [rows]
    exact stages

theorem Inv.setAppend (inv : Inv digests key db) {t : ℕ} {tx : Tx} {i : ℕ}
    {append : Append} (working : Working db t tx i append) (phase : Phase Append)
    (stage : ∀ next, phase = .running next → tx.status = .active →
      StageOk digests key (db.lock = some t) (tailSignature (db.committed ++ tx.rows)) next) :
    Inv digests key (db.setTx t (tx.setAppend i phase)) := by
  have orderly := inv.orderly t tx working.found
  refine inv.setTx working.found rfl (orderly.runs_set phase working.runs) ?_
  intro j next runs active
  rcases runs_set runs with ⟨rfl, same⟩ | ⟨_, still⟩
  · exact stage next same active
  · exact inv.stages t tx j next ⟨working.found, still⟩ active

theorem unlocked_other {t u : ℕ} (apart : u ≠ t) (holds : db.lock = some u) : unlocked db t = some u := by
  rw [unlocked, holds, if_neg]
  intro same
  exact apart (Option.some.inj same)

/-- The queues of `record()` hold no rows. -/
theorem Inv.records (inv : Inv digests key db) (records : ℕ → Queue Record) :
    Inv digests key { db with records := records } :=
  ⟨inv.chain, inv.own, inv.held, inv.orderly, fun t tx i append working active =>
    inv.stages t tx i append ⟨working.found, working.runs⟩ active⟩

theorem Inv.opened (inv : Inv digests key db) (t : ℕ) (readCommitted : Bool)
    (appends : Queue Append) (orderly : Orderly appends) (idle : ∀ i append, ¬ appends.Runs i append) :
    Inv digests key (db.setTx t ⟨.active, readCommitted, [], appends⟩) := by
  refine inv.change t _ db.committed db.nextId db.lock db.records le_rfl inv.chain
    (fun u _ holds => ⟨holds, rfl⟩) ?_ ?_ orderly ?_
  · simpa using inv.chain
  · simp
  · intro i append runs
    exact absurd runs (idle i append)

theorem Inv.ended (inv : Inv digests key db) {t : ℕ} {tx : Tx} (found : db.txs t = some tx)
    (committed : List ActivityRow) (chain : Good digests key db.nextId committed)
    (others : ∀ u, u ≠ t → db.lock = some u → committed = db.committed) :
    Inv digests key { db.setTx t { tx with status := .closed, rows := [] } with
      committed := committed
      lock := unlocked db t } := by
  refine inv.change t _ committed db.nextId (unlocked db t) db.records le_rfl chain ?_ ?_ (by simp)
    (inv.orderly t tx found) ?_
  · intro u apart holds
    exact ⟨unlocked_other apart holds, others u apart holds⟩
  · simpa using chain
  · intro j next _ closed
    cases closed

theorem empty_idle (i : ℕ) (append : Append) : ¬ (Queue.empty : Queue Append).Runs i append := by
  intro runs
  obtain ⟨_, found⟩ := runs
  simp [Queue.empty] at found

theorem step_inv {db next : Database} (inv : Inv digests key db) (step : Step digests key db next) :
    Inv digests key next := by
  cases step with
  | begin t readCommitted fresh =>
    exact inv.opened t readCommitted .empty .empty empty_idle
  | call t tx params found =>
    refine inv.setTx found rfl ((inv.orderly t tx found).join _) ?_
    intro i append runs active
    exact inv.stages t tx i append ⟨found, runs_join runs⟩ active
  | start t tx i content found ready =>
    refine inv.setTx found rfl ((inv.orderly t tx found).start _ ready) ?_
    intro j append runs active
    rcases runs_set runs with ⟨_, same⟩ | ⟨_, still⟩
    · obtain rfl := Phase.running.inj same
      trivial
    · exact inv.stages t tx j append ⟨found, still⟩ active
  | lock t tx i content working active free =>
    have orderly := inv.orderly t tx working.found
    refine inv.change t _ db.committed db.nextId (some t) db.records le_rfl inv.chain ?_
      (inv.own t tx working.found) (fun _ => rfl) (orderly.runs_set _ working.runs) ?_
    · intro u apart holds
      rcases free with none | own
      · rw [holds] at none
        cases none
      · exact absurd (Option.some.inj (holds.symm.trans own)) apart
    · intro j append runs _
      rcases runs_set runs with ⟨_, same⟩ | ⟨other, still⟩
      · split at same
        · obtain rfl := Phase.running.inj same
          exact rfl
        · cases same
      · exact absurd (orderly.single working.runs still) other
  | read t tx i content working active =>
    apply inv.setAppend working
    intro next same _
    obtain rfl := Phase.running.inj same
    exact ⟨inv.stages t tx i _ working active, rfl⟩
  | sign t tx i content tail signature working signed =>
    apply inv.setAppend working
    intro next same active
    obtain rfl := Phase.running.inj same
    obtain ⟨held, seen⟩ := inv.stages t tx i _ working active
    exact ⟨held, by rw [seen], signed⟩
  | insert t tx i content prevSignatureHash signature working active =>
    have orderly := inv.orderly t tx working.found
    obtain ⟨held, link, tagged⟩ := inv.stages t tx i _ working active
    refine inv.change t _ db.committed (db.nextId + 1) db.lock db.records (by omega)
      (inv.chain.mono (by omega)) (fun u _ holds => ⟨holds, rfl⟩) ?_ (fun _ => held)
      (orderly.runs_set _ working.runs) ?_
    · have longer := (inv.own t tx working.found).snoc link tagged
      rwa [List.append_assoc] at longer
    · intro j append runs _
      rcases runs_set runs with ⟨_, same⟩ | ⟨other, still⟩
      · obtain rfl := Phase.running.inj same
        trivial
      · exact absurd (orderly.single working.runs still) other
  | settle t tx i append working =>
    apply inv.setAppend working
    intro next same
    cases same
  | abort t tx i append taken working active =>
    have orderly := inv.orderly t tx working.found
    refine inv.change t _ db.committed (db.nextId + taken) db.lock db.records (by omega)
      (inv.chain.mono (by omega)) (fun u _ holds => ⟨holds, rfl⟩)
      ((inv.own t tx working.found).mono (by omega)) (inv.held t tx working.found)
      (orderly.runs_set _ working.runs) ?_
    intro j next _ aborted
    cases aborted
  | forget t tx i found stored settled =>
    refine inv.setTx found rfl ((inv.orderly t tx found).drop stored settled) ?_
    intro j append runs active
    exact inv.stages t tx j append ⟨found, runs⟩ active
  | commit t tx found active =>
    apply inv.ended found (db.committed ++ tx.rows) (inv.own t tx found)
    intro u apart holds
    -- Another transaction has the lock, so this one has inserted nothing.
    have none_yet : tx.rows = [] := by
      by_contra some_rows
      have own := inv.held t tx found some_rows
      exact apart (Option.some.inj (holds.symm.trans own))
    rw [none_yet, List.append_nil]
  | rollback t tx found running =>
    exact inv.ended found db.committed inv.chain (fun _ _ _ => rfl)
  | record | settleRecord => exact inv.records _
  | startRecord p i t params ready fresh =>
    have opened := inv.opened t true (Queue.empty.join ⟨contentOf params, .start⟩)
      (Orderly.empty.join _) (fun j append runs => empty_idle j append (runs_join runs))
    exact opened.records _

theorem reachable_inv (reachable : Reachable digests key db) : Inv digests key db := by
  induction reachable with
  | empty => exact Inv.empty digests key
  | step _ step ih => exact step_inv ih step

theorem Good.sound {bound : ℤ} (good : Good digests key bound rows) (keyId : String) :
    Sound digests [⟨keyId, key⟩] rows := by
  refine ⟨good.linked, List.replicate rows.length 0, ?_, ?_⟩
  · exact List.pairwise_replicate.mpr (.inr le_rfl)
  · rw [List.forall₂_iff_get]
    refine ⟨by simp, ?_⟩
    intro i _ bound
    simp only [List.get_eq_getElem, List.getElem_replicate]
    exact ⟨⟨keyId, key⟩, rfl, good.tagged _ (List.getElem_mem bound)⟩

/-- In every state that processes and transactions can reach, the committed rows in
ascending id are one chain from the origin, and the walk over them says ok. -/
theorem chain_never_forks (db : Database) (reachable : Reachable digests key db) :
    Ascending db.committed ∧
      (∀ first ∈ db.committed.head?, first.prevSignatureHash = "") ∧
      db.committed.IsChain (fun row next =>
        next.prevSignatureHash = digests.hashSignature row.signature) ∧
      verifyActivityChain digests [⟨"current", key⟩] db.committed none =
        some ⟨true, db.committed.length, none⟩ := by
  have good := (reachable_inv reachable).chain
  exact ⟨good.ascending, good.origin, good.linked,
    (verifyActivityChain_ok_iff digests _ _ good.ascending).mpr (good.sound "current")⟩

/-! Two processes, whose calls of `record()` overlap. -/

def noted (what : String) : RecordParams :=
  ⟨.system, .info, "shield", what, none, .null, ⟨.system, none⟩, 0⟩

set_option maxRecDepth 4000 in
theorem two_records_reachable : ∃ db, Reachable plainDigests 0 db ∧ db.committed = [firstNote, secondNote] := by
  have called : Reachable plainDigests 0 _ := .step .empty (.record 0 (noted "first"))
  have calledToo := Reachable.step called (.record 1 (noted "second"))
  have opened := Reachable.step calledToo (.startRecord 0 0 0 (noted "first")
    ⟨_, rfl, by simp [Database.empty, Queue.empty]⟩ rfl)
  have openedToo := Reachable.step opened (.startRecord 1 0 1 (noted "second")
    ⟨_, rfl, by simp [Database.empty, Queue.empty]⟩ rfl)
  have started := Reachable.step openedToo (.start 0 _ 0 (note "first") rfl ⟨_, rfl, by simp [Queue.empty]⟩)
  have startedToo := Reachable.step started (.start 1 _ 0 (note "second") rfl ⟨_, rfl, by simp [Queue.empty]⟩)
  have locked := Reachable.step startedToo (.lock 0 _ 0 (note "first") ⟨rfl, _, rfl⟩ rfl (.inl rfl))
  have read := Reachable.step locked (.read 0 _ 0 (note "first") ⟨rfl, _, rfl⟩ rfl)
  have signed := Reachable.step read (.sign 0 _ 0 (note "first") _ firstNote.signature ⟨rfl, _, rfl⟩ rfl)
  have inserted := Reachable.step signed (.insert 0 _ 0 (note "first") _ _ ⟨rfl, _, rfl⟩ rfl)
  have committed := Reachable.step inserted (.commit 0 _ rfl rfl)
  -- the lock is free again, and the tail is the first row
  have lockedToo := Reachable.step committed (.lock 1 _ 0 (note "second") ⟨rfl, _, rfl⟩ rfl (.inl rfl))
  have readToo := Reachable.step lockedToo (.read 1 _ 0 (note "second") ⟨rfl, _, rfl⟩ rfl)
  have signedToo := Reachable.step readToo
    (.sign 1 _ 0 (note "second") _ secondNote.signature ⟨rfl, _, rfl⟩ rfl)
  have insertedToo := Reachable.step signedToo (.insert 1 _ 0 (note "second") _ _ ⟨rfl, _, rfl⟩ rfl)
  have committedToo := Reachable.step insertedToo (.commit 1 _ rfl rfl)
  exact ⟨_, committedToo, rfl⟩

theorem chain_never_forks_with_two_records :
    ∃ db, Reachable plainDigests 0 db ∧ db.committed = [firstNote, secondNote] ∧
      verifyActivityChain plainDigests [⟨"current", 0⟩] db.committed none = some ⟨true, 2, none⟩ := by
  obtain ⟨db, reachable, committed⟩ := two_records_reachable
  have ok := (chain_never_forks db reachable).2.2.2
  have two : db.committed.length = 2 := by rw [committed]; rfl
  exact ⟨db, reachable, committed, two ▸ ok⟩

end Droplet.Audit
