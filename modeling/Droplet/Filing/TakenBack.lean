import Droplet.Filing.Written

/-! Undo after apply: which rows it deletes or archives. -/

namespace Droplet.Filing

open Fallible

/-- A person logs something on a record. -/
structure Note where
  id : RowId
  input : ActivityInput
  hand : Hand

def annotate (db : Db) (note : Note) : Db :=
  match logActivity db note.id note.input note.hand none with
  | .ok noted => noted
  | .error _ => db

def annotated (db : Db) (notes : List Note) : Db := notes.foldl annotate db

theorem annotate_cases (db : Db) (note : Note) :
    annotate db note = db ∨
      ∃ activity activities, db.activities.create note.id activity = some activities ∧
        annotate db note = { db with activities := activities } := by
  rw [annotate]
  split
  · rename_i noted logged
    obtain ⟨activity, activities, made, -, -, rfl⟩ := Applying.logActivity_cases logged
    exact .inr ⟨activity, activities, made, rfl⟩
  · exact .inl rfl

/-- Notes leave everything but the timelines alone, and these only grow. -/
structure Noted (before after : Db) : Prop where
  same : after = { before with activities := after.activities }
  grown : ∀ key row, before.activities.get key = some row → after.activities.get key = some row

theorem noted_annotated (db : Db) (notes : List Note) : Noted db (annotated db notes) := by
  induction notes generalizing db with
  | nil => exact ⟨rfl, fun _ _ found => found⟩
  | cons note rest ih =>
    obtain ⟨same, grown⟩ := ih (annotate db note)
    rcases annotate_cases db note with unchanged | logged
    · rw [unchanged] at same grown
      rw [annotated, List.foldl_cons, unchanged]
      exact ⟨same, grown⟩
    · obtain ⟨activity, activities, made, noted⟩ := logged
      rw [noted] at same grown
      rw [annotated, List.foldl_cons, noted]
      obtain ⟨free, get⟩ := Table.create_some made
      refine ⟨same, ?_⟩
      intro key row found
      refine grown key row ?_
      have apart : key ≠ note.id := by
        intro equal
        rw [equal, free] at found
        contradiction
      exact (get key).trans ((if_neg apart).trans found)

theorem Spared.noted {pointers : Created} {before db after : Db} (spared : Spared pointers before db)
    (noted : Noted db after) : Spared pointers before after := by
  rw [noted.same]
  refine { spared with activities := ?_ }
  intro key row found
  obtain ⟨present, there, same⟩ := spared.activities key row found
  exact ⟨present, noted.grown key present there, same⟩

def Quiet (subject : ActivitySubject) (db : Db) : Prop :=
  ∀ key row, db.activities.get key = some row → row.subject = subject → row.origin ≠ .LOCAL

/-- Activity that a person logged stays, and so does the record it is about. -/
structure HumanKept (between after : Db) : Prop where
  activities : ∀ key row, between.activities.get key = some row → row.origin = .LOCAL →
    after.activities.get key = some row
  companies : ∀ key row id, between.activities.get key = some row → row.origin = .LOCAL →
    row.subject = .COMPANY id → between.companies.get id ≠ none → after.companies.get id ≠ none
  contacts : ∀ key row id, between.activities.get key = some row → row.origin = .LOCAL →
    row.subject = .CONTACT id → between.contacts.get id ≠ none → after.contacts.get id ≠ none
  deals : ∀ key row id, between.activities.get key = some row → row.origin = .LOCAL →
    row.subject = .DEAL id → between.deals.get id ≠ none → after.deals.get id ≠ none

/-- Rows that were there before the apply are still there with their archive flag. -/
structure Untouched (before after : Db) : Prop where
  companies : Table.Kept (fun _ row => row.isArchived) before.companies after.companies
  contacts : Table.Kept (fun _ row => row.isArchived) before.contacts after.contacts
  projects : Table.Kept (fun _ row => row.isArchived) before.projects after.projects
  workItems : Table.Kept (fun _ row => row.isArchived) before.workItems after.workItems
  links : Table.Kept (fun _ row => row.isArchived) before.links after.links
  activities : Table.Kept (fun _ _ => ()) before.activities after.activities
  documents : Table.Kept (fun _ _ => ()) before.documents after.documents

/-- Nothing was logged on the subject after `applied`. -/
def Unannotated (applied between : Db) (subject : ActivitySubject) : Prop :=
  ∀ key row, between.activities.get key = some row → row.subject = subject →
    applied.activities.get key = some row

/-- The databases before the apply, after it, before the undo and after it. -/
structure TakenBack (before applied between after : Db) (created : Created) : Prop where
  untouched : Untouched before after
  human : HumanKept between after
  company_gone : ∀ id, created.createdCompanyId = some id →
    Unannotated applied between (.COMPANY id) → after.companies.get id = none
  contact_gone : ∀ id, created.createdContactId = some id →
    Unannotated applied between (.CONTACT id) → after.contacts.get id = none

variable {before between db : Db} {created : Created} {state : Reversal} {id : RowId}

section

variable (spared : Spared created before db)
include spared

theorem Spared.deleteCaption (fresh : before.activities.get id = none) : Spared created before (db.deleteCaption id) :=
  { spared with activities := spared.activities.deleteFresh fresh (by simp_all) }

theorem Spared.deleteDraft (fresh : before.documents.get id = none) :
    Spared created before (deleteDraftDocument db id).1 :=
  { spared with documents := spared.documents.deleteFresh fresh (by simp_all) }

variable (now : Instant)

theorem Spared.archiveContact
    (fresh : before.contacts.get id = none) : Spared created before (db.archiveContact id now) :=
  { spared with contacts := spared.contacts.updateFresh fresh (by simp) }

theorem Spared.archiveCompany
    (fresh : before.companies.get id = none) : Spared created before (db.archiveCompany id now) :=
  { spared with companies := spared.companies.updateFresh fresh (by simp) }

theorem Spared.archiveProject (pointer : created.createdProjectId = some id) :
    Spared created before (db.archiveProject id now) := by
  refine { spared with projects := spared.projects.updateMany ?_ }
  intro key _ _ _ _ hit
  simp only [decide_eq_true_eq] at hit
  simp [projectView, pointer, hit]

theorem Spared.archiveLink (pointer : created.createdEntityLinkId = some id) :
    Spared created before (db.archiveLink id now) := by
  refine { spared with links := spared.links.updateMany ?_ }
  intro key _ _ _ _ hit
  simp only [Bool.and_eq_true, decide_eq_true_eq] at hit
  simp [linkView, pointer, hit.1]

end

theorem Spared.deleteCompany (sound : before.Sound) (spared : Spared created before db)
    (fresh : before.companies.get id = none) : Spared created before (db.deleteCompany id) where
  companies := spared.companies.deleteFresh fresh (by simp)
  contacts := spared.contacts
  projects := spared.projects.updateMany (by intros; rfl)
  workItems := spared.workItems
  links := by
    refine spared.links.deleteMany ?_
    intro key row present found _ same
    have subject : present.subject = row.subject := congrArg Prod.fst same
    simp only [subject, decide_eq_false_iff_not]
    intro onCompany
    exact sound.link_company key row id found onCompany fresh
  activities := by
    refine spared.activities.deleteMany ?_
    intro key row present found _ same
    simp only [decide_eq_false_iff_not]
    intro onCompany
    exact sound.activity_company key row id found (same.symm.trans onCompany) fresh
  documents := spared.documents.updateMany (by intros; rfl)

theorem Spared.deleteContact (sound : before.Sound) (spared : Spared created before db)
    (fresh : before.contacts.get id = none) : Spared created before (db.deleteContact id) := by
  refine { spared with
    contacts := spared.contacts.deleteFresh fresh (by simp), links := ?_, activities := ?_ }
  · refine spared.links.deleteMany ?_
    intro key row present found _ same
    have subject : present.subject = row.subject := congrArg Prod.fst same
    simp only [subject, decide_eq_false_iff_not]
    intro onContact
    exact sound.link_contact key row id found onContact fresh
  · refine spared.activities.deleteMany ?_
    intro key row present found _ same
    simp only [decide_eq_false_iff_not]
    intro onContact
    exact sound.activity_contact key row id found (same.symm.trans onContact) fresh

section

variable (human : HumanKept between db)
include human

theorem HumanKept.elsewhere {subject : ActivitySubject} (none_ : hasHumanActivity db subject = false)
    {key : RowId} {row : CrmActivity} (found : between.activities.get key = some row)
    (local_ : row.origin = .LOCAL) : row.subject ≠ subject := by
  intro onSubject
  rw [hasHumanActivity, Bool.eq_false_iff] at none_
  refine none_ (Table.findFirst_isSome.mpr ⟨key, row, human.activities key row found local_, ?_⟩)
  simp [local_, onSubject]

theorem HumanKept.deleteCaption : HumanKept between (db.deleteCaption id) := by
  refine { human with activities := ?_ }
  intro key row found local_
  rw [Db.deleteCaption, Table.get_deleteMany, human.activities key row found local_]
  simp [local_]

theorem HumanKept.archiveContact (now : Instant) : HumanKept between (db.archiveContact id now) := by
  refine { human with contacts := ?_ }
  intro key row contact found local_ onContact there
  simpa [Db.archiveContact, Table.get_updateMany] using
    human.contacts key row contact found local_ onContact there

theorem HumanKept.archiveCompany (now : Instant) : HumanKept between (db.archiveCompany id now) := by
  refine { human with companies := ?_ }
  intro key row company found local_ onCompany there
  simpa [Db.archiveCompany, Table.get_updateMany] using
    human.companies key row company found local_ onCompany there

theorem HumanKept.deleteContact (none_ : hasHumanActivity db (.CONTACT id) = false) :
    HumanKept between (db.deleteContact id) := by
  refine { human with activities := ?_, contacts := ?_ }
  · intro key row found local_
    simp [Db.deleteContact, Table.get_deleteMany, human.activities key row found local_,
      human.elsewhere none_ found local_]
  · intro key row contact found local_ onContact there
    have apart : contact ≠ id := by
      intro equal
      exact human.elsewhere none_ found local_ (equal ▸ onContact)
    simp only [Db.deleteContact]
    rw [Table.get_deleteMany_other (by simp [apart])]
    exact human.contacts key row contact found local_ onContact there

theorem HumanKept.deleteCompany (none_ : hasHumanActivity db (.COMPANY id) = false) :
    HumanKept between (db.deleteCompany id) := by
  refine { human with activities := ?_, companies := ?_, deals := ?_ }
  · intro key row found local_
    simp [Db.deleteCompany, Table.get_deleteMany, human.activities key row found local_,
      human.elsewhere none_ found local_]
  · intro key row company found local_ onCompany there
    have apart : company ≠ id := by
      intro equal
      exact human.elsewhere none_ found local_ (equal ▸ onCompany)
    simp only [Db.deleteCompany]
    rw [Table.get_deleteMany_other (by simp [apart])]
    exact human.companies key row company found local_ onCompany there
  · intro key row deal found local_ onDeal there
    simpa [Db.deleteCompany, Table.get_updateMany] using human.deals key row deal found local_ onDeal there

end

/-- What holds of the database while the reversal goes on. -/
structure Reversing (before between : Db) (created : Created) (db : Db) : Prop where
  spared : Spared created before db
  human : HumanKept between db
  shrunk : ∀ key row, db.activities.get key = some row → between.activities.get key = some row

theorem get_of_deleteMany {where_ : RowId → CrmActivity → Bool} {key : RowId} {row : CrmActivity}
    (found : (db.activities.deleteMany where_).get key = some row) : db.activities.get key = some row := by
  rw [Table.get_deleteMany, Option.filter_eq_some_iff] at found
  exact found.1

namespace Reversing

variable (now : Instant)

section

variable (reversing : Reversing before between created state.db)
include reversing

theorem caption (fresh : ∀ id, created.createdActivityId = some id → before.activities.get id = none) :
    Reversing before between created (state.caption created.createdActivityId).db := by
  unfold Reversal.caption withPointer
  split
  · rename_i id pointer
    exact {
      spared := reversing.spared.deleteCaption (fresh id pointer)
      human := reversing.human.deleteCaption
      shrunk := fun key row found => reversing.shrunk key row (get_of_deleteMany found) }
  · exact reversing

theorem document (fresh : ∀ id, created.createdErpDocumentId = some id → before.documents.get id = none) :
    Reversing before between created (state.document created.createdErpDocumentId).db := by
  unfold Reversal.document withPointer
  split
  · rename_i id pointer
    exact {
      spared := reversing.spared.deleteDraft (fresh id pointer)
      human := { reversing.human with }
      shrunk := reversing.shrunk }
  · exact reversing

theorem project : Reversing before between created (state.project created.createdProjectId now).db := by
  unfold Reversal.project withPointer
  split
  · rename_i id pointer
    exact {
      spared := reversing.spared.archiveProject now pointer
      human := { reversing.human with }
      shrunk := reversing.shrunk }
  · exact reversing

end

theorem contact (sound : before.Sound) (reversing : Reversing before between created state.db)
    (fresh : ∀ id, created.createdContactId = some id → before.contacts.get id = none) :
    Reversing before between created (state.contact created.createdContactId now).db := by
  unfold Reversal.contact withPointer
  split
  · rename_i id pointer
    dsimp only
    split
    · exact {
        spared := reversing.spared.archiveContact now (fresh id pointer)
        human := reversing.human.archiveContact now
        shrunk := reversing.shrunk }
    · rename_i none_
      exact {
        spared := reversing.spared.deleteContact sound (fresh id pointer)
        human := reversing.human.deleteContact (Bool.eq_false_iff.mpr none_)
        shrunk := fun key row found => reversing.shrunk key row (get_of_deleteMany found) }
  · exact reversing

theorem company (sound : before.Sound) (reversing : Reversing before between created state.db)
    (fresh : ∀ id, created.createdCompanyId = some id → before.companies.get id = none) :
    Reversing before between created (state.company created.createdCompanyId now).db := by
  unfold Reversal.company withPointer
  split
  · rename_i id pointer
    dsimp only
    split
    · exact {
        spared := reversing.spared.archiveCompany now (fresh id pointer)
        human := reversing.human.archiveCompany now
        shrunk := reversing.shrunk }
    · rename_i none_
      exact {
        spared := reversing.spared.deleteCompany sound (fresh id pointer)
        human := reversing.human.deleteCompany (Bool.eq_false_iff.mpr none_)
        shrunk := fun key row found => reversing.shrunk key row (get_of_deleteMany found) }
  · exact reversing

theorem link (reversing : Reversing before between created state.db) :
    Reversing before between created (state.link created.createdEntityLinkId now).db := by
  unfold Reversal.link withPointer
  split
  · rename_i id pointer
    dsimp only
    split
    · exact reversing
    · exact {
        spared := reversing.spared.archiveLink now pointer
        human := { reversing.human with }
        shrunk := reversing.shrunk }
  · exact reversing

theorem quiet {subject : ActivitySubject} (reversing : Reversing before between created db)
    (quiet : Quiet subject between) : hasHumanActivity db subject = false := by
  rw [hasHumanActivity, Bool.eq_false_iff]
  intro found
  obtain ⟨key, row, there, hit⟩ := Table.findFirst_isSome.mp found
  simp only [Bool.and_eq_true, decide_eq_true_eq] at hit
  exact quiet key row (reversing.shrunk key row there) hit.2 hit.1

end Reversing

section

variable {now : Instant}

theorem contact_gone (reversing : Reversing before between created state.db)
    (pointer : created.createdContactId = some id) (quiet : Quiet (.CONTACT id) between) :
    (state.contact created.createdContactId now).db.contacts.get id = none := by
  simp [pointer, Reversal.contact, withPointer, reversing.quiet quiet, Db.deleteContact, Table.get_deleteMany]

theorem company_gone (reversing : Reversing before between created state.db)
    (pointer : created.createdCompanyId = some id) (quiet : Quiet (.COMPANY id) between) :
    (state.company created.createdCompanyId now).db.companies.get id = none := by
  simp [pointer, Reversal.company, withPointer, reversing.quiet quiet, Db.deleteCompany, Table.get_deleteMany]

variable (pointer : Option RowId)

theorem company_contacts : (state.company pointer now).db.contacts = state.db.contacts := by
  unfold Reversal.company withPointer
  split
  · dsimp only
    split <;> rfl
  · rfl

theorem link_links_only :
    (state.link pointer now).db =
      { state.db with links := (state.link pointer now).db.links } := by
  unfold Reversal.link withPointer
  split
  · dsimp only
    split <;> rfl
  · rfl

theorem link_archived {row : EntityLink} (pointer : created.createdEntityLinkId = some id)
    (found : (state.link created.createdEntityLinkId now).db.links.get id = some row) : row.isArchived = true := by
  simp only [pointer, Reversal.link, withPointer] at found
  split at found
  · rename_i missing
    rw [missing] at found
    contradiction
  · rename_i still there
    simp only [Db.archiveLink, Table.get_updateMany, there, Option.map_some, Option.some.injEq] at found
    split at found
    · rw [← found]
    · rename_i archived
      simpa [← found] using archived

theorem project_archived {row : PmProject} (pointer : created.createdProjectId = some id)
    (found : (state.project created.createdProjectId now).db.projects.get id = some row) :
    row.isArchived = true := by
  simp only [pointer, Reversal.project, withPointer, Db.archiveProject, Table.get_updateMany,
    decide_true, if_true, Option.map_eq_some_iff] at found
  obtain ⟨_, -, rfl⟩ := found
  rfl

theorem contact_projects : (state.contact pointer now).db.projects = state.db.projects := by
  unfold Reversal.contact withPointer
  split
  · dsimp only
    split <;> rfl
  · rfl

theorem company_projects {pointer : Option RowId} {row : PmProject}
    (found : (state.company pointer now).db.projects.get id = some row) :
    ∃ earlier, state.db.projects.get id = some earlier ∧ earlier.isArchived = row.isArchived := by
  unfold Reversal.company withPointer at found
  split at found
  · dsimp only at found
    split at found
    · exact ⟨row, found, rfl⟩
    · simp only [Db.deleteCompany, Table.get_updateMany, Option.map_eq_some_iff] at found
      obtain ⟨earlier, there, rfl⟩ := found
      refine ⟨earlier, there, ?_⟩
      split <;> rfl
  · exact ⟨row, found, rfl⟩

end

/-- The reversal as it stands after the steps up to the contact and up to the company. -/
def reversedToContact (db : Db) (created : Created) (now : Instant) : Reversal :=
  (((Reversal.caption { db := db } created.createdActivityId).document
    created.createdErpDocumentId).project created.createdProjectId now).contact
    created.createdContactId now

variable {applied : Db} {now : Instant}

theorem reversed_eq : reversed db created now =
    ((reversedToContact db created now).company created.createdCompanyId now).link
      created.createdEntityLinkId now := rfl

theorem reversing_project (wrote : Wrote before applied created)
    (start : Reversing before between created ({ db := db } : Reversal).db) :
    Reversing before between created (((Reversal.caption { db := db }
      created.createdActivityId).document created.createdErpDocumentId).project
      created.createdProjectId now).db :=
  ((start.caption wrote.activity).document wrote.document).project now

theorem reversing_contact (sound : before.Sound) (wrote : Wrote before applied created)
    (start : Reversing before between created db) :
    Reversing before between created (reversedToContact db created now).db :=
  (reversing_project wrote start).contact now sound wrote.contact

theorem reversing_reversed (now : Instant) (sound : before.Sound) (wrote : Wrote before applied created)
    (start : Reversing before between created db) :
    Reversing before between created (reversed db created now).db :=
  ((reversing_contact sound wrote start).company now sound wrote.company).link now

theorem reversed_contact_gone (wrote : Wrote before applied created)
    (start : Reversing before between created db) (pointer : created.createdContactId = some id)
    (quiet : Quiet (.CONTACT id) between) : (reversed db created now).db.contacts.get id = none := by
  rw [reversed_eq, link_links_only]
  simp only [company_contacts]
  exact contact_gone (reversing_project wrote start) pointer quiet

theorem reversed_company_gone (sound : before.Sound) (wrote : Wrote before applied created)
    (start : Reversing before between created db) (pointer : created.createdCompanyId = some id)
    (quiet : Quiet (.COMPANY id) between) : (reversed db created now).db.companies.get id = none := by
  rw [reversed_eq, link_links_only]
  exact company_gone (reversing_contact sound wrote start) pointer quiet

theorem reversed_link_archived {row : EntityLink} (pointer : created.createdEntityLinkId = some id)
    (found : (reversed db created now).db.links.get id = some row) : row.isArchived = true :=
  link_archived pointer found

theorem reversed_project_archived {row : PmProject} (pointer : created.createdProjectId = some id)
    (found : (reversed db created now).db.projects.get id = some row) : row.isArchived = true := by
  rw [reversed_eq, link_links_only] at found
  obtain ⟨earlier, there, same⟩ := company_projects found
  rw [reversedToContact, contact_projects] at there
  rw [← same]
  exact project_archived pointer there

/-- What was there looks as before, exactly where no pointer names a row that was there unarchived. -/
theorem untouched_iff (now : Instant) (sound : before.Sound) (wrote : Wrote before applied created)
    (start : Reversing before between created db) :
    Untouched before (reversed db created now).db ↔ ¬ PointsToLive before created := by
  have spared := (reversing_reversed now sound wrote start).spared
  constructor
  · intro untouched live
    rcases live with link | project
    · obtain ⟨key, row, pointer, found, unarchived⟩ := link
      obtain ⟨present, there, same⟩ := untouched.links key row found
      have archived := reversed_link_archived pointer there
      simp [archived, unarchived] at same
    · obtain ⟨key, row, pointer, found, unarchived⟩ := project
      obtain ⟨present, there, same⟩ := untouched.projects key row found
      have archived := reversed_project_archived pointer there
      simp [archived, unarchived] at same
  · intro dead
    have linkDead : ∀ key row, created.createdEntityLinkId = some key →
        before.links.get key = some row → row.isArchived = true := by
      intro key row pointer found
      by_contra unarchived
      exact dead (.inl ⟨key, row, pointer, found, Bool.eq_false_iff.mpr unarchived⟩)
    have projectDead : ∀ key row, created.createdProjectId = some key →
        before.projects.get key = some row → row.isArchived = true := by
      intro key row pointer found
      by_contra unarchived
      exact dead (.inr ⟨key, row, pointer, found, Bool.eq_false_iff.mpr unarchived⟩)
    exact {
      companies := spared.companies
      contacts := spared.contacts
      projects := spared.projects.also projectDead fun _ _ => reversed_project_archived
      workItems := spared.workItems
      links := (spared.links.map Prod.snd).also linkDead fun _ _ => reversed_link_archived
      activities := spared.activities.map fun _ => ()
      documents := spared.documents }

theorem Unannotated.quiet {subject : ActivitySubject} (unannotated : Unannotated applied between subject)
    (quiet : ∀ key row, applied.activities.get key = some row → row.subject = subject →
      row.origin ≠ .LOCAL) : Quiet subject between :=
  fun key row found onSubject => quiet key row (unannotated key row found onSubject) onSubject

theorem takenBack_iff {start after : Db} {decisions : List FilingDecision}
    {proposals : Table RowId IngestProposal} (sound : before.Sound)
    (wrote : Wrote before applied created) (noted : Noted applied between)
    (claimed : start = { between with proposals := start.proposals })
    (done : after = { (reversed start created now).db with
      proposals := proposals, decisions := decisions }) :
    TakenBack before applied between after created ↔ ¬ PointsToLive before created := by
  have reversing : Reversing before between created start := by
    rw [claimed]
    exact {
      spared := { wrote.spared.noted noted with }
      human := ⟨fun _ _ found _ => found, fun _ _ _ _ _ _ there => there,
        fun _ _ _ _ _ _ there => there, fun _ _ _ _ _ _ there => there⟩
      shrunk := fun _ _ found => found }
  have human := (reversing_reversed now sound wrote reversing).human
  rw [done, ← untouched_iff now sound wrote reversing]
  constructor
  · intro back
    exact { back.untouched with }
  · intro untouched
    exact {
      untouched := { untouched with }
      human := { human with }
      company_gone := fun id pointer unannotated => reversed_company_gone sound wrote reversing pointer
        (unannotated.quiet (wrote.company_quiet id pointer))
      contact_gone := fun id pointer unannotated => reversed_contact_gone wrote reversing pointer
        (unannotated.quiet (wrote.contact_quiet id pointer)) }

theorem reverse_db (reading : Reading) (db : Db) (id : RowId) (proposal : IngestProposal)
    (hand : Hand) : ∃ proposals decisions, (reverse reading db id proposal hand).db =
      { (reversed db proposal.created hand.now).db with
        proposals := proposals, decisions := decisions } := by
  unfold reverse Reversal.remember
  dsimp only
  split
  · exact ⟨_, _, rfl⟩
  · exact ⟨_, _, rfl⟩

/-- Does applying the proposal point at a link or a project that is already there, not archived? -/
def reusesLive (reading : Reading) (db : Db) (id : RowId) (ctx : ApplyContext) : Bool :=
  match applyPreflight reading db id with
  | .ok pre => (pre.applying reading id ctx).reuses
      (db.moved id .PENDING fun row => row.applied ctx.hand) pre.proposal.kind pre.payload
  | .error _ => false

theorem applyProposal_wrote {reading : Reading} {resolveFileId : String → Option ℕ}
    {ctx : ApplyContext} (sound : db.Sound)
    (applies : applyProposal reading resolveFileId db id ctx = .ok (applied, created)) :
    Wrote db applied created ∧
      (PointsToLive db created ↔ reusesLive reading db id ctx = true) ∧
      ∃ row, applied.proposals.get id = some row ∧ row.status = .APPLIED ∧ row.created = created := by
  obtain ⟨pre, preflight, applies⟩ := bind_ok_iff.mp applies
  obtain ⟨-, -, applies⟩ := bind_ok_iff.mp applies
  obtain ⟨claimed, claims, applies⟩ := bind_ok_iff.mp applies
  obtain ⟨done, performs, applies⟩ := bind_ok_iff.mp applies
  obtain ⟨rfl, rfl⟩ := Prod.mk.inj (pure_ok_iff.mp applies)
  obtain ⟨row, -, -, rfl, found, -⟩ := moveProposal_cases claims
  have movedSound : (db.moved id .PENDING fun row => row.applied ctx.hand).Sound := { sound with }
  have wrote := Applying.performApply_wrote movedSound performs
  refine ⟨{ wrote with spared := { wrote.spared with } }, ?_, ?_⟩
  · rw [reusesLive, preflight]
    exact Applying.performApply_live movedSound performs
  · refine ⟨{ row.applied ctx.hand with created := done.2 }, ?_, rfl, rfl⟩
    simp [Db.updateProposal, Table.get_updateMany, Applying.performApply_proposals performs, found]

/-- Undo takes back what applying created, and leaves the rows that were there as they were, exactly where
applying did not point at one of them that was in use. -/
theorem undo_takes_back_iff (reading : Reading) (resolveFileId : String → Option ℕ) (db : Db)
    (sound : db.Sound) (id : RowId) (ctx : ApplyContext) (applied : Db) (created : Created)
    (applies : applyProposal reading resolveFileId db id ctx = .ok (applied, created))
    (notes : List Note) (hand : Hand) :
    ∃ back, undoProposal reading (annotated applied notes) id hand = .ok back ∧
      (TakenBack db applied (annotated applied notes) back.db created ↔
        reusesLive reading db id ctx = false) := by
  obtain ⟨wrote, live, row, found, status, pointers⟩ := applyProposal_wrote sound applies
  have noted := noted_annotated applied notes
  have there : (annotated applied notes).proposals.get id = some row := by
    rw [noted.same]
    exact found
  have preflight : undoPreflight (annotated applied notes) id = .ok row := by
    simp [undoPreflight, there, require, status, pure, Except.pure]
  have claims : moveProposal (annotated applied notes) id .APPLIED .NOT_APPLIED
      (fun row => row.undone hand) = .ok ((annotated applied notes).moved id .APPLIED
        fun row => row.undone hand) := by
    simp [moveProposal, there, require, status, pure, Except.pure]
  refine ⟨reverse reading ((annotated applied notes).moved id .APPLIED fun row => row.undone hand) id row
    hand, ?_, ?_⟩
  · simp [undoProposal, preflight, undoTransaction, claims, pure, Except.pure]
  · obtain ⟨proposals, decisions, done⟩ := reverse_db reading
      ((annotated applied notes).moved id .APPLIED fun row => row.undone hand) id row hand
    rw [pointers] at done
    rw [takenBack_iff sound wrote noted rfl done, live, Bool.not_eq_true]

def Spelling.plain : Spelling where
  normalizeDomain := some
  normalizePhone text := text
  normalizeCompanyName text := text
  toLowerCase text := text

/-- Every payload of a kind is read as this one. -/
def Reading.sample : Reading where
  spelling := .plain
  parsePayload
    | .SET_PROJECT_CUSTOMER, _ => some (SetProjectCustomerPayload.mk 1 "Roof" 2 "Acme")
    | .LINK_FILE, _ => some ⟨{}, 2, "Acme", ⟨7, "/acme.pdf", "home"⟩⟩
    | .CREATE_CUSTOMER, _ => some (CreateCustomerPayload.mk "Borg" none none none none none)
    | _, _ => none

def IngestProposal.sample (kind : IngestProposalKind) : IngestProposal where
  kind := kind
  status := .PENDING
  policyClass := .REVIEW
  policyReason := none
  confidence := 90
  payload := .obj []
  evidence := none
  dependsOnProposalId := none
  decidedById := none
  decidedAt := none
  appliedAt := none
  autoApplied := false
  undoneById := none
  undoneAt := none
  undoMode := none
  created := {}

/-- Company 2 has project 1 and, by hand, link 3 to file 7. -/
def Db.sample : Db where
  proposals := ⟨[(10, .sample .SET_PROJECT_CUSTOMER), (11, .sample .LINK_FILE),
    (12, .sample .CREATE_CUSTOMER)], by decide⟩
  decisions := []
  companies := ⟨[(2, ⟨"Acme", none, none, none, none, .LOCAL, none, none, false, none⟩)], by decide⟩
  contacts := .empty
  deals := .empty
  projects := ⟨[(1, ⟨"Roof", none, .PROJECT, none, none, false, none⟩)], by decide⟩
  workItems := .empty
  links := ⟨[(3, ⟨7, "acme.pdf", "/acme.pdf", "home", .COMPANY 2, .OTHER, .MANUAL, none, none, false,
    none, none⟩)], by decide⟩
  activities := .empty
  documents := .empty
  companyContacts := []
  emailMessages := []
  moneyEnabled := none

theorem Db.sample_sound : Db.sample.Sound where
  activity_company := by simp [Db.sample]
  activity_contact := by simp [Db.sample]
  link_company := by
    intro id link company found subject
    have listed := Table.get_some.mp found
    simp only [Db.sample, List.mem_singleton, Prod.mk.injEq] at listed
    obtain ⟨-, rfl⟩ := listed
    obtain rfl := LinkSubject.COMPANY.inj subject
    decide
  link_contact := by
    intro id link contact found subject
    have listed := Table.get_some.mp found
    simp only [Db.sample, List.mem_singleton, Prod.mk.injEq] at listed
    obtain ⟨-, rfl⟩ := listed
    contradiction
  link_pair := by
    intro id other first second found foundOther _ _
    have listed := Table.get_some.mp found
    have listedOther := Table.get_some.mp foundOther
    simp only [Db.sample, List.mem_singleton, Prod.mk.injEq] at listed listedOther
    rw [listed.1, listedOther.1]

def ApplyContext.sample : ApplyContext := ⟨⟨100, 0⟩, ⟨21, 22, 23, 24, 25, 26⟩, none⟩

/-- A note of a person on the customer that was filed. -/
def Note.sample : Note := ⟨30, ⟨.COMPANY 21, .NOTE, "Called them", none, none⟩, ⟨100, 1⟩⟩

theorem annotated_customer_is_archived :
    ∃ applied created, applyProposal .sample (fun _ => some 7) .sample 12 .sample =
        .ok (applied, created) ∧
      ∃ back, undoProposal .sample (annotated applied [.sample]) 12 ⟨100, 2⟩ = .ok back ∧
        (TakenBack .sample applied (annotated applied [.sample]) back.db created ↔
          reusesLive .sample .sample 12 .sample = false) :=
  ⟨_, _, rfl, undo_takes_back_iff .sample (fun _ => some 7) .sample Db.sample_sound 12 .sample _ _ rfl
    [.sample] ⟨100, 2⟩⟩

/-- Taking back "this project is for that customer" archives the project, and taking back a filing of a
file that was linked by hand archives that link. -/
theorem live_rows_are_archived :
    (∃ applied created back,
      applyProposal .sample (fun _ => some 7) .sample 10 .sample = .ok (applied, created) ∧
      undoProposal .sample (annotated applied []) 10 ⟨100, 2⟩ = .ok back ∧
      (Db.sample.projects.get 1).map PmProject.isArchived = some false ∧
      (back.db.projects.get 1).map PmProject.isArchived = some true ∧
      ¬ TakenBack .sample applied (annotated applied []) back.db created) ∧
    (∃ applied created back,
      applyProposal .sample (fun _ => some 7) .sample 11 .sample = .ok (applied, created) ∧
      undoProposal .sample (annotated applied []) 11 ⟨100, 2⟩ = .ok back ∧
      (Db.sample.links.get 3).map EntityLink.isArchived = some false ∧
      (back.db.links.get 3).map EntityLink.isArchived = some true ∧
      ¬ TakenBack .sample applied (annotated applied []) back.db created) := by
  refine ⟨⟨_, _, _, rfl, rfl, rfl, rfl, ?_⟩, ⟨_, _, _, rfl, rfl, rfl, rfl, ?_⟩⟩
  · intro back
    obtain ⟨present, there, same⟩ := back.untouched.projects 1 _ rfl
    obtain rfl := Option.some.inj there
    contradiction
  · intro back
    obtain ⟨present, there, same⟩ := back.untouched.links 3 _ rfl
    obtain rfl := Option.some.inj there
    contradiction

end Droplet.Filing
