import Droplet.Filing.Undo

/-! What applying a proposal writes: which rows it leaves as they were, and which it creates. -/

namespace Droplet.Filing

open Fallible

@[simp] theorem require_ok (failure : Failure) (found : Bool) (result : Unit) :
    require failure found = .ok result ↔ found = true := by
  rw [require]
  split <;> simp [*]

@[simp] theorem create_ok {Columns : Type} {table created : Table RowId Columns} {id : RowId} {data : Columns} :
    create table id data = .ok created ↔ table.create id data = some created := by
  rw [create]
  split <;> simp [*]

variable {db after : Db}

/-- A guarded move takes one proposal from the status asked for and leaves the others alone. -/
theorem moveProposal_cases {id : RowId} {current : IngestProposalStatus}
    {failure : Failure} {data : IngestProposal → IngestProposal}
    (runs : moveProposal db id current failure data = .ok after) :
    ∃ row, db.proposals.get id = some row ∧ row.status = current ∧ after = db.moved id current data ∧
      after.proposals.get id = some (data row) ∧
      ∀ other, other ≠ id → after.proposals.get other = db.proposals.get other := by
  simp only [moveProposal, bind_ok_iff, require_ok, pure_ok_iff, Option.any_eq_true,
    decide_eq_true_eq] at runs
  obtain ⟨-, ⟨row, found, status⟩, rfl⟩ := runs
  refine ⟨row, found, status, rfl, ?_, ?_⟩
  · simp [Db.moved, Table.get_updateMany, found, status]
  · intro other apart
    rw [Db.moved, Table.get_updateMany]
    cases db.proposals.get other <;> simp [apart]

def OncePerPair (links : Table RowId EntityLink) : Prop :=
  ∀ id other first second, links.get id = some first → links.get other = some second →
    first.ncFileId = second.ncFileId → first.subject = second.subject → id = other

/-- What of a link is followed: its subject, and its archive flag unless a proposal points to it. -/
def linkView (pointer : Option RowId) (key : RowId) (row : EntityLink) : LinkSubject × Bool :=
  (row.subject, decide (pointer = some key) || row.isArchived)

def liveLink (db : Db) (ncFileId : ℕ) (subject : LinkSubject) : Bool :=
  (db.links.findFirst fun _ row =>
    row.ncFileId = ncFileId && row.subject = subject && !row.isArchived).isSome

variable {newId actorId id : RowId} {input : EntityLinkInput}

section

variable (runs : linkFileToRecord db newId input actorId = .ok (after, id))
include runs

theorem linkFileToRecord_cases :
    ∃ confidence,
      (∃ row, db.links.get id = some row ∧ input.pairWhere row = true ∧
        after = { db with
          links := db.links.updateMany (fun _ row => input.pairWhere row) (input.mutable confidence) }) ∨
      (∃ links, (∀ key row, db.links.get key = some row → input.pairWhere row = false) ∧
        db.links.create id (input.row confidence actorId) = some links ∧
        after = { db with links := links }) := by
  rw [linkFileToRecord, bind_ok_iff] at runs
  obtain ⟨confidence, -, runs⟩ := runs
  obtain ⟨-, -, runs⟩ := bind_ok_iff.mp runs
  refine ⟨confidence, ?_⟩
  split at runs
  · rename_i found _ search
    simp only [pure_ok_iff, Prod.mk.injEq] at runs
    obtain ⟨rfl, rfl⟩ := runs
    obtain ⟨there, pair⟩ := Table.findFirst_some search
    exact .inl ⟨_, there, pair, rfl⟩
  · rename_i search
    obtain ⟨links, made, runs⟩ := bind_ok_iff.mp runs
    simp only [pure_ok_iff, Prod.mk.injEq] at runs
    obtain ⟨rfl, rfl⟩ := runs
    exact .inr ⟨links, Table.findFirst_none.mp search, create_ok.mp made, rfl⟩

theorem linkFileToRecord_keeps
    (once : OncePerPair db.links) :
    after = { db with links := after.links } ∧
      Table.Kept (linkView (some id)) db.links after.links := by
  obtain ⟨confidence, again | made⟩ := linkFileToRecord_cases runs
  · obtain ⟨row, there, pair, rfl⟩ := again
    refine ⟨rfl, Table.Kept.refl.updateMany ?_⟩
    intro key _ present _ found hit
    have same : key = id := by
      simp only [EntityLinkInput.pairWhere, Bool.and_eq_true, decide_eq_true_eq] at pair hit
      exact once key id present row found there (hit.1.trans pair.1.symm) (hit.2.trans pair.2.symm)
    simp [linkView, same, EntityLinkInput.mutable]
  · obtain ⟨links, -, made, rfl⟩ := made
    exact ⟨rfl, Table.Kept.refl.create made⟩

/-- The pointer names a link that was there and not archived exactly where the pair had such a link. -/
theorem linkFileToRecord_live (once : OncePerPair db.links) :
    (∃ row, db.links.get id = some row ∧ row.isArchived = false) ↔
      liveLink db input.ncFileId input.subject = true := by
  simp only [liveLink, Table.findFirst_isSome, Bool.and_eq_true, decide_eq_true_eq, Bool.not_eq_true']
  constructor
  · intro live
    obtain ⟨row, there, unarchived⟩ := live
    obtain ⟨confidence, again | made⟩ := linkFileToRecord_cases runs
    · obtain ⟨_, found, pair, -⟩ := again
      obtain rfl := Option.some.inj (there.symm.trans found)
      simp only [EntityLinkInput.pairWhere, Bool.and_eq_true, decide_eq_true_eq] at pair
      exact ⟨id, row, there, pair, unarchived⟩
    · obtain ⟨_, -, made, -⟩ := made
      rw [(Table.create_some made).1] at there
      contradiction
  · intro live
    obtain ⟨key, row, there, ⟨sameFile, sameSubject⟩, unarchived⟩ := live
    obtain ⟨confidence, again | made⟩ := linkFileToRecord_cases runs
    · obtain ⟨first, found, pair, -⟩ := again
      simp only [EntityLinkInput.pairWhere, Bool.and_eq_true, decide_eq_true_eq] at pair
      have same : key = id := once key id row first there found (sameFile.trans pair.1.symm)
        (sameSubject.trans pair.2.symm)
      exact ⟨row, same ▸ there, unarchived⟩
    · obtain ⟨_, unpaired, -, -⟩ := made
      have missed := unpaired key row there
      simp [EntityLinkInput.pairWhere, sameFile, sameSubject] at missed

end

/-- What of a project is followed: its archive flag, unless a proposal points to it. -/
def projectView (pointer : Option RowId) (key : RowId) (row : PmProject) : Bool :=
  decide (pointer = some key) || row.isArchived

/-- Every row is still there with its archive flag, but for the flags of the link and the project that a
proposal points to. -/
structure Spared (pointers : Created) (before after : Db) : Prop where
  companies : Table.Kept (fun _ row => row.isArchived) before.companies after.companies
  contacts : Table.Kept (fun _ row => row.isArchived) before.contacts after.contacts
  projects : Table.Kept (projectView pointers.createdProjectId) before.projects after.projects
  workItems : Table.Kept (fun _ row => row.isArchived) before.workItems after.workItems
  links : Table.Kept (linkView pointers.createdEntityLinkId) before.links after.links
  activities : Table.Kept (fun _ row => row.subject) before.activities after.activities
  documents : Table.Kept (fun _ _ => ()) before.documents after.documents

theorem Spared.refl (pointers : Created) (db : Db) : Spared pointers db db :=
  ⟨.refl, .refl, .refl, .refl, .refl, .refl, .refl⟩

/-- The writes of `performApply`: the records, the caption and the document it points to are new. -/
structure Wrote (before after : Db) (created : Created) : Prop where
  spared : Spared created before after
  company : ∀ id, created.createdCompanyId = some id → before.companies.get id = none
  contact : ∀ id, created.createdContactId = some id → before.contacts.get id = none
  activity : ∀ id, created.createdActivityId = some id → before.activities.get id = none
  document : ∀ id, created.createdErpDocumentId = some id → before.documents.get id = none
  /-- Nobody has written on a new company yet. -/
  company_quiet : ∀ id, created.createdCompanyId = some id → ∀ key row,
    after.activities.get key = some row → row.subject = .COMPANY id → row.origin ≠ .LOCAL
  contact_quiet : ∀ id, created.createdContactId = some id → ∀ key row,
    after.activities.get key = some row → row.subject = .CONTACT id → row.origin ≠ .LOCAL

/-- A back-pointer names a link or a project that was there and was not archived. -/
def PointsToLive (db : Db) (created : Created) : Prop :=
  (∃ id row, created.createdEntityLinkId = some id ∧ db.links.get id = some row ∧
    row.isArchived = false) ∨
  (∃ id row, created.createdProjectId = some id ∧ db.projects.get id = some row ∧
    row.isArchived = false)

namespace Applying

variable {applying : Applying} {db after : Db} {created : Created}

variable {role : Option EntityLinkRole} {pointer : Option RowId} {file : Option FileRef}
  {companyId : RowId}

theorem linkOptional_keeps
    (runs : applying.linkOptional db file companyId role = .ok (after, pointer))
    (once : OncePerPair db.links) : after = { db with links := after.links } ∧
      Table.Kept (linkView pointer) db.links after.links := by
  cases file with
  | none =>
    obtain ⟨rfl, rfl⟩ := Prod.mk.inj (Except.ok.inj runs)
    exact ⟨rfl, .refl⟩
  | some file =>
    rw [linkOptional, bind_ok_iff] at runs
    obtain ⟨linked, links, runs⟩ := runs
    obtain ⟨rfl, rfl⟩ := Prod.mk.inj (pure_ok_iff.mp runs)
    exact linkFileToRecord_keeps links once

theorem linkFileToRecord_proposals (runs : linkFileToRecord db newId input actorId = .ok (after, id)) :
    after.proposals = db.proposals := by
  obtain ⟨_, again | made⟩ := linkFileToRecord_cases runs
  · obtain ⟨_, -, -, rfl⟩ := again
    rfl
  · obtain ⟨_, -, -, rfl⟩ := made
    rfl

theorem linkOptional_proposals (runs : applying.linkOptional db file companyId role = .ok (after, pointer)) :
    after.proposals = db.proposals := by
  cases file with
  | none =>
    obtain ⟨rfl, -⟩ := Prod.mk.inj (Except.ok.inj runs)
    rfl
  | some file =>
    rw [linkOptional, bind_ok_iff] at runs
    obtain ⟨linked, links, runs⟩ := runs
    obtain ⟨rfl, -⟩ := Prod.mk.inj (pure_ok_iff.mp runs)
    exact linkFileToRecord_proposals links

theorem linkFileKind_wrote {p : LinkFilePayload} (sound : db.Sound)
    (runs : applying.linkFileKind db p = .ok (after, created)) : Wrote db after created := by
  rw [linkFileKind, bind_ok_iff] at runs
  obtain ⟨linked, links, runs⟩ := runs
  obtain ⟨rfl, rfl⟩ := Prod.mk.inj (pure_ok_iff.mp runs)
  obtain ⟨same, kept⟩ := linkFileToRecord_keeps links sound.link_pair
  rw [same]
  constructor
  case spared => exact { Spared.refl _ db with links := kept }
  all_goals
    intros
    contradiction

variable {filing : Option FilingProvenance} {spelling : Spelling}

theorem createCompany_cases {id activityId : RowId} {input : CompanyInput}
    {hand : Hand} (runs : createCompany spelling db id activityId input hand filing = .ok after) :
    ∃ company companies activity activities,
      db.companies.create id company = some companies ∧
      db.activities.create activityId activity = some activities ∧
      activity.origin = provenance filing ∧ activity.subject = .COMPANY id ∧
      after = { db with companies := companies, activities := activities } := by
  rw [createCompany, bind_ok_iff] at runs
  obtain ⟨companies, company, runs⟩ := runs
  obtain ⟨activities, activity, runs⟩ := bind_ok_iff.mp runs
  exact ⟨_, companies, _, activities, create_ok.mp company, create_ok.mp activity, rfl, rfl,
    (pure_ok_iff.mp runs).symm⟩

theorem createCustomer_wrote {p : CreateCustomerPayload} (sound : db.Sound)
    (runs : applying.createCustomer db p = .ok (after, created)) : Wrote db after created := by
  rw [createCustomer, bind_ok_iff] at runs
  obtain ⟨made, makes, runs⟩ := runs
  obtain ⟨linked, links, runs⟩ := bind_ok_iff.mp runs
  obtain ⟨rfl, rfl⟩ := Prod.mk.inj (pure_ok_iff.mp runs)
  obtain ⟨_, companies, activity, activities, company, logged, byBox, onCompany, rfl⟩ :=
    createCompany_cases makes
  obtain ⟨same, kept⟩ := linkOptional_keeps links sound.link_pair
  obtain ⟨free, -⟩ := Table.create_some company
  obtain ⟨-, get⟩ := Table.create_some logged
  rw [same]
  constructor
  case spared =>
    exact { Spared.refl _ db with
      companies := Table.Kept.refl.create company
      activities := Table.Kept.refl.create logged
      links := kept }
  case company =>
    intro id pointer
    rw [← Option.some.inj pointer]
    exact free
  case company_quiet =>
    intro id pointer key row found subject
    obtain rfl := Option.some.inj pointer
    simp only [get] at found
    split at found
    · rw [← Option.some.inj found, byBox]
      simp [provenance]
    · exact absurd free (sound.activity_company key row _ found subject)
  all_goals
    intros
    contradiction

theorem matchReview_wrote {p : MatchReviewPayload} (sound : db.Sound)
    (runs : applying.matchReview db p = .ok (after, created)) : Wrote db after created := by
  rw [matchReview] at runs
  split at runs
  · contradiction
  · rw [bind_ok_iff] at runs
    obtain ⟨-, -, runs⟩ := runs
    obtain ⟨linked, links, runs⟩ := bind_ok_iff.mp runs
    obtain ⟨rfl, rfl⟩ := Prod.mk.inj (pure_ok_iff.mp runs)
    obtain ⟨same, kept⟩ := linkOptional_keeps links sound.link_pair
    rw [same]
    constructor
    case spared => exact { Spared.refl _ db with links := kept }
    all_goals
      intros
      contradiction

theorem createProjectKind_wrote {p : CreateProjectPayload}
    (runs : applying.createProjectKind db p = .ok (after, created)) : Wrote db after created := by
  rw [createProjectKind, bind_ok_iff] at runs
  obtain ⟨made, makes, runs⟩ := runs
  obtain ⟨rfl, rfl⟩ := Prod.mk.inj (pure_ok_iff.mp runs)
  rw [createProject, bind_ok_iff] at makes
  obtain ⟨-, -, makes⟩ := makes
  obtain ⟨projects, project, makes⟩ := bind_ok_iff.mp makes
  obtain rfl := pure_ok_iff.mp makes
  constructor
  case spared =>
    exact { Spared.refl _ db with projects := Table.Kept.refl.create (create_ok.mp project) }
  all_goals
    intros
    contradiction

theorem setProjectCustomer_wrote {p : SetProjectCustomerPayload}
    (runs : setProjectCustomer db p = .ok (after, created)) : Wrote db after created := by
  rw [setProjectCustomer, bind_ok_iff] at runs
  obtain ⟨updated, updates, runs⟩ := runs
  obtain ⟨rfl, rfl⟩ := Prod.mk.inj (pure_ok_iff.mp runs)
  rw [updateProject, bind_ok_iff] at updates
  obtain ⟨-, -, updates⟩ := updates
  obtain ⟨-, -, updates⟩ := bind_ok_iff.mp updates
  obtain rfl := pure_ok_iff.mp updates
  constructor
  case spared =>
    refine { Spared.refl _ db with projects := Table.Kept.refl.updateMany ?_ }
    intros
    rfl
  all_goals
    intros
    contradiction

theorem createContact_cases {id userId : RowId} {input : ContactInput}
    (runs : createContact spelling db id userId input filing = .ok after) :
    ∃ contact contacts, db.contacts.create id contact = some contacts ∧
      after = { db with contacts := contacts } := by
  rw [createContact] at runs
  split at runs
  · contradiction
  · rw [bind_ok_iff] at runs
    obtain ⟨contacts, contact, runs⟩ := runs
    exact ⟨_, contacts, create_ok.mp contact, (pure_ok_iff.mp runs).symm⟩

theorem linkContactToCompany_keeps {companyId contactId : RowId}
    (runs : linkContactToCompany db companyId contactId = .ok after) :
    after = { db with companyContacts := after.companyContacts } := by
  simp only [linkContactToCompany, bind_ok_iff, pure_ok_iff] at runs
  obtain ⟨-, -, -, -, -, -, rfl⟩ := runs
  rfl

theorem createContactKind_wrote {p : CreateContactPayload} (sound : db.Sound)
    (runs : applying.createContactKind db p = .ok (after, created)) : Wrote db after created := by
  rw [createContactKind, bind_ok_iff] at runs
  obtain ⟨made, makes, runs⟩ := runs
  obtain ⟨linked, links, runs⟩ := bind_ok_iff.mp runs
  obtain ⟨rfl, rfl⟩ := Prod.mk.inj (pure_ok_iff.mp runs)
  obtain ⟨_, contacts, contact, rfl⟩ := createContact_cases makes
  have same : linked = { db with contacts := contacts, companyContacts := linked.companyContacts } := by
    unfold linkOptionalCompany at links
    split at links
    · exact linkContactToCompany_keeps links
    · rw [← Except.ok.inj links]
  obtain ⟨free, -⟩ := Table.create_some contact
  rw [same]
  constructor
  case spared =>
    exact { Spared.refl _ db with contacts := Table.Kept.refl.create contact }
  case contact =>
    intro id pointer
    rw [← Option.some.inj pointer]
    exact free
  case contact_quiet =>
    intro id pointer key row found subject
    obtain rfl := Option.some.inj pointer
    exact absurd free (sound.activity_contact key row _ found subject)
  all_goals
    intros
    contradiction

theorem logActivity_cases {id : RowId} {input : ActivityInput} {hand : Hand}
    (runs : logActivity db id input hand filing = .ok after) :
    ∃ activity activities, db.activities.create id activity = some activities ∧
      activity.subject = input.subject ∧ activity.origin = provenance filing ∧
      after = { db with activities := activities } := by
  rw [logActivity, bind_ok_iff] at runs
  obtain ⟨-, -, runs⟩ := runs
  obtain ⟨-, -, runs⟩ := bind_ok_iff.mp runs
  obtain ⟨-, -, runs⟩ := bind_ok_iff.mp runs
  obtain ⟨activities, activity, runs⟩ := bind_ok_iff.mp runs
  exact ⟨_, activities, create_ok.mp activity, rfl, rfl, (pure_ok_iff.mp runs).symm⟩

theorem logEmailActivity_wrote {p : LogEmailActivityPayload}
    (runs : applying.logEmailActivity db p = .ok (after, created)) : Wrote db after created := by
  rw [logEmailActivity, bind_ok_iff] at runs
  obtain ⟨logged, logs, runs⟩ := runs
  obtain ⟨rfl, rfl⟩ := Prod.mk.inj (pure_ok_iff.mp runs)
  obtain ⟨_, activities, activity, -, -, rfl⟩ := logActivity_cases logs
  obtain ⟨free, -⟩ := Table.create_some activity
  constructor
  case spared =>
    exact { Spared.refl _ db with activities := Table.Kept.refl.create activity }
  case activity =>
    intro id pointer
    rw [← Option.some.inj pointer]
    exact free
  all_goals
    intros
    contradiction

theorem createLocalDocument_cases {id : RowId} {input : LocalDocumentInput}
    (runs : createLocalDocument db id input = .ok after) :
    ∃ document documents, db.documents.create id document = some documents ∧
      after = { db with documents := documents } := by
  rw [createLocalDocument] at runs
  split at runs
  · contradiction
  · rw [bind_ok_iff] at runs
    obtain ⟨-, -, runs⟩ := runs
    obtain ⟨documents, document, runs⟩ := bind_ok_iff.mp runs
    exact ⟨_, documents, create_ok.mp document, (pure_ok_iff.mp runs).symm⟩

theorem createMoneyDoc_wrote {p : CreateMoneyDocPayload} (sound : db.Sound)
    (runs : applying.createMoneyDoc db p = .ok (after, created)) : Wrote db after created := by
  rw [createMoneyDoc, bind_ok_iff] at runs
  obtain ⟨-, -, runs⟩ := runs
  split at runs
  · contradiction
  · rw [bind_ok_iff] at runs
    obtain ⟨-, -, runs⟩ := runs
    obtain ⟨made, makes, runs⟩ := bind_ok_iff.mp runs
    obtain ⟨linked, links, runs⟩ := bind_ok_iff.mp runs
    obtain ⟨rfl, rfl⟩ := Prod.mk.inj (pure_ok_iff.mp runs)
    obtain ⟨_, documents, document, rfl⟩ := createLocalDocument_cases makes
    obtain ⟨same, kept⟩ := linkOptional_keeps links sound.link_pair
    obtain ⟨free, -⟩ := Table.create_some document
    rw [same]
    constructor
    case spared =>
      exact { Spared.refl _ db with
        documents := Table.Kept.refl.create document
        links := kept }
    case document =>
      intro id pointer
      rw [← Option.some.inj pointer]
      exact free
    all_goals
      intros
      contradiction

variable {kind : IngestProposalKind} {payload : PayloadFor kind}

theorem performApply_wrote (sound : db.Sound)
    (runs : applying.performApply db kind payload = .ok (after, created)) : Wrote db after created := by
  cases kind with
  | LINK_FILE => exact linkFileKind_wrote sound runs
  | LOG_EMAIL_ACTIVITY => exact logEmailActivity_wrote runs
  | SET_PROJECT_CUSTOMER => exact setProjectCustomer_wrote runs
  | CREATE_CUSTOMER => exact createCustomer_wrote sound runs
  | CREATE_PROJECT => exact createProjectKind_wrote runs
  | CREATE_CONTACT => exact createContactKind_wrote sound runs
  | MATCH_REVIEW => exact matchReview_wrote sound runs
  | CREATE_MONEY_DOC => exact createMoneyDoc_wrote sound runs

/-- `performApply` leaves the proposals alone. -/
theorem performApply_proposals (runs : applying.performApply db kind payload = .ok (after, created)) :
    after.proposals = db.proposals := by
  cases kind with
  | LINK_FILE =>
    simp only [performApply, linkFileKind, bind_ok_iff, pure_ok_iff, Prod.mk.injEq] at runs
    obtain ⟨linked, links, rfl, -⟩ := runs
    exact linkFileToRecord_proposals links
  | LOG_EMAIL_ACTIVITY =>
    simp only [performApply, logEmailActivity, bind_ok_iff, pure_ok_iff, Prod.mk.injEq] at runs
    obtain ⟨_, logs, rfl, -⟩ := runs
    obtain ⟨_, _, -, -, -, rfl⟩ := logActivity_cases logs
    rfl
  | SET_PROJECT_CUSTOMER =>
    simp only [performApply, setProjectCustomer, updateProject, bind_ok_iff, pure_ok_iff,
      Prod.mk.injEq] at runs
    obtain ⟨_, ⟨-, -, -, -, rfl⟩, rfl, -⟩ := runs
    rfl
  | CREATE_CUSTOMER =>
    simp only [performApply, createCustomer, bind_ok_iff, pure_ok_iff, Prod.mk.injEq] at runs
    obtain ⟨_, makes, linked, links, rfl, -⟩ := runs
    obtain ⟨_, _, _, _, -, -, -, -, rfl⟩ := createCompany_cases makes
    exact (linkOptional_proposals links :)
  | CREATE_PROJECT =>
    simp only [performApply, createProjectKind, createProject, bind_ok_iff, pure_ok_iff,
      Prod.mk.injEq] at runs
    obtain ⟨_, ⟨-, -, _, -, rfl⟩, rfl, -⟩ := runs
    rfl
  | CREATE_CONTACT =>
    simp only [performApply, createContactKind, bind_ok_iff, pure_ok_iff, Prod.mk.injEq] at runs
    obtain ⟨_, makes, _, links, rfl, -⟩ := runs
    obtain ⟨_, _, -, rfl⟩ := createContact_cases makes
    unfold linkOptionalCompany at links
    split at links
    · rw [linkContactToCompany_keeps links]
    · rw [← Except.ok.inj links]
  | MATCH_REVIEW =>
    simp only [performApply, matchReview] at runs
    split at runs
    · contradiction
    · simp only [bind_ok_iff, pure_ok_iff, Prod.mk.injEq] at runs
      obtain ⟨-, -, linked, links, rfl, -⟩ := runs
      exact linkOptional_proposals links
  | CREATE_MONEY_DOC =>
    simp only [performApply, createMoneyDoc, bind_ok_iff] at runs
    obtain ⟨-, -, runs⟩ := runs
    split at runs
    · contradiction
    · simp only [bind_ok_iff, pure_ok_iff, Prod.mk.injEq] at runs
      obtain ⟨-, -, _, makes, linked, links, rfl, -⟩ := runs
      obtain ⟨_, _, -, rfl⟩ := createLocalDocument_cases makes
      exact (linkOptional_proposals links :)

/-- The link that the proposal would create, or the project it would point to, is there already and is not
archived. -/
def reuses (applying : Applying) (db : Db) : (kind : IngestProposalKind) → PayloadFor kind → Bool
  | .LINK_FILE, p =>
    liveLink db (LinkFilePayload.file p).ncFileId (.COMPANY (LinkFilePayload.companyId p))
  | .MATCH_REVIEW, p =>
    (MatchReviewPayload.file p).any fun file => applying.chooseCompanyId.any fun chosen =>
      liveLink db file.ncFileId (.COMPANY chosen)
  | .CREATE_MONEY_DOC, p =>
    (CreateMoneyDocPayload.file p).any fun file => (applying.moneyCustomer db p).any fun companyId =>
      liveLink db file.ncFileId (.COMPANY companyId)
  | .SET_PROJECT_CUSTOMER, p =>
    (db.projects.get (SetProjectCustomerPayload.projectId p)).any fun project => !project.isArchived
  | .LOG_EMAIL_ACTIVITY, _ | .CREATE_CUSTOMER, _ | .CREATE_PROJECT, _ | .CREATE_CONTACT, _ => false

theorem linkOptional_live (runs : applying.linkOptional db file companyId role = .ok (after, pointer))
    (once : OncePerPair db.links) :
    (∃ id row, pointer = some id ∧ db.links.get id = some row ∧ row.isArchived = false) ↔
      file.any (fun file => liveLink db file.ncFileId (.COMPANY companyId)) = true := by
  cases file with
  | none =>
    obtain ⟨rfl, rfl⟩ := Prod.mk.inj (Except.ok.inj runs)
    simp
  | some file =>
    rw [linkOptional, bind_ok_iff] at runs
    obtain ⟨linked, links, runs⟩ := runs
    obtain ⟨rfl, rfl⟩ := Prod.mk.inj (pure_ok_iff.mp runs)
    have live := linkFileToRecord_live links once
    simpa using live

theorem performApply_live (sound : db.Sound)
    (runs : applying.performApply db kind payload = .ok (after, created)) :
    PointsToLive db created ↔ applying.reuses db kind payload = true := by
  cases kind with
  | LINK_FILE =>
    simp only [performApply, linkFileKind, bind_ok_iff, pure_ok_iff, Prod.mk.injEq] at runs
    obtain ⟨linked, links, rfl, rfl⟩ := runs
    simpa [PointsToLive, reuses] using linkFileToRecord_live links sound.link_pair
  | LOG_EMAIL_ACTIVITY =>
    simp only [performApply, logEmailActivity, bind_ok_iff, pure_ok_iff, Prod.mk.injEq] at runs
    obtain ⟨_, -, rfl, rfl⟩ := runs
    simp [PointsToLive, reuses]
  | SET_PROJECT_CUSTOMER =>
    simp only [performApply, setProjectCustomer, bind_ok_iff, pure_ok_iff, Prod.mk.injEq] at runs
    obtain ⟨_, -, rfl, rfl⟩ := runs
    simp [PointsToLive, reuses, Option.any_eq_true]
  | CREATE_CUSTOMER =>
    simp only [performApply, createCustomer, bind_ok_iff, pure_ok_iff, Prod.mk.injEq] at runs
    obtain ⟨_, makes, linked, links, rfl, rfl⟩ := runs
    obtain ⟨_, companies, _, activities, company, -, -, -, rfl⟩ := createCompany_cases makes
    obtain ⟨free, -⟩ := Table.create_some company
    have live := linkOptional_live links sound.link_pair
    have unlinked (file : FileRef) :
        liveLink { db with companies := companies, activities := activities } file.ncFileId
          (.COMPANY applying.ids.company) = false := by
      rw [Bool.eq_false_iff]
      intro linked
      obtain ⟨key, row, there, hit⟩ := Table.findFirst_isSome.mp linked
      simp only [Bool.and_eq_true, decide_eq_true_eq] at hit
      exact sound.link_company key row _ there hit.1.2 free
    simp only [unlinked] at live
    simpa [PointsToLive, reuses] using live
  | CREATE_PROJECT =>
    simp only [performApply, createProjectKind, createProject, bind_ok_iff, pure_ok_iff,
      Prod.mk.injEq, create_ok] at runs
    obtain ⟨_, ⟨-, -, _, project, rfl⟩, rfl, rfl⟩ := runs
    obtain ⟨free, -⟩ := Table.create_some project
    simp [PointsToLive, reuses, free]
  | CREATE_CONTACT =>
    simp only [performApply, createContactKind, bind_ok_iff, pure_ok_iff, Prod.mk.injEq] at runs
    obtain ⟨_, -, _, -, rfl, rfl⟩ := runs
    simp [PointsToLive, reuses]
  | MATCH_REVIEW =>
    simp only [performApply, matchReview] at runs
    split at runs
    · contradiction
    · rename_i chosen choice
      simp only [bind_ok_iff, pure_ok_iff, Prod.mk.injEq] at runs
      obtain ⟨-, -, linked, links, rfl, rfl⟩ := runs
      simpa [PointsToLive, reuses, choice] using linkOptional_live links sound.link_pair
  | CREATE_MONEY_DOC =>
    simp only [performApply, createMoneyDoc, bind_ok_iff] at runs
    obtain ⟨-, -, runs⟩ := runs
    split at runs
    · contradiction
    · rename_i companyId customer
      simp only [bind_ok_iff, pure_ok_iff, Prod.mk.injEq] at runs
      obtain ⟨-, -, _, makes, linked, links, rfl, rfl⟩ := runs
      obtain ⟨_, documents, _, rfl⟩ := createLocalDocument_cases makes
      simpa [PointsToLive, reuses, customer, liveLink] using linkOptional_live links sound.link_pair

end Applying

end Droplet.Filing
