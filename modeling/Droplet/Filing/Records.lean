import Droplet.Lib.Fallible
import Droplet.Lib.Tables
import Droplet.Lib.Json

/-! The rows that filing reads and writes, and what refers to what. -/

namespace Droplet.Filing

/-- A UUID. -/
abbrev RowId := ℕ

/-- Milliseconds since the epoch. -/
abbrev Instant := ℤ

inductive RecordOrigin where
  | LOCAL
  | EXTRACTED
  | EXTERNAL
  deriving DecidableEq

structure CrmCompany where
  name : String
  domain : Option String
  phone : Option String
  website : Option String
  addressLine1 : Option String
  origin : RecordOrigin
  proposalId : Option RowId
  createdById : Option RowId
  isArchived : Bool
  archivedAt : Option Instant

structure Contact where
  userId : RowId
  displayName : String
  organization : Option String
  jobTitle : Option String
  emails : List String
  phones : List String
  origin : RecordOrigin
  proposalId : Option RowId
  isArchived : Bool
  archivedAt : Option Instant

structure CrmDeal where
  companyId : Option RowId

inductive PmProjectKind where
  | PROJECT
  | SERVICE_DESK
  deriving DecidableEq

structure PmProject where
  name : String
  description : Option String
  kind : PmProjectKind
  companyId : Option RowId
  createdById : Option RowId
  isArchived : Bool
  archivedAt : Option Instant

structure PmWorkItem where
  projectId : RowId
  isArchived : Bool

/-- `subjectType` with the one column it names. -/
inductive LinkSubject where
  | COMPANY (id : RowId)
  | CONTACT (id : RowId)
  | DEAL (id : RowId)
  | PROJECT (id : RowId)
  | WORK_ITEM (id : RowId)
  deriving DecidableEq

inductive EntityLinkRole where
  | CONTRACT
  | INVOICE
  | QUOTE
  | SCAN
  | CORRESPONDENCE
  | OTHER

inductive EntityLinkOrigin where
  | MANUAL
  | SUGGESTED
  | EXTRACTED
  deriving DecidableEq

structure EntityLink where
  ncFileId : ℕ
  fileName : String
  filePath : String
  fileSpace : String
  subject : LinkSubject
  role : EntityLinkRole
  linkedBy : EntityLinkOrigin
  confidence : Option ℕ
  note : Option String
  isArchived : Bool
  archivedAt : Option Instant
  createdById : Option RowId

inductive ActivitySubject where
  | COMPANY (id : RowId)
  | CONTACT (id : RowId)
  | DEAL (id : RowId)
  deriving DecidableEq

inductive ActivityKind where
  | NOTE
  | EMAIL
  | CALL
  | MEETING
  | TASK
  | STAGE_CHANGE
  | CREATED
  | SYNCED

structure CrmActivity where
  subject : ActivitySubject
  kind : ActivityKind
  summary : String
  actorId : Option RowId
  occurredAt : Instant
  emailMessageId : Option String
  origin : RecordOrigin
  /-- Of the external system `filing`. -/
  externalId : Option String

inductive DocumentOrigin where
  | LANDED
  | LOCAL
  deriving DecidableEq

inductive DocumentKind where
  | QUOTE
  | ORDER
  | INVOICE
  | BILL
  | CREDIT_NOTE
  | RECEIPT
  deriving DecidableEq

inductive DocumentStatus where
  | DRAFT
  | SENT
  | ACCEPTED
  | DECLINED
  | EXPIRED
  | CONFIRMED
  | FULFILLED
  | CANCELLED
  | PART_PAID
  | PAID
  | VOID
  | WRITTEN_OFF
  | ISSUED
  | APPLIED
  deriving DecidableEq

structure ErpDocument where
  origin : DocumentOrigin
  kind : DocumentKind
  status : Option DocumentStatus
  companyId : Option RowId
  documentNumber : Option String
  currency : String
  amount : String
  balance : String
  issuedAt : Option String
  dueAt : Option String
  counterpartyName : Option String

inductive IngestProposalKind where
  | LINK_FILE
  | LOG_EMAIL_ACTIVITY
  | SET_PROJECT_CUSTOMER
  | CREATE_CUSTOMER
  | CREATE_PROJECT
  | CREATE_CONTACT
  | MATCH_REVIEW
  | CREATE_MONEY_DOC
  deriving DecidableEq

inductive IngestProposalStatus where
  | PENDING
  | APPLIED
  | REJECTED
  | NOT_SAME
  | EXPIRED
  | UNDONE
  deriving DecidableEq

inductive FilingPolicyClass where
  | AUTO
  | REVIEW
  | NEVER
  deriving DecidableEq

inductive UndoMode where
  | delete
  | archive
  deriving DecidableEq

/-- The back-pointers of a proposal. -/
structure Created where
  createdCompanyId : Option RowId := none
  createdContactId : Option RowId := none
  createdProjectId : Option RowId := none
  createdEntityLinkId : Option RowId := none
  createdActivityId : Option RowId := none
  createdErpDocumentId : Option RowId := none

structure IngestProposal where
  kind : IngestProposalKind
  status : IngestProposalStatus
  policyClass : FilingPolicyClass
  policyReason : Option String
  confidence : ℕ
  payload : Json ℚ
  evidence : Option (Json ℚ)
  dependsOnProposalId : Option RowId
  decidedById : Option RowId
  decidedAt : Option Instant
  appliedAt : Option Instant
  autoApplied : Bool
  undoneById : Option RowId
  undoneAt : Option Instant
  undoMode : Option UndoMode
  created : Created

inductive IngestKeyKind where
  | EMAIL_ADDRESS
  | EMAIL_DOMAIN
  | NAME
  | NC_FOLDER
  deriving DecidableEq

inductive FilingDecisionKind where
  | NOT_SAME
  | ALWAYS_HERE
  | IGNORE_SOURCE
  deriving DecidableEq

structure FilingDecision where
  keyKind : IngestKeyKind
  keyValue : String
  verdict : FilingDecisionKind
  companyId : Option RowId
  createdById : RowId

structure Db where
  proposals : Table RowId IngestProposal
  decisions : List FilingDecision
  companies : Table RowId CrmCompany
  contacts : Table RowId Contact
  deals : Table RowId CrmDeal
  projects : Table RowId PmProject
  workItems : Table RowId PmWorkItem
  links : Table RowId EntityLink
  activities : Table RowId CrmActivity
  documents : Table RowId ErpDocument
  /-- `CrmCompanyContact`, each of a company and a contact. -/
  companyContacts : List (RowId × RowId)
  emailMessages : List String
  /-- `ModuleSetting` of `money`. -/
  moneyEnabled : Option Bool

/-- What the foreign keys and the partial unique indexes of the schema promise. -/
structure Db.Sound (db : Db) : Prop where
  activity_company : ∀ id activity company, db.activities.get id = some activity →
    activity.subject = .COMPANY company → db.companies.get company ≠ none
  activity_contact : ∀ id activity contact, db.activities.get id = some activity →
    activity.subject = .CONTACT contact → db.contacts.get contact ≠ none
  link_company : ∀ id link company, db.links.get id = some link →
    link.subject = .COMPANY company → db.companies.get company ≠ none
  link_contact : ∀ id link contact, db.links.get id = some link →
    link.subject = .CONTACT contact → db.contacts.get contact ≠ none
  link_pair : ∀ id other first second, db.links.get id = some first →
    db.links.get other = some second → first.ncFileId = second.ncFileId →
    first.subject = second.subject → id = other

/-- `CrmActivity`, `EntityLink` and `CrmCompanyContact` go with a company; deals, projects and documents
lose it. -/
def Db.deleteCompany (db : Db) (id : RowId) : Db :=
  { db with
    companies := db.companies.deleteMany fun key _ => key = id
    activities := db.activities.deleteMany fun _ row => row.subject = .COMPANY id
    links := db.links.deleteMany fun _ row => row.subject = .COMPANY id
    companyContacts := db.companyContacts.filter fun pair => pair.1 ≠ id
    deals := db.deals.updateMany (fun _ row => row.companyId = some id)
      fun row => { row with companyId := none }
    projects := db.projects.updateMany (fun _ row => row.companyId = some id)
      fun row => { row with companyId := none }
    documents := db.documents.updateMany (fun _ row => row.companyId = some id)
      fun row => { row with companyId := none } }

def Db.deleteContact (db : Db) (id : RowId) : Db :=
  { db with
    contacts := db.contacts.deleteMany fun key _ => key = id
    activities := db.activities.deleteMany fun _ row => row.subject = .CONTACT id
    links := db.links.deleteMany fun _ row => row.subject = .CONTACT id
    companyContacts := db.companyContacts.filter fun pair => pair.2 ≠ id }

end Droplet.Filing
