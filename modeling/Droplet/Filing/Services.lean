import Droplet.Filing.Records

/-! The functions of the CRM, the address book, the projects and the money that filing calls inside its
transactions. -/

namespace Droplet.Filing

inductive Failure where
  | PROPOSAL_NOT_FOUND
  | NOT_PENDING
  | NEVER_APPLIABLE
  | PAYLOAD_UNREADABLE
  | SOURCE_CHANGED
  | NOT_APPLIED
  | CHOICE_REQUIRED
  | CUSTOMER_REQUIRED
  | CHOICE_NOT_OFFERED
  | MONEY_MODULE_OFF
  | SUBJECT_NOT_FOUND
  | LINK_NOT_FOUND
  | CONFIDENCE_MISMATCH
  | COMPANY_NOT_FOUND
  | CONTACT_NOT_FOUND
  | DEAL_NOT_FOUND
  | EMAIL_MESSAGE_NOT_FOUND
  | DUPLICATE_LINK
  | PROJECT_NOT_FOUND
  | CONTACT_NEEDS_A_NAME
  | NEEDS_PARTY
  /-- A constraint of the database refuses, or it cannot be reached. -/
  | DRIVER
  deriving DecidableEq

/-- What runs inside a transaction: its writes are kept only where it returns. -/
abbrev Transaction := Except Failure

def require (failure : Failure) (found : Bool) : Transaction Unit :=
  if found then .ok () else .error failure

def create {Columns : Type} (table : Table RowId Columns) (id : RowId) (data : Columns) :
    Transaction (Table RowId Columns) :=
  match table.create id data with
  | some created => .ok created
  | none => .error .DRIVER

structure Spelling where
  normalizeDomain : String → Option String
  normalizePhone : String → String
  normalizeCompanyName : String → String
  toLowerCase : String → String

/-- Who writes, and when. -/
structure Hand where
  actorId : RowId
  now : Instant

/-- The UUIDs a transaction draws, one for each row it may create. -/
structure NewIds where
  company : RowId
  contact : RowId
  project : RowId
  link : RowId
  activity : RowId
  document : RowId

/-! ### `entity-link.service.ts` -/

def assertSubjectExists (db : Db) (subject : LinkSubject) : Transaction Unit :=
  require .SUBJECT_NOT_FOUND <|
    match subject with
    | .COMPANY id => (db.companies.get id).isSome
    | .CONTACT id => (db.contacts.get id).isSome
    | .DEAL id => (db.deals.get id).isSome
    | .PROJECT id => (db.projects.get id).any fun project => project.kind = .PROJECT
    | .WORK_ITEM id => (db.workItems.get id).any fun item =>
      (db.projects.get item.projectId).any fun project => project.kind = .PROJECT

def fileNameFromPath (filePath : String) : String :=
  String.ofList (((filePath.toList.splitOn '/').filter fun segment => segment ≠ []).getLast?.getD
    filePath.toList)

structure EntityLinkInput where
  ncFileId : ℕ
  filePath : String
  fileSpace : String
  subject : LinkSubject
  role : Option EntityLinkRole := none
  linkedBy : EntityLinkOrigin := .MANUAL
  confidence : Option ℕ := none
  note : Option String := none

def resolveConfidence (linkedBy : EntityLinkOrigin) (confidence : Option ℕ) :
    Transaction (Option ℕ) := do
  require .CONFIDENCE_MISMATCH (decide (linkedBy = .MANUAL) == confidence.isNone)
  return confidence

def EntityLinkInput.pairWhere (input : EntityLinkInput) (row : EntityLink) : Bool :=
  row.ncFileId = input.ncFileId && row.subject = input.subject

/-- The columns that a second link of the same pair writes again. -/
def EntityLinkInput.mutable (input : EntityLinkInput) (confidence : Option ℕ) (row : EntityLink) :
    EntityLink :=
  { row with
    fileName := fileNameFromPath input.filePath
    filePath := input.filePath
    fileSpace := input.fileSpace
    role := input.role.getD .OTHER
    linkedBy := input.linkedBy
    confidence := confidence
    note := input.note
    isArchived := false
    archivedAt := none }

def EntityLinkInput.row (input : EntityLinkInput) (confidence : Option ℕ) (actorId : RowId) :
    EntityLink where
  ncFileId := input.ncFileId
  fileName := fileNameFromPath input.filePath
  filePath := input.filePath
  fileSpace := input.fileSpace
  subject := input.subject
  role := input.role.getD .OTHER
  linkedBy := input.linkedBy
  confidence := confidence
  note := input.note
  isArchived := false
  archivedAt := none
  createdById := some actorId

def linkFileToRecord (db : Db) (newId : RowId) (input : EntityLinkInput) (actorId : RowId) :
    Transaction (Db × RowId) := do
  let confidence ← resolveConfidence input.linkedBy input.confidence
  assertSubjectExists db input.subject
  match db.links.findFirst fun _ row => input.pairWhere row with
  | some (id, _) =>
    let links := db.links.updateMany (fun _ row => input.pairWhere row) (input.mutable confidence)
    return ({ db with links := links }, id)
  | none =>
    let links ← create db.links newId (input.row confidence actorId)
    return ({ db with links := links }, newId)

/-! ### `crm.service.ts` -/

structure FilingProvenance where
  proposalId : RowId
  externalId : Option String := none

def provenance (filing : Option FilingProvenance) : RecordOrigin :=
  if filing.isSome then .EXTRACTED else .LOCAL

structure CompanyInput where
  name : String
  domain : Option String
  phone : Option String
  website : Option String
  addressLine1 : Option String

def createCompany (spelling : Spelling) (db : Db) (id activityId : RowId) (input : CompanyInput)
    (hand : Hand) (filing : Option FilingProvenance) : Transaction Db := do
  let companies ← create db.companies id
    { name := input.name
      domain := input.domain.bind spelling.normalizeDomain
      phone := input.phone
      website := input.website
      addressLine1 := input.addressLine1
      origin := provenance filing
      proposalId := filing.map FilingProvenance.proposalId
      createdById := some hand.actorId
      isArchived := false
      archivedAt := none }
  let activities ← create db.activities activityId
    { subject := .COMPANY id
      kind := .CREATED
      summary := "Customer created: " ++ input.name
      actorId := some hand.actorId
      occurredAt := hand.now
      emailMessageId := none
      origin := provenance filing
      externalId := none }
  return { db with companies := companies, activities := activities }

def linkContactToCompany (db : Db) (companyId contactId : RowId) : Transaction Db := do
  require .COMPANY_NOT_FOUND (db.companies.get companyId).isSome
  require .CONTACT_NOT_FOUND (db.contacts.get contactId).isSome
  require .DUPLICATE_LINK (!db.companyContacts.contains (companyId, contactId))
  return { db with companyContacts := (companyId, contactId) :: db.companyContacts }

structure ActivityInput where
  subject : ActivitySubject
  kind : ActivityKind
  summary : String
  occurredAt : Option Instant
  emailMessageId : Option String

def assertActivitySubject (db : Db) : ActivitySubject → Transaction Unit
  | .COMPANY subject => require .COMPANY_NOT_FOUND (db.companies.get subject).isSome
  | .CONTACT subject => require .CONTACT_NOT_FOUND (db.contacts.get subject).isSome
  | .DEAL subject => require .DEAL_NOT_FOUND (db.deals.get subject).isSome

/-- The other references of an activity are to rows that filing never names. -/
def logActivity (db : Db) (id : RowId) (input : ActivityInput) (hand : Hand)
    (filing : Option FilingProvenance) : Transaction Db := do
  assertActivitySubject db input.subject
  require .EMAIL_MESSAGE_NOT_FOUND (input.emailMessageId.all db.emailMessages.contains)
  let externalId := filing.bind FilingProvenance.externalId
  require .DRIVER (externalId.isNone ||
    (db.activities.findFirst fun _ row => row.externalId = externalId).isNone)
  let activities ← create db.activities id
    { subject := input.subject
      kind := input.kind
      summary := input.summary
      actorId := some hand.actorId
      occurredAt := input.occurredAt.getD hand.now
      emailMessageId := input.emailMessageId
      origin := provenance filing
      externalId := externalId }
  return { db with activities := activities }

/-! ### `contacts.service.ts` -/

structure ContactInput where
  displayName : String
  organization : Option String
  jobTitle : Option String
  emails : List String
  phones : List String

def deriveDisplayName (input : ContactInput) : Option String :=
  ([some input.displayName, input.organization, input.emails.head?].reduceOption).find? fun name =>
    name ≠ ""

def createContact (spelling : Spelling) (db : Db) (id : RowId) (userId : RowId)
    (input : ContactInput) (filing : Option FilingProvenance) : Transaction Db := do
  match deriveDisplayName input with
  | none => .error .CONTACT_NEEDS_A_NAME
  | some displayName =>
    let contacts ← create db.contacts id
      { userId := userId
        displayName := displayName
        organization := input.organization
        jobTitle := input.jobTitle
        emails := input.emails
        phones := input.phones.map spelling.normalizePhone
        origin := provenance filing
        proposalId := filing.map FilingProvenance.proposalId
        isArchived := false
        archivedAt := none }
    return { db with contacts := contacts }

/-! ### `pm.service.ts` -/

def assertCompanyExists (db : Db) (companyId : RowId) : Transaction Unit :=
  require .COMPANY_NOT_FOUND (db.companies.get companyId).isSome

def assertOptionalCompany (db : Db) : Option RowId → Transaction Unit
  | some companyId => assertCompanyExists db companyId
  | none => .ok ()

/-- Its identifier, its workspace and its states are left out. -/
def createProject (db : Db) (id : RowId) (actorId : RowId) (name : String)
    (description : Option String) (companyId : Option RowId) : Transaction Db := do
  assertOptionalCompany db companyId
  let projects ← create db.projects id
    { name := name
      description := description
      kind := .PROJECT
      companyId := companyId
      createdById := some actorId
      isArchived := false
      archivedAt := none }
  return { db with projects := projects }

/-- Of its fields filing sets the customer alone. -/
def updateProject (db : Db) (projectId companyId : RowId) : Transaction Db := do
  require .PROJECT_NOT_FOUND ((db.projects.get projectId).any fun project => project.kind = .PROJECT)
  assertCompanyExists db companyId
  let projects := db.projects.updateMany (fun key _ => key = projectId) fun row =>
    { row with companyId := some companyId }
  return { db with projects := projects }

/-! ### `money.service.ts`, `document-status.ts` -/

inductive MoneyDirection where
  | RECEIVABLE
  | PAYABLE
  deriving DecidableEq

def KINDS_BY_DIRECTION : MoneyDirection → List DocumentKind
  | .RECEIVABLE => [.INVOICE, .CREDIT_NOTE, .RECEIPT]
  | .PAYABLE => [.BILL]

def directionOf (kind : DocumentKind) : Option MoneyDirection :=
  if kind ∈ KINDS_BY_DIRECTION .RECEIVABLE then some .RECEIVABLE
  else if kind ∈ KINDS_BY_DIRECTION .PAYABLE then some .PAYABLE
  else none

def INITIAL_STATUS : DocumentStatus := .DRAFT

structure LocalDocumentInput where
  kind : DocumentKind
  companyId : Option RowId
  documentNumber : Option String
  currency : String
  total : String
  balance : Option String
  issuedAt : Option String
  dueAt : Option String
  counterpartyName : Option String

def createLocalDocument (db : Db) (id : RowId) (input : LocalDocumentInput) : Transaction Db := do
  match input.companyId with
  | none => .error .NEEDS_PARTY
  | some companyId =>
    require .DRIVER (db.companies.get companyId).isSome
    let documents ← create db.documents id
      { origin := .LOCAL
        kind := input.kind
        status := some INITIAL_STATUS
        companyId := some companyId
        documentNumber := input.documentNumber
        currency := input.currency
        amount := input.total
        balance := input.balance.getD input.total
        issuedAt := input.issuedAt
        dueAt := input.dueAt
        counterpartyName := input.counterpartyName }
    return { db with documents := documents }

def deleteDraftDocument (db : Db) (documentId : RowId) : Db × Bool :=
  let draft (key : RowId) (row : ErpDocument) : Bool :=
    key = documentId && row.origin = .LOCAL && row.status = some INITIAL_STATUS
  ({ db with documents := db.documents.deleteMany draft },
    (db.documents.findFirst draft).isSome)

end Droplet.Filing
