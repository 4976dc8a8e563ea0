import Droplet.Filing.Services

/-! Applying a proposal, and the two refusals (`filing/apply.service.ts`). -/

namespace Droplet.Filing

structure FileRef where
  ncFileId : ℕ
  filePath : String
  fileSpace : String

structure MatchedKey where
  matchedKeyKind : Option IngestKeyKind := none
  matchedKeyValue : Option String := none

structure LinkFilePayload extends MatchedKey where
  companyId : RowId
  companyName : String
  file : FileRef

structure LogEmailActivityPayload extends MatchedKey where
  companyId : RowId
  companyName : String
  emailMessageId : String
  subject : Option String
  occurredAt : Option Instant

structure SetProjectCustomerPayload where
  projectId : RowId
  projectName : String
  companyId : RowId
  companyName : String

structure CreateCustomerPayload where
  name : String
  domain : Option String
  phone : Option String
  website : Option String
  address : Option String
  file : Option FileRef

structure CreateProjectPayload where
  name : String
  summary : Option String
  companyId : Option RowId

structure CreateContactPayload where
  displayName : String
  email : Option String
  phone : Option String
  organization : Option String
  roleTitle : Option String
  companyId : Option RowId

structure MatchCandidate where
  companyId : RowId
  name : String

structure MatchReviewPayload extends MatchedKey where
  extractedName : String
  candidates : List MatchCandidate
  file : Option FileRef

structure CreateMoneyDocPayload where
  kind : DocumentKind
  number : Option String
  issuedAt : Option String
  dueAt : Option String
  currency : String
  total : String
  balance : Option String
  direction : MoneyDirection
  counterpartyName : Option String
  companyId : Option RowId
  file : Option FileRef

abbrev PayloadFor : IngestProposalKind → Type
  | .LINK_FILE => LinkFilePayload
  | .LOG_EMAIL_ACTIVITY => LogEmailActivityPayload
  | .SET_PROJECT_CUSTOMER => SetProjectCustomerPayload
  | .CREATE_CUSTOMER => CreateCustomerPayload
  | .CREATE_PROJECT => CreateProjectPayload
  | .CREATE_CONTACT => CreateContactPayload
  | .MATCH_REVIEW => MatchReviewPayload
  | .CREATE_MONEY_DOC => CreateMoneyDocPayload

/-- How stored text is read: `parsePayload` by the allow-list of each kind. -/
structure Reading where
  spelling : Spelling
  parsePayload : (kind : IngestProposalKind) → Json ℚ → Option (PayloadFor kind)

def fileOf : (kind : IngestProposalKind) → PayloadFor kind → Option FileRef
  | .LINK_FILE, p => some (LinkFilePayload.file p)
  | .CREATE_CUSTOMER, p => CreateCustomerPayload.file p
  | .MATCH_REVIEW, p => MatchReviewPayload.file p
  | .CREATE_MONEY_DOC, p => CreateMoneyDocPayload.file p
  | .LOG_EMAIL_ACTIVITY, _ | .SET_PROJECT_CUSTOMER, _ | .CREATE_PROJECT, _ | .CREATE_CONTACT, _ => none

/-! ### `performApply` -/

structure Applying where
  reading : Reading
  ids : NewIds
  hand : Hand
  proposalId : RowId
  confidence : ℕ
  dependsOnProposalId : Option RowId
  chooseCompanyId : Option RowId

namespace Applying

def linkFile (applying : Applying) (db : Db) (file : FileRef) (companyId : RowId)
    (role : Option EntityLinkRole) : Transaction (Db × RowId) :=
  linkFileToRecord db applying.ids.link
    { ncFileId := file.ncFileId
      filePath := file.filePath
      fileSpace := file.fileSpace
      subject := .COMPANY companyId
      role := role
      linkedBy := .EXTRACTED
      confidence := some applying.confidence }
    applying.hand.actorId

def linkOptional (applying : Applying) (db : Db) (file : Option FileRef) (companyId : RowId)
    (role : Option EntityLinkRole) : Transaction (Db × Option RowId) :=
  match file with
  | none => .ok (db, none)
  | some file => do
      let linked ← applying.linkFile db file companyId role
      return (linked.1, some linked.2)

def linkFileKind (applying : Applying) (db : Db) (p : LinkFilePayload) :
    Transaction (Db × Created) := do
  let linked ← applying.linkFile db p.file p.companyId none
  return (linked.1, { createdEntityLinkId := some linked.2 })

def createCustomer (applying : Applying) (db : Db) (p : CreateCustomerPayload) :
    Transaction (Db × Created) := do
  let made ← createCompany applying.reading.spelling db applying.ids.company applying.ids.activity
    { name := p.name
      domain := p.domain
      phone := p.phone
      website := p.website
      addressLine1 := p.address }
    applying.hand (some { proposalId := applying.proposalId })
  let linked ← applying.linkOptional made p.file applying.ids.company none
  return (linked.1,
    { createdCompanyId := some applying.ids.company
      createdEntityLinkId := linked.2 })

def matchReview (applying : Applying) (db : Db) (p : MatchReviewPayload) :
    Transaction (Db × Created) :=
  match applying.chooseCompanyId with
  | none => .error .CHOICE_REQUIRED
  | some chosen => do
      require .CHOICE_NOT_OFFERED (p.candidates.any fun candidate => candidate.companyId = chosen)
      let linked ← applying.linkOptional db p.file chosen none
      return (linked.1, { createdEntityLinkId := linked.2 })

def createProjectKind (applying : Applying) (db : Db) (p : CreateProjectPayload) :
    Transaction (Db × Created) := do
  let made ← createProject db applying.ids.project applying.hand.actorId p.name p.summary p.companyId
  return (made, { createdProjectId := some applying.ids.project })

/-- The project that was there is what `createdProjectId` names. -/
def setProjectCustomer (db : Db) (p : SetProjectCustomerPayload) :
    Transaction (Db × Created) := do
  let updated ← updateProject db p.projectId p.companyId
  return (updated, { createdProjectId := some p.projectId })

def linkOptionalCompany (db : Db) (companyId : Option RowId) (contactId : RowId) : Transaction Db :=
  match companyId with
  | some companyId => linkContactToCompany db companyId contactId
  | none => .ok db

def createContactKind (applying : Applying) (db : Db) (p : CreateContactPayload) :
    Transaction (Db × Created) := do
  let made ← createContact applying.reading.spelling db applying.ids.contact applying.hand.actorId
    { displayName := p.displayName
      organization := p.organization
      jobTitle := p.roleTitle
      emails := p.email.toList
      phones := p.phone.toList }
    (some { proposalId := applying.proposalId })
  let linked ← linkOptionalCompany made p.companyId applying.ids.contact
  return (linked, { createdContactId := some applying.ids.contact })

def logEmailActivity (applying : Applying) (db : Db) (p : LogEmailActivityPayload) :
    Transaction (Db × Created) := do
  let logged ← logActivity db applying.ids.activity
    { subject := .COMPANY p.companyId
      kind := .EMAIL
      summary := p.subject.getD "Email logged"
      occurredAt := p.occurredAt
      emailMessageId := some p.emailMessageId }
    applying.hand
    (some { proposalId := applying.proposalId, externalId := some p.emailMessageId })
  return (logged, { createdActivityId := some applying.ids.activity })

/-- `resolveChainedCustomer` (`money-customer.ts`): the customer that the proposal this one depends on
created, where that still stands. -/
def resolveChainedCustomer (applying : Applying) (db : Db) : Option RowId := do
  let parent ← db.proposals.get (← applying.dependsOnProposalId)
  guard (parent.status = .APPLIED)
  let companyId ← parent.created.createdCompanyId
  let company ← db.companies.get companyId
  guard (!company.isArchived)
  return companyId

def moneyCustomer (applying : Applying) (db : Db) (p : CreateMoneyDocPayload) : Option RowId :=
  p.companyId <|> applying.resolveChainedCustomer db

def ROLE_FOR_MONEY_KIND : DocumentKind → EntityLinkRole
  | .INVOICE => .INVOICE
  | .QUOTE => .QUOTE
  | .BILL | .RECEIPT | .CREDIT_NOTE | .ORDER => .OTHER

def createMoneyDoc (applying : Applying) (db : Db) (p : CreateMoneyDocPayload) :
    Transaction (Db × Created) := do
  require .MONEY_MODULE_OFF (db.moneyEnabled.getD false)
  match applying.moneyCustomer db p with
  | none => .error .CUSTOMER_REQUIRED
  | some companyId => do
      require .PAYLOAD_UNREADABLE ((directionOf p.kind).all fun derived => derived = p.direction)
      let made ← createLocalDocument db applying.ids.document
        { kind := p.kind
          companyId := some companyId
          documentNumber := p.number
          currency := p.currency
          total := p.total
          balance := p.balance
          issuedAt := p.issuedAt
          dueAt := p.dueAt
          counterpartyName := p.counterpartyName }
      let linked ← applying.linkOptional made p.file companyId (some (ROLE_FOR_MONEY_KIND p.kind))
      return (linked.1,
        { createdErpDocumentId := some applying.ids.document
          createdEntityLinkId := linked.2 })

def performApply (applying : Applying) (db : Db) :
    (kind : IngestProposalKind) → PayloadFor kind → Transaction (Db × Created)
  | .LINK_FILE, p => applying.linkFileKind db p
  | .CREATE_CUSTOMER, p => applying.createCustomer db p
  | .MATCH_REVIEW, p => applying.matchReview db p
  | .CREATE_PROJECT, p => applying.createProjectKind db p
  | .SET_PROJECT_CUSTOMER, p => setProjectCustomer db p
  | .CREATE_CONTACT, p => applying.createContactKind db p
  | .LOG_EMAIL_ACTIVITY, p => applying.logEmailActivity db p
  | .CREATE_MONEY_DOC, p => applying.createMoneyDoc db p

end Applying

/-! ### `applyProposal` -/

def Db.moved (db : Db) (id : RowId) (current : IngestProposalStatus)
    (data : IngestProposal → IngestProposal) : Db :=
  { db with
    proposals := db.proposals.updateMany (fun key row => key = id && row.status = current) data }

/-- A guarded `updateMany` of one proposal: where it is not in the status asked for, the call throws. -/
def moveProposal (db : Db) (id : RowId) (current : IngestProposalStatus) (failure : Failure)
    (data : IngestProposal → IngestProposal) : Transaction Db := do
  require failure ((db.proposals.get id).any fun row => row.status = current)
  return db.moved id current data

/-- `update` of one proposal, whatever its status -/
def Db.updateProposal (db : Db) (id : RowId) (data : IngestProposal → IngestProposal) : Db :=
  { db with proposals := db.proposals.updateMany (fun key _ => key = id) data }

/-- What a call read before its transaction. -/
structure Preflight where
  proposal : IngestProposal
  payload : PayloadFor proposal.kind

def applyPreflight (reading : Reading) (db : Db) (id : RowId) : Transaction Preflight :=
  match db.proposals.get id with
  | none => .error .PROPOSAL_NOT_FOUND
  | some proposal => do
      require .NOT_PENDING (proposal.status = .PENDING)
      require .NEVER_APPLIABLE (proposal.policyClass ≠ .NEVER)
      match reading.parsePayload proposal.kind proposal.payload with
      | none => .error .PAYLOAD_UNREADABLE
      | some payload => return ⟨proposal, payload⟩

def Preflight.file (pre : Preflight) : Option FileRef := fileOf pre.proposal.kind pre.payload

/-- `current` is what `resolveFileId` answers for its path. -/
def FileRef.check (file : FileRef) (current : Option ℕ) : Transaction Unit :=
  require .SOURCE_CHANGED (current = some file.ncFileId)

def checkSource (resolveFileId : String → Option ℕ) : Option FileRef → Transaction Unit
  | some file => file.check (resolveFileId file.filePath)
  | none => .ok ()

/-- Who applies, with what ids, and which of the offered companies is chosen. -/
structure ApplyContext where
  hand : Hand
  ids : NewIds
  chooseCompanyId : Option RowId

def Preflight.applying (pre : Preflight) (reading : Reading) (id : RowId) (ctx : ApplyContext) :
    Applying where
  reading := reading
  ids := ctx.ids
  hand := ctx.hand
  proposalId := id
  confidence := pre.proposal.confidence
  dependsOnProposalId := pre.proposal.dependsOnProposalId
  chooseCompanyId := ctx.chooseCompanyId

def IngestProposal.decide (proposal : IngestProposal) (status : IngestProposalStatus) (hand : Hand) :
    IngestProposal :=
  { proposal with
    status := status
    decidedById := some hand.actorId
    decidedAt := some hand.now }

def IngestProposal.applied (proposal : IngestProposal) (hand : Hand) : IngestProposal :=
  { proposal.decide .APPLIED hand with
    appliedAt := some hand.now
    autoApplied := false }

def applyTransaction (reading : Reading) (db : Db) (id : RowId) (pre : Preflight)
    (ctx : ApplyContext) : Transaction (Db × Created) := do
  let claimed ← moveProposal db id .PENDING .NOT_PENDING fun row => row.applied ctx.hand
  let done ← (pre.applying reading id ctx).performApply claimed pre.proposal.kind pre.payload
  return (done.1.updateProposal id fun row => { row with created := done.2 }, done.2)

def applyProposal (reading : Reading) (resolveFileId : String → Option ℕ) (db : Db) (id : RowId)
    (ctx : ApplyContext) : Transaction (Db × Created) := do
  let pre ← applyPreflight reading db id
  checkSource resolveFileId pre.file
  applyTransaction reading db id pre ctx

def rejectProposal (db : Db) (id : RowId) (hand : Hand) : Transaction Db :=
  moveProposal db id .PENDING .NOT_PENDING fun row =>
    { row.decide .REJECTED hand with evidence := none }

def matchedKeyOf : (kind : IngestProposalKind) → PayloadFor kind → MatchedKey
  | .LINK_FILE, p => LinkFilePayload.toMatchedKey p
  | .LOG_EMAIL_ACTIVITY, p => LogEmailActivityPayload.toMatchedKey p
  | .MATCH_REVIEW, p => MatchReviewPayload.toMatchedKey p
  | .SET_PROJECT_CUSTOMER, _ | .CREATE_CUSTOMER, _ | .CREATE_PROJECT, _ | .CREATE_CONTACT, _
  | .CREATE_MONEY_DOC, _ => {}

def nameOf : (kind : IngestProposalKind) → PayloadFor kind → Option String
  | .CREATE_CUSTOMER, p => some (CreateCustomerPayload.name p)
  | _, _ => none

def notSameKey (spelling : Spelling) (kind : IngestProposalKind) (payload : PayloadFor kind) :
    Option (IngestKeyKind × String) :=
  match matchedKeyOf kind payload with
  | ⟨some carriedKind, some carried⟩ =>
    if carried ≠ "" then some (carriedKind, spelling.toLowerCase carried) else named
  | _ => named
where
  named : Option (IngestKeyKind × String) :=
    (nameOf kind payload).map fun name =>
      let normal := spelling.normalizeCompanyName name
      (.NAME, if normal ≠ "" then normal else spelling.toLowerCase name)

/-- The unique index `FilingDecision_not_same_key`. -/
def FilingDecision.clashes (decision other : FilingDecision) : Bool :=
  other.verdict = .NOT_SAME && other.keyKind = decision.keyKind &&
    other.keyValue = decision.keyValue && other.companyId = decision.companyId

def notSameDecision (key : IngestKeyKind × String) (companyId : RowId) (hand : Hand) :
    FilingDecision where
  keyKind := key.1
  keyValue := key.2
  verdict := .NOT_SAME
  companyId := some companyId
  createdById := hand.actorId

def markNotSame (reading : Reading) (db : Db) (id companyId : RowId) (hand : Hand) :
    Transaction Db :=
  match db.proposals.get id with
  | none => .error .PROPOSAL_NOT_FOUND
  | some proposal => do
      let moved ← moveProposal db id .PENDING .NOT_PENDING fun row =>
        { row.decide .NOT_SAME hand with evidence := none }
      let key := (reading.parsePayload proposal.kind proposal.payload).bind
        (notSameKey reading.spelling proposal.kind)
      match key with
      | none => return moved
      | some key => do
          let decision := notSameDecision key companyId hand
          require .DRIVER (!moved.decisions.any decision.clashes)
          return { moved with decisions := decision :: moved.decisions }

end Droplet.Filing
