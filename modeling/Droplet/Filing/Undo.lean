import Droplet.Filing.Apply

/-! Taking an applied proposal back (`filing/undo.service.ts`). -/

namespace Droplet.Filing

/-- The database as the reversal goes on, with what `UndoResult` reports. -/
structure Reversal where
  db : Db
  mode : Option UndoMode := none
  companyRemoved : Bool := false
  contactRemoved : Bool := false
  projectRemoved : Bool := false
  linkArchived : Bool := false
  linkRemoved : Bool := false
  activityRemoved : Bool := false
  documentRemoved : Bool := false
  ruleWritten : Bool := false

def hasHumanActivity (db : Db) (subject : ActivitySubject) : Bool :=
  (db.activities.findFirst fun _ row => row.origin = .LOCAL && row.subject = subject).isSome

def Db.deleteCaption (db : Db) (id : RowId) : Db :=
  { db with activities := db.activities.deleteMany fun key row => key = id && row.origin = .EXTRACTED }

def Db.archiveProject (db : Db) (id : RowId) (now : Instant) : Db :=
  { db with
    projects := db.projects.updateMany (fun key _ => key = id) fun row =>
      { row with isArchived := true, archivedAt := some now } }

def Db.archiveContact (db : Db) (id : RowId) (now : Instant) : Db :=
  { db with
    contacts := db.contacts.updateMany (fun key _ => key = id) fun row =>
      { row with isArchived := true, archivedAt := some now } }

def Db.archiveCompany (db : Db) (id : RowId) (now : Instant) : Db :=
  { db with
    companies := db.companies.updateMany (fun key _ => key = id) fun row =>
      { row with isArchived := true, archivedAt := some now } }

def Db.archiveLink (db : Db) (id : RowId) (now : Instant) : Db :=
  { db with
    links := db.links.updateMany (fun key row => key = id && !row.isArchived) fun row =>
      { row with isArchived := true, archivedAt := some now } }

def withPointer (pointer : Option RowId) (state : Reversal) (step : RowId → Reversal) : Reversal :=
  match pointer with
  | some id => step id
  | none => state

namespace Reversal

def caption (state : Reversal) (createdActivityId : Option RowId) : Reversal :=
  withPointer createdActivityId state fun id =>
    { state with
      db := state.db.deleteCaption id
      activityRemoved := (state.db.activities.get id).any fun row => row.origin = .EXTRACTED }

def document (state : Reversal) (createdErpDocumentId : Option RowId) : Reversal :=
  withPointer createdErpDocumentId state fun id =>
    { state with
      db := (deleteDraftDocument state.db id).1
      documentRemoved := (deleteDraftDocument state.db id).2
      mode := if (deleteDraftDocument state.db id).2 then some .delete else state.mode }

def project (state : Reversal) (createdProjectId : Option RowId) (now : Instant) : Reversal :=
  withPointer createdProjectId state fun id =>
    { state with
      db := state.db.archiveProject id now
      projectRemoved := true
      mode := some .archive }

def contact (state : Reversal) (createdContactId : Option RowId) (now : Instant) : Reversal :=
  withPointer createdContactId state fun id =>
    if hasHumanActivity state.db (.CONTACT id) then
      { state with
        db := state.db.archiveContact id now
        contactRemoved := true
        mode := some .archive }
    else
      { state with
        db := state.db.deleteContact id
        contactRemoved := true
        mode := state.mode <|> some .delete }

def company (state : Reversal) (createdCompanyId : Option RowId) (now : Instant) : Reversal :=
  withPointer createdCompanyId state fun id =>
    if hasHumanActivity state.db (.COMPANY id) then
      { state with
        db := state.db.archiveCompany id now
        companyRemoved := true
        mode := some .archive }
    else
      { state with
        db := state.db.deleteCompany id
        companyRemoved := true
        mode := if state.mode = some .archive then some .archive else some .delete }

/-- The link comes last: it is archived only where its subject is still there. -/
def link (state : Reversal) (createdEntityLinkId : Option RowId) (now : Instant) : Reversal :=
  withPointer createdEntityLinkId state fun id =>
    match state.db.links.get id with
    | none => { state with linkRemoved := true }
    | some still =>
      { state with
        db := state.db.archiveLink id now
        linkArchived := !still.isArchived }

end Reversal

def companyIdOf : (kind : IngestProposalKind) → PayloadFor kind → Option RowId
  | .LINK_FILE, p => some (LinkFilePayload.companyId p)
  | .LOG_EMAIL_ACTIVITY, p => some (LogEmailActivityPayload.companyId p)
  | .SET_PROJECT_CUSTOMER, p => some (SetProjectCustomerPayload.companyId p)
  | .CREATE_PROJECT, p => CreateProjectPayload.companyId p
  | .CREATE_CONTACT, p => CreateContactPayload.companyId p
  | .CREATE_MONEY_DOC, p => CreateMoneyDocPayload.companyId p
  | .CREATE_CUSTOMER, _ | .MATCH_REVIEW, _ => none

/-- The rule of `rememberNotSame`, where there is a key and a company it can name. -/
def ruleOf (reading : Reading) (proposal : IngestProposal) (hand : Hand) : Option FilingDecision := do
  let payload ← reading.parsePayload proposal.kind proposal.payload
  let key ← notSameKey reading.spelling proposal.kind payload
  let companyId ← companyIdOf proposal.kind payload
  return notSameDecision key companyId hand

/-- `createMany` with `skipDuplicates` -/
def Reversal.remember (state : Reversal) (rule : Option FilingDecision) : Reversal :=
  match rule with
  | none => state
  | some rule =>
    { state with
      db := { state.db with decisions :=
        if state.db.decisions.any rule.clashes then state.db.decisions
        else rule :: state.db.decisions }
      ruleWritten := true }

/-- Follows the back-pointers of the proposal as it was read before the transaction. -/
def reversed (db : Db) (created : Created) (now : Instant) : Reversal :=
  (((((Reversal.caption { db := db } created.createdActivityId).document
    created.createdErpDocumentId).project created.createdProjectId now).contact
    created.createdContactId now).company created.createdCompanyId now).link
    created.createdEntityLinkId now

def reverse (reading : Reading) (db : Db) (id : RowId) (proposal : IngestProposal) (hand : Hand) :
    Reversal :=
  let back := reversed db proposal.created hand.now
  let noted := { back with
    db := back.db.updateProposal id fun row => { row with undoMode := back.mode } }
  noted.remember (ruleOf reading proposal hand)

def undoPreflight (db : Db) (id : RowId) : Transaction IngestProposal :=
  match db.proposals.get id with
  | none => .error .PROPOSAL_NOT_FOUND
  | some proposal => do
      require .NOT_APPLIED (proposal.status = .APPLIED)
      return proposal

def IngestProposal.undone (proposal : IngestProposal) (hand : Hand) : IngestProposal :=
  { proposal with
    status := .UNDONE
    undoneById := some hand.actorId
    undoneAt := some hand.now
    evidence := none }

def undoTransaction (reading : Reading) (db : Db) (id : RowId) (proposal : IngestProposal)
    (hand : Hand) : Transaction Reversal := do
  let claimed ← moveProposal db id .APPLIED .NOT_APPLIED fun row => row.undone hand
  return reverse reading claimed id proposal hand

def undoProposal (reading : Reading) (db : Db) (id : RowId) (hand : Hand) : Transaction Reversal := do
  let proposal ← undoPreflight db id
  undoTransaction reading db id proposal hand

end Droplet.Filing
