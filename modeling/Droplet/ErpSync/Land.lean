import Droplet.Lib.JsText
import Droplet.Lib.Json
import Droplet.Lib.Upsert

/-! Landing pages of vendor rows in the CRM (`erp-sync/land.ts`, `shared-types/money.ts`). A row's id is its
place in its table: rows of these tables are never deleted here. -/

namespace Droplet.ErpSync.Land

open Upsert

def DEFAULT_MINOR_UNIT_EXPONENT : ℕ := 2

def MINOR_UNIT_EXPONENTS : List (String × ℕ) :=
  [("BIF", 0), ("CLP", 0), ("DJF", 0), ("GNF", 0), ("ISK", 0), ("JPY", 0), ("KMF", 0), ("KRW", 0),
   ("PYG", 0), ("RWF", 0), ("UGX", 0), ("UYI", 0), ("VND", 0), ("VUV", 0), ("XAF", 0), ("XOF", 0),
   ("XPF", 0), ("BHD", 3), ("IQD", 3), ("JOD", 3), ("KWD", 3), ("LYD", 3), ("OMR", 3), ("TND", 3),
   ("CLF", 4), ("UYW", 4)]

/-- What JavaScript and the provider table make of a text or a number. -/
structure Formats (Number : Type) where
  /-- `String(value)` of a finite number -/
  numberText : Number → String
  /-- `new Date(raw).getTime()`, `none` for an invalid date -/
  parseDate : String → Option ℤ
  toUpperCase : String → String
  toLowerCase : String → String
  /-- `providerDescriptor(provider)?.displayName` -/
  displayName : String → Option String

variable {Number : Type} (formats : Formats Number)

/-- `/^[A-Z]{3}$/` -/
def isCurrencyCode (code : String) : Bool :=
  code.toList.length = 3 && code.toList.all fun c => 'A' ≤ c && c ≤ 'Z'

def minorUnitExponent (currency : String) : Option ℕ :=
  let code := formats.toUpperCase (JsText.trim currency)
  if isCurrencyCode code then some ((MINOR_UNIT_EXPONENTS.lookup code).getD DEFAULT_MINOR_UNIT_EXPONENT)
  else none

def isDigit (c : Char) : Bool := '0' ≤ c && c ≤ '9'

/-- The groups of `/^([+-]?)(\d*)(?:\.(\d*))?$/`: is there a minus, the whole part, the fraction. -/
def matchDecimal (text : List Char) : Option (Bool × List Char × List Char) :=
  let negative := text.head? = some '-'
  let unsigned := if negative || text.head? = some '+' then text.tail else text
  let whole := unsigned.takeWhile isDigit
  match unsigned.dropWhile isDigit with
  | [] => some (negative, whole, [])
  | '.' :: fraction => if fraction.all isDigit then some (negative, whole, fraction) else none
  | _ => none

def toMinorUnits (major currency : String) : Option ℤ := do
  let exponent ← minorUnitExponent formats currency
  let (negative, whole, fraction) ← matchDecimal (JsText.trimChars major.toList)
  guard (whole ≠ [] ∨ fraction ≠ [])
  guard ((fraction.drop exponent).all fun c => c = '0')
  let digits := fraction.take exponent
  let padded := digits ++ List.replicate (exponent - digits.length) '0'
  let value : ℤ := Nat.ofDigitChars 10 (whole ++ padded) 0
  return if negative then -value else value

abbrev ConnectionId := ℕ

abbrev UserId := ℕ

/-- The columns of a record that say where it came from; a local record has none. -/
structure External where
  connectionId : ConnectionId
  externalSystem : String
  externalId : String

/-- `(connectionId, externalId)` -/
abbrev ExternalKey := ConnectionId × String

def External.key (source : External) : ExternalKey := (source.connectionId, source.externalId)

structure CrmCompany where
  name : String
  domain : Option String
  external : Option External
  isArchived : Bool

structure Contact where
  displayName : String
  givenName : Option String
  familyName : Option String
  userId : UserId
  external : Option External
  isArchived : Bool

structure ContactEmail where
  /-- A UUID. -/
  id : ℕ
  contactId : ℕ
  address : String
  addressLower : String
  isPrimary : Bool

structure CrmCompanyContact where
  companyId : ℕ
  contactId : ℕ
  deriving DecidableEq

inductive StageKind where
  | OPEN
  | WON
  | LOST
  deriving DecidableEq

structure CrmPipeline where
  name : String
  connectionId : Option ConnectionId
  isDefault : Bool

structure CrmPipelineStage where
  pipelineId : ℕ
  externalKey : Option String
  name : String
  sortOrder : ℤ
  kind : StageKind

structure CrmDeal where
  title : String
  stageId : ℕ
  pipelineId : ℕ
  companyId : Option ℕ
  amountMinor : Option ℤ
  currency : Option String
  closedAt : Option ℤ
  external : Option External
  isArchived : Bool

inductive ActivityKind where
  | CREATED
  | STAGE_CHANGE
  | SYNCED

/-- A line of a deal's timeline that landing writes; its origin is `EXTERNAL`. -/
structure TimelineEntry where
  kind : ActivityKind
  summary : String
  fromStageId : Option ℕ
  toStageId : Option ℕ
  externalSystem : String

structure CrmActivity where
  dealId : ℕ
  entry : TimelineEntry

structure Crm where
  /-- The first owner. -/
  ownerUserId : Option UserId
  companies : List CrmCompany
  contacts : List Contact
  emails : List ContactEmail
  /-- UUIDs that were drawn for rows of `emails`. -/
  drawn : ℕ
  links : List CrmCompanyContact
  pipelines : List CrmPipeline
  stages : List CrmPipelineStage
  deals : List CrmDeal
  /-- What landing wrote. -/
  activities : List CrmActivity

def CrmCompany.key (row : CrmCompany) : Option ExternalKey := row.external.map External.key

def Contact.key (row : Contact) : Option ExternalKey := row.external.map External.key

def CrmDeal.key (row : CrmDeal) : Option ExternalKey := row.external.map External.key

def CrmPipelineStage.key (row : CrmPipelineStage) : Option (ℕ × String) :=
  row.externalKey.map fun word => (row.pipelineId, word)

structure Connection where
  id : ConnectionId
  provider : String

def Connection.external (connection : Connection) (externalId : String) : External where
  connectionId := connection.id
  externalSystem := connection.provider
  externalId := externalId

/-- A trimmed string that is not empty; a value that is no object has no members. -/
def str (row : Json Number) (key : String) : Option String :=
  match row.field key with
  | some (.str value) => if JsText.trim value = "" then none else some (JsText.trim value)
  | some (.num value) => some (formats.numberText value)
  | _ => none

def date (row : Json Number) (key : String) : Option ℤ := (str formats row key).bind formats.parseDate

/-- The keys `constructor` and `__proto__` find a member of every JavaScript object there, which the
database refuses as a kind; a page with such a stage is rolled back. -/
def stageKindFor (externalKey : String) : StageKind :=
  if formats.toLowerCase externalKey = "closedwon" then .WON
  else if formats.toLowerCase externalKey = "closedlost" then .LOST
  else .OPEN

def vendorLabel (provider : String) : String := (formats.displayName provider).getD provider

def fallbackName (connection : Connection) (externalId : String) : String :=
  vendorLabel formats connection.provider ++ " " ++ externalId

inductive Dataset where
  | company
  | contact
  | deal
  deriving DecidableEq

def Dataset.idField : Dataset → String
  | .company => "company_id"
  | .contact => "contact_id"
  | .deal => "deal_id"

def externalIdOf (dataset : Dataset) (row : Json Number) : Option String :=
  str formats row dataset.idField

structure CompanyColumns where
  name : String
  domain : Option String

def companyColumns (connection : Connection) (externalId : String) (row : Json Number) :
    CompanyColumns :=
  let domain := str formats row "domain"
  { name := ((str formats row "name").or domain).getD (fallbackName formats connection externalId)
    domain := domain }

def CrmCompany.write (columns : CompanyColumns) (row : CrmCompany) : CrmCompany :=
  { row with
    name := columns.name
    domain := columns.domain }

def CompanyColumns.create (columns : CompanyColumns) (source : External) : CrmCompany where
  name := columns.name
  domain := columns.domain
  external := some source
  isArchived := false

def landCompany (connection : Connection) (externalId : String) (crm : Crm) (row : Json Number) :
    Crm :=
  let columns := companyColumns formats connection externalId row
  let source := connection.external externalId
  { crm with
    companies := upsert CrmCompany.key crm.companies source.key (CrmCompany.write columns)
      (columns.create source) }

structure ContactColumns where
  displayName : String
  givenName : Option String
  familyName : Option String
  userId : UserId

def contactColumns (connection : Connection) (userId : UserId) (externalId : String)
    (row : Json Number) : ContactColumns :=
  let givenName := str formats row "first_name"
  let familyName := str formats row "last_name"
  let joined := JsText.trim (" ".intercalate [givenName, familyName].reduceOption)
  { displayName :=
      if joined ≠ "" then joined
      else (str formats row "email").getD (fallbackName formats connection externalId)
    givenName := givenName
    familyName := familyName
    userId := userId }

def Contact.write (columns : ContactColumns) (row : Contact) : Contact :=
  { row with
    displayName := columns.displayName
    givenName := columns.givenName
    familyName := columns.familyName
    userId := columns.userId }

def ContactColumns.create (columns : ContactColumns) (source : External) : Contact where
  displayName := columns.displayName
  givenName := columns.givenName
  familyName := columns.familyName
  userId := columns.userId
  external := some source
  isArchived := false

def landContactEmail (crm : Crm) (contactId : ℕ) (email : Option String) : Crm :=
  let others := crm.emails.filter fun row => row.contactId ≠ contactId
  match email with
  | none => { crm with emails := others }
  | some email =>
    { crm with
      emails := others ++ [⟨crm.drawn, contactId, email, formats.toLowerCase email, true⟩]
      drawn := crm.drawn + 1 }

def linkContactToCompany (crm : Crm) (connection : Connection) (contactId : ℕ)
    (companyExternalId : Option String) : Crm :=
  match companyExternalId.bind fun id => find CrmCompany.key crm.companies (connection.id, id) with
  | none => crm
  | some companyId =>
    if ⟨companyId, contactId⟩ ∈ crm.links then crm
    else { crm with links := crm.links ++ [⟨companyId, contactId⟩] }

def landContact (connection : Connection) (userId : UserId) (externalId : String) (crm : Crm)
    (row : Json Number) : Crm :=
  let columns := contactColumns formats connection userId externalId row
  let source := connection.external externalId
  let written := { crm with
    contacts := upsert Contact.key crm.contacts source.key (Contact.write columns)
      (columns.create source) }
  match find Contact.key written.contacts source.key with
  | none => written
  | some contactId =>
    linkContactToCompany (landContactEmail formats written contactId (str formats row "email"))
      connection contactId (str formats row "company_id")

def syncedPipeline (crm : Crm) (connection : Connection) : Crm × ℕ :=
  match find CrmPipeline.connectionId crm.pipelines connection.id with
  | some pipelineId => (crm, pipelineId)
  | none =>
    ({ crm with pipelines := crm.pipelines ++
        [⟨vendorLabel formats connection.provider, some connection.id, false⟩] },
      crm.pipelines.length)

def nextSortOrder (stages : List CrmPipelineStage) (pipelineId : ℕ) : ℤ :=
  let ofPipeline := stages.filter fun stage => stage.pipelineId = pipelineId
  (ofPipeline.map CrmPipelineStage.sortOrder).max?.getD (-1) + 1

def syncedStage (crm : Crm) (pipelineId : ℕ) (externalKey : String) : Crm × ℕ :=
  match find CrmPipelineStage.key crm.stages (pipelineId, externalKey) with
  | some stageId => (crm, stageId)
  | none =>
    ({ crm with stages := crm.stages ++
        [⟨pipelineId, some externalKey, externalKey, nextSortOrder crm.stages pipelineId,
          stageKindFor formats externalKey⟩] },
      crm.stages.length)

structure DealColumns where
  title : String
  stageId : ℕ
  pipelineId : ℕ
  companyId : Option ℕ
  amountMinor : Option ℤ
  currency : Option String
  closedAt : Option ℤ

/-- What a vendor row says of a deal, whatever is in the CRM. -/
structure DealView where
  title : String
  stage : String
  amountMinor : Option ℤ
  currency : Option String
  closedAt : Option ℤ
  deriving DecidableEq

def dealView (connection : Connection) (externalId : String) (row : Json Number) : DealView :=
  let stage := (str formats row "stage").getD "unstaged"
  let currency := str formats row "currency"
  let amountMinor := currency.bind fun currency =>
    (str formats row "amount").bind fun amount => toMinorUnits formats amount currency
  { title := (str formats row "name").getD (fallbackName formats connection externalId)
    stage := stage
    amountMinor := amountMinor
    currency := if amountMinor.isNone then none else currency
    closedAt := if stageKindFor formats stage = .OPEN then none else date formats row "closed_at" }

def companyOf (crm : Crm) (connection : Connection) (row : Json Number) : Option ℕ :=
  (str formats row "company_id").bind fun id => find CrmCompany.key crm.companies (connection.id, id)

def DealView.columns (view : DealView) (stageId pipelineId : ℕ) (companyId : Option ℕ) :
    DealColumns where
  title := view.title
  stageId := stageId
  pipelineId := pipelineId
  companyId := companyId
  amountMinor := view.amountMinor
  currency := view.currency
  closedAt := view.closedAt

def CrmDeal.write (columns : DealColumns) (row : CrmDeal) : CrmDeal :=
  { row with
    title := columns.title
    stageId := columns.stageId
    pipelineId := columns.pipelineId
    companyId := columns.companyId
    amountMinor := columns.amountMinor
    currency := columns.currency
    closedAt := columns.closedAt }

def DealColumns.create (columns : DealColumns) (source : External) : CrmDeal where
  title := columns.title
  stageId := columns.stageId
  pipelineId := columns.pipelineId
  companyId := columns.companyId
  amountMinor := columns.amountMinor
  currency := columns.currency
  closedAt := columns.closedAt
  external := some source
  isArchived := false

/-- The names of what the vendor changed besides the stage. -/
def changedFields (before : CrmDeal) (after : DealColumns) : List String :=
  (if before.title ≠ after.title then ["name"] else []) ++
  (if before.amountMinor ≠ after.amountMinor ∨ before.currency ≠ after.currency then ["amount"]
    else []) ++
  (if before.closedAt ≠ after.closedAt then ["close date"] else [])

/-- What the landing of a deal writes to its timeline, if anything. -/
def timelineEntryFor (before : Option CrmDeal) (after : DealColumns) (connection : Connection)
    (vendorStageWord : String) : Option TimelineEntry :=
  let vendor := vendorLabel formats connection.provider
  match before with
  | none => some ⟨.CREATED, "Landed from " ++ vendor, none, none, connection.provider⟩
  | some before =>
    let changed := changedFields before after
    if before.stageId ≠ after.stageId then
      let moved := vendor ++ " moved this to " ++ vendorStageWord
      some ⟨.STAGE_CHANGE,
        if changed.isEmpty then moved else moved ++ " and changed " ++ ", ".intercalate changed,
        some before.stageId, some after.stageId, connection.provider⟩
    else if changed.isEmpty then none
    else some ⟨.SYNCED, vendor ++ " changed " ++ ", ".intercalate changed, none, none,
      connection.provider⟩

def findDeal (crm : Crm) (key : ExternalKey) : Option (ℕ × CrmDeal) := do
  let id ← find CrmDeal.key crm.deals key
  let deal ← crm.deals[id]?
  return (id, deal)

def landDealIn (connection : Connection) (pipelineId : ℕ) (externalId : String) (crm : Crm)
    (row : Json Number) : Crm :=
  let view := dealView formats connection externalId row
  let (staged, stageId) := syncedStage formats crm pipelineId view.stage
  let columns := view.columns stageId pipelineId (companyOf formats staged connection row)
  let source := connection.external externalId
  let before := findDeal staged source.key
  let written := { staged with
    deals := upsert CrmDeal.key staged.deals source.key (CrmDeal.write columns)
      (columns.create source) }
  let dealId := (before.map Prod.fst).getD staged.deals.length
  match timelineEntryFor formats (before.map Prod.snd) columns connection view.stage with
  | none => written
  | some entry => { written with activities := written.activities ++ [⟨dealId, entry⟩] }

/-- The rows of a page one after another, with how many landed and how many had no id. -/
def landRows {State : Type} (dataset : Dataset) (land : String → State → Json Number → State)
    (state : State) (rows : List (Json Number)) : State × ℕ × ℕ :=
  rows.foldl (fun (state, landed, skipped) row =>
    match externalIdOf formats dataset row with
    | some externalId => (land externalId state row, landed + 1, skipped)
    | none => (state, landed, skipped + 1)) (state, 0, 0)

inductive SkipReason where
  | noOwner
  | unidentified

structure LandOutcome where
  dataset : Dataset
  landed : ℕ
  skipped : ℕ
  reason : Option SkipReason

def outcome (dataset : Dataset) (counts : ℕ × ℕ) : LandOutcome where
  dataset := dataset
  landed := counts.1
  skipped := counts.2
  reason := if 0 < counts.2 then some .unidentified else none

def landCompanies (connection : Connection) (crm : Crm) (rows : List (Json Number)) :
    Crm × LandOutcome :=
  let result := landRows formats .company (landCompany formats connection) crm rows
  (result.1, outcome .company result.2)

def landContacts (connection : Connection) (crm : Crm) (rows : List (Json Number)) :
    Crm × LandOutcome :=
  match crm.ownerUserId with
  | none => (crm, ⟨.contact, 0, rows.length, some .noOwner⟩)
  | some userId =>
    let result := landRows formats .contact (landContact formats connection userId) crm rows
    (result.1, outcome .contact result.2)

/-- The pipeline is looked up at the first row that has an id, and kept. -/
def landDeal (connection : Connection) (externalId : String) (state : Crm × Option ℕ)
    (row : Json Number) : Crm × Option ℕ :=
  match state.2 with
  | some pipelineId =>
    (landDealIn formats connection pipelineId externalId state.1 row, some pipelineId)
  | none =>
    let (crm, pipelineId) := syncedPipeline formats state.1 connection
    (landDealIn formats connection pipelineId externalId crm row, some pipelineId)

def landDeals (connection : Connection) (crm : Crm) (rows : List (Json Number)) :
    Crm × LandOutcome :=
  let result := landRows formats .deal (landDeal formats connection) (crm, none) rows
  (result.1.1, outcome .deal result.2)

def landCanonicalRows (connection : Connection) (dataset : Dataset) (crm : Crm)
    (rows : List (Json Number)) : Crm × LandOutcome :=
  match dataset with
  | .company => landCompanies formats connection crm rows
  | .contact => landContacts formats connection crm rows
  | .deal => landDeals formats connection crm rows

end Droplet.ErpSync.Land
