import Droplet.ErpSync.Land

/-! Runs of landed pages, with what was landed of them. -/

namespace Droplet.ErpSync.Land

open Upsert

variable {Number : Type} (formats : Formats Number)

/-- A row as it was landed, between the CRM before and after it. -/
structure Entry (Number : Type) where
  connection : Connection
  dataset : Dataset
  row : Json Number
  before : Crm
  after : Crm

/-- The rows of a page that land, each as a page of its own. -/
def landings (connection : Connection) (dataset : Dataset) :
    Crm → List (Json Number) → List (Entry Number)
  | _, [] => []
  | crm, row :: rows =>
    let (after, outcome) := landCanonicalRows formats connection dataset crm [row]
    let entries := landings connection dataset after rows
    if outcome.landed = 1 then ⟨connection, dataset, row, crm, after⟩ :: entries else entries

inductive Event (Number : Type) where
  /-- A page in its transaction, which may be rolled back. -/
  | page (connection : Connection) (dataset : Dataset) (rows : List (Json Number)) (commits : Bool)
  | archiveCompany (id : ℕ) (isArchived : Bool)
  | archiveContact (id : ℕ) (isArchived : Bool)
  | archiveDeal (id : ℕ) (isArchived : Bool)

structure Landed (Number : Type) where
  crm : Crm
  log : List (Entry Number)

def Landed.step (state : Landed Number) : Event Number → Landed Number
  | .page connection dataset rows true =>
    { crm := (landCanonicalRows formats connection dataset state.crm rows).1
      log := state.log ++ landings formats connection dataset state.crm rows }
  | .page _ _ _ false => state
  | .archiveCompany id flag =>
    { state with
      crm.companies := state.crm.companies.modify id fun row => { row with isArchived := flag } }
  | .archiveContact id flag =>
    { state with
      crm.contacts := state.crm.contacts.modify id fun row => { row with isArchived := flag } }
  | .archiveDeal id flag =>
    { state with
      crm.deals := state.crm.deals.modify id fun row => { row with isArchived := flag } }

def Landed.run (start : Crm) (events : List (Event Number)) : Landed Number :=
  events.foldl (Landed.step formats) ⟨start, []⟩

/-- Nothing was ever landed. -/
structure Unsynced (crm : Crm) : Prop where
  companies : ∀ row ∈ crm.companies, row.external = none
  contacts : ∀ row ∈ crm.contacts, row.external = none
  deals : ∀ row ∈ crm.deals, row.external = none
  pipelines : ∀ row ∈ crm.pipelines, row.connectionId = none
  stages : ∀ row ∈ crm.stages, row.externalKey = none

/-- The connection, the dataset and the external id a row lands under. -/
def Entry.key (entry : Entry Number) : Dataset × ConnectionId × Option String :=
  (entry.dataset, entry.connection.id, externalIdOf formats entry.dataset entry.row)

def lastLanded (log : List (Entry Number)) (dataset : Dataset) (key : ExternalKey) :
    Option (Entry Number) :=
  (log.filter fun entry => entry.key formats = (dataset, key.1, some key.2)).getLast?

section

variable {State : Type} (dataset : Dataset) (land : String → State → Json Number → State)

theorem landRows_state (state : State) (rows : List (Json Number)) :
    (landRows formats dataset land state rows).1 =
      rows.foldl (fun state row => (externalIdOf formats dataset row).elim state
        fun externalId => land externalId state row) state := by
  -- the counts do not decide what lands
  rw [landRows, ← List.foldl_hom Prod.fst]
  intro counted row
  cases externalIdOf formats dataset row <;> rfl

end

def landRow (connection : Connection) (dataset : Dataset) (crm : Crm) (row : Json Number) : Crm :=
  (landCanonicalRows formats connection dataset crm [row]).1

/-- The row has an id, and a contact has an owner. -/
def Lands (dataset : Dataset) (crm : Crm) (row : Json Number) : Prop :=
  (externalIdOf formats dataset row).isSome = true ∧
    (dataset = .contact → crm.ownerUserId.isSome = true)

variable {connection : Connection} {dataset : Dataset} {crm : Crm} {row : Json Number}
  {externalId : String} {userId : UserId}

variable {formats} in
theorem Lands.known (lands : Lands formats dataset crm row) :
    ∃ externalId, externalIdOf formats dataset row = some externalId :=
  Option.isSome_iff_exists.mp lands.1

variable {formats} in
theorem Lands.owner (lands : Lands formats .contact crm row) : ∃ userId, crm.ownerUserId = some userId :=
  Option.isSome_iff_exists.mp (lands.2 rfl)

theorem landed_one :
    (landCanonicalRows formats connection dataset crm [row]).2.landed = 1 ↔
      Lands formats dataset crm row := by
  cases dataset with
  | company =>
    cases found : externalIdOf formats .company row <;>
      simp [landCanonicalRows, landCompanies, landRows, outcome, Lands, found]
  | contact =>
    cases owner : crm.ownerUserId with
    | none => simp [landCanonicalRows, landContacts, Lands, owner]
    | some userId =>
      cases found : externalIdOf formats .contact row <;>
        simp [landCanonicalRows, landContacts, landRows, outcome, Lands, found, owner]
  | deal =>
    cases found : externalIdOf formats .deal row <;>
      simp [landCanonicalRows, landDeals, landRows, outcome, Lands, found]

theorem landRow_company (found : externalIdOf formats .company row = some externalId) :
    landRow formats connection .company crm row =
      landCompany formats connection externalId crm row := by
  simp [landRow, landCanonicalRows, landCompanies, landRows, found]

theorem landRow_contact (found : externalIdOf formats .contact row = some externalId)
    (owner : crm.ownerUserId = some userId) :
    landRow formats connection .contact crm row =
      landContact formats connection userId externalId crm row := by
  simp [landRow, landCanonicalRows, landContacts, landRows, found, owner]

theorem landRow_deal (found : externalIdOf formats .deal row = some externalId) :
    landRow formats connection .deal crm row =
      landDealIn formats connection (syncedPipeline formats crm connection).2 externalId
        (syncedPipeline formats crm connection).1 row := by
  simp [landRow, landCanonicalRows, landDeals, landRows, found, landDeal]

theorem landRow_skipped (not_lands : ¬ Lands formats dataset crm row) :
    landRow formats connection dataset crm row = crm := by
  have skipped : externalIdOf formats dataset row = none ∨ (dataset = .contact ∧ crm.ownerUserId = none) := by
    by_contra neither
    rw [not_or, not_and] at neither
    refine not_lands ⟨Option.isSome_iff_ne_none.mpr neither.1, fun is_contact => ?_⟩
    exact Option.isSome_iff_ne_none.mpr (neither.2 is_contact)
  rcases skipped with no_id | no_owner
  · cases dataset with
    | company => simp [landRow, landCanonicalRows, landCompanies, landRows, no_id]
    | contact =>
      cases owner : crm.ownerUserId <;>
        simp [landRow, landCanonicalRows, landContacts, landRows, no_id, owner]
    | deal => simp [landRow, landCanonicalRows, landDeals, landRows, no_id]
  · rw [no_owner.1]
    simp [landRow, landCanonicalRows, landContacts, no_owner.2]

theorem landContactEmail_else (contactId : ℕ) (email : Option String) :
    landContactEmail formats crm contactId email =
      { crm with
        emails := (landContactEmail formats crm contactId email).emails
        drawn := (landContactEmail formats crm contactId email).drawn } := by
  cases email <;> rfl

theorem linkContactToCompany_else (contactId : ℕ) (company : Option String) :
    linkContactToCompany crm connection contactId company =
      { crm with links := (linkContactToCompany crm connection contactId company).links } := by
  rw [linkContactToCompany]
  split
  · rfl
  · split <;> rfl

theorem landContact_else (connection : Connection) (userId : UserId) (externalId : String)
    (crm : Crm) (row : Json Number) :
    ∃ emails drawn links, landContact formats connection userId externalId crm row =
      { crm with
        contacts := upsert Contact.key crm.contacts (connection.external externalId).key
          (Contact.write (contactColumns formats connection userId externalId row))
          ((contactColumns formats connection userId externalId row).create
            (connection.external externalId))
        emails := emails
        drawn := drawn
        links := links } := by
  rw [landContact]
  dsimp only
  split
  · exact ⟨_, _, _, rfl⟩
  · rw [linkContactToCompany_else, landContactEmail_else]
    exact ⟨_, _, _, rfl⟩

theorem landContact_owner :
    (landContact formats connection userId externalId crm row).ownerUserId = crm.ownerUserId := by
  obtain ⟨emails, drawn, links, same⟩ := landContact_else formats connection userId externalId crm row
  rw [same]

theorem syncedPipeline_found :
    find CrmPipeline.connectionId (syncedPipeline formats crm connection).1.pipelines connection.id =
      some (syncedPipeline formats crm connection).2 := by
  rw [syncedPipeline]
  split
  · rename_i found
    exact found
  · rename_i missing
    exact find_append_new missing rfl

theorem syncedPipeline_again {pipelineId : ℕ}
    (found : find CrmPipeline.connectionId crm.pipelines connection.id = some pipelineId) :
    syncedPipeline formats crm connection = (crm, pipelineId) := by
  rw [syncedPipeline, found]

theorem landDealIn_pipelines {pipelineId : ℕ} :
    (landDealIn formats connection pipelineId externalId crm row).pipelines = crm.pipelines := by
  rw [landDealIn, syncedStage]
  dsimp only
  split <;> split <;> rfl

variable (rows : List (Json Number))

theorem landDeals_rows (known : Option ℕ)
    (remembered : ∀ pipelineId, known = some pipelineId →
      find CrmPipeline.connectionId crm.pipelines connection.id = some pipelineId) :
    (rows.foldl (fun state row => (externalIdOf formats .deal row).elim state fun externalId =>
      landDeal formats connection externalId state row) (crm, known)).1 =
        rows.foldl (landRow formats connection .deal) crm := by
  induction rows generalizing crm known with
  | nil => rfl
  | cons row rows ih =>
    rw [List.foldl_cons, List.foldl_cons]
    cases found : externalIdOf formats .deal row with
    | none =>
      have stays : landRow formats connection .deal crm row = crm := by
        apply landRow_skipped
        simp [Lands, found]
      rw [stays]
      exact ih known remembered
    | some externalId =>
      have kept : (landDeal formats connection externalId (crm, known) row) =
          (landRow formats connection .deal crm row,
            some (syncedPipeline formats crm connection).2) := by
        rw [landRow_deal formats found, landDeal]
        cases known with
        | none => rfl
        | some pipelineId =>
          rw [syncedPipeline_again formats (remembered pipelineId rfl)]
      rw [Option.elim_some, kept]
      apply ih
      intro pipelineId same
      rw [landRow_deal formats found, landDealIn_pipelines, ← Option.some.inj same]
      exact syncedPipeline_found formats

theorem landCanonicalRows_rows :
    (landCanonicalRows formats connection dataset crm rows).1 =
      rows.foldl (landRow formats connection dataset) crm := by
  cases dataset with
  | company =>
    rw [landCanonicalRows, landCompanies, landRows_state]
    congr
    funext crm row
    cases found : externalIdOf formats .company row with
    | none => exact (landRow_skipped formats (by simp [Lands, found])).symm
    | some externalId => exact (landRow_company formats found).symm
  | contact =>
    rw [landCanonicalRows, landContacts]
    split
    · rename_i owner
      -- no row lands without an owner
      induction rows with
      | nil => rfl
      | cons row rows ih =>
        rw [List.foldl_cons, landRow_skipped formats (by simp [Lands, owner])]
        exact ih
    · rename_i userId owner
      dsimp only
      rw [landRows_state]
      induction rows generalizing crm with
      | nil => rfl
      | cons row rows ih =>
        rw [List.foldl_cons, List.foldl_cons]
        cases found : externalIdOf formats .contact row with
        | none =>
          rw [landRow_skipped formats (by simp [Lands, found])]
          exact ih owner
        | some externalId =>
          rw [landRow_contact formats found owner]
          exact ih ((landContact_owner formats).trans owner)
  | deal =>
    rw [landCanonicalRows, landDeals, landRows_state]
    exact landDeals_rows formats rows none (by simp)

theorem landings_cons (lands : Lands formats dataset crm row) :
    landings formats connection dataset crm (row :: rows) =
      ⟨connection, dataset, row, crm, landRow formats connection dataset crm row⟩ ::
        landings formats connection dataset (landRow formats connection dataset crm row) rows := by
  rw [landings]
  dsimp only
  rw [if_pos ((landed_one formats).mpr lands)]
  rfl

theorem landings_skipped (not_lands : ¬ Lands formats dataset crm row) :
    landings formats connection dataset crm (row :: rows) =
      landings formats connection dataset crm rows := by
  have stays : (landCanonicalRows formats connection dataset crm [row]).1 = crm :=
    landRow_skipped formats not_lands
  rw [landings]
  dsimp only
  rw [if_neg (fun one => not_lands ((landed_one formats).mp one)), stays]

theorem page_keeps {Holds : List (Entry Number) → Crm → Prop}
    (kept : ∀ log crm row, Holds log crm → Lands formats dataset crm row →
      Holds (log ++ [⟨connection, dataset, row, crm, landRow formats connection dataset crm row⟩])
        (landRow formats connection dataset crm row))
    (rows : List (Json Number)) (log : List (Entry Number)) (holds : Holds log crm) :
    Holds (log ++ landings formats connection dataset crm rows)
      (landCanonicalRows formats connection dataset crm rows).1 := by
  rw [landCanonicalRows_rows]
  induction rows generalizing crm log with
  | nil => simpa [landings] using holds
  | cons row rows ih =>
    rw [List.foldl_cons]
    by_cases lands : Lands formats dataset crm row
    · have after := ih _ (kept log crm row holds lands)
      rw [List.append_assoc] at after
      rw [landings_cons formats rows lands]
      exact after
    · rw [landings_skipped formats rows lands, landRow_skipped formats lands]
      exact ih log holds

end Droplet.ErpSync.Land
