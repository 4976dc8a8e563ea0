import Droplet.ErpSync.LastWrite

/-! Landing a page again, and the columns that are the owner's. -/

namespace Droplet.ErpSync.Land

open Upsert

variable {Number : Type} (formats : Formats Number)

/-- The same rows, but for the ids of the addresses. -/
def Alike (crm crm' : Crm) : Prop :=
  ∃ emails drawn, crm' = { crm with emails := emails, drawn := drawn } ∧
    ∀ contactId, addresses emails contactId = addresses crm.emails contactId

theorem Alike.refl (crm : Crm) : Alike crm crm := ⟨crm.emails, crm.drawn, rfl, fun _ => rfl⟩

theorem Alike.trans {first second third : Crm} (before : Alike first second)
    (after : Alike second third) : Alike first third := by
  obtain ⟨_, _, rfl, same⟩ := before
  obtain ⟨emails, drawn, rfl, again⟩ := after
  refine ⟨emails, drawn, rfl, ?_⟩
  intro contactId
  exact (again contactId).trans (same contactId)

/-- The row stands with the company and the link it would get now. -/
structure Quiet (crm : Crm) (connection : Connection) (dataset : Dataset) (externalId : String)
    (row : Json Number) : Prop where
  stands : Stands formats crm connection externalId row (companyOf formats crm connection row) dataset
  linked : dataset = .contact → ∀ contactId companyId,
    find Contact.key crm.contacts (connection.id, externalId) = some contactId →
    companyOf formats crm connection row = some companyId → ⟨companyId, contactId⟩ ∈ crm.links

variable {formats} {crm crm' : Crm} {connection : Connection} {dataset : Dataset}
  {row row' : Json Number} {externalId externalId' : String}

theorem landRow_owner : (landRow formats connection dataset crm row).ownerUserId = crm.ownerUserId := by
  by_cases lands : Lands formats dataset crm row
  swap
  · rw [landRow_skipped formats lands]
  obtain ⟨externalId, found⟩ := lands.known
  cases dataset with
  | company => rw [landRow_company formats found, landCompany]
  | contact =>
    obtain ⟨userId, owner⟩ := lands.owner
    rw [landRow_contact formats found owner, landContact_owner]
  | deal =>
    obtain ⟨_, _, _, _, -, -, -, -, landed⟩ := landRow_deal_eq formats connection crm found
    rw [landed]

theorem landRow_companies (not_company : dataset ≠ .company) :
    (landRow formats connection dataset crm row).companies = crm.companies := by
  by_cases lands : Lands formats dataset crm row
  swap
  · rw [landRow_skipped formats lands]
  obtain ⟨externalId, found⟩ := lands.known
  cases dataset with
  | company => exact absurd rfl not_company
  | contact =>
    obtain ⟨userId, owner⟩ := lands.owner
    obtain ⟨_, -, landed⟩ := landRow_contact_eq formats connection crm found owner
    rw [landed]
  | deal =>
    obtain ⟨_, _, _, _, -, -, -, -, landed⟩ := landRow_deal_eq formats connection crm found
    rw [landed]

theorem companyOf_congr (companies : crm'.companies = crm.companies) :
    companyOf formats crm' connection row = companyOf formats crm connection row := by
  rw [companyOf, companies]
  rfl

theorem linkContactToCompany_link {contactId companyId : ℕ}
    (company : companyOf formats crm connection row = some companyId) :
    CrmCompanyContact.mk companyId contactId ∈
      (linkContactToCompany crm connection contactId (str formats row "company_id")).links := by
  rw [companyOf] at company
  rw [linkContactToCompany, company]
  dsimp only
  split
  · rename_i there
    exact there
  · simp

theorem linkContactToCompany_mono {contactId : ℕ} {link : CrmCompanyContact}
    {company : Option String} (there : link ∈ crm.links) :
    link ∈ (linkContactToCompany crm connection contactId company).links := by
  rw [linkContactToCompany]
  split
  · exact there
  · split
    · exact there
    · exact List.mem_append_left _ there

theorem linkContactToCompany_again {contactId : ℕ}
    (linked : ∀ companyId, companyOf formats crm connection row = some companyId →
      ⟨companyId, contactId⟩ ∈ crm.links) :
    (linkContactToCompany crm connection contactId (str formats row "company_id")).links =
      crm.links := by
  unfold companyOf at linked
  rw [linkContactToCompany]
  split
  · rfl
  · rename_i companyId company
    rw [if_pos (linked companyId company)]

theorem quiet_landed (lands : Lands formats dataset crm row)
    (found : externalIdOf formats dataset row = some externalId) :
    Quiet formats (landRow formats connection dataset crm row) connection dataset externalId row := by
  have stands := @stands_landed Number formats connection crm row externalId dataset lands found
  constructor
  · cases dataset with
    | company | contact => exact stands
    | deal =>
      rw [companyOf_congr (landRow_companies (by simp))]
      exact stands
  · intro is_contact contactId companyId place company
    subst is_contact
    obtain ⟨userId, owner⟩ := lands.owner
    obtain ⟨contactId', there, landed⟩ := landRow_contact_eq formats connection crm found owner
    rw [companyOf_congr (landRow_companies (by simp))] at company
    rw [landed] at place ⊢
    have same : contactId = contactId' := Option.some.inj (place.symm.trans there)
    rw [same]
    exact linkContactToCompany_link company

section

variable (quiet : Quiet formats crm connection dataset externalId row)
include quiet

theorem Quiet.landed (apart : externalIdOf formats dataset row' ≠ some externalId) :
    Quiet formats (landRow formats connection dataset crm row') connection dataset externalId
      row := by
  have other : (dataset, connection.id, externalIdOf formats dataset row') ≠
      (dataset, connection.id, some externalId) := by
    simpa using apart
  have stands := quiet.stands.landed other
  constructor
  · cases dataset with
    | company | contact => exact stands
    | deal =>
      rw [companyOf_congr (landRow_companies (by simp))]
      exact stands
  · intro is_contact contactId companyId place company
    subst is_contact
    by_cases lands : Lands formats .contact crm row'
    swap
    · rw [landRow_skipped formats lands] at place company ⊢
      exact quiet.linked rfl contactId companyId place company
    obtain ⟨externalId', found⟩ := lands.known
    obtain ⟨userId, owner⟩ := lands.owner
    obtain ⟨contactId', -, landed⟩ := landRow_contact_eq formats connection crm found owner
    rw [companyOf_congr (landRow_companies (by simp))] at company
    rw [landed] at place ⊢
    apply linkContactToCompany_mono
    refine quiet.linked rfl contactId companyId ?_ company
    rw [find_upsert_other (Contact.write_key _) (Contact.create_key _ _) ?_] at place
    · exact place
    · intro same
      apply apart
      rw [found, (Prod.mk.inj same).2]
      rfl

theorem Quiet.again (found : externalIdOf formats dataset row = some externalId) :
    Alike crm (landRow formats connection dataset crm row) := by
  by_cases lands : Lands formats dataset crm row
  swap
  · rw [landRow_skipped formats lands]
    exact Alike.refl crm
  have stands := quiet.stands
  cases dataset with
  | company =>
    have same : landCompany formats connection externalId crm row = crm := by
      rw [landCompany, upsert_settled (show Settled _ _ (connection.external externalId).key _ from stands)]
    rw [landRow_company formats found, same]
    exact Alike.refl crm
  | contact =>
    obtain ⟨userId, owner, settled, mailed⟩ := stands
    obtain ⟨contactId, there, landed⟩ := landRow_contact_eq formats connection crm found owner
    rw [upsert_settled (show Settled _ _ (connection.external externalId).key _ from settled)] at there landed
    rw [linkContactToCompany_again
      (fun companyId company => quiet.linked rfl contactId companyId there company)] at landed
    refine ⟨_, _, landed, ?_⟩
    intro contactId'
    rw [addresses_landContactEmail]
    split
    · rename_i same
      rw [same, mailed contactId there]
      rfl
    · rfl
  | deal =>
    obtain ⟨stageId', pipelineId', pipeline', stage', settled⟩ := stands
    have silent := (landRow_again formats found rfl quiet.stands).1 rfl
    obtain ⟨pipelineId, stageId, newPipeline, newStage, pipeline, stage, -, -, landed⟩ :=
      landRow_deal_eq formats connection crm found
    rw [landed] at silent ⊢
    dsimp only at silent
    rw [silent]
    -- the pipeline and the stage are there
    have pipelines_same : upsert CrmPipeline.connectionId crm.pipelines connection.id id newPipeline =
        crm.pipelines :=
      upsert_settled ⟨find_isSome.mp (by rw [pipeline']; rfl), fun _ _ _ => rfl⟩
    rw [pipelines_same] at pipeline ⊢
    have same_pipeline : pipelineId' = pipelineId := Option.some.inj (pipeline'.symm.trans pipeline)
    rw [same_pipeline] at stage'
    have stages_same : upsert CrmPipelineStage.key crm.stages
        (pipelineId, (dealView formats connection externalId row).stage) id newStage = crm.stages :=
      upsert_settled ⟨find_isSome.mp (by rw [stage']; rfl), fun _ _ _ => rfl⟩
    rw [stages_same] at stage ⊢
    have same_stage : stageId' = stageId := Option.some.inj (stage'.symm.trans stage)
    rw [same_pipeline, same_stage] at settled
    rw [upsert_settled (show Settled _ _ (connection.external externalId).key _ from settled)]
    exact Alike.refl crm

theorem Quiet.alike (alike : Alike crm crm') : Quiet formats crm' connection dataset externalId row := by
  obtain ⟨emails, drawn, rfl, same⟩ := alike
  refine ⟨?_, quiet.linked⟩
  have stands := quiet.stands
  cases dataset with
  | company | deal => exact stands
  | contact =>
    obtain ⟨userId, owner, settled, mailed⟩ := stands
    refine ⟨userId, owner, settled, ?_⟩
    intro contactId place
    exact (same contactId).trans (mailed contactId place)

end

theorem page_owner (rows : List (Json Number)) :
    (rows.foldl (landRow formats connection dataset) crm).ownerUserId = crm.ownerUserId := by
  induction rows using List.reverseRecOn with
  | nil => rfl
  | append_singleton rows row ih =>
    rw [List.foldl_append, List.foldl_cons, List.foldl_nil, landRow_owner, ih]

variable {rows : List (Json Number)}

theorem page_quiet (distinct : (rows.filterMap (externalIdOf formats dataset)).Nodup) :
    ∀ row ∈ rows, ∀ externalId, externalIdOf formats dataset row = some externalId →
      Lands formats dataset crm row →
        Quiet formats (rows.foldl (landRow formats connection dataset) crm) connection dataset
          externalId row := by
  induction rows using List.reverseRecOn with
  | nil => simp
  | append_singleton rows last ih =>
    rw [List.filterMap_append, List.nodup_append] at distinct
    intro row member externalId found lands
    rw [List.foldl_append, List.foldl_cons, List.foldl_nil]
    rcases List.mem_append.mp member with before | is_last
    · have quiet := ih distinct.1 row before externalId found lands
      apply quiet.landed
      intro same
      refine distinct.2.2 externalId ?_ externalId ?_ rfl
      · exact List.mem_filterMap.mpr ⟨row, before, found⟩
      · exact List.mem_filterMap.mpr ⟨last, by simp, same⟩
    · rw [List.mem_singleton] at is_last
      subst is_last
      apply quiet_landed ?_ found
      rw [Lands, page_owner]
      exact lands

theorem page_again (quiet : ∀ row ∈ rows, ∀ externalId, externalIdOf formats dataset row = some externalId →
      Lands formats dataset crm row → Quiet formats crm connection dataset externalId row) :
    Alike crm (rows.foldl (landRow formats connection dataset) crm) := by
  induction rows generalizing crm with
  | nil => exact Alike.refl crm
  | cons row rows ih =>
    have alike : Alike crm (landRow formats connection dataset crm row) := by
      by_cases lands : Lands formats dataset crm row
      · obtain ⟨externalId, found⟩ := lands.known
        exact (quiet row (by simp) externalId found lands).again found
      · rw [landRow_skipped formats lands]
        exact Alike.refl crm
    refine alike.trans (ih ?_)
    intro next member externalId found lands
    rw [Lands, landRow_owner] at lands
    exact (quiet next (List.mem_cons_of_mem _ member) externalId found lands).alike alike

theorem landCanonicalRows_again (distinct : (rows.filterMap (externalIdOf formats dataset)).Nodup) :
    let once := (landCanonicalRows formats connection dataset crm rows).1
    Alike once (landCanonicalRows formats connection dataset once rows).1 := by
  simp only [landCanonicalRows_rows]
  apply page_again
  intro row member externalId found lands
  rw [Lands, page_owner] at lands
  exact page_quiet distinct row member externalId found lands

/-- Every record there keeps its archive flag. -/
structure FlagsKept (before after : Crm) : Prop where
  companies : ∀ (id : ℕ) (row : CrmCompany), before.companies[id]? = some row →
    ∃ row', after.companies[id]? = some row' ∧ row'.isArchived = row.isArchived
  contacts : ∀ (id : ℕ) (row : Contact), before.contacts[id]? = some row →
    ∃ row', after.contacts[id]? = some row' ∧ row'.isArchived = row.isArchived
  deals : ∀ (id : ℕ) (row : CrmDeal), before.deals[id]? = some row →
    ∃ row', after.deals[id]? = some row' ∧ row'.isArchived = row.isArchived

theorem FlagsKept.refl (crm : Crm) : FlagsKept crm crm where
  companies := fun _ row there => ⟨row, there, rfl⟩
  contacts := fun _ row there => ⟨row, there, rfl⟩
  deals := fun _ row there => ⟨row, there, rfl⟩

theorem FlagsKept.trans {first second third : Crm} (before : FlagsKept first second)
    (after : FlagsKept second third) : FlagsKept first third where
  companies := by
    intro id row there
    obtain ⟨row', there', same⟩ := before.companies id row there
    obtain ⟨row'', there'', same'⟩ := after.companies id row' there'
    exact ⟨row'', there'', same'.trans same⟩
  contacts := by
    intro id row there
    obtain ⟨row', there', same⟩ := before.contacts id row there
    obtain ⟨row'', there'', same'⟩ := after.contacts id row' there'
    exact ⟨row'', there'', same'.trans same⟩
  deals := by
    intro id row there
    obtain ⟨row', there', same⟩ := before.deals id row there
    obtain ⟨row'', there'', same'⟩ := after.deals id row' there'
    exact ⟨row'', there'', same'.trans same⟩

theorem FlagsKept.landed : FlagsKept crm (landRow formats connection dataset crm row) := by
  by_cases lands : Lands formats dataset crm row
  swap
  · rw [landRow_skipped formats lands]
    exact FlagsKept.refl crm
  obtain ⟨externalId, found⟩ := lands.known
  cases dataset with
  | company =>
    rw [landRow_company formats found, landCompany]
    refine { FlagsKept.refl crm with companies := ?_ }
    intro id row there
    exact upsert_read CrmCompany.isArchived (by intro _; rfl) there
  | contact =>
    obtain ⟨userId, owner⟩ := lands.owner
    obtain ⟨_, -, landed⟩ := landRow_contact_eq formats connection crm found owner
    rw [landed]
    refine { FlagsKept.refl crm with contacts := ?_ }
    intro id row there
    exact upsert_read Contact.isArchived (by intro _; rfl) there
  | deal =>
    obtain ⟨_, _, _, _, -, -, -, -, landed⟩ := landRow_deal_eq formats connection crm found
    rw [landed]
    refine { FlagsKept.refl crm with deals := ?_ }
    intro id row there
    exact upsert_read CrmDeal.isArchived (by intro _; rfl) there

theorem FlagsKept.page (rows : List (Json Number)) :
    FlagsKept crm (landCanonicalRows formats connection dataset crm rows).1 := by
  rw [landCanonicalRows_rows]
  induction rows generalizing crm with
  | nil => exact FlagsKept.refl crm
  | cons row rows ih => exact FlagsKept.landed.trans ih

def CrmCompany.columns (row : CrmCompany) : CompanyColumns := ⟨row.name, row.domain⟩

def Contact.columns (row : Contact) : ContactColumns :=
  ⟨row.displayName, row.givenName, row.familyName, row.userId⟩

def CrmDeal.columns (row : CrmDeal) : DealColumns :=
  ⟨row.title, row.stageId, row.pipelineId, row.companyId, row.amountMinor, row.currency, row.closedAt⟩

variable (formats)

/-- The record under a key has the columns that a landed row gives it. -/
def Shows (crm : Crm) (key : ExternalKey) (entry : Entry Number) : Prop :=
  match entry.dataset with
  | .company => ∃ row ∈ crm.companies, row.key = some key ∧
      row.columns = companyColumns formats entry.connection key.2 entry.row
  | .contact => ∃ (id userId : ℕ) (row : Contact), crm.contacts[id]? = some row ∧
      row.key = some key ∧ crm.ownerUserId = some userId ∧
      row.columns = contactColumns formats entry.connection userId key.2 entry.row ∧
      addresses crm.emails id = contactAddresses formats entry.row
  | .deal =>
    let view := dealView formats entry.connection key.2 entry.row
    ∃ (row : CrmDeal) (pipeline : CrmPipeline) (stage : CrmPipelineStage), row ∈ crm.deals ∧
      row.key = some key ∧
      crm.pipelines[row.pipelineId]? = some pipeline ∧ pipeline.connectionId = some key.1 ∧
      crm.stages[row.stageId]? = some stage ∧ stage.key = some (row.pipelineId, view.stage) ∧
      row.columns = view.columns row.stageId row.pipelineId
        (companyOf formats entry.before entry.connection entry.row)

variable {formats}

theorem Stands.shows {entry : Entry Number} {key : ExternalKey} (same_connection : entry.connection.id = key.1)
    (stands : Stands formats crm entry.connection key.2 entry.row
      (companyOf formats entry.before entry.connection entry.row) entry.dataset) :
    Shows formats crm key entry := by
  unfold Shows
  cases entry with
  | mk connection dataset row before after =>
    dsimp only at same_connection stands ⊢
    cases dataset with
    | company =>
      obtain ⟨⟨company, member, named⟩, still⟩ := stands
      rw [same_connection] at named
      refine ⟨company, member, named, ?_⟩
      rw [← still company member (by rw [named, same_connection])]
      rfl
    | contact =>
      obtain ⟨userId, owner, settled, mailed⟩ := stands
      obtain ⟨id, place⟩ := Option.isSome_iff_exists.mp (find_isSome.mpr settled.1)
      obtain ⟨contact, there, named⟩ := find_some place
      have still := settled.2 contact (List.mem_of_getElem? there) named
      rw [same_connection] at named
      refine ⟨id, userId, contact, there, named, owner, ?_, mailed id place⟩
      rw [← still]
      rfl
    | deal =>
      obtain ⟨stageId, pipelineId, pipeline_found, stage_found, settled⟩ := stands
      obtain ⟨pipeline, atPipeline, of_connection⟩ := find_some pipeline_found
      obtain ⟨stage, atStage, of_pipeline⟩ := find_some stage_found
      obtain ⟨⟨deal, member, named⟩, still⟩ := settled
      have written := still deal member named
      have on_stage : deal.stageId = stageId := (congrArg CrmDeal.stageId written).symm
      have in_pipeline : deal.pipelineId = pipelineId :=
        (congrArg CrmDeal.pipelineId written).symm
      rw [same_connection] at named of_connection
      rw [← on_stage] at atStage
      rw [← in_pipeline] at atPipeline of_pipeline
      refine ⟨deal, pipeline, stage, member, named, atPipeline, of_connection, atStage, of_pipeline, ?_⟩
      rw [on_stage, in_pipeline, ← written]
      rfl

theorem lastLanded_dataset {log : List (Entry Number)} {key : ExternalKey} {entry : Entry Number}
    (last : lastLanded formats log dataset key = some entry) : entry.dataset = dataset := by
  have member := List.mem_of_getLast? last
  have matches_key : entry.key formats = (dataset, key.1, some key.2) := by
    simpa using (List.mem_filter.mp member).2
  exact (Prod.mk.inj matches_key).1

/-- Landing is last-write-wins, tells the timeline what moved, leaves archive flags alone, and a page
with distinct ids landed again changes no more than the ids of its contacts' addresses. -/
theorem landing_last_write_wins (start : Crm) (unsynced : Unsynced start)
    (events : List (Event Number)) :
    let reached := Landed.run formats start events
    KeysOnce reached.crm ∧
    (∀ dataset key entry, lastLanded formats reached.log dataset key = some entry →
      Shows formats reached.crm key entry) ∧
    (∀ earlier entry later externalId, reached.log = earlier ++ entry :: later →
      entry.dataset = .deal → externalIdOf formats .deal entry.row = some externalId →
      (Moves formats earlier entry externalId → entry.Tells externalId) ∧
        (¬ Moves formats earlier entry externalId → entry.Silent)) ∧
    ∀ connection dataset rows,
      let once := (landCanonicalRows formats connection dataset reached.crm rows).1
      FlagsKept reached.crm once ∧
      ((rows.filterMap (externalIdOf formats dataset)).Nodup →
        Alike once (landCanonicalRows formats connection dataset once rows).1) := by
  intro reached
  have holds : Reconciled formats reached.log reached.crm := reconciled_run unsynced events
  refine ⟨holds.once, ?_, holds.told, ?_⟩
  · intro dataset key entry last
    obtain ⟨same_connection, stands⟩ := holds.stands dataset key entry last
    rw [← lastLanded_dataset last] at stands
    exact stands.shows same_connection
  · intro connection dataset rows
    exact ⟨FlagsKept.page rows, landCanonicalRows_again⟩

def asciiFormats : Formats ℕ where
  numberText := toString
  parseDate := fun _ => none
  toUpperCase := String.toUpper
  toLowerCase := String.toLower
  displayName := fun provider => if provider = "hubspot" then some "HubSpot" else none

def emptyCrm : Crm where
  ownerUserId := some 1
  companies := []
  contacts := []
  emails := []
  drawn := 0
  links := []
  pipelines := []
  stages := []
  deals := []
  activities := []

def hubspot : Connection := ⟨1, "hubspot"⟩

def contactPage : List (Json ℕ) :=
  [.obj [("contact_id", .str "7"), ("first_name", .str "Ada"), ("email", .str "ada@example.com")]]

def dealPage (stage : String) : List (Json ℕ) :=
  [.obj [("deal_id", .str "9"), ("name", .str "Roof"), ("stage", .str stage)]]

theorem emptyCrm_unsynced : Unsynced emptyCrm where
  companies := by simp [emptyCrm]
  contacts := by simp [emptyCrm]
  deals := by simp [emptyCrm]
  pipelines := by simp [emptyCrm]
  stages := by simp [emptyCrm]

/-- A contact page landed again creates its address row anew. -/
theorem relanded_address_is_new :
    let once := (landCanonicalRows asciiFormats hubspot .contact emptyCrm contactPage).1
    let twice := (landCanonicalRows asciiFormats hubspot .contact once contactPage).1
    (contactPage.filterMap (externalIdOf asciiFormats .contact)).Nodup ∧
      once.emails.map ContactEmail.id = [0] ∧ twice.emails.map ContactEmail.id = [1] := by
  decide +kernel

/-- A deal that lands twice and then moves. -/
theorem moved_deal_landed :
    let events : List (Event ℕ) := [.page hubspot .deal (dealPage "open") true,
      .page hubspot .deal (dealPage "open") true, .page hubspot .deal (dealPage "closedwon") true]
    let reached := Landed.run asciiFormats emptyCrm events
    KeysOnce reached.crm ∧ reached.crm.deals.length = 1 ∧ reached.crm.activities.length = 2 :=
  ⟨(landing_last_write_wins emptyCrm emptyCrm_unsynced _).1, by decide +kernel, by decide +kernel⟩

end Droplet.ErpSync.Land
