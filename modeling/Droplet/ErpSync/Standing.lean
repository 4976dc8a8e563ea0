import Droplet.ErpSync.Pages

/-! What stands in the CRM of a vendor row that was landed, and what keeps it standing. -/

namespace Droplet.ErpSync.Land

open Upsert

variable {Number : Type} (formats : Formats Number)

def addresses (emails : List ContactEmail) (contactId : ℕ) : List (String × String × Bool) :=
  (emails.filter fun row => row.contactId = contactId).map fun row =>
    (row.address, row.addressLower, row.isPrimary)

def contactAddresses (row : Json Number) : List (String × String × Bool) :=
  ((str formats row "email").map fun email => (email, formats.toLowerCase email, true)).toList

/-- A row that landed under an id still stands, its deal in the company given. -/
def Stands (crm : Crm) (connection : Connection) (externalId : String) (row : Json Number)
    (companyId : Option ℕ) : Dataset → Prop
  | .company =>
    Settled CrmCompany.key crm.companies (connection.id, externalId)
      (CrmCompany.write (companyColumns formats connection externalId row))
  | .contact =>
    ∃ userId, crm.ownerUserId = some userId ∧
      Settled Contact.key crm.contacts (connection.id, externalId)
        (Contact.write (contactColumns formats connection userId externalId row)) ∧
      ∀ contactId, find Contact.key crm.contacts (connection.id, externalId) = some contactId →
        addresses crm.emails contactId = contactAddresses formats row
  | .deal =>
    let view := dealView formats connection externalId row
    ∃ stageId pipelineId,
      find CrmPipeline.connectionId crm.pipelines connection.id = some pipelineId ∧
      find CrmPipelineStage.key crm.stages (pipelineId, view.stage) = some stageId ∧
      Settled CrmDeal.key crm.deals (connection.id, externalId)
        (CrmDeal.write (view.columns stageId pipelineId companyId))

@[simp] theorem CrmCompany.write_key (columns : CompanyColumns) (row : CrmCompany) :
    (row.write columns).key = row.key := rfl

@[simp] theorem Contact.write_key (columns : ContactColumns) (row : Contact) :
    (row.write columns).key = row.key := rfl

@[simp] theorem CrmDeal.write_key (columns : DealColumns) (row : CrmDeal) :
    (row.write columns).key = row.key := rfl

theorem CrmCompany.create_key (columns : CompanyColumns) (source : External) :
    (columns.create source).key = some source.key := rfl

theorem Contact.create_key (columns : ContactColumns) (source : External) :
    (columns.create source).key = some source.key := rfl

theorem CrmDeal.create_key (columns : DealColumns) (source : External) :
    (columns.create source).key = some source.key := rfl

variable {connection : Connection} {crm : Crm} {row : Json Number} {externalId : String}
  {userId : UserId} {companyId : Option ℕ}

theorem addresses_landContactEmail (contactId contactId' : ℕ) (email : Option String) :
    addresses (landContactEmail formats crm contactId email).emails contactId' =
      if contactId' = contactId then
        (email.map fun email => (email, formats.toLowerCase email, true)).toList
      else addresses crm.emails contactId' := by
  have others (other : contactId' ≠ contactId) :
      (crm.emails.filter fun row => row.contactId ≠ contactId).filter
        (fun row => row.contactId = contactId') =
      crm.emails.filter fun row => row.contactId = contactId' := by
    rw [List.filter_filter]
    apply List.filter_congr
    intro row _
    by_cases same : row.contactId = contactId' <;> simp [same, other]
  have own : (crm.emails.filter fun row => row.contactId ≠ contactId).filter
      (fun row => row.contactId = contactId) = [] := by
    simp [List.filter_filter]
  unfold landContactEmail addresses
  cases email with
  | none =>
    by_cases same : contactId' = contactId
    · rw [if_pos same, same, own]
      rfl
    · rw [if_neg same, others same]
  | some email =>
    by_cases same : contactId' = contactId
    · rw [if_pos same, same, List.filter_append, own]
      simp
    · rw [if_neg same, List.filter_append, others same]
      simp [Ne.symm same]

theorem linkContactToCompany_links {crm' : Crm} (companies : crm'.companies = crm.companies)
    (links : crm'.links = crm.links) (contactId : ℕ) (company : Option String) :
    (linkContactToCompany crm' connection contactId company).links =
      (linkContactToCompany crm connection contactId company).links := by
  rw [linkContactToCompany, linkContactToCompany, companies, links]
  split
  · exact links
  · split
    · exact links
    · rfl

theorem syncedPipeline_upsert :
    (syncedPipeline formats crm connection).1 = { crm with
      pipelines := upsert CrmPipeline.connectionId crm.pipelines connection.id id
        ⟨vendorLabel formats connection.provider, some connection.id, false⟩ } := by
  rw [syncedPipeline, upsert]
  split
  · rename_i found
    rw [found, if_pos Option.isSome_some, update]
    simp
  · rename_i missing
    rw [missing, if_neg (by simp)]

theorem syncedStage_upsert (pipelineId : ℕ) (word : String) :
    (syncedStage formats crm pipelineId word).1 = { crm with
      stages := upsert CrmPipelineStage.key crm.stages (pipelineId, word) id
        ⟨pipelineId, some word, word, nextSortOrder crm.stages pipelineId,
          stageKindFor formats word⟩ } := by
  rw [syncedStage, upsert]
  split
  · rename_i found
    rw [found, if_pos Option.isSome_some, update]
    simp
  · rename_i missing
    rw [missing, if_neg (by simp)]

theorem syncedStage_found (pipelineId : ℕ) (word : String) :
    find CrmPipelineStage.key (syncedStage formats crm pipelineId word).1.stages (pipelineId, word) =
      some (syncedStage formats crm pipelineId word).2 := by
  rw [syncedStage]
  split
  · rename_i found
    exact found
  · rename_i missing
    exact find_append_new missing rfl

def timeline (crm : Crm) (connection : Connection) (externalId : String) (columns : DealColumns)
    (word : String) : List CrmActivity :=
  let before := findDeal crm (connection.id, externalId)
  ((timelineEntryFor formats (before.map Prod.snd) columns connection word).map fun entry =>
    ⟨(before.map Prod.fst).getD crm.deals.length, entry⟩).toList

theorem timeline_eq {columns : DealColumns} {word : String} (line : Option TimelineEntry)
    (said : timelineEntryFor formats ((findDeal crm (connection.id, externalId)).map Prod.snd)
      columns connection word = line) :
    timeline formats crm connection externalId columns word =
      (line.map fun entry => CrmActivity.mk
        (((findDeal crm (connection.id, externalId)).map Prod.fst).getD crm.deals.length)
        entry).toList := by
  rw [timeline, said]

theorem landRow_deal_eq (connection : Connection) (crm : Crm)
    (found : externalIdOf formats .deal row = some externalId) :
    let view := dealView formats connection externalId row
    let source := connection.external externalId
    ∃ pipelineId stageId newPipeline newStage,
      find CrmPipeline.connectionId
        (upsert CrmPipeline.connectionId crm.pipelines connection.id id newPipeline) connection.id =
          some pipelineId ∧
      find CrmPipelineStage.key
        (upsert CrmPipelineStage.key crm.stages (pipelineId, view.stage) id newStage)
          (pipelineId, view.stage) = some stageId ∧
      newPipeline.connectionId = some connection.id ∧
      newStage.key = some (pipelineId, view.stage) ∧
      let columns := view.columns stageId pipelineId (companyOf formats crm connection row)
      landRow formats connection .deal crm row = { crm with
        pipelines := upsert CrmPipeline.connectionId crm.pipelines connection.id id newPipeline
        stages := upsert CrmPipelineStage.key crm.stages (pipelineId, view.stage) id newStage
        deals := upsert CrmDeal.key crm.deals source.key (CrmDeal.write columns)
          (columns.create source)
        activities := crm.activities ++
          timeline formats crm connection externalId columns view.stage } := by
  intro view source
  rcases same_pipeline : syncedPipeline formats crm connection with ⟨piped, pipelineId⟩
  have pipeline_found := @syncedPipeline_found Number formats connection crm
  have pipeline_upsert := @syncedPipeline_upsert Number formats connection crm
  rw [same_pipeline] at pipeline_found pipeline_upsert
  rcases same_stage : syncedStage formats piped pipelineId view.stage with ⟨staged, stageId⟩
  have stage_found := @syncedStage_found Number formats piped pipelineId view.stage
  have stage_upsert := @syncedStage_upsert Number formats piped pipelineId view.stage
  rw [same_stage] at stage_found stage_upsert
  dsimp only at pipeline_found pipeline_upsert stage_found stage_upsert
  rw [pipeline_upsert] at pipeline_found stage_upsert
  rw [stage_upsert] at stage_found
  refine ⟨pipelineId, stageId, _, _, pipeline_found, stage_found, rfl, rfl, ?_⟩
  rw [landRow_deal formats found, same_pipeline, landDealIn]
  dsimp only
  rw [show dealView formats connection externalId row = view from rfl, same_stage, stage_upsert]
  dsimp only
  split
  · rename_i silent
    have nothing : timeline formats crm connection externalId
        (view.columns stageId pipelineId (companyOf formats crm connection row)) view.stage = [] :=
      timeline_eq formats none silent
    rw [nothing, List.append_nil]
    rfl
  · rename_i entry wrote
    have one : timeline formats crm connection externalId
        (view.columns stageId pipelineId (companyOf formats crm connection row)) view.stage = _ :=
      timeline_eq formats (some entry) wrote
    rw [one]
    rfl

theorem landRow_contact_eq (connection : Connection) (crm : Crm)
    (found : externalIdOf formats .contact row = some externalId)
    (owner : crm.ownerUserId = some userId) :
    let source := connection.external externalId
    let columns := contactColumns formats connection userId externalId row
    ∃ contactId,
      find Contact.key (upsert Contact.key crm.contacts source.key (Contact.write columns)
        (columns.create source)) source.key = some contactId ∧
      landRow formats connection .contact crm row = { crm with
        contacts := upsert Contact.key crm.contacts source.key (Contact.write columns)
          (columns.create source)
        emails := (landContactEmail formats crm contactId (str formats row "email")).emails
        drawn := (landContactEmail formats crm contactId (str formats row "email")).drawn
        links :=
          (linkContactToCompany crm connection contactId (str formats row "company_id")).links } := by
  intro source columns
  have there := @find_upsert_isSome _ _ _ _ crm.contacts _ _ _ (Contact.write_key columns)
    (Contact.create_key columns source)
  obtain ⟨contactId, place⟩ := Option.isSome_iff_exists.mp there
  refine ⟨contactId, place, ?_⟩
  rw [landRow_contact formats found owner, landContact]
  dsimp only
  rw [show find Contact.key _ _ = some contactId from place]
  dsimp only
  have mailed (written : Crm) (emails : written.emails = crm.emails)
      (drawn : written.drawn = crm.drawn) (email : Option String) :
      landContactEmail formats written contactId email = { written with
        emails := (landContactEmail formats crm contactId email).emails
        drawn := (landContactEmail formats crm contactId email).drawn } := by
    cases email <;> simp [landContactEmail, emails, drawn]
  rw [linkContactToCompany_else, mailed]
  · congr 1
    apply linkContactToCompany_links <;> rfl
  · rfl
  · rfl

theorem stands_landed {dataset : Dataset} (lands : Lands formats dataset crm row)
    (found : externalIdOf formats dataset row = some externalId) :
    Stands formats (landRow formats connection dataset crm row) connection externalId row
      (companyOf formats crm connection row) dataset := by
  cases dataset with
  | company =>
    rw [landRow_company formats found]
    exact settled_upsert (CrmCompany.write_key _) (CrmCompany.create_key _ _) (fun _ => rfl) rfl
  | contact =>
    obtain ⟨userId, owner⟩ := lands.owner
    obtain ⟨contactId, there, landed⟩ :=
      landRow_contact_eq formats connection crm found owner
    rw [landed]
    refine ⟨userId, owner, ?_, ?_⟩
    · exact settled_upsert (Contact.write_key _) (Contact.create_key _ _) (fun _ => rfl) rfl
    · intro contactId' found'
      have same : contactId' = contactId := Option.some.inj (found'.symm.trans there)
      dsimp only
      rw [addresses_landContactEmail, if_pos same]
      rfl
  | deal =>
    obtain ⟨pipelineId, stageId, newPipeline, newStage, pipeline, stage, -, -, landed⟩ :=
      landRow_deal_eq formats connection crm found
    rw [landed]
    refine ⟨stageId, pipelineId, pipeline, stage, ?_⟩
    exact settled_upsert (CrmDeal.write_key _) (CrmDeal.create_key _ _) (fun _ => rfl) rfl

section

variable {formats}

theorem Stands.landed {dataset dataset' : Dataset} {connection' : Connection} {row' : Json Number}
    (stands : Stands formats crm connection externalId row companyId dataset)
    (other : (dataset', connection'.id, externalIdOf formats dataset' row') ≠
      (dataset, connection.id, some externalId)) :
    Stands formats (landRow formats connection' dataset' crm row') connection externalId row
      companyId dataset := by
  by_cases lands : Lands formats dataset' crm row'
  swap
  · rw [landRow_skipped formats lands]
    exact stands
  obtain ⟨externalId', found⟩ := lands.known
  have apart : dataset' = dataset → (connection.id, externalId) ≠ (connection'.external externalId').key := by
    intro same_dataset same
    obtain ⟨same_connection, same_id⟩ := Prod.mk.inj same
    apply other
    rw [found, same_dataset, same_connection, same_id]
    rfl
  cases dataset' with
  | company =>
    rw [landRow_company formats found]
    cases dataset with
    | company =>
      exact Settled.other (CrmCompany.write_key _) (CrmCompany.create_key _ _) stands (apart rfl)
    | contact | deal => exact stands
  | contact =>
    obtain ⟨userId', owner⟩ := lands.owner
    obtain ⟨contactId', there, landed⟩ := landRow_contact_eq formats connection' crm found owner
    rw [landed]
    cases dataset with
    | company | deal => exact stands
    | contact =>
      obtain ⟨userId, same_owner, settled, mailed⟩ := stands
      refine ⟨userId, same_owner, ?_, ?_⟩
      · exact Settled.other (Contact.write_key _) (Contact.create_key _ _) settled (apart rfl)
      · intro contactId place
        -- the other contact has another place
        have differ : contactId ≠ contactId' := by
          intro same
          obtain ⟨first, atFirst, keyFirst⟩ := find_some place
          obtain ⟨second, atSecond, keySecond⟩ := find_some there
          rw [same] at atFirst
          have same_row : first = second := Option.some.inj (atFirst.symm.trans atSecond)
          rw [same_row, keySecond] at keyFirst
          exact apart rfl (Option.some.inj keyFirst).symm
        dsimp only at place ⊢
        rw [find_upsert_other (Contact.write_key _) (Contact.create_key _ _) (apart rfl)] at place
        rw [addresses_landContactEmail, if_neg differ]
        exact mailed contactId place
  | deal =>
    obtain ⟨_, _, _, _, -, -, -, -, landed⟩ := landRow_deal_eq formats connection' crm found
    rw [landed]
    cases dataset with
    | company | contact => exact stands
    | deal =>
      obtain ⟨stageId, pipelineId, pipeline, stage, settled⟩ := stands
      refine ⟨stageId, pipelineId, ?_, ?_, ?_⟩
      · exact find_upsert_of_found (fun _ => rfl) pipeline
      · exact find_upsert_of_found (fun _ => rfl) stage
      · exact Settled.other (CrmDeal.write_key _) (CrmDeal.create_key _ _) settled (apart rfl)

end

structure KeysOnce (crm : Crm) : Prop where
  companies : Once CrmCompany.key crm.companies
  contacts : Once Contact.key crm.contacts
  deals : Once CrmDeal.key crm.deals
  pipelines : Once CrmPipeline.connectionId crm.pipelines
  stages : Once CrmPipelineStage.key crm.stages

theorem KeysOnce.landed (once : KeysOnce crm) (connection : Connection) (dataset : Dataset)
    (row : Json Number) : KeysOnce (landRow formats connection dataset crm row) := by
  by_cases lands : Lands formats dataset crm row
  swap
  · rw [landRow_skipped formats lands]
    exact once
  obtain ⟨externalId, found⟩ := lands.known
  cases dataset with
  | company =>
    rw [landRow_company formats found]
    exact { once with
      companies := once_upsert (CrmCompany.write_key _) (CrmCompany.create_key _ _) once.companies }
  | contact =>
    obtain ⟨userId, owner⟩ := lands.owner
    obtain ⟨contactId, -, landed⟩ := landRow_contact_eq formats connection crm found owner
    rw [landed]
    exact { once with
      contacts := once_upsert (Contact.write_key _) (Contact.create_key _ _) once.contacts }
  | deal =>
    obtain ⟨_, _, _, _, -, -, pipeline, stage, landed⟩ :=
      landRow_deal_eq formats connection crm found
    rw [landed]
    exact { once with
      deals := once_upsert (CrmDeal.write_key _) (CrmDeal.create_key _ _) once.deals
      pipelines := once_upsert (fun _ => rfl) pipeline once.pipelines
      stages := once_upsert (fun _ => rfl) stage once.stages }

end Droplet.ErpSync.Land
