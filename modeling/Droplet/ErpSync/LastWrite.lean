import Droplet.ErpSync.Standing

/-! After any run of pages, what the last landed row with an id said stands. -/

namespace Droplet.ErpSync.Land

open Upsert

variable {Number : Type} (formats : Formats Number)

/-- The first landed row with its id, or one that says something else than the one before. -/
def Moves (earlier : List (Entry Number)) (entry : Entry Number) (externalId : String) : Prop :=
  ∀ previous, lastLanded formats earlier .deal (entry.connection.id, externalId) = some previous →
    dealView formats previous.connection externalId previous.row ≠
      dealView formats entry.connection externalId entry.row

/-- The landing wrote one line to the deal's timeline. -/
def Entry.Tells (entry : Entry Number) (externalId : String) : Prop :=
  ∃ line, entry.after.activities = entry.before.activities ++ [line] ∧
    find CrmDeal.key entry.after.deals (entry.connection.id, externalId) = some line.dealId

def Entry.Silent (entry : Entry Number) : Prop := entry.after.activities = entry.before.activities

/-- What a CRM and the landed rows before it have in common. -/
structure Reconciled (log : List (Entry Number)) (crm : Crm) : Prop where
  once : KeysOnce crm
  stands : ∀ dataset key entry, lastLanded formats log dataset key = some entry →
    entry.connection.id = key.1 ∧ Stands formats crm entry.connection key.2 entry.row
      (companyOf formats entry.before entry.connection entry.row) dataset
  unlanded : ∀ key, lastLanded formats log .deal key = none →
    find CrmDeal.key crm.deals key = none
  told : ∀ earlier entry later externalId, log = earlier ++ entry :: later →
    entry.dataset = .deal → externalIdOf formats .deal entry.row = some externalId →
    (Moves formats earlier entry externalId → entry.Tells externalId) ∧
      (¬ Moves formats earlier entry externalId → entry.Silent)

variable {log : List (Entry Number)} {entry : Entry Number} {crm : Crm} {row : Json Number}
  {connection : Connection} {externalId : String}

theorem lastLanded_append (dataset : Dataset) (key : ExternalKey) :
    lastLanded formats (log ++ [entry]) dataset key =
      if entry.key formats = (dataset, key.1, some key.2) then some entry
      else lastLanded formats log dataset key := by
  unfold lastLanded
  rw [List.filter_append]
  split
  · rename_i same
    simp [same]
  · rename_i differ
    simp [differ]

theorem changedFields_nil {before : CrmDeal} {after : DealColumns} :
    changedFields before after = [] ↔ before.title = after.title ∧
      before.amountMinor = after.amountMinor ∧ before.currency = after.currency ∧
      before.closedAt = after.closedAt := by
  unfold changedFields
  by_cases title : before.title = after.title <;>
    by_cases amount : before.amountMinor = after.amountMinor <;>
    by_cases currency : before.currency = after.currency <;>
    by_cases closed : before.closedAt = after.closedAt <;>
    simp [title, amount, currency, closed]

theorem timelineEntryFor_none {before : CrmDeal} {after : DealColumns} {word : String} :
    timelineEntryFor formats (some before) after connection word = none ↔
      before.stageId = after.stageId ∧ changedFields before after = [] := by
  unfold timelineEntryFor
  by_cases stage : before.stageId = after.stageId <;>
    by_cases changed : changedFields before after = [] <;>
    simp [stage, changed]

theorem findDeal_some {key : ExternalKey} {id : ℕ} (found : find CrmDeal.key crm.deals key = some id) :
    ∃ deal, findDeal crm key = some (id, deal) ∧ deal ∈ crm.deals ∧ deal.key = some key := by
  obtain ⟨deal, there, named⟩ := find_some found
  refine ⟨deal, ?_, List.mem_of_getElem? there, named⟩
  simp [findDeal, found, there]

theorem findDeal_none {key : ExternalKey} (missing : find CrmDeal.key crm.deals key = none) :
    findDeal crm key = none := by
  simp [findDeal, missing]

theorem DealView.eq_iff {view view' : DealView} :
    view = view' ↔ view.stage = view'.stage ∧ view.title = view'.title ∧
      view.amountMinor = view'.amountMinor ∧ view.currency = view'.currency ∧
      view.closedAt = view'.closedAt := by
  cases view
  cases view'
  simp only [DealView.mk.injEq]
  tauto

theorem CrmDeal.written {columns : DealColumns} {deal : CrmDeal} (still : deal.write columns = deal) :
    deal.stageId = columns.stageId ∧ deal.title = columns.title ∧
      deal.amountMinor = columns.amountMinor ∧ deal.currency = columns.currency ∧
      deal.closedAt = columns.closedAt := by
  rw [← still]
  exact ⟨rfl, rfl, rfl, rfl, rfl⟩

theorem stage_same {stages : List CrmPipelineStage} {pipelineId stageId stageId' : ℕ}
    {word word' : String} {newStage : CrmPipelineStage}
    (was : find CrmPipelineStage.key stages (pipelineId, word') = some stageId') (now : find CrmPipelineStage.key
      (upsert CrmPipelineStage.key stages (pipelineId, word) id newStage) (pipelineId, word) =
        some stageId) :
    stageId' = stageId ↔ word' = word := by
  have kept : find CrmPipelineStage.key
      (upsert CrmPipelineStage.key stages (pipelineId, word) id newStage) (pipelineId, word') =
        some stageId' := find_upsert_of_found (fun _ => rfl) was
  constructor
  · intro same
    obtain ⟨first, atFirst, keyFirst⟩ := find_some kept
    obtain ⟨second, atSecond, keySecond⟩ := find_some now
    rw [same] at atFirst
    rw [Option.some.inj (atFirst.symm.trans atSecond), keySecond] at keyFirst
    exact (Prod.mk.inj (Option.some.inj keyFirst)).2.symm
  · intro same
    rw [same] at kept
    exact Option.some.inj (kept.symm.trans now)

theorem landRow_again {previous : Connection} {last : Json Number} {companyId : Option ℕ}
    (found : externalIdOf formats .deal row = some externalId)
    (same_connection : previous.id = connection.id)
    (stands : Stands formats crm previous externalId last companyId .deal) :
    let landed := landRow formats connection .deal crm row
    (dealView formats previous externalId last = dealView formats connection externalId row →
      landed.activities = crm.activities) ∧
    (dealView formats previous externalId last ≠ dealView formats connection externalId row →
      ∃ line, landed.activities = crm.activities ++ [line] ∧
        find CrmDeal.key landed.deals (connection.id, externalId) = some line.dealId) := by
  intro landed
  obtain ⟨stageId', pipelineId', pipeline', stage', settled⟩ := stands
  obtain ⟨pipelineId, stageId, newPipeline, newStage, pipeline, stage, -, -, landed_eq⟩ :=
    landRow_deal_eq formats connection crm found
  have kept : find CrmPipeline.connectionId (upsert CrmPipeline.connectionId crm.pipelines
      connection.id id newPipeline) previous.id = some pipelineId' :=
    find_upsert_of_found (fun _ => rfl) pipeline'
  rw [same_connection] at kept settled
  have same_pipeline : pipelineId' = pipelineId := Option.some.inj (kept.symm.trans pipeline)
  rw [same_pipeline] at stage'
  obtain ⟨id, place⟩ := Option.isSome_iff_exists.mp (find_isSome.mpr settled.1)
  obtain ⟨deal, before, there, named⟩ := findDeal_some place
  obtain ⟨on_stage, title, amount, currency, closed⟩ := CrmDeal.written (settled.2 deal there named)
  let columns := (dealView formats connection externalId row).columns stageId pipelineId
    (companyOf formats crm connection row)
  have silent : timelineEntryFor formats (some deal) columns connection
      (dealView formats connection externalId row).stage = none ↔
        dealView formats previous externalId last = dealView formats connection externalId row := by
    rw [timelineEntryFor_none, changedFields_nil, DealView.eq_iff, on_stage, title, amount, currency, closed]
    exact and_congr_left' (stage_same stage' stage)
  have told := @timeline_eq Number formats connection crm externalId columns
    (dealView formats connection externalId row).stage _ rfl
  simp only [before, Option.map_some] at told
  constructor
  · intro same
    rw [silent.mpr same] at told
    rw [show landed = _ from landed_eq]
    dsimp only
    rw [told]
    simp
  · intro differ
    obtain ⟨line, said⟩ := Option.ne_none_iff_exists'.mp (mt silent.mp differ)
    rw [said] at told
    refine ⟨⟨id, line⟩, ?_, ?_⟩
    · rw [show landed = _ from landed_eq]
      dsimp only
      rw [told]
      rfl
    · rw [show landed = _ from landed_eq]
      exact find_upsert_of_found (CrmDeal.write_key _) place

theorem landRow_first (found : externalIdOf formats .deal row = some externalId)
    (missing : find CrmDeal.key crm.deals (connection.id, externalId) = none) :
    let landed := landRow formats connection .deal crm row
    ∃ line, landed.activities = crm.activities ++ [line] ∧
      find CrmDeal.key landed.deals (connection.id, externalId) = some line.dealId := by
  intro landed
  obtain ⟨pipelineId, stageId, _, _, -, -, -, -, landed_eq⟩ :=
    landRow_deal_eq formats connection crm found
  let columns := (dealView formats connection externalId row).columns stageId pipelineId
    (companyOf formats crm connection row)
  have told := @timeline_eq Number formats connection crm externalId columns
    (dealView formats connection externalId row).stage _ rfl
  rw [findDeal_none missing] at told
  refine ⟨⟨crm.deals.length, ⟨.CREATED, "Landed from " ++ vendorLabel formats connection.provider,
    none, none, connection.provider⟩⟩, ?_, ?_⟩
  · rw [show landed = _ from landed_eq]
    dsimp only
    rw [told]
    rfl
  · rw [show landed = _ from landed_eq]
    dsimp only
    rw [upsert, show (connection.external externalId).key = (connection.id, externalId) from rfl,
      missing, if_neg (by simp)]
    exact find_append_new missing rfl

theorem landRow_deals_other (dataset : Dataset) {key : ExternalKey}
    (other : (dataset, connection.id, externalIdOf formats dataset row) ≠
      (.deal, key.1, some key.2)) :
    find CrmDeal.key (landRow formats connection dataset crm row).deals key =
      find CrmDeal.key crm.deals key := by
  by_cases lands : Lands formats dataset crm row
  swap
  · rw [landRow_skipped formats lands]
  obtain ⟨externalId, found⟩ := lands.known
  cases dataset with
  | company => rw [landRow_company formats found, landCompany]
  | contact =>
    obtain ⟨userId, owner⟩ := lands.owner
    obtain ⟨_, -, landed⟩ := landRow_contact_eq formats connection crm found owner
    rw [landed]
  | deal =>
    obtain ⟨_, _, _, _, -, -, -, -, landed⟩ := landRow_deal_eq formats connection crm found
    rw [landed]
    refine find_upsert_other (CrmDeal.write_key _) (CrmDeal.create_key _ _) ?_
    intro same
    apply other
    rw [found, same]
    rfl

variable {formats}

section

variable (holds : Reconciled formats log crm)
include holds

theorem Reconciled.told_row (found : externalIdOf formats .deal row = some externalId) :
    let entry : Entry Number :=
      ⟨connection, .deal, row, crm, landRow formats connection .deal crm row⟩
    (Moves formats log entry externalId → entry.Tells externalId) ∧
      (¬ Moves formats log entry externalId → entry.Silent) := by
  intro entry
  cases last : lastLanded formats log .deal (connection.id, externalId) with
  | none =>
    constructor
    · intro _
      exact landRow_first formats found (holds.unlanded _ last)
    · intro not_moves
      apply not_moves.elim
      intro previous same
      rw [show lastLanded formats log .deal (connection.id, externalId) = some previous from same] at last
      cases last
  | some previous =>
    obtain ⟨same_connection, stands⟩ := holds.stands .deal _ previous last
    have again := landRow_again formats found same_connection stands
    constructor
    · intro moves
      exact again.2 (moves previous last)
    · intro not_moves
      apply again.1
      by_contra differ
      apply not_moves
      intro previous' same
      rw [Option.some.inj (same.symm.trans last)]
      exact differ

theorem Reconciled.landed {dataset : Dataset} (lands : Lands formats dataset crm row) :
    Reconciled formats
      (log ++ [⟨connection, dataset, row, crm, landRow formats connection dataset crm row⟩])
      (landRow formats connection dataset crm row) where
  once := holds.once.landed formats connection dataset row
  stands := by
    intro dataset' key entry last
    rw [lastLanded_append] at last
    split at last
    · rename_i same
      obtain ⟨same_dataset, same_key⟩ := Prod.mk.inj same
      obtain ⟨same_connection, same_id⟩ := Prod.mk.inj same_key
      cases Option.some.inj last
      refine ⟨same_connection, ?_⟩
      cases same_dataset
      exact stands_landed formats lands same_id
    · rename_i differ
      obtain ⟨same_connection, stands⟩ := holds.stands dataset' key entry last
      refine ⟨same_connection, stands.landed ?_⟩
      rw [same_connection]
      exact differ
  unlanded := by
    intro key last
    rw [lastLanded_append] at last
    split at last
    · cases last
    · rename_i differ
      rw [landRow_deals_other formats dataset differ]
      exact holds.unlanded key last
  told := by
    intro earlier entry later externalId split_log is_deal found
    rcases List.eq_nil_or_concat later with none_later | some_later
    · rw [none_later] at split_log
      obtain ⟨same_log, same_entry⟩ := List.append_inj' split_log rfl
      cases List.singleton_inj.mp same_entry
      cases is_deal
      rw [← same_log]
      exact holds.told_row found
    · obtain ⟨front, last, rfl⟩ := some_later
      rw [List.concat_eq_append, ← List.cons_append, ← List.append_assoc] at split_log
      obtain ⟨same_log, -⟩ := List.append_inj' split_log rfl
      exact holds.told earlier entry front externalId same_log is_deal found

theorem Reconciled.touched {crm' : Crm} (once : KeysOnce crm')
    (stands : ∀ connection externalId row companyId dataset,
      Stands formats crm connection externalId row companyId dataset →
        Stands formats crm' connection externalId row companyId dataset)
    (deals : ∀ key, find CrmDeal.key crm'.deals key = find CrmDeal.key crm.deals key) :
    Reconciled formats log crm' where
  once := once
  stands := by
    intro dataset key entry last
    obtain ⟨same_connection, stood⟩ := holds.stands dataset key entry last
    exact ⟨same_connection, stands _ _ _ _ _ stood⟩
  unlanded := by
    intro key last
    rw [deals]
    exact holds.unlanded key last
  told := holds.told

end

theorem Reconciled.step {state : Landed Number} (holds : Reconciled formats state.log state.crm)
    (event : Event Number) : Reconciled formats (state.step formats event).log (state.step formats event).crm := by
  cases event with
  | page connection dataset rows commits =>
    cases commits with
    | false => exact holds
    | true =>
      refine page_keeps formats ?_ rows state.log holds
      intro log crm row kept lands
      exact kept.landed lands
  | archiveCompany id flag =>
    have keys : (state.crm.companies.modify id fun row => { row with isArchived := flag }).map
        CrmCompany.key = state.crm.companies.map CrmCompany.key :=
      modify_keys (by intro _; rfl) id
    refine holds.touched ?_ ?_ (fun _ => rfl)
    · exact { holds.once with companies := once_of_keys keys holds.once.companies }
    · intro connection externalId row companyId dataset stands
      cases dataset with
      | company =>
        refine Settled.modify stands (by intro _; rfl) ?_ id
        intro row still
        rw [← still]
        rfl
      | contact | deal => exact stands
  | archiveContact id flag =>
    have keys : (state.crm.contacts.modify id fun row => { row with isArchived := flag }).map
        Contact.key = state.crm.contacts.map Contact.key :=
      modify_keys (by intro _; rfl) id
    refine holds.touched ?_ ?_ (fun _ => rfl)
    · exact { holds.once with contacts := once_of_keys keys holds.once.contacts }
    · intro connection externalId row companyId dataset stands
      cases dataset with
      | company | deal => exact stands
      | contact =>
        obtain ⟨userId, owner, settled, mailed⟩ := stands
        refine ⟨userId, owner, ?_, ?_⟩
        · refine settled.modify (by intro _; rfl) ?_ id
          intro row still
          rw [← still]
          rfl
        · intro contactId place
          rw [Landed.step] at place
          dsimp only at place
          rw [find_of_keys keys] at place
          exact mailed contactId place
  | archiveDeal id flag =>
    have keys : (state.crm.deals.modify id fun row => { row with isArchived := flag }).map
        CrmDeal.key = state.crm.deals.map CrmDeal.key :=
      modify_keys (by intro _; rfl) id
    refine holds.touched ?_ ?_ (fun _ => find_of_keys keys)
    · exact { holds.once with deals := once_of_keys keys holds.once.deals }
    · intro connection externalId row companyId dataset stands
      cases dataset with
      | company | contact => exact stands
      | deal =>
        obtain ⟨stageId, pipelineId, pipeline, stage, settled⟩ := stands
        refine ⟨stageId, pipelineId, pipeline, stage, ?_⟩
        refine settled.modify (by intro _; rfl) ?_ id
        intro row still
        rw [← still]
        rfl

theorem reconciled_unsynced (unsynced : Unsynced crm) : Reconciled formats [] crm where
  once :=
    { companies := by
        intro i j k first second atFirst _ keyFirst
        rw [CrmCompany.key, unsynced.companies first (List.mem_of_getElem? atFirst)] at keyFirst
        cases keyFirst
      contacts := by
        intro i j k first second atFirst _ keyFirst
        rw [Contact.key, unsynced.contacts first (List.mem_of_getElem? atFirst)] at keyFirst
        cases keyFirst
      deals := by
        intro i j k first second atFirst _ keyFirst
        rw [CrmDeal.key, unsynced.deals first (List.mem_of_getElem? atFirst)] at keyFirst
        cases keyFirst
      pipelines := by
        intro i j k first second atFirst _ keyFirst
        rw [unsynced.pipelines first (List.mem_of_getElem? atFirst)] at keyFirst
        cases keyFirst
      stages := by
        intro i j k first second atFirst _ keyFirst
        rw [CrmPipelineStage.key, unsynced.stages first (List.mem_of_getElem? atFirst)] at keyFirst
        cases keyFirst }
  stands := by
    intro _ _ _ last
    cases last
  unlanded := by
    intro key _
    rw [find_none]
    intro row member named
    rw [CrmDeal.key, unsynced.deals row member] at named
    cases named
  told := by
    intro earlier entry later _ split_log
    simp at split_log

theorem reconciled_run (unsynced : Unsynced crm) (events : List (Event Number)) :
    Reconciled formats (Landed.run formats crm events).log (Landed.run formats crm events).crm := by
  induction events using List.reverseRecOn with
  | nil => exact reconciled_unsynced unsynced
  | append_singleton events event ih =>
    rw [Landed.run, List.foldl_append]
    exact ih.step event

end Droplet.ErpSync.Land
