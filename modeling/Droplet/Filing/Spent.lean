import Droplet.Filing.Budget
import Droplet.Filing.Decided

/-! What the statements of filing do to the rows that the caps count. -/

namespace Droplet.Filing

open Fallible

/-- A proposal that waits is not marked as applied by the box, and one that is decided keeps its mark. -/
inductive Spends : Option IngestProposal → Option IngestProposal → Prop
  | absent : Spends none none
  | proposed (row : IngestProposal) (pending : row.status = .PENDING)
      (unmarked : row.autoApplied = false) : Spends none (some row)
  | waits (row next : IngestProposal) (pending : row.status = .PENDING) (kind : next.kind = row.kind)
      (unmarked : next.autoApplied = false ∨ next.autoApplied = row.autoApplied) :
      Spends (some row) (some next)
  | decided (row next : IngestProposal) (was : row.status ≠ .PENDING) (is_ : next.status ≠ .PENDING)
      (kind : next.kind = row.kind) (instant : next.appliedAt = row.appliedAt)
      (mark : next.autoApplied = row.autoApplied) : Spends (some row) (some next)

variable {id other : RowId} {db after : Db} {reading : Reading}

theorem Spends.refl (before : Option IngestProposal) : Spends before before := by
  cases before with
  | none => exact .absent
  | some row =>
    by_cases pending : row.status = .PENDING
    · exact .waits row row pending rfl (.inr rfl)
    · exact .decided row row pending pending rfl rfl rfl

theorem Spends.update {before : Option IngestProposal} {change : IngestProposal → IngestProposal}
    (same : ∀ row, (change row).status = row.status ∧ (change row).kind = row.kind ∧
      (change row).appliedAt = row.appliedAt ∧ (change row).autoApplied = row.autoApplied) :
    Spends before (before.map change) := by
  cases before with
  | none => exact .absent
  | some row =>
    obtain ⟨status, kind, instant, mark⟩ := same row
    by_cases pending : row.status = .PENDING
    · exact .waits row _ pending kind (.inr mark)
    · exact .decided row _ pending (status ▸ pending) kind instant mark

theorem serve_spends {answer : Answer} {stage : CallStage} {what : Happened}
    (runs : serve reading db answer stage = .ok (.returns after what)) :
    Spends (db.proposals.get other) (after.proposals.get other) := by
  cases serve_commits runs with
  | rejected id actorId rejects =>
    obtain ⟨row, pending, one⟩ := rejectProposal_row rejects
    exact one.each (fun _ => Spends) (.waits _ _ pending rfl (.inr rfl)) fun _ _ => .refl _
  | notSame id companyId actorId marks =>
    obtain ⟨row, pending, one⟩ := markNotSame_row marks
    exact one.each (fun _ => Spends) (.waits _ _ pending rfl (.inr rfl)) fun _ _ => .refl _
  | applied id actorId chooseCompanyId pre created applies =>
    obtain ⟨row, pending, one⟩ := applyTransaction_row applies
    exact one.each (fun _ => Spends) (.waits _ _ pending rfl (.inl rfl)) fun _ _ => .refl _
  | undone id actorId proposal back undoes same =>
    obtain ⟨row, undoMode, applied, one⟩ := undoTransaction_row undoes
    rw [same] at one
    exact one.each (fun _ => Spends) (.decided _ _ (by simp [applied]) (by rintro ⟨⟩) rfl rfl rfl)
      fun _ _ => .refl _

theorem freeHeld_spends (ids : List RowId) :
    Spends (db.proposals.get other) ((freeHeld db ids).proposals.get other) := by
  rw [freeHeld, Table.get_updateMany]
  apply Spends.update
  intro row
  split <;> exact ⟨rfl, rfl, rfl, rfl⟩

theorem work_spends {ended : ℕ} {stage : WorkerStage} (unmarked : ∀ tick, stage ≠ .mark tick) :
    Spends (db.proposals.get other) ((work db ended stage).1.proposals.get other) := by
  cases stage with
  | held actorId caps =>
    rw [work]
    split <;> exact .refl _
  | free actorId caps ids => exact freeHeld_spends ids
  | ready actorId caps => exact .refl _
  | mark tick => exact absurd rfl (unmarked tick)

def Unmarked (db : Db) : Prop :=
  ∀ id row, db.proposals.get id = some row → row.status = .PENDING → row.autoApplied = false

def AllSpend (db after : Db) : Prop := ∀ id, Spends (db.proposals.get id) (after.proposals.get id)

theorem Unmarked.spends (unmarked : Unmarked db) (spends : AllSpend db after) : Unmarked after := by
  intro id next found pending
  have moves := spends id
  rw [found] at moves
  cases before : db.proposals.get id with
  | none =>
    rw [before] at moves
    cases moves with
    | proposed _ _ unmarked => exact unmarked
  | some row =>
    rw [before] at moves
    cases moves with
    | waits _ _ was _ mark =>
      rcases mark with none_ | same
      · exact none_
      · rw [same]
        exact unmarked id row before was
    | decided _ _ _ is_ => exact absurd pending is_

theorem AllSpend.counted (spends : AllSpend db after) (unmarked : Unmarked db) (since_ : Instant)
    (covers : IngestProposalKind → Bool) (id : RowId) :
    (after.proposals.get id).any (countedSince since_ covers) =
      (db.proposals.get id).any (countedSince since_ covers) := by
  have moves := spends id
  cases before : db.proposals.get id with
  | none =>
    rw [before] at moves
    generalize after.proposals.get id = now at moves ⊢
    cases moves with
    | absent => rfl
    | proposed row _ unmarked => simp [countedSince, unmarked]
  | some row =>
    rw [before] at moves
    generalize after.proposals.get id = now at moves ⊢
    cases moves with
    | waits _ next was _ mark =>
      have none_ : row.autoApplied = false := unmarked id row before was
      have still : next.autoApplied = false := by
        rcases mark with none_ | same
        · exact none_
        · rw [same, none_]
      simp [countedSince, none_, still]
    | decided _ next _ _ kind instant mark => simp [countedSince, kind, instant, mark]

def foundIds (db : Db) (where_ : IngestProposal → Bool) : List RowId :=
  (db.proposals.findMany fun _ row => where_ row).map Prod.fst

theorem foundIds_nodup (where_ : IngestProposal → Bool) : (foundIds db where_).Nodup :=
  db.proposals.distinct.sublist (List.filter_sublist.map _)

theorem mem_foundIds {where_ : IngestProposal → Bool} :
    id ∈ foundIds db where_ ↔ (db.proposals.get id).any where_ = true := by
  rw [foundIds, List.mem_map, Option.any_eq_true]
  constructor
  · intro member
    obtain ⟨⟨key, row⟩, found, same⟩ := member
    obtain ⟨there, holds⟩ := Table.mem_findMany.mp found
    exact ⟨row, same ▸ there, holds⟩
  · intro found
    obtain ⟨row, there, holds⟩ := found
    exact ⟨(id, row), Table.mem_findMany.mpr ⟨there, holds⟩, rfl⟩

theorem countSince_eq (since_ : Instant) (covers : IngestProposalKind → Bool) :
    countSince db since_ covers = (foundIds db (countedSince since_ covers)).length := by
  rw [countSince, foundIds, List.length_map]

theorem AllSpend.countSince_eq (spends : AllSpend db after) (unmarked : Unmarked db) (since_ : Instant)
    (covers : IngestProposalKind → Bool) : countSince after since_ covers = countSince db since_ covers := by
  rw [Filing.countSince_eq, Filing.countSince_eq]
  apply List.Perm.length_eq
  rw [List.perm_ext_iff_of_nodup (foundIds_nodup _) (foundIds_nodup _)]
  intro id
  rw [mem_foundIds, mem_foundIds, spends.counted unmarked]

end Droplet.Filing
