import Mathlib

/-! Paging by position: each page holds the rows behind the last position seen, in order. Following
the pages over a table that changes between them passes no row over that stays, and repeats none. -/

namespace Keyset

variable {Row Position : Type} [LinearOrder Position] (position : Row → Position)

def behind (rows : List Row) (after : Option Position) : List Row :=
  (rows.filter (fun row => decide (∀ p ∈ after, p < position row))).insertionSort
    (fun a b => position a ≤ position b)

def page (rows : List Row) (after : Option Position) (limit : ℕ) : List Row × Option Position :=
  let found := (behind position rows after).take (limit + 1)
  if found.length ≤ limit then (found, none)
  else (found.take limit, (found.take limit).getLast?.map position)

/-- The pages up to one with no next, each of the table there is at its time. -/
def follow : Option Position → List (List Row × ℕ) → List (List Row × Option Position)
  | _, [] => []
  | after, (rows, limit) :: rest =>
    match page position rows after limit with
    | (items, none) => [(items, none)]
    | (items, some next) => (items, some next) :: follow (some next) rest

theorem follow_cons (after : Option Position) (rows : List Row) (limit : ℕ)
    (rest : List (List Row × ℕ)) :
    follow position after ((rows, limit) :: rest) =
      match page position rows after limit with
      | (items, none) => [(items, none)]
      | (items, some next) => (items, some next) :: follow position (some next) rest := rfl

def Distinct (rows : List Row) : Prop := (rows.map position).Nodup

variable {position}

variable (rows : List Row)

section

variable (after : Option Position)
include after

theorem mem_behind (row : Row) :
    row ∈ behind position rows after ↔ row ∈ rows ∧ ∀ p ∈ after, p < position row := by
  simp [behind]

theorem behind_sorted (distinct : Distinct position rows) :
    (behind position rows after).Pairwise (fun a b => position a < position b) := by
  have total : Std.Total (fun a b : Row => position a ≤ position b) :=
    ⟨fun a b => le_total (position a) (position b)⟩
  have trans : IsTrans Row (fun a b => position a ≤ position b) := ⟨fun _ _ _ => le_trans⟩
  have sorted := List.pairwise_insertionSort (fun a b : Row => position a ≤ position b)
    (rows.filter (fun row => decide (∀ p ∈ after, p < position row)))
  have apart : (behind position rows after).Pairwise (fun a b => position a ≠ position b) := by
    have filtered : ((rows.filter (fun row => decide (∀ p ∈ after, p < position row))).map
        position).Nodup := List.Nodup.sublist (List.Sublist.map _ List.filter_sublist) distinct
    have perm := (List.perm_insertionSort (fun a b : Row => position a ≤ position b)
      (rows.filter (fun row => decide (∀ p ∈ after, p < position row)))).map position
    exact List.pairwise_map.mp (perm.nodup_iff.mpr filtered)
  exact (sorted.and apart).imp (fun both => lt_of_le_of_ne both.1 both.2)

theorem page_eq (limit : ℕ) :
    page position rows after limit =
      if (behind position rows after).length ≤ limit then (behind position rows after, none)
      else ((behind position rows after).take limit,
        ((behind position rows after).take limit).getLast?.map position) := by
  rw [page, List.take_take, Nat.min_eq_left (Nat.le_succ limit), List.length_take]
  by_cases short : (behind position rows after).length ≤ limit
  · rw [if_pos short, if_pos (by omega), List.take_of_length_le (by omega)]
  · rw [if_neg short, if_neg (by omega)]

theorem page_none (limit : ℕ) (positive : 0 < limit) (items : List Row)
    (last : page position rows after limit = (items, none)) : items = behind position rows after := by
  rw [page_eq] at last
  split at last
  next => exact (Prod.mk.inj last).1.symm
  next long =>
    obtain ⟨_, nothing⟩ := Prod.mk.inj last
    rw [Option.map_eq_none_iff, List.getLast?_eq_none_iff] at nothing
    rcases List.take_eq_nil_iff.mp nothing with zero | empty
    · omega
    · simp [empty] at long

theorem page_some (limit : ℕ) (items : List Row) (next : Position)
    (more : page position rows after limit = (items, some next)) :
    ∃ rest, behind position rows after = items ++ rest ∧
      ∃ front last, items = front ++ [last] ∧ position last = next := by
  rw [page_eq] at more
  split at more
  next => cases more
  next long =>
    obtain ⟨rfl, found⟩ := Prod.mk.inj more
    obtain ⟨last, final, reached⟩ := Option.map_eq_some_iff.mp found
    obtain ⟨front, split⟩ := List.getLast?_eq_some_iff.mp final
    refine ⟨(behind position rows after).drop limit, ?_, front, last, split, reached⟩
    rw [List.take_append_drop]

theorem page_some_bounds (limit : ℕ) (items : List Row) (next : Position) (distinct : Distinct position rows)
    (more : page position rows after limit = (items, some next)) :
    items ≠ [] ∧ (∀ p ∈ after, p < next) ∧ (∀ row ∈ items, position row ≤ next) ∧
      ∀ row ∈ behind position rows after, row ∉ items → next < position row := by
  obtain ⟨rest, split, front, last, rfl, rfl⟩ := page_some rows after limit items next more
  have sorted := behind_sorted rows after distinct
  rw [split] at sorted
  obtain ⟨inner, _, across⟩ := List.pairwise_append.mp sorted
  refine ⟨by simp, ?_, ?_, ?_⟩
  · have member : last ∈ behind position rows after := by
      rw [split]
      simp
    exact ((mem_behind rows after last).mp member).2
  · intro row member
    rcases List.mem_append.mp member with earlier | same
    · exact le_of_lt ((List.pairwise_append.mp inner).2.2 row earlier last (by simp))
    · rw [List.mem_singleton.mp same]
  · intro row member outside
    rw [split] at member
    rcases List.mem_append.mp member with inside | later
    · exact absurd inside outside
    · exact across last (by simp) row later

theorem page_sublist (limit : ℕ) (items : List Row)
    (next : Option Position) (got : page position rows after limit = (items, next)) :
    items.Sublist (behind position rows after) := by
  rw [page_eq] at got
  split at got
  · rw [← (Prod.mk.inj got).1]
  · rw [← (Prod.mk.inj got).1]
    exact List.take_sublist _ _

end

def returned (pages : List (List Row × Option Position)) : List Row := pages.flatMap Prod.fst

variable (fetches : List (List Row × ℕ))

section

variable (after : Option Position)
include after

theorem follow_behind (distinct : ∀ fetch ∈ fetches, Distinct position fetch.1) :
    ∀ row ∈ returned (follow position after fetches), ∀ p ∈ after, p < position row := by
  induction fetches generalizing after with
  | nil =>
    intro row member
    cases member
  | cons fetch rest ih =>
    obtain ⟨rows, limit⟩ := fetch
    intro row member p known
    rw [follow_cons] at member
    split at member
    next items got =>
      have member : row ∈ items := by simpa [returned] using member
      have inside := (page_sublist rows after limit items none got).subset member
      exact ((mem_behind rows after row).mp inside).2 p known
    next items next got =>
      rw [returned, List.flatMap_cons, List.mem_append] at member
      rcases member with here | later
      · have inside := (page_sublist rows after limit items _ got).subset here
        exact ((mem_behind rows after row).mp inside).2 p known
      · have apart : Distinct position rows := distinct (rows, limit) (by simp)
        have ahead := (page_some_bounds rows after limit items next apart got).2.1
        have further := ih (some next) (fun fetch inside => distinct fetch (by simp [inside])) row
          later next rfl
        exact lt_trans (ahead p known) further

theorem follow_mem (row : Row) (came : row ∈ returned (follow position after fetches)) :
    ∃ fetch ∈ fetches.take (follow position after fetches).length, row ∈ fetch.1 := by
  induction fetches generalizing after with
  | nil => cases came
  | cons fetch rest ih =>
    obtain ⟨rows, limit⟩ := fetch
    rw [follow_cons] at came ⊢
    split at came
    next items got =>
      have came : row ∈ items := by simpa [returned] using came
      have inside := (page_sublist rows after limit items none got).subset came
      exact ⟨(rows, limit), by simp, ((mem_behind rows after row).mp inside).1⟩
    next items next got =>
      rw [returned, List.flatMap_cons, List.mem_append] at came
      rcases came with here | later
      · have inside := (page_sublist rows after limit items _ got).subset here
        exact ⟨(rows, limit), by simp, ((mem_behind rows after row).mp inside).1⟩
      · obtain ⟨fetch, read, present⟩ := ih (some next) later
        exact ⟨fetch, by simp [read], present⟩

section

variable (distinct : ∀ fetch ∈ fetches, Distinct position fetch.1)
include distinct

theorem follow_sorted :
    (returned (follow position after fetches)).Pairwise (fun a b => position a < position b) := by
  induction fetches generalizing after with
  | nil => exact List.Pairwise.nil
  | cons fetch rest ih =>
    obtain ⟨rows, limit⟩ := fetch
    have apart : Distinct position rows := distinct (rows, limit) (by simp)
    have sorted := behind_sorted rows after apart
    have others : ∀ fetch ∈ rest, Distinct position fetch.1 :=
      fun fetch inside => distinct fetch (by simp [inside])
    rw [follow_cons]
    split
    next items got =>
      have single : returned [(items, (none : Option Position))] = items := by simp [returned]
      rw [single]
      exact sorted.sublist (page_sublist rows after limit items _ got)
    next items next got =>
      rw [returned, List.flatMap_cons, List.pairwise_append]
      refine ⟨sorted.sublist (page_sublist rows after limit items _ got), ih (some next) others, ?_⟩
      intro row here other later
      have low := (page_some_bounds rows after limit items next apart got).2.2.1 row here
      have high := follow_behind rest (some next) others other later next rfl
      exact lt_of_le_of_lt low high

theorem follow_complete (positive : ∀ fetch ∈ fetches, 0 < fetch.2)
    (ended : ((follow position after fetches).getLast?.map Prod.snd) = some none)
    (wanted : Position) (ahead : ∀ p ∈ after, p < wanted)
    (stays : ∀ fetch ∈ fetches.take (follow position after fetches).length,
      ∃ row ∈ fetch.1, position row = wanted) :
    ∃ row ∈ returned (follow position after fetches), position row = wanted := by
  induction fetches generalizing after with
  | nil => cases ended
  | cons fetch rest ih =>
    obtain ⟨rows, limit⟩ := fetch
    rw [follow_cons] at ended stays ⊢
    split at ended
    next items got =>
      simp only [got] at stays ⊢
      obtain ⟨row, present, rfl⟩ := stays (rows, limit) (by simp)
      refine ⟨row, ?_, rfl⟩
      have all := page_none rows after limit (positive (rows, limit) (by simp)) items got
      simp only [returned, List.flatMap_cons, List.flatMap_nil, List.append_nil, all]
      exact (mem_behind rows after row).mpr ⟨present, ahead⟩
    next items next got =>
      simp only [got] at stays ⊢
      obtain ⟨row, present, rfl⟩ := stays (rows, limit) (by simp)
      have apart : Distinct position rows := distinct (rows, limit) (by simp)
      have bounds := page_some_bounds rows after limit items next apart got
      by_cases here : row ∈ items
      · exact ⟨row, by simp [returned, here], rfl⟩
      · have further := bounds.2.2.2 row ((mem_behind rows after row).mpr ⟨present, ahead⟩) here
        have final : ((follow position (some next) rest).getLast?.map Prod.snd) = some none := by
          cases later : follow position (some next) rest with
          | nil => simp [later] at ended
          | cons first others => simpa [later, List.getLast?_cons_cons] using ended
        obtain ⟨found, member, same⟩ := ih (some next) (fun fetch inside => distinct fetch (by simp [inside]))
          (fun fetch inside => positive fetch (by simp [inside])) final
          (by
            intro p known
            rw [← Option.some.inj known]
            exact further)
          (by
            intro fetch inside
            exact stays fetch (by simp [inside]))
        exact ⟨found, by simp [returned] at member ⊢; exact .inr member, same⟩

/-- Every page but the last has a row, so that there are no more pages than rows and one. -/
theorem follow_length (open_ended : ((follow position after fetches).getLast?.map Prod.snd) ≠ some none) :
    fetches.length ≤ (returned (follow position after fetches)).length := by
  induction fetches generalizing after with
  | nil => simp
  | cons fetch rest ih =>
    obtain ⟨rows, limit⟩ := fetch
    rw [follow_cons] at open_ended ⊢
    split at open_ended
    next items got => simp at open_ended
    next items next got =>
      have apart : Distinct position rows := distinct (rows, limit) (by simp)
      have bounds := page_some_bounds rows after limit items next apart got
      have tail := ih (some next) (fun fetch inside => distinct fetch (by simp [inside])) (by
        intro ended
        apply open_ended
        cases later : follow position (some next) rest with
        | nil => simp [later] at ended
        | cons first others => simpa [later, List.getLast?_cons_cons] using ended)
      have here : 0 < items.length := List.length_pos_of_ne_nil bounds.1
      simp only [returned, List.flatMap_cons, List.length_append, List.length_cons] at tail ⊢
      omega

end

end

end Keyset
