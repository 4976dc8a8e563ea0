import Droplet.Audit.Signing

/-! The walk over the activity chain (`services/audit-verify.service.ts`): page by page over
the rows in ascending id, with the epoch of the keyring moving forward, and what it comes
to over the whole table. -/

namespace Droplet.Audit

open HashChain

structure ActivityRow where
  id : ℤ
  content : ActivityRowContent
  signature : String
  prevSignatureHash : String

structure ChainVerifyResult where
  ok : Bool
  rowsChecked : ℕ
  brokenAtId : Option String
  deriving DecidableEq

def PAGE : ℕ := 200

/-- `findMany` with `orderBy: { id: "asc" }`, the rows after the cursor. -/
def findPage (table : List ActivityRow) (cursor : Option ℤ) (take : ℕ) : List ActivityRow :=
  ((table.filter (fun row => cursor.all (fun id => decide (id < row.id)))).insertionSort
    (fun a b => a.id ≤ b.id)).take take

/-- `findFirst` with `orderBy: { key: "desc" }`: the one with the greatest key. -/
def greatest {α κ : Type} [LinearOrder κ] (key : α → κ) : List α → Option α
  | [] => none
  | row :: rest =>
    match greatest key rest with
    | none => some row
    | some last => if key last < key row then some row else some last

structure Walk where
  prevSignature : Option String
  epoch : ℕ
  rowsChecked : ℕ

variable {Key : Type} (digests : Digests Key) (keys : List (AuditKeyEpoch Key))

/-- The link a row must have. The first row of a walk is taken as the origin. -/
def expectedPrevHash (walk : Walk) (row : ActivityRow) : String :=
  match walk.prevSignature with
  | none => row.prevSignatureHash
  | some signature => digests.hashSignature signature

def checkRow (walk : Walk) (row : ActivityRow) : Option Walk :=
  if row.prevSignatureHash ≠ expectedPrevHash digests walk row then none
  else
    match epochVerify digests keys walk.epoch row.content (expectedPrevHash digests walk row)
      row.signature with
    | none => none
    | some (epoch, _) => some ⟨some row.signature, epoch, walk.rowsChecked + 1⟩

def checkPage : List ActivityRow → Walk → Walk × Option String
  | [], walk => (walk, none)
  | row :: rest, walk =>
    match checkRow digests keys walk row with
    | some next => checkPage rest next
    | none => ({ walk with rowsChecked := walk.rowsChecked + 1 }, some (toString row.id))

/-- The loop over the pages, `fuel` of them at most. -/
def verifyPages (table : List ActivityRow) : ℕ → Option ℤ → Walk → Option ChainVerifyResult
  | 0, _, _ => none
  | fuel + 1, cursor, walk =>
    let page := findPage table cursor PAGE
    match page.getLast? with
    | none => some ⟨true, walk.rowsChecked, none⟩
    | some last =>
      match checkPage digests keys page walk with
      | (next, some broken) => some ⟨false, next.rowsChecked, some broken⟩
      | (next, none) =>
        if page.length < PAGE then some ⟨true, next.rowsChecked, none⟩
        else verifyPages table fuel (some last.id) next

/-- With `anchor`, only the rows after it, the first one linked to its signature. A page has
a row at least, so there are never more pages than rows. -/
def verifyActivityChain (table : List ActivityRow) (anchor : Option (ℤ × String)) :
    Option ChainVerifyResult :=
  verifyPages digests keys table (table.length + 1) (anchor.map Prod.fst)
    ⟨anchor.map Prod.snd, 0, 0⟩

def Ascending (table : List ActivityRow) : Prop := table.Pairwise (fun a b => a.id < b.id)

def conclusion : Walk × Option String → ChainVerifyResult
  | (walk, none) => ⟨true, walk.rowsChecked, none⟩
  | (walk, some broken) => ⟨false, walk.rowsChecked, some broken⟩

theorem checkPage_append (front back : List ActivityRow) (walk : Walk) :
    checkPage digests keys (front ++ back) walk =
      match checkPage digests keys front walk with
      | (next, none) => checkPage digests keys back next
      | (next, some broken) => (next, some broken) := by
  induction front generalizing walk with
  | nil => rfl
  | cons row rest ih =>
    simp only [List.cons_append, checkPage]
    cases checkRow digests keys walk row with
    | none => rfl
    | some next => exact ih next

theorem greatest_ascending {α κ : Type} [LinearOrder κ] (key : α → κ) (rows : List α)
    (ascending : rows.Pairwise (fun a b => key a < key b)) : greatest key rows = rows.getLast? := by
  induction rows with
  | nil => rfl
  | cons row rest ih =>
    obtain ⟨first, later⟩ := List.pairwise_cons.mp ascending
    rw [greatest, ih later]
    cases last : rest.getLast? with
    | none =>
      rw [List.getLast?_eq_none_iff.mp last]
      rfl
    | some final =>
      have stays : ¬ key final < key row := not_lt_of_gt (first final (List.mem_of_getLast? last))
      rw [List.getLast?_cons, last]
      simp [stays]

theorem findPage_eq (done rest : List ActivityRow) (take : ℕ) (ascending : Ascending (done ++ rest)) :
    findPage (done ++ rest) (done.getLast?.map ActivityRow.id) take = rest.take take := by
  obtain ⟨first, second, across⟩ := List.pairwise_append.mp ascending
  have sorted : rest.insertionSort (fun a b => a.id ≤ b.id) = rest :=
    List.Pairwise.insertionSort_eq (second.imp le_of_lt)
  unfold findPage
  rcases List.eq_nil_or_concat done with rfl | ⟨front, last, rfl⟩
  · simp [sorted]
  · have behind : (front.concat last ++ rest).filter (fun row => decide (last.id < row.id)) = rest := by
      rw [List.filter_append, List.filter_eq_nil_iff.mpr, List.filter_eq_self.mpr, List.nil_append]
      · intro row member
        simpa using across last (by simp) row member
      · intro row member
        rw [List.concat_eq_append, List.mem_append, List.mem_singleton] at member
        rcases member with earlier | rfl
        · rw [List.concat_eq_append, List.pairwise_append] at first
          have order := first.2.2 row earlier last (by simp)
          simp only [decide_eq_true_eq]
          omega
        · simp
    simp only [List.concat_eq_append, List.getLast?_append, List.getLast?_singleton,
      Option.some_or, Option.map_some, Option.all_some] at behind ⊢
    rw [behind, sorted]

theorem verifyPages_eq (done rest : List ActivityRow) (ascending : Ascending (done ++ rest))
    (fuel : ℕ) (walk : Walk) (enough : rest.length < fuel) :
    verifyPages digests keys (done ++ rest) fuel (done.getLast?.map ActivityRow.id) walk =
      some (conclusion (checkPage digests keys rest walk)) := by
  induction fuel generalizing done rest walk with
  | zero => omega
  | succ fuel ih =>
    simp only [verifyPages, findPage_eq done rest PAGE ascending]
    cases last : (rest.take PAGE).getLast? with
    | none =>
      have empty : rest.take PAGE = [] := List.getLast?_eq_none_iff.mp last
      have none_left : rest = [] := by
        simpa [PAGE] using empty
      subst none_left
      rfl
    | some row =>
      simp only
      have parts := List.take_append_drop PAGE rest
      have whole := checkPage_append digests keys (rest.take PAGE) (rest.drop PAGE) walk
      rw [parts] at whole
      rw [whole]
      cases page : checkPage digests keys (rest.take PAGE) walk with
      | mk next broken =>
        cases broken with
        | some id => rfl
        | none =>
          simp only
          split
          · next short =>
            -- A short page is the last one.
            have all : rest.drop PAGE = [] := by
              rw [List.length_take] at short
              rw [List.drop_eq_nil_iff]
              omega
            rw [all]
            rfl
          · next full =>
            have moved : (done ++ rest.take PAGE).getLast? = some row := by
              rw [List.getLast?_append, last, Option.some_or]
            have left : (rest.drop PAGE).length < fuel := by
              rw [List.length_take] at full
              rw [List.length_drop]
              have size : 0 < PAGE := by decide
              omega
            have go := ih (done ++ rest.take PAGE) (rest.drop PAGE)
              (by rwa [List.append_assoc, parts]) next left
            rw [moved, List.append_assoc, parts] at go
            exact go

theorem verifyActivityChain_eq (table : List ActivityRow) (ascending : Ascending table) :
    verifyActivityChain digests keys table none =
      some (conclusion (checkPage digests keys table ⟨none, 0, 0⟩)) :=
  verifyPages_eq digests keys [] table ascending (table.length + 1) ⟨none, 0, 0⟩ (by omega)

/-- Signed under the key of an index of the ring, over its own link. -/
def Accepts (i : ℕ) (row : ActivityRow) : Prop :=
  TaggedAt digests keys i row.content row.prevSignatureHash row.signature

def RowsLinked (rows : List ActivityRow) : Prop :=
  Linked ActivityRow.signature ActivityRow.prevSignatureHash digests.hashSignature rows

/-- The walk goes through from some point: links from there on, and epochs from there on. -/
def Passes (walk : Walk) (rows : List ActivityRow) : Prop :=
  (∀ signature ∈ walk.prevSignature, ∀ row ∈ rows.head?,
    row.prevSignatureHash = digests.hashSignature signature) ∧
    RowsLinked digests rows ∧ Assigned (Accepts digests keys) walk.epoch rows

theorem checkRow_isNext (walk : Walk) (row : ActivityRow)
    (linked : row.prevSignatureHash = expectedPrevHash digests walk row) :
    IsNext (fun i => Accepts digests keys i row) walk.epoch
      ((checkRow digests keys walk row).map Walk.epoch) := by
  have next := epochVerify_isNext digests keys walk.epoch row.content row.prevSignatureHash row.signature
  simp only [checkRow, ← linked, ne_eq, not_true_eq_false, if_false]
  cases found : epochVerify digests keys walk.epoch row.content row.prevSignatureHash
      row.signature with
  | none =>
    rw [found] at next
    exact next
  | some hit =>
    rw [found] at next
    exact next

theorem checkRow_some (walk next : Walk) (row : ActivityRow) (goes : checkRow digests keys walk row = some next) :
    row.prevSignatureHash = expectedPrevHash digests walk row ∧
      next.prevSignature = some row.signature ∧ next.rowsChecked = walk.rowsChecked + 1 := by
  unfold checkRow at goes
  split at goes
  · cases goes
  · next linked =>
    split at goes
    · cases goes
    · cases goes
      exact ⟨not_not.mp linked, rfl, rfl⟩

theorem expectedPrevHash_iff (walk : Walk) (row : ActivityRow) :
    row.prevSignatureHash = expectedPrevHash digests walk row ↔
      ∀ signature ∈ walk.prevSignature, row.prevSignatureHash = digests.hashSignature signature := by
  unfold expectedPrevHash
  cases walk.prevSignature with
  | none | some => simp

theorem passes_cons (walk next : Walk) (row : ActivityRow) (rest : List ActivityRow)
    (goes : checkRow digests keys walk row = some next) :
    Passes digests keys walk (row :: rest) ↔ Passes digests keys next rest := by
  obtain ⟨linked, signature, _⟩ := checkRow_some digests keys walk next row goes
  have isNext := checkRow_isNext digests keys walk row linked
  rw [goes, Option.map_some] at isNext
  rw [expectedPrevHash_iff] at linked
  unfold Passes
  rw [assigned_cons_iff isNext, signature]
  simp only [RowsLinked, Linked, List.isChain_cons, List.head?_cons, Option.mem_def,
    Option.some.injEq, forall_eq']
  constructor
  · intro all
    exact ⟨all.2.1.1, all.2.1.2, all.2.2⟩
  · intro all
    exact ⟨linked, ⟨all.1, all.2.1⟩, all.2.2⟩

/-- The walk goes through the rows exactly when they are linked and have epochs; then it
has counted them all. -/
theorem checkPage_passes (rows : List ActivityRow) (walk : Walk) :
    ((checkPage digests keys rows walk).2 = none ↔ Passes digests keys walk rows) ∧
      ((checkPage digests keys rows walk).2 = none →
        (checkPage digests keys rows walk).1.rowsChecked = walk.rowsChecked + rows.length) := by
  induction rows generalizing walk with
  | nil =>
    refine ⟨?_, fun _ => rfl⟩
    simp [checkPage, Passes, RowsLinked, Linked, assigned_nil]
  | cons row rest ih =>
    rw [checkPage]
    cases goes : checkRow digests keys walk row with
    | some next =>
      obtain ⟨through, count⟩ := ih next
      refine ⟨through.trans (passes_cons digests keys walk next row rest goes).symm, ?_⟩
      intro none_broken
      rw [count none_broken, (checkRow_some digests keys walk next row goes).2.2, List.length_cons]
      omega
    | none =>
      refine ⟨?_, by simp⟩
      simp only [reduceCtorEq, false_iff]
      intro passes
      obtain ⟨linked, _, assigned⟩ := passes
      have here : row.prevSignatureHash = expectedPrevHash digests walk row :=
        (expectedPrevHash_iff digests walk row).mpr (fun s member => linked s member row rfl)
      have isNext := checkRow_isNext digests keys walk row here
      rw [goes, Option.map_none] at isNext
      exact not_assigned_cons isNext assigned

/-- Linked rows with epochs that never go down. -/
def Sound (rows : List ActivityRow) : Prop :=
  RowsLinked digests rows ∧ ∃ epochs : List ℕ, epochs.Pairwise (· ≤ ·) ∧
    List.Forall₂ (Accepts digests keys) epochs rows

theorem passes_start (rows : List ActivityRow) :
    Passes digests keys ⟨none, 0, 0⟩ rows ↔ Sound digests keys rows := by
  simp [Passes, Sound, Assigned]

/-- The walk over a table: it is sound and counted in full, or it is broken at the first
row that ends a sound beginning. -/
theorem verifyActivityChain_ok_iff (table : List ActivityRow) (ascending : Ascending table) :
    verifyActivityChain digests keys table none = some ⟨true, table.length, none⟩ ↔
      Sound digests keys table := by
  obtain ⟨through, count⟩ := checkPage_passes digests keys table ⟨none, 0, 0⟩
  rw [passes_start] at through
  rw [verifyActivityChain_eq digests keys table ascending, ← through]
  cases walked : checkPage digests keys table ⟨none, 0, 0⟩ with
  | mk walk broken =>
    rw [walked] at count
    cases broken with
    | none =>
      have all := count rfl
      simp only [conclusion, Nat.zero_add] at all ⊢
      simp [all]
    | some id => simp [conclusion]

theorem verifyActivityChain_broken (good : List ActivityRow) (bad : ActivityRow)
    (rest : List ActivityRow) (ascending : Ascending (good ++ bad :: rest))
    (sound : Sound digests keys good) (stops : ¬ Sound digests keys (good ++ [bad])) :
    verifyActivityChain digests keys (good ++ bad :: rest) none =
      some ⟨false, good.length + 1, some (toString bad.id)⟩ := by
  obtain ⟨through, count⟩ := checkPage_passes digests keys good ⟨none, 0, 0⟩
  rw [passes_start] at through
  have whole := (checkPage_passes digests keys (good ++ [bad]) ⟨none, 0, 0⟩).1
  rw [passes_start] at whole
  have none_yet := through.mpr sound
  have here := (not_congr whole).mpr stops
  rw [verifyActivityChain_eq digests keys _ ascending, checkPage_append]
  rw [checkPage_append] at here
  cases walked : checkPage digests keys good ⟨none, 0, 0⟩ with
  | mk walk broken =>
    rw [walked] at here none_yet count
    simp only at none_yet
    subst none_yet
    have all := count rfl
    simp only [checkPage, Nat.zero_add] at here all ⊢
    cases goes : checkRow digests keys walk bad with
    | some next => simp [goes] at here
    | none => simp [conclusion, all]

end Droplet.Audit
