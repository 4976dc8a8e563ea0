import Droplet.Lib.Csv

/-! The two CSV exporters: of work items (`services/pm/import/csv.ts`) and of time reports
(`services/pm/pm-time-csv.ts`), and when what they write is read back without a formula in it. -/

namespace Droplet.Pm

/-- A string: its UTF-16 code units. -/
abbrev Text := List UInt16

namespace CsvExport

def unit (c : Char) : UInt16 := UInt16.ofNat c.toNat

def text (letters : List Char) : Text := letters.map unit

def marks : Csv.Marks UInt16 := ⟨unit ',', unit '"', unit '\r', unit '\n', by decide⟩

def apostrophe : UInt16 := unit (Char.ofNat 39)

/-- A number as `String` writes it, which takes none of the marks. -/
structure Numeral where
  text : Text
  plain : text.any marks.special = false

/-- A cell; `flag` is what an exporter takes besides text, numbers and nothing. -/
inductive Cell (Flag : Type) where
  | text (value : Text)
  | number (value : Numeral)
  | flag (value : Flag)
  | absent

def leaders : Text := text ['=', '+', '-', '@']

/-- What a spreadsheet trims before it looks for a formula. -/
def blanks : Text := text [' ', '\t', '\r']

def opensFormula (value : Text) : Bool :=
  (value.dropWhile (fun u => decide (u ∈ blanks))).head?.any (fun u => decide (u ∈ leaders))

def booleanText (value : Bool) : Text :=
  if value then text ['t', 'r', 'u', 'e'] else text ['f', 'a', 'l', 's', 'e']

end CsvExport

open CsvExport

namespace ImportCsv

/-- `/^[=+\-@\t\r]/` -/
def formulaLead (value : Text) : Bool :=
  value.head?.any (fun u => decide (u ∈ leaders ++ text ['\t', '\r']))

def csvSafeText (value : Text) : Text := if formulaLead value then apostrophe :: value else value

def csvCell : Cell Bool → Text
  | .absent => []
  | .text value => Csv.field marks (csvSafeText value)
  | .number value => Csv.field marks value.text
  | .flag value => Csv.field marks (booleanText value)

def csvLine (cells : List (Cell Bool)) : Text :=
  Csv.joined marks (cells.map csvCell) ++ [marks.cr, marks.lf]

end ImportCsv

namespace TimeCsv

/-- `/^[\t\r ]*[=+\-@]|^[\t\r]/` -/
def formulaLeader (value : Text) : Bool :=
  opensFormula value || value.head?.any (fun u => decide (u ∈ text ['\t', '\r']))

def csvCell : Cell Empty → Text
  | .absent => []
  | .number value => value.text
  | .text value =>
    Csv.field marks (if formulaLeader value then apostrophe :: value else value)

def csvLine (cells : List (Cell Empty)) : Text :=
  Csv.joined marks (cells.map csvCell) ++ [marks.cr, marks.lf]

end TimeCsv

namespace CsvExport

variable {Flag : Type}

/-- What may be read for a cell: its text, or its text behind an apostrophe, and no formula. -/
def CellRead (flagText : Flag → Text) : Cell Flag → Text → Prop
  | .text value, read => (read = value ∨ read = apostrophe :: value) ∧ opensFormula read = false
  | .number value, read => read = value.text
  | .flag value, read => read = flagText value
  | .absent, read => read = []

def ReadsBack (flagText : Flag → Text) (cells : List (Cell Flag)) (line : Text) : Prop :=
  ∃ read, Csv.read marks line = some read ∧ List.Forall₂ (CellRead flagText) cells read

def shown (guard : Text → Bool) (flagText : Flag → Text) : Cell Flag → Text
  | .text value => if guard value then apostrophe :: value else value
  | .number value => value.text
  | .flag value => flagText value
  | .absent => []

theorem apostrophe_plain (value : Text) : opensFormula (apostrophe :: value) = false := by
  have first : apostrophe ∉ blanks := by decide
  have other : apostrophe ∉ leaders := by decide
  rw [opensFormula, List.dropWhile_cons_of_neg (by simpa using first), List.head?_cons, Option.any_some]
  exact decide_eq_false other

theorem cellRead_shown (guard : Text → Bool) (flagText : Flag → Text) (cell : Cell Flag) :
    CellRead flagText cell (shown guard flagText cell) ↔
      ∀ value, cell = .text value → opensFormula value = true → guard value = true := by
  cases cell with
  | text value =>
    by_cases guarded : guard value = true
    · simp [CellRead, shown, guarded, apostrophe_plain]
    · simp [CellRead, shown, guarded]
  | number | flag | absent => simp [CellRead, shown]

theorem readsBack_iff (guard : Text → Bool) (flagText : Flag → Text) (cells : List (Cell Flag)) :
    ReadsBack flagText cells (Csv.record marks (cells.map (shown guard flagText))) ↔
      cells ≠ [] ∧ ∀ value, .text value ∈ cells → opensFormula value = true → guard value = true := by
  by_cases empty : cells = []
  · subst empty
    simp [ReadsBack, Csv.read_record_nil]
  · have read : Csv.read marks (Csv.record marks (cells.map (shown guard flagText))) = some _ :=
      Csv.read_record _ (by simpa using empty)
    have cell : List.Forall₂ (CellRead flagText) cells (cells.map (shown guard flagText)) ↔
        ∀ cell ∈ cells, CellRead flagText cell (shown guard flagText cell) := by
      rw [List.forall₂_map_right_iff, List.forall₂_same]
    simp only [ReadsBack, read, Option.some.injEq, exists_eq_left', cell, cellRead_shown, ne_eq,
      empty, not_false_eq_true, true_and]
    constructor
    · intro all value member
      exact all _ member value rfl
    · intro all cell member value same
      exact all value (same ▸ member)

theorem field_plain (value : Text) (plain : value.any marks.special = false) : Csv.field marks value = value := by
  rw [Csv.field, plain]
  rfl

theorem import_line (cells : List (Cell Bool)) :
    ImportCsv.csvLine cells =
      Csv.record marks (cells.map (shown ImportCsv.formulaLead booleanText)) := by
  rw [ImportCsv.csvLine, Csv.record, List.map_map]
  congr 2
  refine List.map_congr_left (fun cell _ => ?_)
  cases cell with
  | text | number | flag => rfl
  | absent => exact (field_plain [] rfl).symm

theorem time_line (cells : List (Cell Empty)) :
    TimeCsv.csvLine cells =
      Csv.record marks (cells.map (shown TimeCsv.formulaLeader Empty.elim)) := by
  rw [TimeCsv.csvLine, Csv.record, List.map_map]
  congr 2
  refine List.map_congr_left (fun cell _ => ?_)
  cases cell with
  | text value => rfl
  | number value => exact (field_plain value.text value.plain).symm
  | flag value => exact value.elim
  | absent => exact (field_plain [] rfl).symm

/-- A formula that only the trimming of spaces brings to the front. -/
def hiddenFormula (value : Text) : Bool := value.head? = some (unit ' ') && opensFormula value

theorem formulaLead_iff (value : Text) :
    (opensFormula value = true → ImportCsv.formulaLead value = true) ↔
      hiddenFormula value = false := by
  cases value with
  | nil => decide
  | cons u rest =>
    by_cases leader : u ∈ leaders ++ text ['\t', '\r']
    · have other : u ≠ unit ' ' := by
        intro space
        rw [space] at leader
        exact absurd leader (by decide)
      have guarded : ImportCsv.formulaLead (u :: rest) = true := by
        rw [ImportCsv.formulaLead, List.head?_cons, Option.any_some]
        exact decide_eq_true leader
      simp [guarded, hiddenFormula, other]
    · have unguarded : ImportCsv.formulaLead (u :: rest) = false := by
        rw [ImportCsv.formulaLead, List.head?_cons, Option.any_some]
        exact decide_eq_false leader
      by_cases space : u = unit ' '
      · subst space
        simp [unguarded, hiddenFormula]
      · have plain : opensFormula (u :: rest) = false := by
          have solid : u ∉ blanks := by
            intro blank
            rcases List.mem_cons.mp blank with same | tab
            · exact space same
            · exact leader (List.mem_append_right _ tab)
          rw [opensFormula, List.dropWhile_cons_of_neg (by simpa using solid), List.head?_cons,
            Option.any_some]
          exact decide_eq_false (fun inside => leader (List.mem_append_left _ inside))
        simp [plain, hiddenFormula]

theorem import_readsBack (cells : List (Cell Bool)) :
    ReadsBack booleanText cells (ImportCsv.csvLine cells) ↔
      cells ≠ [] ∧ ∀ value, .text value ∈ cells → hiddenFormula value = false := by
  rw [import_line, readsBack_iff]
  simp only [formulaLead_iff]

theorem time_readsBack (cells : List (Cell Empty)) :
    ReadsBack Empty.elim cells (TimeCsv.csvLine cells) ↔ cells ≠ [] := by
  rw [time_line, readsBack_iff]
  constructor
  · intro both
    exact both.1
  · intro some_cell
    refine ⟨some_cell, ?_⟩
    intro value _ opens
    simp [TimeCsv.formulaLeader, opens]

/-- A record of at least one cell is read back from both exporters without a formula, except from
that of work items where a text hides a formula behind a space. -/
theorem export_reads_back_iff (times : List (Cell Empty)) (items : List (Cell Bool)) :
    (ReadsBack Empty.elim times (TimeCsv.csvLine times) ↔ times ≠ []) ∧
    (ReadsBack booleanText items (ImportCsv.csvLine items) ↔
      items ≠ [] ∧ ∀ value, .text value ∈ items → hiddenFormula value = false) :=
  ⟨time_readsBack times, import_readsBack items⟩

theorem formula_behind_space_exported :
    ¬ ReadsBack booleanText [.text (text [' ', '=', '1', '+', '1'])]
      (ImportCsv.csvLine [.text (text [' ', '=', '1', '+', '1'])]) ∧
    Csv.read marks (ImportCsv.csvLine [.text (text [' ', '=', '1', '+', '1'])]) =
      some [text [' ', '=', '1', '+', '1']] := by
  refine ⟨?_, by decide⟩
  rw [import_readsBack]
  intro both
  exact absurd (both.2 _ (List.mem_singleton.mpr rfl)) (by decide)

end CsvExport

end Droplet.Pm
