import Droplet.SyncPolicy

/-! The position a sync resumes from (`erp-sync/watermark.ts`, `erp-sync/reconcile.ts`). -/

namespace Droplet.ErpSync

def digits (n : ℕ) (text : List Char) : Option (List Char) :=
  if (text.take n).length = n ∧ (text.take n).all Char.isDigit then some (text.drop n) else none

def symbol (c : Char) : List Char → Option (List Char)
  | [] => none
  | first :: rest => if first = c then some rest else none

/-- `(?:Z|[+-]\d{2}:?\d{2})?$` -/
def zoned (text : List Char) : Bool :=
  match text with
  | [] => true
  | ['Z'] => true
  | sign :: rest =>
    (sign = '+' || sign = '-') &&
      ((digits 2 rest >>= symbol ':' >>= digits 2) = some [] ||
        (digits 2 rest >>= digits 2) = some [])

/-- `(?:\.\d+)?`, and the zone. -/
def fraction (text : List Char) : Bool :=
  zoned text ||
    match text with
    | '.' :: digit :: rest => digit.isDigit && zoned (rest.dropWhile Char.isDigit)
    | _ => false

/-- `(?::\d{2}(?:\.\d+)?)?`, and the zone. -/
def seconds (text : List Char) : Bool :=
  zoned text ||
    match symbol ':' text >>= digits 2 with
    | some rest => fraction rest
    | none => false

def isoTimestamp (text : String) : Bool :=
  match digits 4 text.toList >>= symbol '-' >>= digits 2 >>= symbol '-' >>= digits 2 with
  | some [] => true
  | some (separator :: rest) =>
    (separator = 'T' || separator = ' ') &&
      match digits 2 rest >>= symbol ':' >>= digits 2 with
      | some rest => seconds rest
      | none => false
  | none => false

section Positions

-- `Date.parse`, and `none` where it gives `NaN`
variable (dateParse : String → Option ℤ)

def isoInstant (value : String) : Option ℤ := if isoTimestamp value then dateParse value else none

structure Row where
  /-- Absent or empty where the row does not say whose it is. -/
  key : Option String
  marker : Option String
  updatedAt : Option String
  deriving DecidableEq

/-- What `identify` keeps. -/
def identify (rows : List Row) : List Row :=
  rows.filter fun row => match row.key with
    | some key => key ≠ ""
    | none => false

def watermarkValueOf (row : Row) : Option String :=
  match row.updatedAt with
  | some updatedAt => if updatedAt ≠ "" then some updatedAt else row.marker
  | none => row.marker

/-- The best position so far, and the last token that cannot be ordered. -/
structure High where
  best : Option (String × ℤ) := none
  lastOpaque : Option String := none

def High.step (high : High) (row : Row) : High :=
  match watermarkValueOf row with
  | none => high
  | some value =>
    if value = "" then high
    else
      match isoInstant dateParse value with
      | none => { high with lastOpaque := some value }
      | some instant =>
        match high.best with
        | none => { high with best := some (value, instant) }
        | some (_, best) =>
          if best < instant then { high with best := some (value, instant) } else high

/-- The highest position in a set; tokens that are no instants are never compared. -/
def highestWatermark (rows : List Row) : Option String :=
  let high := rows.foldl (High.step dateParse) {}
  (high.best.map Prod.fst).or high.lastOpaque

def highWaterMark (rows : List Row) : Option String := highestWatermark dateParse (identify rows)

def position (row : Row) : Option ℤ := watermarkValueOf row >>= isoInstant dateParse

def instants (rows : List Row) : Set ℤ := {at_ | ∃ row ∈ rows, position dateParse row = some at_}

structure High.Of (rows : List Row) (high : High) : Prop where
  held : ∀ value at_, high.best = some (value, at_) → isoInstant dateParse value = some at_ ∧
    (∃ row ∈ rows, watermarkValueOf row = some value) ∧ at_ ∈ upperBounds (instants dateParse rows)
  unplaced : high.best = none → instants dateParse rows = ∅
  last : ∀ value, high.lastOpaque = some value → isoInstant dateParse value = none ∧ value ≠ "" ∧
    ∃ row ∈ rows, watermarkValueOf row = some value
  valued : ∀ row ∈ rows, ∀ value, watermarkValueOf row = some value → value ≠ "" →
    high.best ≠ none ∨ high.lastOpaque ≠ none

variable {dateParse}

variable {row : Row} {rows : List Row}

theorem instants_concat : instants dateParse (rows ++ [row]) =
    instants dateParse rows ∪ {at_ | position dateParse row = some at_} := by
  ext at_
  simp [instants, or_and_right, exists_or]

theorem valued_concat {value : String} (found : ∃ row ∈ rows, watermarkValueOf row = some value) :
    ∃ other ∈ rows ++ [row], watermarkValueOf other = some value := by
  obtain ⟨other, there, found⟩ := found
  exact ⟨other, List.mem_append_left _ there, found⟩

theorem High.Of.aside {high : High} (held : High.Of dateParse rows high)
    (unplaced : position dateParse row = none) {lastOpaque : Option String}
    (last : ∀ value, lastOpaque = some value → high.lastOpaque = some value ∨
      isoInstant dateParse value = none ∧ value ≠ "" ∧ watermarkValueOf row = some value)
    (valued : ∀ value, watermarkValueOf row = some value → value ≠ "" → lastOpaque ≠ none)
    (kept : high.lastOpaque ≠ none → lastOpaque ≠ none) :
    High.Of dateParse (rows ++ [row]) { high with lastOpaque } where
  held := by
    intro value at_ best
    obtain ⟨instant, found, top⟩ := held.held value at_ best
    refine ⟨instant, valued_concat found, ?_⟩
    simpa [instants_concat, unplaced] using top
  unplaced := by
    intro best
    simp [instants_concat, held.unplaced best, unplaced]
  last := by
    intro value same
    rcases last value same with old | ⟨instant, filled, found⟩
    · obtain ⟨instant, filled, found⟩ := held.last value old
      exact ⟨instant, filled, valued_concat found⟩
    · exact ⟨instant, filled, row, by simp, found⟩
  valued := by
    intro other there value found filled
    rcases List.mem_append.mp there with old | new
    · exact (held.valued other old value found filled).imp_right kept
    · cases List.mem_singleton.mp new
      exact .inr (valued value found filled)

theorem High.Of.placed {high : High} (held : High.Of dateParse rows high) {at_ : ℤ}
    (placed : position dateParse row = some at_) {best : String × ℤ}
    (bound : isoInstant dateParse best.1 = some best.2 ∧
      (∃ other ∈ rows ++ [row], watermarkValueOf other = some best.1) ∧ at_ ≤ best.2 ∧
      best.2 ∈ upperBounds (instants dateParse rows)) :
    High.Of dateParse (rows ++ [row]) { high with best := some best } where
  held := by
    intro value instant same
    cases same
    obtain ⟨parsed, found, above, top⟩ := bound
    refine ⟨parsed, found, ?_⟩
    rw [instants_concat]
    rintro other (old | new)
    · exact top old
    · exact Option.some.inj (placed.symm.trans new) ▸ above
  unplaced := nofun
  last := by
    intro value same
    obtain ⟨instant, filled, found⟩ := held.last value same
    exact ⟨instant, filled, valued_concat found⟩
  valued := by simp

theorem High.Of.step {high : High} (held : High.Of dateParse rows high) (row : Row) :
    High.Of dateParse (rows ++ [row]) (high.step dateParse row) := by
  unfold High.step
  split
  · rename_i absent
    exact held.aside (by simp [position, absent]) (fun _ => .inl) (by simp [absent]) id
  · rename_i value found
    split
    · rename_i empty
      refine held.aside ?_ (fun _ => .inl) (by simp [found, empty]) id
      rw [position, found, empty]
      rfl
    · rename_i filled
      split
      · rename_i instant
        exact held.aside (by simp [position, found, instant]) (by simp [found, instant, filled])
          (by simp) (by simp)
      · rename_i at_ instant
        have placed : position dateParse row = some at_ := by simp [position, found, instant]
        split
        · rename_i none_
          refine held.placed placed ⟨instant, ⟨row, by simp, found⟩, le_refl _, ?_⟩
          simp [held.unplaced none_]
        · rename_i text best is
          obtain ⟨parsed, source, top⟩ := held.held text best is
          split
          · rename_i later
            refine held.placed placed ⟨instant, ⟨row, by simp, found⟩, le_refl _, ?_⟩
            exact upperBounds_mono_mem later.le top
          · rename_i early
            have same : { high with best := some (text, best) } = high := by rw [← is]
            rw [← same]
            exact held.placed placed ⟨parsed, valued_concat source, not_lt.mp early, top⟩

variable (dateParse) in
theorem High.of_fold (rows : List Row) : High.Of dateParse rows (rows.foldl (High.step dateParse) {}) := by
  induction rows using List.reverseRecOn with
  | nil => constructor <;> simp [instants]
  | append_singleton rows row ih =>
    rw [List.foldl_append, List.foldl_cons, List.foldl_nil]
    exact ih.step row

variable (dateParse) in
theorem highestWatermark_cases (rows : List Row) :
    (∃ value at_, highestWatermark dateParse rows = some value ∧
      isoInstant dateParse value = some at_ ∧ (∃ row ∈ rows, watermarkValueOf row = some value) ∧
      IsGreatest (instants dateParse rows) at_) ∨
    (instants dateParse rows = ∅ ∧ (∀ value, highestWatermark dateParse rows = some value →
        isoInstant dateParse value = none ∧ value ≠ "" ∧
          ∃ row ∈ rows, watermarkValueOf row = some value) ∧
      (highestWatermark dateParse rows = none →
        ∀ row ∈ rows, ∀ value, watermarkValueOf row = some value → value = "")) := by
  have held := High.of_fold dateParse rows
  unfold highestWatermark
  generalize rows.foldl (High.step dateParse) {} = high at held ⊢
  dsimp only
  cases best : high.best with
  | some found =>
    obtain ⟨value, at_⟩ := found
    obtain ⟨parsed, ⟨row, there, valued⟩, top⟩ := held.held value at_ best
    refine .inl ⟨value, at_, rfl, parsed, ⟨row, there, valued⟩, ⟨row, there, ?_⟩, top⟩
    simp [position, valued, parsed]
  | none =>
    refine .inr ⟨held.unplaced best, held.last, ?_⟩
    intro nothing row there value found
    by_contra filled
    rcases held.valued row there value found filled with other | other
    · exact other best
    · exact other nothing

/-- What `highWaterMark` says of a set of placed rows. -/
theorem highWaterMark_spec (rows : List Row) (placed : ∀ row ∈ rows, position dateParse row ≠ none) :
    (∀ value, highWaterMark dateParse rows = some value →
      ∃ row ∈ identify rows, watermarkValueOf row = some value ∧
        ∃ instant, isoInstant dateParse value = some instant ∧
          ∀ other ∈ identify rows, ∀ at_, position dateParse other = some at_ → at_ ≤ instant) ∧
    (highWaterMark dateParse rows = none → identify rows = []) := by
  have kept : ∀ row ∈ identify rows, position dateParse row ≠ none :=
    fun row there => placed row (List.mem_of_mem_filter there)
  have unplaced : instants dateParse (identify rows) = ∅ → identify rows = [] := by
    intro empty
    rw [List.eq_nil_iff_forall_not_mem]
    intro row there
    obtain ⟨at_, here⟩ := Option.ne_none_iff_exists'.mp (kept row there)
    have member : at_ ∈ instants dateParse (identify rows) := ⟨row, there, here⟩
    simp [empty] at member
  unfold highWaterMark
  rcases highestWatermark_cases dateParse (identify rows) with
    ⟨value, at_, high, parsed, ⟨row, there, valued⟩, greatest⟩ | ⟨empty, -, -⟩
  · rw [high]
    refine ⟨?_, nofun⟩
    intro other same
    cases same
    exact ⟨row, there, valued, at_, parsed, fun other member instant here => greatest.2 ⟨other, member, here⟩⟩
  · rw [unplaced empty]
    exact ⟨nofun, fun _ => rfl⟩

end Positions

end Droplet.ErpSync
