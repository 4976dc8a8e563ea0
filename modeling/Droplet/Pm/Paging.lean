import Droplet.IsoText
import Droplet.Lib.Base64
import Droplet.Lib.JsonParse
import Droplet.Lib.Keyset

/-! Keyset paging of the lists (`services/pm/pm-paging.ts`), and the page query its callers in
`pm.service.ts` make of it. -/

namespace Droplet.Pm.Paging

open ZonedTime IsoText

/-- Rows per page when the caller does not say. -/
def PM_PAGE_DEFAULT : ℕ := 100
def PM_PAGE_MAX : ℕ := 500

def INVALID_CURSOR : String := "invalid_cursor"

inductive CursorKeyKind where
  | number
  | date

structure PmPageOrder where
  name : String
  kind : CursorKeyKind

def ORDER_BOARD : PmPageOrder := ⟨"board", .number⟩
def ORDER_SEARCH : PmPageOrder := ⟨"search", .date⟩
def ORDER_ASSIGNED : PmPageOrder := ⟨"assigned", .date⟩
def ORDER_COMMENTS : PmPageOrder := ⟨"comments", .date⟩
def ORDER_ACTIVITY : PmPageOrder := ⟨"activity", .date⟩

def oneText : Json.NumberText := ⟨['1'], by simp, by simp⟩

/-- The finite numbers, the two zeros being one, as `JSON.stringify` writes and `JSON.parse` reads
them; `read` is `none` where a text is too large to be finite. -/
structure NumberFormat (Number : Type) where
  text : Number → Json.NumberText
  read : Json.NumberText → Option Number
  one : Number
  numeral : ∀ n, Json.isNumeral (text n).text = true
  read_text : ∀ n, read (text n) = some n
  read_one : read oneText = some one

/-- A valid `Date`. -/
abbrev Instant := { ms : ℤ // |ms| ≤ MAX_TIME }

inductive Key (Number : Type) where
  | number (value : Number)
  | date (instant : Instant)

structure RowId where
  text : String
  deriving DecidableEq

structure CursorPosition (Number : Type) where
  key : Key Number
  id : RowId

variable {Number : Type}

def Key.kind : Key Number → CursorKeyKind
  | .number _ => .number
  | .date _ => .date

def MAX_ID_LENGTH : ℕ := 128

def Key.json (format : NumberFormat Number) : Key Number → Json Json.NumberText
  | .number value => .num (format.text value)
  | .date instant => .str (String.ofList (isoText instant.1))

def cursorMembers (format : NumberFormat Number) (order : PmPageOrder) (key : Key Number)
    (id : RowId) : List (String × Json Json.NumberText) :=
  [("v", .num oneText), ("o", .str order.name), ("k", key.json format), ("i", .str id.text)]

def encodeCursor (format : NumberFormat Number) (order : PmPageOrder) (key : Key Number)
    (id : RowId) : String :=
  String.ofList (Base64.encode (Base64.utf8 (Json.text (.obj (cursorMembers format order key id)))))

structure CursorPayload where
  o : String
  k : Json Json.NumberText
  i : String

def validId (text : String) : Bool := 1 ≤ utf16Length text && utf16Length text ≤ MAX_ID_LENGTH

/-- `cursorPayload.safeParse`, `none` where it fails. -/
def cursorPayload [DecidableEq Number] (format : NumberFormat Number) (raw : Json Json.NumberText) :
    Option CursorPayload :=
  match raw.field "v", raw.field "o", raw.field "k", raw.field "i" with
  | some (.num v), some (.str o), some k, some (.str i) =>
    let known := match k with
      | .num _ | .str _ => true
      | _ => false
    if format.read v = some format.one ∧ known = true ∧ validId i = true then some ⟨o, k, i⟩
    else none
  | _, _, _, _ => none

def decodeCursor [DecidableEq Number] (format : NumberFormat Number) (order : PmPageOrder)
    (cursor : String) : Except String (CursorPosition Number) :=
  match Json.parse (Base64.utf8Text (Base64.decode cursor.toList)) with
  | none => .error INVALID_CURSOR
  | some raw =>
    match cursorPayload format raw with
    | none => .error INVALID_CURSOR
    | some payload =>
      if payload.o ≠ order.name then .error INVALID_CURSOR
      else
        match order.kind, payload.k with
        | .number, .num text =>
          match format.read text with
          | some value => .ok ⟨.number value, ⟨payload.i⟩⟩
          | none => .error INVALID_CURSOR
        | .date, .str text =>
          -- only the text that `toISOString` makes of an instant is one
          let ms := readIso text.toList
          if inside : |ms| ≤ MAX_TIME then
            if String.ofList (isoText ms) = text then .ok ⟨.date ⟨ms, inside⟩, ⟨payload.i⟩⟩
            else .error INVALID_CURSOR
          else .error INVALID_CURSOR
        | _, _ => .error INVALID_CURSOR

inductive Direction where
  | asc
  | desc
  deriving DecidableEq

inductive Op where
  | gt
  | lt

def Op.compares {α : Type} [LinearOrder α] : Op → α → α → Bool
  | .gt, value, bound => decide (bound < value)
  | .lt, value, bound => decide (value < bound)

/-- Keys of one kind are compared, those of two kinds never meet in a list. -/
def Key.sum : Key Number → Lex (Number ⊕ Instant)
  | .number value => toLex (.inl value)
  | .date instant => toLex (.inr instant)

theorem Key.sum_injective : Function.Injective (Key.sum : Key Number → Lex (Number ⊕ Instant)) := by
  intro a b same
  cases a <;> cases b <;> simp_all [Key.sum]

variable [LinearOrder Number]

instance : LinearOrder (Key Number) := LinearOrder.lift' Key.sum Key.sum_injective

structure Row (Number : Type) where
  id : RowId
  columns : String → Key Number

def Row.position (field : String) (row : Row Number) : CursorPosition Number :=
  ⟨row.columns field, row.id⟩

inductive Condition (Number : Type) where
  | compare (field : String) (op : Op) (value : Key Number)
  | equal (field : String) (value : Key Number)
  | id (op : Op) (value : RowId)

/-- A `where` that is a disjunction of conjunctions. -/
structure Where (Number : Type) where
  OR : List (List (Condition Number))

def keysetAfter (field : String) (direction : Direction) (after : CursorPosition Number) :
    Where Number :=
  let op := if direction = .asc then Op.gt else Op.lt
  ⟨[[.compare field op after.key], [.equal field after.key, .id op after.id]]⟩

-- the order of the column of ids, whatever its collation
variable [LinearOrder RowId]

def Condition.holds (row : Row Number) : Condition Number → Bool
  | .compare field op value => op.compares (row.columns field) value
  | .equal field value => decide (row.columns field = value)
  | .id op value => op.compares row.id value

def Where.holds (condition : Where Number) (row : Row Number) : Bool :=
  condition.OR.any (fun conditions => conditions.all (Condition.holds row))

/-- `orderBy: [{ [field]: direction }, { id: direction }]` on two rows that differ. -/
def Direction.before : Direction → CursorPosition Number → CursorPosition Number → Prop
  | .asc, a, b => a.key < b.key ∨ (a.key = b.key ∧ a.id < b.id)
  | .desc, a, b => b.key < a.key ∨ (a.key = b.key ∧ b.id < a.id)

instance (direction : Direction) (a b : CursorPosition Number) : Decidable (direction.before a b) :=
  match direction with
  | .asc => inferInstanceAs (Decidable (a.key < b.key ∨ (a.key = b.key ∧ a.id < b.id)))
  | .desc => inferInstanceAs (Decidable (b.key < a.key ∨ (a.key = b.key ∧ b.id < a.id)))

structure Page (Number : Type) where
  items : List (Row Number)
  nextCursor : Option String
  total : ℕ

/-- `none` stands for no limit and for one that is not finite. -/
def clampLimit : Option ℚ → ℕ
  | none => PM_PAGE_DEFAULT
  | some limit => (max 1 (min (PM_PAGE_MAX : ℤ) ⌊limit⌋)).toNat

/-- A limit is at least one, so that a page with more behind it has a last row. -/
def sliceToPage {α : Type} (rows : List α) (limit : ℕ) (cursorOf : α → String) :
    List α × Option String :=
  if rows.length ≤ limit then (rows, none)
  else (rows.take limit, (rows.take limit).getLast?.map cursorOf)

/-- A list that is paged: the order of its cursors, and the column and direction it is sorted by. -/
structure Listing where
  order : PmPageOrder
  field : String
  direction : Direction

def boardList : Listing := ⟨ORDER_BOARD, "sortOrder", .asc⟩
def searchList : Listing := ⟨ORDER_SEARCH, "updatedAt", .desc⟩
def assignedList : Listing := ⟨ORDER_ASSIGNED, "updatedAt", .desc⟩
def commentsList : Listing := ⟨ORDER_COMMENTS, "createdAt", .asc⟩
def activityList : Listing := ⟨ORDER_ACTIVITY, "createdAt", .asc⟩

/-- `findMany` with `take: limit + 1`, on the rows that pass the filters of the list. -/
def findMany (listing : Listing) (rows : List (Row Number)) (after : Option (CursorPosition Number))
    (take : ℕ) : List (Row Number) :=
  ((rows.filter (fun row => after.all (fun position =>
    (keysetAfter listing.field listing.direction position).holds row))).insertionSort
      (fun a b => ¬ listing.direction.before (b.position listing.field) (a.position listing.field))).take
        take

def listPage (format : NumberFormat Number) (listing : Listing) (rows : List (Row Number))
    (limit : Option ℚ) (cursor : Option String) : Except String (Page Number) := do
  let after ← match cursor with
    | none => pure none
    | some text => if text = "" then pure none else some <$> decodeCursor format listing.order text
  let limit := clampLimit limit
  let (items, nextCursor) := sliceToPage (findMany listing rows after (limit + 1)) limit (fun row =>
    encodeCursor format listing.order (row.columns listing.field) row.id)
  pure ⟨items, nextCursor, rows.length⟩

/-- A caller that follows `nextCursor`: one page after the other, of the rows there are at the time,
until there is no next one. -/
def follow (format : NumberFormat Number) (listing : Listing) :
    Option String → List (List (Row Number) × Option ℚ) → Except String (List (Page Number))
  | _, [] => .ok []
  | cursor, (rows, limit) :: rest => do
      let page ← listPage format listing rows limit cursor
      match page.nextCursor with
      | none => pure [page]
      | some next =>
        let pages ← follow format listing (some next) rest
        pure (page :: pages)

end Droplet.Pm.Paging
