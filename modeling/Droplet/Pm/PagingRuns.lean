import Droplet.Pm.Paging

/-! Following the cursor of a list returns each row that stays once and in order, whatever is inserted
and deleted between the pages, and a cursor is read by its own ordering only. -/

namespace Droplet.Pm.Paging

open ZonedTime IsoText

section paging

variable {Number : Type}

variable (format : NumberFormat Number)

theorem cursorMembers_numeric (order : PmPageOrder) (key : Key Number) (id : RowId) :
    Json.NumericMembers (cursorMembers format order key id) := by
  refine ⟨(by decide : Json.isNumeral ['1'] = true), trivial, ?_, trivial, trivial⟩
  cases key with
  | number value => exact format.numeral value
  | date instant => trivial

theorem encodeCursor_parse (order : PmPageOrder) (key : Key Number) (id : RowId) :
    Json.parse (Base64.utf8Text (Base64.decode (encodeCursor format order key id).toList)) =
      some (.obj (cursorMembers format order key id)) := by
  rw [encodeCursor, String.toList_ofList, Base64.decode_encode, Base64.utf8Text_utf8]
  exact Json.parse_text (.obj _) (cursorMembers_numeric format order key id)

theorem pair_injective :
    Function.Injective (fun position : CursorPosition Number => toLex (position.key, position.id)) := by
  intro a b same
  cases a
  cases b
  simp_all

/-- What a page is read from: rows with ids of their own and keys of the kind of the list. -/
structure Fetch (Number : Type) (listing : Listing) where
  rows : List (Row Number)
  limit : Option ℚ
  distinct : (rows.map Row.id).Nodup
  kinds : ∀ row ∈ rows, (row.columns listing.field).kind = listing.order.kind
  ids : ∀ row ∈ rows, validId row.id.text = true

def cursorText (format : NumberFormat Number) (listing : Listing) (position : CursorPosition Number) :
    String :=
  encodeCursor format listing.order position.key position.id

theorem cursorText_ne (listing : Listing) (position : CursorPosition Number) :
    cursorText format listing position ≠ "" := by
  intro empty
  have parsed := encodeCursor_parse format listing.order position.key position.id
  rw [← cursorText, empty] at parsed
  cases parsed

/-- A position that `listing` makes cursors of. -/
def Readable (listing : Listing) (position : CursorPosition Number) : Prop :=
  position.key.kind = listing.order.kind ∧ validId position.id.text = true

theorem Fetch.readable {listing : Listing} (fetch : Fetch Number listing) (row : Row Number)
    (present : row ∈ fetch.rows) : Readable listing (row.position listing.field) :=
  ⟨fetch.kinds row present, fetch.ids row present⟩

theorem Fetch.apart {listing : Listing} (fetch : Fetch Number listing) :
    Keyset.Distinct (Row.position listing.field) fetch.rows := by
  have ids := fetch.distinct
  have same : fetch.rows.map Row.id =
      (fetch.rows.map (Row.position listing.field)).map CursorPosition.id := by
    rw [List.map_map]
    rfl
  rw [same] at ids
  exact List.Nodup.of_map _ ids

theorem fetches_apart (listing : Listing) (fetches : List (Fetch Number listing)) :
    ∀ pair ∈ fetches.map (fun fetch => (fetch.rows, clampLimit fetch.limit)),
      Keyset.Distinct (Row.position listing.field) pair.1 := by
  intro pair inside
  obtain ⟨fetch, _, rfl⟩ := List.mem_map.mp inside
  exact fetch.apart

theorem clampLimit_pos (limit : Option ℚ) : 0 < clampLimit limit := by
  cases limit with
  | none => decide
  | some limit =>
    simp only [clampLimit]
    omega

variable [LinearOrder Number]

theorem cursorPayload_members (order : PmPageOrder) (key : Key Number) (id : RowId) :
    cursorPayload format (.obj (cursorMembers format order key id)) =
      if validId id.text = true then some ⟨order.name, key.json format, id.text⟩ else none := by
  have v : Json.field "v" (.obj (cursorMembers format order key id)) = some (.num oneText) := by
    simp [Json.field, cursorMembers]
  have o : Json.field "o" (.obj (cursorMembers format order key id)) = some (.str order.name) := by
    simp [Json.field, cursorMembers]
  have k : Json.field "k" (.obj (cursorMembers format order key id)) = some (key.json format) := by
    simp [Json.field, cursorMembers]
  have i : Json.field "i" (.obj (cursorMembers format order key id)) = some (.str id.text) := by
    simp [Json.field, cursorMembers]
  unfold cursorPayload
  simp only [v, o, k, i, format.read_one, true_and]
  cases key <;> simp [Key.json]

theorem decodeCursor_encodeCursor (order : PmPageOrder) (key : Key Number) (id : RowId)
    (kind : key.kind = order.kind) (valid : validId id.text = true) :
    decodeCursor format order (encodeCursor format order key id) = .ok ⟨key, id⟩ := by
  simp only [decodeCursor, encodeCursor_parse, cursorPayload_members, if_pos valid, ne_eq,
    not_true_eq_false, if_false, ← kind]
  cases key with
  | number value => simp [Key.kind, Key.json, format.read_text]
  | date instant =>
    simp [Key.kind, Key.json, readIso_isoText instant.1 instant.2, instant.2]

theorem decodeCursor_other (order other : PmPageOrder) (key : Key Number) (id : RowId)
    (kind : key.kind = order.kind) (apart : other ≠ order) :
    decodeCursor format other (encodeCursor format order key id) = .error INVALID_CURSOR := by
  simp only [decodeCursor, encodeCursor_parse, cursorPayload_members]
  by_cases valid : validId id.text = true
  · by_cases name : order.name = other.name
    · have kinds : other.kind ≠ key.kind := by
        intro same
        apply apart
        cases other
        cases order
        simp_all
      simp only [if_pos valid, name, ne_eq, not_true_eq_false, if_false]
      cases key with
      | number value =>
        cases otherKind : other.kind with
        | number => exact absurd otherKind kinds
        | date => rfl
      | date instant =>
        cases otherKind : other.kind with
        | number => rfl
        | date => exact absurd otherKind kinds
    · simp [if_pos valid, name]
  · simp [if_neg valid]

variable [LinearOrder RowId]

abbrev Direction.order : Direction → LinearOrder (CursorPosition Number)
  | .asc => LinearOrder.lift' (fun position => toLex (position.key, position.id)) pair_injective
  | .desc => LinearOrder.lift'
      (fun position => OrderDual.toDual (toLex (position.key, position.id)))
      (fun _ _ same => pair_injective (OrderDual.toDual.injective same))

theorem before_iff (direction : Direction) (a b : CursorPosition Number) :
    direction.before a b ↔ direction.order.lt a b := by
  cases direction with
  | asc =>
    change _ ↔ toLex (a.key, a.id) < toLex (b.key, b.id)
    rw [Prod.Lex.toLex_lt_toLex]
    rfl
  | desc =>
    change _ ↔ toLex (b.key, b.id) < toLex (a.key, a.id)
    rw [Prod.Lex.toLex_lt_toLex]
    change b.key < a.key ∨ (a.key = b.key ∧ b.id < a.id) ↔ _
    rw [eq_comm]

theorem keysetAfter_holds (field : String) (direction : Direction) (after : CursorPosition Number)
    (row : Row Number) : (keysetAfter field direction after).holds row = true ↔
      direction.before after (row.position field) := by
  have flip : row.columns field = after.key ↔ after.key = row.columns field := eq_comm
  cases direction with
  | asc | desc =>
    simp [keysetAfter, Where.holds, Condition.holds, Op.compares, Direction.before, Row.position, flip]

theorem findMany_eq (listing : Listing) (rows : List (Row Number))
    (after : Option (CursorPosition Number)) (take : ℕ) :
    findMany listing rows after take =
      (@Keyset.behind _ _ listing.direction.order (Row.position listing.field) rows after).take
        take := by
  let _ : LinearOrder (CursorPosition Number) := listing.direction.order
  have order : ∀ a b : CursorPosition Number, listing.direction.before a b ↔ a < b :=
    before_iff listing.direction
  have filters : (fun row : Row Number => after.all (fun position =>
      (keysetAfter listing.field listing.direction position).holds row)) =
        fun row => decide (∀ p ∈ after, p < row.position listing.field) := by
    funext row
    rw [Bool.eq_iff_iff]
    simp only [Option.all_eq_true, keysetAfter_holds, order, decide_eq_true_eq]
    rfl
  have sorts : (fun a b : Row Number =>
      ¬ listing.direction.before (b.position listing.field) (a.position listing.field)) =
        fun a b => a.position listing.field ≤ b.position listing.field := by
    funext a b
    rw [order, not_lt]
  simp only [findMany, Keyset.behind, filters]
  congr! 2

theorem listPage_eq (listing : Listing) (fetch : Fetch Number listing)
    (after : Option (CursorPosition Number)) (readable : ∀ p ∈ after, Readable listing p)
    (items : List (Row Number)) (next : Option (CursorPosition Number))
    (page : @Keyset.page _ _ listing.direction.order (Row.position listing.field) fetch.rows after
      (clampLimit fetch.limit) = (items, next)) :
    listPage format listing fetch.rows fetch.limit (after.map (cursorText format listing)) =
      .ok ⟨items, next.map (cursorText format listing), fetch.rows.length⟩ := by
  have sliced : sliceToPage (findMany listing fetch.rows after (clampLimit fetch.limit + 1))
      (clampLimit fetch.limit) (fun row =>
        encodeCursor format listing.order (row.columns listing.field) row.id) =
      (items, next.map (cursorText format listing)) := by
    rw [findMany_eq, sliceToPage]
    simp only [Keyset.page] at page
    by_cases short : ((@Keyset.behind _ _ listing.direction.order (Row.position listing.field)
        fetch.rows after).take (clampLimit fetch.limit + 1)).length ≤ clampLimit fetch.limit
    · rw [if_pos short] at page ⊢
      obtain ⟨rfl, rfl⟩ := Prod.mk.inj page
      rfl
    · rw [if_neg short] at page ⊢
      obtain ⟨rfl, rfl⟩ := Prod.mk.inj page
      rw [Option.map_map]
      rfl
  cases after with
  | none => simp only [listPage, Option.map_none, pure, Except.pure, Fallible.ok_bind, sliced]
  | some position =>
    obtain ⟨kind, valid⟩ := readable position rfl
    have decoded : decodeCursor format listing.order (cursorText format listing position) =
        .ok position := decodeCursor_encodeCursor format listing.order _ _ kind valid
    simp only [listPage, Option.map_some, if_neg (cursorText_ne format listing position), decoded,
      Functor.map, Except.map, Fallible.ok_bind, sliced, pure, Except.pure]

abbrev keysetPages (listing : Listing) (after : Option (CursorPosition Number))
    (fetches : List (Fetch Number listing)) :
    List (List (Row Number) × Option (CursorPosition Number)) :=
  @Keyset.follow _ _ listing.direction.order (Row.position listing.field) after
    (fetches.map (fun fetch => (fetch.rows, clampLimit fetch.limit)))

theorem follow_eq (listing : Listing) (fetches : List (Fetch Number listing))
    (after : Option (CursorPosition Number)) (readable : ∀ p ∈ after, Readable listing p) :
    ∃ pages, follow format listing (after.map (cursorText format listing))
        (fetches.map (fun fetch => (fetch.rows, fetch.limit))) = .ok pages ∧
      pages.map (fun page => (page.items, page.nextCursor)) =
        (keysetPages listing after fetches).map (fun page =>
          (page.1, page.2.map (cursorText format listing))) := by
  induction fetches generalizing after with
  | nil => exact ⟨[], rfl, rfl⟩
  | cons fetch rest ih =>
    obtain ⟨⟨items, next⟩, page⟩ : ∃ found, @Keyset.page _ _ listing.direction.order
      (Row.position listing.field) fetch.rows after (clampLimit fetch.limit) = found := ⟨_, rfl⟩
    have answered := listPage_eq format listing fetch after readable items next page
    simp only [keysetPages, List.map_cons, Keyset.follow, page, follow, answered, Fallible.ok_bind]
    cases next with
    | none => exact ⟨[⟨items, none, fetch.rows.length⟩], rfl, rfl⟩
    | some next =>
      have known : Readable listing next := by
        let _ : LinearOrder (CursorPosition Number) := listing.direction.order
        obtain ⟨others, split, front, last, rfl, rfl⟩ :=
          Keyset.page_some fetch.rows after _ items next page
        have member : last ∈ Keyset.behind (Row.position listing.field) fetch.rows after := by
          rw [split]
          simp
        exact fetch.readable last ((Keyset.mem_behind _ _ _).mp member).1
      obtain ⟨pages, followed, same⟩ := ih (some next) (by
        intro p inside
        rw [← Option.some.inj inside]
        exact known)
      rw [Option.map_some] at followed
      simp only [Option.map_some, followed, Fallible.ok_bind]
      refine ⟨_, rfl, ?_⟩
      rw [List.map_cons, List.map_cons, same]
      rfl

/-- Between the pages rows come and go, and keep their keys. -/
def KeysUnchanged {listing : Listing} (fetches : List (Fetch Number listing)) : Prop :=
  ∀ fetch ∈ fetches, ∀ other ∈ fetches, ∀ row ∈ fetch.rows, ∀ same ∈ other.rows,
    row.id = same.id → row.columns listing.field = same.columns listing.field

def Stays {listing : Listing} (fetches : List (Fetch Number listing)) (id : RowId)
    (key : Key Number) : Prop :=
  ∀ fetch ∈ fetches, ∃ row ∈ fetch.rows, row.id = id ∧ row.columns listing.field = key

section keyset

variable (listing : Listing) (fetches : List (Fetch Number listing))

abbrev keysetRows : List (Row Number) := Keyset.returned (keysetPages listing none fetches)

theorem keysetRows_sorted : (keysetRows listing fetches).Pairwise (fun a b =>
    listing.direction.before (a.position listing.field) (b.position listing.field)) := by
  let _ : LinearOrder (CursorPosition Number) := listing.direction.order
  have sorted := Keyset.follow_sorted _ none (fetches_apart listing fetches)
  exact sorted.imp (fun less => (before_iff listing.direction _ _).mpr less)

theorem keysetRows_mem (row : Row Number) (came : row ∈ keysetRows listing fetches) :
    ∃ fetch ∈ fetches.take (keysetPages listing none fetches).length, row ∈ fetch.rows := by
  let _ : LinearOrder (CursorPosition Number) := listing.direction.order
  obtain ⟨pair, read, present⟩ := Keyset.follow_mem _ none row came
  rw [← List.map_take] at read
  obtain ⟨fetch, inside, rfl⟩ := List.mem_map.mp read
  exact ⟨fetch, inside, present⟩

theorem before_irrefl (direction : Direction) (position : CursorPosition Number) :
    ¬ direction.before position position := by
  rw [before_iff]
  exact @lt_irrefl _ direction.order.toPartialOrder.toPreorder position

theorem keysetRows_ids (unchanged : KeysUnchanged fetches) : ((keysetRows listing fetches).map Row.id).Nodup := by
  refine List.pairwise_map.mpr ((keysetRows_sorted listing fetches).imp_of_mem ?_)
  intro row other first second less same
  obtain ⟨fetch, read, present⟩ := keysetRows_mem listing fetches row first
  obtain ⟨later, readToo, presentToo⟩ := keysetRows_mem listing fetches other second
  have keys := unchanged fetch (List.mem_of_mem_take read) later (List.mem_of_mem_take readToo) row
    present other presentToo same
  have positions : row.position listing.field = other.position listing.field := by
    simp only [Row.position, keys, same]
  rw [positions] at less
  exact before_irrefl listing.direction _ less

theorem single_of_position {rows : List (Row Number)} {direction : Direction} {field : String}
    (sorted : rows.Pairwise (fun a b => direction.before (a.position field) (b.position field)))
    {row : Row Number} (member : row ∈ rows)
    (same : ∀ other ∈ rows, other.position field = row.position field) : rows = [row] := by
  match rows with
  | [] => cases member
  | [only] => rw [List.mem_singleton.mp member]
  | first :: second :: rest =>
    have less := (List.pairwise_cons.mp sorted).1 second (by simp)
    rw [same first (by simp), same second (by simp)] at less
    exact absurd less (before_irrefl direction _)

theorem keysetRows_once
    (ended : ((keysetPages listing none fetches).getLast?.map Prod.snd) = some none) (id : RowId)
    (key : Key Number)
    (stays : Stays (fetches.take (keysetPages listing none fetches).length) id key) :
    ∃ row, (keysetRows listing fetches).filter (fun row => row.id = id) = [row] ∧
      row.columns listing.field = key := by
  let _ : LinearOrder (CursorPosition Number) := listing.direction.order
  obtain ⟨row, came, found⟩ := Keyset.follow_complete _ none (fetches_apart listing fetches) (by
      intro pair inside
      obtain ⟨fetch, _, rfl⟩ := List.mem_map.mp inside
      exact clampLimit_pos fetch.limit) ended (⟨key, id⟩ : CursorPosition Number) (by simp) (by
      intro pair inside
      rw [← List.map_take] at inside
      obtain ⟨fetch, read, rfl⟩ := List.mem_map.mp inside
      obtain ⟨row, present, rfl, rfl⟩ := stays fetch read
      exact ⟨row, present, rfl⟩)
  obtain ⟨rfl, rfl⟩ : row.columns listing.field = key ∧ row.id = id := by
    simpa [Row.position] using found
  refine ⟨row, ?_, rfl⟩
  apply single_of_position ((keysetRows_sorted listing fetches).sublist List.filter_sublist)
  · exact List.mem_filter.mpr ⟨came, by simp⟩
  · intro other member
    obtain ⟨inside, same⟩ := List.mem_filter.mp member
    obtain ⟨fetch, read, present⟩ := keysetRows_mem listing fetches other inside
    obtain ⟨known, there, equal, keys⟩ := stays fetch read
    have ids : other.id = known.id := (of_decide_eq_true same).trans equal.symm
    have rows := List.inj_on_of_nodup_map fetch.distinct present there ids
    simp only [Row.position, rows, keys, equal]

theorem keysetRows_ended (positions : List (CursorPosition Number))
    (all : ∀ fetch ∈ fetches, ∀ row ∈ fetch.rows, row.position listing.field ∈ positions)
    (enough : positions.length < fetches.length) :
    ((keysetPages listing none fetches).getLast?.map Prod.snd) = some none := by
  let _ : LinearOrder (CursorPosition Number) := listing.direction.order
  by_contra endless
  have long : fetches.length ≤ (keysetRows listing fetches).length := by
    have pairs := Keyset.follow_length _ none (fetches_apart listing fetches) endless
    rw [List.length_map] at pairs
    exact pairs
  have apart : ((keysetRows listing fetches).map (Row.position listing.field)).Nodup := by
    refine List.pairwise_map.mpr ((keysetRows_sorted listing fetches).imp ?_)
    intro row other less same
    rw [same] at less
    exact before_irrefl listing.direction _ less
  have sub : (keysetRows listing fetches).map (Row.position listing.field) ⊆ positions := by
    intro position inside
    obtain ⟨row, came, rfl⟩ := List.mem_map.mp inside
    obtain ⟨fetch, read, present⟩ := keysetRows_mem listing fetches row came
    exact all fetch (List.mem_of_mem_take read) row present
  have short := (apart.subperm sub).length_le
  rw [List.length_map] at short
  omega

end keyset

/-- Whatever the rows at each fetch and the size of each page: no cursor that was handed out is
refused; the rows come in strict order, so that none comes twice; one that is there with the same key
at each fetch comes exactly once; and the pages end where rows do. A cursor gives back what it was
made of, and no other ordering reads it. -/
theorem paging_neither_skips_nor_repeats (format : NumberFormat Number) :
    (∀ (listing : Listing) (fetches : List (Fetch Number listing)), ∃ pages,
      follow format listing none (fetches.map (fun fetch => (fetch.rows, fetch.limit))) = .ok pages ∧
      (pages.flatMap Page.items).Pairwise (fun a b =>
        listing.direction.before (a.position listing.field) (b.position listing.field)) ∧
      (KeysUnchanged fetches → ((pages.flatMap Page.items).map Row.id).Nodup) ∧
      (pages.getLast?.map Page.nextCursor = some none → ∀ id key,
        Stays (fetches.take pages.length) id key →
        ∃ row, (pages.flatMap Page.items).filter (fun row => row.id = id) = [row] ∧
          row.columns listing.field = key) ∧
      ∀ positions : List (CursorPosition Number),
        (∀ fetch ∈ fetches, ∀ row ∈ fetch.rows, row.position listing.field ∈ positions) →
        positions.length < fetches.length → pages.getLast?.map Page.nextCursor = some none) ∧
    ∀ (order : PmPageOrder) (key : Key Number) (id : RowId), key.kind = order.kind →
      (validId id.text = true →
        decodeCursor format order (encodeCursor format order key id) = .ok ⟨key, id⟩) ∧
      ∀ other, other ≠ order →
        decodeCursor format other (encodeCursor format order key id) = .error INVALID_CURSOR := by
  constructor
  · intro listing fetches
    obtain ⟨pages, followed, same⟩ := follow_eq format listing fetches none (by simp)
    have rows : pages.flatMap Page.items = keysetRows listing fetches := by
      have flat := congrArg (List.flatMap Prod.fst) same
      simpa [List.flatMap_map, keysetRows, Keyset.returned] using flat
    have count : pages.length = (keysetPages listing none fetches).length := by
      simpa using congrArg List.length same
    have last : pages.getLast?.map Page.nextCursor = some none ↔
        (keysetPages listing none fetches).getLast?.map Prod.snd = some none := by
      have final := congrArg (fun list => list.getLast?.map Prod.snd) same
      simp only [List.getLast?_map, Option.map_map] at final
      have left : pages.getLast?.map Page.nextCursor = _ := final
      rw [left]
      cases (keysetPages listing none fetches).getLast? with
      | none | some => simp
    refine ⟨pages, followed, ?_⟩
    rw [rows, count, last]
    exact ⟨keysetRows_sorted listing fetches, keysetRows_ids listing fetches,
      keysetRows_once listing fetches, keysetRows_ended listing fetches⟩
  · intro order key id kind
    exact ⟨decodeCursor_encodeCursor format order key id kind,
      fun other => decodeCursor_other format order other key id kind⟩

end paging

def digits : NumberFormat (Fin 10) where
  text n := ⟨[Nat.digitChar n], by simp, by simp [Nat.isDigit_digitChar, n.isLt]⟩
  read text := (List.finRange 10).find? (fun n => [Nat.digitChar n] = text.text)
  one := 1
  numeral := by decide
  read_text := by decide
  read_one := by decide

instance : LinearOrder RowId :=
  LinearOrder.lift' RowId.text (fun a b same => by cases a; cases b; simp_all)

def item (id : String) (sortOrder : Fin 10) : Row (Fin 10) := ⟨⟨id⟩, fun _ => .number sortOrder⟩

/-- Three items in pages of two, of which the second is deleted behind the first page. -/
def boardFetches : List (Fetch (Fin 10) boardList) :=
  let first : Fetch (Fin 10) boardList :=
    ⟨[item "c" 7, item "a" 5, item "b" 5], some 2, by decide, by simp [item, Key.kind, boardList,
      ORDER_BOARD], by decide⟩
  let later : Fetch (Fin 10) boardList :=
    ⟨[item "c" 7, item "a" 5], some 2, by decide, by simp [item, Key.kind, boardList, ORDER_BOARD],
      by decide⟩
  [first, later, later, later]

theorem board_pages_hold_last_item : ∃ pages,
    follow digits boardList none (boardFetches.map (fun fetch => (fetch.rows, fetch.limit))) =
      .ok pages ∧
    ∃ row, (pages.flatMap Page.items).filter (fun row => row.id = ⟨"c"⟩) = [row] ∧
      row.columns "sortOrder" = .number 7 := by
  obtain ⟨pages, followed, _, _, once, ends⟩ :=
    (paging_neither_skips_nor_repeats digits).1 boardList boardFetches
  have tables : ∀ fetch ∈ boardFetches,
      fetch.rows = [item "c" 7, item "a" 5, item "b" 5] ∨ fetch.rows = [item "c" 7, item "a" 5] := by
    intro fetch member
    simp only [boardFetches, List.mem_cons, List.not_mem_nil, or_false] at member
    rcases member with rfl | rfl | rfl | rfl <;> simp
  have known : ∀ fetch ∈ boardFetches, ∀ row ∈ fetch.rows, row.position boardList.field ∈
      [(item "c" 7).position "sortOrder", (item "a" 5).position "sortOrder",
        (item "b" 5).position "sortOrder"] := by
    intro fetch member row present
    rcases tables fetch member with rows | rows <;>
      simp only [rows, List.mem_cons, List.not_mem_nil, or_false] at present
    · rcases present with rfl | rfl | rfl <;> simp [boardList]
    · rcases present with rfl | rfl <;> simp [boardList]
  refine ⟨pages, followed, once (ends _ known (by decide)) ⟨"c"⟩ (.number 7) ?_⟩
  intro fetch read
  refine ⟨item "c" 7, ?_, rfl, rfl⟩
  rcases tables fetch (List.mem_of_mem_take read) with rows | rows <;> simp [rows]

end Droplet.Pm.Paging
