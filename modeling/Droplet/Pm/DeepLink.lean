import Droplet.Pm.FilterShape
import Droplet.Pm.FilterText
import Droplet.Pm.Meaning

/-! The way of a filter through a deep link: what is written is read back, and where it is
not. -/

namespace Droplet.Pm

open ZonedTime Percent

def safe (c : Char) : Bool := c.isAlphanum || decide (c ∈ ['.', '_', '-'])

def escChar (mark : Char) (c : Char) : List Char :=
  if safe c then [c] else (String.utf8EncodeChar c).flatMap (byteText mark)

theorem hexDigit_table : ∀ n < 16, safe (hexDigit n) = true ∧ isHex (hexDigit n) = true ∧
    hexDigit n ∉ marks ∧ hexDigit n ≠ '%' ∧ hexDigit n ≠ '~' := by
  decide

variable (c : Char)

theorem marks_table (mark : c ∈ marks) : plain c = true ∧ safe c = false ∧
    String.utf8EncodeChar c = [UInt8.ofNat c.toNat] := by
  simp only [marks, List.mem_cons, List.not_mem_nil, or_false] at mark
  rcases mark with rfl | rfl | rfl | rfl | rfl | rfl
  all_goals exact ⟨by decide, by decide, rfl⟩

theorem plain_iff : plain c = true ↔ safe c = true ∨ c ∈ marks := by
  simp only [plain, safe, marks, Bool.or_eq_true, decide_eq_true_eq, List.mem_cons,
    List.not_mem_nil, or_false]
  tauto

theorem safe_not_mark (ok : safe c = true) : c ∉ marks ∧ c ≠ '%' ∧ c ≠ '~' := by
  refine ⟨?_, ?_, ?_⟩
  · intro mark
    have other := (marks_table c mark).2.1
    rw [ok] at other
    cases other
  all_goals
    intro same
    subst same
    exact absurd ok (by decide)

theorem tilde_byte (byte : UInt8) :
    (byteText '%' byte).map (fun c => if c = '%' then '~' else c) = byteText '~' byte := by
  have bound := byte.toNat_lt
  obtain ⟨_, _, _, high, _⟩ := hexDigit_table (byte.toNat / 16) (by omega)
  obtain ⟨_, _, _, low, _⟩ := hexDigit_table (byte.toNat % 16) (by omega)
  simp only [byteText, List.map_cons, List.map_nil, if_true, if_neg high, if_neg low]

theorem marks_byte (byte : UInt8) :
    (byteText '%' byte).flatMap (fun c =>
      if c ∈ marks then byteText '%' (UInt8.ofNat c.toNat) else [c]) = byteText '%' byte := by
  have bound := byte.toNat_lt
  obtain ⟨_, _, high, _⟩ := hexDigit_table (byte.toNat / 16) (by omega)
  obtain ⟨_, _, low, _⟩ := hexDigit_table (byte.toNat % 16) (by omega)
  have percent : '%' ∉ marks := by decide
  simp only [byteText, List.flatMap_cons, List.flatMap_nil, if_neg percent, if_neg high, if_neg low,
    List.cons_append, List.nil_append]

theorem replaced_bytes (bytes : List UInt8) :
    ((bytes.flatMap (byteText '%')).flatMap (fun c =>
      if c ∈ marks then byteText '%' (UInt8.ofNat c.toNat) else [c])).map
        (fun c => if c = '%' then '~' else c) = bytes.flatMap (byteText '~') := by
  induction bytes with
  | nil => rfl
  | cons byte rest ih =>
    rw [List.flatMap_cons, List.flatMap_append, List.map_append, marks_byte, tilde_byte, ih,
      List.flatMap_cons]

variable (text : String)

theorem esc_eq : esc text = text.toList.flatMap (escChar '~') := by
  simp only [esc, encodeURIComponent]
  induction text.toList with
  | nil => rfl
  | cons c rest ih =>
    rw [List.flatMap_cons, List.flatMap_append, List.map_append, ih, List.flatMap_cons]
    congr 1
    by_cases ok : safe c = true
    · obtain ⟨mark, percent, _⟩ := safe_not_mark c ok
      simp [escChar, ok, (plain_iff c).mpr (.inl ok), mark, percent]
    · by_cases mark : c ∈ marks
      · obtain ⟨isPlain, _, bytes⟩ := marks_table c mark
        simp only [escChar, if_neg ok, bytes, isPlain, if_true, List.flatMap_cons,
          List.flatMap_nil, if_pos mark, List.append_nil]
        exact tilde_byte _
      · have escaped : ¬ plain c = true := by
          rw [plain_iff]
          tauto
        simp only [if_neg escaped, escChar, if_neg ok]
        exact replaced_bytes _

def itemChar (c : Char) : Bool := safe c || decide (c = '~')

theorem escChar_itemChar (c d : Char) (member : d ∈ escChar '~' c) : itemChar d = true := by
  unfold escChar at member
  split at member
  · next ok =>
    rw [List.mem_singleton.mp member]
    simp [itemChar, ok]
  · obtain ⟨byte, _, inside⟩ := List.mem_flatMap.mp member
    have bound := byte.toNat_lt
    obtain ⟨high, _⟩ := hexDigit_table (byte.toNat / 16) (by omega)
    obtain ⟨low, _⟩ := hexDigit_table (byte.toNat % 16) (by omega)
    simp only [byteText, List.mem_cons, List.not_mem_nil, or_false] at inside
    rcases inside with rfl | rfl | rfl
    · simp [itemChar]
    · simp [itemChar, high]
    · simp [itemChar, low]

theorem esc_itemChar (d : Char) (member : d ∈ esc text) : itemChar d = true := by
  rw [esc_eq] at member
  obtain ⟨c, _, inside⟩ := List.mem_flatMap.mp member
  exact escChar_itemChar c d inside

theorem itemShape_bytes (bytes : List UInt8) (rest : List Char) (shape : itemShape rest = true) :
    itemShape (bytes.flatMap (byteText '~') ++ rest) = true := by
  induction bytes with
  | nil => exact shape
  | cons byte bytes ih =>
    have bound := byte.toNat_lt
    obtain ⟨_, high, _⟩ := hexDigit_table (byte.toNat / 16) (by omega)
    obtain ⟨_, low, _⟩ := hexDigit_table (byte.toNat % 16) (by omega)
    simp only [List.flatMap_cons, byteText, List.cons_append, List.nil_append, itemShape, high,
      low, Bool.true_and]
    exact ih

theorem itemShape_safe (rest : List Char) (ok : safe c = true) (shape : itemShape rest = true) :
    itemShape (c :: rest) = true := by
  rw [itemShape.eq_def]
  split
  · rfl
  · next same =>
    obtain ⟨rfl, _⟩ := List.cons.inj same
    exact absurd ok (by decide)
  · next same =>
    obtain ⟨rfl, rfl⟩ := List.cons.inj same
    rw [shape, Bool.and_true]
    exact ok

theorem itemShape_esc : itemShape (esc text) = true := by
  rw [esc_eq]
  induction text.toList with
  | nil => rfl
  | cons c rest ih =>
    rw [List.flatMap_cons]
    unfold escChar at ih ⊢
    split
    · next ok => exact itemShape_safe c _ ok ih
    · exact itemShape_bytes _ _ ih

theorem unmarked_esc :
    (esc text).map (fun c => if c = '~' then '%' else c) = text.toList.flatMap (escChar '%') := by
  rw [esc_eq]
  induction text.toList with
  | nil => rfl
  | cons c rest ih =>
    rw [List.flatMap_cons, List.map_append, ih, List.flatMap_cons]
    congr 1
    unfold escChar
    split
    · next ok =>
      have tilde := (safe_not_mark c ok).2.2
      simp [tilde]
    · induction String.utf8EncodeChar c with
      | nil => rfl
      | cons byte bytes ihBytes =>
        have bound := byte.toNat_lt
        obtain ⟨_, _, _, _, high⟩ := hexDigit_table (byte.toNat / 16) (by omega)
        obtain ⟨_, _, _, _, low⟩ := hexDigit_table (byte.toNat % 16) (by omega)
        rw [List.flatMap_cons, List.map_append, ihBytes, List.flatMap_cons]
        simp only [byteText, List.map_cons, List.map_nil, if_true, if_neg high, if_neg low]

theorem esc_ne_nil (some_text : text ≠ "") : esc text ≠ [] := by
  have chars : text.toList ≠ [] := by simpa using some_text
  obtain ⟨c, rest, same⟩ := List.exists_cons_of_ne_nil chars
  have piece : escChar '~' c ≠ [] := by
    unfold escChar
    split
    · simp
    · have bytes : String.utf8EncodeChar c ≠ [] := by
        intro empty
        have length := String.length_utf8EncodeChar c
        have positive := c.utf8Size_pos
        rw [empty, List.length_nil] at length
        omega
      obtain ⟨byte, others, shape⟩ := List.exists_cons_of_ne_nil bytes
      simp [shape, byteText]
  rw [esc_eq, same, List.flatMap_cons]
  simp [piece]

theorem unesc_esc (some_text : text ≠ "") : unesc (esc text) = some text := by
  rw [unesc, if_pos ⟨esc_ne_nil text some_text, itemShape_esc text⟩, unmarked_esc]
  apply decodeURIComponent_pieces
  intro c
  unfold escChar
  split
  · next ok => exact .inr ⟨rfl, (safe_not_mark c ok).2.1⟩
  · exact .inl rfl

theorem splitItems_cons (item rest : List Char) (plainItem : ∀ c ∈ item, c ≠ ';') :
    splitItems (item ++ ';' :: rest) = item :: splitItems rest := by
  induction item with
  | nil => simp [splitItems]
  | cons c others ih =>
    have first := plainItem c List.mem_cons_self
    rw [List.cons_append, splitItems, if_neg first,
      ih (fun d member => plainItem d (List.mem_cons_of_mem _ member))]

theorem splitItems_one (item : List Char) (plainItem : ∀ c ∈ item, c ≠ ';') : splitItems item = [item] := by
  induction item with
  | nil => rfl
  | cons c others ih =>
    have first := plainItem c List.mem_cons_self
    rw [splitItems, if_neg first, ih (fun d member => plainItem d (List.mem_cons_of_mem _ member))]

theorem splitItems_intercalate (items : List (List Char)) (some_items : items ≠ [])
    (plainItems : ∀ item ∈ items, ∀ c ∈ item, c ≠ ';') : splitItems ([';'].intercalate items) = items := by
  induction items with
  | nil => exact absurd rfl some_items
  | cons item rest ih =>
    have first := plainItems item List.mem_cons_self
    cases rest with
    | nil => simpa using splitItems_one item first
    | cons next others =>
      rw [List.intercalate_cons_cons, List.append_assoc, List.singleton_append,
        splitItems_cons item _ first, ih (by simp)
          (fun other member => plainItems other (List.mem_cons_of_mem _ member))]

theorem itemChar_ends (item : itemChar c = true) : c ≠ ';' ∧ inValue c = true := by
  refine ⟨?_, ?_⟩
  · intro same
    subst same
    exact absurd item (by decide)
  · rw [inValue, Bool.and_eq_true]
    constructor
    all_goals
      rw [decide_eq_true_eq]
      intro same
      subst same
      exact absurd item (by decide)

/-- What may follow an expression: the end, a comma or the end of a group. -/
def Stop (rest : List Char) : Prop := ∀ c ∈ rest.head?, c = ',' ∨ c = ')'

theorem mapM_unesc (values : List String) (some_text : ∀ value ∈ values, value ≠ "") :
    (values.map esc).mapM unesc = some values := by
  induction values with
  | nil => rfl
  | cons value rest ih =>
    have first := unesc_esc value (some_text value List.mem_cons_self)
    have later := ih (fun other member => some_text other (List.mem_cons_of_mem _ member))
    simp [first, later]

theorem ident_append (name : String) (rest : List Char)
    (letters : name.toList.all Char.isAlpha = true) (some_letter : name.toList ≠ [])
    (other : ∀ c ∈ rest.head?, c.isAlpha = false) : ident (name.toList ++ rest) = some (name, rest) := by
  have all : ∀ c ∈ name.toList, c.isAlpha = true := List.all_eq_true.mp letters
  have stops : rest.takeWhile Char.isAlpha = [] ∧ rest.dropWhile Char.isAlpha = rest := by
    cases rest with
    | nil => simp
    | cons c tail =>
      have first := other c (by simp)
      simp [first]
  have taken : (name.toList ++ rest).takeWhile Char.isAlpha = name.toList := by
    rw [List.takeWhile_append_of_pos all, stops.1, List.append_nil]
  have dropped : (name.toList ++ rest).dropWhile Char.isAlpha = rest := by
    rw [List.dropWhile_append_of_pos all, stops.2]
  rw [ident, taken, dropped, if_neg some_letter, String.ofList_toList]

variable (field : PmFilterField)

theorem field_letters : field.name.toList.all Char.isAlpha = true ∧ field.name.toList ≠ [] := by
  cases field <;> decide

theorem op_letters (op : PmFilterOp) : op.name.toList.all Char.isAlpha = true ∧ op.name.toList ≠ [] := by
  cases op <;> decide

theorem kind_letters (kind : GroupKind) : kind.name.toList.all Char.isAlpha = true ∧ kind.name.toList ≠ [] := by
  cases kind <;> decide

theorem Stop.not_alpha {rest : List Char} (stop : Stop rest) : ∀ c ∈ rest.head?, c.isAlpha = false := by
  intro c first
  rcases stop c first with rfl | rfl <;> decide

theorem Stop.value {rest : List Char} (stop : Stop rest) (value : List Char)
    (inside : ∀ c ∈ value, inValue c = true) :
    (value ++ rest).takeWhile inValue = value ∧ (value ++ rest).dropWhile inValue = rest := by
  have stops : rest.takeWhile inValue = [] ∧ rest.dropWhile inValue = rest := by
    cases rest with
    | nil => simp
    | cons c tail =>
      have first : inValue c = false := by
        rcases stop c (by simp) with rfl | rfl <;> decide
      simp [first]
  constructor
  · rw [List.takeWhile_append_of_pos inside, stops.1, List.append_nil]
  · rw [List.dropWhile_append_of_pos inside, stops.2]

theorem isBooleanField_name : isBooleanField field.name = decide ((PM_FILTER_FIELDS field).kind = .boolean) := by
  simp only [isBooleanField, find_field]

theorem inValue_esc (c : Char) (member : c ∈ esc text) : inValue c = true :=
  (itemChar_ends c (esc_itemChar text c member)).2

theorem inValue_list (values : List String) (c : Char)
    (member : c ∈ [';'].intercalate (values.map esc)) : inValue c = true := by
  induction values with
  | nil => simp at member
  | cons value rest ih =>
    cases rest with
    | nil =>
      apply inValue_esc value
      simpa using member
    | cons next others =>
      rw [List.map_cons, List.map_cons, List.intercalate_cons_cons, List.append_assoc,
        List.mem_append, List.mem_append, List.mem_singleton] at member
      rcases member with first | rfl | later
      · exact inValue_esc value c first
      · decide
      · exact ih (by simpa using later)

theorem readLeaf_list (field op : String) (values : List String)
    (set : op = "in" ∨ op = "notIn" ∨ op = "between") (some_values : values ≠ [])
    (some_text : ∀ value ∈ values, value ≠ "") :
    readLeaf field op (some ([';'].intercalate (values.map esc))) =
      some (leafObject field op (some (.arr (values.map Json.str)))) := by
  have items : splitItems ([';'].intercalate (values.map esc)) = values.map esc := by
    apply splitItems_intercalate
    · simpa using some_values
    · intro item member c inside
      obtain ⟨value, _, rfl⟩ := List.mem_map.mp member
      exact (itemChar_ends c (esc_itemChar value c inside)).1
  simp only [readLeaf, items, mapM_unesc values some_text, if_pos set]

theorem readLeaf_one (field op text : String) (other : ¬ (op = "in" ∨ op = "notIn" ∨ op = "between"))
    (some_text : text ≠ "") (written : List Char) (shape : written = esc text) :
    readLeaf field op (some written) =
      if isBooleanField field then
        if text = "true" then some (leafObject field op (some (.bool true)))
        else if text = "false" then some (leafObject field op (some (.bool false)))
        else none
      else some (leafObject field op (some (.str text))) := by
  have items : splitItems written = [written] := by
    apply splitItems_one
    intro c inside
    rw [shape] at inside
    exact (itemChar_ends c (esc_itemChar text c inside)).1
  have read : [written].mapM unesc = some [text] := by
    rw [shape]
    exact mapM_unesc [text] (by simpa using some_text)
  simp only [readLeaf, items, read, if_neg other]

theorem flag_esc (flag : Bool) : (if flag then "true" else "false").toList =
    esc (if flag then "true" else "false") := by
  cases flag <;> decide

variable (condition : PmFilterCondition)

theorem conditionJson_eq :
    conditionJson condition =
      leafObject condition.field.name condition.op.name (condition.value.map valueJson) := by
  obtain ⟨field, op, value⟩ := condition
  cases value <;> rfl

theorem readLeaf_written (op : PmFilterOp) (value : PmFilterValue)
    (clean : CleanValue (PM_FILTER_FIELDS field) op (some value)) :
    readLeaf field.name op.name (some (writeValue value)) =
        some (leafObject field.name op.name (some (valueJson value))) ∧
      ∀ c ∈ writeValue value, inValue c = true := by
  cases clean with
  | single binary scalar =>
    have other : ¬ (op.name = "in" ∨ op.name = "notIn" ∨ op.name = "between") := by
      revert binary
      cases op <;> decide
    rcases scalar.cases with ⟨kind, text, rfl, some_text⟩ | ⟨kind, flag, rfl⟩
    · refine ⟨?_, inValue_esc text⟩
      rw [writeValue, readLeaf_one field.name op.name text other some_text _ rfl,
        isBooleanField_name, if_neg (by simpa using kind)]
      rfl
    · constructor
      · rw [readLeaf_one field.name op.name (if flag then "true" else "false") other
          (by cases flag <;> decide) _ (by simpa [writeValue] using flag_esc flag),
          isBooleanField_name, if_pos (by simpa using kind)]
        cases flag <;> rfl
      · intro c member
        rw [writeValue, flag_esc] at member
        exact inValue_esc _ c member
  | members set some_values few once scalars =>
    refine ⟨?_, inValue_list _⟩
    apply readLeaf_list _ _ _ _ some_values (fun value member => (scalars value member).some_text)
    rcases set with rfl | rfl <;> decide
  | bounds from_token to_token =>
    refine ⟨?_, inValue_list _⟩
    apply readLeaf_list _ _ _ (by decide) (by simp)
    intro value member
    simp only [List.mem_cons, List.not_mem_nil, or_false] at member
    rcases member with rfl | rfl
    · exact from_token.some_text
    · exact to_token.some_text

theorem expr_writeLeaf (clean : CleanCondition condition) (room : ℕ) (rest : List Char) (stop : Stop rest) :
    expr (room + 1) (writeLeaf condition ++ rest) = some (conditionJson condition, rest) := by
  obtain ⟨field, op, value⟩ := condition
  obtain ⟨fieldLetters, someField⟩ := field_letters field
  obtain ⟨opLetters, someOp⟩ := op_letters op
  have dot : ∀ tail : List Char, expr (room + 1) (field.name.toList ++ '.' :: tail) =
      readCondition field.name tail := by
    intro tail
    simp only [expr, ident_append field.name ('.' :: tail) fieldLetters someField (by simp)]
  rw [conditionJson_eq]
  cases value with
  | none =>
    simp only [writeLeaf, List.append_assoc, List.cons_append]
    rw [dot, readCondition, ident_append op.name rest opLetters someOp stop.not_alpha]
    split
    · next same => cases same
    · next colon =>
      obtain ⟨rfl, rfl⟩ := Prod.mk.inj (Option.some.inj colon)
      rcases stop ':' (by simp) with wrong | wrong <;> exact absurd wrong (by decide)
    · next same =>
      obtain ⟨rfl, rfl⟩ := Prod.mk.inj (Option.some.inj same)
      rfl
  | some value =>
    obtain ⟨read, inside⟩ := readLeaf_written field op value clean.value
    obtain ⟨taken, dropped⟩ := stop.value (writeValue value) inside
    simp only [writeLeaf, List.append_assoc, List.cons_append]
    rw [dot, readCondition, ident_append op.name _ opLetters someOp (by simp)]
    simp only [taken, dropped, read, Option.map_some]

variable (kids : List PmFilter)

theorem commaList_written (some_kids : kids ≠ []) (room fuel : ℕ)
    (rest : List Char) (stop : Stop rest) (last : ∀ c ∈ rest.head?, c ≠ ',') (enough : kids.length ≤ fuel)
    (each : ∀ kid ∈ kids, ∀ rest, Stop rest → expr room (writeExpr kid ++ rest) =
      if levels kid ≤ room then some (toJson kid, rest) else none) :
    commaList (expr room) fuel ([','].intercalate (writeExprs kids) ++ rest) =
      if levelsOfKids kids ≤ room then some (toJsons kids, rest) else none := by
  induction kids generalizing fuel with
  | nil => exact absurd rfl some_kids
  | cons kid others ih =>
    obtain ⟨fuel, rfl⟩ : ∃ less, fuel = less + 1 := ⟨fuel - 1, by simp at enough; omega⟩
    cases others with
    | nil =>
      have read := each kid List.mem_cons_self rest stop
      simp only [writeExprs, List.intercalate_singleton, commaList, read, levelsOfKids, Nat.max_zero, toJsons]
      split
      · next same =>
        split at same
        · cases same
        · next deep => rw [if_neg deep]
      · next comma =>
        split at comma
        · obtain ⟨_, rfl⟩ := Prod.mk.inj (Option.some.inj comma)
          exact absurd rfl (last ',' (by simp))
        · cases comma
      · next same =>
        split at same
        · next fits =>
          obtain ⟨rfl, rfl⟩ := Prod.mk.inj (Option.some.inj same)
          rw [if_pos fits]
        · cases same
    | cons next others =>
      have read := each kid List.mem_cons_self
        (',' :: ([','].intercalate (writeExprs (next :: others)) ++ rest)) (by simp [Stop])
      have later := ih (by simp) fuel (by simpa using enough)
        (fun other member => each other (List.mem_cons_of_mem _ member))
      have text : [','].intercalate (writeExprs (kid :: next :: others)) ++ rest =
          writeExpr kid ++ ',' :: ([','].intercalate (writeExprs (next :: others)) ++ rest) := by
        simp [writeExprs, List.intercalate_cons_cons]
      rw [text, commaList, read]
      by_cases fits : levels kid ≤ room
      · simp only [if_pos fits, later]
        have both : levelsOfKids (kid :: next :: others) ≤ room ↔ levelsOfKids (next :: others) ≤ room := by
          rw [levelsOfKids]
          omega
        by_cases below : levelsOfKids (next :: others) ≤ room
        · simp only [if_pos below, if_pos (both.mpr below), toJsons]
        · simp only [if_neg below, if_neg (fun whole => below (both.mp whole))]
      · have deep : ¬ levelsOfKids (kid :: next :: others) ≤ room := by
          rw [levelsOfKids]
          omega
        simp only [if_neg fits, if_neg deep]

theorem writeExprs_length (rest : List Char) :
    kids.length ≤ ([','].intercalate (writeExprs kids) ++ rest).length + 1 := by
  induction kids with
  | nil => simp
  | cons kid others ih =>
    cases others with
    | nil => simp
    | cons next others =>
      simp only [writeExprs, List.intercalate_cons_cons, List.length_append, List.length_cons,
        List.length_nil] at ih ⊢
      omega

theorem expr_writeExpr (filter : PmFilter)
    (clean : ∀ condition ∈ conditions filter, CleanCondition condition) (full : Full filter)
    (room : ℕ) (rest : List Char) (stop : Stop rest) :
    expr room (writeExpr filter ++ rest) =
      if levels filter ≤ room then some (toJson filter, rest) else none := by
  induction filter using PmFilter.tree_induction generalizing room rest with
  | leaf condition =>
    cases room with
    | zero => simp [expr, levels]
    | succ room =>
      rw [writeExpr, expr_writeLeaf condition (clean condition (by simp [conditions])) room rest
        stop, if_pos (by simp [levels])]
      rfl
  | group kind kids ih =>
    obtain ⟨some_kids, fullKids⟩ := full
    rw [fullKids_iff] at fullKids
    obtain ⟨letters, some_letter⟩ := kind_letters kind
    cases room with
    | zero => simp [expr, levels]
    | succ room =>
      have read := commaList_written kids some_kids room
        (([','].intercalate (writeExprs kids) ++ ')' :: rest).length + 1) (')' :: rest)
        (by simp [Stop]) (by simp) (writeExprs_length kids _)
        (fun kid member => ih kid member
          (fun condition inside => clean condition (mem_conditionsOf kids kid member condition inside))
          (fullKids kid member) room)
      have name : kind.name = "and" ∨ kind.name = "or" := by cases kind <;> simp [GroupKind.name]
      have text : writeExpr (.group kind kids) ++ rest = kind.name.toList ++
          '(' :: ([','].intercalate (writeExprs kids) ++ ')' :: rest) := by
        simp [writeExpr]
      have same : levels (.group kind kids) ≤ room + 1 ↔ levelsOfKids kids ≤ room := by
        rw [levels]
        omega
      rw [text, expr, ident_append kind.name _ letters some_letter (by simp)]
      simp only [if_pos name, read]
      by_cases fits : levelsOfKids kids ≤ room
      · simp only [if_pos fits, if_pos (same.mpr fits), toJson]
      · simp only [if_neg fits, if_neg (fun whole => fits (same.mp whole))]

/-- The expressions at the top of the string: the children of a root `and`. -/
def rootKids : PmFilter → List PmFilter
  | .group .and kids => kids
  | other => [other]

theorem serialize_rootKids (filter : PmFilter) :
    serializePmFilter filter = [','].intercalate (writeExprs (rootKids (normalizePmFilter filter))) := by
  unfold serializePmFilter
  split
  · next same => rw [same, rootKids]
  · next other =>
    rw [rootKids]
    · simp [writeExprs]
    · exact other

variable {filter : PmFilter}

theorem Normal.rootKids_clean (normal : Normal filter) :
    ∀ kid ∈ rootKids filter, (∀ condition ∈ Pm.conditions kid, CleanCondition condition) ∧ Full kid := by
  intro kid member
  unfold rootKids at member
  split at member
  · next kids =>
    rcases normal.wide with wide | empty
    · have full := (fullKids_iff kids).mp wide.full.2
      refine ⟨?_, full kid member⟩
      intro condition inside
      exact normal.conditions condition (mem_conditionsOf kids kid member condition inside)
    · cases empty
      cases member
  · next other =>
    rw [List.mem_singleton.mp member]
    rcases normal.wide with wide | empty
    · exact ⟨normal.conditions, wide.full⟩
    · exact absurd empty (other [])

theorem Normal.rootOf_toJsons (normal : Normal filter) : rootOf (toJsons (rootKids filter)) = toJson filter := by
  unfold rootKids
  split
  · next kids =>
    rcases normal.wide with wide | empty
    · obtain ⟨two, _⟩ := wide
      rcases kids with _ | ⟨first, _ | ⟨second, others⟩⟩
      · simp at two
      · simp at two
      · rfl
    · cases empty
      rfl
  · rfl

theorem readExprs_written (some_kids : kids ≠ []) (room : ℕ)
    (clean : ∀ kid ∈ kids, (∀ condition ∈ conditions kid, CleanCondition condition) ∧ Full kid) :
    readExprs room ([','].intercalate (writeExprs kids)) =
      if levelsOfKids kids ≤ room then some (toJsons kids) else none := by
  have read := commaList_written kids some_kids room
    (([','].intercalate (writeExprs kids)).length + 1) [] (by simp [Stop]) (by simp)
    (by simpa using writeExprs_length kids [])
    (fun kid member => expr_writeExpr kid (clean kid member).1 (clean kid member).2 room)
  rw [List.append_nil] at read
  rw [readExprs, read]
  by_cases fits : levelsOfKids kids ≤ room
  · simp only [if_pos fits]
  · simp only [if_neg fits]

theorem readExprs_nil (room : ℕ) : readExprs room [] = none := by
  cases room <;> rfl

theorem written_nonempty (some_kids : kids ≠ [])
    (clean : ∀ kid ∈ kids, (∀ condition ∈ conditions kid, CleanCondition condition) ∧ Full kid) :
    [','].intercalate (writeExprs kids) ≠ [] := by
  intro empty
  have read := readExprs_written kids some_kids (levelsOfKids kids) clean
  rw [empty, readExprs_nil, if_pos (le_refl _)] at read
  cases read

/-- Two normal filters that are written the same way are the same: the text is read with room for
both. -/
theorem Normal.eq_of_written {first second : PmFilter} (normal : Normal first) (other : Normal second)
    (same : [','].intercalate (writeExprs (rootKids first)) =
      [','].intercalate (writeExprs (rootKids second))) : first = second := by
  have json : toJsons (rootKids first) = toJsons (rootKids second) := by
    by_cases none_first : rootKids first = []
    · by_cases none_second : rootKids second = []
      · rw [none_first, none_second]
      · rw [none_first] at same
        exact absurd same.symm (written_nonempty _ none_second other.rootKids_clean)
    · by_cases none_second : rootKids second = []
      · rw [none_second] at same
        exact absurd same (written_nonempty _ none_first normal.rootKids_clean)
      · have readFirst := readExprs_written _ none_first
          (max (levelsOfKids (rootKids first)) (levelsOfKids (rootKids second))) normal.rootKids_clean
        have readSecond := readExprs_written _ none_second
          (max (levelsOfKids (rootKids first)) (levelsOfKids (rootKids second))) other.rootKids_clean
        rw [if_pos (le_max_left _ _)] at readFirst
        rw [if_pos (le_max_right _ _), ← same, readFirst] at readSecond
        exact Option.some.inj readSecond
  have accepted := normal.validate
  rw [← normal.rootOf_toJsons, json, other.rootOf_toJsons, other.validate] at accepted
  exact (Except.ok.inj accepted).symm

/-- A root `or` with groups as deep below it as `validatePmFilter` lets them be. -/
def DeepestOr (filter : PmFilter) : Prop :=
  ∃ kids, filter = .group .or kids ∧ levels filter = PM_FILTER_MAX_DEPTH + 2

/-- The parser counts the levels from the expressions of the string, so only a root `and` is
free. -/
theorem Normal.rootKids_levels (normal : Normal filter) :
    levelsOfKids (rootKids filter) ≤ PM_FILTER_MAX_DEPTH + 1 ↔ ¬ DeepestOr filter := by
  have shallow := normal.shallow
  cases filter with
  | leaf condition =>
    refine iff_of_true ?_ ?_
    · simp [rootKids, levelsOfKids, levels]
    · intro deepest
      obtain ⟨kids, same, _⟩ := deepest
      cases same
  | group kind kids =>
    cases kind with
    | and =>
      refine iff_of_true ?_ ?_
      · rw [levels] at shallow
        simp only [rootKids]
        omega
      · intro deepest
        obtain ⟨others, same, _⟩ := deepest
        cases same
    | or =>
      have one : levelsOfKids (rootKids (.group .or kids)) = levels (.group .or kids) := by
        simp [rootKids, levelsOfKids]
      rw [one]
      constructor
      · intro fits deepest
        obtain ⟨_, _, deep⟩ := deepest
        omega
      · intro fits
        by_contra deep
        exact fits ⟨kids, rfl, by omega⟩

theorem Normal.parse_written (normal : Normal filter)
    (short : utf16Length (String.ofList ([','].intercalate (writeExprs (rootKids filter)))) ≤
      PM_FILTER_ENCODED_MAX) :
    parsePmFilter ([','].intercalate (writeExprs (rootKids filter))) =
      if levelsOfKids (rootKids filter) ≤ PM_FILTER_MAX_DEPTH + 1 then some filter else none := by
  rw [parsePmFilter, if_neg (by omega)]
  by_cases empty : rootKids filter = []
  · have root : filter = .group .and [] := by
      unfold rootKids at empty
      split at empty
      · rw [empty]
      · cases empty
    subst root
    simp [rootKids, writeExprs, levelsOfKids]
  · have some_text := written_nonempty _ empty normal.rootKids_clean
    rw [if_neg (by simpa using some_text), readExprs_written _ empty _ normal.rootKids_clean]
    by_cases fits : levelsOfKids (rootKids filter) ≤ PM_FILTER_MAX_DEPTH + 1
    · simp only [if_pos fits, normal.rootOf_toJsons, normal.validate]
      rfl
    · simp only [if_neg fits]

/-- A filter comes back from its deep link unless its normal form is an `or` as deep as the
validator allows, and no two filters share a link. -/
theorem filter_survives_deep_link (input : Json Number) (filter : PmFilter)
    (accepted : validatePmFilter input = .ok filter) :
    (utf16Length (String.ofList (serializePmFilter filter)) ≤ PM_FILTER_ENCODED_MAX →
      (parsePmFilter (serializePmFilter filter) = some (normalizePmFilter filter) ↔
        ¬ DeepestOr (normalizePmFilter filter))) ∧
    ∀ (otherInput : Json Number) (other : PmFilter), validatePmFilter otherInput = .ok other →
      serializePmFilter filter = serializePmFilter other →
        normalizePmFilter filter = normalizePmFilter other := by
  have normal := accepted_normal input filter accepted
  constructor
  · intro short
    rw [serialize_rootKids] at short ⊢
    rw [normal.parse_written short, ← normal.rootKids_levels]
    by_cases fits : levelsOfKids (rootKids (normalizePmFilter filter)) ≤ PM_FILTER_MAX_DEPTH + 1
    · simp [fits]
    · simp [fits]
  · intro otherInput other otherAccepted same
    rw [serialize_rootKids, serialize_rootKids] at same
    exact normal.eq_of_written (accepted_normal otherInput other otherAccepted) same

/-- What is read of a link holds of the rows its filter holds of, and filters that count as equal
hold of the same rows. -/
theorem link_keeps_meaning (input : Json Number) (filter : PmFilter)
    (accepted : validatePmFilter input = .ok filter) (intl : Intl) (ctx : PmFilterContext)
    (folding : Sql.Folding) (row : PmWorkItem) :
    (∀ read, parsePmFilter (serializePmFilter filter) = some read →
      (Holds intl ctx folding row read ↔ Holds intl ctx folding row filter)) ∧
    ∀ (otherInput : Json Number) other, validatePmFilter otherInput = .ok other → pmFiltersEqual filter other →
      (Holds intl ctx folding row filter ↔ Holds intl ctx folding row other) := by
  have normal := accepted_normal input filter accepted
  constructor
  · intro read parsed
    rw [serialize_rootKids] at parsed
    by_cases long : utf16Length (String.ofList
        ([','].intercalate (writeExprs (rootKids (normalizePmFilter filter))))) > PM_FILTER_ENCODED_MAX
    · rw [parsePmFilter, if_pos long] at parsed
      cases parsed
    · rw [normal.parse_written (not_lt.mp long)] at parsed
      split at parsed
      · rw [← Option.some.inj parsed, holds_normalize]
      · cases parsed
  · intro otherInput other otherAccepted same
    rw [pmFiltersEqual, decide_eq_true_eq, serialize_rootKids, serialize_rootKids] at same
    rw [← holds_normalize, normal.eq_of_written (accepted_normal otherInput other otherAccepted) same,
      holds_normalize]

/-- A state that is not set: a condition without a value. -/
def noState : PmFilter := .leaf ⟨.state, .isEmpty, none⟩

theorem noState_clean : CleanCondition ⟨.state, .isEmpty, none⟩ := ⟨by decide, .absent (.inl rfl)⟩

def markedText : String := "a,b)~%\u00e9"

/-- An `or` over an `and`. -/
def linkedFilter : PmFilter :=
  .group .or [noState, .group .and [noState, .leaf ⟨.text, .contains, some (.str markedText)⟩]]

theorem markedText_clean (path : List PathStep) :
    scalar (PM_FILTER_FIELDS .text) (Json.str markedText : Json Empty) path = .ok (.str markedText) := by
  have same : JsText.trim markedText = markedText := by decide
  have fits : ¬ (utf16Length markedText = 0 ∨ utf16Length markedText > PM_FILTER_TEXT_MAX ∨
      hasControlChar markedText) := by decide
  simp only [scalar, PM_FILTER_FIELDS, trimmedText, same, if_neg fits]

theorem linkedFilter_normal : Normal linkedFilter := by
  refine ⟨?_, .inl ?_, by decide, by decide⟩
  · intro condition member
    have one : condition = ⟨.state, .isEmpty, none⟩ ∨
        condition = ⟨.text, .contains, some (.str markedText)⟩ := by
      simpa [linkedFilter, noState, conditions, conditionsOf] using member
    rcases one with rfl | rfl
    · exact noState_clean
    · exact ⟨by decide, .single (by decide) markedText_clean⟩
  · simp [linkedFilter, noState, Wide, WideKids]

theorem linked_filter_survives :
    validatePmFilter (toJson linkedFilter) = .ok linkedFilter ∧
      parsePmFilter (serializePmFilter linkedFilter) = some (normalizePmFilter linkedFilter) := by
  refine ⟨linkedFilter_normal.validate, ?_⟩
  have survives := (filter_survives_deep_link _ _ linkedFilter_normal.validate).1 (by decide)
  apply survives.mpr
  intro deepest
  obtain ⟨_, _, deep⟩ := deepest
  revert deep
  decide

theorem linked_filter_rows : ∃ read, parsePmFilter (serializePmFilter linkedFilter) = some read ∧
    ∀ intl ctx folding row, Holds intl ctx folding row read ↔ Holds intl ctx folding row linkedFilter := by
  have normal := accepted_normal _ _ linkedFilter_normal.validate
  have parsed := normal.parse_written (by decide)
  rw [← serialize_rootKids, if_pos (by decide)] at parsed
  refine ⟨_, parsed, ?_⟩
  intro intl ctx folding row
  exact (link_keeps_meaning _ _ linkedFilter_normal.validate intl ctx folding row).1 _ parsed

/-- Groups at every depth the validator allows, in turn `or` and `and`. -/
def deepestFilter : PmFilter :=
  .group .or [noState, .group .and [noState, .group .or [noState, .group .and [noState,
    .group .or [noState, noState]]]]]

theorem deepestFilter_normal : Normal deepestFilter := by
  refine ⟨?_, .inl ?_, by decide, by decide⟩
  · intro condition member
    have same : condition = ⟨.state, .isEmpty, none⟩ := by
      simpa [deepestFilter, noState, conditions, conditionsOf] using member
    rw [same]
    exact noState_clean
  · simp [deepestFilter, noState, Wide, WideKids]

/-- It is accepted and its string is short, but the string is not read back. -/
theorem deepest_filter_lost :
    validatePmFilter (toJson deepestFilter) = .ok deepestFilter ∧
      utf16Length (String.ofList (serializePmFilter deepestFilter)) ≤ PM_FILTER_ENCODED_MAX ∧
      parsePmFilter (serializePmFilter deepestFilter) = none := by
  refine ⟨deepestFilter_normal.validate, by decide, ?_⟩
  rw [← Option.isNone_iff_eq_none]
  decide

end Droplet.Pm
