import Droplet.Audit.Determined
import Droplet.Audit.Tamper

/-! What is signed is what is stored (`services/audit-signing.service.ts` and the append of
`services/activity.service.ts`): `refs` as a value of the language, the text that is bound for its column, and
the row as it is read again. -/

namespace Droplet.Audit.Js

open Json IsoText

/-- What `refs` may hold. A number is the text that is written for it; an object lists its own members in
order; of a date only its time is read. -/
inductive JsValue where
  | undefined
  | null
  | bool (value : Bool)
  | num (value : NumberText)
  | nan
  | infinity (negative : Bool)
  | str (value : String)
  | date (time : Option ℤ)
  | arr (items : List JsValue)
  | obj (members : List (String × JsValue))

mutual

/-- What `JSON.stringify` writes a value as, `none` where it leaves it out. -/
def toJson : JsValue → Option (Json NumberText)
  | .undefined => none
  | .null => some .null
  | .bool value => some (.bool value)
  | .num value => some (.num value)
  | .nan => some .null
  | .infinity _ => some .null
  | .str value => some (.str value)
  | .date time =>
    match time.bind toISOString with
    | some iso => some (.str iso)
    | none => some .null
  | .arr items => some (.arr (jsonItems items))
  | .obj members => some (.obj (jsonMembers members))

def jsonItems : List JsValue → List (Json NumberText)
  | [] => []
  | item :: rest => (toJson item).getD .null :: jsonItems rest

def jsonMembers : List (String × JsValue) → List (String × Json NumberText)
  | [] => []
  | (key, value) :: rest =>
    match toJson value with
    | some written => (key, written) :: jsonMembers rest
    | none => jsonMembers rest

end

/-- `JSON.stringify` -/
def stringify (value : JsValue) : Option String := (toJson value).map fun tree => String.ofList (text tree)

mutual

/-- The value of `JSON.parse`. -/
def ofJson : Json NumberText → JsValue
  | .null => .null
  | .bool value => .bool value
  | .num value => .num value
  | .str value => .str value
  | .arr items => .arr (ofItems items)
  | .obj members => .obj (ofMembers members)

def ofItems : List (Json NumberText) → List JsValue
  | [] => []
  | item :: rest => ofJson item :: ofItems rest

def ofMembers : List (String × Json NumberText) → List (String × JsValue)
  | [] => []
  | (key, value) :: rest => (key, ofJson value) :: ofMembers rest

end

def keyBefore (a b : String × JsValue) : Prop := keyRank a.1 ≤ keyRank b.1

instance : DecidableRel keyBefore :=
  fun a b => inferInstanceAs (Decidable (keyRank a.1 ≤ keyRank b.1))

instance : Std.Total keyBefore := ⟨fun a b => le_total (keyRank a.1) (keyRank b.1)⟩

instance : IsTrans (String × JsValue) keyBefore := ⟨fun _ _ _ => le_trans⟩

mutual

/-- A date has no keys of its own, so its copy is empty. -/
def sortValue : JsValue → JsValue
  | .arr items => .arr (sortItems items)
  | .obj members => .obj ((sortMembers members).insertionSort keyBefore)
  | .date _ => .obj []
  | .undefined => .undefined
  | .null => .null
  | .bool value => .bool value
  | .num value => .num value
  | .nan => .nan
  | .infinity negative => .infinity negative
  | .str value => .str value

def sortItems : List JsValue → List JsValue
  | [] => []
  | item :: rest => sortValue item :: sortItems rest

/-- Writing `__proto__` sets the prototype of the copy and no member of it. -/
def sortMembers : List (String × JsValue) → List (String × JsValue)
  | [] => []
  | (key, value) :: rest =>
    if key = "__proto__" then sortMembers rest else (key, sortValue value) :: sortMembers rest

end

structure ActivityRowContent where
  atMs : ℤ
  severity : ActivitySeverity
  sourceIcon : String
  what : String
  sub : Option String
  kind : ActivityKind
  refs : JsValue
  actorType : Option ActivityActorType
  actorId : Option String
  schemaVersion : ℤ

def nullable : Option String → JsValue
  | some value => .str value
  | none => .null

def signedRefs : JsValue → JsValue
  | .undefined => .null
  | refs => sortValue refs

def legacyMembers (content : ActivityRowContent) (iso : String) : List (String × JsValue) :=
  [("at", .str iso),
    ("kind", .str content.kind.name),
    ("refs", signedRefs content.refs),
    ("severity", .str content.severity.name),
    ("sourceIcon", .str content.sourceIcon),
    ("sub", nullable content.sub),
    ("what", .str content.what)]

def actorMembers (content : ActivityRowContent) : List (String × JsValue) :=
  [("actorId", nullable content.actorId),
    ("actorType", nullable (content.actorType.map ActivityActorType.name))]

/-- `none` where it throws: a date or a version that it cannot write. -/
def canonicalizeRowContent (content : ActivityRowContent) : Option String := do
  let iso ← toISOString content.atMs
  if content.schemaVersion = 1 then stringify (.obj (legacyMembers content iso))
  else if content.schemaVersion = 2 then
    stringify (.obj (actorMembers content ++ legacyMembers content iso))
  else none

/-- `none` is the `null` of absent refs. -/
def canonicalRefsJson (refs : JsValue) : Option String :=
  match refs with
  | .null | .undefined => none
  | refs => stringify (sortValue refs)

section
variable {Key : Type} (digests : Digests Key) (key : Key)

def sign (content : ActivityRowContent) (prevSignatureHash : String) : Option String :=
  (canonicalizeRowContent content).map fun canonical =>
    digests.hmac key (canonical ++ "|" ++ prevSignatureHash)

def verify (content : ActivityRowContent) (prevSignatureHash signature : String) : Option Bool :=
  (sign digests key content prevSignatureHash).map fun expected => decide (expected = signature)

/-- The columns as `INSERT` binds them; `refs` is the text of a `jsonb`, or `NULL`. -/
structure BoundRow where
  atMs : ℤ
  severity : ActivitySeverity
  sourceIcon : String
  what : String
  sub : Option String
  kind : ActivityKind
  refs : Option String
  signature : String
  prevSignatureHash : String
  actorType : Option ActivityActorType
  actorId : Option String
  schemaVersion : ℤ

/-- The end of `appendNow`: the row is signed, then bound. -/
def appendNow (content : ActivityRowContent) (prevSignatureHash : String) : Option BoundRow :=
  (sign digests key content prevSignatureHash).map fun signature =>
    { atMs := content.atMs
      severity := content.severity
      sourceIcon := content.sourceIcon
      what := content.what
      sub := content.sub
      kind := content.kind
      refs := canonicalRefsJson content.refs
      signature := signature
      prevSignatureHash := prevSignatureHash
      actorType := content.actorType
      actorId := content.actorId
      schemaVersion := content.schemaVersion }

end

/-- What a column holds of the text bound for it: its tree, the keys of an object in any order. -/
inductive Holds : Option String → Option (Json NumberText) → Prop where
  | absent : Holds none none
  | tree {bound : String} {parsed held : Json NumberText} (read : parse bound.toList = some parsed)
      (alike : Alike parsed held) : Holds (some bound) (some held)

/-- A row as it is read, with what the column of `refs` holds. -/
def activityRowContent (row : BoundRow) (held : Option (Json NumberText)) : ActivityRowContent where
  atMs := row.atMs
  severity := row.severity
  sourceIcon := row.sourceIcon
  what := row.what
  sub := row.sub
  kind := row.kind
  refs :=
    match held with
    | none => .null
    | some tree => ofJson tree
  actorType := row.actorType
  actorId := row.actorId
  schemaVersion := row.schemaVersion

section
variable (numeral : NumberText → Prop)

mutual

/-- An object has each key once, and the numbers are of a kind. -/
def Proper : JsValue → Prop
  | .arr items => ProperItems items
  | .obj members => (members.map Prod.fst).Nodup ∧ ProperMembers members
  | .num number => numeral number
  | .undefined | .null | .bool _ | .nan | .infinity _ | .str _ | .date _ => True

def ProperItems : List JsValue → Prop
  | [] => True
  | item :: rest => Proper item ∧ ProperItems rest

def ProperMembers : List (String × JsValue) → Prop
  | [] => True
  | (_, value) :: rest => Proper value ∧ ProperMembers rest

end

end

def Written (value : JsValue) : Prop := Proper (fun number => isNumeral number.text = true) value

section
variable {numeral : NumberText → Prop}

theorem properMembers_iff (members : List (String × JsValue)) :
    ProperMembers numeral members ↔ ∀ member ∈ members, Proper numeral member.2 := by
  induction members with
  | nil => simp [ProperMembers]
  | cons member rest ih =>
    obtain ⟨key, value⟩ := member
    rw [ProperMembers, ih, List.forall_mem_cons]

theorem ProperMembers.perm {members others : List (String × JsValue)} (proper : ProperMembers numeral members)
    (reordered : members.Perm others) : ProperMembers numeral others := by
  rw [properMembers_iff] at proper ⊢
  intro member inside
  exact proper member (reordered.mem_iff.mpr inside)

theorem sortMembers_keys (members : List (String × JsValue)) :
    ((sortMembers members).map Prod.fst).Sublist (members.map Prod.fst) := by
  induction members with
  | nil => exact .slnil
  | cons member rest ih =>
    obtain ⟨key, value⟩ := member
    rw [sortMembers]
    split
    · exact ih.cons _
    · exact ih.cons_cons _

mutual

theorem proper_sortValue (value : JsValue) (proper : Proper numeral value) : Proper numeral (sortValue value) := by
  match value with
  | .undefined | .null | .bool _ => trivial
  | .num _ => exact proper
  | .nan | .infinity _ | .str _ => trivial
  | .date _ => exact ⟨.nil, trivial⟩
  | .arr items => exact proper_sortItems items proper
  | .obj members =>
    have perm := List.perm_insertionSort keyBefore (sortMembers members)
    refine ⟨?_, (proper_sortMembers members proper.2).perm perm.symm⟩
    exact (perm.map Prod.fst).nodup_iff.mpr (proper.1.sublist (sortMembers_keys members))

theorem proper_sortItems (items : List JsValue) (proper : ProperItems numeral items) :
    ProperItems numeral (sortItems items) := by
  match items with
  | [] => trivial
  | item :: rest => exact ⟨proper_sortValue item proper.1, proper_sortItems rest proper.2⟩

theorem proper_sortMembers (members : List (String × JsValue)) (proper : ProperMembers numeral members) :
    ProperMembers numeral (sortMembers members) := by
  match members with
  | [] => trivial
  | (key, value) :: rest =>
    rw [sortMembers]
    split
    · exact proper_sortMembers rest proper.2
    · exact ⟨proper_sortValue value proper.1, proper_sortMembers rest proper.2⟩

end

theorem jsonMembers_keys (members : List (String × JsValue)) :
    ((jsonMembers members).map Prod.fst).Sublist (members.map Prod.fst) := by
  induction members with
  | nil => exact .slnil
  | cons member rest ih =>
    obtain ⟨key, value⟩ := member
    rw [jsonMembers]
    split
    · exact ih.cons_cons _
    · exact ih.cons _

mutual

theorem toJson_keyed (value : JsValue) (proper : Proper numeral value) {tree : Json NumberText}
    (written : toJson value = some tree) : tree.Keyed := by
  match value with
  | .undefined => cases written
  | .null | .bool _ | .num _ | .nan | .infinity _ | .str _ => cases written; trivial
  | .date time =>
    rw [toJson] at written
    split at written <;> cases written <;> trivial
  | .arr items =>
    cases written
    exact jsonItems_keyed items proper
  | .obj members =>
    cases written
    exact ⟨proper.1.sublist (jsonMembers_keys members), jsonMembers_keyed members proper.2⟩

theorem jsonItems_keyed (items : List JsValue) (proper : ProperItems numeral items) :
    ThroughoutItems (fun members => (members.map Prod.fst).Nodup) (jsonItems items) := by
  match items with
  | [] => trivial
  | item :: rest =>
    refine ⟨?_, jsonItems_keyed rest proper.2⟩
    cases written : toJson item with
    | none => trivial
    | some tree => exact toJson_keyed item proper.1 written

theorem jsonMembers_keyed (members : List (String × JsValue)) (proper : ProperMembers numeral members) :
    ThroughoutMembers (fun members => (members.map Prod.fst).Nodup) (jsonMembers members) := by
  match members with
  | [] => trivial
  | (key, value) :: rest =>
    rw [jsonMembers]
    split
    next tree written =>
      exact ⟨toJson_keyed value proper.1 written, jsonMembers_keyed rest proper.2⟩
    next => exact jsonMembers_keyed rest proper.2

end

end

mutual

theorem toJson_numeric (value : JsValue) (proper : Written value) {tree : Json NumberText}
    (written : toJson value = some tree) : Numeric tree := by
  match value with
  | .undefined => cases written
  | .null | .bool _ => cases written; trivial
  | .num _ => cases written; exact proper
  | .nan | .infinity _ | .str _ => cases written; trivial
  | .date time =>
    rw [toJson] at written
    split at written <;> cases written <;> trivial
  | .arr items =>
    cases written
    exact jsonItems_numeric items proper
  | .obj members =>
    cases written
    exact jsonMembers_numeric members proper.2

theorem jsonItems_numeric (items : List JsValue)
    (proper : ProperItems (fun number => isNumeral number.text = true) items) :
    NumericItems (jsonItems items) := by
  match items with
  | [] => trivial
  | item :: rest =>
    refine ⟨?_, jsonItems_numeric rest proper.2⟩
    cases written : toJson item with
    | none => trivial
    | some tree => exact toJson_numeric item proper.1 written

theorem jsonMembers_numeric (members : List (String × JsValue))
    (proper : ProperMembers (fun number => isNumeral number.text = true) members) :
    NumericMembers (jsonMembers members) := by
  match members with
  | [] => trivial
  | (key, value) :: rest =>
    rw [jsonMembers]
    split
    next tree written =>
      exact ⟨toJson_numeric value proper.1 written, jsonMembers_numeric rest proper.2⟩
    next => exact jsonMembers_numeric rest proper.2

end

mutual

def settle : JsValue → Option (Json NumberText)
  | .undefined => none
  | .null => some .null
  | .bool value => some (.bool value)
  | .num value => some (.num value)
  | .nan => some .null
  | .infinity _ => some .null
  | .str value => some (.str value)
  | .date _ => some (.obj [])
  | .arr items => some (.arr (settleItems items))
  | .obj members => some (.obj (settleMembers members))

def settleItems : List JsValue → List (Json NumberText)
  | [] => []
  | item :: rest => (settle item).getD .null :: settleItems rest

def settleMembers : List (String × JsValue) → List (String × Json NumberText)
  | [] => []
  | (key, value) :: rest =>
    match settle value with
    | some tree => (key, tree) :: settleMembers rest
    | none => settleMembers rest

end

theorem jsonMembers_eq (members : List (String × JsValue)) :
    jsonMembers members = members.filterMap fun member => (toJson member.2).map fun tree => (member.1, tree) := by
  induction members with
  | nil => rfl
  | cons member rest ih =>
    obtain ⟨key, value⟩ := member
    rw [jsonMembers]
    split
    next tree written => simp only [List.filterMap_cons, written, Option.map_some, ih]
    next none_ => simp only [List.filterMap_cons, none_, Option.map_none, ih]

theorem jsonMembers_insertionSort (members : List (String × JsValue)) (once : (members.map Prod.fst).Nodup) :
    jsonMembers (members.insertionSort keyBefore) =
      (jsonMembers members).insertionSort Audit.keyBefore := by
  have kept : ((jsonMembers members).map Prod.fst).Nodup := once.sublist (jsonMembers_keys members)
  have perm : (jsonMembers (members.insertionSort keyBefore)).Perm (jsonMembers members) := by
    rw [jsonMembers_eq, jsonMembers_eq]
    exact (List.perm_insertionSort keyBefore members).filterMap _
  have sorted : (jsonMembers (members.insertionSort keyBefore)).Pairwise Audit.keyBefore := by
    rw [jsonMembers_eq]
    refine List.Pairwise.filterMap _ ?_ (List.pairwise_insertionSort keyBefore members)
    intro a b before c first d second
    obtain ⟨_, _, rfl⟩ := Option.map_eq_some_iff.mp first
    obtain ⟨_, _, rfl⟩ := Option.map_eq_some_iff.mp second
    exact before
  refine (perm.trans (List.perm_insertionSort Audit.keyBefore _).symm).eq_of_pairwise ?_ sorted
    (List.pairwise_insertionSort Audit.keyBefore _)
  intro a b left right before after
  have insideB : b ∈ jsonMembers members := (List.mem_insertionSort Audit.keyBefore).mp right
  exact List.inj_on_of_nodup_map kept (perm.mem_iff.mp left) insideB
    (keyRank_injective (le_antisymm before after))

section
variable {numeral : NumberText → Prop}

mutual

theorem toJson_sortValue (value : JsValue) (proper : Proper numeral value) :
    toJson (sortValue value) = (settle value).map Audit.sortValue := by
  match value with
  | .undefined | .null | .bool _ | .num _ | .nan | .infinity _ | .str _ | .date _ => rfl
  | .arr items =>
    simp only [sortValue, toJson, settle, Option.map_some, Audit.sortValue]
    rw [jsonItems_sortItems items proper]
  | .obj members =>
    simp only [sortValue, toJson, settle, Option.map_some, Audit.sortValue]
    rw [jsonMembers_insertionSort _ (proper.1.sublist (sortMembers_keys members)),
      jsonMembers_sortMembers members proper.2]

theorem jsonItems_sortItems (items : List JsValue) (proper : ProperItems numeral items) :
    jsonItems (sortItems items) = Audit.sortItems (settleItems items) := by
  match items with
  | [] => rfl
  | item :: rest =>
    simp only [sortItems, jsonItems, settleItems, Audit.sortItems]
    rw [toJson_sortValue item proper.1, jsonItems_sortItems rest proper.2]
    cases settle item <;> rfl

theorem jsonMembers_sortMembers (members : List (String × JsValue)) (proper : ProperMembers numeral members) :
    jsonMembers (sortMembers members) = Audit.sortMembers (settleMembers members) := by
  match members with
  | [] => rfl
  | (key, value) :: rest =>
    have later := jsonMembers_sortMembers rest proper.2
    have own := toJson_sortValue value proper.1
    simp only [sortMembers, settleMembers]
    cases tree : settle value with
    | none =>
      rw [tree] at own
      split
      · exact later
      · simpa only [jsonMembers, own, Option.map_none] using later
    | some tree' =>
      rw [tree] at own
      simp only [Audit.sortMembers]
      split
      · exact later
      · simp only [jsonMembers, own, Option.map_some, later]

end

end

mutual

theorem settle_ofJson (tree : Json NumberText) : settle (ofJson tree) = some tree := by
  match tree with
  | .null | .bool _ | .num _ | .str _ => rfl
  | .arr items => simp only [ofJson, settle, settleItems_ofItems items]
  | .obj members => simp only [ofJson, settle, settleMembers_ofMembers members]

theorem settleItems_ofItems (items : List (Json NumberText)) : settleItems (ofItems items) = items := by
  match items with
  | [] => rfl
  | item :: rest => simp only [ofItems, settleItems, settle_ofJson item, settleItems_ofItems rest, Option.getD_some]

theorem settleMembers_ofMembers (members : List (String × Json NumberText)) :
    settleMembers (ofMembers members) = members := by
  match members with
  | [] => rfl
  | (key, value) :: rest =>
    simp only [ofMembers, settleMembers, settle_ofJson value, settleMembers_ofMembers rest]

end

theorem ofMembers_keys (members : List (String × Json NumberText)) :
    (ofMembers members).map Prod.fst = members.map Prod.fst := by
  induction members with
  | nil => rfl
  | cons member rest ih =>
    obtain ⟨key, value⟩ := member
    rw [ofMembers, List.map_cons, List.map_cons, ih]

mutual

theorem proper_ofJson (tree : Json NumberText) (keyed : tree.Keyed) : Proper (fun _ => True) (ofJson tree) := by
  match tree with
  | .null | .bool _ | .num _ | .str _ => trivial
  | .arr items => exact properItems_ofItems items keyed
  | .obj members => exact ⟨ofMembers_keys members ▸ keyed.1, properMembers_ofMembers members keyed.2⟩

theorem properItems_ofItems (items : List (Json NumberText))
    (keyed : ThroughoutItems (fun members => (members.map Prod.fst).Nodup) items) :
    ProperItems (fun _ => True) (ofItems items) := by
  match items with
  | [] => trivial
  | item :: rest => exact ⟨proper_ofJson item keyed.1, properItems_ofItems rest keyed.2⟩

theorem properMembers_ofMembers (members : List (String × Json NumberText))
    (keyed : ThroughoutMembers (fun members => (members.map Prod.fst).Nodup) members) :
    ProperMembers (fun _ => True) (ofMembers members) := by
  match members with
  | [] => trivial
  | (key, value) :: rest => exact ⟨proper_ofJson value keyed.1, properMembers_ofMembers rest keyed.2⟩

end

theorem signedRefs_eq {refs : JsValue} (defined : refs ≠ .undefined) : signedRefs refs = sortValue refs := by
  cases refs <;> first | rfl | exact absurd rfl defined

theorem canonical_of_refs {content : ActivityRowContent} {refs : JsValue}
    (same : toJson (signedRefs refs) = toJson (signedRefs content.refs)) :
    canonicalizeRowContent { content with refs := refs } = canonicalizeRowContent content := by
  have legacy : ∀ iso, jsonMembers (legacyMembers { content with refs := refs } iso) =
      jsonMembers (legacyMembers content iso) := by
    intro iso
    simp only [legacyMembers, jsonMembers, same]
  have actors : ∀ iso,
      jsonMembers (actorMembers { content with refs := refs } ++ legacyMembers { content with refs := refs } iso) =
        jsonMembers (actorMembers content ++ legacyMembers content iso) := by
    intro iso
    simp only [actorMembers, List.cons_append, List.nil_append]
    rw [jsonMembers, jsonMembers, jsonMembers, jsonMembers, legacy]
  unfold canonicalizeRowContent stringify
  simp only [toJson, legacy, actors]

theorem bound_reads_back {refs : JsValue} (written : Written refs) {bound : String}
    (is : canonicalRefsJson refs = some bound) : refs ≠ .undefined ∧
      ∃ tree, toJson (sortValue refs) = some tree ∧ parse bound.toList = some tree ∧
        ∀ held, Alike tree held → toJson (sortValue (ofJson held)) = some tree := by
  have defined : refs ≠ .undefined := by
    intro absent
    rw [absent] at is
    cases is
  have text_ : stringify (sortValue refs) = some bound := by
    cases refs <;> first | exact is | cases is
  obtain ⟨tree, found, rfl⟩ := Option.map_eq_some_iff.mp text_
  have sorted := proper_sortValue refs written
  refine ⟨defined, tree, found, ?_, ?_⟩
  · rw [String.toList_ofList]
    exact parse_text tree (toJson_numeric _ sorted found)
  · intro held alike
    have keyed := toJson_keyed _ sorted found
    have keyed' : held.Keyed :=
      (alike.throughout fun _ _ perm once => perm.nodup_iff.mp once).mp keyed
    rw [toJson_sortValue (ofJson held) (proper_ofJson held keyed'), settle_ofJson, Option.map_some,
      ← sortValue_alike alike keyed]
    rw [toJson_sortValue refs written] at found
    obtain ⟨before, _, rfl⟩ := Option.map_eq_some_iff.mp found
    rw [sortValue_sortValue]

theorem canonicalRefsJson_none {refs : JsValue} (is : canonicalRefsJson refs = none) :
    refs = .null ∨ refs = .undefined := by
  cases refs with
  | undefined => exact .inr rfl
  | null => exact .inl rfl
  | _ => cases is

theorem canonical_stored {content : ActivityRowContent} (written : Written content.refs) {row : BoundRow}
    {Key : Type} {digests : Digests Key} {key : Key} {prevSignatureHash : String}
    (appended : appendNow digests key content prevSignatureHash = some row)
    {held : Option (Json NumberText)} (holds : Holds row.refs held) :
    canonicalizeRowContent (activityRowContent row held) = canonicalizeRowContent content := by
  obtain ⟨signature, _, rfl⟩ := Option.map_eq_some_iff.mp appended
  refine @canonical_of_refs content _ ?_
  generalize bound : canonicalRefsJson content.refs = column at holds
  change Holds column held at holds
  cases holds with
  | absent =>
    rcases canonicalRefsJson_none bound with null | undefined
    · rw [null]
    · rw [undefined]
      rfl
  | @tree bound_ parsed held read alike =>
    obtain ⟨defined, tree, found, parsed_, back⟩ := bound_reads_back written bound
    rw [parsed_] at read
    cases read
    have other : ofJson held ≠ .undefined := by cases held <;> nofun
    rw [signedRefs_eq defined, found, signedRefs_eq other]
    exact back held alike

/-- What is signed is what is stored: the column gets the text of the refs that were signed, it can be read,
and the row that is read, its keys in any order, is signed as it was and so is verified. -/
theorem stored_row_verifies {Key : Type} (digests : Digests Key) (key : Key) (content : ActivityRowContent)
    (written : Written content.refs) (prevSignatureHash : String) (row : BoundRow)
    (appended : appendNow digests key content prevSignatureHash = some row) :
    row.refs = canonicalRefsJson content.refs ∧
      (∀ bound, row.refs = some bound → ∃ tree, parse bound.toList = some tree) ∧
      ∀ held, Holds row.refs held →
        canonicalizeRowContent (activityRowContent row held) = canonicalizeRowContent content ∧
          verify digests key (activityRowContent row held) row.prevSignatureHash row.signature =
            some true := by
  have same := @canonical_stored content written row Key digests key prevSignatureHash appended
  obtain ⟨signature, signed, is⟩ := Option.map_eq_some_iff.mp appended
  have refs_ : row.refs = canonicalRefsJson content.refs := by rw [← is]
  have signature_ : row.signature = signature := by rw [← is]
  have prev_ : row.prevSignatureHash = prevSignatureHash := by rw [← is]
  refine ⟨refs_, ?_, ?_⟩
  · intro bound found
    obtain ⟨_, tree, _, parsed, _⟩ := bound_reads_back written (refs_.symm.trans found)
    exact ⟨tree, parsed⟩
  · intro held holds
    refine ⟨same holds, ?_⟩
    have again : sign digests key (activityRowContent row held) prevSignatureHash = some signature := by
      rw [sign, same holds]
      exact signed
    rw [prev_, signature_, verify, again]
    exact congrArg some (decide_eq_true rfl)

/-- A row whose refs no JSON text can say: no number, no value, a prototype and a date. -/
def oddRow : ActivityRowContent :=
  ⟨0, .ok, "", "", none, .system,
    .obj [("a", .arr [.nan, .undefined, .obj [("__proto__", .bool true)], .date (some 0)])], none, none, 2⟩

def oddTree : Json NumberText := .obj [("a", .arr [.null, .null, .obj [], .obj []])]

theorem odd_row_verifies :
    ∃ row, appendNow plainDigests 0 oddRow "" = some row ∧
      row.refs = some "\x7b\"a\":[null,null,\x7b\x7d,\x7b\x7d]\x7d" ∧
        verify plainDigests 0 (activityRowContent row (some oddTree)) row.prevSignatureHash row.signature =
          some true := by
  have bound : canonicalRefsJson oddRow.refs = some "\x7b\"a\":[null,null,\x7b\x7d,\x7b\x7d]\x7d" := by decide
  have written : Written oddRow.refs := by simp [oddRow, Written, Proper, ProperMembers, ProperItems]
  have some_row : (appendNow plainDigests 0 oddRow "").isSome = true := by decide
  obtain ⟨row, appended⟩ := Option.isSome_iff_exists.mp some_row
  obtain ⟨refs_, _, verified⟩ := stored_row_verifies plainDigests 0 oddRow written "" row appended
  have letters : "\x7b\"a\":[null,null,\x7b\x7d,\x7b\x7d]\x7d".toList = text oddTree := by decide
  have read : parse "\x7b\"a\":[null,null,\x7b\x7d,\x7b\x7d]\x7d".toList = some oddTree := by
    rw [letters]
    exact parse_text oddTree (by simp [oddTree, Numeric, NumericMembers, NumericItems])
  have holds : Holds (some "\x7b\"a\":[null,null,\x7b\x7d,\x7b\x7d]\x7d") (some oddTree) :=
    .tree read (.same oddTree)
  exact ⟨row, appended, refs_.trans bound, (verified (some oddTree) (by rw [refs_, bound]; exact holds)).2⟩

end Droplet.Audit.Js
