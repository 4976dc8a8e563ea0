import Droplet.IsoText
import Droplet.Lib.JsonParse

/-! The canonical text of an activity row (`services/audit-signing.service.ts`): what the
signature of a row covers, and that the text determines it. -/

namespace Droplet.Audit

open Json IsoText

inductive ActivityKind where
  | chat
  | tool_call
  | file
  | camera
  | network
  | smart_home
  | email
  | auth
  | tool_run
  | system
  | voice

def ActivityKind.name : ActivityKind → String
  | .chat => "chat"
  | .tool_call => "tool_call"
  | .file => "file"
  | .camera => "camera"
  | .network => "network"
  | .smart_home => "smart_home"
  | .email => "email"
  | .auth => "auth"
  | .tool_run => "tool_run"
  | .system => "system"
  | .voice => "voice"

inductive ActivitySeverity where
  | ok
  | warn
  | err
  | info

def ActivitySeverity.name : ActivitySeverity → String
  | .ok => "ok"
  | .warn => "warn"
  | .err => "err"
  | .info => "info"

inductive ActivityActorType where
  | user
  | ai
  | system
  | anonymous

def ActivityActorType.name : ActivityActorType → String
  | .user => "user"
  | .ai => "ai"
  | .system => "system"
  | .anonymous => "anonymous"

/-- What a row says. `refs` is `null` where it is absent; its numbers are the texts
JavaScript writes for them. -/
structure ActivityRowContent where
  atMs : ℤ
  severity : ActivitySeverity
  sourceIcon : String
  what : String
  sub : Option String
  kind : ActivityKind
  refs : Json NumberText
  actorType : Option ActivityActorType
  actorId : Option String
  schemaVersion : ℤ

/-- The code units of a text, by which `sort` orders. -/
def codeUnits (text : String) : List ℕ :=
  text.toList.flatMap (fun c =>
    if c.toNat ≤ 0xFFFF then [c.toNat]
    else [0xD800 + (c.toNat - 0x10000) / 0x400, 0xDC00 + (c.toNat - 0x10000) % 0x400])

/-- The keys an object lists first, in the order of their numbers. -/
def arrayIndex (key : String) : Option ℕ :=
  match key.toNat? with
  | some n => if toString n = key ∧ n < 4294967295 then some n else none
  | none => none

/-- Where an object lists a key, when the keys were put in sorted: the indices first. -/
def keyRank (key : String) : List ℕ :=
  match arrayIndex key with
  | some n => [0, n]
  | none => 1 :: codeUnits key

def keyBefore (a b : String × Json NumberText) : Prop := keyRank a.1 ≤ keyRank b.1

instance : DecidableRel keyBefore :=
  fun a b => inferInstanceAs (Decidable (keyRank a.1 ≤ keyRank b.1))

instance : Std.Total keyBefore := ⟨fun a b => le_total (keyRank a.1) (keyRank b.1)⟩

instance : IsTrans (String × Json NumberText) keyBefore := ⟨fun _ _ _ => le_trans⟩

mutual

def sortValue : Json NumberText → Json NumberText
  | .arr items => .arr (sortItems items)
  | .obj members => .obj ((sortMembers members).insertionSort keyBefore)
  | .null => .null
  | .bool value => .bool value
  | .num value => .num value
  | .str value => .str value

def sortItems : List (Json NumberText) → List (Json NumberText)
  | [] => []
  | item :: rest => sortValue item :: sortItems rest

/-- Writing `__proto__` sets the prototype of the copy and no member of it. -/
def sortMembers : List (String × Json NumberText) → List (String × Json NumberText)
  | [] => []
  | (key, value) :: rest =>
    if key = "__proto__" then sortMembers rest else (key, sortValue value) :: sortMembers rest

end

def nullable : Option String → Json NumberText
  | some value => .str value
  | none => .null

def legacyMembers (content : ActivityRowContent) (iso : String) : List (String × Json NumberText) :=
  [("at", .str iso),
    ("kind", .str content.kind.name),
    ("refs", sortValue content.refs),
    ("severity", .str content.severity.name),
    ("sourceIcon", .str content.sourceIcon),
    ("sub", nullable content.sub),
    ("what", .str content.what)]

def actorMembers (content : ActivityRowContent) : List (String × Json NumberText) :=
  [("actorId", nullable content.actorId),
    ("actorType", nullable (content.actorType.map ActivityActorType.name))]

/-- The members the text has, by the version of the row; `none` where it throws. -/
def canonicalMembers (content : ActivityRowContent) : Option (List (String × Json NumberText)) := do
  let iso ← toISOString content.atMs
  if content.schemaVersion = 1 then some (legacyMembers content iso)
  else if content.schemaVersion = 2 then some (actorMembers content ++ legacyMembers content iso)
  else none

def canonicalizeRowContent (content : ActivityRowContent) : Option String :=
  (canonicalMembers content).map (fun members => String.ofList (text (.obj members)))

/-- `refs` as the recorder stores it: the tree of the text that was signed. -/
def storedContent (content : ActivityRowContent) : ActivityRowContent :=
  { content with refs := sortValue content.refs }

structure Covered (a b : ActivityRowContent) : Prop where
  schemaVersion : a.schemaVersion = b.schemaVersion
  atMs : a.atMs = b.atMs
  severity : a.severity = b.severity
  sourceIcon : a.sourceIcon = b.sourceIcon
  what : a.what = b.what
  sub : a.sub = b.sub
  kind : a.kind = b.kind
  refs : sortValue a.refs = sortValue b.refs
  actor : a.schemaVersion = 2 → a.actorType = b.actorType ∧ a.actorId = b.actorId

variable (content : ActivityRowContent)

theorem Covered.refl : Covered content content :=
  ⟨rfl, rfl, rfl, rfl, rfl, rfl, rfl, rfl, fun _ => ⟨rfl, rfl⟩⟩

variable {a b : ActivityRowContent}

theorem Covered.symm (same : Covered a b) : Covered b a where
  schemaVersion := same.schemaVersion.symm
  atMs := same.atMs.symm
  severity := same.severity.symm
  sourceIcon := same.sourceIcon.symm
  what := same.what.symm
  sub := same.sub.symm
  kind := same.kind.symm
  refs := same.refs.symm
  actor := by
    intro two
    obtain ⟨type, id⟩ := same.actor (same.schemaVersion.trans two)
    exact ⟨type.symm, id.symm⟩

theorem ActivityKind.name_inj (a b : ActivityKind) (same : a.name = b.name) : a = b := by
  cases a <;> cases b <;> first | rfl | exact absurd same (by decide)

theorem ActivitySeverity.name_inj (a b : ActivitySeverity) (same : a.name = b.name) : a = b := by
  cases a <;> cases b <;> first | rfl | exact absurd same (by decide)

theorem ActivityActorType.name_inj (a b : ActivityActorType) (same : a.name = b.name) : a = b := by
  cases a <;> cases b <;> first | rfl | exact absurd same (by decide)

theorem nullable_inj (a b : Option String) (same : nullable a = nullable b) : a = b := by
  cases a <;> cases b <;> simp_all [nullable]

theorem actorType_inj (a b : Option ActivityActorType)
    (same : a.map ActivityActorType.name = b.map ActivityActorType.name) : a = b :=
  Option.map_injective ActivityActorType.name_inj same

theorem canonicalMembers_some (members : List (String × Json NumberText)) :
    canonicalMembers content = some members ↔ ∃ iso, toISOString content.atMs = some iso ∧
      ((content.schemaVersion = 1 ∧ members = legacyMembers content iso) ∨
        (content.schemaVersion = 2 ∧
          members = actorMembers content ++ legacyMembers content iso)) := by
  simp only [canonicalMembers, Option.bind_eq_bind, Option.bind_eq_some_iff]
  apply exists_congr
  intro iso
  apply and_congr_right
  intro _
  split
  · next one => simp [one, eq_comm]
  · next other =>
    split
    · next two => simp [two, eq_comm]
    · next neither => simp [other, neither]

theorem legacyMembers_inj (a b : ActivityRowContent) (iso other : String)
    (isoA : toISOString a.atMs = some iso) (isoB : toISOString b.atMs = some other)
    (version : a.schemaVersion = b.schemaVersion)
    (actor : a.schemaVersion = 2 → a.actorType = b.actorType ∧ a.actorId = b.actorId)
    (same : legacyMembers a iso = legacyMembers b other) : Covered a b := by
  simp only [legacyMembers, List.cons.injEq, Prod.mk.injEq, Json.str.injEq, true_and, and_true] at same
  obtain ⟨rfl, kind, refs, severity, icon, sub, what⟩ := same
  exact {
    schemaVersion := version
    atMs := toISOString_inj _ _ _ isoA isoB
    severity := ActivitySeverity.name_inj _ _ severity
    sourceIcon := icon
    what := what
    sub := nullable_inj _ _ sub
    kind := ActivityKind.name_inj _ _ kind
    refs := refs
    actor := actor }

theorem canonicalMembers_inj (a b : ActivityRowContent) (members : List (String × Json NumberText))
    (first : canonicalMembers a = some members) (second : canonicalMembers b = some members) : Covered a b := by
  obtain ⟨iso, isoA, shapeA⟩ := (canonicalMembers_some a members).mp first
  obtain ⟨other, isoB, shapeB⟩ := (canonicalMembers_some b members).mp second
  rcases shapeA with ⟨oneA, rfl⟩ | ⟨twoA, rfl⟩
  · rcases shapeB with ⟨oneB, same⟩ | ⟨twoB, same⟩
    · apply legacyMembers_inj a b iso other isoA isoB (oneA.trans oneB.symm) _ same
      intro two
      rw [oneA] at two
      cases two
    · simp [legacyMembers, actorMembers] at same
  · rcases shapeB with ⟨oneB, same⟩ | ⟨twoB, same⟩
    · simp [legacyMembers, actorMembers] at same
    · obtain ⟨actors, legacy⟩ := List.append_inj same (by simp [actorMembers])
      apply legacyMembers_inj a b iso other isoA isoB (twoA.trans twoB.symm) _ legacy
      intro _
      simp only [actorMembers, List.cons.injEq, Prod.mk.injEq, true_and, and_true] at actors
      exact ⟨actorType_inj _ _ (nullable_inj _ _ actors.2), nullable_inj _ _ actors.1⟩

theorem Covered.members (same : Covered a b) : canonicalMembers a = canonicalMembers b := by
  have legacy : ∀ iso, legacyMembers a iso = legacyMembers b iso := by
    intro iso
    simp only [legacyMembers, same.kind, same.refs, same.severity, same.sourceIcon, same.sub, same.what]
  simp only [canonicalMembers, same.atMs, ← same.schemaVersion, legacy]
  by_cases two : a.schemaVersion = 2
  · obtain ⟨type, id⟩ := same.actor two
    simp only [actorMembers, type, id]
  · simp only [if_neg two]

theorem canonical_cancel (a b : ActivityRowContent) (s t : String) (u v : List Char)
    (first : canonicalizeRowContent a = some s) (second : canonicalizeRowContent b = some t)
    (same : s.toList ++ u = t.toList ++ v) : Covered a b ∧ u = v := by
  obtain ⟨members, membersA, rfl⟩ := Option.map_eq_some_iff.mp first
  obtain ⟨others, membersB, rfl⟩ := Option.map_eq_some_iff.mp second
  rw [String.toList_ofList, String.toList_ofList, text, text] at same
  obtain ⟨rfl, rest⟩ := members_cancel members others u v (List.cons.inj same).2
  exact ⟨canonicalMembers_inj a b members membersA membersB, rest⟩

theorem Covered.canonical (same : Covered a b) : canonicalizeRowContent a = canonicalizeRowContent b := by
  simp only [canonicalizeRowContent, same.members]

theorem sortMembers_clean (members : List (String × Json NumberText)) :
    ∀ member ∈ sortMembers members, member.1 ≠ "__proto__" := by
  induction members with
  | nil => simp [sortMembers]
  | cons first rest ih =>
    obtain ⟨key, value⟩ := first
    simp only [sortMembers]
    split
    · exact ih
    · next other =>
      intro member found
      rcases List.mem_cons.mp found with rfl | later
      · exact other
      · exact ih member later

theorem sortMembers_of_clean (members : List (String × Json NumberText))
    (clean : ∀ member ∈ members, member.1 ≠ "__proto__") :
    sortMembers members = members.map (fun member => (member.1, sortValue member.2)) := by
  induction members with
  | nil => simp [sortMembers]
  | cons first rest ih =>
    obtain ⟨key, value⟩ := first
    have other : key ≠ "__proto__" := clean (key, value) List.mem_cons_self
    simp only [sortMembers, if_neg other, List.map_cons]
    rw [ih (fun member later => clean member (List.mem_cons_of_mem _ later))]

mutual

theorem sortValue_sortValue (value : Json NumberText) : sortValue (sortValue value) = sortValue value := by
  match value with
  | .null | .bool _ | .num _ | .str _ => rfl
  | .arr items =>
    simp only [sortValue]
    rw [sortItems_sortItems items]
  | .obj members =>
    have clean : ∀ member ∈ (sortMembers members).insertionSort keyBefore, member.1 ≠ "__proto__" := by
      intro member found
      exact sortMembers_clean members member ((List.mem_insertionSort keyBefore).mp found)
    have values := sortMembers_sortMembers members
    rw [sortMembers_of_clean _ (sortMembers_clean members)] at values
    simp only [sortValue]
    rw [sortMembers_of_clean _ clean, List.map_insertionSort keyBefore keyBefore, values]
    · congr 1
      exact List.Pairwise.insertionSort_eq (List.pairwise_insertionSort keyBefore _)
    · intro a _ b _
      rfl

theorem sortItems_sortItems (items : List (Json NumberText)) : sortItems (sortItems items) = sortItems items := by
  match items with
  | [] => rfl
  | item :: rest =>
    simp only [sortItems]
    rw [sortValue_sortValue item, sortItems_sortItems rest]

theorem sortMembers_sortMembers (members : List (String × Json NumberText)) :
    sortMembers (sortMembers members) = sortMembers members := by
  match members with
  | [] => rfl
  | (key, value) :: rest =>
    simp only [sortMembers]
    split
    · exact sortMembers_sortMembers rest
    · next other =>
      simp only [sortMembers, if_neg other]
      rw [sortValue_sortValue value, sortMembers_sortMembers rest]

end

theorem storedContent_covered : Covered (storedContent content) content where
  schemaVersion := rfl
  atMs := rfl
  severity := rfl
  sourceIcon := rfl
  what := rfl
  sub := rfl
  kind := rfl
  refs := sortValue_sortValue content.refs
  actor := fun _ => ⟨rfl, rfl⟩

end Droplet.Audit
