import Droplet.Audit.Canonical

/-! What the signed text of a row determines (`services/audit-signing.service.ts`): every field it
covers, and `refs` up to the order of keys, as long as no object in it has a member `__proto__`. -/

namespace Droplet.Audit

open Json

theorem codeUnits_cons_inj (a b : Char) (u v : List ℕ) (same : (if a.toNat ≤ 0xFFFF then [a.toNat]
      else [0xD800 + (a.toNat - 0x10000) / 0x400, 0xDC00 + (a.toNat - 0x10000) % 0x400]) ++ u =
      (if b.toNat ≤ 0xFFFF then [b.toNat]
      else [0xD800 + (b.toNat - 0x10000) / 0x400, 0xDC00 + (b.toNat - 0x10000) % 0x400]) ++ v) :
    a = b ∧ u = v := by
  have validA : a.toNat < 0xD800 ∨ (0xDFFF < a.toNat ∧ a.toNat < 0x110000) := a.valid
  have validB : b.toNat < 0xD800 ∨ (0xDFFF < b.toNat ∧ b.toNat < 0x110000) := b.valid
  have exact_ : a.toNat = b.toNat → a = b := fun equal => Char.toNat_inj.mp equal
  by_cases shortA : a.toNat ≤ 0xFFFF
  · by_cases shortB : b.toNat ≤ 0xFFFF
    · rw [if_pos shortA, if_pos shortB] at same
      obtain ⟨first, rest⟩ := List.cons.inj same
      exact ⟨exact_ first, rest⟩
    · rw [if_pos shortA, if_neg shortB] at same
      obtain ⟨first, _⟩ := List.cons.inj same
      omega
  · by_cases shortB : b.toNat ≤ 0xFFFF
    · rw [if_neg shortA, if_pos shortB] at same
      obtain ⟨first, _⟩ := List.cons.inj same
      omega
    · rw [if_neg shortA, if_neg shortB] at same
      obtain ⟨first, others⟩ := List.cons.inj same
      obtain ⟨second, rest⟩ := List.cons.inj others
      exact ⟨exact_ (by omega), rest⟩

theorem codeUnits_injective : Function.Injective codeUnits := by
  have letters : ∀ a b : List Char, codeUnits (String.ofList a) = codeUnits (String.ofList b) → a = b := by
    intro a
    induction a with
    | nil =>
      intro b same
      cases b with
      | nil => rfl
      | cons c rest =>
        simp only [codeUnits, String.toList_ofList, List.flatMap_cons, List.flatMap_nil] at same
        split at same <;> cases same
    | cons c rest ih =>
      intro b same
      cases b with
      | nil =>
        simp only [codeUnits, String.toList_ofList, List.flatMap_cons, List.flatMap_nil] at same
        split at same <;> cases same
      | cons d others =>
        simp only [codeUnits, String.toList_ofList, List.flatMap_cons] at same
        obtain ⟨rfl, tails⟩ := codeUnits_cons_inj c d _ _ same
        have equal : rest = others := by
          apply ih
          simpa only [codeUnits, String.toList_ofList] using tails
        rw [equal]
  intro a b same
  have equal := letters a.toList b.toList (by rwa [String.ofList_toList, String.ofList_toList])
  exact String.toList_inj.mp equal

theorem keyRank_injective : Function.Injective keyRank := by
  have index : ∀ key n, arrayIndex key = some n → toString n = key := by
    intro key n found
    unfold arrayIndex at found
    split at found
    · split at found
      next number both =>
        cases found
        exact both.1
      · cases found
    · cases found
  intro a b same
  unfold keyRank at same
  split at same
  next n first =>
    split at same
    next m second =>
      obtain ⟨_, rest⟩ := List.cons.inj same
      rw [← index a n first, ← index b m second, (List.cons.inj rest).1]
    next => exact absurd (List.cons.inj same).1 (by decide)
  next =>
    split at same
    next => exact absurd (List.cons.inj same).1 (by decide)
    next => exact codeUnits_injective (List.cons.inj same).2

theorem insertionSort_perm {order : String × Json NumberText → String × Json NumberText → Prop}
    [DecidableRel order] [Std.Total order] [IsTrans _ order] (antisymm : ∀ a b, order a b → order b a → a.1 = b.1)
    {members others : List (String × Json NumberText)} (once : (members.map Prod.fst).Nodup)
    (reordered : members.Perm others) : members.insertionSort order = others.insertionSort order := by
  have whole : (members.insertionSort order).Perm (others.insertionSort order) :=
    ((List.perm_insertionSort order members).trans reordered).trans
      (List.perm_insertionSort order others).symm
  apply whole.eq_of_pairwise _ (List.pairwise_insertionSort order _) (List.pairwise_insertionSort order _)
  intro a b left right before after
  have insideA : a ∈ members := (List.mem_insertionSort order).mp left
  have insideB : b ∈ members :=
    reordered.mem_iff.mpr ((List.mem_insertionSort order).mp right)
  exact List.inj_on_of_nodup_map once insideA insideB (antisymm a b before after)

variable (members : List (String × Json NumberText))

theorem sortMembers_eq :
    sortMembers members = (members.filter (fun member => member.1 ≠ "__proto__")).map
      (fun member => (member.1, sortValue member.2)) := by
  induction members with
  | nil => rfl
  | cons member rest ih =>
    obtain ⟨key, value⟩ := member
    simp only [sortMembers]
    split
    next proto => rw [ih, List.filter_cons_of_neg (by simp [proto])]
    next other => rw [ih, List.filter_cons_of_pos (by simpa using other), List.map_cons]

theorem sortMembers_keys :
    (sortMembers members).map Prod.fst =
      (members.map Prod.fst).filter (fun key => key ≠ "__proto__") := by
  rw [sortMembers_eq, List.map_map, List.filter_map]
  rfl

mutual

theorem sortValue_alike {value other : Json NumberText} (alike : Alike value other)
    (keyed : value.Keyed) : sortValue value = sortValue other := by
  match alike with
  | .same _ => rfl
  | .arr each =>
    simp only [sortValue]
    rw [sortItems_alike each keyed]
  | .obj each reordered =>
    obtain ⟨once, inner⟩ := keyed
    simp only [sortValue]
    rw [sortMembers_alike each inner]
    congr 1
    apply insertionSort_perm
    · exact fun _ _ before after => keyRank_injective (le_antisymm before after)
    · rw [sortMembers_keys, ← each.keys]
      exact once.filter _
    · rw [sortMembers_eq, sortMembers_eq]
      exact (reordered.filter _).map _

theorem sortItems_alike {items others : List (Json NumberText)} (alike : AlikeItems items others)
    (keyed : ThroughoutItems (fun members => (members.map Prod.fst).Nodup) items) :
    sortItems items = sortItems others := by
  match alike with
  | .nil => rfl
  | .cons head tail =>
    simp only [sortItems]
    rw [sortValue_alike head keyed.1, sortItems_alike tail keyed.2]

theorem sortMembers_alike {members others : List (String × Json NumberText)}
    (alike : AlikeMembers members others)
    (keyed : ThroughoutMembers (fun members => (members.map Prod.fst).Nodup) members) :
    sortMembers members = sortMembers others := by
  match alike with
  | .nil => rfl
  | .cons key head tail =>
    simp only [sortMembers]
    rw [sortValue_alike head keyed.1, sortMembers_alike tail keyed.2]

end

theorem exists_perm_map {α β : Type} (f : α → β) (images : List β) (others : List α)
    (reordered : images.Perm (others.map f)) : ∃ middle : List α, middle.map f = images ∧ middle.Perm others := by
  have related : Relation.Comp List.Perm (List.Forall₂ (fun b a => b = f a)) images others :=
    ⟨others.map f, reordered, by simp [List.forall₂_map_left_iff, List.forall₂_same]⟩
  rw [← List.forall₂_comp_perm_eq_perm_comp_forall₂] at related
  obtain ⟨middle, each, perm⟩ := related
  refine ⟨middle, ?_, perm⟩
  rw [← List.forall₂_map_right_iff (R := Eq), List.forall₂_eq_eq_eq] at each
  exact each.symm

theorem sortMembers_of_lacks (clean : "__proto__" ∉ members.map Prod.fst) :
    sortMembers members = members.map (fun member => (member.1, sortValue member.2)) := by
  apply sortMembers_of_clean
  intro member inside proto
  exact clean (List.mem_map.mpr ⟨member, inside, proto⟩)

mutual

/-- Values without `__proto__` that are sorted to the same are the same but for the order. -/
theorem alike_of_sorted (value other : Json NumberText) (clean : value.Lacks "__proto__")
    (plain : other.Lacks "__proto__") (same : sortValue value = sortValue other) : Alike value other := by
  match value, other with
  | .arr items, .arr others =>
    simp only [sortValue, Json.arr.injEq] at same
    exact .arr (alikeItems_of_sorted items others clean plain same)
  | .obj members, .obj others =>
    simp only [sortValue, Json.obj.injEq] at same
    have reordered : (sortMembers members).Perm (sortMembers others) := by
      have sorted := List.perm_insertionSort keyBefore (sortMembers members)
      rw [same] at sorted
      exact sorted.symm.trans (List.perm_insertionSort keyBefore (sortMembers others))
    rw [sortMembers_of_lacks others plain.1] at reordered
    obtain ⟨middle, sorted, perm⟩ := exists_perm_map _ _ others reordered
    exact .obj (alikeMembers_of_sorted members middle clean
      ((ThroughoutMembers.perm plain.2 perm.symm)) sorted.symm) perm
  | .null, other | .bool _, other | .num _, other | .str _, other =>
    cases other <;> simp_all [sortValue, Alike.same]

theorem alikeItems_of_sorted (items others : List (Json NumberText))
    (clean : ThroughoutItems (fun members => "__proto__" ∉ members.map Prod.fst) items)
    (plain : ThroughoutItems (fun members => "__proto__" ∉ members.map Prod.fst) others)
    (same : sortItems items = sortItems others) : AlikeItems items others := by
  match items, others with
  | [], [] => exact .nil
  | item :: rest, other :: tail =>
    simp only [sortItems, List.cons.injEq] at same
    exact .cons (alike_of_sorted item other clean.1 plain.1 same.1)
      (alikeItems_of_sorted rest tail clean.2 plain.2 same.2)

theorem alikeMembers_of_sorted (members others : List (String × Json NumberText))
    (clean : "__proto__" ∉ members.map Prod.fst ∧
      ThroughoutMembers (fun members => "__proto__" ∉ members.map Prod.fst) members)
    (plain : ThroughoutMembers (fun members => "__proto__" ∉ members.map Prod.fst) others)
    (same : sortMembers members = others.map (fun member => (member.1, sortValue member.2))) :
    AlikeMembers members others := by
  match members, others with
  | [], [] => exact .nil
  | (key, value) :: rest, [] =>
    obtain ⟨absent, _⟩ := clean
    rw [List.map_cons, List.mem_cons, not_or] at absent
    simp [sortMembers, Ne.symm absent.1] at same
  | (key, value) :: rest, (name, other) :: tail =>
    obtain ⟨absent, inner⟩ := clean
    rw [List.map_cons, List.mem_cons, not_or] at absent
    simp only [sortMembers, if_neg (Ne.symm absent.1), List.map_cons, List.cons.injEq, Prod.mk.injEq] at same
    obtain ⟨⟨rfl, values⟩, later⟩ := same
    exact .cons key (alike_of_sorted value other inner.1 plain.1 values)
      (alikeMembers_of_sorted rest tail ⟨absent.2, inner.2⟩ plain.2 later)

end

mutual

variable {before after : List String → Prop}

theorem sortValue_throughout
    (sorted : ∀ keys others : List String,
      others.Perm (keys.filter (fun key => key ≠ "__proto__")) → before keys → after others)
    (value : Json NumberText)
    (holds : value.Throughout (fun members => before (members.map Prod.fst))) :
    (sortValue value).Throughout (fun members => after (members.map Prod.fst)) := by
  match value with
  | .null | .bool _ | .num _ | .str _ => trivial
  | .arr items =>
    simp only [sortValue]
    exact sortItems_throughout sorted items holds
  | .obj members =>
    have perm := List.perm_insertionSort keyBefore (sortMembers members)
    simp only [sortValue]
    refine ⟨sorted (members.map Prod.fst) _ ?_ holds.1,
      (sortMembers_throughout sorted members holds.2).perm perm.symm⟩
    rw [← sortMembers_keys]
    exact perm.map Prod.fst

theorem sortItems_throughout
    (sorted : ∀ keys others : List String,
      others.Perm (keys.filter (fun key => key ≠ "__proto__")) → before keys → after others)
    (items : List (Json NumberText))
    (holds : ThroughoutItems (fun members => before (members.map Prod.fst)) items) :
    ThroughoutItems (fun members => after (members.map Prod.fst)) (sortItems items) := by
  match items with
  | [] => trivial
  | item :: rest =>
    simp only [sortItems]
    exact ⟨sortValue_throughout sorted item holds.1, sortItems_throughout sorted rest holds.2⟩

theorem sortMembers_throughout
    (sorted : ∀ keys others : List String,
      others.Perm (keys.filter (fun key => key ≠ "__proto__")) → before keys → after others)
    (members : List (String × Json NumberText))
    (holds : ThroughoutMembers (fun members => before (members.map Prod.fst)) members) :
    ThroughoutMembers (fun members => after (members.map Prod.fst)) (sortMembers members) := by
  match members with
  | [] => trivial
  | (key, value) :: rest =>
    simp only [sortMembers]
    split
    next => exact sortMembers_throughout sorted rest holds.2
    next => exact ⟨sortValue_throughout sorted value holds.1,
      sortMembers_throughout sorted rest holds.2⟩

end

/-- What is signed lists each key once, and `__proto__` never. -/
theorem sortValue_keyed (value : Json NumberText) (keyed : value.Keyed) : (sortValue value).Keyed :=
  sortValue_throughout (fun _ _ perm once => perm.nodup_iff.mpr (once.filter _)) value keyed

theorem sortValue_lacks (value : Json NumberText) (keyed : value.Keyed) : (sortValue value).Lacks "__proto__" :=
  @sortValue_throughout (fun keys => keys.Nodup) (fun keys => "__proto__" ∉ keys)
    (fun _ _ perm _ inside => by simpa using perm.mem_iff.mp inside) value keyed

def Base64Url (text : String) : Prop := ∀ c ∈ text.toList, c.isAlphanum ∨ c = '-' ∨ c = '_'

/-- Equal in everything the signature covers, `refs` up to the order of its keys. -/
structure SameContent (a b : ActivityRowContent) : Prop where
  schemaVersion : a.schemaVersion = b.schemaVersion
  atMs : a.atMs = b.atMs
  severity : a.severity = b.severity
  sourceIcon : a.sourceIcon = b.sourceIcon
  what : a.what = b.what
  sub : a.sub = b.sub
  kind : a.kind = b.kind
  refs : Alike a.refs b.refs
  actor : a.schemaVersion = 2 → a.actorType = b.actorType ∧ a.actorId = b.actorId

theorem Covered.sameRow {a b : ActivityRowContent} (covered : Covered a b)
    (refs : Alike a.refs b.refs) : SameContent a b :=
  { covered with refs := refs }

/-- What is signed for a row of some version, over the hash of the signature before it, determines
the row among those without `__proto__`, and no order of keys changes it. -/
def Determines (content : ActivityRowContent) (text : String) : Prop :=
  (∀ other writing p q, other.refs.Keyed → other.refs.Lacks "__proto__" →
    canonicalizeRowContent other = some writing → Base64Url p → Base64Url q →
      text ++ "|" ++ p = writing ++ "|" ++ q → p = q ∧ SameContent content other) ∧
  ∀ refs, Alike content.refs refs →
    canonicalizeRowContent { content with refs := refs } = some text

theorem canonical_reordered (content : ActivityRowContent) (refs : Json NumberText)
    (keyed : content.refs.Keyed) (alike : Alike content.refs refs) :
    canonicalizeRowContent { content with refs := refs } = canonicalizeRowContent content := by
  have covered : Covered { content with refs := refs } content :=
    { Covered.refl content with refs := (sortValue_alike alike keyed).symm }
  exact covered.canonical

/-- The text that is signed determines a row exactly when no object in its `refs` has a member
`__proto__`: with one, the text is also that of the row without it. -/
theorem signed_text_determines_row (content : ActivityRowContent) (text : String)
    (keyed : content.refs.Keyed) (written : canonicalizeRowContent content = some text) :
    Determines content text ↔ content.refs.Lacks "__proto__" := by
  constructor
  · intro determines
    have stored : canonicalizeRowContent (storedContent content) = some text :=
      (storedContent_covered content).canonical.trans written
    have plain := sortValue_lacks content.refs keyed
    have same := (determines.1 (storedContent content) text "" "" (sortValue_keyed _ keyed) plain stored
      (by simp [Base64Url]) (by simp [Base64Url]) rfl).2
    exact same.refs.lacks.mpr plain
  · intro clean
    constructor
    · intro other writing p q _ plain second _ _ same
      obtain ⟨covered, rest⟩ := canonical_cancel content other text writing ("|" ++ p).toList
        ("|" ++ q).toList written second (by simpa [String.append_assoc] using congrArg String.toList same)
      have suffix : p.toList = q.toList := by simpa using rest
      exact ⟨String.toList_inj.mp suffix,
        covered.sameRow (alike_of_sorted _ _ clean plain covered.refs)⟩
    · intro refs alike
      rw [canonical_reordered content refs keyed alike, written]

/-- A row of the second version, with nothing but its `refs` in it. -/
def bareRow (refs : Json NumberText) : ActivityRowContent :=
  ⟨0, .ok, "", "", none, .system, refs, none, none, 2⟩

def bareText (refs : String) : String :=
  "\x7b\"actorId\":null,\"actorType\":null,\"at\":\"1970-01-01T00:00:00.000Z\",\"kind\":\"system\",\"refs\":"
    ++ refs ++ ",\"severity\":\"ok\",\"sourceIcon\":\"\",\"sub\":null,\"what\":\"\"\x7d"

theorem signed_text_determines_row_at :
    Determines (bareRow (.obj [("a", .str "|")])) (bareText "\x7b\"a\":\"|\"\x7d") :=
  (signed_text_determines_row _ _ (by simp [bareRow, Keyed, Throughout, ThroughoutMembers])
    (by decide +kernel)).mpr (by simp [bareRow, Lacks, Throughout, ThroughoutMembers])

/-- `{"__proto__": true}` and `{}` are signed alike. -/
theorem proto_member_is_not_signed :
    ¬ ∀ a b s t p q, a.refs.Keyed → b.refs.Keyed → canonicalizeRowContent a = some s →
      canonicalizeRowContent b = some t → Base64Url p → Base64Url q →
        s ++ "|" ++ p = t ++ "|" ++ q → p = q ∧ SameContent a b := by
  intro claim
  have same := (claim (bareRow (.obj [("__proto__", .bool true)])) (bareRow (.obj []))
    (bareText "\x7b\x7d") (bareText "\x7b\x7d") "" ""
    (by simp [bareRow, Keyed, Throughout, ThroughoutMembers])
    (by simp [bareRow, Keyed, Throughout, ThroughoutMembers]) (by decide +kernel)
    (by decide +kernel) (by simp [Base64Url]) (by simp [Base64Url]) rfl).2
  have plain : (Json.obj [] : Json NumberText).Lacks "__proto__" := ⟨by simp, trivial⟩
  have lacks := same.refs.lacks.mpr plain
  simp [bareRow, Lacks, Throughout] at lacks

end Droplet.Audit
