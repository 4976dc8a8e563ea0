import Droplet.Audit.Determined

/-! What a confirmation of a tool call is bound to: the tool and its arguments
(`tools-core/src/confirmation-token.ts`). -/

namespace Droplet.Confirm

open Json

abbrev Value := Json NumberText

/-- The members of the object a tool is called with. -/
abbrev Args := List (String × Value)

/-- `sort` orders keys by their code units. -/
def keyBefore (a b : String × Value) : Prop := Audit.codeUnits a.1 ≤ Audit.codeUnits b.1

instance : DecidableRel keyBefore :=
  fun a b => inferInstanceAs (Decidable (Audit.codeUnits a.1 ≤ Audit.codeUnits b.1))

instance : Std.Total keyBefore := ⟨fun a b => le_total (Audit.codeUnits a.1) (Audit.codeUnits b.1)⟩

instance : IsTrans (String × Value) keyBefore := ⟨fun _ _ _ => le_trans⟩

mutual

def sorted : Value → Value
  | .arr items => .arr (sortedItems items)
  | .obj members => .obj ((sortedMembers members).insertionSort keyBefore)
  | .null => .null
  | .bool value => .bool value
  | .num value => .num value
  | .str value => .str value

def sortedItems : List Value → List Value
  | [] => []
  | item :: rest => sorted item :: sortedItems rest

def sortedMembers : Args → Args
  | [] => []
  | (key, value) :: rest => (key, sorted value) :: sortedMembers rest

end

def canonical (args : Args) : List Char := text (sorted (.obj args))

def CONFIRMATION_CONTROL_KEYS : List String := ["confirmed"]

/-- An assignment to `__proto__` gives the copy no member. -/
def copied (key : String) : Bool := key ∉ CONFIRMATION_CONTROL_KEYS && key ≠ "__proto__"

def stripControlKeys (args : Args) : Args := args.filter fun member => copied member.1

def canonicalizeToolArgs (args : Args) : List Char := canonical (stripControlKeys args)

section Hash

variable (sha256 : List Char → String)

def bindingText (tool : String) (args : Args) : List Char :=
  (toString (Audit.codeUnits tool).length).toList ++ ':' ::
    (tool.toList ++ ':' :: canonicalizeToolArgs args)

def confirmationBindingHash (tool : String) (args : Args) : String := sha256 (bindingText tool args)

end Hash

theorem canonical_sorted {first second : Args} (same : canonical first = canonical second) :
    sorted (.obj first) = sorted (.obj second) := by
  have stops : Stops [] := by simp [Stops]
  refine (text_cancel _ _ [] [] stops stops ?_).1
  rw [List.append_nil, List.append_nil]
  exact same

theorem sortedMembers_filter (args : Args) (kept : String → Bool) :
    sortedMembers (args.filter fun member => kept member.1) =
      (sortedMembers args).filter fun member => kept member.1 := by
  induction args with
  | nil => rfl
  | cons member rest ih =>
    obtain ⟨key, value⟩ := member
    cases keep : kept key <;> simp [sortedMembers, keep, ih]

theorem filter_orderedInsert (kept : String × Value → Bool) (member : String × Value)
    {members : Args} (ordered : members.Pairwise keyBefore) :
    (members.orderedInsert keyBefore member).filter kept =
      if kept member then (members.filter kept).orderedInsert keyBefore member
      else members.filter kept := by
  induction members with
  | nil => cases keep : kept member <;> simp [keep]
  | cons first rest ih =>
    rw [List.pairwise_cons] at ordered
    by_cases before : keyBefore member first
    · have front : ∀ other ∈ (first :: rest).filter kept, keyBefore member other := by
        intro other found
        rcases List.mem_cons.mp (List.mem_of_mem_filter found) with same | later
        · rw [same]
          exact before
        · exact le_trans before (ordered.1 other later)
      rw [List.orderedInsert_cons_of_le _ _ before]
      cases keep : kept member with
      | false => simp [keep]
      | true =>
        rw [List.filter_cons_of_pos keep, if_pos rfl]
        cases shape : (first :: rest).filter kept with
        | nil => rfl
        | cons head tail =>
          rw [List.orderedInsert_cons_of_le]
          exact front head (by simp [shape])
    · rw [List.orderedInsert_of_not_le _ _ before]
      cases keep : kept first with
      | false => simp [keep, ih ordered.2]
      | true =>
        rw [List.filter_cons_of_pos keep, ih ordered.2, List.filter_cons_of_pos keep]
        cases kept member with
        | false => rfl
        | true => simp [before]

theorem insertionSort_filter (kept : String × Value → Bool) (members : Args) :
    (members.filter kept).insertionSort keyBefore =
      (members.insertionSort keyBefore).filter kept := by
  induction members with
  | nil => rfl
  | cons member rest ih =>
    rw [List.insertionSort_cons, filter_orderedInsert _ _ (List.pairwise_insertionSort _ _)]
    cases keep : kept member <;> simp [keep, ih]

theorem codeUnits_append (front back : List Char) :
    (Audit.codeUnits (String.ofList (front ++ back))).length =
      (Audit.codeUnits (String.ofList front)).length +
        (Audit.codeUnits (String.ofList back)).length := by
  simp [Audit.codeUnits]

theorem codeUnits_eq_zero {text : List Char}
    (none : (Audit.codeUnits (String.ofList text)).length = 0) : text = [] := by
  cases text with
  | nil => rfl
  | cons c rest =>
    simp only [Audit.codeUnits, String.toList_ofList, List.flatMap_cons, List.length_append] at none
    split at none <;> simp at none

theorem colon_cancel {front back front' back' : List Char} (plain : ':' ∉ front)
    (plain' : ':' ∉ front') (same : front ++ ':' :: back = front' ++ ':' :: back') :
    front = front' ∧ back = back' := by
  induction front generalizing front' with
  | nil =>
    cases front' with
    | nil => exact ⟨rfl, (List.cons.inj same).2⟩
    | cons c rest =>
      have first : ':' = c := (List.cons.inj same).1
      exact absurd (first ▸ List.mem_cons_self) plain'
  | cons c rest ih =>
    cases front' with
    | nil =>
      have first : c = ':' := (List.cons.inj same).1
      exact absurd (first ▸ List.mem_cons_self) plain
    | cons c' rest' =>
      obtain ⟨first, later⟩ := List.cons.inj same
      obtain ⟨fronts, backs⟩ := ih (fun there => plain (List.mem_cons_of_mem _ there))
        (fun there => plain' (List.mem_cons_of_mem _ there)) later
      rw [first, fronts]
      exact ⟨rfl, backs⟩

theorem units_cancel {front back front' back' : List Char}
    (units : (Audit.codeUnits (String.ofList front)).length =
      (Audit.codeUnits (String.ofList front')).length)
    (same : front ++ back = front' ++ back') : front = front' ∧ back = back' := by
  rcases List.append_eq_append_iff.mp same with ⟨more, longer, rest⟩ | ⟨more, longer, rest⟩
  all_goals
    rw [longer, codeUnits_append] at units
    have nothing : more = [] := codeUnits_eq_zero (by omega)
    simp [longer, rest, nothing]

theorem colon_not_digit (n : ℕ) : ':' ∉ (toString n).toList := by
  intro there
  have digit : ':'.isDigit :=
    Nat.isDigit_of_mem_toDigits (b := 10) (n := n) (by omega) (by omega) (by simpa using there)
  cases digit

theorem bindingText_inj {tool tool' : String} {args args' : Args}
    (same : bindingText tool args = bindingText tool' args') :
    tool = tool' ∧ canonicalizeToolArgs args = canonicalizeToolArgs args' := by
  obtain ⟨lengths, rest⟩ := colon_cancel (colon_not_digit _) (colon_not_digit _) same
  have units : (Audit.codeUnits tool).length = (Audit.codeUnits tool').length := by
    have texts := String.toList_inj.mp lengths
    simpa using texts
  obtain ⟨tools, backs⟩ := units_cancel (by simpa using units) rest
  exact ⟨String.toList_inj.mp tools, (List.cons.inj backs).2⟩

theorem sortedMembers_eq (members : Args) :
    sortedMembers members = members.map fun member => (member.1, sorted member.2) := by
  induction members with
  | nil => rfl
  | cons member rest ih =>
    obtain ⟨key, value⟩ := member
    rw [sortedMembers, ih, List.map_cons]

theorem sortedMembers_keys (members : Args) : (sortedMembers members).map Prod.fst = members.map Prod.fst := by
  rw [sortedMembers_eq, List.map_map]
  rfl

theorem sortedMembers_perm {members others : Args} (once : (members.map Prod.fst).Nodup)
    (reordered : (sortedMembers members).Perm (sortedMembers others)) :
    (sortedMembers members).insertionSort keyBefore =
      (sortedMembers others).insertionSort keyBefore := by
  apply Audit.insertionSort_perm _ _ reordered
  · exact fun _ _ before after => Audit.codeUnits_injective (le_antisymm before after)
  · rw [sortedMembers_keys]
    exact once

mutual

theorem sorted_alike {value other : Value} (alike : Alike value other) (keyed : value.Keyed) :
    sorted value = sorted other := by
  match alike with
  | .same _ => rfl
  | .arr each => rw [sorted, sorted, sortedItems_alike each keyed]
  | .obj each reordered =>
    obtain ⟨once, inner⟩ := keyed
    rw [sorted, sorted, sortedMembers_alike each inner, sortedMembers_perm]
    · rw [← each.keys]
      exact once
    · rw [sortedMembers_eq, sortedMembers_eq]
      exact reordered.map _

theorem sortedItems_alike {items others : List Value} (alike : AlikeItems items others)
    (keyed : ThroughoutItems (fun members => (members.map Prod.fst).Nodup) items) :
    sortedItems items = sortedItems others := by
  match alike with
  | .nil => rfl
  | .cons head tail =>
    rw [sortedItems, sortedItems, sorted_alike head keyed.1, sortedItems_alike tail keyed.2]

theorem sortedMembers_alike {members others : Args} (alike : AlikeMembers members others)
    (keyed : ThroughoutMembers (fun members => (members.map Prod.fst).Nodup) members) :
    sortedMembers members = sortedMembers others := by
  match alike with
  | .nil => rfl
  | .cons key head tail =>
    rw [sortedMembers, sortedMembers, sorted_alike head keyed.1, sortedMembers_alike tail keyed.2]

end

mutual

theorem alike_of_sorted (value other : Value) (same : sorted value = sorted other) : Alike value other := by
  match value, other with
  | .arr items, .arr others =>
    simp only [sorted, Json.arr.injEq] at same
    exact .arr (alikeItems_of_sorted items others same)
  | .obj members, .obj others =>
    simp only [sorted, Json.obj.injEq] at same
    have order := List.perm_insertionSort keyBefore (sortedMembers members)
    rw [same] at order
    have reordered := order.symm.trans (List.perm_insertionSort keyBefore (sortedMembers others))
    rw [sortedMembers_eq others] at reordered
    obtain ⟨middle, each, perm⟩ := Audit.exists_perm_map _ _ others reordered
    exact .obj (alikeMembers_of_sorted members middle each.symm) perm
  | .null, other | .bool _, other | .num _, other | .str _, other =>
    cases other <;> simp_all [sorted, Alike.same]

theorem alikeItems_of_sorted (items others : List Value)
    (same : sortedItems items = sortedItems others) : AlikeItems items others := by
  match items, others with
  | [], [] => exact .nil
  | item :: rest, other :: tail =>
    simp only [sortedItems, List.cons.injEq] at same
    exact .cons (alike_of_sorted item other same.1) (alikeItems_of_sorted rest tail same.2)

theorem alikeMembers_of_sorted (members others : Args)
    (same : sortedMembers members = others.map fun member => (member.1, sorted member.2)) :
    AlikeMembers members others := by
  match members, others with
  | [], [] => exact .nil
  | (key, value) :: rest, (name, other) :: tail =>
    simp only [sortedMembers, List.map_cons, List.cons.injEq, Prod.mk.injEq] at same
    obtain ⟨⟨rfl, values⟩, later⟩ := same
    exact .cons key (alike_of_sorted value other values) (alikeMembers_of_sorted rest tail later)

end

theorem keyed_filter {args : Args} (keyed : (Json.obj args).Keyed) (kept : String × Value → Bool) :
    (Json.obj (args.filter kept)).Keyed := by
  refine ⟨keyed.1.sublist (List.filter_sublist.map _), (throughoutMembers_iff _ _).mpr ?_⟩
  intro member there
  exact (throughoutMembers_iff _ _).mp keyed.2 member (List.mem_of_mem_filter there)

/-- Two objects are alike when those of their members whose keys pass a test are, and the others. -/
theorem alike_filter_iff {args others : Args} (keyed : (Json.obj args).Keyed)
    (kept : String → Bool) : Alike (.obj args) (.obj others) ↔
      Alike (.obj (args.filter fun member => kept member.1))
          (.obj (others.filter fun member => kept member.1)) ∧
        Alike (.obj (args.filter fun member => !kept member.1))
          (.obj (others.filter fun member => !kept member.1)) := by
  have order (test : String → Bool) (members : Args) :
      sorted (.obj (members.filter fun member => test member.1)) =
        .obj (((sortedMembers members).insertionSort keyBefore).filter fun member =>
          test member.1) := by
    rw [sorted, sortedMembers_filter, insertionSort_filter]
  have others_order := order fun key => !kept key
  constructor
  · intro alike
    have same := Json.obj.inj (sorted_alike alike keyed)
    constructor
    · apply alike_of_sorted
      rw [order, order, same]
    · apply alike_of_sorted
      rw [others_order, others_order, same]
  · intro parts
    have passing := sorted_alike parts.1 (keyed_filter keyed _)
    have failing := sorted_alike parts.2 (keyed_filter keyed _)
    rw [order, order, Json.obj.injEq] at passing
    rw [others_order, others_order, Json.obj.injEq] at failing
    have whole (members : Args) := (List.perm_insertionSort keyBefore (sortedMembers members)).symm.trans
      (List.filter_append_perm (fun member : String × Value => kept member.1)
        ((sortedMembers members).insertionSort keyBefore)).symm
    have reordered : (sortedMembers args).Perm (sortedMembers others) := by
      refine (whole args).trans (List.Perm.trans ?_ (whole others).symm)
      rw [passing, failing]
    apply alike_of_sorted
    rw [sorted, sorted, sortedMembers_perm keyed.1 reordered]

/-- The arguments that a person is shown. -/
def withoutControlKeys (args : Args) : Args :=
  args.filter fun member => member.1 ∉ CONFIRMATION_CONTROL_KEYS

def protoMembers (args : Args) : Args := args.filter fun member => member.1 = "__proto__"

/-- The members other than `confirmed` and `__proto__`. -/
def plainMembers (args : Args) : Args :=
  args.filter fun member => member.1 ≠ "confirmed" && member.1 ≠ "__proto__"

theorem stripControlKeys_eq (args : Args) : stripControlKeys args = plainMembers args := by
  simp [stripControlKeys, plainMembers, copied, CONFIRMATION_CONTROL_KEYS]

theorem shown_iff {args others : Args} (keyed : (Json.obj args).Keyed) :
    Alike (.obj (withoutControlKeys args)) (.obj (withoutControlKeys others)) ↔
      Alike (.obj (plainMembers args)) (.obj (plainMembers others)) ∧
        Alike (.obj (protoMembers args)) (.obj (protoMembers others)) := by
  have plain (members : Args) : plainMembers members =
      (withoutControlKeys members).filter fun member => member.1 ≠ "__proto__" := by
    simp [withoutControlKeys, List.filter_filter, plainMembers, CONFIRMATION_CONTROL_KEYS, Bool.and_comm]
  have proto (members : Args) : protoMembers members =
      (withoutControlKeys members).filter fun member => !decide (member.1 ≠ "__proto__") := by
    rw [withoutControlKeys, List.filter_filter, protoMembers]
    apply List.filter_congr
    intro member _
    by_cases same : member.1 = "__proto__" <;> simp [same, CONFIRMATION_CONTROL_KEYS]
  rw [plain, plain, proto, proto]
  exact alike_filter_iff (keyed_filter keyed _) fun key => key ≠ "__proto__"

theorem bindingText_eq_iff {tool tool' : String} {args args' : Args}
    (keyed : (Json.obj args).Keyed) : bindingText tool args = bindingText tool' args' ↔
      tool = tool' ∧ Alike (.obj (plainMembers args)) (.obj (plainMembers args')) := by
  rw [← stripControlKeys_eq, ← stripControlKeys_eq]
  constructor
  · intro same
    obtain ⟨tools, texts⟩ := bindingText_inj same
    exact ⟨tools, alike_of_sorted _ _ (canonical_sorted texts)⟩
  · intro same
    obtain ⟨rfl, alike⟩ := same
    rw [bindingText, bindingText, canonicalizeToolArgs, canonicalizeToolArgs, canonical, canonical,
      sorted_alike alike (keyed_filter keyed _)]

/-- What is hashed tells two calls apart exactly where they do not agree in all but what they have under
`__proto__`. -/
theorem binding_is_exact_iff (tool tool' : String) (args args' : Args)
    (keyed : (Json.obj args).Keyed) :
    (bindingText tool args = bindingText tool' args' ↔
        tool = tool' ∧ Alike (.obj (withoutControlKeys args)) (.obj (withoutControlKeys args'))) ↔
      (tool = tool' → Alike (.obj (plainMembers args)) (.obj (plainMembers args')) →
        Alike (.obj (protoMembers args)) (.obj (protoMembers args'))) := by
  rw [bindingText_eq_iff keyed, shown_iff keyed]
  tauto

def proposedArgs : Args := [("door", .str "front"), ("force", .bool true)]

/-- The same arguments in another order, with the control key. -/
def confirmedArgs : Args := [("force", .bool true), ("confirmed", .bool true), ("door", .str "front")]

theorem reordered_arguments_are_bound :
    bindingText "unlock" proposedArgs = bindingText "unlock" confirmedArgs := by
  have swapped : Alike (.obj [("door", .str "front"), ("force", .bool true)] : Value)
      (.obj [("force", .bool true), ("door", .str "front")]) :=
    .obj (.cons _ (.same _) (.cons _ (.same _) .nil)) (.swap _ _ _)
  refine ((binding_is_exact_iff "unlock" "unlock" proposedArgs confirmedArgs ?_).mpr ?_).mpr ⟨rfl, swapped⟩
  · exact ⟨by decide, trivial, trivial, trivial⟩
  · exact fun _ _ => .same _

/-- A member `__proto__` is not hashed. -/
theorem proto_is_not_bound :
    bindingText "lock" [("__proto__", .str "front")] = bindingText "lock" [] ∧
      ¬ Alike (.obj (withoutControlKeys [("__proto__", .str "front")]) : Value)
        (.obj (withoutControlKeys [])) := by
  refine ⟨rfl, ?_⟩
  intro alike
  have same := sorted_alike alike ⟨by decide, trivial, trivial⟩
  cases same

end Droplet.Confirm
