import Mathlib

/-! JSON values, over any type of numbers, and when two differ only in the order of their members. -/

/-- A value `JSON.parse` can give. An object lists its members in insertion order. -/
inductive Json (Number : Type) where
  | null
  | bool (value : Bool)
  | num (value : Number)
  | str (value : String)
  | arr (items : List (Json Number))
  | obj (members : List (String × Json Number))

namespace Json

variable {Number : Type}

/-- A member of an object; the last one written under a key is the one there. -/
def field (key : String) : Json Number → Option (Json Number)
  | obj members => (members.reverse.find? (fun member => member.1 == key)).map Prod.snd
  | _ => none

mutual

/-- Equal but for the order in which objects, at any depth, list their members. -/
inductive Alike : Json Number → Json Number → Prop
  | same (value : Json Number) : Alike value value
  | arr {items others : List (Json Number)} (each : AlikeItems items others) :
      Alike (.arr items) (.arr others)
  | obj {members middle others : List (String × Json Number)} (each : AlikeMembers members middle)
      (reordered : middle.Perm others) : Alike (.obj members) (.obj others)

inductive AlikeItems : List (Json Number) → List (Json Number) → Prop
  | nil : AlikeItems [] []
  | cons {item other : Json Number} {items others : List (Json Number)} (head : Alike item other)
      (tail : AlikeItems items others) : AlikeItems (item :: items) (other :: others)

inductive AlikeMembers : List (String × Json Number) → List (String × Json Number) → Prop
  | nil : AlikeMembers [] []
  | cons {value other : Json Number} {members others : List (String × Json Number)} (key : String)
      (head : Alike value other) (tail : AlikeMembers members others) :
      AlikeMembers ((key, value) :: members) ((key, other) :: others)

end

theorem AlikeMembers.keys {members others : List (String × Json Number)}
    (alike : AlikeMembers members others) : members.map Prod.fst = others.map Prod.fst := by
  match alike with
  | .nil => rfl
  | .cons key _ tail => rw [List.map_cons, List.map_cons, tail.keys]

mutual

/-- Every object in it satisfies a condition on its members. -/
def Throughout (condition : List (String × Json Number) → Prop) : Json Number → Prop
  | .arr items => ThroughoutItems condition items
  | .obj members => condition members ∧ ThroughoutMembers condition members
  | .null => True
  | .bool _ => True
  | .num _ => True
  | .str _ => True

def ThroughoutItems (condition : List (String × Json Number) → Prop) : List (Json Number) → Prop
  | [] => True
  | item :: rest => item.Throughout condition ∧ ThroughoutItems condition rest

def ThroughoutMembers (condition : List (String × Json Number) → Prop) :
    List (String × Json Number) → Prop
  | [] => True
  | (_, value) :: rest => value.Throughout condition ∧ ThroughoutMembers condition rest

end

def Keyed (value : Json Number) : Prop :=
  value.Throughout (fun members => (members.map Prod.fst).Nodup)

def Lacks (key : String) (value : Json Number) : Prop :=
  value.Throughout (fun members => key ∉ members.map Prod.fst)

theorem throughoutMembers_iff (condition : List (String × Json Number) → Prop)
    (members : List (String × Json Number)) : ThroughoutMembers condition members ↔
      ∀ member ∈ members, member.2.Throughout condition := by
  induction members with
  | nil => simp [ThroughoutMembers]
  | cons member rest ih =>
    obtain ⟨key, value⟩ := member
    rw [ThroughoutMembers, ih, List.forall_mem_cons]

variable {condition : List (String × Json Number) → Prop}

theorem ThroughoutMembers.perm {members others : List (String × Json Number)}
    (holds : ThroughoutMembers condition members) (reordered : members.Perm others) :
    ThroughoutMembers condition others := by
  rw [throughoutMembers_iff] at holds ⊢
  intro member inside
  exact holds member (reordered.mem_iff.mpr inside)

mutual

theorem Alike.throughout (by_keys : ∀ members others : List (String × Json Number),
      (members.map Prod.fst).Perm (others.map Prod.fst) → condition members → condition others)
    {value other : Json Number} (alike : Alike value other) :
    value.Throughout condition ↔ other.Throughout condition := by
  match alike with
  | .same _ => exact Iff.rfl
  | .arr each =>
    simp only [Throughout]
    exact each.throughout by_keys
  | @Alike.obj _ members middle others each reordered =>
    have keys : (members.map Prod.fst).Perm (others.map Prod.fst) := by
      rw [each.keys]
      exact reordered.map Prod.fst
    simp only [Throughout]
    apply and_congr
    · exact ⟨by_keys _ _ keys, by_keys _ _ keys.symm⟩
    · rw [each.throughout by_keys]
      exact ⟨fun holds => holds.perm reordered, fun holds => holds.perm reordered.symm⟩

theorem AlikeItems.throughout (by_keys : ∀ members others : List (String × Json Number),
      (members.map Prod.fst).Perm (others.map Prod.fst) → condition members → condition others)
    {items others : List (Json Number)} (alike : AlikeItems items others) :
    ThroughoutItems condition items ↔ ThroughoutItems condition others := by
  match alike with
  | .nil => exact Iff.rfl
  | .cons head tail =>
    simp only [ThroughoutItems]
    exact and_congr (head.throughout by_keys) (tail.throughout by_keys)

theorem AlikeMembers.throughout (by_keys : ∀ members others : List (String × Json Number),
      (members.map Prod.fst).Perm (others.map Prod.fst) → condition members → condition others)
    {members others : List (String × Json Number)} (alike : AlikeMembers members others) :
    ThroughoutMembers condition members ↔ ThroughoutMembers condition others := by
  match alike with
  | .nil => exact Iff.rfl
  | .cons _ head tail =>
    simp only [ThroughoutMembers]
    exact and_congr (head.throughout by_keys) (tail.throughout by_keys)

end

theorem Alike.lacks {key : String} {value other : Json Number} (alike : Alike value other) :
    value.Lacks key ↔ other.Lacks key :=
  alike.throughout (fun _ _ keys absent inside => absent (keys.mem_iff.mpr inside))

end Json
