import Mathlib

/-! Hash chains under a ring of keys.

An item names the hash of the signature before it. Under a ring of keys, oldest first, the
items must be accepted under keys whose indices never go down. The results here are about
any items, signatures and keys: taking the least key that accepts is as good as any
choice, and a chain whose items are all known is a contiguous part of the known chain. -/

namespace HashChain

universe u v w

section Epochs

/-- The first epoch from `epoch` on that is accepted. -/
def IsNext (accepted : ℕ → Prop) (epoch : ℕ) : Option ℕ → Prop
  | some i => epoch ≤ i ∧ accepted i ∧ ∀ j, epoch ≤ j → accepted j → i ≤ j
  | none => ∀ j, epoch ≤ j → ¬ accepted j

variable {α : Type u} (accepts : ℕ → α → Prop)

/-- There are epochs for the items, from `epoch` on and never going down. -/
def Assigned (epoch : ℕ) (items : List α) : Prop :=
  ∃ epochs : List ℕ, epochs.Pairwise (· ≤ ·) ∧ (∀ i ∈ epochs, epoch ≤ i) ∧
    List.Forall₂ accepts epochs items

theorem assigned_nil (epoch : ℕ) : Assigned accepts epoch [] := ⟨[], by simp, by simp, .nil⟩

variable {accepts}

theorem assigned_cons_iff {epoch i : ℕ} {item : α} {rest : List α}
    (next : IsNext (fun j => accepts j item) epoch (some i)) :
    Assigned accepts epoch (item :: rest) ↔ Assigned accepts i rest := by
  obtain ⟨low, accepted, least⟩ := next
  constructor
  · intro assigned
    obtain ⟨epochs, ordered, above, matched⟩ := assigned
    cases matched with
    | @cons j _ later _ here others =>
      rw [List.pairwise_cons] at ordered
      refine ⟨later, ordered.2, ?_, others⟩
      intro k member
      exact (least j (above j List.mem_cons_self) here).trans (ordered.1 k member)
  · intro assigned
    obtain ⟨epochs, ordered, above, matched⟩ := assigned
    refine ⟨i :: epochs, List.pairwise_cons.mpr ⟨above, ordered⟩, ?_, .cons accepted matched⟩
    intro k member
    rcases List.mem_cons.mp member with rfl | later
    · exact low
    · exact low.trans (above k later)

theorem not_assigned_cons {epoch : ℕ} {item : α} {rest : List α}
    (next : IsNext (fun j => accepts j item) epoch none) : ¬ Assigned accepts epoch (item :: rest) := by
  intro assigned
  obtain ⟨epochs, _, above, matched⟩ := assigned
  cases matched with
  | @cons j _ later _ here others => exact next j (above j List.mem_cons_self) here

theorem Assigned.part {epoch : ℕ} {before items after : List α}
    (assigned : Assigned accepts epoch (before ++ items ++ after)) : Assigned accepts epoch items := by
  obtain ⟨epochs, ordered, above, matched⟩ := assigned
  have front := List.forall₂_take_append epochs (before ++ items) after matched
  have middle := List.forall₂_drop_append _ before items front
  refine ⟨_, (ordered.sublist ?_), ?_, middle⟩
  · exact (List.drop_sublist _ _).trans (List.take_sublist _ _)
  · intro i member
    exact above i (List.mem_of_mem_take (List.mem_of_mem_drop member))

theorem Assigned.append {epoch newest : ℕ} {items : List α} {item : α}
    (assigned : Assigned accepts epoch items) (ring : ∀ i x, accepts i x → i ≤ newest)
    (from_epoch : epoch ≤ newest) (accepted : accepts newest item) : Assigned accepts epoch (items ++ [item]) := by
  obtain ⟨epochs, ordered, above, matched⟩ := assigned
  refine ⟨epochs ++ [newest], ?_, ?_, List.rel_append matched (.cons accepted .nil)⟩
  · rw [List.pairwise_append]
    refine ⟨ordered, List.pairwise_singleton _ _, ?_⟩
    intro i member last same
    rw [List.mem_singleton.mp same]
    obtain ⟨length, known⟩ := List.forall₂_iff_get.mp matched
    obtain ⟨k, bound, rfl⟩ := List.getElem_of_mem member
    exact ring _ _ (known k bound (length ▸ bound))
  · intro i member
    rcases List.mem_append.mp member with earlier | last
    · exact above i earlier
    · rwa [List.mem_singleton.mp last]

theorem Assigned.ordered {epoch : ℕ} {front : List α} {first last : α}
    (assigned : Assigned accepts epoch (front ++ [last])) (member : first ∈ front) :
    ∃ i j, i ≤ j ∧ accepts i first ∧ accepts j last := by
  obtain ⟨epochs, ordered, _, matched⟩ := assigned
  obtain ⟨length, known⟩ := List.forall₂_iff_get.mp matched
  rw [List.length_append, List.length_singleton] at length
  obtain ⟨k, bound, rfl⟩ := List.getElem_of_mem member
  have here := known k (by omega) (by simp; omega)
  have there := known front.length (by omega) (by simp)
  simp only [List.get_eq_getElem, List.getElem_append_left bound, List.getElem_concat_length] at here there
  exact ⟨_, _, List.pairwise_iff_getElem.mp ordered k front.length (by omega) (by omega) bound, here, there⟩

theorem Assigned.mono {accepts' : ℕ → α → Prop} {epoch : ℕ} {items : List α}
    (assigned : Assigned accepts epoch items) (wider : ∀ i x, accepts i x → accepts' i x) :
    Assigned accepts' epoch items := by
  obtain ⟨epochs, ordered, above, matched⟩ := assigned
  exact ⟨epochs, ordered, above, matched.imp wider⟩

end Epochs

section Links

variable {α : Type u} {σ : Type v} {η : Type w} (signature : α → σ) (prev : α → η) (hash : σ → η)

/-- Every item but the first names the hash of the signature before it. -/
def Linked (items : List α) : Prop :=
  items.IsChain (fun a b => prev b = hash (signature a))

variable {signature prev hash}

theorem Linked.part {before items after : List α}
    (linked : Linked signature prev hash (before ++ items ++ after)) : Linked signature prev hash items :=
  List.IsChain.infix linked ⟨before, after, rfl⟩

theorem linked_append_singleton (items : List α) (item : α) :
    Linked signature prev hash (items ++ [item]) ↔ Linked signature prev hash items ∧
      ∀ last ∈ items.getLast?, prev item = hash (signature last) := by
  simp [Linked, List.isChain_append]

/-- From its origin on, a chain whose signatures commit to the links has no signature
twice. -/
theorem Linked.signatures_nodup {origin : η} {items : List α}
    (linked : Linked signature prev hash items) (first : ∀ item ∈ items.head?, prev item = origin)
    (fresh : ∀ s, hash s ≠ origin) (injective : Function.Injective hash)
    (commits : ∀ a ∈ items, ∀ b ∈ items, signature a = signature b → prev a = prev b) :
    (items.map signature).Nodup := by
  have step : ∀ k (next : k + 1 < items.length), prev items[k + 1] = hash (signature items[k]) := by
    intro k next
    exact List.isChain_iff_getElem.mp linked k next
  -- Two equal signatures would have equal ones right before them, and so down to the origin.
  have apart : ∀ i j (less : i < j) (bound : j < items.length), signature items[i] ≠ signature items[j] := by
    intro i
    induction i with
    | zero =>
      intro j less bound same
      obtain ⟨k, rfl⟩ := Nat.exists_eq_add_of_lt less
      have links := commits _ (List.getElem_mem _) _ (List.getElem_mem _) same
      have start : prev items[0] = origin := first _ (by simp [List.head?_eq_getElem?])
      simp only [Nat.zero_add] at links
      rw [start, step k (by simpa using bound)] at links
      exact fresh _ links.symm
    | succ i ih =>
      intro j less bound same
      obtain ⟨k, rfl⟩ : ∃ k, j = k + 1 := ⟨j - 1, by omega⟩
      have links := commits _ (List.getElem_mem _) _ (List.getElem_mem _) same
      rw [step i (by omega), step k bound] at links
      exact ih k (by omega) (by omega) (injective links)
  rw [List.nodup_iff_pairwise_ne, List.pairwise_map, List.pairwise_iff_getElem]
  intro i j _ bound less
  exact apart i j less bound

/-- A chain of items that all occur in a chain from the origin is a contiguous part of it. -/
theorem Linked.block {origin : η} {history items : List α} {same : α → α → Prop}
    (known : Linked signature prev hash history) (linked : Linked signature prev hash items)
    (first : ∀ item ∈ history.head?, prev item = origin) (fresh : ∀ s, hash s ≠ origin)
    (injective : Function.Injective hash) (distinct : (history.map signature).Nodup)
    (agree : ∀ a b, same a b → signature a = signature b ∧ prev a = prev b)
    (occur : ∀ item ∈ items, ∃ original ∈ history, same original item) :
    ∃ before block after, history = before ++ block ++ after ∧ List.Forall₂ same block items := by
  induction items with
  | nil => exact ⟨[], [], history, by simp, .nil⟩
  | cons item rest ih =>
    obtain ⟨original, member, alike⟩ := occur item List.mem_cons_self
    cases rest with
    | nil =>
      obtain ⟨before, after, rfl⟩ := List.append_of_mem member
      exact ⟨before, [original], after, by simp, .cons alike .nil⟩
    | cons next others =>
      obtain ⟨link, rest_linked⟩ := List.isChain_cons_cons.mp linked
      obtain ⟨before, block, after, parts, matched⟩ := ih rest_linked
        (fun other later => occur other (List.mem_cons_of_mem _ later))
      cases matched with
      | @cons successor _ tail _ alikeNext matchedTail =>
        -- What comes before the successor in the history has the item's signature.
        have named : prev successor = hash (signature original) := by
          rw [(agree _ _ alikeNext).2, link, (agree _ _ alike).1]
        rcases List.eq_nil_or_concat before with rfl | ⟨front, predecessor, rfl⟩
        · have start := first successor (by rw [parts]; simp)
          rw [named] at start
          exact absurd start (fresh _)
        · have joined : prev successor = hash (signature predecessor) := by
            rw [parts] at known
            have pair : Linked signature prev hash [predecessor, successor] :=
              List.IsChain.infix known ⟨front, tail ++ after, by simp⟩
            exact (List.isChain_cons_cons.mp pair).1
          have signatures : signature predecessor = signature original :=
            injective (joined.symm.trans named)
          have equal : predecessor = original :=
            List.inj_on_of_nodup_map distinct (by rw [parts]; simp) member signatures
          refine ⟨front, predecessor :: successor :: tail, after, ?_, ?_⟩
          · rw [parts]
            simp
          · exact .cons (equal ▸ alike) (.cons alikeNext matchedTail)

end Links

end HashChain
