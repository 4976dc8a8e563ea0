import Droplet.Lib.Fallible
import Droplet.People.Mutations

/-! The box is never left without an operator: what one write can do to the user table, and what every run
of them keeps. -/

namespace Droplet.People

open RoleMutationRefusedError Fallible

variable {Id : Type} [DecidableEq Id]

variable (directory : Directory Id)

namespace Directory

theorem find_eq_some_iff (id : Id) (account : Account) :
    directory.find id = some account ↔ (id, account) ∈ directory.rows := by
  unfold find
  constructor
  · intro found
    obtain ⟨row, first, rfl⟩ := Option.map_eq_some_iff.mp found
    have same : row.1 = id := by simpa using List.find?_some first
    rw [← same]
    exact List.mem_of_find?_eq_some first
  · intro member
    cases first : directory.rows.find? (fun row => row.1 = id) with
    | none =>
      have absent := List.find?_eq_none.mp first _ member
      simp at absent
    | some row =>
      have key : row.1 = id := by simpa using List.find?_some first
      have same : row = (id, account) :=
        List.inj_on_of_nodup_map directory.distinct (List.mem_of_find?_eq_some first) member key
      rw [same]
      rfl

theorem find_update (id other : Id) (change : Account → Account) :
    (directory.update id change).find other =
      if other = id then (directory.find id).map change else directory.find other := by
  unfold find update
  rw [List.find?_map]
  have key : ((fun row : Id × Account => decide (row.1 = other)) ∘
      fun row => if row.1 = id then (row.1, change row.2) else row) =
        fun row => decide (row.1 = other) := by
    funext row
    simp only [Function.comp_apply]
    split <;> rfl
  rw [key, Option.map_map]
  by_cases same : other = id
  · subst same
    rw [if_pos rfl, Option.map_map]
    cases first : directory.rows.find? (fun row => decide (row.1 = other)) with
    | none => rfl
    | some row =>
      have found : row.1 = other := by simpa using List.find?_some first
      simp [found]
  · rw [if_neg same]
    cases first : directory.rows.find? (fun row => decide (row.1 = other)) with
    | none => rfl
    | some row =>
      have found : row.1 = other := by simpa using List.find?_some first
      have apart : row.1 ≠ id := found ▸ same
      simp [apart]

theorem find_delete (id other : Id) :
    (directory.delete id).find other = if other = id then none else directory.find other := by
  unfold find delete
  rw [List.find?_filter]
  by_cases same : other = id
  · subst same
    rw [if_pos rfl, Option.map_eq_none_iff, List.find?_eq_none]
    intro row _
    simp
  · rw [if_neg same]
    congr 1
    apply List.find?_congr
    intro row _
    by_cases key : row.1 = other
    · simp [key, same]
    · simp [key]

theorem count_ne_zero (test : Id → Account → Bool) (some_left : directory.count test ≠ 0) :
    ∃ id account, directory.find id = some account ∧ test id account = true := by
  obtain ⟨row, member⟩ := List.exists_mem_of_length_pos (Nat.pos_of_ne_zero some_left)
  obtain ⟨inside, holds⟩ := List.mem_filter.mp member
  exact ⟨row.1, row.2, (find_eq_some_iff _ _ _).mpr inside, holds⟩

end Directory

/-- What a write may make of a row (`none`: it is deleted). -/
structure Permitted (directory : Directory Id) (id : Id) (before : Account) (after : Option Account) :
    Prop where
  owner : before.role = .owner → ∃ account, after = some account ∧ account.role = .owner ∧
    (before.deletionStatus = .none → account.deletionStatus = .none) ∧
    (account.directoryStatus = before.directoryStatus ∨ account.directoryStatus = .active)
  person : before.role ≠ .owner → ∀ account, after = some account → account.role ≠ .owner
  operator : before.operates = true → (∃ account, after = some account ∧ account.operates = true) ∨
    ∃ other account, other ≠ id ∧ directory.find other = some account ∧ account.operates = true

/-- One row changes at most, as it may. -/
def Moves (directory next : Directory Id) : Prop :=
  (∀ id, next.find id = directory.find id) ∨
    ∃ id before, directory.find id = some before ∧ (∀ other, other ≠ id → next.find other =
      directory.find other) ∧ Permitted directory id before (next.find id)

structure Kept (start directory : Directory Id) : Prop where
  operator : ∃ id account, directory.find id = some account ∧ account.operates = true
  owners : ∀ id, (∃ account, directory.find id = some account ∧ account.role = .owner) ↔
    ∃ account, start.find id = some account ∧ account.role = .owner
  status : ∀ id before account, start.find id = some before → before.role = .owner →
    directory.find id = some account → account.directoryStatus = before.directoryStatus ∨
      account.directoryStatus = .active
  unscheduled : ∀ id account, directory.find id = some account → account.role = .owner →
    account.deletionStatus = .none

theorem Kept.same (start directory next : Directory Id) (kept : Kept start directory)
    (same : ∀ id, next.find id = directory.find id) : Kept start next := by
  obtain ⟨operator, owners, status, unscheduled⟩ := kept
  constructor
  · simpa only [same] using operator
  · simpa only [same] using owners
  · simpa only [same] using status
  · simpa only [same] using unscheduled

theorem Kept.moves (start directory next : Directory Id) (kept : Kept start directory)
    (moves : Moves directory next) : Kept start next := by
  rcases moves with same | ⟨id, before, found, others, permitted⟩
  · exact kept.same start directory next same
  · constructor
    · obtain ⟨held, account, there, operates⟩ := kept.operator
      by_cases target : held = id
      · subst target
        obtain rfl : account = before := Option.some.inj (there.symm.trans found)
        rcases permitted.operator operates with ⟨after, now, still⟩ | ⟨other, rest, apart, stands, works⟩
        · exact ⟨held, after, now, still⟩
        · exact ⟨other, rest, (others other apart).trans stands, works⟩
      · exact ⟨held, account, (others held target).trans there, operates⟩
    · intro other
      rw [← kept.owners other]
      by_cases target : other = id
      · subst target
        constructor
        · intro owned
          obtain ⟨account, now, role⟩ := owned
          by_contra missing
          have person : before.role ≠ .owner := fun owner => missing ⟨before, found, owner⟩
          exact permitted.person person account now role
        · intro owned
          obtain ⟨account, there, role⟩ := owned
          obtain rfl : account = before := Option.some.inj (there.symm.trans found)
          obtain ⟨after, now, still, _⟩ := permitted.owner role
          exact ⟨after, now, still⟩
      · rw [others other target]
    · intro other first account stood role now
      by_cases target : other = id
      · subst target
        obtain ⟨owned, there, owner⟩ := (kept.owners other).mpr ⟨first, stood, role⟩
        obtain rfl : owned = before := Option.some.inj (there.symm.trans found)
        obtain ⟨after, same, _, _, status⟩ := permitted.owner owner
        obtain rfl : account = after := Option.some.inj (now.symm.trans same)
        rcases status with unchanged | active
        · rw [unchanged]
          exact kept.status other first owned stood role there
        · exact .inr active
      · rw [others other target] at now
        exact kept.status other first account stood role now
    · intro other account now role
      by_cases target : other = id
      · subst target
        have owner : before.role = .owner := by
          by_contra person
          exact permitted.person person account now role
        obtain ⟨after, same, _, deletion, _⟩ := permitted.owner owner
        obtain rfl : account = after := Option.some.inj (now.symm.trans same)
        exact deletion (kept.unscheduled other before found owner)
      · rw [others other target] at now
        exact kept.unscheduled other account now role

theorem moves_update (id : Id) (change : Account → Account)
    (permitted : ∀ before, directory.find id = some before →
      Permitted directory id before (some (change before))) :
    Moves directory (directory.update id change) := by
  cases found : directory.find id with
  | none =>
    left
    intro other
    rw [Directory.find_update]
    split
    next same => rw [same, found, Option.map_none]
    next => rfl
  | some before =>
    right
    refine ⟨id, before, found, ?_, ?_⟩
    · intro other apart
      rw [Directory.find_update, if_neg apart]
    · rw [Directory.find_update, if_pos rfl, found]
      exact permitted before found

theorem permitted_of_harmless (id : Id) (before after : Account) (role : after.role = before.role)
    (status : after.directoryStatus = before.directoryStatus ∨ after.directoryStatus = .active)
    (deletion : before.role = .owner → before.deletionStatus = .none → after.deletionStatus = .none) :
    Permitted directory id before (some after) := by
  constructor
  · intro owner
    exact ⟨after, rfl, role.trans owner, deletion owner, status⟩
  · intro person account same
    obtain rfl := Option.some.inj same
    rw [role]
    exact person
  · intro operates
    left
    refine ⟨after, rfl, ?_⟩
    simp only [Account.operates, Bool.and_eq_true, decide_eq_true_eq] at operates ⊢
    rw [role]
    rcases status with unchanged | active
    · exact ⟨operates.1, unchanged.trans operates.2⟩
    · exact ⟨operates.1, active⟩

theorem other_operator (target : GuardTxTarget Id) (active : target.directoryStatus = .active)
    (passed : assertNotLastOperator directory target = .ok ()) :
    ∃ other account, other ≠ target.id ∧ directory.find other = some account ∧
      account.operates = true := by
  rw [assertNotLastOperator, if_neg (by simp [active]), refuse_ok_iff] at passed
  obtain ⟨other, account, found, test⟩ := directory.count_ne_zero _ passed
  simp only [Bool.and_eq_true, decide_eq_true_eq] at test
  exact ⟨other, account, test.2, found, test.1⟩

variable (request : Request Id)

theorem Request.operator_left (directory : Directory Id) (account : Account)
    (operates : account.operates = true) (passed : request.invariantsTx directory
      ⟨⟨request.target.id, account.role⟩, account.directoryStatus⟩ = .ok ()) :
    (request.mutation.apply account).operates = true ∨
      ∃ other account, other ≠ request.target.id ∧ directory.find other = some account ∧
        account.operates = true := by
  simp only [Account.operates, Bool.and_eq_true, decide_eq_true_eq] at operates
  obtain ⟨tier, active⟩ := operates
  have rail : assertNotLastOperator directory
      ⟨⟨request.target.id, account.role⟩, account.directoryStatus⟩ = .ok () →
      ∃ other account, other ≠ request.target.id ∧ directory.find other = some account ∧
        account.operates = true :=
    fun ran => other_operator directory _ active ran
  have removal : assertRemovalInvariantsTx directory
      ⟨⟨request.target.id, account.role⟩, account.directoryStatus⟩ = .ok () →
      assertNotLastOperator directory
        ⟨⟨request.target.id, account.role⟩, account.directoryStatus⟩ = .ok () := by
    intro ran
    simp only [assertRemovalInvariantsTx, tier, if_true] at ran
    obtain ⟨_, _, ran⟩ := bind_ok_iff.mp ran
    exact ran
  cases mutation : request.mutation with
  | changeRole requestedRole rankMessage =>
    simp only [Request.invariantsTx, mutation, assertRoleChangeInvariantsTx, tier, Bool.true_and] at passed
    obtain ⟨_, _, passed⟩ := bind_ok_iff.mp passed
    cases kept : requestedRole.isAdminTier with
    | true =>
      left
      simp [Mutation.apply, Account.operates, kept, active]
    | false =>
      simp only [kept, Bool.not_false, if_true] at passed
      exact .inr (rail passed)
  | scheduleDeletion | claimHandover | revokeHandover =>
    simp only [Request.invariantsTx, mutation] at passed
    exact .inr (rail (removal passed))
  | disable =>
    simp only [Request.invariantsTx, mutation, assertDisableInvariantsTx, tier, if_true] at passed
    exact .inr (rail passed)

theorem roleChange_allowed (actor : GuardActor Id) (target : GuardTarget Id) (requestedRole : Role)
    (rankMessage : Option String)
    (passed : assertRoleChangeAllowed actor target requestedRole rankMessage = .ok ()) :
    target.role ≠ .owner ∧ requestedRole ≠ .owner ∧
      ∃ role, actor.role = some role ∧ requestedRole.rank ≤ role.rank := by
  simp only [assertRoleChangeAllowed] at passed
  obtain ⟨_, _, passed⟩ := bind_ok_iff.mp passed
  obtain ⟨_, owner, passed⟩ := bind_ok_iff.mp passed
  obtain ⟨_, rank, assignable⟩ := bind_ok_iff.mp passed
  simp only [assertTargetNotOwner, refuse_ok_iff] at owner
  simp only [assertRoleAssignable, refuse_ok_iff] at assignable
  refine ⟨owner, ?_, ?_⟩
  · intro same
    rw [same] at assignable
    exact assignable rfl
  · unfold assertRankCap at rank
    split at rank
    · cases rank
    next role same =>
      rw [refuse_ok_iff] at rank
      exact ⟨role, same, by omega⟩

theorem Request.rails_not_owner (passed : request.rails = .ok ()) : request.target.role ≠ .owner := by
  have removal : assertRemovalAllowed request.actor request.target = .ok () →
      request.target.role ≠ .owner := by
    intro ran
    obtain ⟨_, _, owner⟩ := bind_ok_iff.mp ran
    simpa only [assertTargetNotOwner, refuse_ok_iff] using owner
  cases mutation : request.mutation with
  | changeRole requestedRole rankMessage =>
    simp only [Request.rails, mutation] at passed
    exact (roleChange_allowed _ _ _ _ passed).1
  | scheduleDeletion | claimHandover prior | revokeHandover | disable =>
    simp only [Request.rails, mutation] at passed
    exact removal passed

theorem Request.moves (directory next : Directory Id) (rails : request.rails = .ok ())
    (person : ∀ account, directory.find request.target.id = some account → account.role ≠ .owner)
    (done : request.transact directory = .ok next) : Moves directory next := by
  unfold Request.transact at done
  split at done
  · cases done
  next account found =>
    obtain ⟨_, passed, done⟩ := bind_ok_iff.mp done
    split at done
    next =>
      obtain rfl := Except.ok.inj done
      apply moves_update
      intro before same
      obtain rfl : account = before := Option.some.inj (found.symm.trans same)
      have plain := person account found
      constructor
      · intro owner
        exact absurd owner plain
      · intro _ after set
        obtain rfl := Option.some.inj set
        cases mutation : request.mutation with
        | changeRole requestedRole rankMessage =>
          simp only [Request.rails, mutation] at rails
          exact (roleChange_allowed _ _ _ _ rails).2.1
        | scheduleDeletion | claimHandover prior | revokeHandover | disable => exact plain
      · intro operates
        rcases request.operator_left directory account operates passed with still | other
        · exact .inl ⟨_, rfl, still⟩
        · exact .inr other
    next => cases done

/-- A request on somebody who was no owner at the start, past its rails. -/
def Request.Sound (start : Directory Id) (request : Request Id) : Prop :=
  request.rails = .ok () ∧
    ¬ ∃ account, start.find request.target.id = some account ∧ account.role = .owner

structure Safe (start : Directory Id) (state : State Id) : Prop where
  kept : Kept start state.directory
  sound : ∀ request ∈ state.requests, request.Sound start
  ranked : ∀ id account role, state.directory.find id = some account → state.giver id = some role →
    account.role.rank ≤ role.rank

theorem Kept.person (start directory : Directory Id) (kept : Kept start directory)
    (request : Request Id) (sound : request.Sound start) (account : Account)
    (found : directory.find request.target.id = some account) : account.role ≠ .owner :=
  fun owner => sound.2 ((kept.owners _).mp ⟨account, found, owner⟩)

theorem Request.transact_update (directory next : Directory Id) (done : request.transact directory = .ok next) :
    next = directory.update request.target.id request.mutation.apply := by
  unfold Request.transact at done
  split at done
  · cases done
  next account found =>
    obtain ⟨_, _, done⟩ := bind_ok_iff.mp done
    split at done
    · exact (Except.ok.inj done).symm
    · cases done

theorem Mutation.apply_role (mutation : Mutation) (account : Account) :
    (mutation.apply account).role = mutation.givenRole.getD account.role := by
  cases mutation <;> rfl

theorem Request.ranked (rails : request.rails = .ok ()) (role actorRole : Role)
    (given : request.mutation.givenRole = some role) (actor : request.actor.role = some actorRole) :
    role.rank ≤ actorRole.rank := by
  cases mutation : request.mutation with
  | changeRole requestedRole rankMessage =>
    simp only [Request.rails, mutation] at rails
    obtain ⟨_, _, held, same, rank⟩ := roleChange_allowed _ _ _ _ rails
    obtain rfl : actorRole = held := Option.some.inj (actor.symm.trans same)
    obtain rfl : requestedRole = role := by
      rw [mutation] at given
      exact Option.some.inj given
    exact rank
  | scheduleDeletion | claimHandover prior | revokeHandover | disable =>
    rw [mutation] at given
    cases given

variable (start : Directory Id) (state : State Id)

theorem Safe.transact (request : Request Id)
    (next : Directory Id) (safe : Safe start state) (sound : request.Sound start)
    (done : request.transact state.directory = .ok next) (id : Id) (account : Account) (role : Role)
    (found : next.find id = some account)
    (given : (if request.mutation.givenRole.isSome then state.give request.actor [request.target.id]
      else state.giver) id = some role) : account.role.rank ≤ role.rank := by
  rw [request.transact_update state.directory next done, Directory.find_update] at found
  cases mutation : request.mutation.givenRole with
  | none =>
    rw [mutation, Option.isSome_none, if_neg (by decide)] at given
    split at found
    next same =>
      obtain ⟨before, there, rfl⟩ := Option.map_eq_some_iff.mp found
      rw [Mutation.apply_role, mutation, Option.getD_none]
      exact safe.ranked id before role (same ▸ there) given
    next => exact safe.ranked id account role found given
  | some requestedRole =>
    rw [mutation, Option.isSome_some, if_pos rfl] at given
    simp only [State.give, List.mem_singleton] at given
    split at found
    next same =>
      rw [if_pos same] at given
      obtain ⟨before, there, rfl⟩ := Option.map_eq_some_iff.mp found
      rw [Mutation.apply_role, mutation, Option.getD_some]
      exact request.ranked sound.1 requestedRole role mutation given
    next apart =>
      rw [if_neg apart] at given
      exact safe.ranked id account role found given

theorem Safe.write (next : Directory Id) (safe : Safe start state) (moves : Moves state.directory next)
    (roles : ∀ id account, next.find id = some account →
      ∃ before, state.directory.find id = some before ∧ account.role = before.role) :
    Safe start { state with directory := next } := by
  refine ⟨safe.kept.moves start state.directory next moves, safe.sound, ?_⟩
  intro id account role found given
  obtain ⟨before, there, same⟩ := roles id account found
  rw [same]
  exact safe.ranked id before role there given

theorem Safe.updateWhere (id : Id) (test : Account → Bool)
    (change : Account → Account) (safe : Safe start state) (role : ∀ a, (change a).role = a.role)
    (status : ∀ a, test a = true →
      (change a).directoryStatus = a.directoryStatus ∨ (change a).directoryStatus = .active)
    (deletion : ∀ a, test a = true → a.deletionStatus = .none → (change a).deletionStatus = .none) :
    Safe start { state with directory := state.directory.updateWhere id test change } := by
  apply Safe.write start state _ safe
  · apply moves_update
    intro before _
    split
    next holds =>
      exact permitted_of_harmless _ _ _ _ (role before) (status before holds) (fun _ => deletion before holds)
    next => exact permitted_of_harmless _ _ _ _ rfl (.inl rfl) (fun _ kept => kept)
  · intro other account found
    rw [Directory.updateWhere, Directory.find_update] at found
    split at found
    next same =>
      obtain ⟨before, there, rfl⟩ := Option.map_eq_some_iff.mp found
      refine ⟨before, same ▸ there, ?_⟩
      split
      · exact role before
      · rfl
    next => exact ⟨account, found, rfl⟩

theorem Safe.changeMembers (actor : GuardActor Id) (requestedRole : Role) (members : List Id)
    (state : State Id) (next : Directory Id) (safe : Safe start state)
    (done : changeMembers actor requestedRole state.directory members = .ok next) :
    Safe start { state with directory := next, giver := state.give actor members } := by
  induction members generalizing state with
  | nil =>
    obtain rfl := Except.ok.inj done
    refine ⟨safe.kept, safe.sound, ?_⟩
    intro id account role found given
    exact safe.ranked id account role found (by simpa [State.give] using given)
  | cons member members ih =>
    rw [People.changeMembers, List.foldlM_cons] at done
    obtain ⟨middle, first, done⟩ := bind_ok_iff.mp done
    unfold changeMember at first
    split at first
    · cases first
    next account found =>
      obtain ⟨_, rails, first⟩ := bind_ok_iff.mp first
      have plain := (roleChange_allowed _ _ _ _ rails).1
      have sound : Request.Sound start
          (⟨actor, ⟨member, account.role⟩, .changeRole requestedRole none⟩ : Request Id) := by
        refine ⟨rails, ?_⟩
        intro owned
        obtain ⟨held, there, role⟩ := (safe.kept.owners member).mpr owned
        obtain rfl : account = held := Option.some.inj (found.symm.trans there)
        exact plain role
      have moved := Request.moves _ state.directory middle sound.1 (safe.kept.person start _ _ sound) first
      have after : Safe start { state with directory := middle, giver := state.give actor [member] } := by
        refine ⟨safe.kept.moves start _ middle moved, safe.sound, ?_⟩
        intro id after role there given
        exact Safe.transact start state _ middle safe sound first id after role there given
      have whole := ih _ after done
      refine ⟨whole.kept, whole.sound, ?_⟩
      intro id last role there given
      apply whole.ranked id last role there
      simp only [State.give, List.mem_cons, List.not_mem_nil, or_false] at given ⊢
      by_cases later : id ∈ members
      · simpa [later] using given
      · simpa [later] using given

theorem Safe.step (event : Event Id) (safe : Safe start state) : Safe start (step state event) := by
  cases event with
  | submit actor id mutation =>
    simp only [People.step]
    split
    · exact safe
    next account found =>
      split
      next passed =>
        refine ⟨safe.kept, ?_, safe.ranked⟩
        intro request member
        rcases List.mem_cons.mp member with rfl | earlier
        · refine ⟨passed, ?_⟩
          intro owned
          obtain ⟨held, there, role⟩ := (safe.kept.owners id).mpr owned
          obtain rfl : account = held := Option.some.inj (found.symm.trans there)
          exact Request.rails_not_owner _ passed role
        · exact safe.sound request earlier
      next => exact safe
  | transact request =>
    simp only [People.step]
    split
    next member =>
      have sound := safe.sound request member
      have rest : ∀ other ∈ state.requests.erase request, other.Sound start :=
        fun other left => safe.sound other (List.mem_of_mem_erase left)
      split
      next next done =>
        have moved := request.moves state.directory next sound.1 (safe.kept.person start _ _ sound) done
        exact ⟨safe.kept.moves start _ next moved, rest,
          Safe.transact start state request next safe sound done⟩
      next => exact ⟨safe.kept, rest, safe.ranked⟩
    next => exact safe
  | abandon request =>
    exact ⟨safe.kept, fun other left => safe.sound other (List.mem_of_mem_erase left), safe.ranked⟩
  | changeMembers actor requestedRole members =>
    simp only [People.step]
    split
    next next done => exact safe.changeMembers start actor requestedRole members state next done
    next => exact safe
  | enable id | reactivate id =>
    exact safe.updateWhere start state id _ _ (fun _ => rfl) (fun _ _ => .inr rfl) (fun _ _ kept => kept)
  | cancelDeletion id =>
    exact safe.updateWhere start state id _ _ (fun _ => rfl) (fun _ _ => .inl rfl) (fun _ _ _ => rfl)
  | releaseHandover id | claimPurge id =>
    refine safe.updateWhere start state id _ _ (fun _ => rfl) (fun _ _ => .inl rfl) ?_
    intro account pinned unscheduled
    simp [unscheduled] at pinned
  | completeDeletion id =>
    simp only [People.step]
    split
    · exact safe
    next account found =>
      split
      next gone =>
        have person : account.role ≠ .owner := by
          intro owner
          have kept := safe.kept.unscheduled id account found owner
          rw [gone.2] at kept
          cases kept
        apply Safe.write start state _ safe
        · right
          refine ⟨id, account, found, ?_, ?_⟩
          · intro other apart
            rw [Directory.find_delete, if_neg apart]
          · rw [Directory.find_delete, if_pos rfl]
            constructor
            · exact fun owner => absurd owner person
            · intro _ left there
              cases there
            · intro operates
              simp [Account.operates, gone.1] at operates
        · intro other row there
          rw [Directory.find_delete] at there
          split at there
          · cases there
          · exact ⟨row, there, rfl⟩
      next => exact safe

theorem Safe.run (events : List (Event Id)) (safe : Safe start state) : Safe start (run state events) := by
  induction events generalizing state with
  | nil => exact safe
  | cons event events ih => exact ih _ (safe.step start state event)

theorem Start.safe (start : Start state)
    (operator : ∃ id account, state.directory.find id = some account ∧ account.operates = true) :
    Safe state.directory state := by
  refine ⟨⟨operator, fun _ => Iff.rfl, ?_, start.kept⟩, ?_, ?_⟩
  · intro id before account there _ found
    obtain rfl : before = account := Option.some.inj (there.symm.trans found)
    exact .inl rfl
  · intro request member
    rw [start.quiet] at member
    cases member
  · intro id account role _ given
    rw [start.fresh id] at given
    cases given

/-- In every run of guarded changes an operator is left, the owners are the same rows with the same role,
one of them is at most re-enabled, and nobody holds a role above that of the actor who gave it. -/
theorem operator_always_left (state : State Id) (events : List (Event Id)) (start : Start state)
    (operator : ∃ id account, state.directory.find id = some account ∧ account.operates = true) :
    (∃ id account, (run state events).directory.find id = some account ∧ account.operates = true) ∧
      (∀ id, (∃ account, (run state events).directory.find id = some account ∧ account.role = .owner) ↔
        ∃ account, state.directory.find id = some account ∧ account.role = .owner) ∧
      (∀ id before account, state.directory.find id = some before → before.role = .owner →
        (run state events).directory.find id = some account →
          account.role = .owner ∧ (account.directoryStatus = before.directoryStatus ∨
            before.directoryStatus = .deactivated ∧ account.directoryStatus = .active)) ∧
      ∀ id account role, (run state events).directory.find id = some account →
        (run state events).giver id = some role → account.role.rank ≤ role.rank := by
  have safe := (start.safe state operator).run state.directory state events
  refine ⟨safe.kept.operator, safe.kept.owners, ?_, safe.ranked⟩
  intro id before account there owner found
  obtain ⟨held, same, role⟩ := (safe.kept.owners id).mpr ⟨before, there, owner⟩
  obtain rfl : account = held := Option.some.inj (found.symm.trans same)
  refine ⟨role, ?_⟩
  rcases safe.kept.status id before account there owner found with kept | active
  · exact .inl kept
  · cases status : before.directoryStatus with
    | active => exact .inl active
    | deactivated => exact .inr ⟨rfl, active⟩

/-- Two admins, a guest, and an owner who is disabled. -/
def household : State ℕ where
  directory := ⟨[(0, ⟨.owner, .deactivated, .none⟩), (1, ⟨.admin, .active, .none⟩),
    (2, ⟨.admin, .active, .none⟩), (3, ⟨.guest, .active, .none⟩)], by decide⟩
  requests := []
  giver _ := none

theorem household_start : Start household := by
  refine ⟨rfl, fun _ => rfl, ?_⟩
  intro id account found owner
  rw [Directory.find_eq_some_iff] at found
  simp only [household, List.mem_cons, Prod.mk.injEq, List.not_mem_nil, or_false] at found
  rcases found with ⟨_, rfl⟩ | ⟨_, rfl⟩ | ⟨_, rfl⟩ | ⟨_, rfl⟩
  · rfl
  · cases owner
  · cases owner
  · cases owner

def rivalDemotions : List (Event ℕ) :=
  [.submit ⟨some 1, some .admin⟩ 2 (.changeRole .family none),
    .submit ⟨some 2, some .admin⟩ 1 (.changeRole .family none),
    .transact ⟨⟨some 1, some .admin⟩, ⟨2, .admin⟩, .changeRole .family none⟩,
    .transact ⟨⟨some 2, some .admin⟩, ⟨1, .admin⟩, .changeRole .family none⟩]

/-- Of two admins who demote each other one stays. -/
theorem rival_demotions_leave_one :
    (∃ id account, household.directory.find id = some account ∧ account.operates = true) ∧
      (run household rivalDemotions).directory.find 2 = some ⟨.family, .active, .none⟩ ∧
      ∃ id account, (run household rivalDemotions).directory.find id = some account ∧
        account.operates = true := by
  have operator : ∃ id account, household.directory.find id = some account ∧ account.operates = true :=
    ⟨1, ⟨.admin, .active, .none⟩, by decide, by decide⟩
  exact ⟨operator, by decide,
    (operator_always_left household rivalDemotions household_start operator).1⟩

/-- A disabled owner is re-enabled: the status of an owner's row does change. -/
theorem disabled_owner_enabled :
    Start household ∧ (∃ id account, household.directory.find id = some account ∧ account.operates = true) ∧
      household.directory.find 0 = some ⟨.owner, .deactivated, .none⟩ ∧
      (run household [.enable 0]).directory.find 0 = some ⟨.owner, .active, .none⟩ :=
  ⟨household_start, ⟨1, ⟨.admin, .active, .none⟩, by decide, by decide⟩, by decide, by decide⟩

end Droplet.People
