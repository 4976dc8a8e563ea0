import Droplet.Confirm.Challenges

/-! What the approvals of a chat release: over any run of calls a token goes out once, for the call the
owner of its challenge approved. -/

namespace Droplet.Confirm

variable {Summary : Type} {opts : ChatApprovalStoreOptions Summary}

structure Later (call : ChatCall) (before after : ApprovalEntry Summary) : Prop where
  same : after = { before with status := after.status }
  final : before.status ≠ .pending → before.status ≠ .approved → after.status = before.status
  pending : after.status = .pending → before.status = .pending
  approved : after.status = .approved → before.status = .approved ∨
    ∃ now, call = .approve before.challengeId before.userId now ∧ before.status = .pending ∧
      now < before.expiresAt

theorem Later.refl (call : ChatCall) (entry : ApprovalEntry Summary) : Later call entry entry :=
  ⟨rfl, fun _ _ => rfl, id, .inl⟩

variable {call : ChatCall}

theorem Later.id {before after : ApprovalEntry Summary} (later : Later call before after) :
    after.challengeId = before.challengeId := by
  rw [later.same]

theorem settle_cases (now : ℤ) (entry : ApprovalEntry Summary) :
    settle now entry = entry ∧
        ((entry.status = .pending ∨ entry.status = .approved) → now < entry.expiresAt) ∨
      settle now entry = { entry with status := .expired } ∧
        (entry.status = .pending ∨ entry.status = .approved) := by
  unfold settle
  split
  next late => exact .inr ⟨rfl, late.1⟩
  next other =>
    refine .inl ⟨rfl, ?_⟩
    intro live
    by_contra late
    exact other ⟨live, not_lt.mp late⟩

theorem settle_id (now : ℤ) (entry : ApprovalEntry Summary) :
    (settle now entry).challengeId = entry.challengeId := by
  rcases settle_cases now entry with same | expired
  · rw [same.1]
  · rw [expired.1]

theorem later_settle (call : ChatCall) (now : ℤ) (entry : ApprovalEntry Summary) :
    Later call entry (settle now entry) := by
  rcases settle_cases now entry with same | expired
  · rw [same.1]
    exact .refl call entry
  · rw [expired.1]
    refine ⟨rfl, ?_, nofun, nofun⟩
    intro notPending notApproved
    exact absurd expired.2 (not_or.mpr ⟨notPending, notApproved⟩)

variable {entry : ApprovalEntry Summary} {status : ChatApprovalStatus}

theorem settle_eq {now : ℤ} (live : status = .pending ∨ status = .approved)
    (settled : (settle now entry).status = status) :
    settle now entry = entry ∧ entry.status = status ∧ now < entry.expiresAt := by
  rcases settle_cases now entry with same | expired
  · rw [same.1] at settled
    exact ⟨same.1, settled, same.2 (settled ▸ live)⟩
  · rw [expired.1] at settled
    rw [← settled] at live
    simp at live

variable {entries : Entries Summary}

theorem mem_setEntry {entry held : ApprovalEntry Summary} (inside : held ∈ setEntry entries entry) :
    held = entry ∨ held ∈ entries ∧ held.challengeId ≠ entry.challengeId := by
  unfold setEntry at inside
  split at inside
  next =>
    obtain ⟨old, there, rfl⟩ := List.mem_map.mp inside
    by_cases same : old.challengeId = entry.challengeId
    · exact .inl (if_pos same)
    · rw [if_neg same]
      exact .inr ⟨there, same⟩
  next absent =>
    rcases List.mem_append.mp inside with old | new
    · refine .inr ⟨old, ?_⟩
      intro same
      exact absent (List.any_eq_true.mpr ⟨held, old, by simpa using same⟩)
    · exact .inl (List.mem_singleton.mp new)

theorem setEntry_ids (once : (entries.map ApprovalEntry.challengeId).Nodup) :
    ((setEntry entries entry).map ApprovalEntry.challengeId).Nodup := by
  unfold setEntry
  split
  next =>
    have same : (entries.map fun held =>
        if held.challengeId = entry.challengeId then entry else held).map ApprovalEntry.challengeId =
        entries.map ApprovalEntry.challengeId := by
      rw [List.map_map]
      apply List.map_congr_left
      intro held _
      by_cases equal : held.challengeId = entry.challengeId
      · simp [equal]
      · simp [equal]
    rw [same]
    exact once
  next absent =>
    rw [List.map_append]
    refine List.Nodup.append once (List.nodup_singleton _) ?_
    intro challengeId there new
    obtain ⟨held, inside, rfl⟩ := List.mem_map.mp there
    exact absent (List.any_eq_true.mpr ⟨held, inside, by simpa using List.mem_singleton.mp new⟩)

theorem setEntry_length (entries : Entries Summary) (entry : ApprovalEntry Summary) :
    (setEntry entries entry).length ≤ entries.length + 1 ∧
      (∀ held ∈ entries, held.challengeId = entry.challengeId →
        (setEntry entries entry).length = entries.length) := by
  unfold setEntry
  split
  next => simp
  next absent =>
    refine ⟨by simp, ?_⟩
    intro held inside same
    exact absurd (List.any_eq_true.mpr ⟨held, inside, by simpa using same⟩) absent

variable {challengeId : String}

theorem mem_of_getEntry (found : getEntry entries challengeId = some entry) :
    entry ∈ entries ∧ entry.challengeId = challengeId :=
  ⟨List.mem_of_find?_eq_some found, by simpa using List.find?_some found⟩

theorem later_setEntry {entry next : ApprovalEntry Summary} (inside : entry ∈ entries)
    (later : Later call entry next) :
    ∀ after ∈ setEntry entries next, ∃ before ∈ entries, Later call before after := by
  intro after there
  rcases mem_setEntry there with rfl | old
  · exact ⟨entry, inside, later⟩
  · exact ⟨after, old.1, .refl call after⟩

theorem evictOldest_suffix' (maxEntries : ℕ) (entries : Entries Summary) :
    evictOldest maxEntries entries <:+ entries := by
  induction entries with
  | nil => exact List.suffix_rfl
  | cons oldest rest ih =>
    rw [evictOldest]
    split
    · exact ih.trans (List.suffix_cons oldest rest)
    · exact List.suffix_rfl

theorem evictOldest_length {maxEntries : ℕ} (room : 1 ≤ maxEntries) (entries : Entries Summary) :
    (evictOldest maxEntries entries).length < maxEntries := by
  induction entries with
  | nil => exact room
  | cons oldest rest ih =>
    rw [evictOldest]
    split
    · exact ih
    · omega

variable (isMatch check : ApprovalEntry Summary → Bool)

theorem takeFirst_ids (now : ℤ) (entries : Entries Summary) :
    (takeFirst isMatch check now entries).1.map ApprovalEntry.challengeId =
      entries.map ApprovalEntry.challengeId := by
  induction entries with
  | nil => rfl
  | cons entry rest ih =>
    simp only [takeFirst]
    split
    · split <;> simp [settle_id, ih]
    · simp [ih]

theorem takeFirst_later (call : ChatCall) (isMatch check : ApprovalEntry Summary → Bool) (now : ℤ)
    (entries : Entries Summary) :
    ∀ after ∈ (takeFirst isMatch check now entries).1, ∃ before ∈ entries,
      Later call before after := by
  induction entries with
  | nil => simp [takeFirst]
  | cons entry rest ih =>
    have others : ∀ after ∈ (takeFirst isMatch check now rest).1, ∃ before ∈ entry :: rest,
        Later call before after := by
      intro after there
      obtain ⟨before, inside, later⟩ := ih after there
      exact ⟨before, .tail _ inside, later⟩
    simp only [takeFirst]
    split
    · split
      next taken =>
        obtain ⟨same, approved, _⟩ := settle_eq (.inr rfl) taken.1
        rw [same, List.forall_mem_cons]
        refine ⟨⟨entry, .head _, rfl, ?_, nofun, nofun⟩, ?_⟩
        · intro _ other
          exact absurd approved other
        · exact fun after there => ⟨after, .tail _ there, .refl call after⟩
      next =>
        rw [List.forall_mem_cons]
        exact ⟨⟨entry, .head _, later_settle call now entry⟩, others⟩
    · rw [List.forall_mem_cons]
      exact ⟨⟨entry, .head _, .refl call entry⟩, others⟩

theorem takeFirst_taken (now : ℤ)
    (entries : Entries Summary) :
    (takeFirst isMatch check now entries).2 = entries.find? (fun entry =>
      isMatch entry && decide (entry.status = .approved ∧ now < entry.expiresAt) && check entry) := by
  induction entries with
  | nil => rfl
  | cons entry rest ih =>
    simp only [takeFirst]
    split
    next isMatched =>
      split
      next taken =>
        obtain ⟨same, approved, inTime⟩ := settle_eq (.inr rfl) taken.1
        rw [same] at taken ⊢
        rw [List.find?_cons_of_pos]
        simp [isMatched, approved, inTime, taken.2]
      next other =>
        rw [List.find?_cons_of_neg, ih]
        intro fits
        simp only [Bool.and_eq_true, decide_eq_true_eq] at fits
        obtain ⟨⟨_, approved, inTime⟩, passes⟩ := fits
        have same : settle now entry = entry := if_neg (fun late => absurd inTime (not_lt.mpr late.2))
        exact other ⟨by rw [same, approved], by rw [same, passes]⟩
    next unmatched => rw [List.find?_cons_of_neg (by simp [unmatched]), ih]

theorem takeFirst_spent (now : ℤ) (entries : Entries Summary) :
    ∀ entry ∈ (takeFirst isMatch check now entries).2,
      { entry with status := .spent } ∈ (takeFirst isMatch check now entries).1 := by
  induction entries with
  | nil => simp [takeFirst]
  | cons head rest ih =>
    simp only [takeFirst]
    split
    · split
      next =>
        intro entry taken
        cases Option.mem_some.mp taken
        exact .head _
      next => exact fun entry taken => .tail _ (ih entry taken)
    · exact fun entry taken => .tail _ (ih entry taken)

theorem resolve_later {challengeId userId : String} {now : ℤ}
    (granted : status = .denied ∨ status = .approved ∧ call = .approve challengeId userId now) :
    ∀ after ∈ (resolve status entries challengeId userId now).1, ∃ before ∈ entries,
      Later call before after := by
  unfold resolve
  cases found : getEntry entries challengeId with
  | none => exact fun after there => ⟨after, there, .refl call after⟩
  | some entry =>
    obtain ⟨inside, same⟩ := mem_of_getEntry found
    have settled := later_setEntry inside (later_settle call now entry)
    dsimp only
    split
    · exact fun after there => ⟨after, there, .refl call after⟩
    next owned =>
      split
      · exact settled
      · split
        · exact settled
        next pending =>
          obtain ⟨kept, was, inTime⟩ := settle_eq (.inl rfl) (not_not.mp pending)
          rw [kept]
          apply later_setEntry inside
          refine ⟨rfl, fun other => absurd was other, ?_, ?_⟩
          · intro still
            rcases granted with denied | approved
            · cases still.symm.trans denied
            · cases still.symm.trans approved.1
          · intro now_approved
            rcases granted with denied | approved
            · cases now_approved.symm.trans denied
            · refine .inr ⟨now, ?_, was, inTime⟩
              rw [approved.2, same, not_not.mp owned]

theorem perform_later (opts : ChatApprovalStoreOptions Summary) (entries : Entries Summary) (call : ChatCall) :
    ∀ after ∈ (perform opts entries call).1, (∃ before ∈ entries, Later call before after) ∨
      ∃ input, call = .register input after.challengeId ∧
        after = entryOf opts input after.challengeId := by
  intro after there
  cases call with
  | register input challengeId =>
    rcases mem_setEntry there with rfl | old
    · exact .inr ⟨input, rfl, rfl⟩
    · exact .inl ⟨after, (evictOldest_suffix' _ entries).subset old.1, .refl _ after⟩
  | get challengeId now =>
    left
    change after ∈ (get entries challengeId now).1 at there
    unfold get at there
    cases found : getEntry entries challengeId with
    | none =>
      rw [found] at there
      exact ⟨after, there, .refl _ after⟩
    | some entry =>
      rw [found] at there
      exact later_setEntry (mem_of_getEntry found).1 (later_settle _ now entry) after there
  | approve challengeId userId now => exact .inl (resolve_later (.inr ⟨rfl, rfl⟩) after there)
  | deny challengeId userId now => exact .inl (resolve_later (.inl rfl) after there)
  | claimGrant tool args userId now => exact .inl (takeFirst_later _ _ _ now entries after there)
  | takeNextApproved userId threadId now =>
    exact .inl (takeFirst_later _ _ _ now entries after there)

theorem resolve_entries (status : ChatApprovalStatus) (entries : Entries Summary)
    (challengeId userId : String) (now : ℤ) :
    (resolve status entries challengeId userId now).1 = entries ∨
      ∃ entry next, entry ∈ entries ∧ next.challengeId = entry.challengeId ∧
        (resolve status entries challengeId userId now).1 = setEntry entries next := by
  unfold resolve
  cases found : getEntry entries challengeId with
  | none => exact .inl rfl
  | some entry =>
    have inside := (mem_of_getEntry found).1
    have settled := settle_id now entry
    dsimp only
    split
    · exact .inl rfl
    · split
      · exact .inr ⟨entry, _, inside, settled, rfl⟩
      · split
        · exact .inr ⟨entry, _, inside, settled, rfl⟩
        · exact .inr ⟨entry, { settle now entry with status := status }, inside, settled, rfl⟩

theorem perform_entries (opts : ChatApprovalStoreOptions Summary) (entries : Entries Summary)
    (call : ChatCall) (room : 1 ≤ opts.maxEntries) (few : entries.length ≤ opts.maxEntries)
    (once : (entries.map ApprovalEntry.challengeId).Nodup) :
    ((perform opts entries call).1.map ApprovalEntry.challengeId).Nodup ∧
      (perform opts entries call).1.length ≤ opts.maxEntries := by
  have written : ∀ entry next : ApprovalEntry Summary, entry ∈ entries →
      next.challengeId = entry.challengeId →
      ((setEntry entries next).map ApprovalEntry.challengeId).Nodup ∧
        (setEntry entries next).length ≤ opts.maxEntries := by
    intro entry next inside same
    refine ⟨setEntry_ids once, ?_⟩
    rw [(setEntry_length entries next).2 entry inside same.symm]
    exact few
  have resolved : ∀ status challengeId userId now,
      ((resolve status entries challengeId userId now).1.map ApprovalEntry.challengeId).Nodup ∧
        (resolve status entries challengeId userId now).1.length ≤ opts.maxEntries := by
    intro status challengeId userId now
    rcases resolve_entries status entries challengeId userId now with same | changed
    · rw [same]
      exact ⟨once, few⟩
    · obtain ⟨entry, next, inside, same, changed⟩ := changed
      rw [changed]
      exact written entry next inside same
  have taken : ∀ isMatch check now,
      ((takeFirst isMatch check now entries).1.map ApprovalEntry.challengeId).Nodup ∧
        (takeFirst isMatch check now entries).1.length ≤ opts.maxEntries := by
    intro isMatch check now
    have same := takeFirst_ids isMatch check now entries
    have length := congrArg List.length same
    rw [List.length_map, List.length_map] at length
    exact ⟨same ▸ once, length ▸ few⟩
  cases call with
  | register input challengeId =>
    have kept := (evictOldest_suffix' opts.maxEntries entries).sublist
    refine ⟨setEntry_ids (once.sublist (kept.map _)), ?_⟩
    have space := evictOldest_length room entries
    exact le_trans (setEntry_length _ _).1 space
  | get challengeId now =>
    change ((get entries challengeId now).1.map ApprovalEntry.challengeId).Nodup ∧
      (get entries challengeId now).1.length ≤ opts.maxEntries
    unfold get
    cases found : getEntry entries challengeId with
    | none => exact ⟨once, few⟩
    | some entry => exact written entry _ (mem_of_getEntry found).1 (settle_id now entry)
  | approve | deny => exact resolved _ _ _ _
  | claimGrant | takeNextApproved => exact taken _ _ _

theorem resolve_foreign (status : ChatApprovalStatus) (entries : Entries Summary)
    (challengeId userId : String) (now : ℤ)
    (foreign : ∀ held ∈ entries, held.challengeId = challengeId → held.userId ≠ userId) :
    (resolve status entries challengeId userId now).1 = entries := by
  unfold resolve
  cases found : getEntry entries challengeId with
  | none => rfl
  | some entry =>
    obtain ⟨inside, same⟩ := mem_of_getEntry found
    simp only [if_pos (foreign entry inside same)]

def ChatCall.newId : ChatCall → Option String
  | .register _ challengeId => some challengeId
  | _ => none

def Registered (log : List (Happened Summary)) (input : RegisterChallengeInput)
    (challengeId : String) : Prop :=
  ∃ earlier ∈ log, earlier.call = .register input challengeId

/-- The owner approved the challenge while it was pending and in time. -/
def ApprovedBefore (log : List (Happened Summary)) (entry : ApprovalEntry Summary) : Prop :=
  ∃ earlier ∈ log, ∃ now, earlier.call = .approve entry.challengeId entry.userId now ∧
    ∃ held ∈ earlier.found, held.challengeId = entry.challengeId ∧ held.status = .pending ∧
      now < held.expiresAt

variable {input : RegisterChallengeInput}

theorem Registered.append {log : List (Happened Summary)} (known : Registered log input challengeId)
    (more : List (Happened Summary)) : Registered (log ++ more) input challengeId := by
  obtain ⟨earlier, inside, same⟩ := known
  exact ⟨earlier, List.mem_append_left _ inside, same⟩

/-- What the calls so far say of the entries that are held. -/
structure Vouches (opts : ChatApprovalStoreOptions Summary) (store : ChatStore Summary) : Prop where
  ids : (store.entries.map ApprovalEntry.challengeId).Nodup
  room : store.entries.length ≤ opts.maxEntries
  registered : ∀ held ∈ store.entries, ∃ input, Registered store.log input held.challengeId ∧
    held = { entryOf opts input held.challengeId with status := held.status }
  approved : ∀ held ∈ store.entries, held.status = .approved → ApprovedBefore store.log held
  spent : ∀ happened ∈ store.log, ∀ entry ∈ happened.taken,
    (∃ input, Registered store.log input entry.challengeId) ∧
      ∀ held ∈ store.entries, held.challengeId = entry.challengeId → held.status = .spent

theorem perform_taken (entries : Entries Summary) (call : ChatCall) :
    ∀ entry ∈ (perform opts entries call).2.2, entry ∈ entries ∧ entry.status = .approved ∧
      { entry with status := .spent } ∈ (perform opts entries call).1 := by
  have taken : ∀ isMatch check now, ∀ entry ∈ (takeFirst isMatch check now entries).2,
      entry ∈ entries ∧ entry.status = .approved ∧
        { entry with status := .spent } ∈ (takeFirst isMatch check now entries).1 := by
    intro isMatch check now entry member
    have spent := takeFirst_spent isMatch check now entries entry member
    rw [takeFirst_taken, Option.mem_def] at member
    have fits := List.find?_some member
    simp only [Bool.and_eq_true, decide_eq_true_eq] at fits
    exact ⟨List.mem_of_find?_eq_some member, fits.1.2.1, spent⟩
  intro entry member
  cases call with
  | claimGrant | takeNextApproved => exact taken _ _ _ entry member
  | _ => cases member

theorem Vouches.step {store : ChatStore Summary} (vouches : Vouches opts store) (call : ChatCall)
    (room : 1 ≤ opts.maxEntries)
    (fresh : ∀ challengeId ∈ call.newId, ∀ input, ¬ Registered store.log input challengeId) :
    Vouches opts (store.step opts call) := by
  obtain ⟨ids, few⟩ := perform_entries opts store.entries call room vouches.room vouches.ids
  have later := perform_later opts store.entries call
  have taken := @perform_taken Summary opts store.entries call
  refine ⟨ids, few, ?_, ?_, ?_⟩
  · intro held inside
    rcases later held inside with kept | new
    · obtain ⟨before, there, later⟩ := kept
      obtain ⟨input, known, same⟩ := vouches.registered before there
      rw [later.id]
      refine ⟨input, known.append _, ?_⟩
      calc
        held = { before with status := held.status } := later.same
        _ = { { entryOf opts input before.challengeId with status := before.status } with
              status := held.status } := by rw [← same]
        _ = { entryOf opts input before.challengeId with status := held.status } := rfl
    · obtain ⟨input, registers, same⟩ := new
      refine ⟨input, ⟨_, List.mem_append_right _ (List.mem_singleton_self _), registers⟩, ?_⟩
      rw [same]
      rfl
  · intro held inside granted
    rcases later held inside with kept | new
    · obtain ⟨before, there, later⟩ := kept
      rcases later.approved granted with already | now_approved
      · obtain ⟨earlier, before_it, now, approves, found⟩ := vouches.approved before there already
        rw [later.same]
        exact ⟨earlier, List.mem_append_left _ before_it, now, approves, found⟩
      · obtain ⟨now, approves, pending, inTime⟩ := now_approved
        rw [later.same]
        exact ⟨_, List.mem_append_right _ (List.mem_singleton_self _), now, approves, before, there,
          rfl, pending, inTime⟩
    · obtain ⟨input, _, same⟩ := new
      rw [same] at granted
      cases granted
  · intro happened inside entry member
    have known : ∃ input, Registered store.log input entry.challengeId := by
      rcases List.mem_append.mp inside with before | now
      · exact (vouches.spent happened before entry member).1
      · rw [List.mem_singleton.mp now] at member
        obtain ⟨input, known, _⟩ := vouches.registered entry (taken entry member).1
        exact ⟨input, known⟩
    obtain ⟨input, known⟩ := known
    refine ⟨⟨input, known.append _⟩, ?_⟩
    intro held there same
    rcases List.mem_append.mp inside with before | now
    · rcases later held there with kept | new
      · obtain ⟨old, was, later⟩ := kept
        have spent := (vouches.spent happened before entry member).2 old was (later.id ▸ same)
        rw [later.final (by rw [spent]; nofun) (by rw [spent]; nofun)]
        exact spent
      · obtain ⟨other, registers, _⟩ := new
        rw [same] at registers
        exact absurd known (fresh entry.challengeId (by rw [registers]; rfl) input)
    · rw [List.mem_singleton.mp now] at member
      have spent := (taken entry member).2.2
      rw [List.inj_on_of_nodup_map ids there spent same]

variable (calls : List ChatCall)

theorem after_snoc (call : ChatCall) :
    ChatStore.after opts (calls ++ [call]) = (ChatStore.after opts calls).step opts call := by
  rw [ChatStore.after, Stepping.run_append]
  rfl

theorem after_calls : (ChatStore.after opts calls).log.map Happened.call = calls := by
  induction calls using List.reverseRecOn with
  | nil => rfl
  | append_singleton calls call ih =>
    rw [after_snoc]
    simp only [ChatStore.step, List.map_append, ih, List.map_cons, List.map_nil]

/-- Ids that `randomBytes` never gives twice. -/
def DistinctIds (calls : List ChatCall) : Prop := (calls.filterMap ChatCall.newId).Nodup

theorem DistinctIds.fresh {calls : List ChatCall} {rest : List ChatCall}
    (distinct : DistinctIds (calls ++ call :: rest)) :
    ∀ challengeId ∈ call.newId, challengeId ∉ calls.filterMap ChatCall.newId := by
  intro challengeId new before
  rw [DistinctIds, List.filterMap_append, List.filterMap_cons_some new] at distinct
  exact List.disjoint_of_nodup_append distinct before (.head _)

theorem Registered.newId {calls : List ChatCall}
    (known : Registered (ChatStore.after opts calls).log input challengeId) :
    challengeId ∈ calls.filterMap ChatCall.newId := by
  obtain ⟨earlier, inside, registers⟩ := known
  rw [← @after_calls Summary opts calls]
  exact List.mem_filterMap.mpr ⟨earlier.call, List.mem_map_of_mem inside, by rw [registers]; rfl⟩

theorem DistinctIds.first {calls rest : List ChatCall} (distinct : DistinctIds (calls ++ rest)) :
    DistinctIds calls := by
  rw [DistinctIds, List.filterMap_append] at distinct
  exact distinct.of_append_left

theorem vouches_after (distinct : DistinctIds calls) (room : 1 ≤ opts.maxEntries) :
    Vouches opts (ChatStore.after opts calls) := by
  induction calls using List.reverseRecOn with
  | nil => constructor <;> simp [ChatStore.after]
  | append_singleton calls call ih =>
    rw [after_snoc]
    apply (ih distinct.first).step call room
    exact fun challengeId new _ known => distinct.fresh challengeId new known.newId

def ChatApprovalStatus.Final (status : ChatApprovalStatus) : Prop :=
  status ≠ .pending ∧ status ≠ .approved

/-- A challenge keeps its status, and from some call on none of its tokens is released. -/
structure Closed (challengeId : String) (status : ChatApprovalStatus) (from_ : ℕ)
    (store : ChatStore Summary) : Prop where
  status : ∀ held ∈ store.entries, held.challengeId = challengeId → held.status = status
  released : ∀ happened ∈ store.log.drop from_, ∀ entry ∈ happened.taken,
    entry.challengeId ≠ challengeId

theorem Closed.step {from_ : ℕ} {store : ChatStore Summary}
    (closed : Closed challengeId status from_ store) (final : status.Final) (call : ChatCall)
    (other : call.newId ≠ some challengeId) (before : from_ ≤ store.log.length) :
    Closed challengeId status from_ (store.step opts call) := by
  constructor
  · intro held inside same
    rcases perform_later opts store.entries call held inside with kept | new
    · obtain ⟨old, there, later⟩ := kept
      have was := closed.status old there (later.id ▸ same)
      rw [← was] at final
      rw [later.final final.1 final.2, was]
    · obtain ⟨input, registers, _⟩ := new
      rw [registers, same] at other
      exact absurd rfl other
  · intro happened inside entry member same
    simp only [ChatStore.step] at inside
    rw [List.drop_append_of_le_length before] at inside
    rcases List.mem_append.mp inside with earlier | now
    · exact closed.released happened earlier entry member same
    · rw [List.mem_singleton.mp now] at member
      obtain ⟨there, approved, _⟩ := perform_taken store.entries call entry member
      exact final.2 ((closed.status entry there same).symm.trans approved)

theorem after_length : (ChatStore.after opts calls).log.length = calls.length := by
  rw [← List.length_map (f := Happened.call), after_calls]

theorem closed_after (first second : List ChatCall) (distinct : DistinctIds (first ++ second))
    (room : 1 ≤ opts.maxEntries) :
    ∀ held ∈ (ChatStore.after opts first).entries, held.status.Final →
      Closed held.challengeId held.status first.length (ChatStore.after opts (first ++ second)) := by
  intro held inside final
  induction second using List.reverseRecOn with
  | nil =>
    rw [List.append_nil]
    constructor
    · intro again there same
      have ids := (vouches_after first distinct.first room).ids
      rw [List.inj_on_of_nodup_map ids there inside same]
    · rw [List.drop_of_length_le (after_length first).le]
      simp
  | append_singleton second call ih =>
    rw [← List.append_assoc] at distinct ⊢
    rw [after_snoc]
    apply (ih distinct.first).step final call
    · intro new
      obtain ⟨input, known, _⟩ := (vouches_after first distinct.first.first room).registered held inside
      apply distinct.fresh held.challengeId new
      rw [List.filterMap_append]
      exact List.mem_append_left _ known.newId
    · rw [after_length, List.length_append]
      omega

def ChatOutcome.released : ChatOutcome Summary → Option String
  | .token handed => handed
  | .call taken => taken.map ApprovedCall.token
  | _ => none

/-- The call may have the token of the entry at its instant: it is the call that was challenged, or the
next one of the conversation, handed back as it was registered. -/
def Fits (opts : ChatApprovalStoreOptions Summary) (happened : Happened Summary)
    (entry : ApprovalEntry Summary) : Prop :=
  match happened.call with
  | .claimGrant tool args userId now => entry.userId = userId ∧ now < entry.expiresAt ∧
      confirmationBindingHash opts.sha256 tool args =
        confirmationBindingHash opts.sha256 entry.tool entry.args
  | .takeNextApproved userId threadId now => entry.userId = userId ∧ now < entry.expiresAt ∧
      entry.threadId = threadId ∧ happened.outcome =
        .call (some ⟨entry.challengeId, entry.tool, entry.args, entry.token⟩)
  | _ => False

/-- Whose token was released, after the calls so far. -/
structure Released (opts : ChatApprovalStoreOptions Summary) (earlier : List (Happened Summary))
    (happened : Happened Summary) (entry : ApprovalEntry Summary) : Prop where
  registered : ∃ input, Registered earlier input entry.challengeId ∧
    entry = { entryOf opts input entry.challengeId with status := .approved }
  approved : ApprovedBefore earlier entry
  once : ∀ before ∈ earlier, ∀ other ∈ before.taken, other.challengeId ≠ entry.challengeId
  fits : Fits opts happened entry

/-- The grants a conversation has at an instant. -/
def eligible (userId : String) (threadId : Option String) (now : ℤ)
    (entry : ApprovalEntry Summary) : Bool :=
  entry.userId = userId ∧ entry.threadId = threadId ∧ entry.status = .approved ∧
    now < entry.expiresAt

/-- A call hands out the token of an entry that the calls so far vouch for, the oldest there is. -/
structure Sound (opts : ChatApprovalStoreOptions Summary) (earlier : List (Happened Summary))
    (happened : Happened Summary) : Prop where
  token : happened.outcome.released = happened.taken.map ApprovalEntry.token
  released : ∀ entry ∈ happened.taken, Released opts earlier happened entry
  oldest : ∀ userId threadId now, happened.call = .takeNextApproved userId threadId now →
    happened.taken = happened.found.find? (eligible userId threadId now)

variable (store : ChatStore Summary)

theorem perform_fits (vouches : Vouches opts store) (call : ChatCall) :
    ∀ entry ∈ (perform opts store.entries call).2.2,
      Fits opts ⟨store.entries, call, (perform opts store.entries call).2.1,
        (perform opts store.entries call).2.2⟩ entry := by
  intro entry member
  have hash : ∀ held ∈ store.entries, held.bindingHash =
      confirmationBindingHash opts.sha256 held.tool held.args := by
    intro held inside
    obtain ⟨input, _, same⟩ := vouches.registered held inside
    rw [same]
    rfl
  have bound := hash entry (perform_taken store.entries call entry member).1
  cases call with
  | claimGrant tool args userId now =>
    have found := Option.mem_def.mp member
    simp only [perform, claimGrant] at found
    rw [takeFirst_taken] at found
    have fits := List.find?_some found
    simp only [Bool.and_eq_true, decide_eq_true_eq] at fits
    exact ⟨fits.1.1.1, fits.1.2.2, fits.1.1.2.symm.trans bound⟩
  | takeNextApproved userId threadId now =>
    have found := Option.mem_def.mp member
    have taken : (takeNextApproved opts store.entries userId threadId now).2 = some entry := found
    simp only [perform, takeNextApproved] at found
    rw [takeFirst_taken] at found
    have fits := List.find?_some found
    simp only [Bool.and_eq_true, decide_eq_true_eq] at fits
    refine ⟨fits.1.1.1, fits.1.2.2, fits.1.1.2, ?_⟩
    simp only [perform, taken]
    rfl
  | _ => cases member

theorem sound_step (vouches : Vouches opts store) (call : ChatCall) :
    Sound opts store.log ⟨store.entries, call, (perform opts store.entries call).2.1,
      (perform opts store.entries call).2.2⟩ := by
  refine ⟨?_, ?_, ?_⟩
  · cases call with
    | takeNextApproved userId threadId now =>
      simp only [perform, ChatOutcome.released, Option.map_map]
      rfl
    | _ => rfl
  · intro entry member
    obtain ⟨inside, approved, _⟩ := perform_taken store.entries call entry member
    refine ⟨?_, vouches.approved entry inside approved, ?_, perform_fits store vouches call entry member⟩
    · obtain ⟨input, known, same⟩ := vouches.registered entry inside
      rw [approved] at same
      exact ⟨input, known, same⟩
    · intro before there other taken same
      have spent := (vouches.spent before there other taken).2 entry inside same.symm
      cases spent.symm.trans approved
  · intro userId threadId now is_call
    cases is_call
    simp only [perform, takeNextApproved]
    rw [takeFirst_taken]
    apply List.find?_congr
    intro held inside
    obtain ⟨input, _, same⟩ := vouches.registered held inside
    have bound : confirmationBindingHash opts.sha256 held.tool held.args = held.bindingHash := by
      rw [same]
      rfl
    simp only [eligible, bound, decide_true, Bool.and_true, Bool.decide_and]
    simp only [Bool.and_assoc]

theorem run_log (calls : List ChatCall) :
    (Stepping.run (ChatStore.step opts) store calls).log =
      store.log ++ (Stepping.run (ChatStore.step opts) ⟨store.entries, []⟩ calls).log := by
  induction calls generalizing store with
  | nil => simp
  | cons call rest ih =>
    rw [Stepping.run_cons, Stepping.run_cons, ih, ih (ChatStore.step opts ⟨store.entries, []⟩ call)]
    simp [ChatStore.step]

theorem outcomes_without (calls later : List ChatCall) (call : ChatCall)
    (still : (perform opts (ChatStore.after opts calls).entries call).1 =
      (ChatStore.after opts calls).entries) :
    (ChatStore.after opts (calls ++ call :: later)).log.drop (calls.length + 1) =
      (ChatStore.after opts (calls ++ later)).log.drop calls.length := by
  have length := @after_length Summary opts calls
  rw [ChatStore.after, ChatStore.after, Stepping.run_append, Stepping.run_append, Stepping.run_cons,
    run_log, run_log (Stepping.run (ChatStore.step opts) ⟨[], []⟩ calls) later]
  rw [ChatStore.after] at length still
  rw [List.drop_append_of_le_length length.ge, List.drop_append_of_le_length (by
    simp [ChatStore.step, length]), List.drop_of_length_le (by simp [ChatStore.step, length]),
    List.drop_of_length_le length.le]
  simp only [ChatStore.step, still]

/-- Over any run of calls a token goes out for the call its owner approved, once and in time, and always
of the oldest grant; a challenge that is denied, expired or spent stays so; the store keeps its bound; and
who does not own a challenge changes nothing by approving or denying it. -/
theorem chat_write_runs_once_as_approved (calls : List ChatCall) (distinct : DistinctIds calls)
    (room : 1 ≤ opts.maxEntries) :
    Histories.Each (Sound opts) (ChatStore.after opts calls).log ∧
    (∀ first second, calls = first ++ second → ∀ held ∈ (ChatStore.after opts first).entries,
      held.status.Final → Closed held.challengeId held.status first.length
        (ChatStore.after opts calls)) ∧
    (ChatStore.after opts calls).entries.length ≤ opts.maxEntries ∧
    ∀ challengeId userId now, (∀ held ∈ (ChatStore.after opts calls).entries,
        held.challengeId = challengeId → held.userId ≠ userId) →
      ∀ call ∈ [ChatCall.approve challengeId userId now, .deny challengeId userId now], ∀ later,
        (ChatStore.after opts (calls ++ call :: later)).log.drop (calls.length + 1) =
          (ChatStore.after opts (calls ++ later)).log.drop calls.length := by
  refine ⟨?_, ?_, (vouches_after calls distinct room).room, ?_⟩
  · induction calls using List.reverseRecOn with
    | nil => exact Histories.each_nil
    | append_singleton calls call ih =>
      rw [after_snoc]
      exact (ih distinct.first).append (sound_step _ (vouches_after calls distinct.first room) call)
  · intro first second same held inside final
    subst same
    exact closed_after first second distinct room held inside final
  · intro challengeId userId now foreign call chosen later
    apply outcomes_without
    rcases List.mem_cons.mp chosen with rfl | denies
    · exact resolve_foreign .approved _ challengeId userId now foreign
    · rw [List.mem_singleton.mp denies]
      exact resolve_foreign .denied _ challengeId userId now foreign

def smallOptions : ChatApprovalStoreOptions Unit := ⟨String.ofList, fun _ _ => (), 1⟩

def claimedTwice : List ChatCall :=
  [.register ⟨"device_control", [], "secret", 10, "alice", none⟩ "c0", .approve "c0" "alice" 1,
    .claimGrant "device_control" [] "alice" 2, .claimGrant "device_control" [] "alice" 3]

theorem claimed_twice_runs_once :
    Histories.Each (Sound smallOptions) (ChatStore.after smallOptions claimedTwice).log ∧
      (ChatStore.after smallOptions claimedTwice).log.map (fun happened => happened.outcome.released) =
        [none, none, some "secret", none] :=
  ⟨(chat_write_runs_once_as_approved claimedTwice (by unfold DistinctIds; decide)
    (by decide)).1, by decide⟩

end Droplet.Confirm
