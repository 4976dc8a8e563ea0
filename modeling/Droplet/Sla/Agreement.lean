import Droplet.BusinessTime.Composition
import Droplet.Sla.Pass

/-! Due dates and status agree in one evaluation. The due date is computed forward, from
the start over the target and the pauses; the status backward, from the elapsed time at
the pause or now. -/

namespace Droplet.Sla

open ZonedTime BusinessTime Fallible

variable (intl : Intl)

/-- Business time from `floor` on adds up. -/
def Additive (calendar : Option BusinessCalendar) (floor : ℤ) : Prop :=
  ∀ a b c x y z, floor ≤ a → floor ≤ b → floor ≤ c →
    businessMsBetween intl a b calendar = .ok x → businessMsBetween intl b c calendar = .ok y →
    businessMsBetween intl a c calendar = .ok z → x + y = z

theorem additive_of_regular (calendar : Option BusinessCalendar) (floor : ℤ)
    (regular : Regular intl calendar floor) : Additive intl calendar floor := by
  intro a b c x y z fromA fromB fromC first second whole
  exact businessMsBetween_add intl a b c x y z floor calendar regular fromA fromB fromC first second whole

theorem additive_none (floor : ℤ) : Additive intl none floor := by
  apply additive_of_regular
  intro cal same
  cases same

section Due

variable {intl} {calendar : Option BusinessCalendar} {floor start due now since length : ℤ}

theorem due_le_iff (spent : ℤ) (nonneg : 0 ≤ length)
    (added : addBusinessMs intl start length calendar = .ok due) (after : start ≤ now)
    (measured : businessMsBetween intl start now calendar = .ok spent) : length ≤ spent ↔ due ≤ now := by
  obtain ⟨startDue, exact⟩ := between_of_add intl start length due calendar nonneg added
  constructor
  · intro enough
    by_contra early
    obtain ⟨v, short, less⟩ := between_before_add intl start length due now calendar nonneg added
      after (not_le.mp early)
    rw [measured] at short
    obtain rfl := Except.ok.inj short
    omega
  · intro passed
    obtain ⟨w, shorter, _, bound⟩ := businessMsBetween_shorten intl start now spent due calendar
      measured startDue passed
    rw [exact] at shorter
    obtain rfl := Except.ok.inj shorter
    exact bound

theorem due_le_iff_paused (additive : Additive intl calendar floor) (spent gap : ℤ)
    (fromStart : floor ≤ start) (order : start ≤ since) (paused : since ≤ now)
    (nonneg : 0 ≤ length) (added : addBusinessMs intl start (length + gap) calendar = .ok due)
    (atPause : businessMsBetween intl start since calendar = .ok spent)
    (inPause : businessMsBetween intl since now calendar = .ok gap) : length ≤ spent ↔ due ≤ now := by
  have gapNonneg := businessMsBetween_nonneg intl since now gap calendar paused inPause
  have total : 0 ≤ length + gap := by omega
  obtain ⟨startDue, exact⟩ := between_of_add intl start (length + gap) due calendar total added
  constructor
  · intro enough
    by_contra early
    obtain ⟨v, whole, less⟩ := between_before_add intl start (length + gap) due now calendar total
      added (by omega) (not_le.mp early)
    have sum := additive start since now spent gap v fromStart (by omega) (by omega) atPause inPause whole
    omega
  · intro passed
    by_cases inside : due ≤ since
    · obtain ⟨w, shorter, _, bound⟩ := businessMsBetween_shorten intl start since spent due calendar
        atPause startDue inside
      rw [exact] at shorter
      obtain rfl := Except.ok.inj shorter
      omega
    · obtain ⟨w, shorter, _, bound⟩ := businessMsBetween_shorten intl since now gap due calendar
        inPause (by omega) passed
      have sum := additive start since due spent w (length + gap) fromStart (by omega) (by omega)
        atPause shorter exact
      omega

theorem not_due_inside_pause (additive : Additive intl calendar floor) (before gap : ℤ)
    (fromSince : floor ≤ since) (order : since ≤ start) (within : start ≤ now) (positive : 0 < length)
    (added : addBusinessMs intl start (length + (gap - before)) calendar = .ok due)
    (atStart : businessMsBetween intl since start calendar = .ok before)
    (inPause : businessMsBetween intl since now calendar = .ok gap) : now < due := by
  obtain ⟨_, toStart, nonneg, bound⟩ := businessMsBetween_shorten intl since now gap start calendar
    inPause order within
  rw [atStart] at toStart
  obtain rfl := Except.ok.inj toStart
  have total : 0 ≤ length + (gap - before) := by omega
  obtain ⟨startDue, exact⟩ := between_of_add intl start _ due calendar total added
  by_contra passed
  obtain ⟨w, shorter, _, upTo⟩ := businessMsBetween_shorten intl since now gap due calendar inPause
    (by omega) (not_lt.mp passed)
  have sum := additive since start due before _ w fromSince (by omega) (by omega) atStart exact shorter
  omega

end Due

/-- The paused time taken out of a next-response cycle when it started at `started`: no
more than the closed pauses, or up to its start in the pause that is still open. -/
def Snapshot (calendar : Option BusinessCalendar) (pausedMs : ℤ) (pausedAt : Option ℤ)
    (excluded started : ℤ) : Prop :=
  match pausedAt with
  | none => excluded ≤ pausedMs
  | some since => (started ≤ since ∧ excluded ≤ pausedMs) ∨
      (since ≤ started ∧ ∃ before, businessMsBetween intl since started calendar = .ok before ∧
        excluded = pausedMs + before)

/-- What the callers see to: instants in order, and a clock that is not stopped. -/
structure Ordered (input : SlaClockInput) : Prop where
  unstopped : input.clock ≠ .STOPPED
  created : input.createdAt ≤ input.now
  paused : ∀ since, input.pausedAt = some since → input.createdAt ≤ since ∧ since ≤ input.now
  started : ∀ start, input.terms.nextResponseStartedAt = some start →
    input.createdAt ≤ start ∧ start ≤ input.now ∧
      Snapshot intl input.terms.calendar input.pausedMs input.pausedAt
        input.terms.nextResponsePausedMs start
  additive : Additive intl input.terms.calendar input.createdAt

/-- Forward and backward agree for targets of any length. -/
def Aligned (calendar : Option BusinessCalendar) (start now effectiveAt paused credit : ℤ) : Prop :=
  ∀ length due spent, 0 < length → addBusinessMs intl start (length + paused) calendar = .ok due →
    businessMsBetween intl start effectiveAt calendar = .ok spent →
    (length ≤ max 0 (spent - credit) ↔ due ≤ now)

theorem aligned_running (calendar : Option BusinessCalendar) (start now credit : ℤ)
    (order : start ≤ now) (nonneg : 0 ≤ credit) : Aligned intl calendar start now now credit credit := by
  intro length due spent positive added measured
  rw [← due_le_iff spent (by omega) added order measured]
  omega

theorem aligned_paused (calendar : Option BusinessCalendar) (floor start since now credit gap : ℤ)
    (additive : Additive intl calendar floor) (fromStart : floor ≤ start) (order : start ≤ since)
    (paused : since ≤ now) (nonneg : 0 ≤ credit) (inPause : businessMsBetween intl since now calendar = .ok gap) :
    Aligned intl calendar start now since (credit + gap) credit := by
  intro length due spent positive added measured
  rw [← add_assoc] at added
  rw [← due_le_iff_paused additive spent gap fromStart order paused (by omega) added measured inPause]
  omega

theorem aligned_inside (calendar : Option BusinessCalendar) (floor start since now before gap : ℤ)
    (additive : Additive intl calendar floor) (fromSince : floor ≤ since) (order : since ≤ start)
    (within : start ≤ now) (atStart : businessMsBetween intl since start calendar = .ok before)
    (inPause : businessMsBetween intl since now calendar = .ok gap) :
    Aligned intl calendar start now since (gap - before) 0 := by
  intro length due spent positive added measured
  have later := not_due_inside_pause additive before gap fromSince order within positive added atStart inPause
  have nonneg := businessMsBetween_nonneg intl since start before calendar order atStart
  have back := (businessMsBetween_swap intl start since spent calendar).mp measured
  rw [atStart] at back
  have negative := Except.ok.inj back
  omega

variable (input : SlaClockInput) (p : Pauses)

theorem pauses_ok (unstopped : input.clock ≠ .STOPPED) (returns : pauses intl input = .ok p) :
    ∃ accrued, accruedPause intl input.pausedAt input.now input.terms.calendar = .ok accrued ∧
      (input.clock = .RUNNING ∧ p = ⟨input.pausedMs + accrued, none, input.now,
          input.pausedMs + accrued⟩ ∨
        input.clock = .PAUSED ∧ p = ⟨input.pausedMs, some (input.pausedAt.getD input.now),
          input.pausedAt.getD input.now, input.pausedMs + accrued⟩) := by
  simp only [pauses] at returns
  rw [if_neg unstopped] at returns
  obtain ⟨accrued, accruedOk, rest⟩ := bind_ok_iff.mp returns
  rw [pure_ok_iff] at rest
  refine ⟨accrued, accruedOk, ?_⟩
  subst rest
  cases clock : input.clock with
  | RUNNING | PAUSED => simp
  | STOPPED => exact absurd clock unstopped

theorem accruedPause_nonneg (pausedAt : Option ℤ) (pauseEnd accrued : ℤ) (calendar : Option BusinessCalendar)
    (returns : accruedPause intl pausedAt pauseEnd calendar = .ok accrued) : 0 ≤ accrued := by
  cases pausedAt with
  | none => exact le_of_eq (Except.ok.inj returns)
  | some since =>
    obtain ⟨length, _, rest⟩ := bind_ok_iff.mp returns
    rw [pure_ok_iff] at rest
    omega

theorem accruedPause_some (since pauseEnd accrued : ℤ) (calendar : Option BusinessCalendar)
    (order : since ≤ pauseEnd) (returns : accruedPause intl (some since) pauseEnd calendar = .ok accrued) :
    businessMsBetween intl since pauseEnd calendar = .ok accrued := by
  obtain ⟨length, measured, rest⟩ := bind_ok_iff.mp returns
  have nonneg := businessMsBetween_nonneg intl since pauseEnd length calendar order measured
  rw [pure_ok_iff] at rest
  rw [measured]
  congr 1
  omega

theorem creation_aligned (ordered : Ordered intl input) (nonneg : 0 ≤ input.pausedMs)
    (returns : pauses intl input = .ok p) :
    Aligned intl input.terms.calendar input.createdAt input.now p.effectiveAt p.deadlinePaused
      (max 0 p.pausedMs) := by
  obtain ⟨accrued, accruedOk, shape⟩ := pauses_ok intl input p ordered.unstopped returns
  have accruedNonneg := accruedPause_nonneg intl _ _ _ _ accruedOk
  rcases shape with ⟨_, rfl⟩ | ⟨_, rfl⟩
  · simp only [max_eq_right (add_nonneg nonneg accruedNonneg)]
    exact aligned_running intl _ _ _ _ ordered.created (by omega)
  · simp only [max_eq_right nonneg]
    cases pausedAt : input.pausedAt with
    | none =>
      rw [pausedAt] at accruedOk
      have zero : 0 = accrued := Except.ok.inj accruedOk
      simp only [← zero, add_zero, Option.getD_none]
      exact aligned_running intl _ _ _ _ ordered.created nonneg
    | some since =>
      rw [pausedAt] at accruedOk
      obtain ⟨low, high⟩ := ordered.paused since pausedAt
      have inPause := accruedPause_some intl since input.now accrued _ high accruedOk
      exact aligned_paused intl _ _ _ _ _ _ _ ordered.additive le_rfl low high nonneg inPause

theorem cycle_aligned (start : ℤ) (ordered : Ordered intl input) (returns : pauses intl input = .ok p)
    (started : input.terms.nextResponseStartedAt = some start) :
    Aligned intl input.terms.calendar start input.now p.effectiveAt
      (max 0 (p.deadlinePaused - input.terms.nextResponsePausedMs))
      (max 0 (p.pausedMs - input.terms.nextResponsePausedMs)) := by
  obtain ⟨accrued, accruedOk, shape⟩ := pauses_ok intl input p ordered.unstopped returns
  obtain ⟨fromStart, order, snapshot⟩ := ordered.started start started
  rcases shape with ⟨_, rfl⟩ | ⟨_, rfl⟩
  · exact aligned_running intl _ _ _ _ order (le_max_left _ _)
  · cases pausedAt : input.pausedAt with
    | none =>
      rw [pausedAt] at accruedOk
      have zero : 0 = accrued := Except.ok.inj accruedOk
      simp only [← zero, add_zero, Option.getD_none]
      exact aligned_running intl _ _ _ _ order (le_max_left _ _)
    | some since =>
      rw [pausedAt] at accruedOk snapshot
      obtain ⟨low, high⟩ := ordered.paused since pausedAt
      have inPause := accruedPause_some intl since input.now accrued _ high accruedOk
      have nonneg := accruedPause_nonneg intl _ _ _ _ accruedOk
      simp only [Option.getD_some]
      rcases snapshot with ⟨before, bound⟩ | ⟨inside, taken, toStart, excluded⟩
      · have paused : max 0 (input.pausedMs + accrued - input.terms.nextResponsePausedMs) =
            max 0 (input.pausedMs - input.terms.nextResponsePausedMs) + accrued := by omega
        rw [paused]
        exact aligned_paused intl _ _ _ _ _ _ _ ordered.additive fromStart before high
          (le_max_left _ _) inPause
      · obtain ⟨_, same, takenNonneg, upTo⟩ := businessMsBetween_shorten intl since input.now
          accrued start _ inPause inside order
        rw [toStart] at same
        obtain rfl := Except.ok.inj same
        have paused : max 0 (input.pausedMs + accrued - input.terms.nextResponsePausedMs) =
            accrued - taken := by omega
        have credit : max 0 (input.pausedMs - input.terms.nextResponsePausedMs) = 0 := by omega
        rw [paused, credit]
        exact aligned_inside intl _ _ _ _ _ _ _ ordered.additive low inside order toStart inPause

theorem target_aligned (ordered : Ordered intl input) (nonneg : 0 ≤ input.pausedMs)
    (returns : pauses intl input = .ok p) (target : Target) (member : target ∈ targets input p)
    (active : target.active = true) :
    completionOf input target.name = none ∧
      Aligned intl input.terms.calendar target.start input.now p.effectiveAt target.paused
        (creditOf input p target.name) := by
  have fromCreation := creation_aligned intl input p ordered nonneg returns
  simp only [targets, List.mem_cons, List.not_mem_nil, or_false] at member
  rcases member with rfl | rfl | rfl
  · refine ⟨by simpa [completionOf] using active, ?_⟩
    simpa [creditOf] using fromCreation
  · refine ⟨rfl, ?_⟩
    obtain ⟨start, started⟩ := Option.isSome_iff_exists.mp active
    simp only [started, Option.getD_some, creditOf, if_true]
    exact cycle_aligned intl input p start ordered returns started
  · refine ⟨by simpa [completionOf] using active, ?_⟩
    simpa [creditOf] using fromCreation

theorem readTarget_ok (target : Target) (reading : Reading)
    (returns : readTarget intl input p target = .ok (some reading)) :
    0 < target.mins ∧ reading.name = target.name ∧ reading.mins = target.mins ∧
      reading.active = target.active ∧
      addBusinessMs intl target.start (target.mins * 60000 + target.paused) input.terms.calendar =
        .ok reading.due ∧
      (∃ spent, businessMsBetween intl target.start
          ((completionOf input target.name).getD p.effectiveAt) input.terms.calendar = .ok spent ∧
        reading.elapsed = max 0 (spent - creditOf input p target.name)) ∧
      (reading.candidate = .BREACHED ↔ (target.mins : ℤ) * 60000 ≤ reading.elapsed) ∧
      (target.active = false → reading.left = none) ∧
      (target.active = true → ∃ running,
        businessMsBetween intl target.start p.effectiveAt input.terms.calendar = .ok running ∧
        reading.left = some (max 0 ((target.mins : ℤ) * 60000 -
          max 0 (running - creditOf input p target.name)))) := by
  unfold readTarget at returns
  split at returns
  · cases returns
  next some_mins =>
    split at returns
    · cases returns
    · obtain ⟨due, added, rest⟩ := bind_ok_iff.mp returns
      obtain ⟨spent, measured, last⟩ := bind_ok_iff.mp rest
      have breached : ∀ elapsed length : ℤ, ∀ atRisk : Prop, ∀ _ : Decidable atRisk,
          ((if elapsed ≥ length then SlaStatus.BREACHED
            else if atRisk then .AT_RISK else .ON_TRACK) = .BREACHED ↔ length ≤ elapsed) := by
        intro elapsed length atRisk _
        split
        · next reached => simp [reached]
        · next short => split <;> simp [short]
      cases active : target.active with
      | false =>
        simp only [active, Bool.false_eq_true, if_false, pure_bind, pure_ok_iff, Option.some.injEq] at last
        subst last
        exact ⟨by omega, rfl, rfl, rfl, added, ⟨spent, measured, rfl⟩, breached _ _ _ _,
          fun _ => rfl, by simp⟩
      | true =>
        simp only [active, if_true, bind_ok_iff, pure_bind, pure_ok_iff, Option.some.injEq] at last
        obtain ⟨running, runningOk, rfl⟩ := last
        exact ⟨by omega, rfl, rfl, rfl, added, ⟨spent, measured, rfl⟩, breached _ _ _ _,
          by simp, fun _ => ⟨running, runningOk, rfl⟩⟩

theorem mem_readTargets (list : List Target) (readings : List Reading)
    (returns : readTargets intl input p list = .ok readings) (reading : Reading)
    (member : reading ∈ readings) : ∃ target ∈ list, readTarget intl input p target = .ok (some reading) := by
  induction list generalizing readings with
  | nil =>
    obtain rfl := Except.ok.inj returns
    cases member
  | cons target rest ih =>
    obtain ⟨first, firstOk, tail⟩ := bind_ok_iff.mp returns
    obtain ⟨others, othersOk, last⟩ := bind_ok_iff.mp tail
    rw [pure_ok_iff] at last
    subst last
    rcases List.mem_append.mp member with here | later
    · rw [Option.mem_toList] at here
      exact ⟨target, List.mem_cons_self, here ▸ firstOk⟩
    · obtain ⟨found, inRest, readOk⟩ := ih others othersOk later
      exact ⟨found, List.mem_cons_of_mem target inRest, readOk⟩

theorem readTargets_names (list : List Target) (readings : List Reading)
    (returns : readTargets intl input p list = .ok readings) :
    (readings.map Reading.name).Sublist (list.map Target.name) := by
  induction list generalizing readings with
  | nil =>
    obtain rfl := Except.ok.inj returns
    exact List.Sublist.refl _
  | cons target rest ih =>
    obtain ⟨first, firstOk, tail⟩ := bind_ok_iff.mp returns
    obtain ⟨others, othersOk, last⟩ := bind_ok_iff.mp tail
    rw [pure_ok_iff] at last
    subst last
    have below := ih others othersOk
    cases first with
    | none => exact below.cons target.name
    | some reading =>
      have name := (readTarget_ok intl input p target reading firstOk).2.1
      simp only [Option.toList_some, List.cons_append, List.nil_append, List.map_cons, name]
      exact below.cons_cons target.name

theorem dueOf_eq_some_iff (readings : List Reading) (name : SlaMetric) (due : ℤ)
    (once : (readings.map Reading.name).Nodup) :
    dueOf readings name = some due ↔
      ∃ reading ∈ readings, reading.active = true ∧ reading.name = name ∧ reading.due = due := by
  induction readings with
  | nil => simp [dueOf]
  | cons first rest ih =>
    simp only [List.map_cons, List.nodup_cons] at once
    by_cases mine : first.active = true ∧ first.name = name
    · have others : ∀ reading ∈ rest, reading.name ≠ name := by
        intro reading member same
        apply once.1
        rw [mine.2, ← same]
        exact List.mem_map_of_mem member
      simp only [dueOf, List.find?_cons, mine.1, mine.2, decide_true, Bool.and_self,
        Option.map_some, Option.some.injEq, List.mem_cons, exists_eq_or_imp, true_and]
      constructor
      · exact Or.inl
      · intro found
        rcases found with here | ⟨reading, member, _, same, _⟩
        · exact here
        · exact absurd same (others reading member)
    · have skipped : (first.active && decide (first.name = name)) = false := by
        simpa using mine
      have tail := ih once.2
      simp only [dueOf] at tail
      simp only [dueOf, List.find?_cons, skipped, tail, List.mem_cons, exists_eq_or_imp]
      constructor
      · exact Or.inr
      · intro found
        rcases found with here | later
        · exact absurd ⟨here.1, here.2.1⟩ mine
        · exact later

theorem leastLeft_eq_zero (remaining left : Option ℤ) (first : ∀ r, remaining = some r → 0 ≤ r)
    (second : ∀ l, left = some l → 0 ≤ l) :
    (leastLeft remaining left = some 0 ↔ remaining = some 0 ∨ left = some 0) ∧
      ∀ r, leastLeft remaining left = some r → 0 ≤ r := by
  cases remaining with
  | none => simpa [leastLeft] using second
  | some r =>
    cases left with
    | none => simpa [leastLeft] using first
    | some l =>
      have rNonneg := first r rfl
      have lNonneg := second l rfl
      simp only [leastLeft, Option.some.injEq]
      exact ⟨by omega, by omega⟩

theorem foldl_judge_remaining (readings : List Reading) (so_far : Judgement)
    (first : ∀ r, so_far.remaining = some r → 0 ≤ r)
    (lefts : ∀ reading ∈ readings, ∀ l, reading.left = some l → 0 ≤ l) :
    (readings.foldl judge so_far).remaining = some 0 ↔
      so_far.remaining = some 0 ∨ ∃ reading ∈ readings, reading.left = some 0 := by
  induction readings generalizing so_far with
  | nil => simp
  | cons reading rest ih =>
    have step := leastLeft_eq_zero so_far.remaining reading.left first (lefts reading List.mem_cons_self)
    have tail := ih (judge so_far reading) step.2
      (fun other member => lefts other (List.mem_cons_of_mem reading member))
    rw [List.foldl_cons, tail]
    simp only [judge, step.1, List.mem_cons, exists_eq_or_imp, or_assoc]

def slaReadings (input : SlaClockInput) : Result (List Reading) := do
  let p ← pauses intl input
  readTargets intl input p (targets input p)

def SlaClockResult.dueAt (result : SlaClockResult) : SlaMetric → Option ℤ
  | .firstResponse => result.firstResponseDueAt
  | .nextResponse => result.nextResponseDueAt
  | .resolution => result.resolutionDueAt

/-- The due dates of an evaluation are those of its active readings; such a reading is
breached, and its time used up, exactly when its due date has come; and no time remains
exactly when one is. -/
structure Agrees (now : ℤ) (readings : List Reading) (result : SlaClockResult) : Prop where
  dues : ∀ name due, result.dueAt name = some due ↔
    ∃ reading ∈ readings, reading.active = true ∧ reading.name = name ∧ reading.due = due
  elapsed : ∀ reading ∈ readings, reading.active = true →
    ((reading.mins : ℤ) * 60000 ≤ reading.elapsed ↔ reading.due ≤ now)
  breached : ∀ reading ∈ readings, reading.active = true →
    (reading.candidate = .BREACHED ↔ reading.due ≤ now)
  remaining : result.remainingBusinessMs = some 0 ↔
    ∃ reading ∈ readings, reading.active = true ∧ reading.candidate = .BREACHED

theorem conclude_dueAt (readings : List Reading) (name : SlaMetric) :
    (conclude input p readings).dueAt name = dueOf readings name := by
  cases name <;> rfl

theorem evaluateSla_ok_iff (result : SlaClockResult) :
    evaluateSla intl input = .ok result ↔ 0 ≤ input.pausedMs ∧ input.pausedMs ≤ MAX_SAFE_INTEGER ∧
      ∃ p readings, pauses intl input = .ok p ∧
        readTargets intl input p (targets input p) = .ok readings ∧
        result = conclude input p readings := by
  simp only [evaluateSla]
  split
  · next invalid =>
    simp only [throw_bind, reduceCtorEq, false_iff]
    intro found
    omega
  · next valid =>
    simp only [bind_ok_iff, pure_ok_iff]
    constructor
    · intro found
      obtain ⟨p, pOk, readings, readingsOk, same⟩ := found
      exact ⟨by omega, by omega, p, readings, pOk, readingsOk, same.symm⟩
    · intro found
      obtain ⟨_, _, p, readings, pOk, readingsOk, same⟩ := found
      exact ⟨p, pOk, readings, readingsOk, same.symm⟩

theorem readTargets_active (readings : List Reading) (ordered : Ordered intl input)
    (nonneg : 0 ≤ input.pausedMs) (pOk : pauses intl input = .ok p)
    (readingsOk : readTargets intl input p (targets input p) = .ok readings) (reading : Reading)
    (member : reading ∈ readings) (active : reading.active = true) :
    ((reading.mins : ℤ) * 60000 ≤ reading.elapsed ↔ reading.due ≤ input.now) ∧
      (reading.candidate = .BREACHED ↔ (reading.mins : ℤ) * 60000 ≤ reading.elapsed) ∧
      ∃ left, reading.left = some left ∧ 0 ≤ left ∧
        (left = 0 ↔ (reading.mins : ℤ) * 60000 ≤ reading.elapsed) := by
  obtain ⟨target, inTargets, readOk⟩ := mem_readTargets intl input p _ readings readingsOk reading member
  obtain ⟨some_mins, _, mins, activity, added, ⟨spent, measured, elapsed⟩, candidate, _, left⟩ :=
    readTarget_ok intl input p target reading readOk
  rw [active] at activity
  obtain ⟨open_metric, aligned⟩ := target_aligned intl input p ordered nonneg pOk target inTargets
    activity.symm
  rw [open_metric, Option.getD_none] at measured
  obtain ⟨running, runningOk, leftEq⟩ := left activity.symm
  rw [measured] at runningOk
  obtain rfl := Except.ok.inj runningOk
  have agree := aligned (target.mins * 60000) reading.due spent (by omega) added measured
  rw [mins, elapsed]
  rw [elapsed] at candidate
  exact ⟨agree, candidate, _, leftEq, by omega, by omega⟩

theorem readTargets_inactive (readings : List Reading)
    (readingsOk : readTargets intl input p (targets input p) = .ok readings) (reading : Reading)
    (member : reading ∈ readings) (inactive : reading.active = false) : reading.left = none := by
  obtain ⟨target, _, readOk⟩ := mem_readTargets intl input p _ readings readingsOk reading member
  obtain ⟨_, _, _, activity, _, _, _, none, _⟩ := readTarget_ok intl input p target reading readOk
  exact none (activity.symm.trans inactive)

theorem evaluation_agrees (readings : List Reading) (ordered : Ordered intl input)
    (nonneg : 0 ≤ input.pausedMs) (pOk : pauses intl input = .ok p)
    (readingsOk : readTargets intl input p (targets input p) = .ok readings) :
    Agrees input.now readings (conclude input p readings) := by
  have once : (readings.map Reading.name).Nodup := by
    apply (readTargets_names intl input p _ readings readingsOk).nodup
    simp [targets]
  have elapsed := readTargets_active intl input p readings ordered nonneg pOk readingsOk
  have unread := readTargets_inactive intl input p readings readingsOk
  constructor
  · intro name due
    rw [conclude_dueAt, dueOf_eq_some_iff readings name due once]
  · intro reading member active
    exact (elapsed reading member active).1
  · intro reading member active
    obtain ⟨agree, candidate, _⟩ := elapsed reading member active
    exact candidate.trans agree
  · have lefts : ∀ reading ∈ readings, ∀ l, reading.left = some l → 0 ≤ l := by
      intro reading member l left
      cases active : reading.active with
      | false => simp [unread reading member active] at left
      | true =>
        obtain ⟨_, _, other, same, nonneg, _⟩ := elapsed reading member active
        rw [left] at same
        obtain rfl := Option.some.inj same
        exact nonneg
    simp only [conclude, foldl_judge_remaining readings ⟨.ON_TRACK, none, none⟩ (by simp) lefts,
      reduceCtorEq, false_or]
    constructor
    · intro found
      obtain ⟨reading, member, zero⟩ := found
      cases active : reading.active with
      | false => simp [unread reading member active] at zero
      | true =>
        obtain ⟨_, candidate, left, same, _, used⟩ := elapsed reading member active
        rw [zero] at same
        obtain rfl := Option.some.inj same
        exact ⟨reading, member, active, candidate.mpr (used.mp rfl)⟩
    · intro found
      obtain ⟨reading, member, active, breached⟩ := found
      obtain ⟨_, candidate, left, same, _, used⟩ := elapsed reading member active
      exact ⟨reading, member, by rw [same, used.mpr (candidate.mp breached)]⟩

end Droplet.Sla
