import Droplet.Audit.DailyRoot
import Droplet.Lib.Spans

/-! The chain of daily roots over whole runs: every root is of the day behind the last one,
and its span begins where the last one ended. -/

namespace Droplet.Audit

open Gregorian Decimal ZonedTime IsoText

/-- The text of a day of the years a root can have. -/
structure IsDay (n : ℤ) (date : String) : Prop where
  low : 0 ≤ (ofDay n).year
  high : (ofDay n).year ≤ 9999
  text : date = String.ofList (ymdText (ofDay n).year.natAbs (ofDay n).month (ofDay n).day)

theorem dayOf_midnight (n : ℤ) : dayOf (n * DAY_MS) = n :=
  Int.mul_ediv_cancel n (by decide)

theorem utcDateString_ok (instant : ℤ) (date : String) (written : utcDateString instant = .ok date) :
    |instant| ≤ MAX_TIME ∧ date = String.ofList ((isoText instant).take 10) := by
  unfold utcDateString toISOString at written
  by_cases inside : |instant| ≤ MAX_TIME
  · simp only [if_pos inside, String.toList_ofList, Except.ok.injEq] at written
    exact ⟨inside, written.symm⟩
  · simp only [if_neg inside] at written
    cases written

theorem isoText_take (instant : ℤ) (low : 0 ≤ (ofDay (dayOf instant)).year)
    (high : (ofDay (dayOf instant)).year ≤ 9999) :
    (isoText instant).take 10 = ymdText (ofDay (dayOf instant)).year.natAbs
      (ofDay (dayOf instant)).month (ofDay (dayOf instant)).day := by
  have year : yearText (ofDay (dayOf instant)).year = fixed 4 (ofDay (dayOf instant)).year.natAbs := by
    rw [yearText, if_pos ⟨low, high⟩]
  rw [isoText, year, List.take_left' (by simp [dayText_length])]
  simp [ymdText, dayText]

theorem isoText_take_signed (instant : ℤ) (outside : ¬ (0 ≤ (ofDay (dayOf instant)).year ∧
    (ofDay (dayOf instant)).year ≤ 9999)) :
    ∃ sign rest, sign.isDigit = false ∧ (isoText instant).take 10 = sign :: rest := by
  have year : ∃ sign rest, sign.isDigit = false ∧ yearText (ofDay (dayOf instant)).year = sign :: rest := by
    rw [yearText, if_neg outside]
    split
    · exact ⟨'-', _, rfl, rfl⟩
    · exact ⟨'+', _, rfl, rfl⟩
  obtain ⟨sign, rest, other, text⟩ := year
  exact ⟨sign, _, other, by simp only [isoText, text, List.cons_append, List.take_succ_cons]; rfl⟩

theorem utcDateString_midnight (n : ℤ) (date : String)
    (written : utcDateString (n * DAY_MS) = .ok date) : IsDay n date ∨ matchYmd date = none := by
  obtain ⟨_, text⟩ := utcDateString_ok _ _ written
  by_cases range : 0 ≤ (ofDay n).year ∧ (ofDay n).year ≤ 9999
  · left
    have shown := isoText_take (n * DAY_MS)
    rw [dayOf_midnight] at shown
    exact ⟨range.1, range.2, by rw [text, shown range.1 range.2]⟩
  · right
    have shown := isoText_take_signed (n * DAY_MS)
    rw [dayOf_midnight] at shown
    obtain ⟨sign, rest, other, letters⟩ := shown range
    cases matched : matchYmd date with
    | none => rfl
    | some parsed =>
      have digit := matchYmd_head date parsed sign rest (by rw [text, String.toList_ofList, letters]) matched
      rw [other] at digit
      cases digit

variable {date : String} {n : ℤ}

section

variable (day : IsDay n date)
include day

theorem IsDay.bounds : -719528 ≤ n ∧ n ≤ 2932896 := by
  refine ⟨?_, ofDay_le n day.high⟩
  have spec := yearOf_spec n
  have years : daysBeforeYear 0 ≤ daysBeforeYear (yearOf n) :=
    daysBeforeYear_strictMono.monotone day.low
  have start : daysBeforeYear 0 = -719528 := by decide
  omega

theorem IsDay.inside : |n * DAY_MS| ≤ MAX_TIME := by
  obtain ⟨low, high⟩ := day.bounds
  rw [abs_le]
  simp only [DAY_MS, MAX_TIME]
  constructor <;> omega

theorem IsDay.utcDateString : utcDateString (n * DAY_MS) = .ok date := by
  have shown := isoText_take (n * DAY_MS)
  rw [dayOf_midnight] at shown
  simp only [Audit.utcDateString, toISOString, if_pos day.inside, String.toList_ofList,
    shown day.low day.high, day.text]

theorem IsDay.matchYmd : matchYmd date = some ((ofDay n).year.natAbs, (ofDay n).month, (ofDay n).day) := by
  obtain ⟨month, ofMonth⟩ := valid_small (ofDay n) (ofDay_valid n)
  have low := day.low
  have high := day.high
  rw [day.text]
  exact matchYmd_ymdText _ _ _ (by omega) month ofMonth

theorem IsDay.parseMidnight : parseMidnight date = some (n * DAY_MS) := by
  have valid := ofDay_valid n
  have inMonth := daysInMonth_le (isLeap (ofDay n).year) (ofDay n).month valid.1 valid.2.1
  have range : 1 ≤ (ofDay n).month ∧ (ofDay n).month ≤ 12 ∧ 1 ≤ (ofDay n).day ∧ (ofDay n).day ≤ 31 := by
    obtain ⟨_, _, _, _⟩ := valid
    omega
  have year : (((ofDay n).year.natAbs : ℕ) : ℤ) = (ofDay n).year := by
    have low := day.low
    omega
  have parsed : parsedDay date = some n := by
    simp only [parsedDay, day.matchYmd, if_pos range, year]
    exact congrArg some (toDay_ofDay n)
  simp only [Audit.parseMidnight, parsed, if_pos day.inside]

theorem IsDay.endOfUtcDay : endOfUtcDay date = some ((n + 1) * DAY_MS) := by
  rw [Audit.endOfUtcDay, day.parseMidnight, Option.map_some, Int.add_mul, Int.one_mul]

theorem IsDay.lt_iff {m : ℤ} {other : String} (dayToo : IsDay m other) : date < other ↔ n < m := by
  obtain ⟨low, high, text⟩ := day
  obtain ⟨lowToo, highToo, textToo⟩ := dayToo
  obtain ⟨month, ofMonth⟩ := valid_small (ofDay n) (ofDay_valid n)
  obtain ⟨monthToo, ofMonthToo⟩ := valid_small (ofDay m) (ofDay_valid m)
  have codes := code_lt_iff (ofDay n) (ofDay m) (ofDay_valid n) (ofDay_valid m)
  rw [toDay_ofDay, toDay_ofDay] at codes
  rw [text, textToo, String.lt_iff_toList_lt, String.toList_ofList, String.toList_ofList, ← codes,
    ymdText_lt _ _ _ _ _ _ (by omega) month ofMonth (by omega) monthToo ofMonthToo]
  simp only [code]
  omega

theorem IsDay.unique {m : ℤ} (dayToo : IsDay m date) : n = m := by
  have before := day.lt_iff dayToo
  have after := dayToo.lt_iff day
  rw [lt_self_iff_false, false_iff] at before after
  omega

end

/-- The next root is of the next day, covers the rows behind and carries the hash. -/
structure Follows (root next : DailyRoot) : Prop where
  day : ∀ n, IsDay n root.date → IsDay (n + 1) next.date
  span : Spans.Abuts DailyRoot.firstRowId DailyRoot.lastRowId root next
  linked : next.prevRootHash = root.rootHash

structure RootsInv (roots : List DailyRoot) : Prop where
  days : ∀ root ∈ roots, ∃ n, IsDay n root.date
  chain : roots.IsChain Follows
  origin : ∀ root ∈ roots.head?, root.prevRootHash = ""

def Expects (roots : List DailyRoot) (n : ℤ) : Prop :=
  ∀ last ∈ roots.getLast?, IsDay (n - 1) last.date

theorem RootsInv.empty : RootsInv [] := ⟨by simp, .nil, by simp⟩

theorem day_at (root : DailyRoot) (rest : List DailyRoot) (n : ℤ) (day : IsDay n root.date)
    (chain : (root :: rest).IsChain Follows) (i : ℕ) (other : DailyRoot)
    (found : (root :: rest)[i]? = some other) : IsDay (n + i) other.date := by
  induction rest generalizing root n i with
  | nil =>
    cases i with
    | zero =>
      cases found
      simpa using day
    | succ i => simp at found
  | cons next rest ih =>
    cases i with
    | zero =>
      cases found
      simpa using day
    | succ i =>
      obtain ⟨follows, later⟩ := List.isChain_cons_cons.mp chain
      have there := ih next (n + 1) (follows.day n day) later i found
      have shift : n + 1 + (i : ℤ) = n + ((i + 1 : ℕ) : ℤ) := by
        push_cast
        ring
      rwa [shift] at there

variable {roots : List DailyRoot}

theorem RootsInv.consecutive (inv : RootsInv roots) :
    ∃ day : ℤ, ∀ (i : ℕ) root, roots[i]? = some root → IsDay (day + i) root.date := by
  cases roots with
  | nil => exact ⟨0, by simp⟩
  | cons root rest =>
    obtain ⟨n, day⟩ := inv.days root List.mem_cons_self
    exact ⟨n, fun i other found => day_at root rest n day inv.chain i other found⟩

theorem RootsInv.ascending (inv : RootsInv roots) : roots.Pairwise (fun a b => a.date < b.date) := by
  obtain ⟨day, days⟩ := inv.consecutive
  rw [List.pairwise_iff_getElem]
  intro i j boundI boundJ less
  have first := days i _ (List.getElem?_eq_getElem boundI)
  have second := days j _ (List.getElem?_eq_getElem boundJ)
  rw [first.lt_iff second]
  omega

theorem RootsInv.newest (inv : RootsInv roots) : greatest DailyRoot.date roots = roots.getLast? :=
  greatest_ascending DailyRoot.date roots inv.ascending

theorem RootsInv.date_fresh (inv : RootsInv roots) (n : ℤ) (date : String)
    (expects : Expects roots n) (day : IsDay n date) (root : DailyRoot) (member : root ∈ roots) :
    root.date ≠ date := by
  rcases List.eq_nil_or_concat roots with rfl | ⟨front, last, rfl⟩
  · cases member
  · rw [List.concat_eq_append] at member
    have ascending := inv.ascending
    rw [List.concat_eq_append, List.pairwise_append] at ascending
    have later : last.date < date :=
      ((expects last (by simp)).lt_iff day).mpr (by omega)
    rcases List.mem_append.mp member with earlier | same
    · apply ne_of_lt
      calc
        root.date < last.date := ascending.2.2 root earlier last (by simp)
        _ < date := later
    · rw [List.mem_singleton.mp same]
      exact ne_of_lt later

variable {Key : Type} (digests : Digests Key)

variable (rows : List ActivityRow)

theorem rootSpan_none (prevRoot : Option DailyRoot) (tail : Option ActivityRow)
    (nothing : rootSpan digests rows prevRoot tail = .ok none) : prevRoot = none := by
  cases prevRoot with
  | none => rfl
  | some prev =>
    cases tail with
    | none => cases nothing
    | some row =>
      simp only [rootSpan] at nothing
      split at nothing <;> cases nothing

theorem rootSpan_some (prev : DailyRoot) (tail : Option ActivityRow) (span : RootSpan)
    (found : rootSpan digests rows (some prev) tail = .ok (some span)) :
    span.firstRowId = prev.lastRowId + 1 ∧ prev.lastRowId ≤ span.lastRowId := by
  cases tail with
  | none =>
    cases found
    exact ⟨rfl, le_rfl⟩
  | some row =>
    simp only [rootSpan] at found
    split at found
    · next beyond =>
      cases found
      exact ⟨rfl, by simp only; omega⟩
    · cases found
      exact ⟨rfl, le_rfl⟩

theorem signDailyRootForDate_cases (identity : DailyRootSigner) (roots next : List DailyRoot)
    (date : String) (outcome : SignOutcome)
    (returns : signDailyRootForDate digests rows identity roots date = .ok (next, outcome)) :
    (∃ parsed, matchYmd date = some parsed) ∧ ((next = roots ∧ ∃ root ∈ roots, root.date = date) ∨
      (next = roots ∧ greatest DailyRoot.date roots = none) ∨
      ∃ tail span signed,
        rootSpan digests rows (greatest DailyRoot.date roots) tail = .ok (some span) ∧
        next = roots ++ [storedRoot digests
          (rootContent rows (greatest DailyRoot.date roots) date span) span signed]) := by
  unfold signDailyRootForDate at returns
  split at returns
  · cases returns
  · next parsed matched =>
    refine ⟨⟨parsed, matched⟩, ?_⟩
    split at returns
    · next root found =>
      cases returns
      exact .inl ⟨rfl, root, List.mem_of_find?_eq_some found, by simpa using List.find?_some found⟩
    · split at returns
      · cases returns
      · simp only at returns
        split at returns
        · cases returns
        · next nothing =>
          cases returns
          exact .inr (.inl ⟨rfl, rootSpan_none digests _ _ _ nothing⟩)
        · next span found =>
          split at returns
          · cases returns
          · next signed _ =>
            cases returns
            exact .inr (.inr ⟨_, span, signed, found, rfl⟩)

theorem RootsInv.append (inv : RootsInv roots) (root : DailyRoot) (n : ℤ)
    (expects : Expects roots n) (day : IsDay n root.date)
    (span : ∀ last ∈ roots.getLast?, Spans.Abuts DailyRoot.firstRowId DailyRoot.lastRowId last root)
    (linked : root.prevRootHash = (roots.getLast?.map DailyRoot.rootHash).getD "") :
    RootsInv (roots ++ [root]) := by
  constructor
  · intro other member
    rcases List.mem_append.mp member with earlier | same
    · exact inv.days other earlier
    · rw [List.mem_singleton.mp same]
      exact ⟨n, day⟩
  · rw [List.isChain_append]
    refine ⟨inv.chain, List.isChain_singleton root, ?_⟩
    intro last atEnd next same
    rw [List.head?_cons, Option.mem_def, Option.some.injEq] at same
    subst same
    refine ⟨?_, span last atEnd, ?_⟩
    · intro m dayOfLast
      have same := dayOfLast.unique (expects last atEnd)
      rw [same, Int.sub_add_cancel]
      exact day
    · rw [linked, Option.mem_def.mp atEnd]
      rfl
  · intro first atHead
    cases roots with
    | nil =>
      rw [List.nil_append, List.head?_cons, Option.mem_def, Option.some.injEq] at atHead
      rw [← atHead, linked]
      rfl
    | cons head rest => exact inv.origin first atHead

theorem RootsInv.sign (inv : RootsInv roots) (rows : List ActivityRow) (identity : DailyRootSigner)
    (next : List DailyRoot) (date : String) (outcome : SignOutcome) (n : ℤ)
    (expects : Expects roots n) (day : IsDay n date)
    (returns : signDailyRootForDate digests rows identity roots date = .ok (next, outcome)) :
    RootsInv next ∧ Expects next (n + 1) := by
  obtain ⟨_, existing | nothing | created⟩ := signDailyRootForDate_cases digests rows identity roots
    next date outcome returns
  · obtain ⟨_, root, member, same⟩ := existing
    exact absurd same (inv.date_fresh n date expects day root member)
  · obtain ⟨rfl, none⟩ := nothing
    rw [inv.newest, List.getLast?_eq_none_iff] at none
    subst none
    exact ⟨inv, by simp [Expects]⟩
  · obtain ⟨tail, span, signed, found, rfl⟩ := created
    constructor
    · refine inv.append _ n expects day ?_ ?_
      · intro last atEnd
        rw [inv.newest, Option.mem_def.mp atEnd] at found
        obtain ⟨begins, ends⟩ := rootSpan_some digests rows last tail span found
        exact ⟨begins, ends⟩
      · rw [← inv.newest]
        rfl
    · intro last atEnd
      rw [List.getLast?_append, List.getLast?_singleton, Option.some_or, Option.mem_def,
        Option.some.injEq] at atEnd
      rw [← atEnd, Int.add_sub_cancel]
      exact day

/-- Texts of days one after the other; where the years run out there is no date any more. -/
def Consecutive : ℤ → List String → Prop
  | _, [] => True
  | n, date :: rest => (IsDay n date ∨ matchYmd date = none) ∧ Consecutive (n + 1) rest

theorem datesFrom_consecutive (yesterday : String) (room : ℕ) (n : ℤ) (dates : List String)
    (built : datesFrom yesterday room (n * DAY_MS) = .ok dates) : Consecutive n dates := by
  induction room generalizing n dates with
  | zero =>
    simp only [datesFrom] at built
    cases text : utcDateString (n * DAY_MS) with
    | error failure =>
      rw [text] at built
      cases built
    | ok date =>
      rw [text] at built
      cases built
      trivial
  | succ room ih =>
    simp only [datesFrom] at built
    cases text : utcDateString (n * DAY_MS) with
    | error failure =>
      simp only [text] at built
      cases built
    | ok date =>
      simp only [text] at built
      split at built
      · have shift : n * DAY_MS + DAY_MS = (n + 1) * DAY_MS := by ring
        rw [shift] at built
        cases later : datesFrom yesterday room ((n + 1) * DAY_MS) with
        | error failure =>
          rw [later] at built
          cases built
        | ok rest =>
          rw [later] at built
          cases built
          exact ⟨utcDateString_midnight n date text, ih (n + 1) rest later⟩
      · cases built
        trivial

theorem RootsInv.datesToSign (inv : RootsInv roots) (now : ℤ) (dates : List String)
    (built : datesToSign roots now = .ok dates) : ∃ n, Expects roots n ∧ Consecutive n dates := by
  unfold Audit.datesToSign at built
  split at built
  · cases built
  · next yesterday _ =>
    split at built
    · cases built
    · next cursor start =>
      simp only [firstCursor, inv.newest] at start
      cases newest : roots.getLast? with
      | some last =>
        obtain ⟨n, day⟩ := inv.days last (List.mem_of_getLast? newest)
        simp only [newest, day.endOfUtcDay, Option.some.injEq] at start
        subst start
        refine ⟨n + 1, ?_, datesFrom_consecutive _ _ _ _ built⟩
        intro other atEnd
        rw [newest, Option.mem_def, Option.some.injEq] at atEnd
        rw [← atEnd, Int.add_sub_cancel]
        exact day
      | none =>
        simp only [newest, parseMidnight] at start
        split at start
        · next day _ =>
          split at start
          · cases start
            refine ⟨day, ?_, datesFrom_consecutive _ _ _ _ built⟩
            intro last atEnd
            rw [newest] at atEnd
            cases atEnd
          · cases start
        · cases start

theorem RootsInv.signDates (identity : DailyRootSigner) (dates : List String) (inv : RootsInv roots)
    (done : JobOutcome) (n : ℤ) (expects : Expects roots n) (days : Consecutive n dates) :
    RootsInv (signDates digests rows identity dates roots done).1 := by
  induction dates generalizing roots done n with
  | nil => exact inv
  | cons date rest ih =>
    obtain ⟨day, later⟩ := days
    simp only [Audit.signDates]
    split
    · exact inv
    · next next outcome returns =>
      have dated : IsDay n date := by
        obtain ⟨⟨parsed, matched⟩, _⟩ := signDailyRootForDate_cases digests rows identity roots
          next date outcome returns
        rcases day with shown | outside
        · exact shown
        · rw [outside] at matched
          cases matched
      obtain ⟨kept, moved⟩ := inv.sign digests rows identity next date outcome n expects dated returns
      exact ih kept _ (n + 1) moved later

theorem RootsInv.job (inv : RootsInv roots) (rows : List ActivityRow) (identity : DailyRootSigner)
    (now : ℤ) : RootsInv (runDailyRootJob digests rows identity roots now).1 := by
  unfold runDailyRootJob
  split
  · exact inv
  · next dates built =>
    obtain ⟨n, expects, days⟩ := inv.datesToSign now dates built
    exact inv.signDates digests rows identity dates ⟨[], 0⟩ n expects days

theorem runArchive_inv (events : List (ArchiveEvent Key)) (archive : Archive Key)
    (ledger : LedgerInv digests archive.ledger) (inv : RootsInv archive.roots) :
    ∃ final, runArchive digests archive events = some final ∧ RootsInv final.roots := by
  induction events generalizing archive with
  | nil => exact ⟨archive, rfl, inv⟩
  | cons event rest ih =>
    cases event with
    | ledger event =>
      obtain ⟨next, performed, kept⟩ := perform_inv ledger event
      obtain ⟨final, returns, invFinal⟩ := ih { archive with ledger := next } kept inv
      refine ⟨final, ?_, invFinal⟩
      rw [runArchive, performArchive, performed, Option.map_some, Option.bind_some, returns]
    | job now identity =>
      exact ih _ ledger (inv.job digests archive.ledger.rows identity now)

/-- After every run of appends, purges, rotations and jobs, whatever the clock says and
whenever the device fails, the roots in the order of their dates are of days one after the
other, each begins behind the one before it, ends no earlier and carries its hash, and
every id from the first to the last is in the span of exactly one root. -/
theorem daily_roots_partition (current : AuditKeyEpoch Key) (events : List (ArchiveEvent Key)) :
    ∃ archive, runArchive digests ⟨.empty current, []⟩ events = some archive ∧
      archive.roots.Pairwise (fun a b => a.date < b.date) ∧
      (∃ day : ℤ, ∀ (i : ℕ) root, archive.roots[i]? = some root →
        utcDateString ((day + i) * DAY_MS) = .ok root.date) ∧
      (∀ (i : ℕ) root next, archive.roots[i]? = some root → archive.roots[i + 1]? = some next →
        next.firstRowId = root.lastRowId + 1 ∧ root.lastRowId ≤ next.lastRowId ∧
          next.prevRootHash = root.rootHash) ∧
      (∀ root, archive.roots.head? = some root → root.prevRootHash = "") ∧
      ∀ first last, archive.roots.head? = some first → archive.roots.getLast? = some last →
        ∀ id, first.firstRowId ≤ id → id ≤ last.lastRowId →
          ∃! i : ℕ, ∃ root, archive.roots[i]? = some root ∧ root.firstRowId ≤ id ∧
            id ≤ root.lastRowId := by
  obtain ⟨archive, returns, inv⟩ := runArchive_inv digests events ⟨.empty current, []⟩
    (LedgerInv.empty digests current) .empty
  refine ⟨archive, returns, inv.ascending, ?_, ?_, inv.origin, ?_⟩
  · obtain ⟨day, days⟩ := inv.consecutive
    exact ⟨day, fun i root found => (days i root found).utcDateString⟩
  · intro i root next found foundNext
    obtain ⟨bound, rfl⟩ := List.getElem?_eq_some_iff.mp foundNext
    obtain ⟨_, rfl⟩ := List.getElem?_eq_some_iff.mp found
    have follows := List.isChain_iff_getElem.mp inv.chain i bound
    exact ⟨follows.span.begins, follows.span.ends, follows.linked⟩
  · intro first last atHead atEnd id low high
    exact Spans.partitions archive.roots first last (inv.chain.imp (fun _ _ follows => follows.span))
      atHead atEnd id low high

end Droplet.Audit
