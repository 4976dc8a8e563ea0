import Droplet.M365.Sync

/-! A delta link is stored when every page of its enumeration has been handled, and the handler is told
where in the enumeration a page is. -/

namespace Droplet.M365

open SyncPolicy

universe u

variable {α : Type u} {setting : Setting} {handled : List (Handled α)} {progress : Progress α}
  {url : String}

/-- Where an enumeration that has this delta link begins. -/
def begins (setting : Setting) (since : Option String) : Option String :=
  match truthy since with
  | some url => some url
  | none => truthy setting.initialUrl

/-- Every page was handled, in this order, and each is the one the page before it links to. -/
structure Progress.Ordered (setting : Setting) (handled : List (Handled α)) (progress : Progress α) :
    Prop where
  handled : progress.pages.Sublist handled
  first : ∀ page, progress.pages.head? = some page → begins setting progress.since = some page.url
  linked : progress.pages.IsChain fun before next => before.page.links.nextLink = some next.url

structure Progress.Reads (setting : Setting) (handled : List (Handled α)) (progress : Progress α)
    (url : String) : Prop extends progress.Ordered setting handled where
  begun : progress.pages = [] → begins setting progress.since = some url
  next : ∀ last, progress.pages.getLast? = some last → last.page.links.nextLink = some url

/-- The last page carries the link that ends the enumeration. -/
structure Progress.Complete (setting : Setting) (handled : List (Handled α))
    (progress : Progress α) (deltaLink : String) : Prop extends progress.Ordered setting handled where
  last : ∃ page, progress.pages.getLast? = some page ∧ page.page.links.deltaLink = some deltaLink

theorem Progress.Ordered.mono (held : progress.Ordered setting handled) (page : Handled α) :
    progress.Ordered setting (handled ++ [page]) where
  handled := held.handled.trans (List.sublist_append_left _ _)
  first := held.first
  linked := held.linked

theorem Progress.Reads.mono (reads : progress.Reads setting handled url) (page : Handled α) :
    progress.Reads setting (handled ++ [page]) url where
  toOrdered := reads.toOrdered.mono page
  begun := reads.begun
  next := reads.next

theorem Progress.Reads.extend (reads : progress.Reads setting handled url) (page : GraphPage α) :
    Progress.Ordered setting (handled ++ [⟨url, page⟩])
      { progress with pages := progress.pages ++ [⟨url, page⟩] } where
  handled := reads.handled.append (List.Sublist.refl _)
  first other head := by
    cases before : progress.pages with
    | nil =>
      rw [before] at head
      cases head
      exact reads.begun before
    | cons first rest =>
      rw [before] at head
      cases head
      exact reads.first _ (by rw [before]; rfl)
  linked := by
    rw [List.isChain_append]
    refine ⟨reads.linked, List.isChain_singleton _, ?_⟩
    intro last at_last next at_head
    cases at_head
    exact reads.next last at_last

def Stage.Sound (setting : Setting) (handled : List (Handled α)) (progress : Progress α) :
    Stage α → Prop
  | .gates => True
  | .token url => progress.Reads setting handled url
  | .page url => progress.Reads setting handled url
  | .handler url _ => progress.Reads setting handled url
  | .success deltaLink => deltaLink ≠ "" ∧ progress.Complete setting handled deltaLink
  | .checkpoint resumeLink => resumeLink ≠ "" ∧ progress.pages ≠ [] ∧
      progress.Reads setting handled resumeLink
  | .failure _ => True

structure Run.Sound (setting : Setting) (deltaLink : Option String) (handled : List (Handled α))
    (run : Run α) : Prop where
  since : run.progress.since = run.deltaLink
  same : run.deltaLink = deltaLink
  stage : run.stage.Sound setting handled run.progress
  resumed : ∀ link, run.resumeLink = some link → link ≠ "" ∧ run.progress.pages ≠ [] ∧
    (run.stage = .gates → run.progress.Reads setting handled link)
  counted : run.resumeLink = none → match run.stage with
    | .gates => run.progress.pages = [] ∧ run.pages = 0
    | .token _ => run.progress.pages = [] ∧ run.pages = 0
    | .page _ => run.pages = run.progress.pages.length
    | .handler _ _ => run.pages = run.progress.pages.length + 1
    | _ => True

structure Told.Sound (setting : Setting) (handled : List (Handled α)) (told : Told α) : Prop where
  reads : told.progress.Reads setting handled told.page.url
  fullEnumeration : told.context.fullEnumeration = true ↔ told.progress.since = none
  isFirstPage : told.context.isFirstPage = true ↔ told.progress.pages = []
  isLastPage : told.context.isLastPage = true ↔ ∃ link, told.page.page.links.deltaLink = some link

structure World.Sound (setting : Setting) (world : World α) : Prop where
  stored : ∀ stored ∈ world.stored, stored.progress.Complete setting world.handled stored.deltaLink
  told : ∀ told ∈ world.told, told.Sound setting world.handled
  deltaLink : ∀ link, world.cursor.deltaLink = some link →
    link ≠ "" ∧ ∃ stored ∈ world.stored, stored.deltaLink = link
  resumeLink : ∀ link, world.cursor.resumeLink = some link → link ≠ "" ∧
    world.cursor.progress.pages ≠ [] ∧ world.cursor.progress.since = world.cursor.deltaLink ∧
      world.cursor.progress.Reads setting world.handled link
  run : ∀ run, world.run = some run → run.Sound setting world.cursor.deltaLink world.handled

variable {world : World α} {run next : Run α} {deltaLink : Option String}

theorem truthy_some {link : Option String} (found : truthy link = some url) : link = some url ∧ url ≠ "" := by
  simpa [truthy, Option.filter_eq_some_iff] using found

/-- A run that is about to read its next page, or to end. -/
structure Run.Between (deltaLink : Option String) (run : Run α) : Prop where
  since : run.progress.since = run.deltaLink
  same : run.deltaLink = deltaLink
  resumed : ∀ link, run.resumeLink = some link → link ≠ "" ∧ run.progress.pages ≠ []
  counted : run.resumeLink = none → run.pages = run.progress.pages.length

theorem Run.Between.loop {link : Option String} (between : run.Between deltaLink)
    (reads : ∀ url, truthy link = some url → run.progress.Reads setting handled url)
    (looped : run.loop link = some next) : next.Sound setting deltaLink handled := by
  unfold Run.loop at looped
  split at looped
  · cases looped
  · rename_i url found
    split at looped
    · cases looped
      refine ⟨between.since, between.same, reads url found, ?_, between.counted⟩
      intro link resumed
      obtain ⟨full, begun⟩ := between.resumed link resumed
      exact ⟨full, begun, fun gates => nomatch gates⟩
    · rename_i spent
      cases looped
      have begun : run.progress.pages ≠ [] := by
        intro none
        cases resumed : run.resumeLink with
        | some link => exact (between.resumed link resumed).2 none
        | none =>
          have counted := between.counted resumed
          rw [none, List.length_nil] at counted
          exact spent (by rw [counted]; decide)
      refine ⟨between.since, between.same, ⟨(truthy_some found).2, begun, reads url found⟩, ?_,
        fun _ => trivial⟩
      intro link resumed
      exact ⟨(between.resumed link resumed).1, begun, fun gates => nomatch gates⟩

theorem Run.Between.advances {page : GraphPage α} (between : (run.extend ⟨url, page⟩).Between deltaLink)
    (reads : run.progress.Reads setting handled url)
    (advanced : (run.extend ⟨url, page⟩).advances page = some next) :
    next.Sound setting deltaLink (handled ++ [⟨url, page⟩]) := by
  have extended := reads.extend page
  unfold Run.advances at advanced
  split at advanced
  · rename_i deltaLink found
    cases advanced
    obtain ⟨carried, full⟩ := truthy_some found
    refine ⟨between.since, between.same, ⟨full, extended, ⟨⟨url, page⟩, ?_, carried⟩⟩, ?_, fun _ => trivial⟩
    · exact List.getLast?_concat
    · intro link resumed
      obtain ⟨some, begun⟩ := between.resumed link resumed
      exact ⟨some, begun, fun gates => nomatch gates⟩
  · refine between.loop ?_ advanced
    intro after_ found
    refine ⟨extended, ?_, ?_⟩
    · intro none
      exact absurd none (List.append_ne_nil_of_right_ne_nil _ (List.cons_ne_nil _ _))
    · intro last at_last
      have same := at_last.symm.trans List.getLast?_concat
      cases same
      exact (truthy_some found).1

theorem Told.Sound.mono {told : Told α} (sound : told.Sound setting handled) (page : Handled α) :
    told.Sound setting (handled ++ [page]) where
  reads := sound.reads.mono page
  fullEnumeration := sound.fullEnumeration
  isFirstPage := sound.isFirstPage
  isLastPage := sound.isLastPage

theorem World.Sound.start : (World.start : World α).Sound setting where
  stored _ there := nomatch there
  told _ there := nomatch there
  deltaLink _ found := nomatch found
  resumeLink _ found := nomatch found
  run _ found := nomatch found

section

variable (sound : world.Sound setting)
include sound

theorem World.Sound.moves {after_ : Option (Run α)}
    (on : ∀ run, after_ = some run → run.Sound setting world.cursor.deltaLink world.handled) :
    World.Sound setting { world with run := after_ } where
  stored := sound.stored
  told := sound.told
  deltaLink := sound.deltaLink
  resumeLink := sound.resumeLink
  run := on

theorem World.Sound.handles (page : Handled α) {after_ : Option (Run α)} (on : ∀ run, after_ = some run →
      run.Sound setting world.cursor.deltaLink (world.handled ++ [page])) :
    World.Sound setting { world with run := after_, handled := world.handled ++ [page] } where
  stored stored there :=
    ⟨(sound.stored stored there).toOrdered.mono page, (sound.stored stored there).last⟩
  told told there := (sound.told told there).mono page
  deltaLink := sound.deltaLink
  resumeLink link found := by
    obtain ⟨full, begun, since, reads⟩ := sound.resumeLink link found
    exact ⟨full, begun, since, reads.mono page⟩
  run := on

theorem World.Sound.claimed : (World.claimed world.cursor).Sound setting world.cursor.deltaLink world.handled := by
  unfold World.claimed
  refine ⟨?_, rfl, trivial, ?_, ?_⟩
  · dsimp only
    split
    · rename_i resumes
      obtain ⟨link, found⟩ := Option.isSome_iff_exists.mp resumes
      exact (sound.resumeLink link found).2.2.1
    · rfl
  · intro link found
    obtain ⟨full, begun, _, reads⟩ := sound.resumeLink link found
    have resumes : world.cursor.resumeLink.isSome = true := Option.isSome_iff_exists.mpr ⟨link, found⟩
    dsimp only
    rw [if_pos resumes]
    exact ⟨full, begun, fun _ => reads⟩
  · intro none
    have fresh : ¬ world.cursor.resumeLink.isSome = true := by
      rw [show world.cursor.resumeLink = Option.none from none]
      exact Bool.false_ne_true
    dsimp only
    rw [if_neg fresh]
    exact ⟨rfl, rfl⟩

theorem World.Sound.write (own : run.Sound setting world.cursor.deltaLink world.handled)
    (now waitMs : ℤ) : World.Sound setting { world.write run now waitMs with run := none } := by
  have stage := own.stage
  unfold World.write
  split
  · rename_i deltaLink success
    rw [success] at stage
    constructor
    · intro stored there
      rcases List.mem_append.mp there with before | new
      · exact sound.stored stored before
      · cases List.mem_singleton.mp new
        exact stage.2
    · exact sound.told
    · intro link found
      cases found
      exact ⟨stage.1, _, List.mem_append_right _ (List.mem_singleton_self _), rfl⟩
    · exact fun link found => nomatch found
    · exact fun run none => nomatch none
  · rename_i resumeLink checkpoint
    rw [checkpoint] at stage
    refine ⟨sound.stored, sound.told, sound.deltaLink, ?_, fun run none => nomatch none⟩
    intro link found
    cases found
    exact ⟨stage.1, stage.2.1, own.since.trans own.same, stage.2.2⟩
  · rename_i err failure
    have links := DeltaCursor.recordFailure_links err now waitMs world.cursor
    refine ⟨sound.stored, sound.told, ?_, ?_, fun run none => nomatch none⟩
    · intro link found
      rcases links with ⟨delta, _, _⟩ | ⟨delta, _⟩
      · exact sound.deltaLink link (delta ▸ found)
      · rw [show (world.cursor.recordFailure err now waitMs).deltaLink = some link from found] at delta
        cases delta
    · intro link found
      rcases links with ⟨delta, resume, progress⟩ | ⟨_, resume⟩
      · dsimp only
        rw [delta, progress]
        exact sound.resumeLink link (resume ▸ found)
      · rw [show (world.cursor.recordFailure err now waitMs).resumeLink = some link from found] at resume
        cases resume
  · exact ⟨sound.stored, sound.told, sound.deltaLink, sound.resumeLink, fun run none => nomatch none⟩

end

theorem Run.Sound.fails (own : run.Sound setting deltaLink handled) (err : SyncFailureLike) :
    (run.goes (.failure err)).Sound setting deltaLink handled where
  since := own.since
  same := own.same
  stage := trivial
  resumed link found := ⟨(own.resumed link found).1, (own.resumed link found).2.1, fun gates => nomatch gates⟩
  counted _ := trivial

theorem Run.Sound.begins (own : run.Sound setting deltaLink handled)
    (gates : run.stage = .gates) (found : run.url setting = some url) :
    run.progress.Reads setting handled url := by
  unfold Run.url at found
  cases resumes : run.resumeLink with
  | some link =>
    obtain ⟨full, _, reads⟩ := own.resumed link resumes
    have usable : truthy (some link) = some link := by
      simp [truthy, full]
    rw [resumes, Option.some_or, usable] at found
    cases found
    exact reads gates
  | none =>
    have fresh := own.counted resumes
    rw [gates] at fresh
    have start : M365.begins setting run.progress.since = some url := by
      rw [own.since]
      rw [resumes, Option.none_or] at found
      exact found
    refine ⟨⟨?_, ?_, ?_⟩, fun _ => start, ?_⟩
    · rw [fresh.1]
      exact List.nil_sublist _
    · intro page head
      rw [fresh.1] at head
      cases head
    · rw [fresh.1]
      exact List.isChain_nil
    · intro last at_last
      rw [fresh.1] at at_last
      cases at_last

theorem World.Sound.tells (sound : world.Sound setting)
    (own : run.Sound setting world.cursor.deltaLink world.handled) (page : GraphPage α)
    (reading : run.stage = .page url) :
    World.Sound setting
      { world with
        run := some ({ run with pages := run.pages + 1 }.goes (.handler url page))
        told := world.told ++
          [⟨run.progress, ⟨url, page⟩, { run with pages := run.pages + 1 }.context page⟩] } := by
  have reads := own.stage
  rw [reading] at reads
  constructor
  · exact sound.stored
  · intro told there
    rcases List.mem_append.mp there with before | new
    · exact sound.told told before
    · cases List.mem_singleton.mp new
      refine ⟨reads, ?_, ?_, ?_⟩
      · rw [own.since]
        exact Option.isNone_iff_eq_none
      · cases resumes : run.resumeLink with
        | some link =>
          have begun := (own.resumed link resumes).2.1
          simp [Run.context, begun]
        | none =>
          have counted := own.counted resumes
          rw [reading] at counted
          simp [Run.context, show run.pages = run.progress.pages.length from counted]
      · exact Option.isSome_iff_exists
  · exact sound.deltaLink
  · exact sound.resumeLink
  · intro next found
    cases found
    refine ⟨own.since, own.same, reads, ?_, ?_⟩
    · intro link found
      obtain ⟨full, begun, _⟩ := own.resumed link found
      exact ⟨full, begun, fun gates => nomatch gates⟩
    · intro fresh
      have counted := own.counted fresh
      rw [reading] at counted
      exact congrArg (· + 1) counted

theorem Run.Sound.between (own : run.Sound setting deltaLink handled) (page : Handled α)
    (counted : run.resumeLink = none → next.pages = run.progress.pages.length + 1)
    (same : next = { run with pages := next.pages, stage := next.stage }) :
    (next.extend page).Between deltaLink := by
  rw [same]
  refine ⟨own.since, own.same, ?_, ?_⟩
  · intro link found
    exact ⟨(own.resumed link found).1, List.append_ne_nil_of_right_ne_nil _ (List.cons_ne_nil _ _)⟩
  · intro fresh
    rw [Run.extend, List.length_append, List.length_singleton]
    exact counted fresh

theorem World.Sound.react (sound : world.Sound setting)
    (own : run.Sound setting world.cursor.deltaLink world.handled) (event : Event α) :
    (world.react setting run event).Sound setting := by
  have stage := own.stage
  have still : (∀ after_, some run = some after_ →
      after_.Sound setting world.cursor.deltaLink world.handled) := by
    intro after_ same
    cases same
    exact own
  unfold World.react
  split
  · rename_i gates
    split
    · rename_i url found
      refine sound.moves ?_
      intro after_ same
      cases same
      refine ⟨own.since, own.same, own.begins gates found, ?_, ?_⟩
      · intro link resumes
        obtain ⟨full, begun, _⟩ := own.resumed link resumes
        exact ⟨full, begun, fun gates => nomatch gates⟩
      · intro fresh
        have counted := own.counted fresh
        rw [gates] at counted
        exact counted
    · refine sound.moves ?_
      intro after_ same
      cases same
      exact own.fails _
  · exact sound.moves fun after_ none => nomatch none
  · rename_i url _ _ token
    refine sound.moves ?_
    intro after_ looped
    rw [token] at stage
    refine Run.Between.loop ⟨own.since, own.same, ?_, ?_⟩ ?_ looped
    · intro link resumes
      exact ⟨(own.resumed link resumes).1, (own.resumed link resumes).2.1⟩
    · intro fresh
      have counted := own.counted fresh
      rw [token] at counted
      rw [counted.1, counted.2, List.length_nil]
    · intro other found
      cases (truthy_some found).1
      exact stage
  · exact sound.moves fun after_ none => nomatch none
  · refine sound.moves ?_
    intro after_ same
    cases same
    exact own.fails _
  · rename_i url page reading
    dsimp only
    split
    · exact sound.tells own page reading
    · refine sound.handles ⟨url, page⟩ ?_
      intro after_ advanced
      rw [reading] at stage
      have between : (({ run with pages := run.pages + 1 } : Run α).extend ⟨url, page⟩).Between
          world.cursor.deltaLink := by
        refine own.between ⟨url, page⟩ ?_ rfl
        intro fresh
        have counted := own.counted fresh
        rw [reading] at counted
        exact congrArg (· + 1) counted
      exact between.advances stage advanced
  · refine sound.moves ?_
    intro after_ same
    cases same
    exact own.fails _
  · rename_i url page _ _ handling
    refine sound.handles ⟨url, page⟩ ?_
    intro after_ advanced
    rw [handling] at stage
    refine Run.Between.advances (own.between _ ?_ rfl) stage advanced
    intro fresh
    have counted := own.counted fresh
    rw [handling] at counted
    exact counted
  · refine sound.moves ?_
    intro after_ same
    cases same
    exact own.fails _
  iterate 4 · exact sound.write own _ _
  · exact sound.moves fun after_ none => nomatch none
  · exact sound

theorem World.Sound.step (sound : world.Sound setting) (event : Event α) :
    (world.step setting event).Sound setting := by
  unfold World.step
  split
  · split
    · refine sound.moves ?_
      intro after_ same
      cases same
      exact sound.claimed
    · exact sound
  · exact sound
  · rename_i run found
    exact sound.react (sound.run run found) _

/-- In every sequence of runs of a cursor, with failures, checkpoints and crashes anywhere: a delta link
is stored when all pages of the enumeration it ends have been handled, in order, and it stays until the
next one or a resync; and whatever the handler is told of a page is so. -/
theorem position_follows_handled_pages (setting : Setting) (events : List (Event α)) :
    let world := World.start.runs setting events
    (∀ stored ∈ world.stored,
      stored.progress.pages.Sublist world.handled ∧
      (∃ first rest, stored.progress.pages = first :: rest ∧
        begins setting stored.progress.since = some first.url) ∧
      (stored.progress.pages.IsChain fun before next => before.page.links.nextLink = some next.url) ∧
      ∃ last, stored.progress.pages.getLast? = some last ∧
        last.page.links.deltaLink = some stored.deltaLink) ∧
    (∀ link, world.cursor.deltaLink = some link → ∃ stored ∈ world.stored, stored.deltaLink = link) ∧
    ∀ told ∈ world.told, told.progress.Reads setting world.handled told.page.url ∧
      (told.context.isFirstPage = true ↔ told.progress.pages = []) ∧
      (told.context.isLastPage = true ↔ ∃ link, told.page.page.links.deltaLink = some link) ∧
      (told.context.fullEnumeration = true ↔ told.progress.since = none) := by
  intro world
  have sound : world.Sound setting :=
    Stepping.run_keeps (fun _ event sound => sound.step event) events .start
  refine ⟨?_, ?_, ?_⟩
  · intro stored there
    obtain ⟨ordered, last, at_last, carried⟩ := sound.stored stored there
    refine ⟨ordered.handled, ?_, ordered.linked, last, at_last, carried⟩
    cases pages : stored.progress.pages with
    | nil =>
      rw [pages] at at_last
      cases at_last
    | cons first rest => exact ⟨first, rest, rfl, ordered.first first (by rw [pages]; rfl)⟩
  · exact fun link found => (sound.deltaLink link found).2
  · intro told there
    have so := sound.told told there
    exact ⟨so.reads, so.isFirstPage, so.isLastPage, so.fullEnumeration⟩

end Droplet.M365
