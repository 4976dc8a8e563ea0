import Droplet.Ics.RoundTrip

/-! Components inside an event are inert: the reader goes over them as if they were not there. -/

namespace Droplet.Ics

theorem plainBreaks_block (block : Text) :
    ∃ front, ∀ rest, plainBreaks (block ++ '\n' :: rest) = front ++ '\n' :: plainBreaks rest := by
  induction block using plainBreaks.induct with
  | case1 => exact ⟨[], fun rest => plainBreaks_plain '\n' rest (by decide)⟩
  | case2 block ih =>
    obtain ⟨front, is⟩ := ih
    refine ⟨'\n' :: front, fun rest => ?_⟩
    rw [List.cons_append, List.cons_append, plainBreaks, is, List.cons_append]
  | case3 c block other ih =>
    obtain ⟨front, is⟩ := ih
    by_cases feed : c = '\r'
    · subst feed
      cases block with
      | nil => exact ⟨[], fun rest => rfl⟩
      | cons d block =>
        refine ⟨'\r' :: front, fun rest => ?_⟩
        rw [List.cons_append, plainBreaks, is, List.cons_append]
        intro tail _ same
        cases same
        exact other block rfl rfl
    · refine ⟨c :: front, fun rest => ?_⟩
      rw [List.cons_append, plainBreaks_plain c _ feed, is, List.cons_append]

def blockLines (block : Text) : List Text := (unfoldLines (block ++ ['\n'])).dropLast

/-- The first line goes on with nothing. -/
def Fresh (text : Text) : Prop := ∀ c ∈ text.head?, c ≠ ' ' ∧ c ≠ '\t'

variable (out : List Text) {line : Text}

theorem unfoldLine_fresh (fresh : Fresh line) : unfoldLine out line = out ++ [line] := by
  unfold unfoldLine
  split
  next c rest last _ =>
    obtain ⟨blank, tab⟩ := fresh c rfl
    exact if_neg fun one => one.elim blank tab
  next => rfl

theorem unfoldLine_append (first line : Text) (later : List Text) :
    unfoldLine (out ++ first :: later) line = out ++ unfoldLine (first :: later) line := by
  have last : (out ++ first :: later).getLast? = (first :: later).getLast? := by
    rw [List.getLast?_append_of_ne_nil _ (by simp)]
  have front : (out ++ first :: later).dropLast = out ++ (first :: later).dropLast := by simp
  unfold unfoldLine
  rw [last]
  split
  next c rest last _ =>
    split
    · rw [front, List.append_assoc]
    · rw [List.append_assoc]
  next => rw [List.append_assoc]

theorem unfoldLine_cons (line : Text) (out : List Text) : ∃ first later, unfoldLine out line = first :: later := by
  unfold unfoldLine
  split
  · split <;> exact List.exists_cons_of_ne_nil (by simp)
  · exact List.exists_cons_of_ne_nil (by simp)

theorem foldl_unfoldLine_append (first : Text) (later lines : List Text) :
    lines.foldl unfoldLine (out ++ first :: later) = out ++ lines.foldl unfoldLine (first :: later) := by
  induction lines generalizing first later with
  | nil => rfl
  | cons line lines ih =>
    rw [List.foldl_cons, List.foldl_cons, unfoldLine_append]
    obtain ⟨first', later', is⟩ := unfoldLine_cons line (first :: later)
    rw [is]
    exact ih first' later'

theorem foldl_unfoldLine_fresh (first : Text) (lines : List Text) (fresh : Fresh first) :
    (first :: lines).foldl unfoldLine out = out ++ (first :: lines).foldl unfoldLine [] := by
  rw [List.foldl_cons, List.foldl_cons, unfoldLine_fresh out fresh, unfoldLine_fresh [] fresh]
  exact foldl_unfoldLine_append out first [] lines

theorem splitOn_fresh {text : Text} (fresh : Fresh text) :
    ∃ first lines, (plainBreaks text).splitOn '\n' = first :: lines ∧ Fresh first := by
  cases text with
  | nil => exact ⟨[], [], rfl, fun c inside => by cases inside⟩
  | cons c text =>
    have plain : c ≠ ' ' ∧ c ≠ '\t' := fresh c rfl
    have head : ∃ d tail, plainBreaks (c :: text) = d :: tail ∧ d ≠ ' ' ∧ d ≠ '\t' := by
      rw [plainBreaks.eq_def]
      split
      next same => cases same
      next => exact ⟨_, _, rfl, by decide⟩
      next same =>
        cases same
        exact ⟨_, _, rfl, plain⟩
    obtain ⟨d, tail, is, apart⟩ := head
    obtain ⟨first, lines, split⟩ := List.exists_cons_of_ne_nil (List.splitOn_ne_nil '\n' tail)
    rw [is, List.splitOn_cons_eq_if_modifyHead, split]
    split
    · exact ⟨_, _, rfl, fun c inside => by cases inside⟩
    · refine ⟨_, _, rfl, fun c inside => ?_⟩
      cases inside
      exact apart

theorem unfoldLines_append (block : Text) {rest : Text} (fresh : Fresh rest) :
    unfoldLines (block ++ '\n' :: rest) = blockLines block ++ unfoldLines rest := by
  obtain ⟨front, is⟩ := plainBreaks_block block
  obtain ⟨first, lines, split, fresh⟩ := splitOn_fresh fresh
  have own : blockLines block = (front.splitOn '\n').foldl unfoldLine [] := by
    have nothing : plainBreaks [] = [] := rfl
    rw [blockLines, unfoldLines, is, nothing, List.splitOn_append_cons_self, List.splitOn_nil,
      List.foldl_append, List.foldl_cons, List.foldl_nil, unfoldLine_fresh _ (fun c inside => by cases inside), List.dropLast_concat]
  rw [own, unfoldLines, unfoldLines, is, List.splitOn_append_cons_self, split, List.foldl_append]
  exact foldl_unfoldLine_fresh _ first lines fresh

section
variable (runtime : Runtime)

def marked (line : Text) : Text := toUpperCase runtime (JsText.trimChars line)

def Opens (line : Text) : Prop := beginMark <+: marked runtime line ∧ marked runtime line ≠ beginEvent

def Closes (line : Text) : Prop := endMark <+: marked runtime line ∧ marked runtime line ≠ endEvent

/-- It neither opens nor closes a component. -/
def Plain (line : Text) : Prop := ¬ beginMark <+: marked runtime line ∧ ¬ endMark <+: marked runtime line

/-- What stands in a component: lines, and components. -/
inductive Content : List Text → Prop where
  | nothing : Content []
  | line {first : Text} {rest : List Text} (plain : Plain runtime first) (later : Content rest) :
      Content (first :: rest)
  | component {first last : Text} {inner rest : List Text} (opens : Opens runtime first)
      (within : Content inner) (closes : Closes runtime last) (later : Content rest) :
      Content (first :: inner ++ last :: rest)

inductive Components : List Text → Prop where
  | nothing : Components []
  | component {first last : Text} {inner rest : List Text} (opens : Opens runtime first)
      (within : Content runtime inner) (closes : Closes runtime last) (later : Components rest) :
      Components (first :: inner ++ last :: rest)

def InsideEvent (lines : List Text) : Prop :=
  ∃ before first after, lines = before ++ first :: after ∧ marked runtime first = beginEvent ∧
    ∀ line ∈ after, marked runtime line ≠ endEvent

variable {runtime}

theorem begin_not_end {text : Text} (begins : beginMark <+: text) : ¬ endMark <+: text := by
  intro ends
  obtain ⟨rest, rfl⟩ := begins
  obtain ⟨other, same⟩ := ends
  exact absurd (List.cons.inj same).1 (by decide)

theorem beginMark_event : beginMark <+: beginEvent := ⟨"VEVENT".toList, rfl⟩

theorem endMark_event : endMark <+: endEvent := ⟨"VEVENT".toList, rfl⟩

variable {state : Reading}

theorem readLine_event (begins : marked runtime line = beginEvent) :
    readLine runtime state line = { state with inEvent := true, nestedDepth := 0, current := {} } :=
  if_pos begins

section

variable (inside : state.inEvent = true)
include inside

theorem readLine_inside
    (noBegin : marked runtime line ≠ beginEvent) (noEnd : marked runtime line ≠ endEvent) :
    readLine runtime state line =
      if 0 < state.nestedDepth then
        if beginMark <+: marked runtime line then { state with nestedDepth := state.nestedDepth + 1 }
        else if endMark <+: marked runtime line then { state with nestedDepth := state.nestedDepth - 1 }
        else state
      else if beginMark <+: marked runtime line then { state with nestedDepth := 1 }
      else
        match parseLine runtime line with
        | none => state
        | some parsed => { state with current := setProperty runtime state.current parsed } := by
  have open_ : ¬ state.inEvent = false := by simp [inside]
  exact (if_neg noBegin).trans ((if_neg noEnd).trans (if_neg open_))

theorem readLine_opens (opens : Opens runtime line) :
    readLine runtime state line = { state with nestedDepth := state.nestedDepth + 1 } := by
  obtain ⟨begins, noEvent⟩ := opens
  have noEnd : marked runtime line ≠ endEvent := fun same => begin_not_end begins (same ▸ endMark_event)
  rw [readLine_inside inside noEvent noEnd, if_pos begins, if_pos begins]
  split
  next => rfl
  next zero => rw [show state.nestedDepth = 0 by omega]

theorem readLine_closes (deep : 0 < state.nestedDepth) {line : Text} (closes : Closes runtime line) :
    readLine runtime state line = { state with nestedDepth := state.nestedDepth - 1 } := by
  obtain ⟨ends, noEvent⟩ := closes
  have noBegin : ¬ beginMark <+: marked runtime line := fun begins => begin_not_end begins ends
  have other : marked runtime line ≠ beginEvent := fun same => noBegin (same ▸ beginMark_event)
  rw [readLine_inside inside other noEvent, if_pos deep, if_neg noBegin, if_pos ends]

theorem readLine_plain (deep : 0 < state.nestedDepth)
    (plain : Plain runtime line) : readLine runtime state line = state := by
  obtain ⟨noBegin, noEnd⟩ := plain
  rw [readLine_inside inside (fun same => noBegin (same ▸ beginMark_event))
    (fun same => noEnd (same ▸ endMark_event)), if_pos deep, if_neg noBegin, if_neg noEnd]

end

theorem foldl_component {first last : Text} {inner : List Text} {rest : List Text} (opens : Opens runtime first)
    (closes : Closes runtime last) (inside : state.inEvent = true)
    (kept : inner.foldl (readLine runtime) { state with nestedDepth := state.nestedDepth + 1 } =
      { state with nestedDepth := state.nestedDepth + 1 }) :
    (first :: inner ++ last :: rest).foldl (readLine runtime) state = rest.foldl (readLine runtime) state := by
  have closed : readLine runtime { state with nestedDepth := state.nestedDepth + 1 } last = state := by
    rw [@readLine_closes runtime { state with nestedDepth := state.nestedDepth + 1 } inside (Nat.succ_pos _) _
      closes]
    rfl
  rw [List.cons_append, List.foldl_cons, readLine_opens inside opens, List.foldl_append, kept, List.foldl_cons,
    closed]

variable {lines : List Text}

theorem foldl_content (content : Content runtime lines) (inside : state.inEvent = true)
    (deep : 0 < state.nestedDepth) : lines.foldl (readLine runtime) state = state := by
  induction content generalizing state with
  | nothing => rfl
  | line plain later ih =>
    rw [List.foldl_cons, readLine_plain inside deep plain]
    exact ih inside deep
  | component opens within closes later ihInner ihRest =>
    rw [foldl_component opens closes inside (ihInner inside (Nat.succ_pos _))]
    exact ihRest inside deep

theorem foldl_components (components : Components runtime lines) (inside : state.inEvent = true) :
    lines.foldl (readLine runtime) state = state := by
  induction components with
  | nothing => rfl
  | component opens within closes later ih =>
    rw [foldl_component opens closes inside (foldl_content within inside (Nat.succ_pos _))]
    exact ih

theorem readLine_stays (inside : state.inEvent = true)
    (noEnd : marked runtime line ≠ endEvent) : (readLine runtime state line).inEvent = true := by
  by_cases begins : marked runtime line = beginEvent
  · rw [readLine_event begins]
  · rw [readLine_inside inside begins noEnd]
    split
    all_goals
      split
      · exact inside
      · split <;> exact inside

theorem foldl_inside (inside : InsideEvent runtime lines) (state : Reading) :
    (lines.foldl (readLine runtime) state).inEvent = true := by
  obtain ⟨before, first, after, rfl, begins, open_⟩ := inside
  have opened : (readLine runtime (before.foldl (readLine runtime) state) first).inEvent = true := by
    rw [readLine_event begins]
  rw [List.foldl_append, List.foldl_cons]
  generalize readLine runtime (before.foldl (readLine runtime) state) first = next at opened
  induction after generalizing next with
  | nil => exact opened
  | cons line after ih =>
    rw [List.forall_mem_cons] at open_
    exact ih open_.2 _ (readLine_stays opened open_.1)

/-- Components put between two lines of an event, at any depth in it and with any lines of their own, change
nothing of what is read. -/
theorem nested_components_are_inert (runtime : Runtime) (front nested back : Text)
    (apart : Fresh nested) (apart' : Fresh back) (inside : InsideEvent runtime (blockLines front))
    (components : Components runtime (blockLines nested)) :
    parseIcs runtime (front ++ '\n' :: nested ++ '\n' :: back) = parseIcs runtime (front ++ '\n' :: back) := by
  have nestedFresh : Fresh (nested ++ '\n' :: back) := by
    cases nested with
    | nil => exact fun c first => by cases first; decide
    | cons c rest => exact apart
  have all : unfoldLines (front ++ '\n' :: nested ++ '\n' :: back) =
      blockLines front ++ (blockLines nested ++ unfoldLines back) := by
    rw [List.append_assoc, List.cons_append, unfoldLines_append front nestedFresh,
      unfoldLines_append nested apart']
  unfold parseIcs
  rw [all, unfoldLines_append front apart', List.foldl_append, List.foldl_append, List.foldl_append,
    foldl_components components (foldl_inside inside _)]

end

def alarm : Text := "begin:VALARM\r\nDESCRIPTION:Ring\r\nEND:X\r".toList

theorem alarm_is_inert :
    parseIcs utcRuntime ("BEGIN:VEVENT\nDESCRIPTION:Talk".toList ++ '\n' :: alarm ++
        '\n' :: "END:VEVENT".toList) =
      parseIcs utcRuntime ("BEGIN:VEVENT\nDESCRIPTION:Talk".toList ++ '\n' :: "END:VEVENT".toList) := by
  have lines : blockLines alarm =
      ["begin:VALARM".toList] ++ ["DESCRIPTION:Ring".toList] ++ "END:X".toList :: [] := by decide
  have plain : Plain utcRuntime "DESCRIPTION:Ring".toList := by
    unfold Plain
    decide
  have opens : Opens utcRuntime "begin:VALARM".toList := by
    unfold Opens
    decide
  have closes : Closes utcRuntime "END:X".toList := by
    unfold Closes
    decide
  refine nested_components_are_inert utcRuntime _ alarm _ ?_ ?_ ?_ ?_
  · intro c first
    cases first
    decide
  · intro c first
    cases first
    decide
  · exact ⟨[], "BEGIN:VEVENT".toList, ["DESCRIPTION:Talk".toList], by decide, by decide,
      by decide⟩
  · rw [lines]
    exact .component opens (.line plain .nothing) closes .nothing

end Droplet.Ics
