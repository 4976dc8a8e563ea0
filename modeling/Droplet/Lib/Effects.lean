import Mathlib

/-! Programs that call on an environment and may be cut off at any call, and what holds wherever they
are cut off and where they end. -/

namespace Effects

inductive Prog (Command Reply α : Type) where
  | done (value : α)
  | call (command : Command) (next : Reply → Prog Command Reply α)

variable {Command Reply α β ε State Answer : Type}

namespace Prog

def bind : Prog Command Reply α → (α → Prog Command Reply β) → Prog Command Reply β
  | .done value, next => next value
  | .call command rest, next => .call command fun reply => (rest reply).bind next

instance : Monad (Prog Command Reply) where
  pure := .done
  bind := bind

def invoke (command : Command) : Prog Command Reply Reply := .call command .done

end Prog

section

variable (exec : State → Command → Answer → State × Reply)
  (allowed : State → Command → Answer → Prop) (safe : State → Prop)

/-- At every call the state is safe, and where the program ends its result is as said. -/
def Prog.Keeps : Prog Command Reply α → (α → State → Prop) → State → Prop
  | .done value, post, state => post value state
  | .call command next, post, state =>
    safe state ∧ ∀ answer, allowed state command answer →
      (next (exec state command answer).2).Keeps post (exec state command answer).1

variable {exec allowed safe} {state : State}

theorem Prog.Keeps.mono {program : Prog Command Reply α} {post post' : α → State → Prop}
    (keeps : program.Keeps exec allowed safe post state)
    (weaker : ∀ value state, post value state → post' value state) :
    program.Keeps exec allowed safe post' state := by
  induction program generalizing state with
  | done value => exact weaker value state keeps
  | call command next ih =>
    refine ⟨keeps.1, ?_⟩
    intro answer granted
    exact ih _ (keeps.2 answer granted)

theorem Prog.Keeps.bind {program : Prog Command Reply α} {next : α → Prog Command Reply β}
    {post : β → State → Prop}
    (keeps : program.Keeps exec allowed safe
      (fun value state => (next value).Keeps exec allowed safe post state) state) :
    (program.bind next).Keeps exec allowed safe post state := by
  induction program generalizing state with
  | done value => exact keeps
  | call command rest ih =>
    refine ⟨keeps.1, ?_⟩
    intro answer granted
    exact ih _ (keeps.2 answer granted)

variable (exec allowed safe) in
/-- The state is safe at every call; a program that returns and one that fails end as said. -/
def Holds (program : ExceptT ε (Prog Command Reply) α) (post : α → State → Prop)
    (fails : ε → State → Prop) (state : State) : Prop :=
  program.run.Keeps exec allowed safe
    (fun result => match result with | .ok value => post value | .error failure => fails failure)
    state

variable {post : α → State → Prop} {fails : ε → State → Prop}

theorem Holds.pure {value : α} (there : post value state) :
    Holds exec allowed safe (Pure.pure value : ExceptT ε (Prog Command Reply) α) post fails state :=
  there

variable {program : ExceptT ε (Prog Command Reply) α}

theorem Holds.mono {post' : α → State → Prop} {fails' : ε → State → Prop}
    (holds : Holds exec allowed safe program post fails state)
    (weaker : ∀ value state, post value state → post' value state)
    (weaker_fails : ∀ failure state, fails failure state → fails' failure state) :
    Holds exec allowed safe program post' fails' state := by
  apply Prog.Keeps.mono holds
  intro result state there
  cases result with
  | ok value => exact weaker value state there
  | error failure => exact weaker_fails failure state there

theorem Holds.bind
    {next : α → ExceptT ε (Prog Command Reply) β} {post : β → State → Prop}
    (holds : Holds exec allowed safe program
      (fun value state => Holds exec allowed safe (next value) post fails state) fails state) :
    Holds exec allowed safe (program >>= next) post fails state := by
  apply Prog.Keeps.bind
  apply Prog.Keeps.mono holds
  intro result state there
  cases result with
  | ok | error => exact there

theorem Holds.tryCatch
    {handler : ε → ExceptT ε (Prog Command Reply) α}
    (holds : Holds exec allowed safe program post
      (fun failure state => Holds exec allowed safe (handler failure) post fails state) state) :
    Holds exec allowed safe (MonadExcept.tryCatch program handler) post fails state := by
  apply Prog.Keeps.bind
  apply Prog.Keeps.mono holds
  intro result state there
  cases result with
  | ok | error => exact there

end

variable (exec : State → Command → Answer → State × Reply)

inductive Event (Operation Answer : Type) where
  | begin_ (operation : Operation)
  /-- The environment answers the call the program waits for. -/
  | answer (answer : Answer)
  /-- The program is lost, what it did is not. -/
  | restart

structure Machine (State Command Reply : Type) where
  state : State
  program : Option (Prog Command Reply Unit)

def Machine.settle (state : State) : Prog Command Reply Unit → Machine State Command Reply
  | .done _ => ⟨state, none⟩
  | program => ⟨state, some program⟩

variable {Operation : Type} (start : Operation → State → State × Prog Command Reply Unit)

def Machine.step (machine : Machine State Command Reply) :
    Event Operation Answer → Machine State Command Reply
  | .begin_ operation =>
    match machine.program with
    | some _ => machine
    | none => settle (start operation machine.state).1 (start operation machine.state).2
  | .answer answer =>
    match machine.program with
    | some (.call command next) =>
      settle (exec machine.state command answer).1 (next (exec machine.state command answer).2)
    | _ => machine
  | .restart => { machine with program := none }

variable (allowed : State → Command → Answer → Prop) (safe calm : State → Prop)

/-- Safe at every point, and calm where no program is running. -/
def Machine.Sound (machine : Machine State Command Reply) : Prop :=
  match machine.program with
  | none => calm machine.state
  | some program => program.Keeps exec allowed safe (fun _ => calm) machine.state

/-- The event is one that the programs were proved against. -/
def Machine.Allows (machine : Machine State Command Reply) : Event Operation Answer → Prop
  | .begin_ _ => True
  | .answer answer =>
    match machine.program with
    | some (.call command _) => allowed machine.state command answer
    | _ => True
  | .restart => safe machine.state → calm machine.state

variable {exec start allowed safe calm}

theorem Machine.settle_sound {state : State} {program : Prog Command Reply Unit}
    (keeps : program.Keeps exec allowed safe (fun _ => calm) state) :
    (settle state program).Sound exec allowed safe calm := by
  cases program with
  | done | call => exact keeps

theorem Machine.Sound.step {machine : Machine State Command Reply}
    (sound : machine.Sound exec allowed safe calm)
    (starts : ∀ operation state, calm state →
      (start operation state).2.Keeps exec allowed safe (fun _ => calm) (start operation state).1)
    {event : Event Operation Answer} (granted : machine.Allows allowed safe calm event) :
    (machine.step exec start event).Sound exec allowed safe calm := by
  obtain ⟨state, program⟩ := machine
  cases event with
  | begin_ operation =>
    cases program with
    | none => exact settle_sound (starts operation state sound)
    | some program => exact sound
  | answer answer =>
    cases program with
    | none => exact sound
    | some program =>
      cases program with
      | done value => exact sound
      | call command next => exact settle_sound (sound.2 answer granted)
  | restart =>
    cases program with
    | none => exact sound
    | some program =>
      cases program with
      | done value => exact sound
      | call command next => exact granted sound.1

end Effects
