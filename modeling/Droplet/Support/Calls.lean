import Droplet.Lib.Stepping
import Droplet.Support.Tickets

/-! Calls on the tickets of service desks, interleaved. A call reads its ticket before it holds the lock
and writes after; from the lock to the commit no other call touches the ticket, so that part is one step.
E-mail intake reads its ticket under the lock and is one step as a whole. -/

namespace Droplet.Support

/-- What a call will do once it holds the lock. -/
inductive Work where
  | update (input : TicketUpdateInput)
  /-- A reply, or else a note, with the state to move to. -/
  | comment (stateId : Option StateId) (reply : Bool)

inductive Stage where
  /-- Up to the lock. -/
  | reading
  | over
  deriving DecidableEq

structure Call where
  ticket : TicketId
  /-- The ticket as it was read. -/
  existing : TicketRow
  work : Work
  now : ℤ
  stage : Stage

def Call.target (call : Call) : Option StateId :=
  match call.work with
  | .update input => input.stateId
  | .comment stateId _ => stateId

def Call.moves (call : Call) : Bool :=
  call.target.any fun target => some target ≠ call.existing.stateId

inductive Entry where
  /-- The call read its ticket. -/
  | began (call : ℕ) (ticket : TicketId)
  /-- `logged` are the assignees the create will log one by one. -/
  | created (ticket : TicketId) (now : ℤ) (row : TicketRow) (logged : Finset UserId)
  | wrote (ticket : TicketId) (now : ℤ) (call : Option ℕ) (activity : PmActivity)
  | committed (call : ℕ) (ticket : TicketId)
  /-- `CONCURRENT_MUTATION`. -/
  | refused (call : ℕ) (ticket : TicketId)
  deriving DecidableEq

structure World where
  tickets : TicketId → Option TicketRow
  /-- Ids drawn so far. -/
  drawn : ℕ
  calls : List Call
  log : List Entry

def emptyWorld : World := ⟨fun _ => none, 0, [], []⟩

/-- A message that intake takes in, and what it finds in the desk. -/
structure Inbound where
  receivedAt : ℤ
  subject : String
  bodyHtml : Option String
  /-- The ticket it answers. -/
  ticket : Option TicketId
  desk : DeskId
  /-- In the order of `sortOrder`, then `id`. -/
  states : List PmState
  reopenWindowDays : ℤ
  /-- What `assignNewTicket` returns. -/
  auto : Option UserId

/-- The parts of a row that are read by queries of their own. -/
inductive Part where
  | assignees
  | labels
  | ticket

inductive Action where
  | createTicket (states : List PmState) (input : TicketCreateInput) (auto : Option UserId) (now : ℤ)
  | updateTicket (ticket : TicketId) (states : List PmState) (input : TicketUpdateInput) (now : ℤ)
  | addComment (ticket : TicketId) (states : List PmState) (stateId : Option StateId) (reply : Bool)
      (now : ℤ)
  /-- A call reads a part of its row. -/
  | read (call : ℕ) (part : Part)
  /-- A call takes the lock, writes and commits, or is refused. -/
  | commit (call : ℕ) (sla : UpdateSla)
  /-- A call fails in any other way. -/
  | lose (call : ℕ)
  | intake (message : Inbound) (sla : UpdateSla)
  /-- The sweep of the clocks. -/
  | tick (ticket : TicketId) (now : ℤ) (sla : List SlaTransition)

variable (group : StateId → PmStateGroup)

def World.note (world : World) (entries : List Entry) : World :=
  { world with log := world.log ++ entries }

def World.setStage (world : World) (place : ℕ) (stage : Stage) : World :=
  { world with calls := world.calls.modify place fun call => { call with stage := stage } }

/-- The transaction's row and history are committed. -/
def World.put (world : World) (ticket : TicketId) (now : ℤ) (call : Option ℕ) (tx : Tx) : World :=
  { world with
    tickets := Function.update world.tickets ticket (some tx.row)
    log := world.log ++ tx.activities.map (.wrote ticket now call) }

def World.insert (world : World) (now : ℤ) (row : TicketRow) (logged : Finset UserId)
    (activities : List PmActivity) : World :=
  { world with
    tickets := Function.update world.tickets world.drawn (some row)
    drawn := world.drawn + 1
    log := world.log ++ .created world.drawn now row logged ::
      activities.map (.wrote world.drawn now none) }

def World.createTicket (world : World) (states : List PmState) (input : TicketCreateInput)
    (auto : Option UserId) (now : ℤ) : World :=
  match input.state states with
  | some state =>
    world.insert now (input.row group state.id auto now) (input.assignees auto).toFinset
      (input.activities auto)
  | none => world

/-- A target that is not of the desk ends the call. -/
def targetOk (states : List PmState) (stateId : Option StateId) : Bool :=
  stateId.all fun target => (pickState states target).isSome

def World.begin_ (world : World) (ticket : TicketId) (states : List PmState) (work : Work)
    (now : ℤ) : World :=
  match world.tickets ticket with
  | some row =>
    let call : Call := ⟨ticket, row, work, now, .reading⟩
    if targetOk states call.target then
      { world with
        calls := world.calls ++ [call]
        log := world.log ++ [.began world.calls.length ticket] }
    else world
  | none => world

def Call.reread (call : Call) (row : TicketRow) (part : Part) : Call :=
  match part with
  | .assignees => { call with existing := { call.existing with assignees := row.assignees } }
  | .labels => { call with existing := { call.existing with labels := row.labels } }
  | .ticket => { call with existing := { call.existing with companyId := row.companyId } }

def World.readAt (world : World) (place : ℕ) (part : Part) : World :=
  match world.calls[place]? with
  | some call =>
    match world.tickets call.ticket with
    | some row => { world with calls := world.calls.set place (call.reread row part) }
    | none => world
  | none => world

def comment (stateId : Option StateId) (reply : Bool) (existing : TicketRow) (now : ℤ)
    (sla : UpdateSla) (tx : Tx) : Option Tx :=
  (tx.setState group stateId existing now sla.state).map fun moved =>
    (if reply then syncTicketSla sla.priority moved else moved).write [.commented]

def Call.run (call : Call) (sla : UpdateSla) (tx : Tx) : Option Tx :=
  match call.work with
  | .update input => updateTicket group input call.existing call.now sla tx
  | .comment stateId reply => comment group stateId reply call.existing call.now sla tx

def World.commit (world : World) (place : ℕ) (call : Call) (sla : UpdateSla) : World :=
  match world.tickets call.ticket with
  | some row =>
    match call.run group sla ⟨row, []⟩ with
    | some tx =>
      ((world.put call.ticket call.now (some place) tx).note
        [.committed place call.ticket]).setStage place .over
    | none => (world.note [.refused place call.ticket]).setStage place .over
  | none => world.setStage place .over

def World.commitAt (world : World) (place : ℕ) (sla : UpdateSla) : World :=
  match world.calls[place]? with
  | some call => if call.stage = .reading then world.commit group place call sla else world
  | none => world

def REOPEN_MS_PER_DAY : ℤ := 86400000

def Inbound.effect (message : Inbound) (row : TicketRow) : PmCustomerReplyEffect :=
  ((message.states.find? fun state => some state.id = row.stateId).map
    PmState.onCustomerReply).getD .NONE

/-- The message comes after the time in which a reply reopens. -/
def Inbound.late (message : Inbound) (row : TicketRow) : Bool :=
  row.solvedAt.any fun solvedAt =>
    decide (message.receivedAt - solvedAt > message.reopenWindowDays * REOPEN_MS_PER_DAY)

def Inbound.followUp (message : Inbound) (row : TicketRow) : Bool :=
  match message.effect row with
  | .FOLLOW_UP => true
  | .REOPEN => message.late row
  | .NONE => false

def Inbound.reopenState (message : Inbound) : Option PmState :=
  message.states.find? fun state => state.onCustomerReply = .REOPEN ∧ group state.id = .started

def Inbound.target (message : Inbound) (row : TicketRow) : Option StateId :=
  if message.effect row = .REOPEN ∧ message.late row = false then
    ((message.reopenState group).map PmState.id).filter fun target => some target ≠ row.stateId
  else none

/-- A reply that stays on its ticket. The row is the one read under the lock. -/
def Inbound.reply (message : Inbound) (row : TicketRow) (sla : UpdateSla) : Option Tx :=
  (match message.target group row with
    | some target => applyStateChange group row target message.receivedAt sla.state ⟨row, []⟩
    | none => some ⟨row, []⟩).map fun moved =>
      if message.bodyHtml.isSome then (syncTicketSla sla.priority moved).write [.commented] else moved

def Inbound.landing (message : Inbound) : Option PmState :=
  (message.states.find? PmState.isDefault).or message.states.head?

def Inbound.row (message : Inbound) (state : StateId) : TicketRow where
  projectId := message.desk
  name := message.subject
  descriptionHtml := message.bodyHtml
  stateId := some state
  priority := .none
  departmentId := none
  isCompleted := false
  completedAt := none
  assignees := message.auto.toFinset
  labels := ∅
  companyId := none
  solvedAt := none
  reopenCount := 0

/-- A ticket of its own, related to the one the message answers. -/
def World.open_ (world : World) (message : Inbound) : World :=
  match message.landing with
  | some state =>
    let made := world.insert message.receivedAt (message.row state.id) ∅
      (.created :: message.ticket.toList.map .relation_added)
    made.note (message.ticket.toList.map fun old =>
      .wrote old message.receivedAt none (.relation_added world.drawn))
  | none => world

def World.intake (world : World) (message : Inbound) (sla : UpdateSla) : World :=
  match message.ticket with
  | none => world.open_ message
  | some ticket =>
    match world.tickets ticket with
    | some row =>
      if message.followUp row then world.open_ message
      else
        match message.reply group row sla with
        | some tx => world.put ticket message.receivedAt none tx
        | none => world
    | none => world

def World.tick (world : World) (ticket : TicketId) (now : ℤ) (sla : List SlaTransition) : World :=
  match world.tickets ticket with
  | some row => world.put ticket now none (syncTicketSla sla ⟨row, []⟩)
  | none => world

def World.step (world : World) : Action → World
  | .createTicket states input auto now => world.createTicket group states input auto now
  | .updateTicket ticket states input now => world.begin_ ticket states (.update input) now
  | .addComment ticket states stateId reply now =>
    world.begin_ ticket states (.comment stateId reply) now
  | .read call part => world.readAt call part
  | .commit call sla => world.commitAt group call sla
  | .lose call => world.setStage call .over
  | .intake message sla => world.intake group message sla
  | .tick ticket now sla => world.tick ticket now sla

def World.after (events : List Action) : World := Stepping.run (World.step group) emptyWorld events

end Droplet.Support
