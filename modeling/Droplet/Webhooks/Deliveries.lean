import Droplet.Lib.Histories

/-! Webhook deliveries as a queue in a table: sweeps that claim due rows under a lease, attempts that
dial and write the outcome back, and the count of failures that turns a webhook off. -/

namespace Droplet.Webhooks

/-- In milliseconds, after the first failed attempt and after each next one. -/
def RETRY_DELAYS_MS : List ℤ :=
  [60000, 5 * 60000, 30 * 60000, 2 * 3600000, 6 * 3600000, 12 * 3600000, 24 * 3600000]

def MAX_ATTEMPTS : ℕ := RETRY_DELAYS_MS.length + 1

def DISABLE_AFTER_FAILURES : ℕ := 20

def DELIVERY_EXPIRY_MS : ℤ := 48 * 3600000

def DELIVERY_LEASE_MS : ℤ := 5 * 60000

def BLOCKED_RECHECK_MS : ℤ := 60000

def DELIVERY_BATCH : ℕ := 20

def DELIVERY_CONCURRENCY : ℕ := 5

def DELIVERY_RETENTION_MS : ℤ := 30 * 24 * 3600000

namespace DELIVERY_ERRORS

def EGRESS_BLOCKED : String := "Blocked by egress setting"

def SECRET_UNREADABLE : String := "Signing secret could not be read"

def EXPIRED : String := "Expired before it could be delivered"

def WEBHOOK_OFF : String := "Webhook was turned off"

end DELIVERY_ERRORS

inductive PmWebhookStatus where
  | ACTIVE
  | PAUSED
  | DISABLED_FAILING
  deriving DecidableEq

abbrev WebhookId := ℕ

abbrev DeliveryId := ℕ

structure PmWebhook where
  id : WebhookId
  enabled : Bool
  status : PmWebhookStatus
  consecutiveFailures : ℕ

inductive PmWebhookDeliveryStatus where
  | PENDING
  | FAILED
  | DELIVERED
  | GIVEN_UP
  deriving DecidableEq

structure PmWebhookDelivery where
  id : DeliveryId
  webhookId : WebhookId
  status : PmWebhookDeliveryStatus
  attempts : ℕ
  nextAttemptAt : ℤ
  lastStatusCode : Option ℕ
  lastError : Option String
  createdAt : ℤ
  deliveredAt : Option ℤ
  deriving DecidableEq

/-- `OWED`. -/
def PmWebhookDelivery.owed (row : PmWebhookDelivery) : Bool :=
  row.status == .PENDING || row.status == .FAILED

structure DeliveryWithWebhook where
  delivery : PmWebhookDelivery
  webhook : PmWebhook

/-- What becomes of a dial. The texts of errors come from `describeFailure`. -/
inductive Dial where
  /-- The address could not be opened or was refused by the guard. -/
  | refused (lastError : String)
  /-- A public destination while the owner's switch is off. -/
  | blocked
  | secretUnreadable
  | threw (lastError : String)
  | answered (status : ℕ)

/-- The statement or call an attempt waits for. -/
inductive Stage where
  /-- Claimed; its chunk of the sweep has not begun. -/
  | waiting
  | dialing
  | givingUp (lastError : String)
  | blocking
  | failing (lastError : String) (statusCode : Option ℕ)
  | delivering (statusCode : ℕ)
  /-- Increments the webhook's failures. -/
  | counting
  /-- Turns the webhook off when they are too many. -/
  | disabling
  | notifying
  /-- Resets the webhook's failures. -/
  | forgiving
  | over
  deriving DecidableEq

/-- The attempt has yet to write its row. -/
def Stage.holds : Stage → Bool
  | .waiting => true
  | .dialing => true
  | .givingUp _ => true
  | .blocking => true
  | .failing _ _ => true
  | .delivering _ => true
  | _ => false

structure Attempt where
  /-- The sweep and the place in what it claimed; none for a test message. -/
  sweep : Option (ℕ × ℕ)
  read : DeliveryWithWebhook
  /-- `deps.now()` when the attempt began. -/
  now : ℤ
  stage : Stage

def Attempt.test (attempt : Attempt) : Bool := attempt.sweep.isNone

/-- The first checks of `attemptDelivery`. -/
def Attempt.begin_ (attempt : Attempt) (now : ℤ) : Attempt :=
  { attempt with
    now := now
    stage :=
      if !attempt.test && decide (now - attempt.read.delivery.createdAt > DELIVERY_EXPIRY_MS) then
        .givingUp DELIVERY_ERRORS.EXPIRED
      else if !attempt.test && attempt.read.webhook.status != .ACTIVE then
        .givingUp DELIVERY_ERRORS.WEBHOOK_OFF
      else .dialing }

def Dial.stage : Dial → Stage
  | .refused lastError => .failing lastError none
  | .blocked => .blocking
  | .secretUnreadable => .failing DELIVERY_ERRORS.SECRET_UNREADABLE none
  | .threw lastError => .failing lastError none
  | .answered status =>
    if status < 200 ∨ 300 ≤ status then .failing ("HTTP " ++ toString status) (some status)
    else .delivering status

/-- The attempt is the last: `fail` gives up. -/
def Attempt.exhausted (attempt : Attempt) : Bool :=
  attempt.test || decide (MAX_ATTEMPTS ≤ attempt.read.delivery.attempts + 1)

def Attempt.data (attempt : Attempt) (row : PmWebhookDelivery) : PmWebhookDelivery :=
  match attempt.stage with
  | .givingUp lastError =>
    { row with
      status := .GIVEN_UP
      lastError := some lastError
      nextAttemptAt := attempt.now }
  | .blocking =>
    if attempt.test then
      { row with
        status := .GIVEN_UP
        lastError := some DELIVERY_ERRORS.EGRESS_BLOCKED
        nextAttemptAt := attempt.now }
    else
      { row with
        lastError := some DELIVERY_ERRORS.EGRESS_BLOCKED
        nextAttemptAt := attempt.now + BLOCKED_RECHECK_MS }
  | .failing lastError statusCode =>
    { row with
      attempts := attempt.read.delivery.attempts + 1
      status := if attempt.exhausted then .GIVEN_UP else .FAILED
      lastStatusCode := statusCode
      lastError := some lastError
      nextAttemptAt :=
        if attempt.exhausted then attempt.now
        else attempt.now + (RETRY_DELAYS_MS[attempt.read.delivery.attempts]?).getD 0 }
  | .delivering statusCode =>
    { row with
      status := .DELIVERED
      attempts := attempt.read.delivery.attempts + 1
      deliveredAt := some attempt.now
      lastStatusCode := some statusCode
      lastError := none
      nextAttemptAt := attempt.now }
  | _ => row

/-- Where the attempt goes once its row is written. -/
def Attempt.settled (attempt : Attempt) : Stage :=
  match attempt.stage with
  | .failing _ _ => if attempt.test then .over else .counting
  | .delivering _ => if attempt.test then .over else .forgiving
  | _ => .over

inductive Entry where
  | started (delivery : DeliveryId) (instant : ℤ)
  /-- A failure written to its row: when the attempt began, and when it was written. -/
  | failed (delivery : DeliveryId) (began : ℤ) (recorded : ℤ)
  | delivered (webhook : WebhookId)
  | counted (webhook : WebhookId)
  | turnedOff (webhook : WebhookId) (attempt : ℕ)
  | notified (webhook : WebhookId) (attempt : ℕ)
  deriving DecidableEq

structure World where
  clock : ℤ
  webhooks : WebhookId → Option PmWebhook
  deliveries : DeliveryId → Option PmWebhookDelivery
  /-- Ids drawn so far. -/
  webhooksDrawn : ℕ
  deliveriesDrawn : ℕ
  sweeps : ℕ
  attempts : List Attempt
  log : List Entry

def emptyWorld (clock : ℤ) : World := ⟨clock, fun _ => none, fun _ => none, 0, 0, 0, [], []⟩

inductive Action where
  | createWebhook
  /-- `updateWebhook` with `enabled`. -/
  | enableWebhook (webhook : WebhookId) (enabled : Bool)
  | deleteWebhook (webhook : WebhookId)
  /-- The fan-out, or a redelivery. -/
  | enqueue (webhook : WebhookId)
  | sendTest (webhook : WebhookId)
  /-- A sweep claims; rows that other transactions hold are skipped. -/
  | claim (locked : List DeliveryId)
  | begin_ (attempt : ℕ)
  | dial (attempt : ℕ) (outcome : Dial)
  /-- The statement or call the attempt waits for is carried out. -/
  | advance (attempt : ℕ)
  /-- The attempt is lost: a database error. -/
  | lose (attempt : ℕ)
  /-- A sweep's process ends. -/
  | crash (sweep : ℕ)
  | prune

structure Event where
  instant : ℤ
  action : Action

def World.note (world : World) (entries : List Entry) : World :=
  { world with log := world.log ++ entries }

def World.setStage (world : World) (place : ℕ) (stage : Stage) : World :=
  { world with
    attempts := world.attempts.modify place fun attempt => { attempt with stage := stage } }

def World.putDelivery (world : World) (id : DeliveryId) (row : Option PmWebhookDelivery) : World :=
  { world with deliveries := Function.update world.deliveries id row }

def World.putWebhook (world : World) (id : WebhookId) (row : Option PmWebhook) : World :=
  { world with webhooks := Function.update world.webhooks id row }

def World.createWebhook (world : World) : World :=
  { world.putWebhook world.webhooksDrawn (some ⟨world.webhooksDrawn, true, .ACTIVE, 0⟩) with
    webhooksDrawn := world.webhooksDrawn + 1 }

def PmWebhook.enable (enabled : Bool) (hook : PmWebhook) : PmWebhook :=
  if enabled then
    { hook with
      enabled := true
      status := .ACTIVE
      consecutiveFailures := 0 }
  else
    { hook with
      enabled := false
      status := .PAUSED }

def World.enableWebhook (world : World) (id : WebhookId) (enabled : Bool) : World :=
  world.putWebhook id ((world.webhooks id).map (PmWebhook.enable enabled))

/-- Its deliveries go with it. -/
def World.deleteWebhook (world : World) (id : WebhookId) : World :=
  { world.putWebhook id none with
    deliveries := fun delivery =>
      (world.deliveries delivery).filter fun row => row.webhookId != id }

def PmWebhookDelivery.fresh (id : DeliveryId) (webhookId : WebhookId) (createdAt nextAttemptAt : ℤ) :
    PmWebhookDelivery :=
  ⟨id, webhookId, .PENDING, 0, nextAttemptAt, none, none, createdAt, none⟩

def World.create (world : World) (webhookId : WebhookId) (nextAttemptAt : ℤ) : World :=
  { world.putDelivery world.deliveriesDrawn
      (some (.fresh world.deliveriesDrawn webhookId world.clock nextAttemptAt)) with
    deliveriesDrawn := world.deliveriesDrawn + 1 }

def World.enqueue (world : World) (webhookId : WebhookId) : World :=
  if (world.webhooks webhookId).isSome then world.create webhookId world.clock else world

def World.begin_ (world : World) (place : ℕ) (attempt : Attempt) : World :=
  { world with
    attempts := world.attempts.set place (attempt.begin_ world.clock)
    log := world.log ++ [.started attempt.read.delivery.id world.clock] }

/-- The row is born leased, and this call alone attempts it. -/
def World.sendTest (world : World) (webhookId : WebhookId) : World :=
  match world.webhooks webhookId with
  | none => world
  | some hook =>
    let row := PmWebhookDelivery.fresh world.deliveriesDrawn webhookId world.clock
      (world.clock + DELIVERY_LEASE_MS)
    let attempt : Attempt := ⟨none, ⟨row, hook⟩, world.clock, .waiting⟩
    let created := world.create webhookId (world.clock + DELIVERY_LEASE_MS)
    { created with attempts := world.attempts ++ [attempt] }.begin_ world.attempts.length attempt

/-- `claimDueDeliveries`: what the SELECT finds. -/
def World.due (world : World) (locked : List DeliveryId) : List PmWebhookDelivery :=
  ((((List.range world.deliveriesDrawn).filterMap world.deliveries).filter fun row =>
    row.owed && decide (row.nextAttemptAt ≤ world.clock) && !locked.contains row.id).mergeSort
      fun first second => decide (first.nextAttemptAt ≤ second.nextAttemptAt)).take DELIVERY_BATCH

def PmWebhookDelivery.leased (now : ℤ) (row : PmWebhookDelivery) : PmWebhookDelivery :=
  { row with nextAttemptAt := now + DELIVERY_LEASE_MS }

def World.claimed (world : World) (locked : List DeliveryId) : List PmWebhookDelivery :=
  ((world.due locked).map (PmWebhookDelivery.leased world.clock)).mergeSort fun first second =>
    decide (first.createdAt < second.createdAt ∨
      first.createdAt = second.createdAt ∧ first.id ≤ second.id)

/-- The claimed rows with their webhooks, as attempts that wait for their chunk. -/
def World.taken (world : World) (locked : List DeliveryId) : List Attempt :=
  ((world.claimed locked).filterMap fun row =>
    (world.webhooks row.webhookId).map (DeliveryWithWebhook.mk row)).mapIdx fun place read =>
      ⟨some (world.sweeps, place), read, world.clock, .waiting⟩

def World.claim (world : World) (locked : List DeliveryId) : World :=
  { world with
    deliveries := fun id =>
      if id ∈ (world.due locked).map PmWebhookDelivery.id then
        (world.deliveries id).map (PmWebhookDelivery.leased world.clock)
      else world.deliveries id
    attempts := world.attempts ++ world.taken locked
    sweeps := world.sweeps + 1 }

def World.chunkBegins (world : World) (sweep : ℕ × ℕ) : Bool :=
  world.attempts.all fun other =>
    match other.sweep with
    | none => true
    | some (sweep', place) =>
      decide (sweep' ≠ sweep.1 ∨ sweep.2 / DELIVERY_CONCURRENCY ≤ place / DELIVERY_CONCURRENCY) ||
        other.stage == .over

def World.beginAt (world : World) (place : ℕ) : World :=
  match world.attempts[place]? with
  | some attempt =>
    match attempt.stage, attempt.sweep with
    | .waiting, some sweep =>
      if world.chunkBegins sweep then world.begin_ place attempt else world
    | _, _ => world
  | none => world

def World.dialAt (world : World) (place : ℕ) (outcome : Dial) : World :=
  match world.attempts[place]? with
  | some attempt => if attempt.stage = .dialing then world.setStage place outcome.stage else world
  | none => world

def Attempt.record (attempt : Attempt) (clock : ℤ) : List Entry :=
  match attempt.stage with
  | .failing _ _ => [.failed attempt.read.delivery.id attempt.now clock]
  | .delivering _ => if attempt.test then [] else [.delivered attempt.read.webhook.id]
  | _ => []

/-- `settle`: only a row still owed an attempt is written. -/
def World.settle (world : World) (place : ℕ) (attempt : Attempt) : World :=
  match world.deliveries attempt.read.delivery.id with
  | some row =>
    if row.owed then
      ((world.putDelivery row.id (some (attempt.data row))).note
        (attempt.record world.clock)).setStage place attempt.settled
    else world.setStage place attempt.settled
  | none => world.setStage place attempt.settled

def World.count (world : World) (place : ℕ) (hook : WebhookId) : World :=
  ((world.putWebhook hook ((world.webhooks hook).map fun row =>
    { row with
      consecutiveFailures := row.consecutiveFailures + 1 })).note [.counted hook]).setStage place
        .disabling

def PmWebhook.failing (hook : PmWebhook) : Bool :=
  hook.status == .ACTIVE && decide (DISABLE_AFTER_FAILURES ≤ hook.consecutiveFailures)

def PmWebhook.disabled (hook : PmWebhook) : PmWebhook :=
  { hook with
    status := .DISABLED_FAILING
    enabled := false }

def World.disable (world : World) (place : ℕ) (id : WebhookId) : World :=
  match world.webhooks id with
  | some hook =>
    if hook.failing then
      ((world.putWebhook id (some hook.disabled)).note [.turnedOff id place]).setStage place
        .notifying
    else world.setStage place .over
  | none => world.setStage place .over

/-- The call; whether it succeeds or throws. -/
def World.notify (world : World) (place : ℕ) (hook : WebhookId) : World :=
  (world.note [.notified hook place]).setStage place .over

def World.forgive (world : World) (place : ℕ) (hook : WebhookId) : World :=
  (world.putWebhook hook ((world.webhooks hook).map fun row =>
    { row with
      consecutiveFailures := 0 })).setStage place .over

def World.advance (world : World) (place : ℕ) (attempt : Attempt) : World :=
  match attempt.stage with
  | .waiting => world
  | .dialing => world
  | .givingUp _ => world.settle place attempt
  | .blocking => world.settle place attempt
  | .failing _ _ => world.settle place attempt
  | .delivering _ => world.settle place attempt
  | .counting => world.count place attempt.read.webhook.id
  | .disabling => world.disable place attempt.read.webhook.id
  | .notifying => world.notify place attempt.read.webhook.id
  | .forgiving => world.forgive place attempt.read.webhook.id
  | .over => world

def World.advanceAt (world : World) (place : ℕ) : World :=
  match world.attempts[place]? with
  | some attempt => world.advance place attempt
  | none => world

def World.crash (world : World) (sweep : ℕ) : World :=
  { world with
    attempts := world.attempts.map fun attempt =>
      if attempt.sweep.map Prod.fst = some sweep then { attempt with stage := .over } else attempt }

def World.prune (world : World) : World :=
  { world with
    deliveries := fun id =>
      (world.deliveries id).filter fun row =>
        row.owed || decide (world.clock - DELIVERY_RETENTION_MS ≤ row.createdAt) }

def World.act (world : World) : Action → World
  | .createWebhook => world.createWebhook
  | .enableWebhook webhook enabled => world.enableWebhook webhook enabled
  | .deleteWebhook webhook => world.deleteWebhook webhook
  | .enqueue webhook => world.enqueue webhook
  | .sendTest webhook => world.sendTest webhook
  | .claim locked => world.claim locked
  | .begin_ attempt => world.beginAt attempt
  | .dial attempt outcome => world.dialAt attempt outcome
  | .advance attempt => world.advanceAt attempt
  | .lose attempt => world.setStage attempt .over
  | .crash sweep => world.crash sweep
  | .prune => world.prune

def World.at_ (world : World) (instant : ℤ) : World :=
  { world with clock := max world.clock instant }

def World.step (world : World) (event : Event) : World :=
  (world.at_ event.instant).act event.action

end Droplet.Webhooks
