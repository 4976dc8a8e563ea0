import Droplet.Lib.Expiring
import Droplet.Lib.Stepping
import Droplet.People.Guard

/-! Session records (`services/session.service.ts`): every call is cut at the Redis commands it sends, and
Redis carries out one command at a time. -/

namespace Droplet.Sessions

open Expiring People

abbrev UserId := ℕ

/-- A random UUID. -/
abbrev Sid := ℕ

structure SessionRecord where
  userId : UserId
  role : Role
  /-- Epoch seconds. -/
  createdAt : ℤ
  /-- Epoch seconds. -/
  lastSeenAt : ℤ

/-- The settings; one that is no number is `none`. -/
structure Config where
  SESSION_IDLE_TIMEOUT_ADMIN_SECONDS : Option ℤ
  SESSION_IDLE_TIMEOUT_USER_SECONDS : Option ℤ
  SESSION_ABSOLUTE_TIMEOUT_ADMIN_SECONDS : Option ℤ
  SESSION_ABSOLUTE_TIMEOUT_USER_SECONDS : Option ℤ
  SESSION_MAX_CONCURRENT_PER_USER : Option ℤ

def SESSION_TOUCH_INTERVAL_SECONDS : ℤ := 30

def RECORD_GC_GRACE_SECONDS : ℤ := 24 * 60 * 60

def cfgNum (value : Option ℤ) (fallback : ℤ) : ℤ :=
  match value with
  | some value => if 0 < value then value else fallback
  | none => fallback

def idleLimitSecondsForRole (config : Config) (role : Role) : ℤ :=
  if role = .owner || role = .admin then cfgNum config.SESSION_IDLE_TIMEOUT_ADMIN_SECONDS (30 * 60)
  else cfgNum config.SESSION_IDLE_TIMEOUT_USER_SECONDS (30 * 60)

def absoluteLimitSecondsForRole (config : Config) (role : Role) : ℤ :=
  if role = .owner || role = .admin then
    cfgNum config.SESSION_ABSOLUTE_TIMEOUT_ADMIN_SECONDS (12 * 60 * 60)
  else cfgNum config.SESSION_ABSOLUTE_TIMEOUT_USER_SECONDS (12 * 60 * 60)

def maxConcurrentSessions (config : Config) : ℤ := cfgNum config.SESSION_MAX_CONCURRENT_PER_USER 5

def gcTtl (config : Config) (role : Role) : ℤ :=
  absoluteLimitSecondsForRole config role + RECORD_GC_GRACE_SECONDS

inductive Command where
  | get (sid : Sid)
  | setEx (sid : Sid) (record : SessionRecord) (seconds : ℤ)
  | setKeepTtl (sid : Sid) (record : SessionRecord)
  | del (sid : Sid)
  | exists_ (sid : Sid)
  | zadd (user : UserId) (score : ℤ) (sid : Sid)
  | zrem (user : UserId) (sid : Sid)
  | zrange (user : UserId)
  | expireNx (user : UserId) (seconds : ℤ)
  | expireGt (user : UserId) (seconds : ℤ)

inductive Reply where
  | ok
  | record (found : Option SessionRecord)
  | count (positive : Bool)
  | members (sids : List Sid)

structure Redis where
  /-- In milliseconds. -/
  now : ℤ
  /-- Under `sess:rec:`. -/
  records : Store Sid SessionRecord
  /-- Under `sess:user:`. -/
  indexes : Store UserId (Scored Sid)

namespace Redis

def index (redis : Redis) (user : UserId) : Scored Sid :=
  ((redis.indexes user).map Entry.value).getD []

def expiry (redis : Redis) (seconds : ℤ) : ℤ := redis.now + seconds * 1000

def setIndex (redis : Redis) (user : UserId) (index : Scored Sid) : Redis :=
  { redis with indexes := if index.isEmpty then drop redis.indexes user else
      overwrite redis.indexes user index }

def exec (redis : Redis) : Command → Redis × Reply
  | .get sid => (redis, .record ((redis.records sid).map Entry.value))
  | .setEx sid record seconds =>
    ({ redis with records := put redis.records sid record (redis.expiry seconds) }, .ok)
  | .setKeepTtl sid record => ({ redis with records := overwrite redis.records sid record }, .ok)
  | .del sid => ({ redis with records := drop redis.records sid }, .count (redis.records sid).isSome)
  | .exists_ sid => (redis, .count (redis.records sid).isSome)
  | .zadd user score sid => (redis.setIndex user ((redis.index user).add score sid), .ok)
  | .zrem user sid => (redis.setIndex user ((redis.index user).remove sid), .ok)
  | .zrange user => (redis, .members (redis.index user).members)
  | .expireNx user seconds =>
    ({ redis with indexes := Expiring.expireNx redis.indexes user (redis.expiry seconds) }, .ok)
  | .expireGt user seconds =>
    ({ redis with indexes := Expiring.expireGt redis.indexes user (redis.expiry seconds) }, .ok)

/-- Keys whose time is over go. -/
def passes (redis : Redis) (milliseconds : ℕ) : Redis where
  now := redis.now + milliseconds
  records := purge (redis.now + milliseconds) redis.records
  indexes := purge (redis.now + milliseconds) redis.indexes

end Redis

inductive CreateStage where
  | set
  | zadd
  | expireNx
  | expireGt
  | zrange
  /-- The first of `todo` is looked up. -/
  | walk (member : Sid) (todo live : List Sid)
  | prune (member : Sid) (todo live : List Sid)
  | evict (oldest : Sid) (live : List Sid)
  | unlist (oldest : Sid) (live : List Sid)
  | done
  deriving DecidableEq

structure Creation where
  user : UserId
  role : Role
  sid : Sid
  /-- `nowSeconds()` -/
  at_ : ℤ
  stage : CreateStage := .set
  evictedSids : List Sid := []

namespace Creation

def record (creation : Creation) : SessionRecord where
  userId := creation.user
  role := creation.role
  createdAt := creation.at_
  lastSeenAt := creation.at_

/-- Evict the oldest beyond the cap, but never the session that is created. -/
def cap (config : Config) (creation : Creation) (live : List Sid) : Creation :=
  if maxConcurrentSessions config < live.length then
    match live with
    | [] => { creation with stage := .done }
    | oldest :: rest =>
      if oldest = creation.sid then { creation with stage := .done }
      else { creation with stage := .evict oldest rest }
  else { creation with stage := .done }

def turn (config : Config) (creation : Creation) (todo live : List Sid) : Creation :=
  match todo with
  | [] => creation.cap config live
  | member :: rest => { creation with stage := .walk member rest live }

def command (config : Config) (creation : Creation) : Option Command :=
  match creation.stage with
  | .set => some (.setEx creation.sid creation.record (gcTtl config creation.role))
  | .zadd => some (.zadd creation.user creation.at_ creation.sid)
  | .expireNx => some (.expireNx creation.user (gcTtl config creation.role))
  | .expireGt => some (.expireGt creation.user (gcTtl config creation.role))
  | .zrange => some (.zrange creation.user)
  | .walk member _ _ => some (.exists_ member)
  | .prune member _ _ => some (.zrem creation.user member)
  | .evict oldest _ => some (.del oldest)
  | .unlist oldest _ => some (.zrem creation.user oldest)
  | .done => none

def react (config : Config) (creation : Creation) (reply : Reply) : Creation :=
  match creation.stage, reply with
  | .set, _ => { creation with stage := .zadd }
  | .zadd, _ => { creation with stage := .expireNx }
  | .expireNx, _ => { creation with stage := .expireGt }
  | .expireGt, _ => { creation with stage := .zrange }
  | .zrange, .members sids => creation.turn config sids []
  | .walk member todo live, .count positive =>
    if positive then creation.turn config todo (live ++ [member])
    else { creation with stage := .prune member todo live }
  | .prune _ todo live, _ => creation.turn config todo live
  | .evict oldest live, _ => { creation with stage := .unlist oldest live }
  | .unlist oldest live, _ =>
    { creation with evictedSids := creation.evictedSids ++ [oldest] }.cap config live
  | _, _ => creation

end Creation

inductive Expiry where
  | idle_timeout
  | absolute_timeout

inductive SessionCheckResult where
  | ok (record : SessionRecord)
  | expired (reason : Expiry)
  | missing

inductive CheckStage where
  | get
  /-- `destroyRecord` -/
  | destroy (reason : Expiry) (record : SessionRecord)
  | unlist (reason : Expiry) (record : SessionRecord)
  | touch (record : SessionRecord) (at_ : ℤ)
  | done (result : SessionCheckResult)

structure Check where
  sid : Sid
  touch : Bool
  stage : CheckStage := .get

namespace Check

def command (check : Check) : Option Command :=
  match check.stage with
  | .get => some (.get check.sid)
  | .destroy _ _ => some (.del check.sid)
  | .unlist _ record => some (.zrem record.userId check.sid)
  | .touch record at_ => some (.setKeepTtl check.sid { record with lastSeenAt := at_ })
  | .done _ => none

/-- What a record leads to; `now` is `nowSeconds()`. -/
def judge (config : Config) (check : Check) (record : SessionRecord) (now : ℤ) : CheckStage :=
  if absoluteLimitSecondsForRole config record.role ≤ now - record.createdAt then
    .destroy .absolute_timeout record
  else if idleLimitSecondsForRole config record.role ≤ now - record.lastSeenAt then
    .destroy .idle_timeout record
  else if check.touch && SESSION_TOUCH_INTERVAL_SECONDS ≤ now - record.lastSeenAt then
    .touch record now
  else .done (.ok record)

def react (config : Config) (now : ℤ) (check : Check) (reply : Reply) : Check :=
  match check.stage, reply with
  | .get, .record none => { check with stage := .done .missing }
  | .get, .record (some record) => { check with stage := check.judge config record now }
  | .destroy reason record, _ => { check with stage := .unlist reason record }
  | .unlist reason _, _ => { check with stage := .done (.expired reason) }
  | .touch record _, _ => { check with stage := .done (.ok record) }
  | _, _ => check

end Check

inductive DeleteStage where
  | del
  | zrem
  | done
  deriving DecidableEq

structure Deletion where
  userId : UserId
  sid : Sid
  stage : DeleteStage := .del

namespace Deletion

def command (deletion : Deletion) : Option Command :=
  match deletion.stage with
  | .del => some (.del deletion.sid)
  | .zrem => some (.zrem deletion.userId deletion.sid)
  | .done => none

def react (deletion : Deletion) : Deletion :=
  match deletion.stage with
  | .del => { deletion with stage := .zrem }
  | .zrem => { deletion with stage := .done }
  | .done => deletion

end Deletion

inductive RevokeStage where
  | zrange
  | del (sid : Sid) (rest : List Sid)
  | zrem (sid : Sid) (rest : List Sid) (removed : Bool)
  /-- Over; the sweep of the refresh tokens uses other keys. -/
  | done

structure Revocation where
  userId : UserId
  exceptSid : Option Sid
  stage : RevokeStage := .zrange
  /-- What ZRANGE listed. -/
  listed : List Sid := []
  revoked : ℕ := 0

namespace Revocation

/-- On to the next session that is not excepted. -/
def turn (revocation : Revocation) (rest : List Sid) : Revocation :=
  match rest.dropWhile fun sid => revocation.exceptSid = some sid with
  | [] => { revocation with stage := .done }
  | sid :: left => { revocation with stage := .del sid left }

def command (revocation : Revocation) : Option Command :=
  match revocation.stage with
  | .zrange => some (.zrange revocation.userId)
  | .del sid _ => some (.del sid)
  | .zrem sid _ _ => some (.zrem revocation.userId sid)
  | .done => none

def react (revocation : Revocation) (reply : Reply) : Revocation :=
  match revocation.stage, reply with
  | .zrange, .members sids => { revocation with listed := sids }.turn sids
  | .del sid rest, .count removed => { revocation with stage := .zrem sid rest removed }
  | .zrem _ rest removed, _ =>
    { revocation with
      revoked := if removed then revocation.revoked + 1 else revocation.revoked }.turn rest
  | _, _ => revocation

end Revocation

inductive Execution where
  | create (creation : Creation)
  | check (check : Check)
  | delete (deletion : Deletion)
  | revoke (revocation : Revocation)

namespace Execution

def command (config : Config) : Execution → Option Command
  | .create creation => creation.command config
  | .check running => running.command
  | .delete deletion => deletion.command
  | .revoke revocation => revocation.command

def react (config : Config) (now : ℤ) (reply : Reply) : Execution → Execution
  | .create creation => .create (creation.react config reply)
  | .check running => .check (running.react config now reply)
  | .delete deletion => .delete deletion.react
  | .revoke revocation => .revoke (revocation.react reply)

end Execution

structure World where
  redis : Redis
  executions : List Execution
  /-- The sids that were drawn or asked about. No state of the program: it keeps sids apart. -/
  named : List Sid

def World.start : World := ⟨⟨0, fun _ => none, fun _ => none⟩, [], []⟩

inductive Event where
  /-- `createSession` begins: it draws a sid and reads the clock. -/
  | create (user : UserId) (role : Role) (sid : Sid) (at_ : ℤ)
  | check (sid : Sid) (touch : Bool)
  | delete (userId : UserId) (sid : Sid)
  | revoke (userId : UserId) (exceptSid : Option Sid)
  /-- The next command of a call is carried out; its clock shows `now` when the reply comes. -/
  | proceed (i : ℕ) (now : ℤ)
  | passes (milliseconds : ℕ)

namespace World

/-- A sid is known to nobody before its `createSession` has returned it. -/
def known (world : World) (sid : Sid) : Bool :=
  world.executions.all fun
    | .create creation =>
      match creation.stage with
      | .done => true
      | _ => creation.sid ≠ sid
    | _ => true

def begins (world : World) (execution : Execution) (sids : List Sid) : World :=
  { world with executions := world.executions ++ [execution], named := world.named ++ sids }

def step (config : Config) (world : World) : Event → World
  | .create user role sid at_ =>
    if world.named.contains sid then world
    else world.begins (.create { user, role, sid, at_ }) [sid]
  | .check sid touch =>
    if world.known sid then world.begins (.check { sid, touch }) [sid] else world
  | .delete userId sid =>
    if world.known sid then world.begins (.delete { userId, sid }) [sid] else world
  | .revoke userId exceptSid => world.begins (.revoke { userId, exceptSid }) []
  | .proceed i now =>
    match world.executions[i]? with
    | none => world
    | some execution =>
      match execution.command config with
      | none => world
      | some command =>
        let (redis, reply) := world.redis.exec command
        { world with redis, executions := world.executions.set i (execution.react config now reply) }
  | .passes milliseconds => { world with redis := world.redis.passes milliseconds }

def runs (config : Config) (world : World) (events : List Event) : World :=
  Stepping.run (step config) world events

end World

end Droplet.Sessions
