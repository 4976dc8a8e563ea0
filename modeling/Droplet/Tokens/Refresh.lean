import Droplet.Lib.Expiring
import Droplet.Lib.Histories
import Droplet.Lib.Stepping
import Droplet.People.Guard

/-! Refresh tokens (`services/jwt.service.ts`, `routes/auth.ts`): requests that rotate them, logouts and
revocations, cut at their awaits, over a Redis that carries out one command at a time. -/

namespace Droplet.Tokens

open Expiring People

def ACCESS_TOKEN_TTL_SECONDS : ℤ := 15 * 60

def REFRESH_TOKEN_TTL_SECONDS : ℤ := 7 * 24 * 60 * 60

def ROTATION_CLAIM_SECONDS : ℤ := 30

inductive TokenType where
  | access
  | refresh
  deriving DecidableEq

/-- The claims of a token; every signer gives `expiresIn`. -/
structure Token where
  type : TokenType
  sub : String
  username : String
  displayName : Option String
  role : Option Role
  sid : Option String
  accessRoleId : Option (Option String)
  jti : Option String
  /-- Epoch seconds. -/
  exp : ℤ
  deriving DecidableEq

structure JwtPayload where
  sub : String
  username : String
  displayName : String
  role : Role
  sid : Option String

structure UserRow where
  directoryStatus : DirectoryStatus
  role : Option Role
  accessRoleId : Option String

/-- Of the set under `jwt:sessions:`. -/
structure Member (Hash : Type) where
  hash : Hash
  exp : ℤ
  deriving DecidableEq

/-- The hash the denylist goes by, and whether the router was given a database. -/
structure Config (Hash : Type) where
  tokenHash : Token → Hash
  prisma : Bool

variable {Hash : Type} [DecidableEq Hash]

/-- `Math.floor(Date.now() / 1000)` -/
def seconds (now : ℤ) : ℤ := now / 1000

def jwtVerify (signed : List Token) (now : ℤ) (token : Token) : Option Token :=
  if token ∈ signed ∧ seconds now < token.exp then some token else none

/-- What `verifyRefreshToken` makes of a token before it looks at the denylist. -/
def refreshPayload (decoded : Token) : Option JwtPayload :=
  if decoded.type ≠ .refresh ∨ decoded.sub = "" ∨ decoded.username = "" then none
  else decoded.role.map fun role =>
    ⟨decoded.sub, decoded.username, decoded.displayName.getD decoded.username, role, decoded.sid⟩

def signRefreshToken (payload : JwtPayload) (role : Role) (jti : String) (now : ℤ) : Token where
  type := .refresh
  sub := payload.sub
  username := payload.username
  displayName := payload.displayName
  role := role
  sid := payload.sid.filter (· ≠ "")
  accessRoleId := none
  jti := jti
  exp := seconds now + REFRESH_TOKEN_TTL_SECONDS

def signAccessToken (payload : JwtPayload) (role : Role) (accessRoleId : Option (Option String))
    (now : ℤ) : Token where
  type := .access
  sub := payload.sub
  username := payload.username
  displayName := payload.displayName
  role := role
  sid := payload.sid.filter (· ≠ "")
  accessRoleId := accessRoleId
  jti := none
  exp := seconds now + ACCESS_TOKEN_TTL_SECONDS

/-- The time `denyRefreshToken` writes an entry for, when it writes one. -/
def denialSeconds (signed : List Token) (now : ℤ) (token : Token) : Option ℤ :=
  (jwtVerify signed now token).bind fun decoded =>
    if decoded.exp - seconds now ≤ 0 then none else some (decoded.exp - seconds now)

inductive SessionCheckKind where
  | ok
  | expired
  | missing
  | error

def SessionCheckKind.dead : SessionCheckKind → Bool
  | .missing | .expired => true
  | _ => false

inductive Denial where
  /-- The request answers 401. -/
  | refuse
  | rotate (payload : JwtPayload) (user : UserRow)
  | logout (userId : Option String)

/-- What a call on one token does next. -/
inductive Stage (Hash : Type) where
  | verify
  | get (payload : JwtPayload)
  | checkSession (payload : JwtPayload)
  | claim (payload : JwtPayload)
  | findUser (payload : JwtPayload)
  | deny (denial : Denial)
  | set_ (denial : Denial) (ttl : ℤ)
  | unregister (userId : String) (denial : Denial)
  | srem (userId : String) (denial : Denial)
  | sign (payload : JwtPayload) (user : UserRow)
  | sadd (userId : String) (member : Member Hash) (ttl : ℤ)
  | expireNx (userId : String) (ttl : ℤ)
  | expireGt (userId : String) (ttl : ℤ)
  | done

/-- What `revokeUserSessions` does next. -/
inductive RevokeStage (Hash : Type) where
  | smembers
  | clock (members : List (Member Hash))
  /-- `now` in seconds is as it was read. -/
  | set_ (member : Member Hash) (rest : List (Member Hash)) (now : ℤ)
  | del
  | done

inductive Call (Hash : Type) where
  | request (token : Token) (stage : Stage Hash)
  | revocation (userId : String) (stage : RevokeStage Hash)

/-- What happened, as it happened. -/
inductive Note (Hash : Type) where
  /-- `verifyRefreshToken` let the token through. -/
  | passed (id : ℕ) (token : Token) (at_ : ℤ)
  | claimed (id : ℕ) (token : Token)
  | read (id : ℕ) (userId : String) (row : Option UserRow)
  /-- An entry for the rest of a token's time was written. -/
  | denied (hash : Hash)
  /-- A request signed a pair for the token it was given. -/
  | issued (id : ℕ) (token : Token) (userId : String) (refresh access : Token)

structure World (Hash : Type) where
  /-- In milliseconds. -/
  now : ℤ
  /-- Under `jwt:deny:`; every value is `true`. -/
  denylist : Store Hash Unit
  sessions : Store String (List (Member Hash))
  users : String → Option UserRow
  signed : List Token
  calls : ℕ → Option (Call Hash)
  log : List (Note Hash)

def Denial.next : Denial → Stage Hash
  | .refuse => .done
  | .rotate payload user => .unregister payload.sub (.rotate payload user)
  | .logout none => .done
  | .logout (some userId) => .unregister userId (.logout (some userId))

/-- After the session index has been left. -/
def Denial.last : Denial → Stage Hash
  | .rotate payload user => .sign payload user
  | _ => .done

def RevokeStage.turn (now : ℤ) (todo : List (Member Hash)) : RevokeStage Hash :=
  match todo.dropWhile fun member => member.exp - now ≤ 0 with
  | [] => .del
  | member :: rest => .set_ member rest now

/-- The next command carries what is outside the program: the answer of `checkSession`, and the id of
a token. -/
structure Choice where
  session : SessionCheckKind
  jti : String

def sessionCheck (payload : JwtPayload) (choice : Choice) : SessionCheckKind :=
  if (payload.sid.filter (· ≠ "")).isSome then choice.session else .missing

namespace World

def members (world : World Hash) (userId : String) : List (Member Hash) :=
  ((world.sessions userId).map Entry.value).getD []

def expiry (world : World Hash) (ttl : ℤ) : ℤ := world.now + ttl * 1000

def put (world : World Hash) (id : ℕ) (call : Call Hash) : World Hash :=
  { world with calls := Function.update world.calls id (some call) }

def note (world : World Hash) (note : Note Hash) : World Hash :=
  { world with log := world.log ++ [note] }

def set_ (world : World Hash) (hash : Hash) (ttl : ℤ) : World Hash :=
  { world with denylist := Expiring.put world.denylist hash () (world.expiry ttl) }

/-- `SADD`: a key that is there keeps its expiry. -/
def sadd (world : World Hash) (userId : String) (member : Member Hash) : World Hash :=
  let before := world.members userId
  let after := if member ∈ before then before else before ++ [member]
  { world with sessions := overwrite world.sessions userId after }

/-- `SREM`: a set without members is gone. -/
def srem (world : World Hash) (userId : String) (member : Member Hash) : World Hash :=
  let rest := (world.members userId).filter (· ≠ member)
  { world with
    sessions := if rest.isEmpty then drop world.sessions userId
      else overwrite world.sessions userId rest }

def sign (world : World Hash) (tokens : List Token) : World Hash :=
  { world with signed := tokens ++ world.signed }

variable (config : Config Hash)

def requestStep (world : World Hash) (id : ℕ) (token : Token) (choice : Choice) :
    Stage Hash → World Hash
  | .verify =>
    match (jwtVerify world.signed world.now token).bind refreshPayload with
    | none => world.put id (.request token .done)
    | some payload => world.put id (.request token (.get payload))
  | .get payload =>
    if (world.denylist (config.tokenHash token)).isSome then world.put id (.request token .done)
    else (world.put id (.request token (.checkSession payload))).note (.passed id token world.now)
  | .checkSession payload =>
    if (sessionCheck payload choice).dead then world.put id (.request token (.deny .refuse))
    else world.put id (.request token (.claim payload))
  | .claim payload =>
    -- `SET NX`: a claim that another holds, or a denial, stands
    if (world.denylist (config.tokenHash token)).isSome then world.put id (.request token .done)
    else ((world.set_ (config.tokenHash token) ROTATION_CLAIM_SECONDS).put id
      (.request token (.findUser payload))).note (.claimed id token)
  | .findUser payload =>
    if config.prisma then
      let row := world.users payload.sub
      (world.put id (.request token (.deny
        (match row with
        | none => .refuse
        | some user => if user.directoryStatus = .deactivated then .refuse else
            .rotate payload user)))).note (.read id payload.sub row)
    else world.put id (.request token (.deny .refuse))
  | .deny denial =>
    match denialSeconds world.signed world.now token with
    | none => world.put id (.request token denial.next)
    | some ttl => world.put id (.request token (.set_ denial ttl))
  | .set_ denial ttl =>
    ((world.set_ (config.tokenHash token) ttl).put id (.request token denial.next)).note
      (.denied (config.tokenHash token))
  | .unregister userId denial =>
    if (jwtVerify world.signed world.now token).isSome ∧ token.type = .refresh then
      world.put id (.request token (.srem userId denial))
    else world.put id (.request token denial.last)
  | .srem userId denial =>
    (world.srem userId ⟨config.tokenHash token, token.exp⟩).put id (.request token denial.last)
  | .sign payload user =>
    let role := user.role.getD payload.role
    let refresh := signRefreshToken payload role choice.jti world.now
    let access := signAccessToken payload role (some user.accessRoleId) world.now
    (((world.sign [refresh, access]).put id (.request token (.sadd payload.sub
      ⟨config.tokenHash refresh, refresh.exp⟩ (refresh.exp - seconds world.now)))).note
        (.issued id token payload.sub refresh access))
  | .sadd userId member ttl =>
    (world.sadd userId member).put id (.request token (.expireNx userId ttl))
  | .expireNx userId ttl =>
    { world with sessions := Expiring.expireNx world.sessions userId (world.expiry ttl) }.put id
      (.request token (.expireGt userId ttl))
  | .expireGt userId ttl =>
    { world with sessions := Expiring.expireGt world.sessions userId (world.expiry ttl) }.put id
      (.request token .done)
  | .done => world

def revokeStep (world : World Hash) (id : ℕ) (userId : String) : RevokeStage Hash → World Hash
  | .smembers => world.put id (.revocation userId (.clock (world.members userId)))
  | .clock members => world.put id (.revocation userId (.turn (seconds world.now) members))
  | .set_ member rest now =>
    ((world.set_ member.hash (member.exp - now)).put id (.revocation userId (.turn now rest))).note
      (.denied member.hash)
  | .del => { world with sessions := drop world.sessions userId }.put id (.revocation userId .done)
  | .done => world

end World

inductive Event where
  | passes (milliseconds : ℕ)
  /-- A row of the users is written or deleted. -/
  | user (userId : String) (row : Option UserRow)
  /-- `issueSessionTokens` at a login. -/
  | login (id : ℕ) (user : JwtPayload) (accessRoleId : Option (Option String)) (jti : String)
  | refresh (id : ℕ) (token : Token)
  | logout (id : ℕ) (token : Token) (userId : Option String)
  | revoke (id : ℕ) (userId : String)
  | step (id : ℕ) (choice : Choice)
  /-- A call fails, or the process it runs in does. -/
  | stop (id : ℕ)

variable (config : Config Hash)

def World.begins (world : World Hash) (id : ℕ) (call : Call Hash) : World Hash :=
  if (world.calls id).isSome then world else world.put id call

def Call.stopped : Call Hash → Call Hash
  | .request token _ => .request token .done
  | .revocation userId _ => .revocation userId .done

def World.login (world : World Hash) (id : ℕ) (user : JwtPayload)
    (accessRoleId : Option (Option String)) (jti : String) : World Hash :=
  let refresh := signRefreshToken user user.role jti world.now
  let access := signAccessToken user user.role accessRoleId world.now
  (world.sign [refresh, access]).begins id (.request refresh (.sadd user.sub
    ⟨config.tokenHash refresh, refresh.exp⟩ (refresh.exp - seconds world.now)))

def World.act (world : World Hash) (id : ℕ) (choice : Choice) : World Hash :=
  match world.calls id with
  | none => world
  | some (.request token stage) => world.requestStep config id token choice stage
  | some (.revocation userId stage) => world.revokeStep id userId stage

def World.step (world : World Hash) : Event → World Hash
  | .passes milliseconds =>
    { world with
      now := world.now + milliseconds
      denylist := purge (world.now + milliseconds) world.denylist
      sessions := purge (world.now + milliseconds) world.sessions }
  | .user userId row => { world with users := Function.update world.users userId row }
  | .login id user accessRoleId jti => world.login config id user accessRoleId jti
  | .refresh id token => world.begins id (.request token .verify)
  | .logout id token userId => world.begins id (.request token (.deny (.logout userId)))
  | .revoke id userId => world.begins id (.revocation userId .smembers)
  | .step id choice => world.act config id choice
  | .stop id =>
    match world.calls id with
    | none => world
    | some call => world.put id call.stopped

def World.new (now : ℤ) : World Hash where
  now := now
  denylist := fun _ => none
  sessions := fun _ => none
  users := fun _ => none
  signed := []
  calls := fun _ => none
  log := []

def World.after (now : ℤ) (events : List Event) : World Hash :=
  Stepping.run (World.step config) (World.new now) events

end Droplet.Tokens
