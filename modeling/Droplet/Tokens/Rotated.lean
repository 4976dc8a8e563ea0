import Droplet.Tokens.Refresh

/-! What a denial, and a claim, keep over any run: a denied token does not pass again in its time, and a
pair goes to a person whose row was read and was not deactivated. -/

namespace Droplet.Tokens

open Expiring People

variable {Hash : Type} [DecidableEq Hash] (config : Config Hash)

structure Granted (log : List (Note Hash)) (id : ℕ) (userId : String) (user : UserRow) : Prop where
  read : .read id userId (some user) ∈ log
  active : user.directoryStatus ≠ .deactivated
  once : ∀ other row, .read id other row ∈ log → other = userId ∧ row = some user

def Stage.verified : Stage Hash → Bool
  | .get _ | .checkSession _ | .claim _ | .findUser _ => true
  | .deny (.rotate _ _) => true
  | _ => false

def Stage.unread : Stage Hash → Bool
  | .verify | .get _ | .checkSession _ | .claim _ | .findUser _ => true
  | _ => false

def Denial.granted : Denial → Option (String × UserRow)
  | .rotate payload user => some (payload.sub, user)
  | _ => none

/-- Whom the pair will be for. -/
def Stage.granted : Stage Hash → Option (String × UserRow)
  | .deny denial | .set_ denial _ | .unregister _ denial | .srem _ denial => denial.granted
  | .sign payload user => some (payload.sub, user)
  | _ => none

/-- Does the stage write nothing under an expiry? -/
def Stage.plain : Stage Hash → Bool
  | .set_ _ _ | .sadd _ _ _ => false
  | _ => true

def Own (member : Member Hash) : Prop :=
  ∀ token, config.tokenHash token = member.hash → token.exp = member.exp

structure Fits (world : World Hash) (id : ℕ) (token : Token) (stage : Stage Hash) : Prop where
  signed : stage.verified = true → token ∈ world.signed
  unread : stage.unread = true → ∀ userId row, .read id userId row ∉ world.log
  granted : ∀ userId user, stage.granted = some (userId, user) → Granted world.log id userId user
  ttl : ∀ denial ttl, stage = .set_ denial ttl → token.exp * 1000 ≤ world.expiry ttl
  own : ∀ userId member ttl, stage = .sadd userId member ttl → Own config member

def RevokeFits (world : World Hash) : RevokeStage Hash → Prop
  | .clock members => ∀ member ∈ members, Own config member
  | .set_ first rest now => (∀ member ∈ first :: rest, Own config member) ∧ now * 1000 ≤ world.now
  | _ => True

def CallFits (world : World Hash) (id : ℕ) : Call Hash → Prop
  | .request token stage => Fits config world id token stage
  | .revocation _ stage => RevokeFits config world stage

def Vouched (earlier : List (Note Hash)) : Note Hash → Prop
  | .passed _ token at_ => .denied (config.tokenHash token) ∈ earlier → token.exp * 1000 ≤ at_
  | .issued id _ userId _ _ => ∃ user, Granted earlier id userId user
  | _ => True

/-- An entry stands for a denied token until its time is over. -/
def Denied (world : World Hash) : Prop :=
  ∀ token, .denied (config.tokenHash token) ∈ world.log → world.now < token.exp * 1000 →
    ∃ expiry, world.denylist (config.tokenHash token) = some ⟨(), some expiry⟩ ∧
      token.exp * 1000 ≤ expiry

structure Sound (world : World Hash) : Prop where
  calls : ∀ id call, world.calls id = some call → CallFits config world id call
  fresh : ∀ id, world.calls id = none → ∀ userId row, .read id userId row ∉ world.log
  members : ∀ userId, ∀ member ∈ world.members userId, Own config member
  denied : Denied config world
  log : Histories.Each (Vouched config) world.log

variable {config} {world after : World Hash} {id : ℕ} {token : Token} {call : Call Hash}

section

omit [DecidableEq Hash]

theorem not_granted {log : List (Note Hash)} {stage : Stage Hash} (none_ : stage.granted = none)
    (userId : String) (user : UserRow) (is : stage.granted = some (userId, user)) :
    Granted log id userId user := by
  cases none_.symm.trans is

theorem Granted.later {log more : List (Note Hash)} {userId : String} {user : UserRow}
    (granted : Granted log id userId user)
    (same : ∀ userId row, .read id userId row ∈ more ↔ .read id userId row ∈ log) : Granted more id userId user :=
  ⟨(same _ _).mpr granted.read, granted.active, fun other row there =>
    granted.once other row ((same _ _).mp there)⟩

theorem Fits.later {stage : Stage Hash} (fits : Fits config world id token stage)
    (now : world.now ≤ after.now) (signed : world.signed ⊆ after.signed)
    (same : ∀ userId row, .read id userId row ∈ after.log ↔ .read id userId row ∈ world.log) :
    Fits config after id token stage := by
  refine ⟨fun verified => signed (fits.signed verified), ?_, ?_, ?_, fits.own⟩
  · intro unread userId row there
    exact fits.unread unread userId row ((same _ _).mp there)
  · intro userId user granted
    exact (fits.granted userId user granted).later same
  · intro denial ttl is
    have before := fits.ttl denial ttl is
    simp only [World.expiry] at before ⊢
    omega

theorem CallFits.later (fits : CallFits config world id call)
    (now : world.now ≤ after.now) (signed : world.signed ⊆ after.signed)
    (same : ∀ userId row, .read id userId row ∈ after.log ↔ .read id userId row ∈ world.log) :
    CallFits config after id call := by
  cases call with
  | request token stage => exact Fits.later fits now signed same
  | revocation userId stage =>
    cases stage with
    | set_ member rest at_ => exact ⟨fits.1, fits.2.trans now⟩
    | _ => exact fits

end

structure Moved (world : World Hash) (id : ℕ) (call : Call Hash) (notes : List (Note Hash))
    (after : World Hash) : Prop where
  now : after.now = world.now
  signed : world.signed ⊆ after.signed
  calls : after.calls = Function.update world.calls id (some call)
  log : after.log = world.log ++ notes
  own : ∀ other userId row, .read other userId row ∈ notes → other = id

section

omit [DecidableEq Hash]

theorem Sound.moved {notes : List (Note Hash)} (sound : Sound config world)
    (moved : Moved world id call notes after) (members : ∀ userId, ∀ member ∈ after.members userId,
      member ∈ world.members userId ∨ Own config member)
    (denied : Denied config after) (log : Histories.Each (Vouched config) after.log)
    (fits : CallFits config after id call) : Sound config after := by
  have others : ∀ other, other ≠ id → ∀ userId row,
      .read other userId row ∈ after.log ↔ .read other userId row ∈ world.log := by
    intro other differ userId row
    rw [moved.log, List.mem_append]
    exact ⟨fun there => there.resolve_right fun new => differ (moved.own _ _ _ new), .inl⟩
  refine ⟨?_, ?_, ?_, denied, log⟩
  · intro other held there
    rw [moved.calls] at there
    by_cases same : other = id
    · subst same
      rw [Function.update_self] at there
      cases there
      exact fits
    · rw [Function.update_of_ne same] at there
      exact (sound.calls other held there).later moved.now.ge moved.signed (others other same)
  · intro other none userId row there
    rw [moved.calls] at none
    by_cases same : other = id
    · rw [same, Function.update_self] at none
      cases none
    · rw [Function.update_of_ne same] at none
      exact sound.fresh other none userId row ((others other same userId row).mp there)
  · intro userId member there
    rcases members userId member there with before | own
    · exact sound.members userId member before
    · exact own

theorem Sound.quiet (sound : Sound config world)
    (moved : Moved world id call [] after) (denylist : after.denylist = world.denylist)
    (members : ∀ userId, ∀ member ∈ after.members userId,
      member ∈ world.members userId ∨ Own config member)
    (fits : CallFits config after id call) : Sound config after := by
  have log : after.log = world.log := by rw [moved.log, List.append_nil]
  refine sound.moved moved members ?_ (log ▸ sound.log) fits
  intro token there inTime
  rw [denylist]
  rw [log] at there
  rw [moved.now] at inTime
  exact sound.denied token there inTime

theorem Sound.noted {note : Note Hash} (sound : Sound config world)
    (moved : Moved world id call [note] after) (sessions : after.sessions = world.sessions)
    (no_read : ∀ other userId row, note ≠ .read other userId row) (denied : Denied config after)
    (vouched : Vouched config world.log note) (fits : CallFits config world id call) : Sound config after := by
  refine sound.moved moved ?_ denied ?_ ?_
  · intro userId member there
    rw [World.members, sessions] at there
    exact .inl there
  · rw [moved.log]
    exact sound.log.append vouched
  · refine fits.later moved.now.ge moved.signed ?_
    intro userId row
    rw [moved.log, List.mem_append, List.mem_singleton]
    exact ⟨fun there => there.resolve_right fun new => no_read _ _ _ new.symm, .inl⟩

theorem moved_put (world : World Hash) (id : ℕ) (call : Call Hash) : Moved world id call [] (world.put id call) :=
  ⟨rfl, List.Subset.refl _, rfl, (List.append_nil _).symm, (by simp)⟩

theorem Sound.put (sound : Sound config world)
    (fits : CallFits config world id call) : Sound config (world.put id call) := by
  refine sound.quiet (moved_put world id call) rfl (fun _ _ => .inl) ?_
  exact fits.later le_rfl (List.Subset.refl _) fun _ _ => Iff.rfl

theorem Sound.index {sessions : Store String (List (Member Hash))} (sound : Sound config world)
    (members : ∀ userId, ∀ member ∈ { world with sessions := sessions }.members userId,
      member ∈ world.members userId ∨ Own config member) (fits : CallFits config world id call) :
    Sound config ({ world with sessions := sessions }.put id call) := by
  refine sound.quiet ⟨rfl, List.Subset.refl _, rfl, (List.append_nil _).symm, (by simp)⟩ rfl members ?_
  exact fits.later le_rfl (List.Subset.refl _) fun _ _ => Iff.rfl

theorem Fits.past {stage next : Stage Hash} (fits : Fits config world id token stage)
    (verified : next.verified = false) (unread : next.unread = false) (plain : next.plain = true)
    (granted : next.granted = none ∨ next.granted = stage.granted) : Fits config world id token next := by
  refine ⟨fun is => ?_, fun is => ?_, ?_, ?_, ?_⟩
  · rw [verified] at is
    cases is
  · rw [unread] at is
    cases is
  · intro userId user is
    rcases granted with none | same
    · cases none.symm.trans is
    · exact fits.granted userId user (same ▸ is)
  · intro denial ttl is
    rw [is] at plain
    cases plain
  · intro userId member ttl is
    rw [is] at plain
    cases plain

theorem Fits.before {stage next : Stage Hash} (fits : Fits config world id token stage)
    (verified : stage.verified = true) (unread : stage.unread = true) (plain : next.plain = true)
    (granted : next.granted = none) : Fits config world id token next := by
  refine ⟨fun _ => fits.signed verified, fun _ => fits.unread unread, not_granted granted, ?_, ?_⟩
  · intro denial ttl is
    rw [is] at plain
    cases plain
  · intro userId member ttl is
    rw [is] at plain
    cases plain

theorem fits_done : CallFits config world id call.stopped := by
  cases call with
  | request token stage => exact ⟨(by rintro ⟨⟩), (by rintro ⟨⟩), not_granted rfl, (by simp), (by simp)⟩
  | revocation userId stage => trivial

end

theorem Denied.set_ {hash : Hash} {ttl : ℤ} (denied : Denied config world)
    (long : ∀ token, config.tokenHash token = hash → token.exp * 1000 ≤ world.expiry ttl)
    (moved : Moved world id call [.denied hash] after)
    (written : after.denylist = (world.set_ hash ttl).denylist) : Denied config after := by
  intro token there inTime
  rw [moved.log] at there
  rw [moved.now] at inTime
  rw [written]
  by_cases same : config.tokenHash token = hash
  · subst same
    exact ⟨_, put_self, long token rfl⟩
  · change ∃ expiry, Expiring.put world.denylist _ () _ _ = _ ∧ _
    rw [put_other same]
    rcases List.mem_append.mp there with before | new
    · exact denied token before inTime
    · rw [List.mem_singleton, Note.denied.injEq] at new
      exact absurd new same

theorem Denied.claim (denied : Denied config world) (absent : world.denylist (config.tokenHash token) = none)
    (moved : Moved world id call [.claimed id token] after) (written : after.denylist =
      (world.set_ (config.tokenHash token) ROTATION_CLAIM_SECONDS).denylist) :
    Denied config after := by
  intro other there inTime
  rw [moved.log] at there
  rw [moved.now] at inTime
  rw [written]
  have before : .denied (config.tokenHash other) ∈ world.log := by
    rcases List.mem_append.mp there with before | new
    · exact before
    · cases List.mem_singleton.mp new
  obtain ⟨expiry, found, long⟩ := denied other before inTime
  refine ⟨expiry, ?_, long⟩
  change Expiring.put world.denylist _ () _ _ = _
  rw [put_other, found]
  intro same
  rw [same, absent] at found
  cases found

theorem denied_tick (world : World Hash) (milliseconds : ℕ) (denied : Denied config world) :
    Denied config (world.step config (.passes milliseconds)) := by
  intro token there inTime
  change world.now + milliseconds < token.exp * 1000 at inTime
  obtain ⟨expiry, found, long⟩ := denied token there (by omega)
  refine ⟨expiry, purge_some.mpr ⟨found, ?_⟩, long⟩
  simp only [Entry.lasts, decide_eq_true_eq]
  omega

variable {userId other : String} {held : Member Hash}

section

omit [DecidableEq Hash]

theorem mem_overwrite {members : List (Member Hash)}
    (there : held ∈ { world with sessions := overwrite world.sessions userId members }.members other) :
    other = userId ∧ held ∈ members ∨ held ∈ world.members other := by
  by_cases same : other = userId
  · subst same
    simp only [World.members, overwrite, put_self] at there
    exact .inl ⟨rfl, there⟩
  · simp only [World.members, overwrite, put_other same] at there
    exact .inr there

theorem mem_drop
    (there : held ∈ { world with sessions := drop world.sessions userId }.members other) :
    held ∈ world.members other := by
  by_cases same : other = userId
  · subst same
    simp only [World.members, drop_self] at there
    cases there
  · simp only [World.members, drop_other same] at there
    exact there

theorem mem_expireNx {at_ : ℤ}
    (there : held ∈ { world with sessions := expireNx world.sessions userId at_ }.members other) :
    held ∈ world.members other := by
  simpa only [World.members, expireNx_value] using there

theorem mem_expireGt {at_ : ℤ}
    (there : held ∈ { world with sessions := expireGt world.sessions userId at_ }.members other) :
    held ∈ world.members other := by
  simpa only [World.members, expireGt_value] using there

theorem mem_purge {other : String} {at_ : ℤ}
    (there : held ∈ { world with sessions := purge at_ world.sessions }.members other) :
    held ∈ world.members other := by
  simp only [World.members] at there ⊢
  cases found : purge at_ world.sessions other with
  | none =>
    rw [found] at there
    cases there
  | some entry =>
    rw [found] at there
    rw [(purge_some.mp found).1]
    exact there

end

theorem mem_sadd {member held : Member Hash} (there : held ∈ (world.sadd userId member).members other) :
    held ∈ world.members other ∨ held = member := by
  rcases mem_overwrite there with new | before
  · obtain ⟨same, new⟩ := new
    subst same
    by_cases known : member ∈ world.members other
    · rw [if_pos known] at new
      exact .inl new
    · rw [if_neg known, List.mem_append, List.mem_singleton] at new
      exact new
  · exact .inl before

theorem mem_srem {member held : Member Hash}
    (there : held ∈ (world.srem userId member).members other) : held ∈ world.members other := by
  unfold World.srem at there
  by_cases empty : ((world.members userId).filter (· ≠ member)).isEmpty = true
  · simp only [if_pos empty] at there
    exact mem_drop there
  · simp only [if_neg empty] at there
    rcases mem_overwrite there with new | before
    · obtain ⟨same, new⟩ := new
      rw [same]
      exact List.mem_of_mem_filter new
    · exact before

theorem denialSeconds_some {signed : List Token} {now ttl : ℤ}
    (found : denialSeconds signed now token = some ttl) : token.exp * 1000 ≤ now + ttl * 1000 := by
  unfold denialSeconds jwtVerify seconds at found
  split at found
  · rw [Option.bind_some] at found
    split at found
    · cases found
    · cases found
      omega
  · cases found

theorem denialSeconds_none {signed : List Token} {now : ℤ}
    (none : denialSeconds signed now token = none) (there : token ∈ signed) : token.exp * 1000 ≤ now := by
  by_contra early
  have inTime : seconds now < token.exp := by
    unfold seconds
    omega
  rw [denialSeconds, jwtVerify, if_pos ⟨there, inTime⟩, Option.bind_some, if_neg (by omega)] at none
  cases none

section

omit [DecidableEq Hash]

theorem own_member (injective : Function.Injective config.tokenHash) (token : Token) :
    Own config ⟨config.tokenHash token, token.exp⟩ := by
  intro other same
  rw [injective same]

theorem fits_next (denial : Denial) {stage : Stage Hash} (fits : Fits config world id token stage)
    (granted : stage.granted = denial.granted) : Fits config world id token denial.next := by
  cases denial with
  | refuse => exact fits.past rfl rfl rfl (.inl rfl)
  | rotate payload user => exact fits.past rfl rfl rfl (.inr granted.symm)
  | logout userId =>
    cases userId with
    | none | some => exact fits.past rfl rfl rfl (.inl rfl)

theorem fits_last (denial : Denial) {stage : Stage Hash} (fits : Fits config world id token stage)
    (granted : stage.granted = denial.granted) : Fits config world id token denial.last := by
  cases denial with
  | rotate payload user => exact fits.past rfl rfl rfl (.inr granted.symm)
  | _ => exact fits.past rfl rfl rfl (.inl rfl)

theorem Sound.read {userId : String} {row : Option UserRow} {denial : Denial} {payload : JwtPayload}
    (sound : Sound config world) (fits : Fits config world id token (.findUser payload))
    (whom : payload.sub = userId) (granted : denial.granted = none ∨ ∃ user, row = some user ∧
      user.directoryStatus ≠ .deactivated ∧ denial = .rotate payload user) :
    Sound config ((world.put id (.request token (.deny denial))).note (.read id userId row)) := by
  have moved : Moved world id (.request token (.deny denial)) [.read id userId row]
      ((world.put id (.request token (.deny denial))).note (.read id userId row)) :=
    ⟨rfl, List.Subset.refl _, rfl, rfl, by simp +contextual⟩
  refine sound.moved moved (fun _ _ => .inl) ?_ (sound.log.append trivial) ⟨?_, (by rintro ⟨⟩), ?_, (by simp), (by simp)⟩
  · intro other there inTime
    rcases List.mem_append.mp there with before | new
    · exact sound.denied other before inTime
    · cases List.mem_singleton.mp new
  · exact fun _ => fits.signed rfl
  · intro other user is
    rcases granted with none | given
    · cases none.symm.trans is
    · obtain ⟨found, rfl, active, rfl⟩ := given
      cases is
      refine ⟨List.mem_append_right _ (by rw [whom]; exact .head _), active, ?_⟩
      intro whose row there
      rcases List.mem_append.mp there with before | new
      · exact absurd before (fits.unread rfl whose row)
      · cases List.mem_singleton.mp new
        exact ⟨whom.symm, rfl⟩

theorem fits_sadd {userId : String} {member : Member Hash} {ttl : ℤ} (own : Own config member) :
    Fits config world id token (.sadd userId member ttl) := by
  refine ⟨(by rintro ⟨⟩), (by rintro ⟨⟩), not_granted rfl, (by simp), ?_⟩
  intro _ _ _ same
  cases same
  exact own

theorem Sound.issue {userId : String} {refresh access : Token} {member : Member Hash} {ttl : ℤ}
    (sound : Sound config world) (granted : ∃ user, Granted world.log id userId user) (own : Own config member) :
    Sound config (((world.sign [refresh, access]).put id
      (.request token (.sadd userId member ttl))).note (.issued id token userId refresh access)) := by
  refine sound.noted ⟨rfl, List.subset_append_right _ _, rfl, rfl, by simp⟩ rfl (by simp) ?_ granted
    (fits_sadd own)
  intro other there inTime
  rcases List.mem_append.mp there with before | new
  · exact sound.denied other before inTime
  · cases List.mem_singleton.mp new

end

theorem Sound.request (injective : Function.Injective config.tokenHash) (sound : Sound config world)
    (choice : Choice) {stage : Stage Hash} (found : world.calls id = some (.request token stage)) :
    Sound config (world.requestStep config id token choice stage) := by
  have fits : Fits config world id token stage := sound.calls id _ found
  cases stage with
  | verify =>
    simp only [World.requestStep]
    split
    · exact sound.put (fits.past rfl rfl rfl (.inl rfl))
    next payload decoded =>
      refine sound.put ⟨?_, fits.unread, not_granted rfl, (by simp), (by simp)⟩
      intro _
      obtain ⟨verified, known, _⟩ := Option.bind_eq_some_iff.mp decoded
      unfold jwtVerify at known
      split at known
      next signed => exact signed.1
      next => cases known
  | get payload =>
    simp only [World.requestStep]
    split
    · exact sound.put (fits.past rfl rfl rfl (.inl rfl))
    next absent =>
      refine sound.noted ⟨rfl, List.Subset.refl _, rfl, rfl, by simp⟩ rfl (by simp) ?_ ?_
        (fits.before rfl rfl rfl rfl)
      · intro other there inTime
        rcases List.mem_append.mp there with before | new
        · exact sound.denied other before inTime
        · cases List.mem_singleton.mp new
      · intro there
        by_contra early
        obtain ⟨expiry, found, _⟩ := sound.denied token there (not_le.mp early)
        rw [found] at absent
        exact absent rfl
  | checkSession payload =>
    simp only [World.requestStep]
    split
    · exact sound.put (fits.past rfl rfl rfl (.inl rfl))
    · exact sound.put (fits.before rfl rfl rfl rfl)
  | claim payload =>
    simp only [World.requestStep]
    split
    · exact sound.put (fits.past rfl rfl rfl (.inl rfl))
    next absent =>
      have moved : Moved world id (.request token (.findUser payload)) [.claimed id token]
          (((world.set_ (config.tokenHash token) ROTATION_CLAIM_SECONDS).put id
            (.request token (.findUser payload))).note (.claimed id token)) :=
        ⟨rfl, List.Subset.refl _, rfl, rfl, by simp⟩
      refine sound.noted moved rfl (by simp) ?_ trivial (fits.before rfl rfl rfl rfl)
      exact sound.denied.claim (Option.not_isSome_iff_eq_none.mp absent) moved rfl
  | findUser payload =>
    simp only [World.requestStep]
    by_cases wired : config.prisma = true
    · rw [if_pos wired]
      refine sound.read fits rfl ?_
      cases row : world.users payload.sub with
      | none => exact .inl rfl
      | some user =>
        by_cases off : user.directoryStatus = .deactivated
        · simp only [if_pos off]
          exact .inl rfl
        · simp only [if_neg off]
          exact .inr ⟨user, rfl, off, rfl⟩
    · rw [if_neg wired]
      exact sound.put (fits.past rfl rfl rfl (.inl rfl))
  | deny denial =>
    simp only [World.requestStep]
    split
    · exact sound.put (fits_next denial fits rfl)
    next ttl needed =>
      refine sound.put ⟨(by rintro ⟨⟩), (by rintro ⟨⟩), fits.granted, ?_, (by simp)⟩
      intro _ _ same
      cases same
      exact denialSeconds_some needed
  | set_ denial ttl =>
    have moved : Moved world id (.request token denial.next) [.denied (config.tokenHash token)]
        (((world.set_ (config.tokenHash token) ttl).put id (.request token denial.next)).note
          (.denied (config.tokenHash token))) :=
      ⟨rfl, List.Subset.refl _, rfl, rfl, by simp⟩
    refine sound.noted moved rfl (by simp) ?_ trivial (fits_next denial fits rfl)
    refine sound.denied.set_ ?_ moved rfl
    intro other same
    rw [injective same]
    exact fits.ttl denial ttl rfl
  | unregister userId denial =>
    simp only [World.requestStep]
    split
    · exact sound.put (fits.past rfl rfl rfl (.inr rfl))
    · exact sound.put (fits_last denial fits rfl)
  | srem userId denial =>
    exact sound.index (fun _ _ there => .inl (mem_srem there)) (fits_last denial fits rfl)
  | sign payload user =>
    simp only [World.requestStep]
    generalize signRefreshToken _ _ _ _ = refresh
    generalize signAccessToken _ _ _ _ = access
    exact sound.issue ⟨user, fits.granted payload.sub user rfl⟩ (own_member injective refresh)
  | sadd userId member ttl =>
    refine sound.index ?_ (fits.past rfl rfl rfl (.inl rfl))
    intro other held there
    rcases mem_sadd there with before | new
    · exact .inl before
    · rw [new]
      exact .inr (fits.own userId member ttl rfl)
  | expireNx userId ttl =>
    exact sound.index (fun _ _ there => .inl (mem_expireNx there)) (fits.past rfl rfl rfl (.inl rfl))
  | expireGt userId ttl =>
    exact sound.index (fun _ _ there => .inl (mem_expireGt there)) (fits.past rfl rfl rfl (.inl rfl))
  | done => exact sound

omit [DecidableEq Hash] in
theorem fits_turn {now : ℤ} {todo : List (Member Hash)} (userId : String)
    (own : ∀ member ∈ todo, Own config member) (past : now * 1000 ≤ world.now) :
    CallFits config world id (.revocation userId (.turn now todo)) := by
  have left : ∀ member ∈ todo.dropWhile fun member => member.exp - now ≤ 0, Own config member :=
    fun member there => own member (List.dropWhile_subset _ there)
  unfold RevokeStage.turn
  split
  · trivial
  next member rest same =>
    rw [same] at left
    exact ⟨left, past⟩

theorem Sound.revoke {userId : String} {stage : RevokeStage Hash} (sound : Sound config world)
    (found : world.calls id = some (.revocation userId stage)) :
    Sound config (world.revokeStep id userId stage) := by
  have fits : RevokeFits config world stage := sound.calls id _ found
  cases stage with
  | smembers => exact sound.put (show CallFits config world id (.revocation userId (.clock _)) from sound.members userId)
  | clock members =>
    refine sound.put (fits_turn userId fits ?_)
    unfold seconds
    omega
  | set_ member rest now =>
    obtain ⟨own, past⟩ := fits
    have moved : Moved world id (.revocation userId (.turn now rest)) [.denied member.hash]
        (((world.set_ member.hash (member.exp - now)).put id
          (.revocation userId (.turn now rest))).note (.denied member.hash)) :=
      ⟨rfl, List.Subset.refl _, rfl, rfl, by simp⟩
    refine sound.noted moved rfl (by simp) ?_ trivial
      (fits_turn userId (fun other there => own other (.tail _ there)) past)
    refine sound.denied.set_ ?_ moved rfl
    intro token same
    rw [own member (.head _) token same, World.expiry]
    omega
  | del => exact sound.index (fun _ _ there => .inl (mem_drop there)) trivial
  | done => exact sound

section

omit [DecidableEq Hash]

theorem Sound.begins (sound : Sound config world)
    (fits : world.calls id = none → CallFits config world id call) : Sound config (world.begins id call) := by
  unfold World.begins
  cases free : world.calls id with
  | some held => exact sound
  | none => exact sound.put (fits free)

theorem Sound.sign (sound : Sound config world) (tokens : List Token) : Sound config (world.sign tokens) := by
  refine ⟨?_, sound.fresh, sound.members, sound.denied, sound.log⟩
  intro id call there
  exact (sound.calls id call there).later le_rfl (List.subset_append_right _ _) fun _ _ => Iff.rfl

end

theorem Sound.step (injective : Function.Injective config.tokenHash) (sound : Sound config world)
    (event : Event) : Sound config (world.step config event) := by
  cases event with
  | passes milliseconds =>
    refine ⟨?_, sound.fresh, ?_, denied_tick world milliseconds sound.denied, sound.log⟩
    · intro id call there
      refine (sound.calls id call there).later ?_ (List.Subset.refl _) fun _ _ => Iff.rfl
      change world.now ≤ world.now + milliseconds
      omega
    · exact fun userId member there => sound.members userId member (mem_purge there)
  | user userId row =>
    refine ⟨?_, sound.fresh, sound.members, sound.denied, sound.log⟩
    intro id call there
    exact (sound.calls id call there).later le_rfl (List.Subset.refl _) fun _ _ => Iff.rfl
  | login id user accessRoleId jti =>
    refine (sound.sign _).begins ?_
    intro _
    exact fits_sadd (own_member injective _)
  | refresh id token =>
    refine sound.begins ?_
    intro free
    exact ⟨(by rintro ⟨⟩), fun _ => sound.fresh id free, not_granted rfl, (by simp), (by simp)⟩
  | logout id token userId =>
    refine sound.begins ?_
    intro _
    exact ⟨(by rintro ⟨⟩), (by rintro ⟨⟩), not_granted rfl, (by simp), (by simp)⟩
  | revoke id userId => exact sound.begins fun _ => trivial
  | step id choice =>
    simp only [World.step, World.act]
    split
    · exact sound
    next token stage found => exact sound.request injective choice found
    next userId stage found => exact sound.revoke found
  | stop id =>
    simp only [World.step]
    split
    · exact sound
    · exact sound.put fits_done

omit [DecidableEq Hash] in
theorem sound_new (now : ℤ) : Sound config (World.new now) := by
  refine ⟨?_, ?_, ?_, ?_, Histories.each_nil⟩
  · intro id call there
    cases there
  · intro id _ userId row there
    cases there
  · intro userId member there
    cases there
  · intro token there
    cases there

theorem sound_after (injective : Function.Injective config.tokenHash) (now : ℤ)
    (events : List Event) : Sound config (World.after config now events) :=
  Stepping.run_keeps (fun _ event sound => sound.step injective event) events (sound_new now)

end Droplet.Tokens
