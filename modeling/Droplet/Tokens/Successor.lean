import Droplet.Tokens.Rotated

/-! How many pairs a refresh token is turned into: one at most, as long as no request wins the claim of
another that has not written its denial yet, nor claims a token whose time is over. -/

namespace Droplet.Tokens

open Expiring People

variable {Hash : Type} [DecidableEq Hash] (config : Config Hash)

/-- Has the request claimed its token and not denied it yet, so that a pair may follow? -/
def Stage.claimed : Stage Hash → Bool
  | .findUser _ => true
  | .deny denial | .set_ denial _ => denial.granted.isSome
  | _ => false

/-- Has the token been denied, and is the pair still to come? -/
def Stage.owed : Stage Hash → Bool
  | .unregister _ denial | .srem _ denial => denial.granted.isSome
  | .sign _ _ => true
  | _ => false

def Call.claiming : Call Hash → Option Token
  | .request token (.claim _) => some token
  | _ => none

def Call.claimed (token : Token) : Call Hash → Bool
  | .request held stage => held = token && stage.claimed
  | _ => false

/-- A claim that finds no entry is made in the token's time, and no other request is between its claim
of the token and its denial. -/
def World.Exclusive (world : World Hash) : Event → Prop
  | .step id _ => ∀ token, (world.calls id).bind Call.claiming = some token →
      world.denylist (config.tokenHash token) = none →
      world.now < token.exp * 1000 ∧ ∀ other, (world.calls other).any (Call.claimed token) = false
  | _ => True

def Note.issuedFor (token : Token) : Note Hash → Bool
  | .issued _ given _ _ _ => given = token
  | _ => false

def World.issues (world : World Hash) (token : Token) : ℕ :=
  world.log.countP (Note.issuedFor token)

def World.Going (world : World Hash) (id : ℕ) (token : Token) : Prop :=
  ∃ stage, world.calls id = some (.request token stage) ∧ (stage.claimed || stage.owed) = true

def World.Owed (world : World Hash) (id : ℕ) (token : Token) : Prop :=
  ∃ stage, world.calls id = some (.request token stage) ∧ stage.owed = true

/-- Denied, or its time is over. -/
def World.Spent (world : World Hash) (token : Token) : Prop :=
  .denied (config.tokenHash token) ∈ world.log ∨ token.exp * 1000 ≤ world.now

structure Single (world : World Hash) : Prop where
  alone : ∀ token first second, world.Going first token → world.Going second token → first = second
  unissued : ∀ id token, world.Going id token → world.issues token = 0
  once : ∀ token, world.issues token ≤ 1
  issued : ∀ token, world.issues token ≠ 0 → world.Spent config token
  owed : ∀ id token, world.Owed id token → world.Spent config token

variable {config} {world after : World Hash} {id : ℕ} {token : Token} {call : Call Hash}

section

omit [DecidableEq Hash]

theorem World.Spent.later (spent : world.Spent config token) (now : world.now ≤ after.now)
    (log : world.log ⊆ after.log) : after.Spent config token :=
  spent.imp (fun there => log there) fun past => past.trans now

theorem Single.quiet (single : Single config world) (now : world.now ≤ after.now)
    (log : world.log ⊆ after.log) (silent : ∀ token, after.issues token = world.issues token)
    (going : ∀ id token, after.Going id token → world.Going id token)
    (owed : ∀ id token, after.Owed id token → world.Owed id token ∨ after.Spent config token) :
    Single config after := by
  refine ⟨?_, ?_, ?_, ?_, ?_⟩
  · intro token first second one other
    exact single.alone token first second (going _ _ one) (going _ _ other)
  · intro id token goes
    rw [silent]
    exact single.unissued id token (going id token goes)
  · intro token
    rw [silent]
    exact single.once token
  · intro token some
    rw [silent] at some
    exact (single.issued token some).later now log
  · intro id token owes
    rcases owed id token owes with before | spent
    · exact (single.owed id token before).later now log
    · exact spent

variable {notes : List (Note Hash)}

theorem issues_moved (moved : Moved world id call notes after)
    (token : Token) : after.issues token = world.issues token + notes.countP (Note.issuedFor token) := by
  rw [World.issues, moved.log, List.countP_append]
  rfl

theorem calls_moved (moved : Moved world id call notes after) {other : ℕ}
    {held : Call Hash} (there : after.calls other = some held) :
    other = id ∧ held = call ∨ other ≠ id ∧ world.calls other = some held := by
  rw [moved.calls] at there
  by_cases same : other = id
  · rw [same, Function.update_self] at there
    exact .inl ⟨same, (Option.some_inj.mp there).symm⟩
  · rw [Function.update_of_ne same] at there
    exact .inr ⟨same, there⟩

theorem Single.moved (single : Single config world)
    (moved : Moved world id call notes after) (silent : ∀ token, notes.countP (Note.issuedFor token) = 0)
    (going : ∀ token stage, call = .request token stage → (stage.claimed || stage.owed) = true →
      world.Going id token)
    (owed : ∀ token stage, call = .request token stage → stage.owed = true →
      world.Owed id token ∨ after.Spent config token) : Single config after := by
  refine single.quiet moved.now.ge ?_ ?_ ?_ ?_
  · rw [moved.log]
    exact List.subset_append_left _ _
  · intro other
    rw [issues_moved moved, silent, Nat.add_zero]
  · intro other whose goes
    obtain ⟨held, there, goes⟩ := goes
    rcases calls_moved moved there with own | before
    · rw [own.1]
      exact going whose held own.2.symm goes
    · exact ⟨held, before.2, goes⟩
  · intro other whose owes
    obtain ⟨held, there, owes⟩ := owes
    rcases calls_moved moved there with own | before
    · rw [own.1]
      exact owed whose held own.2.symm owes
    · exact .inl ⟨held, before.2, owes⟩

theorem Single.rests (single : Single config world)
    (moved : Moved world id call notes after) (silent : ∀ token, notes.countP (Note.issuedFor token) = 0)
    (rests : ∀ token stage, call = .request token stage → stage.claimed = false ∧ stage.owed = false) :
    Single config after := by
  refine single.moved moved silent ?_ ?_
  · intro whose held is goes
    rw [(rests whose held is).1, (rests whose held is).2] at goes
    cases goes
  · intro whose held is owes
    rw [(rests whose held is).2] at owes
    cases owes

theorem Single.next {stage next : Stage Hash}
    (single : Single config world) (found : world.calls id = some (.request token stage))
    (moved : Moved world id (.request token next) notes after)
    (silent : ∀ token, notes.countP (Note.issuedFor token) = 0)
    (going : (next.claimed || next.owed) = true → (stage.claimed || stage.owed) = true)
    (owed : next.owed = true → stage.owed = true ∨ after.Spent config token) : Single config after := by
  refine single.moved moved silent ?_ ?_
  · intro whose held is goes
    cases is
    exact ⟨stage, found, going goes⟩
  · intro whose held is owes
    cases is
    exact (owed owes).imp_left fun before => ⟨stage, found, before⟩

theorem Sound.unspent (sound : Sound config world) (inTime : world.now < token.exp * 1000)
    (absent : world.denylist (config.tokenHash token) = none) : ¬ world.Spent config token := by
  intro spent
  rcases spent with denied | past
  · obtain ⟨expiry, found, _⟩ := sound.denied token denied inTime
    cases absent.symm.trans found
  · omega

theorem Single.claim {payload : JwtPayload} (single : Single config world)
    (sound : Sound config world) (inTime : world.now < token.exp * 1000)
    (absent : world.denylist (config.tokenHash token) = none)
    (only : ∀ other, (world.calls other).any (Call.claimed token) = false)
    (moved : Moved world id (.request token (.findUser payload)) [.claimed id token] after) :
    Single config after := by
  have unspent := sound.unspent inTime absent
  have idle : ∀ other, ¬ world.Going other token := by
    intro other goes
    obtain ⟨stage, there, goes⟩ := goes
    have unclaimed := only other
    rw [there, Option.any_some, Call.claimed, decide_eq_true rfl, Bool.true_and] at unclaimed
    rw [unclaimed, Bool.false_or] at goes
    exact unspent (single.owed other token ⟨stage, there, goes⟩)
  have same : ∀ other, after.issues other = world.issues other := by
    intro other
    rw [issues_moved moved]
    rfl
  have log : world.log ⊆ after.log := by
    rw [moved.log]
    exact List.subset_append_left _ _
  have going : ∀ other whose, after.Going other whose →
      other = id ∧ whose = token ∨ world.Going other whose := by
    intro other whose goes
    obtain ⟨stage, there, goes⟩ := goes
    rcases calls_moved moved there with own | before
    · obtain ⟨rfl, is⟩ := own
      cases is
      exact .inl ⟨rfl, rfl⟩
    · exact .inr ⟨stage, before.2, goes⟩
  refine ⟨?_, ?_, ?_, ?_, ?_⟩
  · intro whose first second one two
    rcases going first whose one with own | before
    · obtain ⟨rfl, rfl⟩ := own
      rcases going second whose two with own | before
      · exact own.1.symm
      · exact absurd before (idle second)
    · rcases going second whose two with own | earlier
      · obtain ⟨rfl, rfl⟩ := own
        exact absurd before (idle first)
      · exact single.alone whose first second before earlier
  · intro other whose goes
    rw [same]
    rcases going other whose goes with own | before
    · obtain ⟨rfl, rfl⟩ := own
      by_contra some
      exact unspent (single.issued whose some)
    · exact single.unissued other whose before
  · intro whose
    rw [same]
    exact single.once whose
  · intro whose some
    rw [same] at some
    exact (single.issued whose some).later moved.now.ge log
  · intro other whose owes
    obtain ⟨stage, there, owes⟩ := owes
    rcases calls_moved moved there with own | before
    · cases own.2
      cases owes
    · exact (single.owed other whose ⟨stage, before.2, owes⟩).later moved.now.ge log

theorem Single.issue {payload : JwtPayload} {user : UserRow} {userId : String} {member : Member Hash}
    {ttl : ℤ} {refresh access : Token} (single : Single config world)
    (found : world.calls id = some (.request token (.sign payload user)))
    (moved : Moved world id (.request token (.sadd userId member ttl))
      [.issued id token userId refresh access] after) : Single config after := by
  have goes : world.Going id token := ⟨_, found, rfl⟩
  have spent : after.Spent config token := by
    refine (single.owed id token ⟨_, found, rfl⟩).later moved.now.ge ?_
    rw [moved.log]
    exact List.subset_append_left _ _
  have count : ∀ whose, after.issues whose = world.issues whose + if token = whose then 1 else 0 := by
    intro whose
    rw [issues_moved moved, List.countP_singleton]
    simp only [Note.issuedFor, decide_eq_true_eq]
  have going : ∀ other whose, after.Going other whose → other ≠ id ∧ world.Going other whose := by
    intro other whose goes
    obtain ⟨stage, there, goes⟩ := goes
    rcases calls_moved moved there with own | before
    · cases own.2
      cases goes
    · exact ⟨before.1, stage, before.2, goes⟩
  refine ⟨?_, ?_, ?_, ?_, ?_⟩
  · intro whose first second one two
    exact single.alone whose first second (going _ _ one).2 (going _ _ two).2
  · intro other whose later
    obtain ⟨differ, before⟩ := going other whose later
    rw [count, single.unissued other whose before, if_neg]
    intro same
    subst same
    exact differ (single.alone token other id before goes)
  · intro whose
    rw [count]
    split
    next same =>
      subst same
      rw [single.unissued id token goes]
    next => exact single.once whose
  · intro whose some
    by_cases same : token = whose
    · subst same
      exact spent
    · rw [count, if_neg same] at some
      refine (single.issued whose some).later moved.now.ge ?_
      rw [moved.log]
      exact List.subset_append_left _ _
  · intro other whose owes
    obtain ⟨stage, there, owes⟩ := owes
    rcases calls_moved moved there with own | before
    · cases own.2
      cases owes
    · refine (single.owed other whose ⟨stage, before.2, owes⟩).later moved.now.ge ?_
      rw [moved.log]
      exact List.subset_append_left _ _

end

section

omit [DecidableEq Hash]

theorem next_going (denial : Denial) :
    ((denial.next : Stage Hash).claimed || (denial.next : Stage Hash).owed) =
      denial.granted.isSome := by
  cases denial with
  | refuse | rotate => rfl
  | logout userId => cases userId <;> rfl

theorem last_going (denial : Denial) :
    (denial.last : Stage Hash).claimed = false ∧
      (denial.last : Stage Hash).owed = denial.granted.isSome := by
  cases denial <;> exact ⟨rfl, rfl⟩

end

theorem Single.request (single : Single config world) (sound : Sound config world) (choice : Choice)
    {stage : Stage Hash} (found : world.calls id = some (.request token stage))
    (exclusive : world.Exclusive config (.step id choice)) :
    Single config (world.requestStep config id token choice stage) := by
  have rest : ∀ next : Stage Hash, next.claimed = false ∧ next.owed = false →
      Single config (world.put id (.request token next)) := by
    intro next idle
    refine single.rests (moved_put world id _) (fun _ => rfl) ?_
    intro whose held is
    cases is
    exact idle
  have keep : ∀ {after : World Hash} {notes} {next : Stage Hash},
      Moved world id (.request token next) notes after →
      (∀ token, notes.countP (Note.issuedFor token) = 0) →
      ((next.claimed || next.owed) = true → (stage.claimed || stage.owed) = true) →
      (next.owed = true → stage.owed = true ∨ after.Spent config token) → Single config after :=
    fun moved silent going owed => single.next found moved silent going owed
  cases stage with
  | verify | checkSession =>
    simp only [World.requestStep]
    split <;> exact rest _ ⟨rfl, rfl⟩
  | get payload =>
    simp only [World.requestStep]
    split
    · exact rest _ ⟨rfl, rfl⟩
    · exact keep ⟨rfl, List.Subset.refl _, rfl, rfl, by simp⟩ (fun _ => rfl) (by rintro ⟨⟩) (by rintro ⟨⟩)
  | claim payload =>
    simp only [World.requestStep]
    split
    · exact rest _ ⟨rfl, rfl⟩
    next present =>
      have absent := Option.not_isSome_iff_eq_none.mp present
      obtain ⟨inTime, only⟩ := exclusive token (by rw [found]; rfl) absent
      exact single.claim sound inTime absent only ⟨rfl, List.Subset.refl _, rfl, rfl, by simp⟩
  | findUser payload =>
    simp only [World.requestStep]
    split
    · exact keep ⟨rfl, List.Subset.refl _, rfl, rfl, by simp +contextual⟩ (fun _ => rfl)
        (fun _ => rfl) (by rintro ⟨⟩)
    · exact rest _ ⟨rfl, rfl⟩
  | deny denial =>
    simp only [World.requestStep]
    split
    next over_ =>
      refine keep (moved_put world id _) (fun _ => rfl) (fun goes => ?_) fun owes => .inr ?_
      · rw [next_going] at goes
        exact (Bool.or_false _).trans goes
      · have fits : Fits config world id token (.deny denial) := sound.calls id _ found
        cases denial with
        | rotate payload user => exact .inr (denialSeconds_none over_ (fits.signed rfl))
        | refuse => cases owes
        | logout userId => cases userId <;> cases owes
    next ttl needed => exact keep (moved_put world id _) (fun _ => rfl) (fun goes => goes) (by rintro ⟨⟩)
  | set_ denial ttl =>
    refine keep ⟨rfl, List.Subset.refl _, rfl, rfl, by simp⟩ (fun _ => rfl) (fun goes => ?_)
      fun _ => .inr (.inl (List.mem_append_right _ (.head _)))
    rw [next_going] at goes
    exact (Bool.or_false _).trans goes
  | unregister userId denial =>
    simp only [World.requestStep]
    split
    · exact keep (moved_put world id _) (fun _ => rfl) (fun goes => goes) .inl
    · refine keep (moved_put world id _) (fun _ => rfl) (fun goes => ?_) fun owes => .inl ?_
      · rwa [(last_going denial).1, (last_going denial).2, Bool.false_or] at goes
      · rwa [(last_going denial).2] at owes
  | srem userId denial =>
    refine keep ⟨rfl, List.Subset.refl _, rfl, (List.append_nil _).symm, (by simp)⟩ (fun _ => rfl)
      (fun goes => ?_) fun owes => .inl ?_
    · rwa [(last_going denial).1, (last_going denial).2, Bool.false_or] at goes
    · rwa [(last_going denial).2] at owes
  | sign payload user =>
    exact single.issue found ⟨rfl, List.subset_append_right _ _, rfl, rfl, by simp⟩
  | done => exact single
  | _ =>
    refine keep ⟨rfl, List.Subset.refl _, rfl, (List.append_nil _).symm, (by simp)⟩ (fun _ => rfl)
      (by rintro ⟨⟩) (by rintro ⟨⟩)

omit [DecidableEq Hash] in
theorem revocation_idle (userId : String) (at_ : RevokeStage Hash) (token : Token)
    (stage : Stage Hash) (is : Call.revocation userId at_ = .request token stage) :
    stage.claimed = false ∧ stage.owed = false := by
  cases is

theorem Single.revoke (single : Single config world) (id : ℕ) (userId : String)
    (stage : RevokeStage Hash) : Single config (world.revokeStep id userId stage) := by
  cases stage with
  | smembers => exact single.rests (moved_put world id _) (fun _ => rfl) (revocation_idle userId _)
  | clock members =>
    exact single.rests (moved_put world id _) (fun _ => rfl) (revocation_idle userId _)
  | set_ member rest now =>
    exact single.rests ⟨rfl, List.Subset.refl _, rfl, rfl, by simp⟩ (fun _ => rfl) (revocation_idle userId _)
  | del =>
    exact single.rests ⟨rfl, List.Subset.refl _, rfl, (List.append_nil _).symm, by simp⟩
      (fun _ => rfl) (revocation_idle userId _)
  | done => exact single

theorem Single.step (single : Single config world) (sound : Sound config world) (event : Event)
    (exclusive : world.Exclusive config event) : Single config (world.step config event) := by
  have begins : ∀ {world : World Hash} {id : ℕ} {call : Call Hash}, Single config world →
      (∀ token stage, call = .request token stage → stage.claimed = false ∧ stage.owed = false) →
      Single config (world.begins id call) := by
    intro world id call single idle
    unfold World.begins
    split
    · exact single
    · exact single.rests (moved_put world id call) (fun _ => rfl) idle
  cases event with
  | passes milliseconds =>
    refine single.quiet ?_ (List.Subset.refl _) (fun _ => rfl) (fun _ _ goes => goes)
      fun _ _ owes => .inl owes
    change world.now ≤ world.now + milliseconds
    omega
  | user userId row =>
    exact single.quiet le_rfl (List.Subset.refl _) (fun _ => rfl) (fun _ _ goes => goes)
      fun _ _ owes => .inl owes
  | login id user accessRoleId jti =>
    refine begins (single.quiet le_rfl (List.Subset.refl _) (fun _ => rfl) (fun _ _ goes => goes)
      fun _ _ owes => .inl owes) ?_
    intro token stage is
    cases is
    exact ⟨rfl, rfl⟩
  | refresh _ token | logout _ token =>
    refine begins single ?_
    intro token stage is
    cases is
    exact ⟨rfl, rfl⟩
  | revoke id userId => exact begins single (revocation_idle userId _)
  | step id choice =>
    simp only [World.step, World.act]
    split
    · exact single
    next token stage found => exact single.request sound choice found exclusive
    next userId stage found => exact single.revoke id userId stage
  | stop id =>
    simp only [World.step]
    split
    · exact single
    next call found =>
      refine single.rests (moved_put world id _) (fun _ => rfl) ?_
      intro token stage is
      cases call with
      | request given at_ =>
        cases is
        exact ⟨rfl, rfl⟩
      | revocation userId at_ => cases is

theorem single_after (injective : Function.Injective config.tokenHash) (now : ℤ)
    (events : List Event) (along : Stepping.Along (World.step config) (World.Exclusive config)
      (World.new now) events) : Single config (World.after config now events) := by
  have keeps : ∀ world event, Sound config world ∧ Single config world → world.Exclusive config event →
      Sound config (world.step config event) ∧ Single config (world.step config event) := by
    intro world event both exclusive
    exact ⟨both.1.step injective event, both.2.step both.1 event exclusive⟩
  refine (along.keeps keeps ⟨sound_new now, ?_⟩).2
  refine ⟨?_, ?_, ?_, ?_, ?_⟩
  · intro token first second goes
    obtain ⟨stage, there, _⟩ := goes
    cases there
  · intro id token goes
    rfl
  · intro token
    exact Nat.zero_le 1
  · intro token some
    exact absurd rfl some
  · intro id token owes
    obtain ⟨stage, there, _⟩ := owes
    cases there

/-- Over any run, a denied token passes no verification in its time, and who is given a pair was read
and not deactivated; and while every claim is exclusive, a token is turned into one pair at most. -/
theorem refresh_token_has_one_successor (injective : Function.Injective config.tokenHash) (now : ℤ)
    (events : List Event) :
    Histories.Each (Vouched config) (World.after config now events).log ∧
      (Stepping.Along (World.step config) (World.Exclusive config) (World.new now) events →
        ∀ token, (World.after config now events).issues token ≤ 1) :=
  ⟨(sound_after injective now events).log, fun along => (single_after injective now events along).once⟩

def plainConfig : Config Token := ⟨fun token => token, true⟩

def alice : JwtPayload := ⟨"alice", "alice", "Alice", .family, some "sid"⟩

def aliceToken : Token := signRefreshToken alice .family "j0" 0

def goes (id : ℕ) (jti : String) (steps : ℕ) : List Event :=
  List.replicate steps (.step id ⟨.ok, jti⟩)

def aliceLogin : List Event :=
  [.user "alice" (some ⟨.active, some .family, none⟩), .login 0 alice none "j0",
    .refresh 1 aliceToken]

/-- A request that is asleep for half a minute after its claim. -/
def sleptRun : List Event :=
  aliceLogin ++ goes 1 "j1" 4 ++ [.passes 30000, .refresh 2 aliceToken] ++ goes 2 "j2" 10 ++
    goes 1 "j1" 6

theorem slept_claim_is_won_again :
    Function.Injective plainConfig.tokenHash ∧
      (World.after plainConfig 0 sleptRun).issues aliceToken = 2 :=
  ⟨fun _ _ same => same, by decide⟩

/-- Two requests pass the verification, and both come to claim the token. -/
def racedRun : List Event :=
  aliceLogin ++ [.refresh 2 aliceToken] ++ goes 1 "j1" 3 ++ goes 2 "j2" 3 ++ goes 1 "j1" 1 ++
    goes 2 "j2" 2 ++ goes 1 "j1" 6

omit [DecidableEq Hash] in
theorem exclusive_of_none {choice : Choice} (none : (world.calls id).bind Call.claiming = none) :
    world.Exclusive config (.step id choice) := by
  intro token claims
  cases none.symm.trans claims

theorem raced_along : @Stepping.Along (World Token) Event (World.step plainConfig)
    (World.Exclusive plainConfig) (World.new 0) racedRun := by
  simp only [racedRun, aliceLogin, goes, List.replicate, List.cons_append, List.nil_append, Stepping.Along]
  refine ⟨trivial, trivial, trivial, trivial, ?_, ?_, ?_, ?_, ?_, ?_, ?first, ?second, ?_, ?_, ?_, ?_, ?_, ?_, ?_,
    trivial⟩
  case first =>
    intro token claims _
    have given : token = aliceToken := Option.some_inj.mp (claims.symm.trans rfl)
    subst given
    refine ⟨by decide, ?_⟩
    intro other
    rcases other with _ | _ | _ | other
    all_goals rfl
  case second =>
    -- the entry of the first claim is there
    intro token claims absent
    have given : token = aliceToken := Option.some_inj.mp (claims.symm.trans rfl)
    subst given
    exact absurd absent (by decide)
  all_goals exact exclusive_of_none (by decide)

theorem raced_token_has_one_successor :
    Histories.Each (Vouched plainConfig) (World.after plainConfig 0 racedRun).log ∧
      (World.after plainConfig 0 racedRun).issues aliceToken ≤ 1 := by
  have both := @refresh_token_has_one_successor _ _ plainConfig (fun _ _ same => same) 0 racedRun
  exact ⟨both.1, both.2 raced_along aliceToken⟩

example : (World.after plainConfig 0 racedRun).issues aliceToken = 1 := by decide

end Droplet.Tokens
