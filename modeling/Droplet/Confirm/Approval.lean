import Droplet.Confirm.Interceptor

/-! A confirming write has an approval of its own: what holds of every run of calls on an interceptor. -/

namespace Droplet.Confirm

open Lib

def guarded (tool : InterceptableTool) : Bool :=
  tool.requiresConfirmation && confirmationOwnerOf tool = .interceptor

inductive Decided (options : Options) (pending : Pending) (tool : InterceptableTool) (args : Args)
    (presented : Option String) (now : ℤ) (random : String) : Pending × InterceptOutcome → Prop
  | denied (reason : DenyReason) :
      Decided options pending tool args presented now random (pending, .denied reason)
  | free (unguarded : guarded tool = false) :
      Decided options pending tool args presented now random (pending, .proceed args false)
  | rejected (token : String) (next : Pending) (reason : ConfirmationRedeemFailure)
      (refused : pending.redeem options.store token tool.name args now = (next, .error reason)) :
      Decided options pending tool args presented now random (next, .confirmation_rejected reason)
  | approved (token : String) (next : Pending) (mintedAt : ℤ) (handed : Args)
      (held : presented = some token)
      (redeemed : pending.redeem options.store token tool.name args now = (next, .ok mintedAt)) :
      Decided options pending tool args presented now random (next, .proceed handed true)
  | challenged :
      Decided options pending tool args presented now random
        ((pending.mint options.store tool.name args now random).1,
          .confirmation_required random (now + options.store.ttlMs))

variable {options : Options} {pending : Pending}

theorem intercept_decided (tier : RuntimeDenyTier) (tool : InterceptableTool) (args : Args)
    (presented : Option String) (now : ℤ) (random : String) :
    Decided options pending tool args presented now random
      (intercept options pending tier tool args presented now random) := by
  unfold intercept
  split
  · exact .denied _
  · split
    · exact .denied _
    · split
      · rename_i reads
        exact .free (by simp [guarded] at reads ⊢; simp [reads])
      · split
        · rename_i route
          exact .free (by simp [guarded, route])
        · split
          · rename_i token held
            have shown : presented = some token := by
              cases presented with
              | none => cases held
              | some text =>
                rw [Option.filter_some] at held
                split at held <;> cases held
                rfl
            split
            · rename_i next reason refused
              exact .rejected token next reason refused
            · rename_i next mintedAt redeemed
              exact .approved token next mintedAt _ shown redeemed
          · exact .challenged

structure Mint where
  token : String
  expiresAt : ℤ
  toolName : String
  args : Args

def mintOf : Event × Answer → Option Mint
  | (.mint toolName args _ _, .minted confirmation) =>
    some ⟨confirmation.token, confirmation.expiresAt, toolName, args⟩
  | (.intercept tool args _ _ _, .intercepted (.confirmation_required token expiresAt)) =>
    some ⟨token, expiresAt, tool.name, args⟩
  | _ => none

def mints (log : List (Event × Answer)) : List Mint := log.filterMap mintOf

/-- The token lets a guarded call proceed, or is redeemed directly. -/
def approvedBy (token : String) : Event × Answer → Bool
  | (.intercept tool _ presented _ _, .intercepted (.proceed _ _)) =>
    guarded tool && presented = some token
  | (.redeem presented _ _ _, .redeemed (.ok _)) => presented = token
  | _ => false

theorem mints_append (first second : List (Event × Answer)) :
    mints (first ++ second) = mints first ++ mints second :=
  List.filterMap_append

structure Tracked (options : Options) (past : List (Event × Answer)) (pending : Pending) : Prop where
  minted : ∀ token entry, InsertionMap.get? pending token = some entry → ∃ mint ∈ mints past,
    mint.token = token ∧ mint.expiresAt = entry.expiresAt ∧
      entry.bindingHash = confirmationBindingHash options.store.sha256 mint.toolName mint.args
  unspent : ∀ token entry, InsertionMap.get? pending token = some entry → entry.usedAt = none →
    past.countP (approvedBy token) = 0
  once : ∀ token, past.countP (approvedBy token) ≤ 1
  known : ∀ token, 0 < past.countP (approvedBy token) → token ∈ (mints past).map Mint.token

variable {past : List (Event × Answer)}

theorem Tracked.start : Tracked options [] InsertionMap.empty := by
  constructor <;> simp [mints]

variable {happened : Event × Answer}

section

variable (tracked : Tracked options past pending)
include tracked

theorem Tracked.shrink {next : Pending} (approves : ∀ token, approvedBy token happened = false)
    (kept : ∀ token entry, InsertionMap.get? next token = some entry →
      InsertionMap.get? pending token = some entry) :
    Tracked options (past ++ [happened]) next := by
  have count : ∀ token, (past ++ [happened]).countP (approvedBy token) = past.countP (approvedBy token) := by
    intro token
    simp [approves token]
  constructor
  · intro token entry found
    obtain ⟨mint, there, facts⟩ := tracked.minted token entry (kept token entry found)
    refine ⟨mint, ?_, facts⟩
    rw [mints_append]
    exact List.mem_append_left _ there
  · intro token entry found unspent
    rw [count]
    exact tracked.unspent token entry (kept token entry found) unspent
  · intro token
    rw [count]
    exact tracked.once token
  · intro token approved
    rw [count] at approved
    rw [mints_append, List.map_append]
    exact List.mem_append_left _ (tracked.known token approved)

theorem Tracked.mint {toolName random : String}
    {args : Args} {now : ℤ} (approves : ∀ token, approvedBy token happened = false)
    (mints_it : mintOf happened = some ⟨random, now + options.store.ttlMs, toolName, args⟩)
    (distinct : ((mints (past ++ [happened])).map Mint.token).Nodup) :
    Tracked options (past ++ [happened])
      (pending.mint options.store toolName args now random).1 := by
  have all : mints (past ++ [happened]) =
      mints past ++ [⟨random, now + options.store.ttlMs, toolName, args⟩] := by
    simp [mints, mints_it]
  have new : random ∉ (mints past).map Mint.token := by
    rw [all, List.map_append, List.nodup_append] at distinct
    intro there
    exact distinct.2.2 random there random (by simp) rfl
  have count : ∀ token, (past ++ [happened]).countP (approvedBy token) = past.countP (approvedBy token) := by
    intro token
    simp [approves token]
  constructor
  · intro token entry found
    rw [all]
    rcases Pending.get?_mint found with ⟨same, bound, expires, -⟩ | ⟨-, old⟩
    · exact ⟨_, List.mem_append_right _ (List.mem_singleton_self _), same.symm, expires.symm, bound⟩
    · obtain ⟨mint, there, facts⟩ := tracked.minted token entry old
      exact ⟨mint, List.mem_append_left _ there, facts⟩
  · intro token entry found unspent
    rw [count]
    rcases Pending.get?_mint found with ⟨same, -⟩ | ⟨-, old⟩
    · by_contra approved
      exact new (same ▸ tracked.known token (Nat.pos_of_ne_zero approved))
    · exact tracked.unspent token entry old unspent
  · intro token
    rw [count]
    exact tracked.once token
  · intro token approved
    rw [count] at approved
    rw [all, List.map_append]
    exact List.mem_append_left _ (tracked.known token approved)

theorem Tracked.redeem {token toolName : String} {args : Args} {now mintedAt : ℤ} {next : Pending}
    (redeemed : pending.redeem options.store token toolName args now = (next, .ok mintedAt))
    (approves : ∀ other, other ≠ token → approvedBy other happened = false)
    (silent : mintOf happened = none) : Tracked options (past ++ [happened]) next := by
  obtain ⟨entry, found, unspent, -, -, rfl⟩ := Pending.redeem_ok redeemed
  have all : mints (past ++ [happened]) = mints past := by
    simp [mints, silent]
  have none_yet := tracked.unspent token entry found unspent
  have count : ∀ other, other ≠ token → (past ++ [happened]).countP (approvedBy other) =
      past.countP (approvedBy other) := by
    intro other different
    simp [approves other different]
  have at_most : (past ++ [happened]).countP (approvedBy token) ≤ 1 := by
    rw [List.countP_append, none_yet]
    simpa using List.countP_le_length (p := approvedBy token) (l := [happened])
  constructor
  · intro other kept there
    rw [all]
    rw [InsertionMap.get?_set] at there
    split at there
    · rename_i same
      cases there
      obtain ⟨mint, minted, tokens, facts⟩ := tracked.minted token entry found
      exact ⟨mint, minted, tokens.trans same.symm, facts⟩
    · exact tracked.minted other kept there
  · intro other kept there fresh
    rw [InsertionMap.get?_set] at there
    split at there
    · cases there
      cases fresh
    · rename_i different
      rw [count other different]
      exact tracked.unspent other kept there fresh
  · intro other
    by_cases same : other = token
    · rw [same]
      exact at_most
    · rw [count other same]
      exact tracked.once other
  · intro other approved
    rw [all]
    by_cases same : other = token
    · obtain ⟨mint, minted, tokens, -⟩ := tracked.minted token entry found
      rw [same, ← tokens]
      exact List.mem_map_of_mem minted
    · rw [count other same] at approved
      exact tracked.known other approved

end

variable {state : State}

theorem Tracked.step (tracked : Tracked options past state.pending) (event : Event)
    (distinct : ((mints (past ++ [(event, (state.step options event).2)])).map Mint.token).Nodup) :
    Tracked options (past ++ [(event, (state.step options event).2)])
      (state.step options event).1.pending := by
  cases event with
  | intercept tool args presented now random =>
    have decided := @intercept_decided options state.pending state.tier tool args presented now random
    simp only [State.step] at distinct ⊢
    generalize intercept options state.pending state.tier tool args presented now random = result
      at decided distinct ⊢
    cases decided with
    | denied reason => exact tracked.shrink (fun token => rfl) (fun _ _ found => found)
    | free unguarded =>
      exact tracked.shrink (fun token => by simp [approvedBy, unguarded]) (fun _ _ found => found)
    | rejected token next reason refused =>
      cases Pending.redeem_error refused
      exact tracked.shrink (fun token => rfl) (fun _ _ found => found)
    | approved token next mintedAt handed held redeemed =>
      refine tracked.redeem redeemed ?_ rfl
      intro other different
      simp [approvedBy, held, Ne.symm different]
    | challenged => exact tracked.mint (fun token => rfl) rfl distinct
  | mint toolName args now random => exact tracked.mint (fun token => rfl) rfl distinct
  | redeem token toolName args now =>
    simp only [State.step]
    cases redeemed : state.pending.redeem options.store token toolName args now with
    | mk next result =>
      cases result with
      | error reason =>
        cases Pending.redeem_error redeemed
        exact tracked.shrink (fun token => rfl) (fun _ _ found => found)
      | ok mintedAt =>
        refine tracked.redeem redeemed ?_ rfl
        intro other different
        simp [approvedBy, Ne.symm different]
  | sweepExpired now =>
    exact tracked.shrink (fun token => rfl) (fun _ _ found => Pending.get?_keep found)
  | addRule | removeRule | clearRules =>
    exact tracked.shrink (fun token => rfl) (fun _ _ found => found)

theorem run_events (state : State) (events : List Event) : (state.run options events).2.map Prod.fst = events := by
  induction events generalizing state with
  | nil => rfl
  | cons event rest ih =>
    rw [State.run, List.map_cons, ih]

theorem Tracked.run (tracked : Tracked options past state.pending) (events : List Event)
    (distinct : ((mints (past ++ (state.run options events).2)).map Mint.token).Nodup) :
    Tracked options (past ++ (state.run options events).2) (state.run options events).1.pending ∧
      ∀ (before after : List (Event × Answer)) (entry : Event × Answer),
        (state.run options events).2 = before ++ entry :: after →
          ∃ then_ : State, Tracked options (past ++ before) then_.pending ∧
            entry.2 = (then_.step options entry.1).2 := by
  induction events generalizing state past with
  | nil =>
    refine ⟨by simpa [State.run] using tracked, ?_⟩
    intro before after entry parts
    simp [State.run] at parts
  | cons event rest ih =>
    rw [State.run] at distinct ⊢
    have parts : past ++ (event, (state.step options event).2) ::
          ((state.step options event).1.run options rest).2 =
        (past ++ [(event, (state.step options event).2)]) ++
          ((state.step options event).1.run options rest).2 := by simp
    rw [parts] at distinct
    have first : ((mints (past ++ [(event, (state.step options event).2)])).map Mint.token).Nodup := by
      rw [mints_append (past ++ _), List.map_append] at distinct
      exact (List.nodup_append.mp distinct).1
    obtain ⟨last, each⟩ := ih (tracked.step event first) distinct
    refine ⟨by rw [parts]; exact last, ?_⟩
    intro before after entry cut
    cases before with
    | nil =>
      have head := (List.cons.inj cut).1
      rw [← head]
      exact ⟨state, by simpa using tracked, rfl⟩
    | cons earlier more =>
      obtain ⟨head, tail⟩ := List.cons.inj cut
      obtain ⟨then_, held, answered⟩ := each more after entry tail
      refine ⟨then_, ?_, answered⟩
      rw [← head]
      simpa using held

theorem State.step_size (room : 1 ≤ options.store.maxEntries)
    (small : state.pending.size ≤ options.store.maxEntries) (event : Event) :
    (state.step options event).1.pending.size ≤ options.store.maxEntries := by
  cases event with
  | intercept tool args presented now random =>
    have decided := @intercept_decided options state.pending state.tier tool args presented now random
    simp only [State.step]
    generalize intercept options state.pending state.tier tool args presented now random = result
      at decided ⊢
    cases decided with
    | denied | free => exact small
    | rejected token next reason refused =>
      cases Pending.redeem_error refused
      exact small
    | approved token next mintedAt handed held redeemed =>
      have same := @Pending.redeem_size options.store state.pending token tool.name args now
      rw [redeemed] at same
      exact same.trans_le small
    | challenged => exact Pending.mint_size room _ _ _ _ _
  | mint toolName args now random => exact Pending.mint_size room _ _ _ _ _
  | redeem token toolName args now =>
    exact (Pending.redeem_size state.pending token toolName args now).trans_le small
  | sweepExpired now => exact (Pending.sweep_size state.pending now).trans small
  | addRule | removeRule | clearRules => exact small

theorem State.run_size (room : 1 ≤ options.store.maxEntries)
    (small : state.pending.size ≤ options.store.maxEntries) (events : List Event) :
    (state.run options events).1.pending.size ≤ options.store.maxEntries := by
  induction events generalizing state with
  | nil => exact small
  | cons event rest ih => exact ih (State.step_size room small event)

def refused : Answer → Bool
  | .redeemed (.error _) => true
  | .intercepted (.confirmation_rejected _) => true
  | _ => false

theorem State.step_refused {event : Event} (refusal : refused (state.step options event).2 = true) :
    (state.step options event).1 = state := by
  cases event with
  | intercept tool args presented now random =>
    have decided := @intercept_decided options state.pending state.tier tool args presented now random
    simp only [State.step] at refusal ⊢
    generalize intercept options state.pending state.tier tool args presented now random = result
      at decided refusal ⊢
    cases decided with
    | rejected token next reason refused =>
      cases Pending.redeem_error refused
      rfl
    | _ => cases refusal
  | redeem token toolName args now =>
    simp only [State.step] at refusal ⊢
    cases redeemed : state.pending.redeem options.store token toolName args now with
    | mk next result =>
      cases result with
      | error reason =>
        cases Pending.redeem_error redeemed
        rfl
      | ok mintedAt =>
        rw [redeemed] at refusal
        cases refusal
  | _ => cases refusal

variable {tool : InterceptableTool}

theorem intercept_denied {tier : RuntimeDenyTier} {args : Args}
    (refuses : (readOnlyNamespaceBreach options tool).isSome ∨ (tier.evaluate tool args).isSome)
    (presented : Option String) (now : ℤ) (random : String) :
    (intercept options pending tier tool args presented now random).2.kind = .denied := by
  unfold intercept
  split
  · rfl
  · rename_i inside
    split
    · rfl
    · rename_i allowed
      simp [inside, allowed] at refuses

/-- Arguments that differ in control keys only are decided alike, unless a rule tells them apart. -/
theorem intercept_congr {tier : RuntimeDenyTier} {args args' : Args}
    (stripped : stripControlKeys args = stripControlKeys args')
    (alike : (tier.evaluate tool args).isSome = (tier.evaluate tool args').isSome)
    (presented : Option String) (now : ℤ) (random : String) :
    (intercept options pending tier tool args presented now random).1 =
        (intercept options pending tier tool args' presented now random).1 ∧
      (intercept options pending tier tool args presented now random).2.kind =
        (intercept options pending tier tool args' presented now random).2.kind := by
  have same : canonicalizeToolArgs args = canonicalizeToolArgs args' := by
    rw [canonicalizeToolArgs, canonicalizeToolArgs, stripped]
  unfold intercept
  split
  · exact ⟨rfl, rfl⟩
  · cases denied : tier.evaluate tool args with
    | some reason =>
      rw [denied, Option.isSome_some, eq_comm, Option.isSome_iff_exists] at alike
      obtain ⟨other, denied'⟩ := alike
      rw [denied']
      exact ⟨rfl, rfl⟩
    | none =>
      rw [denied, Option.isSome_none, eq_comm, Option.isSome_eq_false_iff, Option.isNone_iff_eq_none] at alike
      rw [alike]
      dsimp only
      split
      · exact ⟨rfl, rfl⟩
      · split
        · exact ⟨rfl, rfl⟩
        · rw [Pending.mint_congr same]
          split
          · rename_i token held
            rw [Pending.redeem_congr same]
            split <;> exact ⟨rfl, rfl⟩
          · exact ⟨rfl, rfl⟩

def callOf : Event → Option (String × Args)
  | .intercept tool args _ _ _ => some (tool.name, args)
  | .mint toolName args _ _ => some (toolName, args)
  | .redeem _ toolName args _ => some (toolName, args)
  | _ => none

/-- No two of the texts these calls hash have the same hash. -/
def CollisionFree (sha256 : List Char → String) (events : List Event) : Prop :=
  ∀ first ∈ events.filterMap callOf, ∀ second ∈ events.filterMap callOf,
    sha256 (bindingText first.1 first.2) = sha256 (bindingText second.1 second.2) →
      bindingText first.1 first.2 = bindingText second.1 second.2

theorem mintOf_call {event : Event} {answer : Answer} {mint : Mint}
    (minted : mintOf (event, answer) = some mint) : callOf event = some (mint.toolName, mint.args) := by
  unfold mintOf at minted
  split at minted
  · rename_i same
    cases same
    cases minted
    rfl
  · rename_i same
    cases same
    cases minted
    rfl
  · cases minted

theorem mints_call {log : List (Event × Answer)} {events : List Event}
    (calls : log.map Prod.fst = events) {mint : Mint} (there : mint ∈ mints log) :
    (mint.toolName, mint.args) ∈ events.filterMap callOf := by
  obtain ⟨⟨event, answer⟩, happened, minted⟩ := List.mem_filterMap.mp there
  rw [List.mem_filterMap]
  refine ⟨event, ?_, mintOf_call minted⟩
  rw [← calls]
  exact List.mem_map_of_mem happened

theorem Tracked.approval (tracked : Tracked options past state.pending)
    {events : List Event} (collisionFree : CollisionFree options.store.sha256 events) {args handed : Args} {presented : Option String} {now : ℤ}
    {random : String} {consumed : Bool} (called : (tool.name, args) ∈ events.filterMap callOf)
    (minted : ∀ mint ∈ mints past, (mint.toolName, mint.args) ∈ events.filterMap callOf)
    (proceeds : (state.step options (.intercept tool args presented now random)).2 =
      .intercepted (.proceed handed consumed)) (guard : guarded tool = true) :
    ∃ mint ∈ mints past, presented = some mint.token ∧ mint.toolName = tool.name ∧
      canonicalizeToolArgs mint.args = canonicalizeToolArgs args ∧ now < mint.expiresAt := by
  have decided := @intercept_decided options state.pending state.tier tool args presented now random
  simp only [State.step] at proceeds
  generalize intercept options state.pending state.tier tool args presented now random = result
    at decided proceeds
  cases decided with
  | free unguarded =>
    rw [unguarded] at guard
    cases guard
  | approved token next mintedAt handed held redeemed =>
    obtain ⟨entry, found, -, fresh, bound, -⟩ := Pending.redeem_ok redeemed
    obtain ⟨mint, there, tokens, expires, hashed⟩ := tracked.minted token entry found
    have texts := collisionFree _ (minted mint there) _ called (hashed.symm.trans bound)
    obtain ⟨tools, canon⟩ := bindingText_inj texts
    exact ⟨mint, there, by rw [held, tokens], tools, canon, by rw [expires]; exact fresh⟩
  | denied | rejected | challenged => cases proceeds

/-- For every run of calls on an interceptor: a guarded call proceeds only with a live token that was
minted for its tool and its arguments, and no token serves twice; a refused token changes nothing, a
refused tool never proceeds, the flag `confirmed` decides nothing unless a rule of the deny tier looks
at it, and the store stays small. -/
theorem no_write_without_approval (options : Options) (room : 1 ≤ options.store.maxEntries)
    (tier : RuntimeDenyTier) (events : List Event)
    (distinct : ((mints ((State.start tier).run options events).2).map Mint.token).Nodup)
    (collisionFree : CollisionFree options.store.sha256 events) :
    let log := ((State.start tier).run options events).2
    let last := ((State.start tier).run options events).1
    (∀ (before after : List (Event × Answer)) (tool : InterceptableTool) (args handed : Args)
        (presented : Option String) (now : ℤ) (random : String) (consumed : Bool),
      log = before ++ (.intercept tool args presented now random,
          .intercepted (.proceed handed consumed)) :: after → guarded tool = true →
        ∃ mint ∈ mints before, presented = some mint.token ∧ mint.toolName = tool.name ∧
          canonicalizeToolArgs mint.args = canonicalizeToolArgs args ∧ now < mint.expiresAt) ∧
    (∀ token : String, log.countP (approvedBy token) ≤ 1) ∧
    (∀ event : Event, refused (last.step options event).2 = true →
      ∀ later : List Event, (last.step options event).1.run options later = last.run options later) ∧
    (∀ (tool : InterceptableTool) (args : Args) (presented : Option String) (now : ℤ)
        (random : String),
      (readOnlyNamespaceBreach options tool).isSome ∨ (last.tier.evaluate tool args).isSome →
        (intercept options last.pending last.tier tool args presented now random).2.kind =
          .denied) ∧
    (∀ (tool : InterceptableTool) (args args' : Args) (presented : Option String) (now : ℤ)
        (random : String), stripControlKeys args = stripControlKeys args' →
      (last.tier.evaluate tool args).isSome = (last.tier.evaluate tool args').isSome →
        (intercept options last.pending last.tier tool args presented now random).1 =
            (intercept options last.pending last.tier tool args' presented now random).1 ∧
          (intercept options last.pending last.tier tool args presented now random).2.kind =
            (intercept options last.pending last.tier tool args' presented now random).2.kind) ∧
    last.pending.size ≤ options.store.maxEntries := by
  have start : Tracked options [] (State.start tier).pending := Tracked.start
  obtain ⟨tracked, each⟩ := start.run events (by simpa using distinct)
  have calls := @run_events options (State.start tier) events
  intro log last
  refine ⟨?_, ?_, ?_, ?_, ?_, ?_⟩
  · intro before after tool args handed presented now random consumed parts guard
    obtain ⟨then_, held, answered⟩ := each before after _ parts
    have all : before.map Prod.fst ++ .intercept tool args presented now random ::
        after.map Prod.fst = events := by
      rw [← calls]
      change _ = log.map Prod.fst
      rw [parts]
      simp
    refine held.approval collisionFree ?_ ?_ answered.symm guard
    · rw [← all, List.mem_filterMap]
      exact ⟨_, List.mem_append_right _ List.mem_cons_self, rfl⟩
    · intro mint there
      rw [← all, List.filterMap_append]
      exact List.mem_append_left _ (mints_call rfl (by simpa using there))
  · intro token
    simpa using tracked.once token
  · intro event refusal later
    rw [State.step_refused refusal]
  · intro tool args presented now random refuses
    exact intercept_denied refuses presented now random
  · intro tool args args' presented now random stripped alike
    exact intercept_congr stripped alike presented now random
  · exact State.run_size room (Nat.zero_le _) events

def askedAndApproved : List Event :=
  [.intercept ⟨"delete_file", true, none, none, none⟩ [("path", .str "/tmp/x")] none 0 "token",
   .intercept ⟨"delete_file", true, none, none, none⟩
     [("confirmed", .bool true), ("path", .str "/tmp/x")] (some "token") 1000 "other"]

def plainOptions : Options := ⟨⟨String.ofList, 300000, 1000⟩, id, []⟩

theorem asked_and_approved_serves_once :
    ((State.start InsertionMap.empty).run plainOptions askedAndApproved).2.countP
      (approvedBy "token") ≤ 1 :=
  (no_write_without_approval plainOptions (by decide) InsertionMap.empty askedAndApproved
    (by decide) (fun _ _ _ _ same => String.ofList_injective same)).2.1 "token"

def selfConfirmed : DenyRule := fun _ args =>
  if args.any fun member => member.1 = "confirmed" then some ⟨"self_confirmed", "No."⟩ else none

theorem flag_changes_outcome :
    let strict : RuntimeDenyTier := InsertionMap.set InsertionMap.empty "strict" selfConfirmed
    let tool : InterceptableTool := ⟨"delete_file", true, none, none, none⟩
    (intercept plainOptions InsertionMap.empty strict tool [] none 0 "token").2.kind =
        .confirmation_required ∧
      (intercept plainOptions InsertionMap.empty strict tool (withConfirmed []) none 0
        "token").2.kind = .denied := by
  decide

end Droplet.Confirm
