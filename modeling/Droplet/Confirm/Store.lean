import Droplet.Confirm.Binding
import Droplet.Lib.InsertionMap

/-! The store of confirmation tokens (`tools-core/src/confirmation-token.ts`): single-use, with a time
to live, and bound to a tool and its arguments. -/

namespace Droplet.Confirm

open Lib

/-- Five minutes. -/
def DEFAULT_CONFIRMATION_TTL_MS : ℤ := 5 * 60000

def DEFAULT_MAX_PENDING_CONFIRMATIONS : ℕ := 1000

inductive ConfirmationRedeemFailure where
  | unknown_token
  | already_used
  | expired
  | wrong_tool
  | arguments_mismatch

structure PendingConfirmation where
  toolName : String
  bindingHash : String
  mintedAt : ℤ
  expiresAt : ℤ
  usedAt : Option ℤ

structure MintedConfirmation where
  token : String
  expiresAt : ℤ

structure StoreOptions where
  sha256 : List Char → String
  ttlMs : ℤ := DEFAULT_CONFIRMATION_TTL_MS
  maxEntries : ℕ := DEFAULT_MAX_PENDING_CONFIRMATIONS

/-- Tokens in the order they were minted. -/
abbrev Pending := InsertionMap String PendingConfirmation

namespace Pending

def size (pending : Pending) : ℕ := pending.entries.length

def keep (condition : String × PendingConfirmation → Bool) (pending : Pending) : Pending :=
  ⟨pending.entries.filter condition,
    pending.keysNodup.sublist (List.filter_sublist.map Prod.fst)⟩

def sweep (now : ℤ) (pending : Pending) : Pending := pending.keep fun entry => now < entry.2.expiresAt

def evictOldest (maxEntries : ℕ) :
    List (String × PendingConfirmation) → List (String × PendingConfirmation)
  | [] => []
  | oldest :: rest =>
    if maxEntries ≤ (oldest :: rest).length then evictOldest maxEntries rest else oldest :: rest

theorem evictOldest_suffix (maxEntries : ℕ) (entries : List (String × PendingConfirmation)) :
    evictOldest maxEntries entries <:+ entries := by
  induction entries with
  | nil => exact List.suffix_rfl
  | cons oldest rest ih =>
    rw [evictOldest]
    split
    · exact ih.trans (List.suffix_cons oldest rest)
    · exact List.suffix_rfl

def evict (maxEntries : ℕ) (pending : Pending) : Pending :=
  ⟨evictOldest maxEntries pending.entries,
    pending.keysNodup.sublist ((evictOldest_suffix maxEntries pending.entries).sublist.map Prod.fst)⟩

variable (options : StoreOptions)

/-- `token` is what `randomBytes` gives. -/
def mint (pending : Pending) (toolName : String) (args : Args) (now : ℤ) (token : String) :
    Pending × MintedConfirmation :=
  (InsertionMap.set ((pending.sweep now).evict options.maxEntries) token
    { toolName
      bindingHash := confirmationBindingHash options.sha256 toolName args
      mintedAt := now
      expiresAt := now + options.ttlMs
      usedAt := none },
   { token, expiresAt := now + options.ttlMs })

def redeem (pending : Pending) (token toolName : String) (args : Args) (now : ℤ) :
    Pending × Except ConfirmationRedeemFailure ℤ :=
  match InsertionMap.get? pending token with
  | none => (pending, .error .unknown_token)
  | some entry =>
    if entry.usedAt.isSome then (pending, .error .already_used)
    else if entry.expiresAt ≤ now then (pending, .error .expired)
    else if entry.bindingHash ≠ confirmationBindingHash options.sha256 toolName args then
      (pending, .error (if entry.toolName ≠ toolName then .wrong_tool else .arguments_mismatch))
    else (InsertionMap.set pending token { entry with usedAt := some now }, .ok entry.mintedAt)

def sweepExpired (pending : Pending) (now : ℤ) : Pending × ℕ :=
  (pending.sweep now, pending.size - (pending.sweep now).size)

section Redeem

variable {options} {pending next : Pending} {token toolName : String} {args : Args} {now mintedAt : ℤ}

theorem redeem_ok (redeemed : pending.redeem options token toolName args now = (next, .ok mintedAt)) :
    ∃ entry, InsertionMap.get? pending token = some entry ∧ entry.usedAt = none ∧
      now < entry.expiresAt ∧
      entry.bindingHash = confirmationBindingHash options.sha256 toolName args ∧
      next = InsertionMap.set pending token { entry with usedAt := some now } := by
  unfold redeem at redeemed
  split at redeemed
  · cases redeemed
  · rename_i entry found
    split at redeemed
    · cases redeemed
    · rename_i unspent
      split at redeemed
      · cases redeemed
      · rename_i fresh
        split at redeemed
        · cases redeemed
        · rename_i bound
          cases redeemed
          exact ⟨entry, found, by simpa using unspent, not_le.mp fresh, not_not.mp bound, rfl⟩

theorem redeem_error {reason : ConfirmationRedeemFailure}
    (redeemed : pending.redeem options token toolName args now = (next, .error reason)) : next = pending := by
  unfold redeem at redeemed
  split at redeemed
  · cases redeemed
    rfl
  · split at redeemed
    · cases redeemed
      rfl
    · split at redeemed
      · cases redeemed
        rfl
      · split at redeemed <;> cases redeemed
        rfl

section

variable {args' : Args} (same : canonicalizeToolArgs args = canonicalizeToolArgs args')
include same

theorem hash_congr :
    confirmationBindingHash options.sha256 toolName args =
      confirmationBindingHash options.sha256 toolName args' := by
  simp only [confirmationBindingHash, bindingText, same]

theorem redeem_congr :
    pending.redeem options token toolName args now =
      pending.redeem options token toolName args' now := by
  rw [redeem, redeem, hash_congr same]

theorem mint_congr :
    pending.mint options toolName args now token = pending.mint options toolName args' now token := by
  rw [mint, mint, hash_congr same]

end

end Redeem

variable {options}

theorem evictOldest_length (maxEntries : ℕ) (room : 1 ≤ maxEntries)
    (entries : List (String × PendingConfirmation)) :
    (evictOldest maxEntries entries).length + 1 ≤ maxEntries := by
  induction entries with
  | nil => exact room
  | cons oldest rest ih =>
    rw [evictOldest]
    split
    · exact ih
    · rename_i short
      omega

theorem size_set_le (pending : Pending) (token : String) (entry : PendingConfirmation) :
    size (InsertionMap.set pending token entry) ≤ pending.size + 1 := by
  unfold InsertionMap.set size
  split <;> simp

theorem size_set_present {pending : Pending} {token : String} {found : PendingConfirmation}
    (there : InsertionMap.get? pending token = some found) (entry : PendingConfirmation) :
    size (InsertionMap.set pending token entry) = pending.size := by
  have present : token ∈ pending.entries.map Prod.fst :=
    List.mem_map_of_mem ((InsertionMap.get?_eq_some_iff _ _ _).mp there)
  simp [InsertionMap.set, size, present]

/-- There are never more entries than `maxEntries`. -/
theorem mint_size (room : 1 ≤ options.maxEntries) (pending : Pending) (toolName : String)
    (args : Args) (now : ℤ) (token : String) :
    size (pending.mint options toolName args now token).1 ≤ options.maxEntries := by
  calc size (pending.mint options toolName args now token).1
      ≤ size ((pending.sweep now).evict options.maxEntries) + 1 := size_set_le _ _ _
    _ ≤ options.maxEntries := evictOldest_length _ room _

theorem sweep_size (pending : Pending) (now : ℤ) : size (pending.sweep now) ≤ pending.size :=
  List.length_filter_le _ _

theorem redeem_size (pending : Pending) (token toolName : String) (args : Args) (now : ℤ) :
    size (pending.redeem options token toolName args now).1 = pending.size := by
  cases redeemed : pending.redeem options token toolName args now with
  | mk next result =>
    cases result with
    | error reason => rw [redeem_error redeemed]
    | ok mintedAt =>
      obtain ⟨entry, found, -, -, -, rfl⟩ := redeem_ok redeemed
      exact size_set_present found _

variable {entry : PendingConfirmation}

theorem get?_keep {condition : String × PendingConfirmation → Bool} {pending : Pending}
    {token : String} (found : InsertionMap.get? (pending.keep condition) token = some entry) :
    InsertionMap.get? pending token = some entry := by
  rw [InsertionMap.get?_eq_some_iff] at found ⊢
  exact List.mem_of_mem_filter found

theorem get?_evict {maxEntries : ℕ} {pending : Pending} {token : String}
    (found : InsertionMap.get? (pending.evict maxEntries) token = some entry) :
    InsertionMap.get? pending token = some entry := by
  rw [InsertionMap.get?_eq_some_iff] at found ⊢
  exact (evictOldest_suffix maxEntries pending.entries).mem found

theorem get?_mint {pending : Pending} {toolName token other : String} {args : Args} {now : ℤ}
    (found : InsertionMap.get? (pending.mint options toolName args now token).1 other = some entry) :
    (other = token ∧ entry.bindingHash = confirmationBindingHash options.sha256 toolName args ∧
      entry.expiresAt = now + options.ttlMs ∧ entry.usedAt = none) ∨
    (other ≠ token ∧ InsertionMap.get? pending other = some entry) := by
  rw [mint, InsertionMap.get?_set] at found
  split at found
  · rename_i same
    cases found
    exact .inl ⟨same, rfl, rfl, rfl⟩
  · rename_i different
    exact .inr ⟨different, get?_keep (get?_evict found)⟩

end Pending

end Droplet.Confirm
