import Droplet.Audit.Canonical
import Droplet.Lib.HashChain

/-! Signatures of activity rows (`services/audit-signing.service.ts`): the signer over a key,
and the epoch rule over a ring of keys. -/

namespace Droplet.Audit

/-- The digests the signer uses, as text: `createHmac("sha256", key)` and
`createHash("sha256")`, in base64url. Neither is ever empty. -/
structure Digests (Key : Type) where
  hmac : Key → String → String
  hashSignature : String → String
  hmac_ne_empty : ∀ key message, hmac key message ≠ ""
  hash_ne_empty : ∀ signature, hashSignature signature ≠ ""

variable {Key : Type} (digests : Digests Key)

/-- A tag is made under one key for one message, and a hash of one signature. -/
structure Digests.Injective : Prop where
  hmac : ∀ key key' message message', digests.hmac key message = digests.hmac key' message' →
    key = key' ∧ message = message'
  hashSignature : Function.Injective digests.hashSignature

/-- `none` where it throws: a version or a date it cannot write. -/
def sign (key : Key) (content : ActivityRowContent) (prevSignatureHash : String) : Option String :=
  (canonicalizeRowContent content).map (fun canonical =>
    digests.hmac key (canonical ++ "|" ++ prevSignatureHash))

def verify (key : Key) (content : ActivityRowContent) (prevSignatureHash signature : String) :
    Option Bool :=
  (sign digests key content prevSignatureHash).map (fun expected => decide (expected = signature))

structure AuditKeyEpoch (Key : Type) where
  keyId : String
  key : Key

/-- The loop of the checker from index `i` on. A signer that throws does not vouch. -/
def scanKeys (content : ActivityRowContent) (prevSignatureHash signature : String) :
    ℕ → List (AuditKeyEpoch Key) → Option (ℕ × String)
  | _, [] => none
  | i, epoch :: rest =>
    if verify digests epoch.key content prevSignatureHash signature = some true then
      some (i, epoch.keyId)
    else scanKeys content prevSignatureHash signature (i + 1) rest

/-- One call of `createEpochVerifier`'s `verify` at some epoch: the epoch it moves to and
the name of the key. -/
def epochVerify (keys : List (AuditKeyEpoch Key)) (epoch : ℕ) (content : ActivityRowContent)
    (prevSignatureHash signature : String) : Option (ℕ × String) :=
  scanKeys digests content prevSignatureHash signature epoch (keys.drop epoch)

def Tagged (key : Key) (content : ActivityRowContent) (prevSignatureHash signature : String) :
    Prop :=
  sign digests key content prevSignatureHash = some signature

theorem verify_iff (key : Key) (content : ActivityRowContent) (prevSignatureHash signature : String) :
    verify digests key content prevSignatureHash signature = some true ↔
      Tagged digests key content prevSignatureHash signature := by
  simp [verify, Tagged]

/-- Signed under the key of an index of the ring. -/
def TaggedAt (keys : List (AuditKeyEpoch Key)) (i : ℕ) (content : ActivityRowContent)
    (prevSignatureHash signature : String) : Prop :=
  ∃ epoch, keys[i]? = some epoch ∧ Tagged digests epoch.key content prevSignatureHash signature

theorem scanKeys_none (content : ActivityRowContent) (prevSignatureHash signature : String) (i : ℕ)
    (keys : List (AuditKeyEpoch Key)) :
    scanKeys digests content prevSignatureHash signature i keys = none ↔
      ∀ epoch ∈ keys, ¬ Tagged digests epoch.key content prevSignatureHash signature := by
  induction keys generalizing i with
  | nil => simp [scanKeys]
  | cons epoch rest ih =>
    rw [List.forall_mem_cons, scanKeys]
    split
    · next tagged =>
      rw [verify_iff] at tagged
      simp [tagged]
    · next other =>
      rw [verify_iff] at other
      simp [other, ih]

theorem scanKeys_some (content : ActivityRowContent) (prevSignatureHash signature name : String)
    (i j : ℕ) (keys : List (AuditKeyEpoch Key))
    (found : scanKeys digests content prevSignatureHash signature i keys = some (j, name)) :
    ∃ k, j = i + k ∧ TaggedAt digests keys k content prevSignatureHash signature ∧
      ∀ m < k, ¬ TaggedAt digests keys m content prevSignatureHash signature := by
  induction keys generalizing i with
  | nil => cases found
  | cons epoch rest ih =>
    rw [scanKeys] at found
    split at found
    · next tagged =>
      rw [verify_iff] at tagged
      simp only [Option.some.injEq, Prod.mk.injEq] at found
      exact ⟨0, by omega, ⟨epoch, rfl, tagged⟩, by simp⟩
    · next other =>
      rw [verify_iff] at other
      obtain ⟨k, rfl, tagged, least⟩ := ih (i + 1) found
      refine ⟨k + 1, by omega, by simpa [TaggedAt] using tagged, ?_⟩
      intro m less
      cases m with
      | zero => simpa [TaggedAt] using other
      | succ m => simpa [TaggedAt] using least m (by omega)

theorem epochVerify_isNext (keys : List (AuditKeyEpoch Key)) (epoch : ℕ)
    (content : ActivityRowContent) (prevSignatureHash signature : String) :
    HashChain.IsNext (fun i => TaggedAt digests keys i content prevSignatureHash signature) epoch
      ((epochVerify digests keys epoch content prevSignatureHash signature).map Prod.fst) := by
  have shift : ∀ k, TaggedAt digests (keys.drop epoch) k content prevSignatureHash signature ↔
      TaggedAt digests keys (epoch + k) content prevSignatureHash signature := by
    intro k
    simp only [TaggedAt, List.getElem?_drop]
  unfold epochVerify
  cases found : scanKeys digests content prevSignatureHash signature epoch (keys.drop epoch) with
  | none =>
    rw [scanKeys_none] at found
    intro j from_epoch tagged
    obtain ⟨k, rfl⟩ := Nat.exists_eq_add_of_le from_epoch
    obtain ⟨key, here, tag⟩ := (shift k).mpr tagged
    exact found key (List.mem_of_getElem? here) tag
  | some hit =>
    obtain ⟨j, name⟩ := hit
    obtain ⟨k, rfl, tagged, least⟩ := scanKeys_some digests content prevSignatureHash signature
      name epoch j _ found
    refine ⟨by omega, (shift k).mp tagged, ?_⟩
    intro j from_epoch other
    obtain ⟨m, rfl⟩ := Nat.exists_eq_add_of_le from_epoch
    by_contra before
    exact least m (by omega) ((shift m).mpr other)

theorem append_bar (canonical prevSignatureHash : String) :
    (canonical ++ "|" ++ prevSignatureHash).toList =
      canonical.toList ++ '|' :: prevSignatureHash.toList := by
  simp [String.toList_append]

theorem Tagged.commits {digests : Digests Key} (injective : digests.Injective) {key key' : Key}
    {content content' : ActivityRowContent} {prev prev' signature : String}
    (first : Tagged digests key content prev signature) (second : Tagged digests key' content' prev' signature) :
    key = key' ∧ Covered content content' ∧ prev = prev' := by
  obtain ⟨s, canonical, tag⟩ := Option.map_eq_some_iff.mp first
  obtain ⟨t, canonical', tag'⟩ := Option.map_eq_some_iff.mp second
  obtain ⟨keys, messages⟩ := injective.hmac _ _ _ _ (tag.trans tag'.symm)
  have letters := congrArg String.toList messages
  rw [append_bar, append_bar] at letters
  obtain ⟨covered, rest⟩ := canonical_cancel content content' s t _ _ canonical canonical' letters
  exact ⟨keys, covered, String.toList_inj.mp (List.cons.inj rest).2⟩

theorem Tagged.covered {digests : Digests Key} {key : Key} {content content' : ActivityRowContent}
    {prev signature : String} (tagged : Tagged digests key content prev signature)
    (same : Covered content content') : Tagged digests key content' prev signature := by
  rwa [Tagged, sign, ← same.canonical]

end Droplet.Audit
