import Droplet.Audit.Verify

/-! What the walk reports of a chain that was tampered with by someone who has no key: all
but the cutting off of rows at the two ends. -/

namespace Droplet.Audit

open HashChain

variable {Key : Type} {digests : Digests Key} {keys : List (AuditKeyEpoch Key)}

/-- Equal in everything the walk looks at; the id is not covered. -/
structure SameRow (a b : ActivityRow) : Prop where
  content : Covered a.content b.content
  prevSignatureHash : a.prevSignatureHash = b.prevSignatureHash
  signature : a.signature = b.signature

theorem SameRow.refl (row : ActivityRow) : SameRow row row := ⟨.refl row.content, rfl, rfl⟩

def Block (history rows : List ActivityRow) : Prop :=
  ∃ before block after, history = before ++ block ++ after ∧ List.Forall₂ SameRow block rows

/-- A chain from its first row on, as the recorder wrote it. -/
structure Genuine (digests : Digests Key) (keys : List (AuditKeyEpoch Key))
    (history : List ActivityRow) : Prop where
  sound : Sound digests keys history
  origin : ∀ first ∈ history.head?, first.prevSignatureHash = ""

/-- Without a key: every signature is one of the history's, or no key of the ring made it. -/
def NoNewSignature (digests : Digests Key) (keys : List (AuditKeyEpoch Key))
    (history rows : List ActivityRow) : Prop :=
  ∀ row ∈ rows, (∃ original ∈ history, original.signature = row.signature) ∨
    ∀ i, ¬ Accepts digests keys i row

theorem Sound.accepted {rows : List ActivityRow} (sound : Sound digests keys rows)
    (row : ActivityRow) (member : row ∈ rows) : ∃ i, Accepts digests keys i row := by
  obtain ⟨_, epochs, _, matched⟩ := sound
  obtain ⟨k, bound, rfl⟩ := List.getElem_of_mem member
  obtain ⟨length, known⟩ := List.forall₂_iff_get.mp matched
  exact ⟨_, known k (length ▸ bound) bound⟩

theorem Accepts.commits (injective : digests.Injective) {i j : ℕ} {a b : ActivityRow}
    (first : Accepts digests keys i a) (second : Accepts digests keys j b)
    (same : a.signature = b.signature) : SameRow a b := by
  obtain ⟨_, _, tagA⟩ := first
  obtain ⟨_, _, tagB⟩ := second
  rw [same] at tagA
  obtain ⟨_, covered, links⟩ := tagA.commits injective tagB
  exact ⟨covered, links, same⟩

theorem Accepts.same {i : ℕ} {a b : ActivityRow} (accepted : Accepts digests keys i a)
    (same : SameRow a b) : Accepts digests keys i b := by
  obtain ⟨epoch, found, tagged⟩ := accepted
  rw [same.prevSignatureHash, same.signature] at tagged
  exact ⟨epoch, found, tagged.covered same.content⟩

theorem RowsLinked.same {block rows : List ActivityRow} (linked : RowsLinked digests block)
    (matched : List.Forall₂ SameRow block rows) : RowsLinked digests rows := by
  induction matched with
  | nil => exact List.IsChain.nil
  | cons first rest ih =>
    cases rest with
    | nil => exact List.isChain_singleton _
    | cons second others =>
      obtain ⟨link, later⟩ := List.isChain_cons_cons.mp linked
      refine List.isChain_cons_cons.mpr ⟨?_, ih later⟩
      rw [← second.prevSignatureHash, ← first.signature]
      exact link

theorem Sound.part {before block after : List ActivityRow}
    (sound : Sound digests keys (before ++ block ++ after)) : Sound digests keys block := by
  obtain ⟨linked, epochs, ordered, matched⟩ := sound
  have assigned : Assigned (Accepts digests keys) 0 (before ++ block ++ after) :=
    ⟨epochs, ordered, by simp, matched⟩
  obtain ⟨inner, innerOrdered, _, innerMatched⟩ := assigned.part
  exact ⟨Linked.part linked, inner, innerOrdered, innerMatched⟩

theorem Sound.same {block rows : List ActivityRow} (sound : Sound digests keys block)
    (matched : List.Forall₂ SameRow block rows) : Sound digests keys rows := by
  obtain ⟨linked, epochs, ordered, accepted⟩ := sound
  refine ⟨linked.same matched, epochs, ordered, ?_⟩
  clear linked ordered
  induction accepted generalizing rows with
  | nil =>
    cases matched
    exact .nil
  | cons here _ ih =>
    cases matched with
    | cons first rest =>
      exact .cons (here.same first) (ih rest)

theorem sound_iff_block (injective : digests.Injective) (history rows : List ActivityRow)
    (genuine : Genuine digests keys history) (keyless : NoNewSignature digests keys history rows) :
    Sound digests keys rows ↔ Block history rows := by
  constructor
  · intro sound
    have occur : ∀ row ∈ rows, ∃ original ∈ history, SameRow original row := by
      intro row member
      obtain ⟨i, accepted⟩ := sound.accepted row member
      rcases keyless row member with known | unsigned
      · obtain ⟨original, found, same⟩ := known
        obtain ⟨j, genuineTag⟩ := genuine.sound.accepted original found
        exact ⟨original, found, genuineTag.commits injective accepted same⟩
      · exact absurd accepted (unsigned i)
    have distinct : (history.map ActivityRow.signature).Nodup := by
      refine Linked.signatures_nodup genuine.sound.1 genuine.origin digests.hash_ne_empty
        injective.hashSignature ?_
      intro a memberA b memberB same
      obtain ⟨i, acceptedA⟩ := genuine.sound.accepted a memberA
      obtain ⟨j, acceptedB⟩ := genuine.sound.accepted b memberB
      exact (acceptedA.commits injective acceptedB same).prevSignatureHash
    exact Linked.block genuine.sound.1 sound.1 genuine.origin digests.hash_ne_empty
      injective.hashSignature distinct (fun a b same => ⟨same.signature, same.prevSignatureHash⟩)
      occur
  · intro isBlock
    obtain ⟨before, block, after, rfl, matched⟩ := isBlock
    exact genuine.sound.part.same matched

/-- Every index of one key is before every index of the other. -/
def Older (keys : List (AuditKeyEpoch Key)) (retired newer : Key) : Prop :=
  ∀ (i j : ℕ) (p q : AuditKeyEpoch Key), keys[i]? = some p → keys[j]? = some q →
    p.key = retired → q.key = newer → i < j

theorem not_sound_after_newer (injective : digests.Injective) (good : List ActivityRow)
    (bad row : ActivityRow) (newer retired : Key) (member : row ∈ good) (older : Older keys retired newer)
    (byNewer : Tagged digests newer row.content row.prevSignatureHash row.signature)
    (byRetired : Tagged digests retired bad.content bad.prevSignatureHash bad.signature) :
    ¬ Sound digests keys (good ++ [bad]) := by
  intro sound
  obtain ⟨_, epochs, ordered, matched⟩ := sound
  have assigned : Assigned (Accepts digests keys) 0 (good ++ [bad]) :=
    ⟨epochs, ordered, by simp, matched⟩
  obtain ⟨i, j, order, here, there⟩ := assigned.ordered member
  obtain ⟨p, foundNewer, tagNewer⟩ := here
  obtain ⟨q, foundRetired, tagRetired⟩ := there
  have newerKey := (tagNewer.commits injective byNewer).1
  have retiredKey := (tagRetired.commits injective byRetired).1
  have before := older j i q p foundRetired foundNewer retiredKey newerKey
  omega

/-- The walk says ok exactly when the rows are linked and their keys never go back. Of rows
made without a key from a genuine history, it lets through exactly the contiguous parts
of the history, and it stops at the first row that is not one's next; and a row under a
retired key after one under a newer key stops it. -/
theorem chain_is_tamper_evident (injective : digests.Injective) (rows : List ActivityRow)
    (ascending : Ascending rows) :
    (∃ result, verifyActivityChain digests keys rows none = some result ∧
        (result.ok = true ↔ Sound digests keys rows)) ∧
      (∀ history, Genuine digests keys history → NoNewSignature digests keys history rows →
        (verifyActivityChain digests keys rows none = some ⟨true, rows.length, none⟩ ↔
          Block history rows) ∧
        ∀ good bad rest, rows = good ++ bad :: rest → Block history good →
          ¬ Block history (good ++ [bad]) →
          verifyActivityChain digests keys rows none =
            some ⟨false, good.length + 1, some (toString bad.id)⟩) ∧
      ∀ good bad rest row newer retired, rows = good ++ bad :: rest → Sound digests keys good →
        row ∈ good → Older keys retired newer →
        Tagged digests newer row.content row.prevSignatureHash row.signature →
        Tagged digests retired bad.content bad.prevSignatureHash bad.signature →
        verifyActivityChain digests keys rows none =
          some ⟨false, good.length + 1, some (toString bad.id)⟩ := by
  refine ⟨?_, ?_, ?_⟩
  · have through := (checkPage_passes digests keys rows ⟨none, 0, 0⟩).1
    rw [passes_start] at through
    refine ⟨_, verifyActivityChain_eq digests keys rows ascending, ?_⟩
    rw [← through]
    cases checkPage digests keys rows ⟨none, 0, 0⟩ with
    | mk walk broken => cases broken <;> simp [conclusion]
  · intro history genuine keyless
    rw [verifyActivityChain_ok_iff digests keys rows ascending]
    refine ⟨sound_iff_block injective history rows genuine keyless, ?_⟩
    intro good bad rest parts goodBlock notBlock
    subst parts
    have keylessGood : NoNewSignature digests keys history good := by
      intro row member
      exact keyless row (List.mem_append_left _ member)
    have keylessBad : NoNewSignature digests keys history (good ++ [bad]) := by
      intro row member
      apply keyless row
      rw [List.mem_append, List.mem_singleton] at member
      rcases member with earlier | rfl
      · exact List.mem_append_left _ earlier
      · exact List.mem_append_right _ List.mem_cons_self
    apply verifyActivityChain_broken digests keys good bad rest ascending
    · exact (sound_iff_block injective history good genuine keylessGood).mpr goodBlock
    · rw [sound_iff_block injective history _ genuine keylessBad]
      exact notBlock
  · intro good bad rest row newer retired parts sound member older byNewer byRetired
    subst parts
    exact verifyActivityChain_broken digests keys good bad rest ascending sound
      (not_sound_after_newer injective good bad row newer retired member older byNewer byRetired)

/-! Digests that spell out what they are made of, and two rows under one key. -/

def plainDigests : Digests ℕ where
  hmac key message := String.ofList (List.replicate key 'k' ++ '.' :: message.toList)
  hashSignature signature := String.ofList ('#' :: signature.toList)
  hmac_ne_empty key message := by
    intro empty
    have letters := congrArg String.toList empty
    simp at letters
  hash_ne_empty signature := by
    intro empty
    have letters := congrArg String.toList empty
    simp at letters

theorem plainDigests_injective : plainDigests.Injective where
  hmac key key' message message' same := by
    have letters : List.replicate key 'k' ++ '.' :: message.toList =
        List.replicate key' 'k' ++ '.' :: message'.toList := String.ofList_injective same
    have spans : ∀ (n : ℕ) (rest : List Char),
        (List.replicate n 'k' ++ '.' :: rest).takeWhile (fun c => decide (c = 'k')) =
          List.replicate n 'k' := by
      intro n rest
      rw [List.takeWhile_append_of_pos (by simp)]
      simp
    have front := congrArg (List.takeWhile (fun c => decide (c = 'k'))) letters
    rw [spans, spans] at front
    have keys : key = key' := by simpa using congrArg List.length front
    subst keys
    exact ⟨rfl, String.toList_inj.mp (List.cons.inj (List.append_cancel_left letters)).2⟩
  hashSignature := by
    intro a b same
    exact String.toList_inj.mp (List.cons.inj (String.ofList_injective same)).2

def note (what : String) : ActivityRowContent where
  atMs := 0
  severity := .info
  sourceIcon := "shield"
  what := what
  sub := none
  kind := .system
  refs := .null
  actorType := some .system
  actorId := none
  schemaVersion := 2

def noteText (what : String) : String :=
  String.ofList (Json.text (.obj (actorMembers (note what) ++
    legacyMembers (note what) (String.ofList (IsoText.isoText 0)))))

/-- A row that says `what`, signed under a key after some link. -/
def signedNote (id : ℤ) (key : ℕ) (what prev : String) : ActivityRow :=
  ⟨id, note what, plainDigests.hmac key (noteText what ++ "|" ++ prev), prev⟩

theorem signedNote_tagged (id : ℤ) (key : ℕ) (what prev : String) :
    Tagged plainDigests key (signedNote id key what prev).content prev
      (signedNote id key what prev).signature := rfl

def firstNote : ActivityRow := signedNote 1 0 "first" ""

def secondNote : ActivityRow :=
  signedNote 2 0 "second" (plainDigests.hashSignature firstNote.signature)

def oneKey : List (AuditKeyEpoch ℕ) := [⟨"current", 0⟩]

theorem notes_sound : Sound plainDigests oneKey [firstNote, secondNote] := by
  refine ⟨?_, [0, 0], by simp, ?_⟩
  · exact List.isChain_cons_cons.mpr ⟨rfl, List.isChain_singleton _⟩
  · exact .cons ⟨_, rfl, signedNote_tagged _ _ _ _⟩ (.cons ⟨_, rfl, signedNote_tagged _ _ _ _⟩ .nil)

theorem chain_is_tamper_evident_to_an_edit :
    verifyActivityChain plainDigests oneKey
        [firstNote, { secondNote with content := note "edited" }] none =
      some ⟨false, 2, some (toString (2 : ℤ))⟩ := by
  have genuine : Genuine plainDigests oneKey [firstNote, secondNote] :=
    ⟨notes_sound, by simp [firstNote, signedNote]⟩
  have evident := @chain_is_tamper_evident ℕ plainDigests oneKey plainDigests_injective
    [firstNote, { secondNote with content := note "edited" }]
    (by simp [Ascending, firstNote, secondNote, signedNote])
  refine (evident.2.1 [firstNote, secondNote] genuine ?_).2 [firstNote] _ [] rfl ?_ ?_
  · intro row member
    left
    simp only [List.mem_cons, List.not_mem_nil, or_false] at member
    rcases member with rfl | rfl
    · exact ⟨firstNote, by simp, rfl⟩
    · exact ⟨secondNote, by simp, rfl⟩
  · exact ⟨[], [firstNote], [secondNote], rfl, .cons (.refl firstNote) .nil⟩
  · intro isBlock
    obtain ⟨before, block, after, parts, matched⟩ := isBlock
    cases matched with
    | cons first rest =>
      cases rest with
      | @cons original _ _ _ second none_left =>
        cases none_left
        have sizes := congrArg List.length parts
        simp only [List.length_append, List.length_cons, List.length_nil] at sizes
        obtain rfl : before = [] := List.eq_nil_of_length_eq_zero (by omega)
        obtain rfl : after = [] := List.eq_nil_of_length_eq_zero (by omega)
        simp only [List.nil_append, List.append_nil, List.cons.injEq, and_true] at parts
        have what := second.content.what
        rw [← parts.2] at what
        exact absurd what (by decide)

-- The last row is gone and nothing is reported.
theorem tail_deletion_goes_through :
    verifyActivityChain plainDigests oneKey [firstNote, secondNote] none =
        some ⟨true, 2, none⟩ ∧
      verifyActivityChain plainDigests oneKey [firstNote] none = some ⟨true, 1, none⟩ := by
  constructor
  · exact (verifyActivityChain_ok_iff plainDigests oneKey [firstNote, secondNote]
      (by simp [Ascending, firstNote, secondNote, signedNote])).mpr notes_sound
  · exact (verifyActivityChain_ok_iff plainDigests oneKey [firstNote]
      (by simp [Ascending])).mpr (show Sound plainDigests oneKey ([] ++ [firstNote] ++ [secondNote])
        from notes_sound).part

end Droplet.Audit
