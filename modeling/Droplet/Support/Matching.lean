import Droplet.Lib.JsText

/-! Which ticket a message answers (`services/support/email-headers.ts`, and `matchedTicket` of
`services/support/email-intake.service.ts`). -/

namespace Droplet.Support.Matching

structure PmProject where
  identifier : String
  serviceDesk : Bool
  /-- The mailboxes of its support channels. -/
  emailAccounts : List String
  deriving DecidableEq

structure PmWorkItem where
  id : ℕ
  project : PmProject
  sequenceId : ℕ
  /-- It has a ticket. -/
  ticket : Bool
  deriving DecidableEq

/-- An e-mail that is part of a ticket, with the ticket's work item. -/
structure PmTicketEmailLink where
  id : ℕ
  workItem : PmWorkItem
  messageIdHeader : String
  createdAt : ℤ

structure Desks where
  workItems : List PmWorkItem
  links : List PmTicketEmailLink
  distinct : (links.map PmTicketEmailLink.id).Nodup

structure MailFacts where
  accountId : String
  inReplyTo : Option String
  references : List String
  subject : String

def MAX_CANDIDATES : ℕ := 120

def stripBrackets (id : String) : String :=
  let t := JsText.trim id
  if t.toList.head? = some '<' ∧ t.toList.getLast? = some '>' then
    JsText.trim (String.ofList (t.toList.drop 1).dropLast)
  else t

def referenceCandidates (inReplyTo : Option String) (references : List String) : List String :=
  let unique := (((inReplyTo.getD "" :: references.reverse).map stripBrackets).filter
    fun id => id != "").eraseDups
  if unique.length ≤ MAX_CANDIDATES then unique
  else unique.take (MAX_CANDIDATES - 1) ++ unique.getLast?.toList

structure TicketToken where
  identifier : String
  sequenceId : ℕ

def digit (c : Char) : Bool := decide ('0' ≤ c ∧ c ≤ '9')

def alphanumeric (c : Char) : Bool :=
  digit c || decide ('A' ≤ c ∧ c ≤ 'Z') || decide ('a' ≤ c ∧ c ≤ 'z')

/-- `TOKEN_SOURCE` at the head of the text. -/
def tokenAt : List Char → Option TicketToken
  | '[' :: rest =>
    let key := rest.takeWhile alphanumeric
    let number := (rest.drop (key.length + 1)).takeWhile digit
    let sequenceId := number.foldl (fun n c => 10 * n + (c.toNat - '0'.toNat)) 0
    if 1 ≤ key.length ∧ key.length ≤ 10 ∧ rest[key.length]? = some '-' ∧ 1 ≤ number.length ∧
        number.length ≤ 9 ∧ rest[key.length + 1 + number.length]? = some ']' ∧ 1 ≤ sequenceId then
      some ⟨String.ofList (key.map Char.toUpper), sequenceId⟩
    else none
  | _ => none

/-- One token never begins within another. -/
def ticketTokens (subject : String) : List TicketToken := subject.toList.tails.filterMap tokenAt

/-- A support channel of its project has the mailbox. -/
def PmWorkItem.bound (item : PmWorkItem) (accountId : String) : Bool :=
  item.project.emailAccounts.contains accountId

/-- `createdAt` descending, then `id` descending. -/
def PmTicketEmailLink.newer (first second : PmTicketEmailLink) : Bool :=
  decide (second.createdAt < first.createdAt ∨ second.createdAt = first.createdAt ∧ second.id ≤ first.id)

/-- `findFirst` with this order. -/
def newest : List PmTicketEmailLink → Option PmTicketEmailLink
  | [] => none
  | link :: rest =>
    match newest rest with
    | some other => if other.newer link then some other else some link
    | none => some link

def PmWorkItem.hasToken (item : PmWorkItem) (accountId : String) (token : TicketToken) : Bool :=
  item.sequenceId == token.sequenceId && item.project.identifier == token.identifier &&
    item.project.serviceDesk && item.bound accountId && item.ticket

namespace Desks

variable (desks : Desks) (facts : MailFacts)

def linksAmong (ids : List String) : List PmTicketEmailLink :=
  desks.links.filter fun link => ids.contains link.messageIdHeader && link.workItem.bound facts.accountId

def tokenItem (token : TicketToken) : Option PmWorkItem :=
  desks.workItems.find? fun item => item.hasToken facts.accountId token

def matchedTicket : Option PmWorkItem :=
  let ids := referenceCandidates facts.inReplyTo facts.references
  match newest (desks.linksAmong facts ids) with
  | some link => some link.workItem
  | none => (ticketTokens facts.subject).findSome? (desks.tokenItem facts)

/-- The best candidate that a ticket of the mailbox's desk has a link with. -/
def answered : Option String :=
  (referenceCandidates facts.inReplyTo facts.references).find? fun id =>
    !(desks.linksAmong facts [id]).isEmpty

/-- The ticket has a link with this Message-ID. -/
def Links (id : String) (item : PmWorkItem) : Prop :=
  ∃ link ∈ desks.linksAmong facts [id], link.workItem = item

/-- The message is part of a ticket that the best candidate names; without one, of the ticket that the first
token of the subject names; and of no ticket of a desk the mailbox does not serve. -/
structure Joins (joined : Option PmWorkItem) : Prop where
  best : ∀ id ∈ desks.answered facts, ∃ item ∈ joined, desks.Links facts id item
  named : desks.answered facts = none → ∀ item ∈ joined, ∃ before token after,
    ticketTokens facts.subject = before ++ token :: after ∧ item ∈ desks.workItems ∧
      item.hasToken facts.accountId token = true ∧
        ∀ earlier ∈ before, ∀ other ∈ desks.workItems, other.hasToken facts.accountId earlier = false
  unnamed : desks.answered facts = none → joined = none → ∀ token ∈ ticketTokens facts.subject,
    ∀ other ∈ desks.workItems, other.hasToken facts.accountId token = false
  own : ∀ item ∈ joined, item.bound facts.accountId = true

/-- Some candidate's link of a ticket that the best one names is newer than those of all other tickets. -/
def BestIsNewest : Prop :=
  ∀ id ∈ desks.answered facts,
    ∃ link ∈ desks.linksAmong facts (referenceCandidates facts.inReplyTo facts.references),
      desks.Links facts id link.workItem ∧
        ∀ other ∈ desks.linksAmong facts (referenceCandidates facts.inReplyTo facts.references),
          ¬ desks.Links facts id other.workItem → other.newer link = false

variable {desks facts}

theorem mem_linksAmong {ids : List String} {link : PmTicketEmailLink} :
    link ∈ desks.linksAmong facts ids ↔
      link ∈ desks.links ∧ link.messageIdHeader ∈ ids ∧ link.workItem.bound facts.accountId = true := by
  simp [linksAmong]

theorem answered_none (none_ : desks.answered facts = none) :
    desks.linksAmong facts (referenceCandidates facts.inReplyTo facts.references) = [] := by
  refine List.eq_nil_iff_forall_not_mem.mpr ?_
  intro link among
  obtain ⟨there, candidate, own⟩ := mem_linksAmong.mp among
  have unlinked := List.find?_eq_none.mp none_ _ candidate
  have empty : desks.linksAmong facts [link.messageIdHeader] = [] := by simpa using unlinked
  have linked : link ∈ desks.linksAmong facts [link.messageIdHeader] :=
    mem_linksAmong.mpr ⟨there, List.mem_singleton_self _, own⟩
  rw [empty] at linked
  cases linked

theorem answered_some {id : String} (some_ : desks.answered facts = some id) :
    desks.linksAmong facts (referenceCandidates facts.inReplyTo facts.references) ≠ [] := by
  have candidate := List.mem_of_find?_eq_some some_
  have nonempty : desks.linksAmong facts [id] ≠ [] := by
    simpa using List.find?_some some_
  obtain ⟨link, linked⟩ := List.exists_mem_of_ne_nil _ nonempty
  obtain ⟨there, only, own⟩ := mem_linksAmong.mp linked
  rw [List.mem_singleton] at only
  exact List.ne_nil_of_mem (mem_linksAmong.mpr ⟨there, only ▸ candidate, own⟩)

theorem newest_none {links : List PmTicketEmailLink} (none_ : newest links = none) : links = [] := by
  cases links with
  | nil => rfl
  | cons link rest =>
    unfold newest at none_
    split at none_
    · split at none_ <;> cases none_
    · cases none_

theorem newest_some {links : List PmTicketEmailLink} {link : PmTicketEmailLink} (some_ : newest links = some link) :
    link ∈ links ∧ ∀ other ∈ links, link.newer other = true := by
  induction links generalizing link with
  | nil => cases some_
  | cons first rest ih =>
    unfold newest at some_
    have itself : first.newer first = true := by simp [PmTicketEmailLink.newer]
    cases later : newest rest with
    | none =>
      rw [later] at some_
      obtain rfl := Option.some.inj some_
      obtain rfl := newest_none later
      simp [itself]
    | some best =>
      obtain ⟨there, newer⟩ := ih later
      simp only [later] at some_
      split at some_
      · rename_i beats
        obtain rfl := Option.some.inj some_
        exact ⟨.tail _ there, List.forall_mem_cons.mpr ⟨beats, newer⟩⟩
      · rename_i loses
        obtain rfl := Option.some.inj some_
        refine ⟨.head _, List.forall_mem_cons.mpr ⟨itself, ?_⟩⟩
        intro other member
        have below := newer other member
        simp only [PmTicketEmailLink.newer, decide_eq_true_eq] at loses below ⊢
        omega

/-- Two links that are as new as each other are the same row. -/
theorem same_of_newer {first second : PmTicketEmailLink} (one : first ∈ desks.links) (two : second ∈ desks.links)
    (newer : first.newer second = true) (older : second.newer first = true) : first = second := by
  refine List.inj_on_of_nodup_map desks.distinct one two ?_
  simp only [PmTicketEmailLink.newer, decide_eq_true_eq] at newer older
  omega

theorem tokenItem_named {item : PmWorkItem}
    (found : (ticketTokens facts.subject).findSome? (desks.tokenItem facts) = some item) :
    ∃ before token after, ticketTokens facts.subject = before ++ token :: after ∧ item ∈ desks.workItems ∧
      item.hasToken facts.accountId token = true ∧
        ∀ earlier ∈ before, ∀ other ∈ desks.workItems, other.hasToken facts.accountId earlier = false := by
  obtain ⟨before, token, after, split, is, none_⟩ := List.findSome?_eq_some_iff.mp found
  unfold tokenItem at is none_
  refine ⟨before, token, after, split, List.mem_of_find?_eq_some is, by simpa using List.find?_some is, ?_⟩
  intro earlier ahead other there
  simpa using List.find?_eq_none.mp (none_ earlier ahead) other there

/-- A message joins the ticket it answers exactly where no ticket that only worse candidates name has the
newest of the links. -/
theorem reply_joins_iff (desks : Desks) (facts : MailFacts) :
    desks.Joins facts (desks.matchedTicket facts) ↔ desks.BestIsNewest facts := by
  cases first : newest (desks.linksAmong facts (referenceCandidates facts.inReplyTo facts.references)) with
  | none =>
    have matched : desks.matchedTicket facts =
        (ticketTokens facts.subject).findSome? (desks.tokenItem facts) := by
      simp only [matchedTicket, first]
    have unanswered : desks.answered facts = none := by
      cases answer : desks.answered facts with
      | none => rfl
      | some id => exact absurd (newest_none first) (answered_some answer)
    rw [matched]
    refine iff_of_true ⟨?_, ?_, ?_, ?_⟩ ?_
    · simp [unanswered]
    · exact fun _ item found => tokenItem_named found
    · intro _ nothing token there other member
      simpa using List.find?_eq_none.mp (List.findSome?_eq_none_iff.mp nothing token there) other member
    · intro item found
      obtain ⟨_, _, _, _, _, named, _⟩ := tokenItem_named found
      simp only [PmWorkItem.hasToken, Bool.and_eq_true] at named
      exact named.1.2
    · simp [BestIsNewest, unanswered]
  | some link =>
    obtain ⟨among, newer⟩ := newest_some first
    have matched : desks.matchedTicket facts = some link.workItem := by
      simp only [matchedTicket, first]
    have answered : desks.answered facts ≠ none := by
      intro none_
      rw [answered_none none_] at among
      cases among
    rw [matched]
    constructor
    · intro joins id best
      obtain ⟨item, is, linked⟩ := joins.best id best
      obtain rfl := Option.some.inj is
      refine ⟨link, among, linked, ?_⟩
      intro other there unlinked
      refine Bool.eq_false_iff.mpr fun older => unlinked ?_
      rw [same_of_newer (mem_linksAmong.mp there).1 (mem_linksAmong.mp among).1 older (newer other there)]
      exact linked
    · intro bestIsNewest
      refine ⟨?_, fun none_ => absurd none_ answered, fun none_ => absurd none_ answered, ?_⟩
      · intro id best
        refine ⟨_, rfl, ?_⟩
        by_contra unlinked
        obtain ⟨own, there, _, older⟩ := bestIsNewest id best
        have contrary := newer own there
        rw [older link among unlinked] at contrary
        cases contrary
      · intro item is
        obtain rfl := Option.some.inj is
        exact (mem_linksAmong.mp among).2.2

def supportDesk : PmProject := ⟨"SUP", true, ["inbox"]⟩

/-- The customer answers a mail of the first ticket; the thread's root is linked to the second ticket too, later. -/
def followUp : Desks where
  workItems := [⟨0, supportDesk, 1, true⟩, ⟨1, supportDesk, 2, true⟩]
  links := [⟨0, ⟨0, supportDesk, 1, true⟩, "answer@sup", 10⟩, ⟨1, ⟨1, supportDesk, 2, true⟩, "root@sup", 20⟩]
  distinct := by decide

theorem newest_link_is_taken :
    ¬ followUp.Joins ⟨"inbox", some "<answer@sup>", ["<root@sup>"], "Re: Printer"⟩
      (followUp.matchedTicket ⟨"inbox", some "<answer@sup>", ["<root@sup>"], "Re: Printer"⟩) := by
  intro joins
  obtain ⟨item, is, link, linked, same⟩ := joins.best "answer@sup" (by decide)
  have second : followUp.matchedTicket ⟨"inbox", some "<answer@sup>", ["<root@sup>"], "Re: Printer"⟩ =
      some ⟨1, supportDesk, 2, true⟩ := by decide
  rw [second] at is
  obtain rfl := Option.some.inj is
  have only : ∀ link ∈ followUp.linksAmong ⟨"inbox", some "<answer@sup>", ["<root@sup>"], "Re: Printer"⟩
      ["answer@sup"], link.workItem ≠ ⟨1, supportDesk, 2, true⟩ := by decide
  exact only link linked same

end Desks

end Droplet.Support.Matching
