import Droplet.Outbound.Guard

/-! What a pinned destination promises about each of its addresses. -/

namespace Droplet.Outbound

open IpText

variable {number : String → Option ℤ} {facts : LocalNetworkFacts}

def classified (addr : List Char) : List Char :=
  JsText.trimChars (withoutZone (stripBrackets (JsText.trimChars addr)))

theorem stripBrackets_of_head {text : List Char} (head : text.head? ≠ some '[') : stripBrackets text = text := by
  simp [stripBrackets, head]

theorem trimChars_withoutZone (text : List Char) :
    JsText.trimChars (withoutZone (JsText.trimChars text)) = JsText.trimChars (withoutZone text) := by
  refine JsText.trimChars_takeWhile ?_ text
  intro c space
  have other : c ≠ '%' := by
    intro same
    rw [same] at space
    revert space
    decide
  simp [other]

theorem isHex_ne_bracket {c : Char} (edge : isHex c ∨ c = ':') : c ≠ '[' := by
  intro same
  subst same
  revert edge
  decide

theorem classified_bare {addr : List Char} {result : Family × ℕ} (read : parse (classified addr) = some result) :
    classified (stripBrackets (JsText.trimChars addr)) = classified addr := by
  generalize bared : stripBrackets (JsText.trimChars addr) = bare
  have core : classified addr = JsText.trimChars (withoutZone bare) := by rw [← bared, classified]
  rw [core, ← trimChars_withoutZone] at read
  have head : (JsText.trimChars bare).head? ≠ some '[' := by
    intro bracket
    obtain ⟨rest, shape⟩ := List.head?_eq_some_iff.mp bracket
    obtain ⟨c, first, edge⟩ := parse_head read
    have zoneless : withoutZone (JsText.trimChars bare) = '[' :: withoutZone rest := by
      rw [shape]
      rfl
    obtain ⟨tail, kept⟩ := JsText.trimChars_cons '[' (withoutZone rest) (by decide)
    rw [zoneless, kept, List.head?_cons, Option.some.injEq] at first
    exact isHex_ne_bracket edge first.symm
  calc
    classified bare = JsText.trimChars (withoutZone (JsText.trimChars bare)) := by
      rw [classified, stripBrackets_of_head head]
    _ = classified addr := by
      rw [trimChars_withoutZone, core]

theorem classify_congr {addr other : List Char} (same : classified addr = classified other) :
    classifyDestinationAddress number addr facts =
      classifyDestinationAddress number other facts := by
  simp only [classified] at same
  simp only [classifyDestinationAddress, same]

/-- The address the connection is pinned to gets the verdict of the answer it came from. -/
theorem classify_bare {addr : List Char} {scope : OutboundScope}
    (reached : classifyDestinationAddress number addr facts = some (.reaches scope)) :
    classifyDestinationAddress number (stripBrackets (JsText.trimChars addr)) facts =
      some (.reaches scope) := by
  cases read : parse (classified addr) with
  | none =>
    rw [classified] at read
    simp [classifyDestinationAddress, read] at reached
  | some result => rw [classify_congr (classified_bare read), reached]

def pinned (address : List Char) : PinnedAddress :=
  ⟨stripBrackets (JsText.trimChars address),
    if isIP (stripBrackets (JsText.trimChars address)) = 6 then 6 else 4⟩

def Reaches (number : String → Option ℤ) (facts : LocalNetworkFacts) (scope : OutboundScope)
    (address : List Char) : Prop :=
  classifyDestinationAddress number address facts = some (.reaches scope)

/-- Vetting succeeds exactly when each answer is reached, and then pins every one of them. -/
theorem vetAnswers_eq_ok {answers : List (List Char)} {scope final : OutboundScope}
    {before addresses : List PinnedAddress} :
    vetAnswers number facts answers scope before = .ok (addresses, final) ↔
      (∀ answer ∈ answers, ∃ reached, Reaches number facts reached answer) ∧
        addresses = before ++ answers.map pinned ∧
          (final = .wan ↔ scope = .wan ∨ ∃ answer ∈ answers, Reaches number facts .wan answer) := by
  induction answers generalizing scope before with
  | nil =>
    cases final <;> cases scope <;> simp [vetAnswers, eq_comm]
  | cons answer rest ih =>
    rw [vetAnswers]
    cases verdict : classifyDestinationAddress number answer facts with
    | none => simp [Reaches, verdict]
    | some verdict' =>
      cases verdict' with
      | refused rule => simp [Reaches, verdict]
      | reaches reached =>
        have first : ∃ scope, Reaches number facts scope answer := ⟨reached, verdict⟩
        have wide : Reaches number facts .wan answer ↔ reached = .wan := by
          simp [Reaches, verdict]
        simp only [ih, List.forall_mem_cons, first, true_and, List.map_cons, pinned,
          List.append_assoc, List.singleton_append]
        refine and_congr_right fun _ => and_congr_right fun _ => iff_congr Iff.rfl ?_
        cases reached <;> simp [wide]

def Url.plain (url : Url) : Bool :=
  (url.protocol = "http:" || url.protocol = "https:") && url.username = "" && url.password = ""

def Url.lanHost (url : Url) : List Char := lower (stripBrackets url.hostname)

def boxName (host : List Char) : Bool :=
  host = [] || host = "localhost".toList || endsWithAny LAN_AWARE_BLOCKED_SUFFIXES host

variable {parseUrl : String → Option Url} {raw : String} {url : Url}

theorem assertOutboundUrlAllowed_eq_ok (read : parseUrl (JsText.trim raw) = some url) (allow : Bool)
    (result : Url) :
    assertOutboundUrlAllowed parseUrl raw allow = .ok result ↔
      result = url ∧ url.plain ∧ (allow = false → isBlockedHostname url.hostname = false) := by
  simp only [assertOutboundUrlAllowed, read, Url.plain]
  by_cases web : url.protocol = "http:" ∨ url.protocol = "https:"
  · by_cases user : url.username = "" ∧ url.password = ""
    · cases allow <;> cases isBlockedHostname url.hostname <;> rcases web with web | web <;>
        simp [web, user, eq_comm]
    · rcases web with web | web <;> by_cases name : url.username = "" <;>
        simp_all
  · simp_all

theorem parseLanAwareUrl_eq_ok (read : parseUrl (JsText.trim raw) = some url) (result : Url × List Char) :
    parseLanAwareUrl parseUrl raw = .ok result ↔
      result = (url, url.lanHost) ∧ url.plain ∧ boxName url.lanHost = false := by
  have gate := assertOutboundUrlAllowed_eq_ok read true
  simp only [parseLanAwareUrl, bind, Except.bind]
  cases first : assertOutboundUrlAllowed parseUrl raw true with
  | error refusal =>
    have refused : url.plain = false := by
      by_contra plain
      have passed := (gate url).mpr ⟨rfl, by simpa using plain, by simp⟩
      rw [first] at passed
      cases passed
    simp [refused]
  | ok parsed =>
    obtain ⟨rfl, plain, -⟩ := (gate parsed).mp first
    change (if boxName parsed.lanHost then _ else _) = _ ↔ _
    cases boxName parsed.lanHost <;> simp [plain, eq_comm, Url.lanHost]

theorem scope_ext {first second : OutboundScope} (same : first = .wan ↔ second = .wan) : first = second := by
  cases first <;> cases second <;> simp_all

theorem resolvePinnedDestination_eq_ok (read : parseUrl (JsText.trim raw) = some url)
    (resolved : Option (List (List Char))) (dest : PinnedDestination) :
    resolvePinnedDestination number parseUrl raw facts resolved = .ok dest ↔
      url.plain ∧ boxName url.lanHost = false ∧ ∃ answers, answersFor url.lanHost resolved = .ok answers ∧
        (∀ answer ∈ answers, ∃ reached, Reaches number facts reached answer) ∧
        dest.url = url ∧ dest.hostname = url.lanHost ∧ dest.addresses = answers.map pinned ∧
          (dest.scope = .wan ↔ ∃ answer ∈ answers, Reaches number facts .wan answer) := by
  have gate := parseLanAwareUrl_eq_ok read
  simp only [resolvePinnedDestination]
  cases first : parseLanAwareUrl parseUrl raw with
  | error refusal =>
    have refused : ¬(url.plain ∧ boxName url.lanHost = false) := by
      intro passes
      have passed := (gate (url, url.lanHost)).mpr ⟨rfl, passes⟩
      rw [first] at passed
      cases passed
    constructor
    · intro same
      cases same
    · intro ⟨plain, name, _⟩
      exact absurd ⟨plain, name⟩ refused
  | ok parsed =>
    obtain ⟨rfl, plain, name⟩ := (gate parsed).mp first
    simp only [plain, name, true_and, bind, Except.bind]
    cases answersFor url.lanHost resolved with
    | error failure => simp
    | ok answers =>
      have vet := fun final addresses =>
        @vetAnswers_eq_ok number facts answers .lan final [] addresses
      cases vetted : vetAnswers number facts answers .lan [] with
      | error failure =>
        simp only [vetted]
        refine iff_of_false (by simp) ?_
        intro ⟨_, same, reached, _, _, _, scope⟩
        cases same
        have passed := (vet _ _).mpr ⟨reached, rfl, by simpa using scope⟩
        rw [vetted] at passed
        cases passed
      | ok result =>
        obtain ⟨reached, addresses, scope⟩ := (vet _ _).mp vetted
        simp only [reduceCtorEq, false_or] at scope
        simp only [vetted]
        constructor
        · intro same
          cases same
          exact ⟨answers, rfl, reached, rfl, rfl, addresses, scope⟩
        · intro ⟨_, same, _, sameUrl, host, addresses', scope'⟩
          cases same
          have same : result.2 = dest.scope := scope_ext (scope.trans scope'.symm)
          cases dest
          simp_all [pure, Except.pure]

end Droplet.Outbound
