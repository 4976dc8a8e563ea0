import Droplet.Outbound.Pinned

/-! The spellings of one host name: any letter case, with or without a trailing dot. -/

namespace Droplet.Outbound

open IpText

def dropDot (host : List Char) : List Char :=
  if host.getLast? = some '.' then host.dropLast else host

def spelled (host : List Char) : List Char := lower (dropDot host)

/-- A name that only ever means this box or this LAN. -/
def internalName (name : List Char) : Bool :=
  name = "localhost".toList || endsWithAny BLOCKED_HOST_SUFFIXES name

def boxOnly (name : List Char) : Bool :=
  name = "localhost".toList || endsWithAny LAN_AWARE_BLOCKED_SUFFIXES name

theorem boxOnly_internal {name : List Char} (box : boxOnly name) : internalName name := by
  simp only [boxOnly, internalName, endsWithAny, LAN_AWARE_BLOCKED_SUFFIXES, BLOCKED_HOST_SUFFIXES,
    List.any_cons, List.any_nil, Bool.or_false, Bool.or_eq_true] at box ⊢
  rcases box with same | local' | internal
  · exact .inl same
  · exact .inr (.inr (.inl local'))
  · exact .inr (.inr (.inr (.inl internal)))

theorem toLower_cases (c : Char) :
    c.toLower = c ∨
      (65 ≤ c.toNat ∧ c.toNat ≤ 90) ∧ 97 ≤ c.toLower.toNat ∧ c.toLower.toNat ≤ 122 := by
  unfold Char.toLower
  split
  · rename_i capital
    have low : 65 ≤ c.toNat := capital.1
    have high : c.toNat ≤ 90 := capital.2
    have moved : (c.val + ('a'.val - 'A'.val)).toNat = c.toNat + 32 := by
      rw [UInt32.toNat_add]
      exact Nat.mod_eq_of_lt (by change c.toNat + 32 < _; omega)
    refine .inr ⟨⟨low, high⟩, ?_, ?_⟩
    · change 97 ≤ (c.val + ('a'.val - 'A'.val)).toNat
      omega
    · change (c.val + ('a'.val - 'A'.val)).toNat ≤ 122
      omega
  · exact .inl rfl

theorem toLower_eq_iff {c d : Char} (caseless : d.toNat < 65 ∨ 90 < d.toNat ∧ d.toNat < 97) :
    c.toLower = d ↔ c = d := by
  rcases toLower_cases c with same | ⟨upper, small⟩
  · rw [same]
  · constructor
    · intro same
      rw [same] at small
      omega
    · intro same
      rw [same] at upper
      omega

theorem lower_lower (text : List Char) : lower (lower text) = lower text := by
  simp only [lower, List.map_map, List.map_inj_left, Function.comp_apply]
  intro c _
  rcases toLower_cases c.toLower with same | ⟨upper, -⟩
  · exact same
  · rcases toLower_cases c with same | ⟨-, small⟩
    · rw [same, same]
    · omega

theorem lower_append (front back : List Char) : lower (front ++ back) = lower front ++ lower back := by
  simp [lower]

theorem head_lower {host : List Char} : (lower host).head? = some '[' ↔ host.head? = some '[' := by
  rw [lower, List.head?_map, Option.map_eq_some_iff]
  simp only [toLower_eq_iff (d := '[') (by decide), exists_eq_right]

theorem last_lower {host : List Char} (d : Char) (caseless : d.toNat < 65 ∨ 90 < d.toNat ∧ d.toNat < 97) :
    (lower host).getLast? = some d ↔ host.getLast? = some d := by
  rw [lower, List.getLast?_map, Option.map_eq_some_iff]
  simp only [toLower_eq_iff caseless, exists_eq_right]

theorem stripBrackets_lower (host : List Char) : stripBrackets (lower host) = lower (stripBrackets host) := by
  have first := @head_lower host
  have last := @last_lower host ']' (by decide)
  unfold stripBrackets
  simp only [first, last]
  split
  · simp [lower, List.map_tail, List.map_dropLast]
  · rfl

theorem endsWithAny_concat {suffixes : List (List Char)} {d : Char}
    (letters : suffixes.all fun suffix => suffix.getLast?.any (· ≠ d)) (name : List Char) :
    endsWithAny suffixes (name ++ [d]) = false := by
  rw [endsWithAny, List.any_eq_false]
  intro suffix member found
  have final := List.all_eq_true.mp letters suffix member
  simp only [Option.any_eq_true, decide_eq_true_eq, ne_eq] at final
  obtain ⟨c, last, letter⟩ := final
  obtain ⟨front, whole⟩ := List.isSuffixOf_iff_suffix.mp found
  have same := congrArg List.getLast? whole
  rw [List.getLast?_append, last, List.getLast?_concat, Option.some_or, Option.some.injEq] at same
  exact letter same

theorem localhost_ne_concat (name : List Char) {d : Char} (other : d ≠ 't') :
    name ++ [d] ≠ "localhost".toList := by
  intro same
  have last := congrArg List.getLast? same
  rw [List.getLast?_concat, show "localhost".toList.getLast? = some 't' from rfl] at last
  exact other (Option.some.inj last)

theorem internalName_concat (name : List Char) {d : Char} (mark : d = '.' ∨ d = ']') :
    internalName (name ++ [d]) = false := by
  have letters : BLOCKED_HOST_SUFFIXES.all fun suffix => suffix.getLast?.any (· ≠ d) := by
    rcases mark with rfl | rfl <;> decide
  have other : d ≠ 't' := by
    rcases mark with rfl | rfl <;> decide
  rw [internalName, endsWithAny_concat letters, Bool.or_false, decide_eq_false_iff_not]
  exact localhost_ne_concat name other

theorem boxName_dot (name : List Char) : boxName (name ++ ['.']) = false := by
  have suffixes := @endsWithAny_concat LAN_AWARE_BLOCKED_SUFFIXES '.' (by decide) name
  rw [boxName, suffixes, Bool.or_false, decide_eq_false (localhost_ne_concat name (by decide))]
  simp

theorem isIP_dot {name : List Char} (plain : '%' ∉ name) : isIP (name ++ ['.']) = 0 := by
  cases read : parse (name ++ ['.']) with
  | none => simp [isIP, read]
  | some result =>
    have zoneless : '%' ∉ name ++ ['.'] := by simp [plain]
    obtain ⟨c, last, edge⟩ := parse_last zoneless read
    rw [List.getLast?_concat, Option.some.injEq] at last
    subst last
    exact absurd edge (by decide)

theorem dropDot_cases (host : List Char) :
    (∃ name, host = name ++ ['.'] ∧ dropDot host = name) ∨ dropDot host = host := by
  unfold dropDot
  split
  · rename_i last
    obtain ⟨name, shape⟩ := List.getLast?_eq_some_iff.mp last
    exact .inl ⟨name, shape, by rw [shape, List.dropLast_concat]⟩
  · exact .inr rfl

variable {url other : Url} {name : List Char}

theorem Url.web (plain : url.plain) : url.protocol = "http:" ∨ url.protocol = "https:" := by
  simp only [Url.plain, Bool.and_eq_true, Bool.or_eq_true, decide_eq_true_eq] at plain
  exact plain.1.1

theorem Url.trim_hostname (plain : url.plain) : JsText.trimChars url.hostname = url.hostname := by
  apply JsText.trimChars_of_ends
  · intro c first
    exact (url.ascii (Url.web plain) c (List.mem_of_mem_head? first)).2.1
  · intro c last
    exact (url.ascii (Url.web plain) c (List.mem_of_mem_getLast? last)).2.1

theorem Url.isBlockedHostname_eq (plain : url.plain) :
    isBlockedHostname url.hostname =
      (url.lanHost = [] || internalName url.lanHost ||
        (isIP url.lanHost ≠ 0 && isBlockedAddress url.lanHost)) := by
  rw [isBlockedHostname, Url.trim_hostname plain, stripBrackets_lower, ← Url.lanHost]
  by_cases empty : url.lanHost = []
  · simp [BLOCKED_HOST_EXACT, empty]
  · by_cases box : url.lanHost = "localhost".toList
    · rw [box]
      rfl
    · have exact' : BLOCKED_HOST_EXACT.contains url.lanHost = false := by
        simp [BLOCKED_HOST_EXACT, empty]
        exact box
      simp only [exact', internalName, empty, box]
      cases endsWithAny BLOCKED_HOST_SUFFIXES url.lanHost <;>
        by_cases address : isIP url.lanHost = 0 <;> simp [address]

section

variable (dot : url.hostname = name ++ ['.'])
include dot

theorem Url.lanHost_dotted : url.lanHost = lower name ++ ['.'] := by
  have open' : stripBrackets url.hostname = url.hostname := by
    rw [stripBrackets, dot, List.getLast?_concat]
    simp
  rw [Url.lanHost, open', dot, lower_append]
  rfl

theorem Url.isIP_dotted (plain : url.plain) : isIP url.lanHost = 0 := by
  rw [Url.lanHost_dotted dot]
  apply isIP_dot
  intro percent
  obtain ⟨c, member, same⟩ := List.mem_map.mp percent
  rw [toLower_eq_iff (by decide)] at same
  exact (url.ascii (Url.web plain) c (by simp [dot, member])).2.2 same

theorem Url.allowed_dotted (plain : url.plain) : isBlockedHostname url.hostname = false := by
  rw [Url.isBlockedHostname_eq plain, Url.isIP_dotted dot plain, Url.lanHost_dotted dot, internalName_concat _ (.inl rfl)]
  simp

end

/-- The same URL with its host in lower case and without the trailing dot. -/
structure Respells (url other : Url) : Prop where
  protocol : other.protocol = url.protocol
  username : other.username = url.username
  password : other.password = url.password
  hostname : other.hostname = spelled url.hostname

theorem Respells.plain (same : Respells url other) : other.plain = url.plain := by
  rw [Url.plain, Url.plain, same.protocol, same.username, same.password]

theorem Url.dotted_open (dot : url.hostname = name ++ ['.']) : (lower name).head? ≠ some '[' := by
  intro bracket
  have first : url.hostname.head? = some '[' := by
    rw [dot, List.head?_append, head_lower.mp bracket]
    rfl
  have last := url.bracketed first
  rw [dot, List.getLast?_concat] at last
  exact absurd last (by decide)

theorem spelled_dotted (name : List Char) : spelled (name ++ ['.']) = lower name := by
  rw [spelled, dropDot, List.getLast?_concat, if_pos rfl, List.dropLast_concat]

theorem Respells.dotted (same : Respells url other) (dot : url.hostname = name ++ ['.']) :
    other.lanHost = lower name := by
  rw [Url.lanHost, same.hostname, dot, spelled_dotted, stripBrackets_of_head (Url.dotted_open dot),
    lower_lower]

theorem Respells.undotted (same : Respells url other) (bare : dropDot url.hostname = url.hostname) :
    other.lanHost = url.lanHost := by
  rw [Url.lanHost, Url.lanHost, same.hostname, spelled, bare, stripBrackets_lower, lower_lower]

theorem Url.lanHost_internal (bare : dropDot url.hostname = url.hostname)
    (internal : internalName (spelled url.hostname)) : url.lanHost = spelled url.hostname := by
  rw [spelled, bare] at internal ⊢
  rw [Url.lanHost, ← stripBrackets_lower]
  apply stripBrackets_of_head
  intro bracket
  have last := url.bracketed (head_lower.mp bracket)
  obtain ⟨front, shape⟩ := List.getLast?_eq_some_iff.mp ((last_lower ']' (by decide)).mpr last)
  rw [shape, internalName_concat _ (.inr rfl)] at internal
  cases internal

theorem Url.hosted_of_plain (plain : url.plain) : url.hostname ≠ [] := by
  exact url.hosted (Url.web plain)

theorem Url.undotted_open (plain : url.plain) (same : other.plain = url.plain) (dot : url.hostname = name ++ ['.'])
    (named : other.lanHost = lower name) (nonempty : lower name ≠ [])
    (outside : internalName (lower name) = false) :
    isBlockedHostname other.hostname = false ∧ boxName other.lanHost = false ∧
      isIP other.lanHost = 0 := by
  have address : isIP other.lanHost = 0 := by rw [named, url.dotted (Url.web plain) name dot]
  refine ⟨?_, ?_, address⟩
  · rw [Url.isBlockedHostname_eq (same.trans plain), address, named, outside]
    simpa using nonempty
  · rw [named, boxName, decide_eq_false nonempty, Bool.false_or, ← boxOnly.eq_1, Bool.eq_false_iff]
    intro box
    rw [boxOnly_internal box] at outside
    cases outside

def DottedInternal (host : List Char) : Prop :=
  ∃ name, host = name ++ ['.'] ∧ internalName (lower name)

section Promise

variable (number : String → Option ℤ) (parseUrl : String → Option Url) (raw : String)

def Allowed : Prop := ∃ result, assertOutboundUrlAllowed parseUrl raw false = .ok result

def Pins (facts : LocalNetworkFacts) (resolved : Option (List (List Char))) : Prop :=
  ∃ dest, resolvePinnedDestination number parseUrl raw facts resolved = .ok dest

structure SafelyPinned (url : Url) : Prop where
  addresses : ∀ facts resolved dest,
    resolvePinnedDestination number parseUrl raw facts resolved = .ok dest →
      ∀ pin ∈ dest.addresses, ∃ scope, Reaches number facts scope pin.address
  scope : ∀ facts resolved dest,
    resolvePinnedDestination number parseUrl raw facts resolved = .ok dest →
      ∃ answers, answersFor dest.hostname resolved = .ok answers ∧
        (dest.scope = .wan ↔ ∃ answer ∈ answers, Reaches number facts .wan answer)
  adding : ∀ facts front back added, front ++ back ≠ [] →
    ¬Pins number parseUrl raw facts (some (front ++ back)) →
      ¬Pins number parseUrl raw facts (some (front ++ added :: back))
  spelling : ∀ raw' other, parseUrl (JsText.trim raw') = some other → Respells url other →
    (Allowed parseUrl raw ↔ Allowed parseUrl raw') ∧
      ∀ facts resolved,
        (Pins number parseUrl raw facts resolved ↔ Pins number parseUrl raw' facts resolved)
  box : boxOnly (spelled url.hostname) →
    ¬Allowed parseUrl raw ∧ ∀ facts resolved, ¬Pins number parseUrl raw facts resolved

end Promise

variable {number : String → Option ℤ} {facts : LocalNetworkFacts} {parseUrl : String → Option Url}
  {raw : String}

theorem allowed_iff (read : parseUrl (JsText.trim raw) = some url) :
    Allowed parseUrl raw ↔ url.plain ∧ isBlockedHostname url.hostname = false := by
  simp only [Allowed, assertOutboundUrlAllowed_eq_ok read, forall_const, exists_eq_left]

theorem pins_iff (read : parseUrl (JsText.trim raw) = some url) (resolved : Option (List (List Char))) :
    Pins number parseUrl raw facts resolved ↔
      url.plain ∧ boxName url.lanHost = false ∧ ∃ answers, answersFor url.lanHost resolved = .ok answers ∧
        ∀ answer ∈ answers, ∃ reached, Reaches number facts reached answer := by
  simp only [Pins, resolvePinnedDestination_eq_ok read]
  constructor
  · intro ⟨dest, plain, name, answers, given, reached, _⟩
    exact ⟨plain, name, answers, given, reached⟩
  · intro ⟨plain, name, answers, given, reached⟩
    classical
    refine ⟨⟨url, url.lanHost, answers.map pinned,
      if ∃ answer ∈ answers, Reaches number facts .wan answer then .wan else .lan⟩, plain, name,
      answers, given, reached, rfl, rfl, rfl, ?_⟩
    split <;> simp_all

theorem answersFor_some {host : List Char} (name : isIP host = 0) {answers : List (List Char)}
    (nonempty : answers ≠ []) : answersFor host (some answers) = .ok answers := by
  cases answers with
  | nil => exact absurd rfl nonempty
  | cons answer rest => simp [answersFor, name]

theorem pins_of_added (read : parseUrl (JsText.trim raw) = some url) {front back : List (List Char)}
    {added : List Char} (nonempty : front ++ back ≠ [])
    (pins : Pins number parseUrl raw facts (some (front ++ added :: back))) :
    Pins number parseUrl raw facts (some (front ++ back)) := by
  rw [pins_iff read] at pins ⊢
  obtain ⟨plain, name, answers, given, reached⟩ := pins
  refine ⟨plain, name, ?_⟩
  by_cases address : isIP url.lanHost = 0
  · rw [answersFor_some address (by simp)] at given
    cases given
    refine ⟨front ++ back, answersFor_some address nonempty, ?_⟩
    intro answer member
    apply reached
    rcases List.mem_append.mp member with member | member
    · exact List.mem_append_left _ member
    · exact List.mem_append_right _ (List.mem_cons_of_mem _ member)
  · exact ⟨answers, by simpa [answersFor, address] using given, reached⟩

theorem answersFor_named {host host' : List Char} (name : isIP host = 0) (name' : isIP host' = 0)
    (resolved : Option (List (List Char))) (answers : List (List Char)) :
    answersFor host resolved = .ok answers ↔ answersFor host' resolved = .ok answers := by
  cases resolved with
  | none => simp [answersFor, name, name']
  | some given =>
    cases given with
    | nil | cons => simp [answersFor, name, name']

theorem same_acceptance (read : parseUrl (JsText.trim raw) = some url) {raw' : String}
    (read' : parseUrl (JsText.trim raw') = some other) (same : Respells url other)
    (undotted : url.plain → ¬DottedInternal url.hostname) :
    (Allowed parseUrl raw ↔ Allowed parseUrl raw') ∧
      ∀ facts resolved,
        (Pins number parseUrl raw facts resolved ↔ Pins number parseUrl raw' facts resolved) := by
  simp only [allowed_iff read, allowed_iff read', pins_iff read, pins_iff read', same.plain]
  cases plain : url.plain with
  | false => simp
  | true =>
    rcases dropDot_cases url.hostname with ⟨name, dot, -⟩ | bare
    · have nonempty : lower name ≠ [] := by
        rw [← spelled_dotted, ← dot, ← same.hostname]
        exact Url.hosted_of_plain (by rw [same.plain, plain])
      have outside : internalName (lower name) = false := by
        rw [Bool.eq_false_iff]
        intro internal
        exact undotted plain ⟨name, dot, internal⟩
      obtain ⟨allowed, open', address⟩ :=
        Url.undotted_open plain same.plain dot (same.dotted dot) nonempty outside
      simp only [Url.allowed_dotted dot plain, allowed, open', Url.lanHost_dotted dot, boxName_dot, and_self,
        true_and]
      intro facts resolved
      have dotted := Url.isIP_dotted dot plain
      rw [Url.lanHost_dotted dot] at dotted
      simp only [answersFor_named dotted address]
    · simp only [Url.isBlockedHostname_eq plain, Url.isBlockedHostname_eq (same.plain.trans plain), same.undotted bare,
        implies_true, and_self]

theorem box_refused (read : parseUrl (JsText.trim raw) = some url)
    (undotted : url.plain → ¬DottedInternal url.hostname) (box : boxOnly (spelled url.hostname)) :
    ¬Allowed parseUrl raw ∧ ∀ facts resolved, ¬Pins number parseUrl raw facts resolved := by
  simp only [allowed_iff read, pins_iff read]
  have internal := boxOnly_internal box
  cases plain : url.plain with
  | false => simp
  | true =>
    rcases dropDot_cases url.hostname with ⟨name, dot, -⟩ | bare
    · rw [dot, spelled_dotted] at internal
      exact absurd ⟨name, dot, internal⟩ (undotted plain)
    · have named : boxName (spelled url.hostname) := by
        rw [boxName, Bool.or_assoc, ← boxOnly.eq_1, box, Bool.or_true]
      rw [Url.isBlockedHostname_eq plain, Url.lanHost_internal bare internal, internal, named]
      simp

/-- The guards keep their promise exactly where the host is no internal name with a trailing dot. -/
theorem pinned_destination_is_safe
    (dotless : ∀ raw url, parseUrl (JsText.trim raw) = some url →
      internalName (spelled url.hostname) →
        ∃ raw' other, parseUrl (JsText.trim raw') = some other ∧ Respells url other)
    (read : parseUrl (JsText.trim raw) = some url) :
    SafelyPinned number parseUrl raw url ↔ (url.plain → ¬DottedInternal url.hostname) := by
  constructor
  · intro safe plain ⟨name, dot, internal⟩
    have named : internalName (spelled url.hostname) := by rw [dot, spelled_dotted, internal]
    obtain ⟨raw', other, read', same⟩ := dotless raw url read named
    have allowed := (allowed_iff read).mpr ⟨plain, Url.allowed_dotted dot plain⟩
    have allowed' := (allowed_iff read').mp ((safe.spelling raw' other read' same).1.mp allowed)
    rw [Url.isBlockedHostname_eq allowed'.1, same.dotted dot] at allowed'
    simp [internal] at allowed'
  · intro undotted
    refine ⟨?_, ?_, ?_, ?_, ?_⟩
    · intro facts resolved dest returned pin member
      obtain ⟨-, -, answers, -, reached, -, -, addresses, -⟩ :=
        (resolvePinnedDestination_eq_ok read resolved dest).mp returned
      rw [addresses] at member
      obtain ⟨answer, given, rfl⟩ := List.mem_map.mp member
      obtain ⟨scope, verdict⟩ := reached answer given
      exact ⟨scope, classify_bare verdict⟩
    · intro facts resolved dest returned
      obtain ⟨-, -, answers, given, -, -, host, -, scope⟩ :=
        (resolvePinnedDestination_eq_ok read resolved dest).mp returned
      exact ⟨answers, by rw [host, given], scope⟩
    · intro facts front back added nonempty refused pins
      exact refused (pins_of_added read nonempty pins)
    · intro raw' other read' same
      exact same_acceptance read read' same undotted
    · exact box_refused read undotted

def plainHost (host : List Char) : Bool :=
  host.all (fun c => decide (c.toNat < 128) && !JsText.isSpace c && c != '%') && host ≠ [] &&
    host.head? ≠ some '[' && isIP (lower host.dropLast) = 0

def webUrl (host : List Char) (plain : plainHost host) : Url where
  protocol := "http:"
  username := ""
  password := ""
  hostname := host
  ascii := by
    intro _ c member
    simp only [plainHost, Bool.and_eq_true] at plain
    have fits := List.all_eq_true.mp plain.1.1.1 c member
    simpa [and_assoc] using fits
  bracketed := by
    intro bracket
    simp [plainHost, bracket] at plain
  dotted := by
    intro _ name shape
    simp only [plainHost, Bool.and_eq_true, decide_eq_true_eq] at plain
    rw [shape, List.dropLast_concat] at plain
    exact plain.2
  hosted := by
    intro _ empty
    simp [plainHost, empty] at plain

def localhostUrl : Url := webUrl "localhost".toList (by decide)

def dottedLocalhostUrl : Url := webUrl "localhost.".toList (by decide)

def dottedExampleUrl : Url := webUrl "example.com.".toList (by decide)

def parseThree (raw : String) : Option Url :=
  if raw = "http://localhost/" then some localhostUrl
  else if raw = "http://localhost./" then some dottedLocalhostUrl
  else if raw = "http://example.com./" then some dottedExampleUrl
  else none

theorem parseThree_dotless (raw : String) (url : Url)
    (read : parseThree (JsText.trim raw) = some url) (internal : internalName (spelled url.hostname)) :
    ∃ raw' other, parseThree (JsText.trim raw') = some other ∧ Respells url other := by
  have known : parseThree (JsText.trim "http://localhost/") = some localhostUrl := by
    rw [show JsText.trim "http://localhost/" = "http://localhost/" by decide]
    rfl
  refine ⟨"http://localhost/", localhostUrl, known, ?_⟩
  simp only [parseThree] at read
  split at read
  · cases read
    exact ⟨rfl, rfl, rfl, by decide⟩
  · split at read
    · cases read
      exact ⟨rfl, rfl, rfl, by decide⟩
    · split at read
      · cases read
        exact absurd internal (by decide)
      · cases read

theorem dotted_example_is_safe : SafelyPinned (fun _ => none) parseThree "http://example.com./" dottedExampleUrl := by
  refine (pinned_destination_is_safe parseThree_dotless ?_).mpr ?_
  · rw [show JsText.trim "http://example.com./" = "http://example.com./" by decide]
    rfl
  · intro _ ⟨name, dot, internal⟩
    have named : spelled dottedExampleUrl.hostname = lower name := by rw [dot, spelled_dotted]
    rw [← named] at internal
    exact absurd internal (by decide)

/-- `http://localhost./` passes both guards. -/
theorem dotted_localhost_is_accepted :
    boxOnly (spelled dottedLocalhostUrl.hostname) ∧ Allowed parseThree "http://localhost./" ∧
      Pins (fun _ => none) parseThree "http://localhost./" ⟨[], []⟩ (some ["192.168.1.20".toList]) ∧
        ¬SafelyPinned (fun _ => none) parseThree "http://localhost./" dottedLocalhostUrl := by
  have read : parseThree (JsText.trim "http://localhost./") = some dottedLocalhostUrl := by
    rw [show JsText.trim "http://localhost./" = "http://localhost./" by decide]
    rfl
  have box : boxOnly (spelled dottedLocalhostUrl.hostname) := by decide
  have allowed : Allowed parseThree "http://localhost./" := by
    rw [allowed_iff read]
    decide
  refine ⟨box, allowed, ?_, ?_⟩
  · rw [pins_iff read]
    refine ⟨by decide, by decide, ["192.168.1.20".toList], by decide, ?_⟩
    intro answer member
    rw [List.mem_singleton.mp member]
    exact ⟨.lan, by unfold Reaches; decide⟩
  · intro safe
    exact (safe.box box).1 allowed

end Droplet.Outbound
