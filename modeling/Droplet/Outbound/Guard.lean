import Droplet.Lib.IpText
import Droplet.Lib.JsText

/-! The gate a user-supplied outbound URL passes (`lib/outbound-url-guard.ts`). -/

namespace Droplet.Outbound

open IpText

def isIP (text : List Char) : ℕ :=
  match parse text with
  | some (.v4, _) => 4
  | some (.v6, _) => 6
  | none => 0

def stripBrackets (host : List Char) : List Char :=
  if host.head? = some '[' && host.getLast? = some ']' then host.tail.dropLast else host

def lower (text : List Char) : List Char := text.map Char.toLower

/-- What the guard reads of a parsed URL. The parser brackets IPv6 addresses and nothing else, and with
`http` it leaves hostnames in ASCII without white space and zone ids, takes the trailing dot off an address
and asks for a host. -/
structure Url where
  protocol : String
  username : String
  password : String
  hostname : List Char
  ascii : protocol = "http:" ∨ protocol = "https:" →
    ∀ c ∈ hostname, c.toNat < 128 ∧ JsText.isSpace c = false ∧ c ≠ '%'
  bracketed : hostname.head? = some '[' → hostname.getLast? = some ']'
  dotted : protocol = "http:" ∨ protocol = "https:" →
    ∀ name, hostname = name ++ ['.'] → isIP (lower name) = 0
  hosted : protocol = "http:" ∨ protocol = "https:" → hostname ≠ []

inductive OutboundUrlRejection where
  | malformed
  | scheme
  | userinfo
  | privateHost
  | unresolvable
  | redirect
  deriving DecidableEq

structure OutboundUrlBlockedError where
  reason : OutboundUrlRejection
  detail : String
  deriving DecidableEq

def addSubnet (text : String) (bits : ℕ) : BlockList :=
  ((parse text.toList).map fun network => subnet network bits).toList

def addAddress (text : String) : BlockList := ((parse text.toList).map single).toList

def BLOCKED_RANGES : BlockList :=
  addSubnet "0.0.0.0" 8 ++ addSubnet "10.0.0.0" 8 ++ addSubnet "100.64.0.0" 10 ++
    addSubnet "127.0.0.0" 8 ++ addSubnet "169.254.0.0" 16 ++ addSubnet "172.16.0.0" 12 ++
    addSubnet "192.0.0.0" 24 ++ addSubnet "192.168.0.0" 16 ++ addSubnet "198.18.0.0" 15 ++
    addSubnet "224.0.0.0" 4 ++ addSubnet "240.0.0.0" 4 ++ addAddress "::" ++ addAddress "::1" ++
    addSubnet "fc00::" 7 ++ addSubnet "fe80::" 10 ++ addSubnet "ff00::" 8 ++
    addSubnet "2002::" 16 ++ addSubnet "64:ff9b::" 96

def LAN_RANGES : BlockList :=
  addSubnet "10.0.0.0" 8 ++ addSubnet "172.16.0.0" 12 ++ addSubnet "192.168.0.0" 16 ++
    addSubnet "fc00::" 7

def METADATA_ADDRESSES : BlockList :=
  addAddress "169.254.169.254" ++ addAddress "169.254.170.2" ++ addAddress "fd00:ec2::254"

/-- An address that does not parse is in every table. -/
def inRanges (ranges : BlockList) (bare : List Char) : Bool :=
  match parse bare with
  | some (_, value) => ranges.check value
  | none => true

def isBlockedAddress (addr : List Char) : Bool :=
  inRanges BLOCKED_RANGES (stripBrackets (JsText.trimChars addr))

def BLOCKED_HOST_SUFFIXES : List (List Char) :=
  [".local".toList, ".localhost".toList, ".internal".toList, ".home.arpa".toList]

def BLOCKED_HOST_EXACT : List (List Char) := ["localhost".toList, []]

def endsWithAny (suffixes : List (List Char)) (host : List Char) : Bool :=
  suffixes.any fun suffix => suffix.isSuffixOf host

def isBlockedHostname (host : List Char) : Bool :=
  let h := stripBrackets (lower (JsText.trimChars host))
  if BLOCKED_HOST_EXACT.contains h then true
  else if endsWithAny BLOCKED_HOST_SUFFIXES h then true
  else if isIP h ≠ 0 then isBlockedAddress h
  else false

def assertOutboundUrlAllowed (parseUrl : String → Option Url) (raw : String)
    (allowPrivateHost : Bool) : Except OutboundUrlBlockedError Url :=
  match parseUrl (JsText.trim raw) with
  | none => .error ⟨.malformed, "not a parseable URL"⟩
  | some url =>
    if url.protocol ≠ "http:" && url.protocol ≠ "https:" then
      .error ⟨.scheme, url.protocol ++ "// is not http(s)"⟩
    else if url.username ≠ "" || url.password ≠ "" then
      .error ⟨.userinfo, "credentials in the URL authority"⟩
    else if !allowPrivateHost && isBlockedHostname url.hostname then
      .error ⟨.privateHost, String.ofList (stripBrackets url.hostname)⟩
    else .ok url

structure LocalNetworkFacts where
  addresses : List String
  cidrs : List String

inductive AddressRefusalRule where
  | unparseable
  | metadata
  | reserved
  | ownNetwork
  deriving DecidableEq

def AddressRefusalRule.text : AddressRefusalRule → String
  | .unparseable => "unparseable"
  | .metadata => "metadata"
  | .reserved => "reserved"
  | .ownNetwork => "own_network"

/-- `lan` or `public`. -/
inductive OutboundScope where
  | lan
  | wan
  deriving DecidableEq

inductive AddressVerdict where
  | reaches (scope : OutboundScope)
  | refused (rule : AddressRefusalRule)
  deriving DecidableEq

def withoutZone (text : List Char) : List Char := text.takeWhile (· ≠ '%')

section Local

-- `Number(text)`, where that is an integer.
variable (number : String → Option ℤ)

/-- The subnet of one attached network; `addSubnet` throws on a prefix out of range. -/
def localSubnet (cidr : String) : Option BlockList :=
  match cidr.toList.splitOn '/' with
  | net :: bits :: _ =>
    match parse (withoutZone net), number (String.ofList bits) with
    | some network, some bits =>
      if 0 ≤ bits ∧ bits ≤ (match network.1 with | .v4 => 32 | .v6 => 128) then
        some [subnet network bits.toNat]
      else none
    | _, _ => some []
  | _ => some []

def localBlockList (facts : LocalNetworkFacts) : Option BlockList := do
  let own := facts.addresses.flatMap fun address =>
    ((parse (withoutZone address.toList)).map single).toList
  let attached ← facts.cidrs.mapM (localSubnet number)
  return own ++ attached.flatten

/-- No verdict where the facts make the table throw. -/
def classifyDestinationAddress (addr : List Char) (facts : LocalNetworkFacts) :
    Option AddressVerdict :=
  let bare := JsText.trimChars (withoutZone (stripBrackets (JsText.trimChars addr)))
  match parse bare with
  | none => some (.refused .unparseable)
  | some (_, value) =>
    if METADATA_ADDRESSES.check value then some (.refused .metadata)
    else
      let isLan := LAN_RANGES.check value
      if BLOCKED_RANGES.check value && !isLan then some (.refused .reserved)
      else
        match localBlockList number facts with
        | none => none
        | some own =>
          if own.check value then some (.refused .ownNetwork)
          else some (.reaches (if isLan then .lan else .wan))

def LAN_AWARE_BLOCKED_SUFFIXES : List (List Char) := [".localhost".toList, ".internal".toList]

def parseLanAwareUrl (parseUrl : String → Option Url) (raw : String) :
    Except OutboundUrlBlockedError (Url × List Char) := do
  let url ← assertOutboundUrlAllowed parseUrl raw true
  let host := lower (stripBrackets url.hostname)
  if host = [] || host = "localhost".toList || endsWithAny LAN_AWARE_BLOCKED_SUFFIXES host then
    .error ⟨.privateHost, String.ofList host⟩
  else .ok (url, host)

structure PinnedAddress where
  address : List Char
  family : ℕ

structure PinnedDestination where
  url : Url
  hostname : List Char
  addresses : List PinnedAddress
  scope : OutboundScope

inductive Failure where
  | blocked (error : OutboundUrlBlockedError)
  /-- The local facts made the table throw. -/
  | rangeError
  deriving DecidableEq

def refusedAddress (address : List Char) (rule : AddressRefusalRule) : OutboundUrlBlockedError :=
  ⟨.privateHost, String.ofList address ++ " (" ++ rule.text ++ ")"⟩

def vetAnswers (facts : LocalNetworkFacts) : List (List Char) → OutboundScope →
    List PinnedAddress → Except Failure (List PinnedAddress × OutboundScope)
  | [], scope, addresses => .ok (addresses, scope)
  | address :: rest, scope, addresses =>
    match classifyDestinationAddress number address facts with
    | none => .error .rangeError
    | some (.refused rule) => .error (.blocked (refusedAddress address rule))
    | some (.reaches reached) =>
      let bare := stripBrackets (JsText.trimChars address)
      vetAnswers facts rest (if reached = .wan then .wan else scope)
        (addresses ++ [⟨bare, if isIP bare = 6 then 6 else 4⟩])

/-- The answers that are vetted: the literal itself, or what the resolver said, which may throw. -/
def answersFor (host : List Char) (resolved : Option (List (List Char))) :
    Except Failure (List (List Char)) :=
  if isIP host ≠ 0 then .ok [host]
  else
    match resolved with
    | none => .error (.blocked ⟨.unresolvable, String.ofList host⟩)
    | some [] => .error (.blocked ⟨.unresolvable, String.ofList host⟩)
    | some answers => .ok answers

def resolvePinnedDestination (parseUrl : String → Option Url) (raw : String)
    (facts : LocalNetworkFacts) (resolved : Option (List (List Char))) :
    Except Failure PinnedDestination :=
  match parseLanAwareUrl parseUrl raw with
  | .error error => .error (.blocked error)
  | .ok (url, host) => do
      let answers ← answersFor host resolved
      let (addresses, scope) ← vetAnswers number facts answers .lan []
      return { url, hostname := host, addresses, scope }

end Local

end Droplet.Outbound
