import Droplet.Pm.Filter
import Droplet.Lib.Percent

/-! The compact string of a filter (`shared-types/src/pm-filter.ts`): what the `f=` parameter
of a deep link holds, and how it is read. -/

namespace Droplet.Pm

open ZonedTime Percent

/-- `/[!~*'()]/`. -/
def marks : List Char := ['!', '~', '*', Char.ofNat 39, '(', ')']

/-- `encodeURIComponent`, then the marks it leaves alone, then `~` for `%`. -/
def esc (text : String) : List Char :=
  ((encodeURIComponent text).flatMap (fun c =>
    if c ∈ marks then byteText '%' (UInt8.ofNat c.toNat) else [c])).map
      (fun c => if c = '%' then '~' else c)

def writeValue : PmFilterValue → List Char
  | .bool value => (if value then "true" else "false").toList
  | .list values => [';'].intercalate (values.map esc)
  | .str value => esc value

def writeLeaf (condition : PmFilterCondition) : List Char :=
  let head := condition.field.name.toList ++ '.' :: condition.op.name.toList
  match condition.value with
  | none => head
  | some value => head ++ ':' :: writeValue value

mutual

def writeExpr : PmFilter → List Char
  | .leaf condition => writeLeaf condition
  | .group kind kids => kind.name.toList ++ '(' :: ([','].intercalate (writeExprs kids) ++ [')'])

def writeExprs : List PmFilter → List (List Char)
  | [] => []
  | kid :: rest => writeExpr kid :: writeExprs rest

end

def serializePmFilter (filter : PmFilter) : List Char :=
  match normalizePmFilter filter with
  | .group .and kids => [','].intercalate (writeExprs kids)
  | other => writeExpr other

def pmFiltersEqual (a b : PmFilter) : Bool := serializePmFilter a = serializePmFilter b

def isHex (c : Char) : Bool := (hexValue c).isSome

/-- `(?:[A-Za-z0-9._-]|~[0-9A-Fa-f]{2})*`. -/
def itemShape : List Char → Bool
  | [] => true
  | '~' :: high :: low :: rest => isHex high && isHex low && itemShape rest
  | c :: rest => (c.isAlphanum || decide (c ∈ ['.', '_', '-'])) && itemShape rest

def unesc (item : List Char) : Option String :=
  if item ≠ [] ∧ itemShape item then
    decodeURIComponent (item.map (fun c => if c = '~' then '%' else c))
  else none

/-- The letters at the front, one at least. -/
def ident (src : List Char) : Option (String × List Char) :=
  if src.takeWhile Char.isAlpha = [] then none
  else some (String.ofList (src.takeWhile Char.isAlpha), src.dropWhile Char.isAlpha)

/-- `split(";")`. -/
def splitItems : List Char → List (List Char)
  | [] => [[]]
  | c :: rest =>
    if c = ';' then [] :: splitItems rest
    else
      match splitItems rest with
      | item :: others => (c :: item) :: others
      | [] => [[c]]

def leafObject (field op : String) (value : Option (Json Empty)) : Json Empty :=
  match value with
  | none => .obj [("field", .str field), ("op", .str op)]
  | some json => .obj [("field", .str field), ("op", .str op), ("value", json)]

def isBooleanField (field : String) : Bool :=
  match PM_FILTER_FIELD_NAMES.find? (fun known => known.name == field) with
  | some known => decide ((PM_FILTER_FIELDS known).kind = .boolean)
  | none => false

def readLeaf (field op : String) (value : Option (List Char)) : Option (Json Empty) :=
  match value with
  | none => some (leafObject field op none)
  | some chars =>
    match (splitItems chars).mapM unesc with
    | none => none
    | some list =>
      if op = "in" ∨ op = "notIn" ∨ op = "between" then
        some (leafObject field op (some (.arr (list.map Json.str))))
      else
        match list with
        | [one] =>
          if isBooleanField field then
            if one = "true" then some (leafObject field op (some (.bool true)))
            else if one = "false" then some (leafObject field op (some (.bool false)))
            else none
          else some (leafObject field op (some (.str one)))
        | _ => none

def inValue (c : Char) : Bool := c ≠ ',' && c ≠ ')'

def commaList (item : List Char → Option (Json Empty × List Char)) :
    ℕ → List Char → Option (List (Json Empty) × List Char)
  | 0, _ => none
  | fuel + 1, src =>
    match item src with
    | none => none
    | some (first, ',' :: rest) =>
      match commaList item fuel rest with
      | none => none
      | some (others, left) => some (first :: others, left)
    | some (first, rest) => some ([first], rest)

def readCondition (field : String) (src : List Char) : Option (Json Empty × List Char) :=
  match ident src with
  | none => none
  | some (op, ':' :: rest) =>
    (readLeaf field op (some (rest.takeWhile inValue))).map (fun leaf =>
      (leaf, rest.dropWhile inValue))
  | some (op, rest) => (readLeaf field op none).map (fun leaf => (leaf, rest))

/-- One expression, with room for so many levels below it. Every item of a list takes a
character at least, so the length of the source is fuel enough. -/
def expr : ℕ → List Char → Option (Json Empty × List Char)
  | 0, _ => none
  | room + 1, src =>
    match ident src with
    | none => none
    | some (name, '(' :: rest) =>
      if name = "and" ∨ name = "or" then
        match commaList (expr room) (rest.length + 1) rest with
        | some (kids, ')' :: left) => some (.obj [(name, .arr kids)], left)
        | _ => none
      else none
    | some (name, '.' :: rest) => readCondition name rest
    | some _ => none

def readExprs (room : ℕ) (src : List Char) : Option (List (Json Empty)) :=
  match commaList (expr room) (src.length + 1) src with
  | some (exprs, []) => some exprs
  | _ => none

def rootOf : List (Json Empty) → Json Empty
  | [one] => one
  | exprs => .obj [("and", .arr exprs)]

/-- `expr(depth)` fails past `PM_FILTER_MAX_DEPTH + 1`, and the first one is at depth 1. -/
def parsePmFilter (src : List Char) : Option PmFilter :=
  if utf16Length (String.ofList src) > PM_FILTER_ENCODED_MAX then none
  else if src.length = 0 then some (.group .and [])
  else
    match readExprs (PM_FILTER_MAX_DEPTH + 1) src with
    | none => none
    | some exprs => (validatePmFilter (rootOf exprs)).toOption

end Droplet.Pm
