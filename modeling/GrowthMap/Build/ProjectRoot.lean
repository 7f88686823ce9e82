import GrowthMap.Lib.JsonText
import GrowthMap.Lib.Substitution
import Mathlib.Data.List.DropRight
import Mathlib.Data.List.Lex
import Mathlib.Data.List.Sort

/- Identifiers of modules without the project root (lib/stable-module-ids.mjs,
   `normalizeModuleIdentifier`).

   The root is tried in up to four spellings, the longest first, and each pass replaces
   every place where its spelling stands before a separator, a `!` or the end. Nothing is
   asked about what stands before it. The filesystem root is replaced at the starts of
   paths only. Before that the entries of Next's flight loader are written in one form.

   A text is a well-formed string, as the list of its characters. -/
namespace GrowthMap.ProjectRoot
open Substitution

abbrev Text := List Char

/-- What an engine does with letters beyond ASCII, and with JSON. -/
structure Engine where
  /-- the letter one letter counts as where case is ignored -/
  upper : Char → Char
  /-- `toLowerCase` -/
  lower : Text → Text
  /-- `JSON.parse` -/
  parse : Text → Option Json

/-! Separators -/

/-- `/%5c/gi`, replaced by `%2F` -/
def encodedBackslash : Matcher Char
  | '%' :: '5' :: c :: _ => if c = 'c' ∨ c = 'C' then some ("%2F".toList, 2) else none
  | _ => none

def slash (value : Text) : Text := replaceAll encodedBackslash (value.map (fun c => if c = '\\' then '/' else c))

/-- What follows a `/` or `%2f`. -/
def separator : Text → Option Text
  | '/' :: s => some s
  | '%' :: '2' :: c :: s => if c = 'f' ∨ c = 'F' then some s else none
  | _ => none

def windowsRoot : Text → Bool
  | c :: ':' :: '/' :: _ => c.isAlpha
  | _ => false

/-- `slash(root).replace(/\/+$/, "") || "/"` -/
def normalizedRoot (root : Text) : Text :=
  let trimmed := (slash root).rdropWhile (· = '/')
  if trimmed = [] then ['/'] else trimmed

/-! Encodings -/

def upperHex (n : Nat) : Char := Char.ofNat (if n < 10 then 48 + n else 55 + n)

def percent (b : UInt8) : Text := ['%', upperHex (b.toNat / 16), upperHex (b.toNat % 16)]

def encodeWith (keep : Char → Bool) (s : Text) : Text :=
  s.flatMap (fun c => if keep c then [c] else (String.utf8EncodeChar c).flatMap percent)

def isUnescaped (c : Char) : Bool := c.isAlphanum || decide (c ∈ "-_.!~*'()".toList)

def encodeURIComponent (s : Text) : Text := encodeWith isUnescaped s

def encodeURI (s : Text) : Text := encodeWith (fun c => isUnescaped c || decide (c ∈ ";/?:@&=+$,#".toList)) s

/-! Patterns -/

/-- A piece of the source of a pattern. -/
inductive Atom where
  | char (c : Char)
  /-- `[xX]` -/
  | hex (c : Char)
  /-- `(?:/|%[2][fF])` -/
  | separator
  deriving DecidableEq

def isUpperHex (c : Char) : Bool := c.isDigit || (decide ('A' ≤ c) && decide (c ≤ 'F'))

/-- `encodedEscape` -/
def encodedEscape : Text → List Atom
  | [] => []
  | '%' :: a :: b :: s =>
    if isUpperHex a && isUpperHex b then .char '%' :: .hex a :: .hex b :: encodedEscape s
    else .char '%' :: encodedEscape (a :: b :: s)
  | c :: s => .char c :: encodedEscape s

def Atom.source : Atom → Text
  | .char c => if c ∈ ".*+?^$\x7b\x7d()|[]\\".toList then ['\\', c] else [c]
  | .hex c => ['[', c.toLower, c.toUpper, ']']
  | .separator => "(?:/|%[2][fF])".toList

def units (s : Text) : List Nat :=
  s.flatMap (fun c => if c.toNat < 0x10000 then [c.toNat]
    else [0xD800 + (c.toNat - 0x10000) / 0x400, 0xDC00 + (c.toNat - 0x10000) % 0x400])

/-- `b.length - a.length || compareTotal(a, b)` -/
def Before (a b : List Atom) : Prop :=
  (units (b.flatMap Atom.source)).length < (units (a.flatMap Atom.source)).length ∨
    ((units (b.flatMap Atom.source)).length = (units (a.flatMap Atom.source)).length ∧
      units (a.flatMap Atom.source) ≤ units (b.flatMap Atom.source))

instance : DecidableRel Before := fun _ _ => inferInstanceAs (Decidable (_ ∨ _))

/-- The spelling whose separators may be encoded or not, each part of it encoded. -/
def component (root : Text) : List Atom :=
  root.flatMap (fun c => if c = '/' then [.separator] else encodedEscape (encodeURIComponent [c]))

/-- `rootPatterns` -/
def rootPatterns (root : Text) : List (List Atom) :=
  ((([root, encodeURI root, encodeURIComponent root].map encodedEscape) ++ [component root]).dedup).insertionSort Before

variable (e : Engine)

/-- The letter a letter counts as in a pattern that ignores case. -/
def Engine.fold (c : Char) : Char :=
  if c.toNat < 128 then c.toUpper else if (e.upper c).toNat < 128 then c else e.upper c

def sameChar (insensitive : Bool) (a c : Char) : Bool :=
  if insensitive then decide (e.fold a = e.fold c) else decide (a = c)

def Atom.take (same : Char → Char → Bool) : Atom → Text → Option Text
  | .char a, c :: s => if same a c then some s else none
  | .hex a, c :: s => if same a.toLower c || same a c then some s else none
  | .separator, s => ProjectRoot.separator s
  | _, [] => none

def takeAll (same : Char → Char → Bool) : List Atom → Text → Option Text
  | [], s => some s
  | a :: as, s => (a.take same s).bind (takeAll same as)

/-- `(?:\/|%2[fF])`, or `(?=!|$)` -/
def boundary (s : Text) : Option Text :=
  match separator s with
  | some rest => some rest
  | none => if s = [] ∨ s.head? = some '!' then some s else none

/-- `/(?:\/|%2f)$/i` -/
def endsInSeparator (s : Text) : Bool :=
  "/".toList.isSuffixOf s || "%2f".toList.isSuffixOf s || "%2F".toList.isSuffixOf s

def projectRoot : Text := "<PROJECT_ROOT>".toList

def rootPattern (same : Char → Char → Bool) (atoms : List Atom) : Matcher Char := fun s => do
  let rest ← takeAll same atoms s
  let rest ← boundary rest
  let taken := s.take (s.length - rest.length)
  return (projectRoot ++ (if endsInSeparator taken then ['/'] else []), taken.length - 1)

/-- The passes of `replaceRoot`. -/
def passes (root : Text) : List (Matcher Char) :=
  (rootPatterns root).map (rootPattern (sameChar e (windowsRoot root)))

def replaceRoot (value root : Text) : Text := run (passes e root) (slash value)

/-- `!` and a separator -/
def segmentStart : Matcher Char
  | '!' :: s => (separator s).map (fun rest =>
      ('!' :: (projectRoot ++ (if rest = [] then [] else ['/'])), s.length - rest.length))
  | _ => none

def replaceFilesystemRoot (value : Text) : Text :=
  let input := slash value
  match separator input with
  | some rest => projectRoot ++ ((if rest = [] then [] else ['/']) ++ replaceAll segmentStart rest)
  | none => replaceAll segmentStart input

/-! The entries of the flight loader -/

def hexDigit? (c : Char) : Option Nat :=
  if c.isDigit then some (c.toNat - 48)
  else if 'a' ≤ c ∧ c ≤ 'f' then some (c.toNat - 87)
  else if 'A' ≤ c ∧ c ≤ 'F' then some (c.toNat - 55)
  else none

/-- `decodeURIComponent`, after these bytes; it fails where that throws. -/
def decodeFrom : List UInt8 → Text → Option Text
  | bytes, '%' :: a :: b :: s => do
    let high ← hexDigit? a
    let low ← hexDigit? b
    decodeFrom (bytes ++ [UInt8.ofNat (16 * high + low)]) s
  | bytes, c :: s =>
    if c = '%' then none
    else do
      let decoded ← String.fromUTF8? ⟨bytes.toArray⟩
      let rest ← decodeFrom [] s
      return decoded.toList ++ c :: rest
  | bytes, [] => (String.fromUTF8? ⟨bytes.toArray⟩).map String.toList

/-- `decodeQueryComponentOnce`: a `%` without two digits fails here and there. -/
def decodeQueryComponentOnce (value : Text) : Option Text :=
  decodeFrom [] (value.map (fun c => if c = '+' then ' ' else c))

/-- `slice`, from this many code units on. -/
def dropUnits : Nat → Text → Text
  | 0, s => s
  | _, [] => []
  | n, c :: s => dropUnits (n - (units [c]).length) s

def rootRelativePath (value root : Text) : Option Text :=
  let candidate := slash value
  let normalized := normalizedRoot root
  let left := if windowsRoot normalized then e.lower candidate else candidate
  let right := if windowsRoot normalized then e.lower normalized else normalized
  if left = right then some []
  else if (right ++ ['/']).isPrefixOf left then some (dropUnits ((units normalized).length + 1) candidate)
  else none

def moduleOption (value : Text) : Option (Text × List Json) :=
  match e.parse value with
  | some (.obj fields) =>
    if fields.any (fun field => field.1 ≠ "request" ∧ field.1 ≠ "ids") then none
    else match fields.lookup "request", fields.lookup "ids" with
      | some (.str request), some (.arr ids) =>
        if ids.all (fun id => match id with | .str _ => true | _ => false) then some (request.toList, ids) else none
      | _, _ => none
  | _ => none

/-- `canonicalModuleOption`, for what `relative` takes for a path under the root. -/
def canonicalModuleOption (relative : Text → Option Text) (value : Text) : Option Text := do
  let (request, ids) ← moduleOption e value
  let request := match relative request with
    | some path => projectRoot ++ (if path = [] then [] else '/' :: path)
    | none => request
  return (Json.stringify Json.compact (.obj [("request", .str (String.ofList request)), ("ids", .arr ids)])).toList

/-- One `key=value` of a query, decoded. -/
def queryEntry (pair : Text) : Option (Text × Text) :=
  match pair.span (· ≠ '=') with
  | (key, '=' :: value) =>
    if key = [] then none
    else do
      let key ← decodeQueryComponentOnce key
      let value ← decodeQueryComponentOnce value
      if key = "modules".toList ∨ key = "server".toList then some (key, value) else none
  | _ => none

def flightQuery (query : Text) : Option (List Text × List Text) :=
  if query = [] ∨ '#' ∈ query then none
  else do
    let entries ← (query.splitOn '&').mapM queryEntry
    return ((entries.filter (fun entry => entry.1 = "modules".toList)).map Prod.snd,
      (entries.filter (fun entry => entry.1 = "server".toList)).map Prod.snd)

/-- `canonicalFlightQuery` -/
def canonicalFlightQuery (relative : Text → Option Text) (query : Text) : Option Text := do
  match ← flightQuery query with
  | (modules, [server]) =>
    if modules = [] ∨ (server ≠ "true".toList ∧ server ≠ "false".toList) then none
    else do
      let canonical ← modules.mapM (canonicalModuleOption e relative)
      return List.intercalate ['&'] (canonical.map (fun value => "modules=".toList ++ encodeURIComponent value) ++
        ["server=".toList ++ server])
  | _ => none

/-- A segment of a loader chain, and the delimiter behind it. -/
abbrev Link := Text × Option Char

def Link.text (link : Link) : Text := link.1 ++ link.2.toList

/-- The text, cut behind every `!` and `|`. -/
def links : Text → List Link
  | [] => [([], none)]
  | c :: s =>
    if c = '!' ∨ c = '|' then ([], some c) :: links s
    else match links s with
      | (segment, delimiter) :: rest => (c :: segment, delimiter) :: rest
      | [] => [([c], none)]

def loaderName : Text := "next-flight-client-entry-loader.js".toList

/-- `(?:[^?!|]*[\\/])?next-flight-client-entry-loader\.js` in any case, up to the `?` -/
def isLoaderPath (path : Text) : Bool :=
  decide ((path.drop (path.length - loaderName.length)).map Char.toLower = loaderName) &&
    (decide (path.length = loaderName.length) ||
      ((path.take (path.length - loaderName.length)).getLast?.any (fun c => c = '/' ∨ c = '\\')))

/-- The loader and the query of an entry: the segment stands before a `!`. -/
def Link.entry? (link : Link) : Option (Text × Text) :=
  if link.2 = some '!' then
    match link.1.span (· ≠ '?') with
    | (path, '?' :: query) => if isLoaderPath path ∧ query ≠ [] then some (path, query) else none
    | _ => none
  else none

def canonicalLink (relative : Text → Option Text) (link : Link) : Option Text :=
  match link.entry? with
  | none => some link.text
  | some (path, query) => (canonicalFlightQuery e relative query).map (fun canonical => path ++ ('?' :: (canonical ++ ['!'])))

/-- The entries rewritten; all stay as they are if one of them fails. -/
def canonicalLinks (relative : Text → Option Text) (input : Text) : Text :=
  ((links input).mapM (canonicalLink e relative)).elim input List.flatten

def HasEntry (input : Text) : Prop := ∃ link ∈ links input, link.entry?.isSome = true

instance : DecidablePred HasEntry := fun input => inferInstanceAs (Decidable (∃ link ∈ links input, _))

def rawName : Text := "next-flight-client-entry-loader?".toList

/-- `/^next-flight-client-entry-loader\?([^!|]+)!$/` -/
def rawQuery? (input : Text) : Option Text :=
  if rawName.isPrefixOf input then
    let query := (input.drop rawName.length).dropLast
    if (input.drop rawName.length).getLast? = some '!' ∧ query ≠ [] ∧ '!' ∉ query ∧ '|' ∉ query then some query else none
  else none

/-- `canonicalizeNextFlightEntryIdentifier` -/
def canonicalizeNextFlightEntryIdentifier (identifier root : Text) : Text :=
  let relative := fun request => rootRelativePath e request root
  if HasEntry identifier then canonicalLinks e relative identifier
  else match rawQuery? identifier with
    | none => identifier
    | some query => match canonicalFlightQuery e relative query with
      | none => identifier
      | some canonical => rawName ++ (canonical ++ ['!'])

def normalizeModuleIdentifier (identifier root : Text) : Text :=
  let structured := canonicalizeNextFlightEntryIdentifier e identifier (normalizedRoot root)
  if normalizedRoot root = ['/'] then replaceFilesystemRoot structured
  else replaceRoot e structured (normalizedRoot root)

end GrowthMap.ProjectRoot
