import OrderKeeper.Url.Host

/-!
# Addresses of endpoints

Reading an address and writing it in its normal form: the scheme and the host in lower case, the usual service of the
scheme left out, dots in paths followed, and characters encoded that cannot stand where they stand.
-/

namespace OrderKeeper

/-- An address in its parts. -/
structure Url where
  scheme : String
  /-- The name before the host, its password after a colon; nothing if there is neither. -/
  user : String := ""
  host : Option Host := none
  /-- The number of the service on the host, unless it is the usual one of the scheme. -/
  service : Option Nat := none
  path : String
  query : Option String := none
  fragment : Option String := none
  deriving DecidableEq, Repr

namespace Url

/-- The number of the usual service of a scheme. -/
def usualService : String → Option Nat
  | "http" | "ws" => some 80
  | "https" | "wss" => some 443
  | "ftp" => some 21
  | _ => none

/-- Whether a scheme is well known, so that an address under it has a host and a path. -/
def isSpecial (scheme : String) : Bool := (usualService scheme).isSome || scheme == "file"

/-- The normal form. -/
def text (u : Url) : String :=
  let authority := match u.host with
    | some h => "//" ++ u.user ++ h.text ++ (match u.service with
        | some p => ":" ++ toString p
        | none => "")
    | none => if u.path.startsWith "//" then "/." else ""
  let query := match u.query with
    | some q => "?" ++ q
    | none => ""
  let fragment := match u.fragment with
    | some f => "#" ++ f
    | none => ""
  u.scheme ++ ":" ++ authority ++ u.path ++ query ++ fragment

/-! ## Reading -/

/-- A letter of ASCII in lower case; other characters as they are. -/
def asciiLower (c : Char) : Char := if 'A' ≤ c ∧ c ≤ 'Z' then Char.ofNat (c.toNat + 32) else c

/-- The scheme before the first colon, and what follows. -/
def splitScheme : List Char → Option (List Char × List Char)
  | ':' :: rest => some ([], rest)
  | c :: cs =>
    if c.isAlphanum || c == '+' || c == '-' || c == '.' then
      (splitScheme cs).map fun (s, rest) => (asciiLower c :: s, rest)
    else none
  | [] => none

/-- Whether a character ends the host. -/
def endsAuthority (special : Bool) (c : Char) : Bool := c == '/' || c == '?' || c == '#' || (special && c == '\\')

/-- Splits at the last `@`, if there is one. -/
def splitUser (s : List Char) : Option (List Char × List Char) :=
  if s.contains '@' then
    let back := s.reverse.takeWhile (· ≠ '@')
    some (s.take (s.length - back.length - 1), back.reverse)
  else none

/-- The name and the password in their written form, with the sign that ends them. -/
def userText (s : List Char) : String :=
  let name := s.takeWhile (· ≠ ':')
  let password := (s.drop name.length).drop 1
  let body := percentEncode userSet name
    ++ (if password.isEmpty then [] else ':' :: percentEncode userSet password)
  if body.isEmpty then "" else String.ofList (body ++ ['@'])

/-- Splits a host from its service at the first colon outside of brackets. -/
def splitService (inside : Bool) : List Char → List Char × Option (List Char)
  | [] => ([], none)
  | c :: cs =>
    if c = ':' ∧ !inside then ([], some cs)
    else
      let (h, p) := splitService (if c = '[' then true else if c = ']' then false else inside) cs
      (c :: h, p)

/-- The service, unless it is the usual one; nothing after the colon is no service. -/
def readService (scheme : String) (s : List Char) : Except UrlFault (Option Nat) :=
  if s.isEmpty then .ok none
  else if s.all Char.isDigit then
    let n := s.foldl (fun n c => 10 * n + (c.toNat - 48)) 0
    if 65535 < n then .error .badService else .ok (if usualService scheme = some n then none else some n)
  else .error .badService

/-- Whether a segment stands for its own directory. -/
def isDot (s : List Char) : Bool := s.map asciiLower == ['.'] || s.map asciiLower == ['%', '2', 'e']

/-- Whether a segment stands for the directory above. -/
def isDoubleDot (s : List Char) : Bool :=
  [['.', '.'], ['%', '2', 'e', '.'], ['.', '%', '2', 'e'], ['%', '2', 'e', '%', '2', 'e']].contains (s.map asciiLower)

/-- Splits a path into segments. -/
def segments (special : Bool) : List Char → List (List Char)
  | [] => [[]]
  | c :: cs =>
    match segments special cs with
    | [] => [[]]
    | p :: ps => if c = '/' ∨ (special ∧ c = '\\') then [] :: p :: ps else (c :: p) :: ps

/-- Follows the dots of segments; `done` holds the segments so far, last first. -/
def followDots : List (List Char) → List (List Char) → List (List Char)
  | done, [] => done.reverse
  | done, [s] =>
    if isDoubleDot s then ([] :: done.drop 1).reverse
    else if isDot s then ([] :: done).reverse
    else (s :: done).reverse
  | done, s :: ss =>
    if isDoubleDot s then followDots (done.drop 1) ss
    else if isDot s then followDots done ss
    else followDots (s :: done) ss

/-- A path in its normal form; an empty path has no segments at all unless the scheme is well known. -/
def readPath (special : Bool) (s : List Char) : String :=
  if s.isEmpty && !special then ""
  else
    let s := match s with
      | c :: cs => if c = '/' ∨ (special ∧ c = '\\') then cs else s
      | [] => []
    String.ofList <| (followDots [] (segments special s)).flatMap fun p => '/' :: percentEncode pathSet p

/-- Splits off what follows the first occurrence of a character. -/
def splitTail (sep : Char) (s : List Char) : List Char × Option (List Char) :=
  let front := s.takeWhile (· ≠ sep)
  (front, if front.length = s.length then none else some (s.drop (front.length + 1)))

/-- The query and the fragment in their written form. -/
def readTails (special : Bool) (query fragment : Option (List Char)) : Option String × Option String :=
  (query.map fun q => String.ofList (percentEncode (if special then specialQuerySet else querySet) q),
    fragment.map fun f => String.ofList (percentEncode fragmentSet f))

/-- What follows the slashes before a host. -/
def readAuthority (scheme : String) (rest : List Char) (query fragment : Option String) : Except UrlFault Url := do
  let special := isSpecial scheme
  let authority := rest.takeWhile fun c => !endsAuthority special c
  let path := rest.drop authority.length
  let (user, place) := match splitUser authority with
    | some (u, p) => (userText u, p)
    | none => ("", authority)
  let hasUser := !user.isEmpty
  if authority.contains '@' && place.isEmpty && (special || hasUser || authority == ['@']) then throw .emptyHost
  let (hostText, serviceText) := splitService false place
  if special && scheme != "file" && hostText.isEmpty then throw .emptyHost
  let host ← if special && !hostText.isEmpty then Host.ofText hostText else Host.ofPlainText hostText
  if hostText.isEmpty && serviceText.isSome then throw .emptyHost
  let service ← match serviceText with
    | some p => readService scheme p
    | none => pure none
  let host := if scheme == "file" && host == .named "localhost" then .named "" else host
  return { scheme, user, host := some host, service, path := readPath special path, query, fragment }

/-- Reads an address. White space and control characters around it, and line ends and tabs in it, do not count. -/
def ofText (s : String) : Except UrlFault Url := do
  let isEdge (c : Char) : Bool := c.toNat ≤ 0x20
  let s := ((s.toList.dropWhile isEdge).reverse.dropWhile isEdge).reverse
  let s := s.filter fun c => c != '\t' && c != '\n' && c != '\r'
  match splitScheme s with
  | some (c :: cs, rest) =>
    if !c.isAlpha then throw .noScheme
    let scheme := String.ofList (c :: cs)
    let special := isSpecial scheme
    let (rest, fragment) := splitTail '#' rest
    let (rest, query) := splitTail '?' rest
    let (query, fragment) := readTails special query fragment
    if special && scheme != "file" then
      readAuthority scheme (rest.dropWhile fun c => c == '/' || c == '\\') query fragment
    else
      let isSlash (c : Char) : Bool := c == '/' || (special && c == '\\')
      match rest with
      | a :: b :: more =>
        if isSlash a && isSlash b then readAuthority scheme more query fragment
        else noAuthority scheme rest query fragment
      | _ => noAuthority scheme rest query fragment
  | _ => throw .noScheme
where
  /-- An address without a host. -/
  noAuthority (scheme : String) (rest : List Char) (query fragment : Option String) : Except UrlFault Url :=
    if scheme == "file" then
      .ok { scheme, host := some (.named ""), path := readPath true rest, query, fragment }
    else if rest.head? = some '/' then .ok { scheme, path := readPath false rest, query, fragment }
    else .ok { scheme, path := String.ofList (percentEncode [] rest), query, fragment }

end Url

end OrderKeeper
