import ScriptHost.Endpoint
import ScriptHost.Text.Utf8

/-!
# Addresses of the web

An address names a scheme, a host and what is wanted there. Reading an address brings it
to one spelling: scheme and host in small letters, no port that goes without saying, no
dot segments, and percent signs in place of characters that may not stand as they are.
-/

namespace ScriptHost
namespace Http

/-- An address. Without a host, the path is everything behind the scheme. -/
structure Url where
  scheme : String
  credentials : String
  host? : Option String
  port? : Option UInt16
  path : String
  query? : Option String
  fragment? : Option String
deriving DecidableEq, Repr

namespace Url

/-! ## Percent signs -/

/-- The two hex digits of a byte. -/
def hexByte (byte : UInt8) : List Char :=
  [(Nat.digitChar (byte.toNat / 16)).toUpper, (Nat.digitChar (byte.toNat % 16)).toUpper]

/-- A character as its bytes with percent signs. -/
def percentEncoded (char : Char) : List Char :=
  (Utf8.encodeChar char).flatMap fun byte => '%' :: hexByte byte

/-- Write every character of a set with percent signs. -/
def encodeWhere
    (isEncoded : Char → Bool)
    (chars : List Char) : List Char :=
  chars.flatMap fun char => if isEncoded char then percentEncoded char else [char]

/-- Controls and everything outside the first table. -/
def isControl (char : Char) : Bool :=
  char.toNat < 0x20 || 0x7E < char.toNat

/-- Characters that no fragment contains. -/
def isEncodedInFragment (char : Char) : Bool :=
  isControl char || [' ', '"', '<', '>', '\x60'].contains char

/-- Characters that no path contains. -/
def isEncodedInPath (char : Char) : Bool :=
  isEncodedInFragment char || ['#', '?', '\x7b', '\x7d'].contains char

/-- Characters that no query contains. -/
def isEncodedInQuery (char : Char) : Bool :=
  isControl char || [' ', '"', '#', '<', '>', '\''].contains char

/-- Characters that no credentials contain. -/
def isEncodedInCredentials (char : Char) : Bool :=
  isEncodedInPath char || ['/', ':', ';', '=', '@', '[', '\\', ']', '^', '|'].contains char

/-- Replace percent signs with two hex digits by the bytes that they stand for. -/
def percentDecoded : List Char → Bytes
  | [] => []
  | '%' :: high :: low :: rest =>
      match Endpoint.digit? 16 high, Endpoint.digit? 16 low with
      | some highValue, some lowValue =>
          UInt8.ofNat (highValue * 16 + lowValue) :: percentDecoded rest
      | _, _ => Utf8.encodeChar '%' ++ percentDecoded (high :: low :: rest)
  | char :: rest => Utf8.encodeChar char ++ percentDecoded rest

/-! ## Hosts -/

/-- Characters that no host contains. -/
def isForbiddenInHost (char : Char) : Bool :=
  isControl char
    || [' ', '#', '/', ':', '<', '>', '?', '@', '[', '\\', ']', '^', '|', '%'].contains char

/-- The number that a part of an address of four bytes spells. -/
def numberPart? (part : List Char) : Option Nat :=
  let (base, digits) :=
    match part with
    | '0' :: 'x' :: rest => (16, rest)
    | '0' :: 'X' :: rest => (16, rest)
    | '0' :: digit :: rest => (8, digit :: rest)
    | digits => (10, digits)
  match Endpoint.digits base digits with
  | (values, []) => if part.isEmpty then none else some (Endpoint.ofDigits base values)
  | _ => none

/-- Cut characters at each occurrence of one. -/
def splitAt (separator : Char) : List Char → List (List Char)
  | [] => [[]]
  | char :: rest =>
      match splitAt separator rest with
      | [] => [[]]
      | first :: parts =>
          if char = separator then [] :: first :: parts else (char :: first) :: parts

/-- The parts of a host without the empty one that a last point leaves. -/
def hostParts (host : List Char) : List (List Char) :=
  match (splitAt '.' host).reverse with
  | [] :: last :: rest => (last :: rest).reverse
  | parts => parts.reverse

/-- Whether the last part of a host is a number. -/
def endsInNumber (host : List Char) : Bool :=
  match (hostParts host).getLast? with
  | none => false
  | some part => (!part.isEmpty && part.all Char.isDigit) || (numberPart? part).isSome

/-- The address of four bytes that numbers stand for. The last one fills what the others
leave. -/
def shortOfNumbers? (numbers : List Nat) : Option ShortAddress :=
  match numbers.reverse with
  | [] => none
  | last :: before =>
      let before := before.reverse
      let limit := Nat.pow 256 (4 - before.length)
      if 3 < before.length || before.any (255 < ·) || limit ≤ last then none
      else
        let value := before.zipIdx.foldl
          (fun value (number, index) => value + number * Nat.pow 256 (3 - index)) last
        some ⟨.ofNat (value / 0x1000000), .ofNat (value / 0x10000), .ofNat (value / 0x100),
          .ofNat value⟩

/-- Read a host. -/
def readHost (chars : List Char) : Option String :=
  match chars with
  | '[' :: rest =>
      match Endpoint.readLong rest with
      | some (address, [']']) => some ("[" ++ String.ofList (Endpoint.longText address) ++ "]")
      | _ => none
  | chars =>
      let host := (Utf8.decodeLossy (percentDecoded chars)).toList.map Char.toLower
      if host.isEmpty || host.any isForbiddenInHost then none
      else if endsInNumber host then
        match (hostParts host).mapM numberPart? with
        | none => none
        | some numbers =>
            (shortOfNumbers? numbers).map fun address => String.ofList (Endpoint.shortText address)
      else some (String.ofList host)

/-! ## Reading -/

/-- Characters before the first that satisfies a test, and the rest. -/
def cutAt
    (ends : Char → Bool)
    (chars : List Char) : List Char × List Char :=
  (chars.takeWhile fun char => !ends char, chars.dropWhile fun char => !ends char)

/-- The scheme in front of a colon, in small letters, and what follows it. -/
def readScheme (chars : List Char) : Option (String × List Char) :=
  let (scheme, rest) := cutAt (· = ':') chars
  match scheme, rest with
  | first :: others, _ :: rest =>
      if first.isAlpha
          && others.all fun char => char.isAlphanum || ['+', '-', '.'].contains char then
        some (String.ofList (scheme.map Char.toLower), rest)
      else none
  | _, _ => none

/-- The port that goes without saying in a scheme. -/
def defaultPort? : String → Option UInt16
  | "http" => some 80
  | "https" => some 443
  | "ws" => some 80
  | "wss" => some 443
  | "ftp" => some 21
  | _ => none

/-- Read a port behind a host. -/
def readPort?
    (scheme : String)
    (digits : List Char) : Option (Option UInt16) :=
  if digits.isEmpty then some none
  else
    match Endpoint.readNumber Endpoint.portForm digits with
    | some (port, []) =>
        some (if defaultPort? scheme = some (.ofNat port) then none else some (.ofNat port))
    | _ => none

/-- The credentials in front of the last at sign, and what follows it. -/
def readCredentials (authority : List Char) : List Char × List Char :=
  match cutAt (· = '@') authority.reverse with
  | (host, _ :: credentials) => (credentials.reverse, host.reverse)
  | (host, []) => ([], host.reverse)

/-- Cut a host from its port. -/
def cutPort (authority : List Char) : List Char × List Char :=
  let inside := authority.takeWhile (· ≠ ']')
  if authority.head? = some '[' && inside.length < authority.length then
    let (host, rest) := authority.splitAt (inside.length + 1)
    (host, rest)
  else cutAt (· = ':') authority

/-- Whether a segment stands for the place where it is. -/
def isHere (segment : List Char) : Bool :=
  segment = ['.'] || segment.map Char.toLower = ['%', '2', 'e']

/-- Whether a segment stands for the place above. -/
def isAbove (segment : List Char) : Bool :=
  let lower := segment.map Char.toLower
  lower = ['.', '.'] || lower = ['.', '%', '2', 'e'] || lower = ['%', '2', 'e', '.']
    || lower = ['%', '2', 'e', '%', '2', 'e']

/-- Follow the segments of a path. `followed` holds those before, last first; at the end
of the path a dot segment leaves an empty one. -/
def followSegments
    (followed : List (List Char)) : List (List Char) → List (List Char)
  | [] => followed.reverse
  | segment :: rest =>
      let last := rest.isEmpty
      if isAbove segment then
        let above := followed.drop 1
        followSegments (if last then [] :: above else above) rest
      else if isHere segment then
        followSegments (if last then [] :: followed else followed) rest
      else followSegments (segment :: followed) rest

/-- The path of a host: segments behind slashes. -/
def readPath (chars : List Char) : String :=
  let chars := chars.map fun char => if char = '\\' then '/' else char
  let segments := (splitAt '/' (if chars.head? = some '/' then chars.drop 1 else chars)).map
    fun segment => encodeWhere isEncodedInPath segment
  String.ofList ((followSegments [] segments).flatMap fun segment => '/' :: segment)

/-- Drop blanks and controls at both ends and the ends of lines everywhere. -/
def cleaned (text : String) : List Char :=
  let blank := fun char : Char => char.toNat ≤ 0x20
  let trimmed := ((text.toList.dropWhile blank).reverse.dropWhile blank).reverse
  trimmed.filter fun char => char ∉ ['\t', '\n', '\r']

/-- What stands behind the path: a query and a fragment. -/
def readTail (chars : List Char) : Option String × Option String :=
  let (front, fragment) := cutAt (· = '#') chars
  let query? :=
    match front with
    | [] => none
    | _ :: query => some (String.ofList (encodeWhere isEncodedInQuery query))
  let fragment? :=
    match fragment with
    | [] => none
    | _ :: fragment => some (String.ofList (encodeWhere isEncodedInFragment fragment))
  (query?, fragment?)

/-- Read what follows the scheme of an address with a host. -/
def readWithHost
    (scheme : String)
    (chars : List Char) : Option Url := do
  let (authority, rest) := cutAt (fun char => ['/', '\\', '?', '#'].contains char) chars
  let (credentials, authority) := readCredentials authority
  let (hostChars, portChars) := cutPort authority
  let host ← readHost hostChars
  let port? ←
    match portChars with
    | [] => some none
    | ':' :: digits => readPort? scheme digits
    | _ => none
  let (path, tail) := cutAt (fun char => ['?', '#'].contains char) rest
  let (query?, fragment?) := readTail tail
  let (user, secret) := cutAt (· = ':') credentials
  let encode := encodeWhere isEncodedInCredentials
  let secret :=
    match secret.drop 1 with
    | [] => []
    | secret => ':' :: encode secret
  pure {
    scheme := scheme
    credentials := String.ofList (encode user ++ secret)
    host? := some host
    port? := port?
    path := readPath path
    query? := query?
    fragment? := fragment? }

/-- Read what follows the scheme of an address without a host. -/
def readWithoutHost
    (scheme : String)
    (chars : List Char) : Url :=
  let (path, tail) := cutAt (fun char => ['?', '#'].contains char) chars
  let (query?, fragment?) := readTail tail
  ⟨scheme, "", none, none, String.ofList (encodeWhere isControl path), query?, fragment?⟩

/-- Schemes whose addresses always have a host. -/
def alwaysHasHost (scheme : String) : Bool :=
  (defaultPort? scheme).isSome

/-- Read an address. -/
def ofText? (text : String) : Option Url := do
  let (scheme, rest) ← readScheme (cleaned text)
  if alwaysHasHost scheme then
    readWithHost scheme (rest.dropWhile fun char => ['/', '\\'].contains char)
  else
    match rest with
    | '/' :: '/' :: authority =>
        if (cutAt (· = '/') authority).1.isEmpty then some (readWithoutHost scheme rest)
        else readWithHost scheme authority
    | rest => some (readWithoutHost scheme rest)

/-! ## Writing -/

/-- The host and the port as they are written. -/
def authority (url : Url) : String :=
  url.host?.getD "" ++ (url.port?.map fun port => ":" ++ toString port.toNat).getD ""

/-- What is asked of the host: path and query. -/
def target (url : Url) : String :=
  url.path ++ (url.query?.map ("?" ++ ·)).getD ""

/-- The text of an address. -/
def text (url : Url) : String :=
  let place :=
    match url.host? with
    | none => ""
    | some _ =>
        "//" ++ (if url.credentials = "" then "" else url.credentials ++ "@") ++ url.authority
  url.scheme ++ ":" ++ place ++ url.target ++ (url.fragment?.map ("#" ++ ·)).getD ""

end Url
end Http
end ScriptHost
