import DialogTable.Http.Host
import DialogTable.Http.Path

/-!
# Addresses

An address has a scheme, a host, perhaps a port, and a path. Credentials in front of the host, and
what follows a question mark or a number sign, are read over. Blanks around an address do not count,
nor do tabs and line ends inside, and slashes may lean either way.
-/

namespace DialogTable.Http

/-- Where a request is sent. -/
structure Address where
  /-- Whether the connection is encrypted. -/
  secure : Bool
  host : Host
  port : Option Nat
  /-- The segments of the path, encoded. -/
  path : List (List Char)
  deriving DecidableEq, Repr

namespace Address

/-- Drops what does not count: spaces and controls around an address, tabs and line ends. -/
def strip (text : List Char) : List Char :=
  let front := text.dropWhile (·.toNat ≤ 0x20)
  (front.reverse.dropWhile (·.toNat ≤ 0x20)).reverse.filter (· ∉ ['\t', '\n', '\r'])

/-- Reads the scheme: whether it is the encrypted one, and what follows it. -/
def readScheme (text : List Char) : Option (Bool × List Char) :=
  [("http:", false), ("https:", true)].findSome? fun scheme =>
    if scheme.1.toList.isPrefixOf (Text.foldCase text) then
      some (scheme.2, text.drop scheme.1.length)
    else none

/-- Whether a character ends the part with the host and the port. -/
def endsAuthority (c : Char) : Bool :=
  isSlash c || c = '?' || c = '#'

/-- The host with its port, without credentials. -/
def dropCredentials (authority : List Char) : List Char :=
  match Text.splitLast '@' authority with
  | some (_, rest) => rest
  | none => authority

/-- The host, and the port with its colon. A colon between brackets belongs to the host. -/
def splitPort (inside : Bool) : List Char → List Char × List Char
  | [] => ([], [])
  | c :: rest =>
    if c = ':' && !inside then ([], c :: rest)
    else
      let split := splitPort (if c = '[' then true else if c = ']' then false else inside) rest
      (c :: split.1, split.2)

/-- The greatest port. -/
def lastPort : Nat := 65535

/-- Reads a port with its colon. It may be missing, also behind the colon. -/
def readPort : List Char → Option (Option Nat)
  | [] | [':'] => some none
  | ':' :: digits => ((Text.readDigits digits).filter (· ≤ lastPort)).map some
  | _ => none

/-- Reads an address. -/
def read (text : List Char) : Option Address := do
  let (secure, rest) ← readScheme (strip text)
  let rest := rest.dropWhile isSlash
  let (host, port) := splitPort false (dropCredentials (rest.takeWhile (!endsAuthority ·)))
  let path := (rest.dropWhile (!endsAuthority ·)).takeWhile fun c => c ≠ '?' && c ≠ '#'
  return { secure, host := ← Host.read host, port := ← readPort port, path := readPath path }

/-- The path of an address as it is sent. -/
def pathText (address : Address) : String :=
  writePath address.path

end Address

end DialogTable.Http
