import Walkthrough.Url.Host
/-!
# The parts of a URL

A URL is split into scheme, authority, path, query and fragment, and put
together from them. Splitting drops the control characters and blanks in
front, and every tab and line end. A scheme is given in lower case; where the
text states none, another one is assumed. An empty query or fragment is the
same as none. Putting together starts the path behind an authority with a
slash, and writes the two slashes of an empty authority for the schemes that
always have one, unless the path starts with two slashes itself.
-/

namespace Walkthrough.Url

/-- The parts of a URL, each without its delimiter. -/
structure Parts where
  scheme : List Char := []
  authority : List Char := []
  path : List Char := []
  query : List Char := []
  fragment : List Char := []
deriving DecidableEq, Repr, Inhabited

/-- The text without what a URL never holds. -/
def clean (text : List Char) : List Char :=
  (text.dropWhile (·.toNat ≤ 0x20)).filter fun c => c ≠ '\t' ∧ c ≠ '\r' ∧ c ≠ '\n'

/-- A character of a scheme. -/
def isSchemeChar (c : Char) : Bool := c.isAlphanum || c = '+' || c = '-' || c = '.'

/-- A text cut at its first `c`; nothing follows where there is none. -/
def cutAt (c : Char) (text : List Char) : List Char × List Char :=
  (text.takeWhile (· ≠ c), (text.dropWhile (· ≠ c)).drop 1)

/-- A word that can be a scheme. -/
def isScheme (word : List Char) : Bool := word.head?.any Char.isAlpha && word.all isSchemeChar

/-- The scheme in front of a text, in lower case, and what follows; where
there is none, the scheme to assume. -/
def cutScheme (assumed text : List Char) : List Char × List Char :=
  let (word, rest) := cutAt ':' text
  if ':' ∈ text ∧ isScheme word then (word.map Char.toLower, rest) else (assumed, text)

/-- A character that ends an authority. -/
def endsAuthority (c : Char) : Bool := c = '/' || c = '?' || c = '#'

/-- The authority in front of a text, behind two slashes, and what follows. -/
def cutAuthority (text : List Char) : List Char × List Char :=
  match text with
  | '/' :: '/' :: rest =>
    (rest.takeWhile (!endsAuthority ·), rest.dropWhile (!endsAuthority ·))
  | _ => ([], text)

/-- **The parts of a URL,** with a scheme to assume where it states none. -/
def splitWith (assumed text : List Char) : Except Error Parts := do
  let (scheme, rest) := cutScheme assumed (clean text)
  let (authority, rest) := cutAuthority rest
  checkBrackets authority
  let (rest, fragment) := cutAt '#' rest
  let (path, query) := cutAt '?' rest
  checkDelimiters authority
  return ⟨scheme, authority, path, query, fragment⟩

/-- The parts of a URL. -/
def split (text : List Char) : Except Error Parts := splitWith [] text

/-- The schemes whose URLs have an authority. -/
def authoritySchemes : List (List Char) :=
  ["", "ftp", "http", "gopher", "nntp", "telnet", "imap", "wais", "file", "mms", "https",
    "shttp", "snews", "prospero", "rtsp", "rtspu", "rsync", "svn", "svn+ssh", "sftp",
    "nfs", "git", "git+ssh", "ws", "wss"].map String.toList

/-- The scheme is one of some schemes. -/
def isOneOf (schemes : List (List Char)) (scheme : List Char) : Bool := schemes.any (· = scheme)

/-- Behind an authority a path that is not empty starts with a slash. -/
def rooted (path : List Char) : List Char :=
  match path with
  | [] => []
  | '/' :: _ => path
  | _ => '/' :: path

/-- A delimiter and a part, or nothing for an empty part. -/
def marked (c : Char) (part : List Char) : List Char := if part = [] then [] else c :: part

/-- **The URL of its parts.** -/
def Parts.join (p : Parts) : List Char :=
  let withAuthority := p.authority ≠ [] ||
    (p.scheme ≠ [] && isOneOf authoritySchemes p.scheme && p.path.take 2 ≠ ['/', '/'])
  (if p.scheme = [] then [] else p.scheme ++ [':']) ++
    (if withAuthority then '/' :: '/' :: (p.authority ++ rooted p.path) else p.path) ++
    marked '?' p.query ++ marked '#' p.fragment

end Walkthrough.Url
