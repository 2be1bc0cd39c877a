import SiteFilter.Fault
import SiteFilter.Page.InternetAddress
import SiteFilter.Text.Lowercase

/-!
# The host of a page

The host name in the address of a page. Between the two slashes and the path stands the authority:
user information up to the last `@`, the host, and a port. A host in brackets is a numeric address.
-/

namespace SiteFilter.PageAddress

def schemes : List Text :=
  [Text.ofString "http://", Text.ofString "https://"]

/-- Tabs and line ends have no meaning anywhere in an address. -/
def isDropped (c : CodePoint) : Bool :=
  c.val = 0x09 || c.val = 0x0A || c.val = 0x0D

def endsAuthority (c : CodePoint) : Bool :=
  c.val = 0x2F || c.val = 0x3F || c.val = 0x23

/--
Code points beyond ASCII whose compatibility form holds one of `/`, `?`, `#`, `@` and `:`, the
delimiters of addresses.
-/
def delimiterLookalikes : List Nat :=
  [0x2047, 0x2048, 0x2049, 0x2100, 0x2101, 0x2105, 0x2106, 0x2A74, 0xFE13, 0xFE16, 0xFE55, 0xFE56,
   0xFE5F, 0xFE6B, 0xFF03, 0xFF0F, 0xFF1A, 0xFF1F, 0xFF20]

def openBracket : CodePoint := CodePoint.ofChar '['

def closeBracket : CodePoint := CodePoint.ofChar ']'

def hostAndPort (authority : Text) : Text :=
  Text.afterLast (CodePoint.ofChar '@') authority

/-- The host: inside brackets when there are any, else up to the first colon. -/
def hostPart (authority : Text) : Text :=
  let t := hostAndPort authority
  if t.contains openBracket then
    Text.beforeFirst closeBracket ((t.dropWhile (· ≠ openBracket)).drop 1)
  else Text.beforeFirst (CodePoint.ofChar ':') t

/-- A `v`, digits in base 16, a point and something more: an address of a kind yet to come. -/
def isFutureAddress (host : Text) : Bool :=
  let digits := (host.drop 1).takeWhile fun c => (Json.hexDigit? c).isSome
  let rest := host.drop (1 + digits.length)
  !digits.isEmpty && rest.head? = some (CodePoint.ofChar '.') && 2 ≤ rest.length

def bracketFlaw? (host : Text) : Option Text :=
  if host.startsWith (Text.ofString "v") then
    if isFutureAddress host then none else some (Text.ofString "IPvFuture address is invalid")
  else if InternetAddress.isFourOctets host then
    some (Text.ofString "An IPv4 address cannot be in brackets")
  else if InternetAddress.isEightGroups host then none
  else some (host.quoted ++ Text.ofString " does not appear to be an IPv4 or IPv6 address")

def badBrackets : Text :=
  Text.ofString "Invalid IPv6 URL"

/-- Whether brackets stand where they may: around the host, which a port can follow. -/
def bracketsAreAround (t : Text) : Bool :=
  let behind := (t.dropWhile (· ≠ closeBracket)).drop 1
  t.head? = some openBracket && (behind.isEmpty || behind.head? = some (CodePoint.ofChar ':'))

def flaw? (authority : Text) : Option Text :=
  let opened := authority.contains openBracket
  let closed := authority.contains closeBracket
  let t := hostAndPort authority
  if opened != closed then some badBrackets
  else if opened && t.contains openBracket && !bracketsAreAround t then some badBrackets
  else
    match if opened then bracketFlaw? (hostPart authority) else none with
    | some reason => some reason
    | none =>
        if authority.any fun c => delimiterLookalikes.contains c.val then
          some (Text.ofString "netloc '" ++ authority
            ++ Text.ofString "' contains invalid characters under NFKC normalization")
        else none

/-- The host in lower case; a zone behind a percent sign stays as it is. -/
def lowerHost (host : Text) : Text :=
  let percent := CodePoint.ofChar '%'
  (Text.beforeFirst percent host).lower ++ host.dropWhile (· ≠ percent)

def authority? (address : Text) : Option Text :=
  (schemes.find? fun scheme => address.startsWith scheme).map fun scheme =>
    ((address.drop scheme.length).filter fun c => !isDropped c).takeWhile fun c => !endsAuthority c

def hostname (address : Text) : Except Fault (Option Text) :=
  match authority? address with
  | none => .ok none
  | some authority =>
      match flaw? authority with
      | some reason => .error (.badUrl reason)
      | none =>
          let host := hostPart authority
          .ok (if host.isEmpty then none else some (lowerHost host))

end SiteFilter.PageAddress
