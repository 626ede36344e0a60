import CodeTidy.Text.Digit
import CodeTidy.Text.Printable
import CodeTidy.Text.Utf8

/-!
# `CodeTidy.Url`: the address of a resource on a server

A server is named by a scheme, a host and perhaps a port, and a path leads to
the resource. `Url.request` is the form in which a request names them: scheme
and host in lower case, no port where the scheme implies it, no steps to the
same or to the upper folder, and no characters that an address may not hold.
-/

set_option autoImplicit false

namespace CodeTidy

/-- The parts of an address. -/
structure Url where
  scheme : Text
  host : Text
  /-- The port, if one is given. -/
  port? : Option Nat
  path : Text
  deriving DecidableEq, Repr

namespace Url

/-- The mark between a scheme and a host. -/
def hostMark : Text := "://"

/-- The host and the port of a server. What follows the last colon is a port only if it is a
number, or empty. -/
def splitPort (server : Text) : Text × Option Nat :=
  let digits := (server.reverse.takeWhile (· != ':')).reverse
  if server.contains ':' && digits.all Char.isDigit then
    (server.take (server.length - digits.length - 1),
      if digits.isEmpty then none else Text.decimalValue? digits)
  else (server, none)

/-- The parts of a text that has a mark between a scheme and a host. -/
def ofText? (t : Text) : Option Url :=
  let scheme := t.takeWhile (· != ':')
  let rest := t.drop scheme.length
  if hostMark.isPrefixOf rest then
    let server := (rest.drop hostMark.length).takeWhile (· != '/')
    let (host, port?) := splitPort server
    some ⟨scheme, host, port?, rest.drop (hostMark.length + server.length)⟩
  else none

/-- The port that a scheme implies. -/
def impliedPort? (scheme : Text) : Option Nat :=
  if scheme = "http".toList then some 80
  else if scheme = "https".toList then some 443
  else none

/-- The folders of a path without the steps to the same and to the upper folder; `done` are those
before them, the last one first. -/
def resolve : (done folders : List Text) → List Text
  | done, [] => done.reverse
  | done, folder :: rest =>
    if folder = ".".toList then resolve done rest
    else if folder = "..".toList then
      resolve (if done = [[]] then done else done.tail) rest
    else resolve (folder :: done) rest

/-- Whether a character may stand in a path. -/
def isPathChar (c : Char) : Bool :=
  32 < c.toNat && c.toNat < 127 && !("\"<>\x60\x7b\x7d".toList.contains c)

/-- A byte as it is written where its character may not stand. -/
def escapedByte (b : UInt8) : Text := '%' :: (Text.hex 2 b.toNat).map Char.toUpper

/-- A character of a path, or the bytes that stand for it. -/
def pathChar (c : Char) : Text :=
  if isPathChar c then [c] else (Text.encodeUtf8 [c]).flatMap escapedByte

/-- The path as a request names it. -/
def requestPath (path : Text) : Text :=
  (Text.joinWith "/" (resolve [] (Text.splitAtEach (· == '/') path))).flatMap pathChar

/-- The host as a request names it: a number in brackets stays as it is. -/
def requestHost (host : Text) : Text :=
  if Text.startsWith host "[" then host else host.map Char.toLower

/-- The port as a request names it, after a colon. -/
def requestPort (url : Url) : Text :=
  match url.port? with
  | some n => if impliedPort? url.scheme = some n then [] else ':' :: Text.ofNat n
  | none => []

/-- The address as a request names it. -/
def request (url : Url) : Text :=
  url.scheme.map Char.toLower ++ hostMark ++ requestHost url.host ++ url.requestPort ++
    requestPath url.path

end Url

/-- The form in which a request names the resource at an address. -/
def requestAddress (t : Text) : Text := ((Url.ofText? t).map Url.request).getD t

end CodeTidy
