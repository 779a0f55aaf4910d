import Anyonce.Core.Table
import Anyonce.Go.Key

/-!
# Go headers

`http.Header`, a map from names to lists of values, as `go/internal/httpx` uses it.  The methods go by
the canonical form of a name: `Get` and `Values` read the entry under it, `Set`, `Add` and `Del` write
it.  A map may also hold entries under other names, which only an assignment to the map can make.

* `canonicalHeaderKey` — the canonical form.
* `lookupKey` — `LookupKey` of `go/internal/httpx/request.go`.
-/

namespace Anyonce.Go

open Relational

/-! ## Canonical names -/

def isUpper (b : UInt8) : Bool := 0x41 ≤ b && b ≤ 0x5a

def isLower (b : UInt8) : Bool := 0x61 ≤ b && b ≤ 0x7a

def isDigit (b : UInt8) : Bool := 0x30 ≤ b && b ≤ 0x39

/-- `validHeaderFieldByte`: the bytes of a token. -/
def validHeaderFieldByte (b : UInt8) : Bool :=
  isUpper b || isLower b || isDigit b || (ascii "!#$%&'*+-.^_`|~").contains b

def toUpper (b : UInt8) : UInt8 := if isLower b then b - 0x20 else b

def toLower (b : UInt8) : UInt8 := if isUpper b then b + 0x20 else b

/-- The loop of `canonicalMIMEHeaderKey`: upper case at the front and after a hyphen. -/
def canonicalBytes : GoString → Bool → GoString
  | [], _ => []
  | b :: rest, upper =>
      (if upper then toUpper b else toLower b) :: canonicalBytes rest (b = 0x2d)

/-- `http.CanonicalHeaderKey`: a name that is no token is left alone. -/
def canonicalHeaderKey (name : GoString) : GoString :=
  if name.all validHeaderFieldByte then canonicalBytes name true else name

/-- `strings.ToLower` of an ASCII name, which a token is.  In a name that is none, letters beyond ASCII are left as
they are here, while the library maps those too. -/
def toLowerName (name : GoString) : GoString := name.map toLower

/-! ## Header maps -/

/-- `http.Header`. -/
abbrev Header : Type := OrderedMap GoString (List GoString)

namespace Header

/-- The entry under a name as it stands: nil where there is none. -/
def entry (h : Header) (name : GoString) : List GoString := (OrderedMap.get h name).getD []

/-- `Values`: every value under the canonical spelling of a name. -/
def values (h : Header) (name : GoString) : List GoString := entry h (canonicalHeaderKey name)

/-- The first value, or nothing. -/
def get (h : Header) (name : GoString) : GoString := (values h name).headD []

/-- `Add`: one more value under the canonical spelling of a name. -/
def add (h : Header) (name value : GoString) : Header :=
  OrderedMap.set h (canonicalHeaderKey name) (entry h (canonicalHeaderKey name) ++ [value])

/-- `Set`: one value in place of all others. -/
def put (h : Header) (name value : GoString) : Header :=
  OrderedMap.set h (canonicalHeaderKey name) [value]

/-- `Del`: no value any more. -/
def del (h : Header) (name : GoString) : Header := OrderedMap.delete h (canonicalHeaderKey name)

end Header

/-! ## The key of a request -/

/-- What the key header of a request comes to. -/
inductive KeyStatus
  | Missing
  | Invalid
  | Ok
  deriving DecidableEq

/-- REQ-HTTP-2: case-insensitive lookup; a repeated field is invalid; the reason never carries the
value. -/
def lookupKey (h : Header) (name : GoString) (keySyntax : KeySyntax) :
    GoString × KeyStatus × GoString :=
  match h.values name with
  | [] => ([], .Missing, [])
  | [value] =>
      match parseKey value keySyntax with
      | .error reason => ([], .Invalid, ascii reason)
      | .ok key => (key, .Ok, [])
  | _ => ([], .Invalid, ascii "the " ++ name ++ ascii " header field is repeated")

end Anyonce.Go
