import Screening.Json.Writer

/-!
# Requests and responses

Only what the service looks at is kept of a message.  Header names are compared without regard to
case, and of several headers of one name the first one counts; setting a header of a response
replaces every earlier one of its name.

What a request is aimed at is its target; routes are found by the path in it, which ends before a
question mark or a hash and is taken letter by letter, percent signs included.
-/

set_option autoImplicit false

namespace Screening.Http

structure Request where
  method : String
  target : String
  headers : List (String × List UInt8) := []
  body : List UInt8 := []

namespace Request

/-- The first header of a name, which is given in lower case. -/
def header? (r : Request) (name : String) : Option (List UInt8) :=
  (r.headers.find? fun h => h.1.toLower = name).map Prod.snd

/-- What follows `://`, if a text has it. -/
def afterScheme? : List Char → Option (List Char)
  | ':' :: '/' :: '/' :: rest => some rest
  | _ :: rest => afterScheme? rest
  | [] => none

def isPathEnd (c : Char) : Bool := c == '?' || c == '#'

def isAuthorityEnd (c : Char) : Bool := c == '/' || isPathEnd c

/-- The path that a target names.  A target with a scheme has it behind the authority, and names `/`
if there is none; an authority by itself names no path. -/
def pathOf (target : List Char) : List Char :=
  match target with
  | '/' :: _ => target.takeWhile (!isPathEnd ·)
  | ['*'] => target
  | _ =>
    match afterScheme? target with
    | some rest =>
      let path := (rest.dropWhile (!isAuthorityEnd ·)).takeWhile (!isPathEnd ·)
      if path.isEmpty then ['/'] else path
    | none => []

def path (r : Request) : String := String.ofList (pathOf r.target.toList)

end Request

/-- Whether a character may stand in the value of a header.  Of the control characters only the tab
may. -/
def isHeaderChar (c : Char) : Bool := (' ' ≤ c && c != '\x7f') || c == '\t'

/-- Whether a text may be written as the value of a header. -/
def isHeaderValue (text : String) : Bool := text.toList.all isHeaderChar

/-- What a response carries. -/
inductive Content where
  | nothing
  | text (s : String)
  | json (v : Json.Value)

def Content.mediaType? : Content → Option String
  | nothing => none
  | text _ => some "text/plain; charset=utf-8"
  | json _ => some "application/json"

/-- The content as text. -/
def Content.toText : Content → String
  | nothing => ""
  | text s => s
  | json v => v.toText

structure Response where
  status : Nat
  headers : List (String × String)
  content : Content

namespace Response

def header? (r : Response) (name : String) : Option String := r.headers.lookup name

/-- Sets a header, in the place of every other one of its name. -/
def setHeader (name value : String) (r : Response) : Response :=
  { r with headers := r.headers.filter (·.1 ≠ name) ++ [(name, value)] }

/-- A response whose only header is the media type of what it carries. -/
def of (status : Nat) (content : Content) : Response :=
  ⟨status, content.mediaType?.toList.map ("content-type", ·), content⟩

end Response

end Screening.Http
