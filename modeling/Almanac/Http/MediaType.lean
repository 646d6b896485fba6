/-
  Almanac.Http.MediaType

  Media types: a type and a subtype with a slash between them, and parameters behind a
  semicolon or a space. JSON comes as `application/json`, or as another subtype of
  `application` with the suffix `json`. All of it is ASCII.
-/
import Almanac.Text.Case
import Almanac.Text.Pieces

namespace Almanac.Http

/-- Whether a character may stand in a name of a media type. -/
def isToken (c : Char) : Bool :=
  c.isAlphanum
    || ['!', '#', '$', '%', '&', '\'', '*', '+', '-', '.', '^', '_', '\x60', '|', '~'].contains c

/-- Whether a character may stand in a quoted value: the visible ones of ASCII, and the space. -/
def isQuotable (c : Char) : Bool := 31 < c.toNat && c.toNat < 127

/-- Where the reading of parameters is. -/
inductive ParameterPlace
  /-- Before a name, behind nothing but spaces. -/
  | before
  | name
  /-- Behind an equals sign. -/
  | equals
  | value
  /-- In a quoted value, which must not be empty. -/
  | quoted (isEmpty : Bool)
  /-- Behind a quoted value. -/
  | unquoted
deriving DecidableEq

/-- Whether the rest of a media type is a well-formed list of parameters. -/
def areParameters : ParameterPlace → List Char → Bool
  | .before, [] => true
  | .name, [] => false
  | .equals, [] => true
  | .value, [] => true
  | .quoted _, [] => false
  | .unquoted, [] => true
  | .before, c :: cs =>
    if c == ' ' then areParameters .before cs else isToken c && areParameters .name cs
  | .name, c :: cs =>
    if c == '=' then areParameters .equals cs else isToken c && areParameters .name cs
  | .equals, c :: cs =>
    if c == '"' then areParameters (.quoted true) cs else isToken c && areParameters .value cs
  | .value, c :: cs =>
    if c == ';' then areParameters .before cs else isToken c && areParameters .value cs
  | .quoted isEmpty, c :: cs =>
    if c == '"' && !isEmpty then areParameters .unquoted cs
    else isQuotable c && areParameters (.quoted false) cs
  | .unquoted, c :: cs =>
    if c == ';' then areParameters .before cs else c == ' ' && areParameters .unquoted cs

/-- The parts of a subtype: its last plus sign divides it from its suffix. One in front is a part
    of the name and divides nothing. -/
def splitSuffix (subtype : List Char) : String × Option String :=
  let name := lowerAscii (String.ofList subtype)
  if (subtype.drop 1).contains '+' then
    let words := textPieces '+' name
    (String.intercalate "+" words.dropLast, words.getLast?)
  else (name, none)

/-- Whether a media type says that the content is JSON. -/
def isJsonType (s : String) : Bool :=
  let cs := s.toList
  let kind := cs.takeWhile isToken
  match cs.drop kind.length with
  | '/' :: rest =>
    let subtype := rest.takeWhile isToken
    let parameters := match rest.drop subtype.length with
      | [] => true
      | c :: cs => (c == ';' || c == ' ') && areParameters .before cs
    let (name, suffix) := splitSuffix subtype
    lowerAscii (String.ofList kind) == "application" && !subtype.isEmpty && parameters
      && (name == "json" || suffix == some "json")
  | _ => false

end Almanac.Http
