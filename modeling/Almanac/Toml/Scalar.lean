/-
  Almanac.Toml.Scalar

  The parts of a TOML file that stand on one line, and strings: blanks, comments,
  strings of four kinds, keys, numbers, and moments. Each reader takes a part from the
  front of a text, or fails.
-/
import Almanac.Net.Address
import Almanac.Time.Civil
import Almanac.Tree

namespace Almanac.Toml

/-- A reader of a part: what it read, and what is left. -/
abbrev Reader (α : Type) := List Char → Option (α × List Char)

/-! ## Blanks, line ends and comments -/

def isSpace (c : Char) : Bool := c == ' ' || c == '\t'

/-- The text behind its spaces and tabs. -/
def skipSpaces (cs : List Char) : List Char := cs.dropWhile isSpace

/-- The text behind a line end, if it starts with one. -/
def lineEnd? : List Char → Option (List Char)
  | '\n' :: cs => some cs
  | '\r' :: '\n' :: cs => some cs
  | _ => none

/-- Characters that are no controls; a tab is none. -/
def isPlain (c : Char) : Bool := c == '\t' || (0x20 ≤ c.toNat && c.toNat != 0x7F)

/-- The text behind a comment, if it starts with one. -/
def skipComment (cs : List Char) : List Char :=
  match cs with
  | '#' :: rest => rest.dropWhile isPlain
  | _ => cs

/-- The text behind the end of a line: spaces, a comment, and a line end or the end of all. -/
def restOfLine? (cs : List Char) : Option (List Char) :=
  match skipComment (skipSpaces cs) with
  | [] => some []
  | cs => lineEnd? cs

/-- The text behind spaces, line ends and comments; a comment needs a line end. -/
def skipLines : Nat → List Char → Option (List Char)
  | 0, cs => some cs
  | fuel + 1, cs =>
    let cs := skipSpaces cs
    match lineEnd? cs, cs with
    | some rest, _ => skipLines fuel rest
    | none, '#' :: _ =>
      match lineEnd? (skipComment cs) with
      | some rest => skipLines fuel rest
      | none => none
    | none, '\r' :: _ => none
    | none, _ => some cs

/-- Blank lines and comments from the front of a text, all of them. -/
def skipBlankLines (cs : List Char) : Option (List Char) := skipLines (cs.length + 1) cs

/-! ## Strings -/

/-- The character of so many hexadecimal digits. -/
def readCodePoint (digits : Nat) : Reader Char := fun cs => do
  let values ← (cs.take digits).mapM Net.hexCharValue?
  let n := values.foldl (fun n v => 16 * n + v) 0
  if values.length == digits && n.isValidChar then some (Char.ofNat n, cs.drop digits) else none

/-- The character of an escape, behind its backslash. -/
def readEscape : Reader Char
  | 'b' :: cs => some ('\x08', cs)
  | 't' :: cs => some ('\t', cs)
  | 'n' :: cs => some ('\n', cs)
  | 'f' :: cs => some ('\x0c', cs)
  | 'r' :: cs => some ('\r', cs)
  | '"' :: cs => some ('"', cs)
  | '\\' :: cs => some ('\\', cs)
  | 'u' :: cs => readCodePoint 4 cs
  | 'U' :: cs => readCodePoint 8 cs
  | _ => none

/-- A string in single quotes on one line, behind its opening quote. -/
def readLiteral : Reader String := fun cs =>
  let body := cs.takeWhile fun c => isPlain c && c != '\''
  match cs.drop body.length with
  | '\'' :: rest => some (String.ofList body, rest)
  | _ => none

/-- A string in double quotes on one line, behind its opening quote; `acc` is what has been read,
    the last character first. -/
def readBasic (acc : List Char) : Nat → Reader String
  | 0, _ => none
  | fuel + 1, cs =>
    match cs with
    | '"' :: rest => some (String.ofList acc.reverse, rest)
    | '\\' :: rest => do
      let (c, rest) ← readEscape rest
      readBasic (c :: acc) fuel rest
    | c :: rest => if isPlain c then readBasic (c :: acc) fuel rest else none
    | [] => none

/-- A string of several lines, behind the three quotes that open it. One or two quotes are part of
    the string, also in front of the three that close it. A backslash, where it counts, may stand
    at the end of a line and takes the white space behind it away. -/
def readLong (quote : Char) (escapes : Bool) (acc : List Char) : Nat → Reader String
  | 0, _ => none
  | fuel + 1, cs =>
    match lineEnd? cs with
    | some rest => readLong quote escapes ('\n' :: acc) fuel rest
    | none =>
      match cs with
      | [] => none
      | c :: rest =>
        if c == quote then
          let run := (cs.takeWhile (· == quote)).length
          if run < 3 then readLong quote escapes (quote :: acc) fuel rest
          else
            let extra := min (run - 3) 2
            some (String.ofList (List.replicate extra quote ++ acc).reverse, cs.drop (extra + 3))
        else if c == '\\' && escapes then
          match lineEnd? (skipSpaces rest) with
          | some next =>
            let isWhite (c : Char) : Bool := isSpace c || c == '\n'
            readLong quote escapes acc fuel (skipWhite isWhite next)
          | none =>
            match readEscape rest with
            | some (c, rest) => readLong quote escapes (c :: acc) fuel rest
            | none => none
        else if isPlain c then readLong quote escapes (c :: acc) fuel rest
        else none
where
  /-- The text behind white space; a carriage return counts only in front of a line end. -/
  skipWhite (isWhite : Char → Bool) : List Char → List Char
    | '\r' :: '\n' :: cs => skipWhite isWhite cs
    | c :: cs => if isWhite c then skipWhite isWhite cs else c :: cs
    | [] => []

/-- A string of several lines; a line end right behind the opening quotes does not count. -/
def readLongString (quote : Char) (escapes : Bool) : Reader String := fun cs =>
  readLong quote escapes [] (cs.length + 1) ((lineEnd? cs).getD cs)

/-- A string of any kind. -/
def readString : Reader String
  | '"' :: '"' :: '"' :: cs => readLongString '"' true cs
  | '\'' :: '\'' :: '\'' :: cs => readLongString '\'' false cs
  | '"' :: cs => readBasic [] (cs.length + 1) cs
  | '\'' :: cs => readLiteral cs
  | _ => none

/-! ## Keys -/

/-- Characters of a key without quotes. -/
def isBare (c : Char) : Bool := c.isAlphanum || c == '_' || c == '-'

/-- One part of a key, with the spaces around it. -/
def readKeyPart : Reader String := fun cs => do
  let cs := skipSpaces cs
  let (part, rest) ← match cs with
    | '"' :: rest => readBasic [] (rest.length + 1) rest
    | '\'' :: rest => readLiteral rest
    | _ =>
      let part := cs.takeWhile isBare
      if part.isEmpty then none else some (String.ofList part, cs.drop part.length)
  some (part, skipSpaces rest)

/-- The parts of a key behind the first one. -/
def readKeyRest : Nat → Reader (List String)
  | 0, _ => none
  | fuel + 1, cs =>
    match cs with
    | '.' :: rest => do
      let (part, rest) ← readKeyPart rest
      let (parts, rest) ← readKeyRest fuel rest
      some (part :: parts, rest)
    | _ => some ([], cs)

/-- How many parts a key has at most, and how deep values can be nested, less one. -/
def depthLimit : Nat := 80

/-- A key: its parts in front of the last one, and the last one. -/
def readKey : Reader (List String × String) := fun cs => do
  let (first, rest) ← readKeyPart cs
  let (others, rest) ← readKeyRest (cs.length + 1) rest
  let parts := first :: others
  if depthLimit ≤ parts.length then none
  else some ((parts.dropLast, parts.getLastD first), rest)

/-! ## Numbers -/

/-- Digits of a kind, with single underscores between them. -/
def readDigits (isDigit : Char → Bool) : Reader (List Char) := fun cs =>
  let run := cs.takeWhile fun c => isDigit c || c == '_'
  let digits := run.filter (· != '_')
  let underscoresAreSingle := (run.zip (run.drop 1)).all fun (a, b) => !(a == '_' && b == '_')
  let isFramed := run.head? == some '_' || run.getLast? == some '_'
  if digits.isEmpty || isFramed || !underscoresAreSingle then none
  else some (digits, cs.drop run.length)

def readSign : List Char → Bool × List Char
  | '-' :: cs => (true, cs)
  | '+' :: cs => (false, cs)
  | cs => (false, cs)

/-- Decimal digits without needless zeros in front. -/
def readWhole : Reader (List Char) := fun cs =>
  match cs with
  | '0' :: rest => some (['0'], rest)
  | _ => readDigits Char.isDigit cs

/-- A number in 64 bits with a sign. -/
def signed64? (n : Int) : Option Int :=
  if -9223372036854775808 ≤ n ∧ n ≤ 9223372036854775807 then some n else none

/-- Digits to another base, behind the letter that says so. -/
def readBased (base : Nat) : Reader Int := fun cs => do
  let (digits, rest) ← readDigits (fun c => ((Net.hexCharValue? c).getD 16) < base) cs
  let n := digits.foldl (fun n c => base * n + (Net.hexCharValue? c).getD 0) 0
  some (← signed64? n, rest)

def readInteger : Reader Int
  | '0' :: 'x' :: cs => readBased 16 cs
  | '0' :: 'o' :: cs => readBased 8 cs
  | '0' :: 'b' :: cs => readBased 2 cs
  | cs => do
    let (negative, cs) := readSign cs
    let (digits, rest) ← readWhole cs
    let n : Int := digitsValue digits
    some (← signed64? (if negative then -n else n), rest)

/-- Whether digits with a decimal exponent stand for a number that is too large for 64 bits of
    floating point: it rounds to 2^1024 or more. -/
def overflows (digits : List Char) (exponent : Int) : Bool :=
  let n := digitsValue digits
  let size : Int := (Nat.toDigits 10 n).length + exponent
  if n == 0 || size < 300 then false
  else if 400 < size then true
  else
    match exponent with
    | .ofNat e => doubleBound ≤ n * powerOfTen e
    | .negSucc e => doubleBound * powerOfTen (e + 1) ≤ n

/-- A decimal exponent, behind its letter. -/
def readExponent : Reader Int := fun cs => do
  let (negative, cs) := readSign cs
  let (digits, rest) ← readDigits Char.isDigit cs
  let n : Int := digitsValue digits
  some (if negative then -n else n, rest)

/-- What stands behind the whole part of a fraction: decimal places, an exponent, or both. -/
def readPlaces : Reader (List Char × Int)
  | '.' :: cs => do
    let (places, rest) ← readDigits Char.isDigit cs
    match rest with
    | 'e' :: r | 'E' :: r => (readExponent r).map fun (e, rest) => ((places, e), rest)
    | _ => some ((places, 0), rest)
  | 'e' :: cs | 'E' :: cs => (readExponent cs).map fun (e, rest) => (([], e), rest)
  | _ => none

/-- A fraction, an infinity or no number at all; a positive one must not be too large. -/
def readFraction : Reader Unit := fun cs =>
  let (negative, cs) := readSign cs
  match cs with
  | 'i' :: 'n' :: 'f' :: rest => some ((), rest)
  | 'n' :: 'a' :: 'n' :: rest => some ((), rest)
  | _ => do
    let (whole, rest) ← readWhole cs
    let ((places, exponent), rest) ← readPlaces rest
    if !negative && overflows (whole ++ places) (exponent - places.length) then none
    else some ((), rest)

/-! ## Moments -/

/-- A number of exactly so many digits between two bounds. -/
def readBounded (digits low high : Nat) : Reader Nat := fun cs =>
  let run := cs.take digits
  let n := digitsValue run
  if run.length == digits && run.all Char.isDigit && low ≤ n && n ≤ high then
    some (n, cs.drop digits)
  else none

def readDate : Reader Unit := fun cs => do
  let (year, cs) ← readBounded 4 0 9999 cs
  let (month, cs) ← readBounded 2 1 12 (← Net.readMark '-' cs)
  let (day, cs) ← readBounded 2 1 31 (← Net.readMark '-' cs)
  if day ≤ monthLength year month then some ((), cs) else none

def readTime : Reader Unit := fun cs => do
  let (_, cs) ← readBounded 2 0 23 cs
  let (_, cs) ← readBounded 2 0 59 (← Net.readMark ':' cs)
  let (_, cs) ← readBounded 2 0 60 (← Net.readMark ':' cs)
  match cs with
  | '.' :: d :: rest => if d.isDigit then some ((), rest.dropWhile Char.isDigit) else none
  | '.' :: [] => none
  | _ => some ((), cs)

/-- The offset behind a time, if there is one. -/
def skipOffset (cs : List Char) : List Char :=
  match cs with
  | 'Z' :: rest => rest
  | 'z' :: rest => rest
  | sign :: rest =>
    if sign == '+' || sign == '-' then
      let offset : Option (List Char) := do
        let (_, rest) ← readBounded 2 0 23 rest
        let (_, rest) ← readBounded 2 0 59 (← Net.readMark ':' rest)
        some rest
      offset.getD cs
    else cs
  | [] => []

/-- A date, a time, or both with an optional offset. -/
def readMoment : Reader Unit := fun cs =>
  match readDate cs with
  | none => readTime cs
  | some ((), rest) =>
    match rest with
    | c :: time =>
      if c == 'T' || c == 't' || c == ' ' then
        match readTime time with
        | some ((), rest) => some ((), skipOffset rest)
        | none => some ((), rest)
      else some ((), rest)
    | [] => some ((), rest)

/-! ## All scalars -/

/-- The rest of a text behind a word. -/
def readWord (word : String) (cs : List Char) : Option (List Char) :=
  if word.toList.isPrefixOf cs then some (cs.drop word.length) else none

/-- A value that is neither a list nor a table. -/
def readScalar : Reader Tree := fun cs =>
  match cs with
  | [] => none
  | c :: _ =>
    if c == '"' || c == '\'' then (readString cs).map fun (s, rest) => (.text s, rest)
    else if c == 't' then (readWord "true" cs).map fun rest => (.flag true, rest)
    else if c == 'f' then (readWord "false" cs).map fun rest => (.flag false, rest)
    else match readMoment cs with
      | some ((), rest) => some (.moment, rest)
      | none =>
        match readFraction cs with
        | some ((), rest) => some (.fraction, rest)
        | none => (readInteger cs).map fun (n, rest) => (.integer n, rest)

end Almanac.Toml
