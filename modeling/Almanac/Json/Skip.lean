/-
  Almanac.Json.Skip

  Skipping a JSON value of any depth. The open brackets around the place reached are
  kept on a stack, so that depth costs no recursion.
-/
import Almanac.Json.Lexeme

namespace Almanac.Json

/-- An open bracket. -/
inductive Frame
  | array
  | object
deriving DecidableEq

/-- What stands next while a value is skipped. -/
inductive SkipPhase
  | value
  /-- The end of the innermost bracket, or its first item. -/
  | opened
  /-- A comma or the end of the innermost bracket. -/
  | closing
deriving DecidableEq

/-- A member name with its colon. -/
def skipKey (s : Bytes) : Except Fault Bytes :=
  match skipSpace s with
  | [] => .error .truncated
  | 34 :: rest => do
    match skipSpace (← skipString rest) with
    | [] => .error .truncated
    | 58 :: rest => .ok rest
    | _ => .error .malformed
  | _ => .error .malformed

/-- What follows a scalar value that starts with `b`. -/
def skipScalar (b : UInt8) (s : Bytes) : Except Fault Bytes :=
  if b == 34 then skipString s
  else if b == 110 then expect nullWord.tail s
  else if b == 116 then expect trueWord.tail s
  else if b == 102 then expect falseWord.tail s
  else if b == 45 || isDigit b then skipNumber (b :: s)
  else .error .malformed

/-- Skips on until the stack is empty. Each round takes at least one byte, so as much
    fuel as there are bytes is enough. -/
def skipFrames : Nat → List Frame → SkipPhase → Bytes → Except Fault Bytes
  | _, [], .closing, s => .ok s
  | 0, _, _, _ => .error .truncated
  | fuel + 1, stack, phase, s =>
    match phase, skipSpace s with
    | _, [] => .error .truncated
    | .value, b :: rest =>
      if b == 91 then skipFrames fuel (.array :: stack) .opened rest
      else if b == 123 then skipFrames fuel (.object :: stack) .opened rest
      else do skipFrames fuel stack .closing (← skipScalar b rest)
    | .opened, b :: rest =>
      match stack with
      | [] => .error .malformed
      | .array :: outer =>
        if b == 93 then skipFrames fuel outer .closing rest
        else skipFrames fuel stack .value (b :: rest)
      | .object :: outer =>
        if b == 125 then skipFrames fuel outer .closing rest
        else do skipFrames fuel stack .value (← skipKey (b :: rest))
    | .closing, b :: rest =>
      match stack with
      | [] => .ok s
      | .array :: outer =>
        if b == 44 then skipFrames fuel stack .value rest
        else if b == 93 then skipFrames fuel outer .closing rest
        else .error .malformed
      | .object :: outer =>
        if b == 44 then do skipFrames fuel stack .value (← skipKey rest)
        else if b == 125 then skipFrames fuel outer .closing rest
        else .error .malformed

/-- What follows a value. -/
def skipValue (s : Bytes) : Except Fault Bytes :=
  skipFrames (2 * s.length + 1) [] .value s

end Almanac.Json
