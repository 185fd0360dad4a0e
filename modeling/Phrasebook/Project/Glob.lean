import Phrasebook.Text.Decimal

/-!
# Project/Glob — patterns with wildcards

A question mark stands for any character, a star for any run of them, slashes included, and
brackets for one character of a class or, behind `!`, outside of it.  Two stars that fill a whole
piece of the path stand for any number of pieces.  A pattern is tested against the whole path.
-/

namespace Phrasebook.Glob

/-- A member of a class in brackets. -/
inductive Range where
  | single (c : Char)
  | between (first last : Char)
  deriving DecidableEq

/-- Whether a character is that member, or one of them. -/
def Range.contains (c : Char) : Range → Bool
  | single d => c = d
  | between first last => first ≤ c && c ≤ last

/-- A part of a pattern. -/
inductive Part where
  | literal (c : Char)
  /-- One character. -/
  | any
  /-- A run of characters. -/
  | run
  /-- Whole pieces of a path. -/
  | pieces
  | oneOf (ranges : List Range)
  | noneOf (ranges : List Range)
  deriving DecidableEq

/-- Why a text is no pattern, with the place that is reported. -/
inductive Fault where
  | tooManyStars (position : Nat)
  | starsInPiece (position : Nat)
  | invalidRange (position : Nat)
  deriving DecidableEq

/-- The wording of a fault. -/
def Fault.message (fault : Fault) : String :=
  let (position, reason) :=
    match fault with
    | tooManyStars position => (position, "wildcards are either regular `*` or recursive `**`")
    | starsInPiece position =>
      (position, "recursive wildcards must form a single path component")
    | invalidRange position => (position, "invalid range pattern")
  "Pattern syntax error near position " ++ Decimal.ofNat position ++ ": " ++ reason

/-- The members that the text between brackets lists. -/
def ranges : List Char → List Range
  | first :: '-' :: last :: rest => .between first last :: ranges rest
  | c :: rest => .single c :: ranges rest
  | [] => []

/-- A class behind its opening bracket, with the text behind it: the first character belongs to the
class even if it is a closing bracket. -/
def bracket? (text : List Char) : Option (Part × List Char) :=
  let close (body : List Char) : Option (List Char × List Char) :=
    match body with
    | [] => none
    | first :: rest =>
      match rest.dropWhile (· ≠ ']') with
      | [] => none
      | _ :: after => some (first :: rest.takeWhile (· ≠ ']'), after)
  match text with
  | '!' :: body => (close body).map fun (inside, after) => (.noneOf (ranges inside), after)
  | body => (close body).map fun (inside, after) => (.oneOf (ranges inside), after)

/-- The parts of a pattern from a position on, where `last` is the character before it.  The fuel
bounds the parts, and the length of the text is enough. -/
def parseFrom (fuel position : Nat) (last : Option Char) (text : List Char) :
    Except Fault (List Part) :=
  match fuel with
  | 0 => .ok []
  | fuel + 1 =>
    match text with
    | [] => .ok []
    | '?' :: rest => (parseFrom fuel (position + 1) (some '?') rest).map (.any :: ·)
    | '*' :: '*' :: '*' :: _ => .error (.tooManyStars (position + 2))
    | '*' :: '*' :: rest =>
      if last = none ∨ last = some '/' then
        match rest with
        | [] => .ok [.pieces]
        | '/' :: rest => (parseFrom fuel (position + 3) (some '/') rest).map (.pieces :: ·)
        | _ => .error (.starsInPiece (position + 2))
      else .error (.starsInPiece (position - 1))
    | '*' :: rest => (parseFrom fuel (position + 1) (some '*') rest).map (.run :: ·)
    | '[' :: rest =>
      match bracket? rest with
      | none => .error (.invalidRange position)
      | some (part, after) =>
        let used := rest.length + 1 - after.length
        (parseFrom fuel (position + used) (some ']') after).map (part :: ·)
    | c :: rest => (parseFrom fuel (position + 1) (some c) rest).map (.literal c :: ·)

/-- The pattern that a text writes. -/
def parse (pattern : String) : Except Fault (List Part) :=
  let text := pattern.toList
  parseFrom text.length 0 none text

/-- The texts that may be left behind a run: all ends of the text. -/
def afterRun : List Char → List (List Char)
  | [] => [[]]
  | c :: rest => (c :: rest) :: afterRun rest

/-- The ends of a text that start behind a slash, and the empty end. -/
def afterSlash : List Char → List (List Char)
  | [] => [[]]
  | c :: rest => if c = '/' then rest :: afterSlash rest else afterSlash rest

/-- The texts that may be left behind whole pieces: all of it, what follows a slash, or nothing. -/
def afterPieces (text : List Char) : List (List Char) := text :: afterSlash text

/-- Whether a text matches the parts of a pattern from the first to the last. -/
def matchesText : List Part → List Char → Bool
  | [], text => text.isEmpty
  | .run :: parts, text => (afterRun text).any (matchesText parts)
  | .pieces :: parts, text => (afterPieces text).any (matchesText parts)
  | .literal d :: parts, c :: rest => c == d && matchesText parts rest
  | .any :: parts, _ :: rest => matchesText parts rest
  | .oneOf ranges :: parts, c :: rest => ranges.any (·.contains c) && matchesText parts rest
  | .noneOf ranges :: parts, c :: rest => !ranges.any (·.contains c) && matchesText parts rest
  | _ :: _, [] => false

end Phrasebook.Glob
