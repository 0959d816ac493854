import Inlay.Selector.Basic

/-!
# Reading selectors

A reader over the characters of the source that counts its position for messages. Names are runs of
ASCII letters, digits, `-`, `_` and of every character outside ASCII, white space among them; a
blank before a name is skipped as white space, one inside belongs to the name.

Functions that call themselves take a bound on the depth of the calls. Each call follows a character
that was consumed, or is the first one on a new compound, so twice the length of the source is
enough.
-/

namespace Inlay.Selector

/-- Why a source is no selector. -/
inductive SyntaxError where
  | expectedChar (c : Char) (position : Nat)
  | expectedName (position : Nat)
  | unexpectedChar (c : Char) (position : Nat)
  | unexpectedEnd
  | unterminatedString
  | unclosedParenthesis
  | badNth (argument : String)
  | unsupportedPseudo (name : String)
deriving DecidableEq

/-- What is left of the source, and how many characters stand before it. -/
structure Cursor where
  rest : List Char
  position : Nat

/-- A reader on a cursor. -/
abbrev Reader := EStateM SyntaxError Cursor

namespace Reader

def peek : Reader (Option Char) :=
  return (← get).rest.head?

/-- Consumes one character. -/
def advance : Reader Unit :=
  modify fun c => ⟨c.rest.tail, c.position + 1⟩

/-- Consumes the longest run of characters of a class. -/
def takeWhile (p : Char → Bool) : Reader (List Char) :=
  modifyGet fun c =>
    let run := c.rest.takeWhile p
    (run, ⟨c.rest.drop run.length, c.position + run.length⟩)

/-- Consumes white space; whether there was any. -/
def skipBlanks : Reader Bool :=
  return !(← takeWhile Text.isBlank).isEmpty

/-- Consumes a given character. -/
def expect (c : Char) : Reader Unit := do
  if (← peek) = some c then advance
  else throw (.expectedChar c (← get).position)

def isNameChar (c : Char) : Bool :=
  c.isAlphanum || c == '-' || c == '_' || 0x80 ≤ c.toNat

def name : Reader String := do
  let start := (← get).position
  let cs ← takeWhile isNameChar
  if cs.isEmpty then throw (.expectedName start) else return String.ofList cs

/-- Consumes everything up to a given character, and that. -/
def through (close : Char) (missing : SyntaxError) : Reader String := do
  let cs ← takeWhile (· ≠ close)
  if (← peek).isNone then throw missing
  else
    advance
    return String.ofList cs

/-- The value in an attribute condition: a string in quotes of either kind, or a name. -/
def attrValue : Reader String := do
  match ← peek with
  | some '"' =>
    advance
    through '"' .unterminatedString
  | some '\'' =>
    advance
    through '\'' .unterminatedString
  | _ => name

/-- An attribute condition after its opening bracket. -/
def attrTest : Reader AttrTest := do
  let _ ← skipBlanks
  let attr := (← name).toLower
  let _ ← skipBlanks
  if (← peek) = some '=' then
    advance
    let _ ← skipBlanks
    let value ← attrValue
    let _ ← skipBlanks
    expect ']'
    return .equals attr value
  else
    expect ']'
    return .present attr

/-- The argument of `:nth-child`, in parentheses. -/
def nthArgument : Reader Nth := do
  expect '('
  let argument ← through ')' .unclosedParenthesis
  match Nth.parse? argument with
  | some n => return n
  | none => throw (.badNth argument)

mutual

/-- A pseudo-class after its colon. -/
def pseudo : Nat → Reader Pseudo
  | 0 => throw .unexpectedEnd
  | fuel + 1 => do
    let keyword := (← name).toLower
    if keyword = "first-child" then return .firstChild
    else if keyword = "last-child" then return .lastChild
    else if keyword = "nth-child" then return .nthChild (← nthArgument)
    else if keyword = "not" then
      expect '('
      let _ ← skipBlanks
      let c ← compound fuel
      let _ ← skipBlanks
      let cs ← furtherCompounds fuel
      expect ')'
      return .not (c :: cs)
    else throw (.unsupportedPseudo keyword)

/-- Compounds that follow a comma each, with the white space around them. -/
def furtherCompounds : Nat → Reader (List Compound)
  | 0 => return []
  | fuel + 1 => do
    if (← peek) = some ',' then
      advance
      let _ ← skipBlanks
      let c ← compound fuel
      let _ ← skipBlanks
      return c :: (← furtherCompounds fuel)
    else return []

/-- The conditions after the tag of a compound, added to those already read. Of several ids the last
one counts. -/
def conditions : Nat → Compound → Reader Compound
  | 0, c => return c
  | fuel + 1, c => do
    match ← peek with
    | some '#' =>
      advance
      conditions fuel { c with id := some (← name) }
    | some '.' =>
      advance
      conditions fuel { c with classes := c.classes ++ [← name] }
    | some '[' =>
      advance
      conditions fuel { c with attrs := c.attrs ++ [← attrTest] }
    | some ':' =>
      advance
      conditions fuel { c with pseudos := c.pseudos ++ [← pseudo fuel] }
    | _ => return c

/-- A compound, which is not empty. -/
def compound : Nat → Reader Compound
  | 0 => throw .unexpectedEnd
  | fuel + 1 => do
    let start := (← get).position
    let tag ← (do
      match ← peek with
      | some '*' =>
        advance
        return none
      | some ch => if isNameChar ch then return some (← name).toLower else return none
      | none => return none : Reader (Option String))
    let c ← conditions fuel { Compound.any with tag }
    if (← get).position = start then
      match ← peek with
      | some ch => throw (.unexpectedChar ch start)
      | none => throw .unexpectedEnd
    else return c

end

/-- The combinators and compounds after the ones already read, up to a comma or the end. -/
def joined : Nat → Complex → Reader Complex
  | 0, left => return left
  | fuel + 1, left => do
    let spaced ← skipBlanks
    let further (k : Combinator) : Reader Complex := do
      advance
      let _ ← skipBlanks
      joined fuel (.combine left k (← compound fuel))
    match ← peek with
    | none | some ',' => return left
    | some '>' => further .child
    | some '+' => further .adjacent
    | some '~' => further .sibling
    | some ch =>
      if spaced then joined fuel (.combine left .descendant (← compound fuel))
      else throw (.unexpectedChar ch (← get).position)

/-- One alternative. -/
def complex (fuel : Nat) : Reader Complex := do
  let _ ← skipBlanks
  joined fuel (.compound (← compound fuel))

/-- The alternatives that follow a comma each. -/
def furtherAlternatives : Nat → Reader (List Complex)
  | 0 => return []
  | fuel + 1 => do
    if (← peek) = some ',' then
      advance
      let c ← complex fuel
      return c :: (← furtherAlternatives fuel)
    else return []

/-- A whole selector. -/
def selector (fuel : Nat) : Reader Selector := do
  let c ← complex fuel
  return ⟨c :: (← furtherAlternatives fuel)⟩

end Reader

/-- The selector that a source denotes. -/
def parse (source : String) : Except SyntaxError Selector :=
  let cs := source.toList
  match (Reader.selector (2 * cs.length + 2)).run ⟨cs, 0⟩ with
  | .ok s _ => .ok s
  | .error e _ => .error e

end Inlay.Selector
