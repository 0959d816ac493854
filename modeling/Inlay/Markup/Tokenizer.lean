import Inlay.Markup.Token
import Inlay.Markup.CharReference

/-!
# Tokenizer

The tokenizer of the markup standard, kept in its data state: the contents of `script`, `textarea`
and the like are markup as everything else. It reads one character at a time. `State.step` says
what a character does in a state, `State.finish` what the end of the input does, and `tokenize`
runs them over a text whose line ends have been unified. No input is refused.

A character that ends a construct without belonging to it is handed to the step of the state that
follows, so each step is defined after the ones it hands over to.
-/

namespace Inlay.Markup

/-- A tag whose end has not been read, with its attributes in ascending order of names. -/
structure TagDraft where
  closing : Bool
  name : String
  attrs : List (String × String)

/-- What encloses an attribute value. -/
inductive Quoting where
  | double
  | single
  | unquoted
deriving DecidableEq

/-- An attribute value being read. -/
structure ValueDraft where
  quoting : Quoting
  tag : TagDraft
  name : String
  value : String

/-- Where in the markup the tokenizer stands. -/
inductive State where
  | data
  /-- After `<`. -/
  | tagOpen
  /-- After `</`. -/
  | endTagOpen
  | tagName (t : TagDraft)
  | beforeAttr (t : TagDraft)
  | attrName (t : TagDraft) (name : String)
  | afterAttrName (t : TagDraft) (name : String)
  | beforeValue (t : TagDraft) (name : String)
  | value (v : ValueDraft)
  | afterValue (t : TagDraft)
  /-- After a `/` inside a tag. -/
  | slash (t : TagDraft)
  /-- After `<!` and a part of `--` or `doctype`. -/
  | declaration (seen : String)
  | bogusComment (s : String)
  /-- After `<!--`. -/
  | commentStart
  /-- After `<!---`. -/
  | commentStartDash
  | comment (s : String)
  /-- After a dash inside a comment. -/
  | commentDash (s : String)
  /-- After two dashes inside a comment. -/
  | commentDashes (s : String)
  /-- After `--!` inside a comment. -/
  | commentBang (s : String)
  | doctype
  | textReference (r : Reference)
  | valueReference (v : ValueDraft) (r : Reference)

/-- The state after a character and the tokens that it completed. -/
abbrev Step := State × List Token

/-- The white space of tags. Carriage returns are gone before tokenizing. -/
def isTagSpace (c : Char) : Bool :=
  c == ' ' || c == '\t' || c == '\n' || c == '\x0c'

/-- U+FFFD for NUL, every other character as it is. -/
def noNul (c : Char) : Char :=
  if c = '\x00' then '\ufffd' else c

namespace TagDraft

/-- Adds an attribute, unless one of that name is there. -/
def withAttr (t : TagDraft) (name value : String) : TagDraft :=
  { t with attrs := putAttr name value t.attrs }

/-- The finished tag; the attributes of an end tag are dropped. -/
def token (t : TagDraft) (selfClosing : Bool) : Token :=
  if t.closing then .endTag t.name else .startTag t.name t.attrs selfClosing

/-- The step that a `>` makes at the end of a tag. -/
def close (t : TagDraft) (selfClosing : Bool) : Step :=
  (.data, [t.token selfClosing])

end TagDraft

/-! ### Steps -/

def stepData (c : Char) : Step :=
  if c = '&' then (.textReference .ampersand, [])
  else if c = '<' then (.tagOpen, [])
  else (.data, [.text c.toString])

def stepBogusComment (s : String) (c : Char) : Step :=
  if c = '>' then (.data, [.comment s]) else (.bogusComment (s.push (noNul c)), [])

def stepTagOpen (c : Char) : Step :=
  if c = '!' then (.declaration "", [])
  else if c = '/' then (.endTagOpen, [])
  else if c.isAlpha then (.tagName ⟨false, c.toLower.toString, []⟩, [])
  else if c = '?' then stepBogusComment "" c
  else
    let (s, ts) := stepData c
    (s, .text "<" :: ts)

def stepEndTagOpen (c : Char) : Step :=
  if c.isAlpha then (.tagName ⟨true, c.toLower.toString, []⟩, [])
  else if c = '>' then (.data, [])
  else stepBogusComment "" c

def stepTagName (t : TagDraft) (c : Char) : Step :=
  if isTagSpace c then (.beforeAttr t, [])
  else if c = '/' then (.slash t, [])
  else if c = '>' then t.close false
  else (.tagName { t with name := t.name.push (noNul c.toLower) }, [])

def stepAttrName (t : TagDraft) (name : String) (c : Char) : Step :=
  if isTagSpace c then (.afterAttrName t name, [])
  else if c = '/' then (.slash (t.withAttr name ""), [])
  else if c = '>' then (t.withAttr name "").close false
  else if c = '=' then (.beforeValue t name, [])
  else (.attrName t (name.push (noNul c.toLower)), [])

def stepBeforeAttr (t : TagDraft) (c : Char) : Step :=
  if isTagSpace c then (.beforeAttr t, [])
  else if c = '/' then (.slash t, [])
  else if c = '>' then t.close false
  else if c = '=' then (.attrName t "=", [])
  else stepAttrName t "" c

def stepAfterAttrName (t : TagDraft) (name : String) (c : Char) : Step :=
  if isTagSpace c then (.afterAttrName t name, [])
  else if c = '/' then (.slash (t.withAttr name ""), [])
  else if c = '>' then (t.withAttr name "").close false
  else if c = '=' then (.beforeValue t name, [])
  else stepAttrName (t.withAttr name "") "" c

/-- The character that ends a quoted value, if it is quoted. -/
def Quoting.end? : Quoting → Option Char
  | .double => some '"'
  | .single => some '\''
  | .unquoted => none

def stepValue (v : ValueDraft) (c : Char) : Step :=
  let done := v.tag.withAttr v.name v.value
  if v.quoting.end? = some c then (.afterValue done, [])
  else if c = '&' then (.valueReference v .ampersand, [])
  else if v.quoting = .unquoted ∧ isTagSpace c then (.beforeAttr done, [])
  else if v.quoting = .unquoted ∧ c = '>' then done.close false
  else (.value { v with value := v.value.push (noNul c) }, [])

def stepBeforeValue (t : TagDraft) (name : String) (c : Char) : Step :=
  if isTagSpace c then (.beforeValue t name, [])
  else if c = '"' then (.value ⟨.double, t, name, ""⟩, [])
  else if c = '\'' then (.value ⟨.single, t, name, ""⟩, [])
  else if c = '>' then (t.withAttr name "").close false
  else stepValue ⟨.unquoted, t, name, ""⟩ c

def stepAfterValue (t : TagDraft) (c : Char) : Step :=
  if isTagSpace c then (.beforeAttr t, [])
  else if c = '/' then (.slash t, [])
  else if c = '>' then t.close false
  else stepBeforeAttr t c

def stepSlash (t : TagDraft) (c : Char) : Step :=
  if c = '>' then t.close true else stepBeforeAttr t c

def stepDeclaration (seen : String) (c : Char) : Step :=
  let s := seen.push c
  if s = "--" then (.commentStart, [])
  else if s.toLower = "doctype" then (.doctype, [])
  else if s = "-" ∨ s.toLower.toList.isPrefixOf "doctype".toList then (.declaration s, [])
  else stepBogusComment seen c

def stepComment (s : String) (c : Char) : Step :=
  if c = '-' then (.commentDash s, []) else (.comment (s.push (noNul c)), [])

def stepCommentStart (c : Char) : Step :=
  if c = '-' then (.commentStartDash, [])
  else if c = '>' then (.data, [.comment ""])
  else stepComment "" c

def stepCommentDash (s : String) (c : Char) : Step :=
  if c = '-' then (.commentDashes s, []) else stepComment (s.push '-') c

def stepCommentStartDash (c : Char) : Step :=
  if c = '>' then (.data, [.comment ""]) else stepCommentDash "" c

def stepCommentDashes (s : String) (c : Char) : Step :=
  if c = '>' then (.data, [.comment s])
  else if c = '!' then (.commentBang s, [])
  else if c = '-' then (.commentDashes (s.push '-'), [])
  else stepComment (s ++ "--") c

def stepCommentBang (s : String) (c : Char) : Step :=
  if c = '-' then (.commentDash (s ++ "--!"), [])
  else if c = '>' then (.data, [.comment s])
  else stepComment (s ++ "--!") c

def stepDoctype (c : Char) : Step :=
  if c = '>' then (.data, [.doctype]) else (.doctype, [])

def stepTextReference (r : Reference) (c : Char) : Step :=
  match r.extend? c with
  | some r => (.textReference r, [])
  | none =>
    match r.close false (some c) with
    | (text, true) => (.data, [.text text])
    | (text, false) =>
      let (s, ts) := stepData c
      (s, .text text :: ts)

def stepValueReference (v : ValueDraft) (r : Reference) (c : Char) : Step :=
  match r.extend? c with
  | some r => (.valueReference v r, [])
  | none =>
    match r.close true (some c) with
    | (text, true) => (.value { v with value := v.value ++ text }, [])
    | (text, false) => stepValue { v with value := v.value ++ text } c

/-- What a character does in a state. -/
def State.step : State → Char → Step
  | data => stepData
  | tagOpen => stepTagOpen
  | endTagOpen => stepEndTagOpen
  | tagName t => stepTagName t
  | beforeAttr t => stepBeforeAttr t
  | attrName t name => stepAttrName t name
  | afterAttrName t name => stepAfterAttrName t name
  | beforeValue t name => stepBeforeValue t name
  | value v => stepValue v
  | afterValue t => stepAfterValue t
  | slash t => stepSlash t
  | declaration seen => stepDeclaration seen
  | bogusComment s => stepBogusComment s
  | commentStart => stepCommentStart
  | commentStartDash => stepCommentStartDash
  | comment s => stepComment s
  | commentDash s => stepCommentDash s
  | commentDashes s => stepCommentDashes s
  | commentBang s => stepCommentBang s
  | doctype => stepDoctype
  | textReference r => stepTextReference r
  | valueReference v r => stepValueReference v r

/-- What the end of the input does in a state. A tag that is not finished is dropped. -/
def State.finish : State → List Token
  | tagOpen => [.text "<"]
  | endTagOpen => [.text "</"]
  | declaration seen => [.comment seen]
  | commentStart | commentStartDash => [.comment ""]
  | bogusComment s | comment s | commentDash s | commentDashes s | commentBang s => [.comment s]
  | doctype => [.doctype]
  | textReference r => [.text (r.close false none).1]
  | data | tagName _ | beforeAttr _ | attrName _ _ | afterAttrName _ _ | beforeValue _ _
  | value _ | afterValue _ | slash _ | valueReference _ _ => []

/-! ### Running -/

/-- A carriage return, alone or with a line feed behind it, becomes a line feed. -/
def unifyLineEnds : List Char → List Char
  | [] => []
  | '\r' :: '\n' :: cs => '\n' :: unifyLineEnds cs
  | c :: cs => (if c = '\r' then '\n' else c) :: unifyLineEnds cs

/-- The tokens of the rest of a text, read from a state on. -/
def State.run : State → List Char → List Token
  | s, [] => s.finish
  | s, c :: cs => (s.step c).2 ++ run (s.step c).1 cs

/-- The tokens of a text. -/
def tokenize (markup : String) : List Token :=
  State.data.run (unifyLineEnds markup.toList)

end Inlay.Markup
