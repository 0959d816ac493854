/-!
# Markup tokens

What a markup text is made of, before any nesting is considered.
-/

namespace Inlay.Markup

/-- One piece of markup. Consecutive `text` tokens belong together. -/
inductive Token where
  | text (s : String)
  | startTag (name : String) (attrs : List (String × String)) (selfClosing : Bool)
  | endTag (name : String)
  | comment (s : String)
  | doctype
  /-- A mistake in the markup, from which the reader of the text has recovered. -/
  | error
deriving DecidableEq

/-- Adds an attribute to a list in ascending order of names. An attribute that is already there
stays as it is. -/
def putAttr (name value : String) : List (String × String) → List (String × String)
  | [] => [(name, value)]
  | (k, v) :: rest =>
    if name < k then (name, value) :: (k, v) :: rest
    else if name = k then (k, v) :: rest
    else (k, v) :: putAttr name value rest

end Inlay.Markup
