import Inlay.Selector.Syntax
import Inlay.Text.Quoted

/-!
# Messages about selectors

The text for each reason why a source is no selector. Positions count characters from zero.
-/

namespace Inlay.Selector

/-- The message about an error in the given source. -/
def SyntaxError.message (source : String) : SyntaxError → String
  | expectedChar c position =>
    "expected " ++ Text.quotedChar c ++ " at position " ++ toString position ++
      " in selector " ++ Text.quoted source
  | expectedName position =>
    "expected a name at position " ++ toString position ++ " in selector " ++ Text.quoted source
  | unexpectedChar c position =>
    "unexpected " ++ Text.quotedChar c ++ " at position " ++ toString position ++
      " in selector " ++ Text.quoted source
  | unexpectedEnd => "selector " ++ Text.quoted source ++ " ends where a selector was expected"
  | unterminatedString => "unterminated string in selector " ++ Text.quoted source
  | unclosedParenthesis => "missing ')' in selector " ++ Text.quoted source
  | badNth argument => "invalid :nth-child argument " ++ Text.quoted argument
  | unsupportedPseudo name =>
    "unsupported pseudo-class :" ++ name ++ " in selector " ++ Text.quoted source

end Inlay.Selector
