/-!
# Diagnostics

Warnings that change nothing: they are collected in a list, in the order in which they came up.
-/

namespace Inlay

/-- The index of an element among the elements below the root of a template, in document order, the
content of placeholders not counted. -/
abbrev Position := Nat

/-- A warning. -/
inductive Diagnostic where
  /-- Both a signal and a timeout were given; the signal is used. -/
  | signalOverridesTimeout
  /-- The option is accepted but has no effect. -/
  | unsupportedOption (name : String)
  | unknownAttribute (tag name : String)
  /-- A trigger fired while the previous request of its placeholder was running. -/
  | triggerDropped (position : Position)
deriving DecidableEq

def Diagnostic.message : Diagnostic → String
  | signalOverridesTimeout => "the signal option overrides the signal derived from timeout"
  | unsupportedOption name => "the " ++ name ++ " option is not yet supported"
  | unknownAttribute tag name => "unknown attribute " ++ name ++ " on <" ++ tag ++ ">"
  | triggerDropped position =>
    "placeholder at position " ++ toString position ++
      ": trigger ignored, previous request still in flight"

end Inlay
