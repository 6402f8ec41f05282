import StaticDispatch.Tree.Metadata

/-!
# Diagnostics

Messages about places in the source, and how they are counted, ordered and
written.
-/

namespace StaticDispatch

inductive Level where
  | error
  | warning
  | info
deriving DecidableEq, Repr

def Level.name : Level → String
  | .error => "error"
  | .warning => "warning"
  | .info => "info"

structure Diagnostic where
  level : Level
  message : String
  span : Span
deriving DecidableEq, Repr

namespace Diagnostic

def error (span : Span) (message : String) : Diagnostic :=
  { level := .error, message, span }

/-- The position, the level and the message. -/
def text (d : Diagnostic) : String :=
  toString d.span.line ++ ":" ++ toString d.span.column ++ ": " ++ d.level.name ++ ": " ++ d.message

def errorCount (reported : List Diagnostic) : Nat :=
  reported.countP fun d => d.level = .error

def hasErrors (reported : List Diagnostic) : Bool :=
  0 < errorCount reported

def notAfter (a b : Diagnostic) : Bool :=
  a.span.line < b.span.line || (a.span.line == b.span.line && a.span.column ≤ b.span.column)

/-- By line and then by column; diagnostics of one place keep their order. -/
def sortByPosition (reported : List Diagnostic) : List Diagnostic :=
  reported.mergeSort notAfter

end Diagnostic

end StaticDispatch
