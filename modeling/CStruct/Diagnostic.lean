import CStruct.Text.Position

/-!
# Diagnostics

A `Diagnostic` is a remark about a span of the source. Reading a source never stops at a problem:
its diagnostics are collected in `Diagnostics`, in the order in which they were reported, and
reading goes on.
-/

namespace CStruct

/-- How grave a diagnostic is. An error keeps a source from being laid out; a warning does not. -/
inductive Severity where
  | error
  | warning
  deriving DecidableEq, Inhabited

namespace Severity

instance : ToString Severity :=
  ⟨fun
    | .error => "error"
    | .warning => "warning"⟩

end Severity

/-- A remark about a span of the source. -/
structure Diagnostic where
  span : Span
  severity : Severity
  message : String
  deriving DecidableEq, Inhabited

namespace Diagnostic

def isError (d : Diagnostic) : Bool := d.severity == .error

/-- A diagnostic is shown at the start of its span. -/
instance : ToString Diagnostic :=
  ⟨fun d =>
    let start := d.span.start
    s!"{d.severity} at line {start.line + 1}, character {start.character + 1}: {d.message}"⟩

end Diagnostic

/-- The diagnostics reported so far. -/
structure Diagnostics where
  entries : Array Diagnostic := #[]
  deriving DecidableEq, Inhabited

namespace Diagnostics

/-- Reports a diagnostic after those that are there. -/
def report (ds : Diagnostics) (d : Diagnostic) : Diagnostics := ⟨ds.entries.push d⟩

def error (ds : Diagnostics) (span : Span) (message : String) : Diagnostics :=
  ds.report ⟨span, .error, message⟩

def warn (ds : Diagnostics) (span : Span) (message : String) : Diagnostics :=
  ds.report ⟨span, .warning, message⟩

def size (ds : Diagnostics) : Nat := ds.entries.size

def isEmpty (ds : Diagnostics) : Bool := ds.entries.isEmpty

/-- The diagnostics in the order in which they were reported. -/
def toList (ds : Diagnostics) : List Diagnostic := ds.entries.toList

/-- The diagnostic reported last. -/
def last? (ds : Diagnostics) : Option Diagnostic := ds.entries.back?

def hasErrors (ds : Diagnostics) : Bool := ds.toList.any Diagnostic.isError

@[simp] theorem toList_empty : ({} : Diagnostics).toList = [] := rfl

@[simp] theorem toList_report (ds : Diagnostics) (d : Diagnostic) :
    (ds.report d).toList = ds.toList ++ [d] :=
  Array.toList_push

end Diagnostics

end CStruct
