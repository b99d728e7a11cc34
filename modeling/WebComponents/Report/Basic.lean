/-!
# Reports

A command ends with a report, a sequence of lines of a few kinds.  On a terminal, warnings and
errors go to the error stream and all else to the output stream, each in its order.
-/

namespace WebComponents.Report

/-- A line of a report. -/
inductive Line where
  | heading (text : String)
  | pair (key value : String)
  | item (text : String)
  | warning (text : String)
  | error (text : String)
  | verbatim (text : String)
  | blank
  deriving DecidableEq, Repr

/-- The text of a line that goes to the output stream. -/
def Line.outputText : Line → String
  | .heading text => text ++ ":\n"
  | .pair key value => key ++ ": " ++ value ++ "\n"
  | .item text => "  - " ++ text ++ "\n"
  | .verbatim text => text ++ "\n"
  | .blank => "\n"
  | .warning _ | .error _ => ""

/-- The text of a line that goes to the error stream. -/
def Line.errorText : Line → String
  | .warning text => "warning: " ++ text ++ "\n"
  | .error text => "error: " ++ text ++ "\n"
  | _ => ""

/-- The text on the output stream. -/
def outputText (lines : List Line) : String :=
  String.join (lines.map Line.outputText)

/-- The text on the error stream. -/
def errorText (lines : List Line) : String :=
  String.join (lines.map Line.errorText)

end WebComponents.Report
