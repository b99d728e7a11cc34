import WebComponents.Files.SystemError
import WebComponents.Path.Basic

/-!
# Problems with files

A problem says what was being done, with which path, and why that failed.
-/

namespace WebComponents.Files

/-- An activity that failed. -/
structure Problem where
  activity : Activity
  path : Path
  cause : SystemError
  deriving DecidableEq, Repr

/-- The problem in words, without its cause. -/
def Problem.message (problem : Problem) : String :=
  problem.activity.message ++ problem.path.text

/-- The problem in words, with its cause. -/
def Problem.fullMessage (problem : Problem) : String :=
  problem.message ++ ": " ++ problem.cause.message

end WebComponents.Files
