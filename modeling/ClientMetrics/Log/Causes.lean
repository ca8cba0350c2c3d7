/-!
# Errors and their causes

An error is shown with the chain of its causes, outermost first, each on a line of its own.
-/

namespace ClientMetrics

namespace Log

/-- A message and the messages of what caused it. -/
def withCauses (message : String) (causes : List String) : String :=
  causes.foldl (fun text cause => text ++ "\n  caused by: " ++ cause) message

/-- The target of errors that end the program. -/
def errorTarget : String := "csm_log::utils"

/-- An error that nothing caused is only its message. -/
@[simp] theorem withCauses_nil (message : String) : withCauses message [] = message := rfl

end Log

end ClientMetrics
