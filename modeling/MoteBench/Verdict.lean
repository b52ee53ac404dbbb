/-! How a run ends. -/
namespace MoteBench

/-- A run whose budget elapses may pass for that reason alone. -/
inductive Verdict where
  | pass
  | fail (reason : String)
  | timeoutPass
  deriving DecidableEq, Repr

namespace Verdict

def isSuccess : Verdict → Bool
  | .fail _ => false
  | _ => true

def render : Verdict → String
  | .pass => "PASS"
  | .fail reason => s!"FAIL: {reason}"
  | .timeoutPass => "PASS (timeout)"

end Verdict

end MoteBench
