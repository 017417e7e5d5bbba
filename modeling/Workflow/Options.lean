import Workflow.Outline

/-!
# Options of a graph

How a run treats failures is the one option that a host can load from its own
configuration.
-/

namespace Workflow

/-- What a run does when a node fails. -/
inductive FailureHandling
  /-- Stop at the first failed node. -/
  | halt
  /-- Go on along the transitions; the context stays failed. -/
  | chainOfCommand
  deriving DecidableEq

instance : Inhabited FailureHandling := ⟨.halt⟩

/-- The options of a graph. -/
structure Options where
  failureHandling : FailureHandling := .halt
  deriving DecidableEq

instance : Inhabited Options := ⟨{}⟩

def FailureHandling.outline : FailureHandling → Outline
  | .halt => .word "Halt"
  | .chainOfCommand => .word "ChainOfCommand"

def Options.outline (options : Options) : Outline :=
  .record "GraphOptions" [("failure_handling", options.failureHandling.outline)]

end Workflow
