import Quill.Tree.Basic

/-!
# Settings

What a parse can be told: which node a slash becomes, and how deep blocks and expressions may stand
inside each other.
-/

namespace Quill

/-- Which node `a / b` becomes. -/
inductive Division where
  | distinct
  | legacySubtraction
  deriving DecidableEq

namespace Division

/-- The name the mode goes by in settings. -/
def name : Division → String
  | distinct => "distinct"
  | legacySubtraction => "legacy_subtraction"

/-- The mode with the given name. -/
def ofName? (name : String) : Option Division :=
  [distinct, legacySubtraction].find? fun d => d.name == name

/-- The operator that a slash stands for: division, or subtraction for evaluators that expect the
trees of the first grammar. -/
def slash : Division → BinaryOp
  | distinct => .div
  | legacySubtraction => .sub

end Division

/-- The settings of one parse. -/
structure Settings where
  division : Division := .distinct
  maxDepth : Nat := 128
  deriving DecidableEq

end Quill
