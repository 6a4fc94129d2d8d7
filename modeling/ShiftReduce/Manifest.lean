/-
This file states what the package publishes: its version and the names of its interface.
-/

namespace ShiftReduce.Manifest

/-- The published version. -/
def version : String := "1.0.0"

/-- The published names, in the order of code points. -/
def names : List String :=
  ["ACCEPT", "AcceptAction", "ActionEntry", "Analysis", "AnyException", "Conflict",
    "ConflictError", "EOI", "EPSILON", "ERROR", "ErrorAction", "FirstFollowSets", "Grammar",
    "GrammarSyntaxError", "Item", "ItemSet", "NodeArena", "ParseStep", "ParseTrace",
    "ParseTreeNode", "ParsingTable", "Production", "REDUCE", "ReduceAction", "SHIFT",
    "ShiftAction", "SimulationError", "Simulator", "State", "__version__", "analyze",
    "augmentGrammar", "buildAutomaton", "buildTable", "closure", "computeFirstFollow", "goto",
    "parseGrammar"]

end ShiftReduce.Manifest
