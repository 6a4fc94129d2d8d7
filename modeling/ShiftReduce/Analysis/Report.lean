/-
This file writes what is known after an analysis: the report on conflicts, the dump of all
results, and the notices given while the analysis is made. A report shows a limited number
of conflicts; a negative limit leaves out conflicts at the end. The notices of an analysis
that fails end where it failed.
-/

import ShiftReduce.Analysis.Basic

namespace ShiftReduce

namespace Analysis

/-- The name that notices and the dump speak under. -/
def speaker : String := "slrparsing.Analysis"

/-! ### The report on conflicts -/

/-- The number of conflicts that a report shows when no other is asked for. -/
def usualLimit : Int := 5

/-- The line of a report on one conflict. -/
def conflictLine (conflict : Conflict) : String :=
  s!"  State I{conflict.state}, symbol '{conflict.symbol}': {conflict.kind.name} conflict " ++
    s!"(existing {conflict.existing.text}, attempted {conflict.attempted.text})"

/-- The last line of a report that leaves conflicts out. -/
def omission (count limit : Int) : List String :=
  if limit < count then [s!"  ...and {count - limit} more."] else []

/-- The report on the conflicts of an analysis. -/
def report (analysis : Analysis) (limit : Int) : String :=
  let conflicts := analysis.table.conflicts
  if conflicts.isEmpty then "Grammar is SLR(1): no conflicts."
  else
    let counted := Text.counted conflicts.length "conflict"
    Text.joined "\n" (s!"Grammar is NOT suitable for SLR(1) parsing: {counted}" ::
      (Position.upTo conflicts limit).map conflictLine ++ omission conflicts.length limit)

/-! ### The dump -/

/-- The lines of a text, moved in by two spaces. -/
def indented (text : String) : List String :=
  (Text.lines text).map fun line => "  " ++ line

/-- A title and the productions of a grammar. -/
def grammarLines (title : String) (grammar : Grammar) : List String :=
  title :: grammar.productions.map fun production => s!"  {production.id}: {production.text}"

/-- The line on the size of the table. -/
def countLine (analysis : Analysis) : String :=
  let states := Text.counted analysis.states.length "state"
  let conflicts := Text.counted analysis.table.conflicts.length "conflict"
  s!"{speaker}: {states}, {conflicts}"

/-- The line on whether the table can be run. -/
def verdictLine (analysis : Analysis) : String :=
  if analysis.table.isDeterministic then "Algorithm compatibility: SLR(1)"
  else "Algorithm compatibility: None, due to conflicts"

/-- All results of an analysis. -/
def text (analysis : Analysis) : String :=
  let terminals := Text.joined " " analysis.augmented.terminals
  let nonTerminals := Text.joined " " analysis.augmented.nonTerminals
  Text.joined "\n" (
    grammarLines "Grammar:" analysis.grammar ++
    grammarLines "Augmented grammar:" analysis.augmented ++
    [s!"Terminals: {terminals}", s!"Non-terminals: {nonTerminals}"] ++
    indented analysis.sets.text ++
    ["Item sets:"] ++
    (analysis.states.flatMap fun state => indented state.text) ++
    [analysis.countLine, analysis.verdictLine, "Parsing tables:", analysis.table.text])

/-- The content of the file an analysis is logged to. -/
def log (analysis : Analysis) : String :=
  analysis.text ++ "\n"

end Analysis

/-! ### Notices -/

/-- What is told while an analysis is made. -/
inductive Notice
  | reading
  | symbols (terminals nonTerminals productions : Nat)
  | states (count : Nat)
  | logging (file : String)
  | report (text : String)
  | finished

namespace Notice

/-- The sentence of a notice, where the time that the analysis took is given. -/
def sentence (elapsed : String) : Notice → String
  | reading => "Reading grammar..."
  | symbols terminals nonTerminals productions =>
      Text.joined ", " [Text.counted terminals "terminal", Text.counted nonTerminals "non-terminal",
        Text.counted productions "production"]
  | states count => Text.counted count "LR(0) state"
  | logging file => s!"Writing log to '{file}'..."
  | report text => text
  | finished => s!"SLR(1) table generation took {elapsed} milliseconds"

/-- A notice behind the name of its speaker. -/
def text (elapsed : String) (notice : Notice) : String :=
  s!"{Analysis.speaker}: {notice.sentence elapsed}"

end Notice

namespace Analysis

/-- The notices from the table on. -/
def closingNotices (logFile : Option String) : Except Fault Analysis → List Notice
  | .error _ => []
  | .ok analysis =>
      (logFile.map Notice.logging).toList ++ [.report (analysis.report usualLimit), .finished]

/-- The notices on the states and after it. -/
def stateNotices (grammar : Grammar) (logFile : Option String) : List Notice :=
  match grammar.augment.bind Grammar.automaton with
  | .error _ => []
  | .ok states => .states states.length :: closingNotices logFile (ofGrammar grammar)

/-- The notices given while the analysis of a source is made. -/
def notices (source : Source) (logFile : Option String) : List Notice :=
  .reading ::
    match source.toGrammar with
    | .error _ => []
    | .ok grammar =>
        if grammar.size = 0 then []
        else
          .symbols grammar.terminals.length grammar.nonTerminals.length grammar.size ::
            stateNotices grammar logFile

end Analysis

end ShiftReduce
