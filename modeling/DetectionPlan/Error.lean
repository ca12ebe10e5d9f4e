/-
Everything that can go wrong, one constructor for each cause, and the wording
of each in `Failure.message`.
-/
import DetectionPlan.Predicate

namespace DetectionPlan

/-- Why a text is no period, or a period is of no use where it stands. -/
inductive PeriodDefect where
  | noDesignator
  | noComponents
  | emptyTimeSection
  | unitWithoutValue (unit : Char)
  | unexpectedCharacter (c : Char)
  | valueWithoutUnit (digits : String)
  | notWhole (digits : String)
  | fractionDigits (digits : String)
  | unknownDateUnit (unit : Char)
  | unknownTimeUnit (unit : Char)
  | tooManyMonths
  | emptyBucket
deriving DecidableEq, Repr

/-- The wording of a period's defect. -/
def PeriodDefect.message : PeriodDefect → String
  | noDesignator => "must start with 'P'"
  | noComponents => "no components"
  | emptyTimeSection => "empty time section after 'T'"
  | unitWithoutValue unit => "unit '" ++ unit.toString ++ "' has no value"
  | unexpectedCharacter c => "unexpected character '" ++ c.toString ++ "'"
  | valueWithoutUnit digits => "value '" ++ digits ++ "' has no unit"
  | notWhole digits => "'" ++ digits ++ "' is not a whole number"
  | fractionDigits digits => "'" ++ digits ++ "' must have 1 to 3 fractional digits"
  | unknownDateUnit unit => "unknown date unit '" ++ unit.toString ++ "'"
  | unknownTimeUnit unit => "unknown time unit '" ++ unit.toString ++ "'"
  | tooManyMonths => "too many months"
  | emptyBucket => "cannot bucket by an empty period"

/-- How the text of a query fails to parse. -/
inductive SyntaxFault where
  /-- The characters make no token: an unfinished literal or comment. -/
  | token
  /-- The tokens make no statement. -/
  | grammar
  /-- The text nests deeper than the dialect allows. -/
  | nesting
deriving DecidableEq, Repr

/-- A cause of failure. -/
inductive Failure where
  /-- The text is no period, or the period cannot be used here. -/
  | invalidPeriod (input : String) (defect : PeriodDefect)
  | invalidInterval (start stop : Int)
  | timeOutOfRange (millis : Int)
  | columnNotFound (name : String)
  | typeMismatch (column : String) (row : Nat) (expected : String)
  | rowWidth (expected actual : Nat)
  | columnTypes (columns types : Nat)
  /-- The text is no query of the dialect. -/
  | badSyntax (fault : SyntaxFault)
  | unknownBaseDialect (name : String) (known : List String)
  | unknownGrammar (name : String)
  | unknownConformance (name : String)
  | unsupportedFilterOperator (column : String) (operator : FilterOperator)
  | invalidPredicate (column reason : String)
  | missingWhereClause
  | unsupportedQueryShape (reason : String)
  /-- A call with a number of arguments that it does not take. -/
  | callArity (name expected : String) (actual : Nat)
  | callArgument (name reason : String)
  /-- A call whose expansion is no expression of the dialect. -/
  | invalidExpansion (name expansion : String) (fault : SyntaxFault)
  | expressionBuilder (reason : String)
  | duplicateNode (name : String)
  | unknownOperatorType (node type : String)
  | unknownSourceNode (node source : String)
  | unknownSourceOutput (node source output : String)
  | duplicateInput (node property : String)
  | circularDependency (reason : String)
  | invalidParams (node reason : String)
  | missingInput (node property : String)
  | inputType (node property expected actual : String)
  | missingOutput (node output : String)
  | unknownDataSource (node name : String)
  | unknownDetector (node type : String)
  | detector (reason : String)
  | dataSource (name reason : String)
  /-- A node of a plan failed for a cause of its own. -/
  | executionFailed (node : String) (cause : Failure)
  | notInitialized
  | alreadyExecuted
  | config (reason : String)
  /-- The text of a configuration is malformed or does not decode. -/
  | configText
  /-- The text of a plan is malformed or does not decode. -/
  | planText (reason : String)
  /-- A file cannot be read. -/
  | unreadable (reason : String)
deriving Inhabited

namespace Failure

/-- The wording of a failure. -/
def message : Failure → String
  | invalidPeriod input defect =>
    "invalid ISO-8601 period '" ++ input ++ "': " ++ defect.message
  | invalidInterval start stop =>
    s!"invalid detection interval: start {start} is after end {stop}"
  | timeOutOfRange millis => s!"timestamp out of range: {millis}"
  | columnNotFound name => "column not found: " ++ name
  | typeMismatch column row expected => s!"column '{column}' row {row}: expected {expected}"
  | rowWidth expected actual => s!"row has {actual} cells, table has {expected} columns"
  | columnTypes columns types => s!"table has {columns} columns but {types} column types"
  | badSyntax _ => "failed to parse query"
  | unknownBaseDialect name known =>
    "unknown base dialect '" ++ name ++ "' (known: " ++ String.intercalate ", " known ++ ")"
  | unknownGrammar name => "unknown grammar variant '" ++ name ++ "'"
  | unknownConformance name =>
    "unknown conformance '" ++ name ++ "', expected 'default' or 'lenient'"
  | unsupportedFilterOperator column operator =>
    "unsupported filter operator " ++ operator.name ++ " on column '" ++ column ++
      "', only EQ, NEQ and IN can be injected"
  | invalidPredicate column reason => "invalid predicate on column '" ++ column ++ "': " ++ reason
  | missingWhereClause => "query has no WHERE clause to inject filters into"
  | unsupportedQueryShape reason => "unsupported query shape: " ++ reason
  | callArity name expected actual => s!"macro '{name}' takes {expected} arguments, got {actual}"
  | callArgument name reason => "macro '" ++ name ++ "': " ++ reason
  | invalidExpansion name expansion _ =>
    "macro '" ++ name ++ "' expanded to invalid SQL '" ++ expansion ++ "'"
  | expressionBuilder reason => "expression builder: " ++ reason
  | duplicateNode name => "duplicate node name '" ++ name ++ "'"
  | unknownOperatorType node type => "node '" ++ node ++ "' has unknown type '" ++ type ++ "'"
  | unknownSourceNode node source =>
    "node '" ++ node ++ "' references unknown source node '" ++ source ++ "'"
  | unknownSourceOutput node source output =>
    "node '" ++ node ++ "' references output '" ++ output ++ "' that node '" ++ source ++
      "' does not declare"
  | duplicateInput node property =>
    "node '" ++ node ++ "' binds input property '" ++ property ++ "' twice"
  | circularDependency reason => "circular plan dependency: " ++ reason
  | invalidParams node reason => "node '" ++ node ++ "' has invalid params: " ++ reason
  | missingInput node property => "node '" ++ node ++ "' is missing input '" ++ property ++ "'"
  | inputType node property expected actual =>
    "node '" ++ node ++ "' input '" ++ property ++ "' should be a " ++ expected ++
      " result, got " ++ actual
  | missingOutput node output =>
    "node '" ++ node ++ "' did not produce declared output '" ++ output ++ "'"
  | unknownDataSource node name =>
    "node '" ++ node ++ "' uses unknown datasource '" ++ name ++ "'"
  | unknownDetector node type =>
    "node '" ++ node ++ "' uses unknown detector type '" ++ type ++ "'"
  | detector reason => "detector error: " ++ reason
  | dataSource name reason => "datasource '" ++ name ++ "': " ++ reason
  | executionFailed node cause => "node '" ++ node ++ "' failed: " ++ cause.message
  | notInitialized => "operator used before init"
  | alreadyExecuted => "plan was already executed; compile it again for a new run"
  | config reason => "config error: " ++ reason
  | configText => "config parse error"
  | planText reason => "json error: " ++ reason
  | unreadable reason => "I/O error: " ++ reason

end Failure

/-- The outcome of something that may fail. -/
abbrev Outcome := Except Failure

end DetectionPlan
