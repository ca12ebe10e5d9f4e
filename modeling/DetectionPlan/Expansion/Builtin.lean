/-
The placeholder functions that every request knows: `__timeFilter` keeps a time
column within the interval, and `__timeGroup` rounds it down to buckets.
-/
import DetectionPlan.Expansion.Registry
import DetectionPlan.Period.Parser

namespace DetectionPlan

namespace Placeholder

/-- A period given as an argument. -/
def periodArgument (name text : String) : Outcome Period :=
  (Period.parse text).mapError fun e => .callArgument name e.message

/-- A lookback given as an argument; without one there is none. -/
def lookbackArgument (name : String) : Option String → Outcome Period
  | some text => periodArgument name text
  | none => .ok Period.zero

def timeFilterName : String := "__timeFilter"

/-- The condition that a column lies within the interval moved back by a
lookback at each end. -/
def filterColumn (s : RequestScope) (column : String) (fromStart fromStop : Option String) :
    Preparing String := do
  let fromStart ← lookbackArgument timeFilterName fromStart
  let fromStop ← lookbackArgument timeFilterName fromStop
  let bounds ← s.interval.withLookback fromStart fromStop
  writeProperty .timeColumn column
  writeProperty .minTimeMillis (toString bounds.start)
  writeProperty .maxTimeMillis (toString bounds.stop)
  match s.timeFormatOf column with
  | some format =>
    let format ← TimeFormat.parse format
    s.expressions.filterIn column bounds.start bounds.stop format
  | none => s.expressions.filter column bounds.start bounds.stop

/-- `__timeFilter(column, fromStart, fromEnd)`, of which the lookbacks may be
left out. -/
def timeFilter : Placeholder where
  name := timeFilterName
  expand s arguments :=
    match arguments with
    | [column] => filterColumn s column none none
    | [column, fromStart] => filterColumn s column fromStart none
    | [column, fromStart, fromStop] => filterColumn s column fromStart fromStop
    | _ => throw (.callArity timeFilterName "1 to 3" arguments.length)

def timeGroupName : String := "__timeGroup"

/-- `__timeGroup(column, format, granularity)`. -/
def timeGroup : Placeholder where
  name := timeGroupName
  expand s arguments :=
    match arguments with
    | [column, format, granularity] => do
      let granularity ← periodArgument timeGroupName granularity
      writeProperty .granularity granularity.text
      s.expressions.group column format granularity s.timezone
    | _ => throw (.callArity timeGroupName "3" arguments.length)

end Placeholder

/-- The registry of the placeholders that every request knows. -/
def PlaceholderRegistry.builtin : PlaceholderRegistry :=
  ⟨[Placeholder.timeFilter, Placeholder.timeGroup]⟩

end DetectionPlan
