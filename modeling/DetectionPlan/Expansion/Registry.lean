/-
Placeholder functions: names that a query may call and that are replaced before
the query is sent. A replacement is made of the text of the arguments and of
what is known about the request, and may leave properties of the request.
-/
import DetectionPlan.Dataset
import DetectionPlan.Interval
import DetectionPlan.Properties
import DetectionPlan.Sql.Dialect
import DetectionPlan.TimeExpression.Basic

namespace DetectionPlan

/-- What is known about a request while it is prepared. -/
structure RequestScope where
  expressions : TimeExpressions
  interval : Interval
  dataset : Option Dataset := none
  render : Sql.RenderSettings := {}

namespace RequestScope

/-- The time zone to bucket in. -/
def timezone (s : RequestScope) : Option String := s.dataset.bind (·.timezone)

/-- The format in which the dataset stores time in a column. A dataset that
does not name its time column means any column. -/
def timeFormatOf (s : RequestScope) (column : String) : Option String :=
  match s.dataset with
  | none => none
  | some d =>
    if d.timeColumn.all (· == column) then d.timeFormat else none

end RequestScope

/-- Work that leaves properties of the request. -/
abbrev Preparing := StateT Properties Outcome

/-- Write a well-known property of the request. -/
def writeProperty (key : PropertyKey) (value : String) : Preparing Unit :=
  modify (·.put key value)

/-- A placeholder function. -/
structure Placeholder where
  name : String
  /-- The text that replaces a call with arguments. -/
  expand : RequestScope → (arguments : List String) → Preparing String

/-- The placeholder functions known to a request, in the order of their first
registration. Names that differ in case only are the same. -/
structure PlaceholderRegistry where
  entries : List Placeholder := []

namespace PlaceholderRegistry

def empty : PlaceholderRegistry := {}

/-- Whether a placeholder goes by a name. -/
def goesBy (name : String) (p : Placeholder) : Bool := asciiLower p.name == asciiLower name

/-- The placeholder of a name. -/
def get? (r : PlaceholderRegistry) (name : String) : Option Placeholder :=
  r.entries.find? (goesBy name)

/-- Put a placeholder in the place of the one of its name, or at the end. -/
def registerIn (p : Placeholder) : List Placeholder → List Placeholder
  | [] => [p]
  | q :: rest => if goesBy p.name q then p :: rest else q :: registerIn p rest

/-- Add a placeholder, which replaces the one of its name. -/
def register (r : PlaceholderRegistry) (p : Placeholder) : PlaceholderRegistry :=
  ⟨registerIn p r.entries⟩

def names (r : PlaceholderRegistry) : List String := r.entries.map (·.name)

def size (r : PlaceholderRegistry) : Nat := r.entries.length

/-- The names as a line of text. -/
def text (r : PlaceholderRegistry) : String :=
  "[" ++ String.intercalate ", " (r.names.map shown) ++ "]"

theorem find?_registerIn (p : Placeholder) (name : String) (es : List Placeholder) :
    (registerIn p es).find? (goesBy name) =
      if goesBy name p then some p else es.find? (goesBy name) := by
  induction es with
  | nil => by_cases h : goesBy name p <;> simp [registerIn, h]
  | cons q rest ih =>
    by_cases same : goesBy p.name q = true
    · have : goesBy name q = goesBy name p := by
        have : asciiLower q.name = asciiLower p.name := by simpa [goesBy] using same
        simp [goesBy, this]
      by_cases h : goesBy name p <;> simp [registerIn, same, h, this]
    · by_cases h : goesBy name q = true
      · have : goesBy name p = false := by
          by_cases g : goesBy name p = true
          · have hq : asciiLower q.name = asciiLower name := by simpa [goesBy] using h
            have hp : asciiLower p.name = asciiLower name := by simpa [goesBy] using g
            exact absurd (by simp [goesBy, hq, hp]) same
          · simpa using g
        simp [registerIn, same, h, this]
      · simp [registerIn, same, h, ih]

/-- A name finds the placeholder registered last under it. -/
theorem get?_register (r : PlaceholderRegistry) (p : Placeholder) (name : String) :
    (r.register p).get? name = if goesBy name p then some p else r.get? name :=
  find?_registerIn p name r.entries

end PlaceholderRegistry

end DetectionPlan
