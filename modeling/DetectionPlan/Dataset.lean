/-
What a data source knows about a table that queries target.
-/
import DetectionPlan.Json.Decode

namespace DetectionPlan

/-- The name of a dataset and how it stores time. -/
structure Dataset where
  name : String
  timeColumn : Option String := none
  timeFormat : Option String := none
  timezone : Option String := none
deriving DecidableEq, Repr, Inhabited

namespace Dataset

def shape : RecordShape Dataset where
  title := "DatasetMetadata"
  initial := { name := "" }
  slots :=
    let text := Json.decodeOption Json.decodeString
    [.needed "name" Json.decodeString fun v d => { d with name := v },
      .optional "timeColumn" text fun v d => { d with timeColumn := v },
      .optional "timeFormat" text fun v d => { d with timeFormat := v },
      .optional "timezone" text fun v d => { d with timezone := v }]

def toJson (d : Dataset) : Json :=
  .object [("name", .string d.name), ("timeColumn", .ofOption .string d.timeColumn),
    ("timeFormat", .ofOption .string d.timeFormat), ("timezone", .ofOption .string d.timezone)]

end Dataset

end DetectionPlan
