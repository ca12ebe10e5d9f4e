/-
Upper and lower case of texts in any script. The case of a character may be
several characters (`ß` is `SS` in upper case), and a capital sigma at the end
of a word has a lower case of its own.
-/
import DetectionPlan.Text.CaseTable

namespace DetectionPlan

/-- The ASCII letters of a text in lower case, all else as it is. -/
def asciiLower (s : String) : String := s.map Char.toLower

/-- The ASCII letters of a text in upper case, all else as it is. -/
def asciiUpper (s : String) : String := s.map Char.toUpper

/-- Look a character up in the run table and in the table of long forms; a
character in neither is its own image. -/
def mapCase (runs : Array CaseRun) (long : Array (Nat × List Nat)) (c : Char) : List Char :=
  match long.find? (·.1 == c.toNat) with
  | some (_, image) => image.map Char.ofNat
  | none =>
    match runs.find? (·.covers c.toNat) with
    | some run => [Char.ofNat (run.image c.toNat)]
    | none => [c]

/-- The upper case of one character. -/
def upperCase (c : Char) : List Char :=
  if c.toNat < 0x80 then [c.toUpper] else mapCase CaseRun.toUpper longUpper c

/-- The lower case of one character, wherever it stands. -/
def lowerCase (c : Char) : List Char :=
  if c.toNat < 0x80 then [c.toLower] else mapCase CaseRun.toLower longLower c

/-- Whether the nearest character that is not skipped over is a cased one. -/
def facesCased (cs : List Char) : Bool :=
  match cs.dropWhile CharSet.caseIgnorable.contains with
  | c :: _ => CharSet.cased.contains c
  | [] => false

/-- Lower case, given what stands before in reverse. A capital sigma that ends
a word becomes `ς`. -/
def lowerFrom (before : List Char) : List Char → List Char
  | [] => []
  | c :: rest =>
    let image :=
      if c.toNat == 0x3A3 then
        [if facesCased before && !facesCased rest then Char.ofNat 0x3C2 else Char.ofNat 0x3C3]
      else lowerCase c
    image ++ lowerFrom (c :: before) rest

/-- A text in upper case. -/
def toUpperCase (s : String) : String := String.ofList (s.toList.flatMap upperCase)

/-- A text in lower case. -/
def toLowerCase (s : String) : String := String.ofList (lowerFrom [] s.toList)

end DetectionPlan
