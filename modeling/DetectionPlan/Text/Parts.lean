/-
Cutting a text at a character or at a word.
-/

namespace DetectionPlan

/-- The parts of a text between the occurrences of a character. -/
def partsAt (separator : Char) : List Char → List (List Char)
  | [] => [[]]
  | c :: rest =>
    if c == separator then [] :: partsAt separator rest
    else match partsAt separator rest with
      | first :: more => (c :: first) :: more
      | [] => [[c]]

/-- What stands before the first occurrence of a word, and what after it. -/
def cutAt? (word : List Char) : List Char → Option (List Char × List Char)
  | [] => if word.isEmpty then some ([], []) else none
  | c :: rest =>
    if word.isPrefixOf (c :: rest) then some ([], (c :: rest).drop word.length)
    else (cutAt? word rest).map fun (before, after) => (c :: before, after)

end DetectionPlan
