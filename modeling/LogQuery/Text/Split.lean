namespace LogQuery.Text

/-- The parts of a text between the occurrences of a character, at least one part. -/
def splitAt (sep : Char) : List Char → List (List Char)
  | [] => [[]]
  | c :: rest =>
    match splitAt sep rest with
    | [] => [[]]
    | part :: parts => if c = sep then [] :: part :: parts else (c :: part) :: parts

/-- The parts of a text before and behind the first occurrence of a character, if there is one. -/
def splitFirst? (sep : Char) : List Char → Option (List Char × List Char)
  | [] => none
  | c :: rest =>
    if c = sep then some ([], rest) else (splitFirst? sep rest).map fun (before, behind) =>
      (c :: before, behind)

end LogQuery.Text
