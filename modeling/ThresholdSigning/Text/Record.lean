namespace ThresholdSigning

/-- A record on one line: its name and its fields in braces, with two dots last where fields are
held back. -/
def recordText (name : String) (fields : List (String × String)) (heldBack : Bool) : String :=
  name ++ " \x7b " ++
    ", ".intercalate
      (fields.map (fun field => field.1 ++ ": " ++ field.2) ++ if heldBack then [".."] else []) ++
    " \x7d"

def listText (items : List String) : String :=
  "[" ++ ", ".intercalate items ++ "]"

end ThresholdSigning
