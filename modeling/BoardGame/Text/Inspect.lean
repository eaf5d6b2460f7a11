/-!
One-line texts of structured values, for diagnostics: named records, tuples, lists, maps and quoted
texts.
-/

namespace BoardGame.Inspect

def commas (items : List String) : String := ", ".intercalate items

def list (items : List String) : String := "[" ++ commas items ++ "]"

def tuple (name : String) (items : List String) : String := name ++ "(" ++ commas items ++ ")"

def pairs (entries : List (String × String)) : String :=
  commas (entries.map fun e => e.1 ++ ": " ++ e.2)

def map (entries : List (String × String)) : String := "\x7b" ++ pairs entries ++ "\x7d"

def record (name : String) (fields : List (String × String)) : String :=
  name ++ " \x7b " ++ pairs fields ++ " \x7d"

/-- A record that has more to it than is shown. -/
def openRecord (name : String) (fields : List (String × String)) : String :=
  name ++ " \x7b " ++ pairs fields ++ ", .. \x7d"

def option : Option String → String
  | none => "None"
  | some text => tuple "Some" [text]

end BoardGame.Inspect
