/-!
# Text of structured values

The one-line descriptions of a controller name the type and list its fields: a record is
`Name { field: text, field: text }`, a list is `[text, text]`, and an optional value is
`Some(text)` or `None`. A record that shows only part of its state ends in `, ..` before the brace.
-/

namespace PicCascade.Text

/-- One field of a record. -/
def field (entry : String × String) : String := entry.1 ++ ": " ++ entry.2

/-- A record that shows all of its fields. -/
def record (name : String) (entries : List (String × String)) : String :=
  name ++ " \x7b " ++ ", ".intercalate (entries.map field) ++ " \x7d"

/-- A record that shows some of its fields. -/
def partialRecord (name : String) (entries : List (String × String)) : String :=
  name ++ " \x7b " ++ ", ".intercalate (entries.map field) ++ ", .. \x7d"

/-- Elements in brackets. -/
def list (elements : List String) : String := "[" ++ ", ".intercalate elements ++ "]"

/-- An optional element. -/
def option : Option String → String
  | some text => "Some(" ++ text ++ ")"
  | none => "None"

/-- `true` or `false`. -/
def flag (b : Bool) : String := if b then "true" else "false"

/-- `1` or `0`. -/
def bit (b : Bool) : String := if b then "1" else "0"

/-- Fills a text with blanks on the left up to a width. -/
def alignRight (width : Nat) (text : String) : String :=
  String.ofList (List.replicate (width - text.length) ' ') ++ text

end PicCascade.Text
