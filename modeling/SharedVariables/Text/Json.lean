import SharedVariables.Text

/-! Indented JSON. A value is written for the depth at which it stands: two spaces for each level,
one member or item a line, and `[]` for an empty list. -/
namespace SharedVariables.Text.Json

abbrev Block := Nat → String

/-- A character inside quotation marks. Marks, backslashes and control characters are escaped. -/
def escaped (c : Char) : String :=
  if c = '"' then "\\\""
  else if c = '\\' then "\\\\"
  else if c = '\x08' then "\\b"
  else if c = '\t' then "\\t"
  else if c = '\n' then "\\n"
  else if c = '\x0c' then "\\f"
  else if c = '\r' then "\\r"
  else if c.toNat < 32 then "\\u" ++ numeral 16 4 c.toNat
  else c.toString

def quoted (s : String) : Block := fun _ => "\"" ++ String.join (s.toList.map escaped) ++ "\""

def number (n : Nat) : Block := fun _ => decimal n

def flag (b : Bool) : Block := fun _ => if b then "true" else "false"

def null : Block := fun _ => "null"

def optional {α : Type} (value : Option α) (write : α → Block) : Block :=
  match value with
  | some a => write a
  | none => null

def margin (depth : Nat) : String := String.ofList (List.replicate (2 * depth) ' ')

def enclosed (opening closing : String) (lines : List String) (depth : Nat) : String :=
  if lines.isEmpty then opening ++ closing
  else
    opening ++ "\n" ++
      String.intercalate ",\n" (lines.map fun line => margin (depth + 1) ++ line) ++ "\n" ++
      margin depth ++ closing

def list (items : List Block) : Block := fun depth =>
  enclosed "[" "]" (items.map fun item => item (depth + 1)) depth

def object (members : List (String × Block)) : Block := fun depth =>
  enclosed "\x7b" "\x7d"
    (members.map fun (name, value) => quoted name 0 ++ ": " ++ value (depth + 1)) depth

end SharedVariables.Text.Json
