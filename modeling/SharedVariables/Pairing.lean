/-! A file is shared as a control variable and a data variable whose names belong together: `CTL`
with `DAT` and the same rest, or `C` with `D` and the same digits. The long forms pair only with
each other. -/
namespace SharedVariables.Pairing

def areDigits (cs : List Char) : Bool := !cs.isEmpty && cs.all Char.isDigit

def pairedChars? : List Char → Option (List Char)
  | 'C' :: 'T' :: 'L' :: rest => some ('D' :: 'A' :: 'T' :: rest)
  | 'D' :: 'A' :: 'T' :: rest => some ('C' :: 'T' :: 'L' :: rest)
  | 'C' :: rest => if areDigits rest then some ('D' :: rest) else none
  | 'D' :: rest => if areDigits rest then some ('C' :: rest) else none
  | _ => none

def paired? (name : String) : Option String := (pairedChars? name.toList).map String.ofList

def isPair (a b : String) : Bool := paired? a == some b

end SharedVariables.Pairing
