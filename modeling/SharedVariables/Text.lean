/-! Texts as people and programs read them: numerals, columns, cuts at a number of bytes, white
space of every script, and lists with a mark between their words. -/
namespace SharedVariables.Text

/-- The digits of a number in a base up to sixteen, led by zeros up to `width`. -/
def numeral (base width n : Nat) : String :=
  let digits := Nat.toDigits base n
  String.ofList (List.replicate (width - digits.length) '0' ++ digits)

def decimal (n : Nat) : String := numeral 10 1 n

def hexadecimal (width n : Nat) : String := "0x" ++ numeral 16 width n

def binary (width n : Nat) : String := "0b" ++ numeral 2 width n

/-- Fills a cell of a table with spaces on the right. The width counts code points, and a longer
cell is kept whole. -/
def column (width : Nat) (cell : String) : String :=
  cell ++ String.ofList (List.replicate (width - cell.toList.length) ' ')

/-- The longest run of leading characters that takes at most `room` bytes. -/
def cutChars : Nat → List Char → List Char
  | _, [] => []
  | room, c :: rest => if c.utf8Size ≤ room then c :: cutChars (room - c.utf8Size) rest else []

def cut (room : Nat) (s : String) : String :=
  if s.utf8ByteSize ≤ room then s else String.ofList (cutChars room s.toList)

def blankRanges : List (Nat × Nat) :=
  [(0x9, 0xd), (0x20, 0x20), (0x85, 0x85), (0xa0, 0xa0), (0x1680, 0x1680), (0x2000, 0x200a),
   (0x2028, 0x2029), (0x202f, 0x202f), (0x205f, 0x205f), (0x3000, 0x3000)]

def isBlank (c : Char) : Bool :=
  blankRanges.any fun r => r.1 ≤ c.toNat && c.toNat ≤ r.2

def joinChars (mark : Char) : List (List Char) → List Char
  | [] => []
  | [word] => word
  | word :: rest => word ++ mark :: joinChars mark rest

/-- Cuts at every mark; there is one more piece than there are marks. -/
def splitChars (mark : Char) : List Char → List (List Char)
  | [] => [[]]
  | c :: cs =>
    if c = mark then [] :: splitChars mark cs
    else
      match splitChars mark cs with
      | [] => [[c]]
      | word :: rest => (c :: word) :: rest

def join (mark : Char) (words : List String) : String :=
  String.ofList (joinChars mark (words.map String.toList))

def split (mark : Char) (s : String) : List String := (splitChars mark s.toList).map String.ofList

end SharedVariables.Text
