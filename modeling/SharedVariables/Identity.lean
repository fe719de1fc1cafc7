import SharedVariables.Text

/-! Processors are named by a number and the numbers of the two processors above them. A processor
that goes away takes its children and grandchildren along, which `dependsOn` decides from the names
alone. -/
namespace SharedVariables

structure Identity where
  proc : UInt32
  parent : UInt32
  grand : UInt32
deriving DecidableEq, Inhabited

namespace Identity

def generalNumber : UInt32 := 0

def unusedNumber : UInt32 := 4294967295

/-- Interpreters have this number or a larger one; auxiliary processors have smaller ones. -/
def firstInterpreter : UInt32 := 1000

def general : Identity := ⟨generalNumber, generalNumber, generalNumber⟩

def nobody : Identity := ⟨unusedNumber, unusedNumber, unusedNumber⟩

def isGeneral (i : Identity) : Bool := i.proc == generalNumber
def isNobody (i : Identity) : Bool := i.proc == unusedNumber

def isAuxiliary (i : Identity) : Bool := !i.isGeneral && !i.isNobody && i.proc < firstInterpreter

def isInterpreter (i : Identity) : Bool := !i.isNobody && firstInterpreter ≤ i.proc

/-- Whether `ancestor` is the parent or the grandparent. A parent agrees on both levels that it
shares with its child; a grandparent is recognised by its number alone. -/
def dependsOn (i ancestor : Identity) : Bool :=
  !(ancestor.isGeneral || ancestor.isNobody || i == ancestor) &&
    ((i.parent == ancestor.proc && i.grand == ancestor.parent) || i.grand == ancestor.proc)

/-- Identities are ordered by their numbers, the processor first and the grandparent last. -/
def rank (i : Identity) :
    Nat := (i.proc.toNat * 4294967296 + i.parent.toNat) * 4294967296 + i.grand.toNat

def compare (i j : Identity) : Ordering := Ord.compare i.rank j.rank

def text (i : Identity) : String :=
  if i.isNobody then "-"
  else Text.decimal i.proc.toNat ++ "." ++ Text.decimal i.parent.toNat ++ "." ++
    Text.decimal i.grand.toNat

end Identity
end SharedVariables
