import LabelPrinter.Command

namespace LabelPrinter

/-- The commands of one print job. -/
structure Label where
  commands : List Command := []
  deriving DecidableEq, Repr

namespace Label

def add (l : Label) (c : Command) : Label := ⟨l.commands ++ [c]⟩

def size (l : Label) : Nat := l.commands.length

def isEmpty (l : Label) : Bool := l.commands.isEmpty

def mnemonics (l : Label) : List String := l.commands.map Command.mnemonic

/-- All commands in one piece, or the error of the first that cannot be rendered. -/
def serialize (l : Label) : Except ValidationError (List UInt8) :=
  l.commands.foldlM (fun out c => do return out ++ (← c.render)) []

def fragments (l : Label) : Except ValidationError (List (List UInt8)) :=
  l.commands.mapM Command.render

def toText (l : Label) : Except ValidationError String := Utf8.decode <$> l.serialize

end Label

end LabelPrinter
