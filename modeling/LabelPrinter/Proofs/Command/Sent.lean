import LabelPrinter.Proofs.Command.Lines
import LabelPrinter.Proofs.Command.SymbolLines
import LabelPrinter.Proofs.Line.Options

/-!
What a command tells the printer: absent parameters stand for their defaults, the two zeros are
one, and a MaxiCode has only the parameters that its mode sends.
-/

namespace LabelPrinter

open Number

def Size.sent (c : Size) : Size :=
  { c with width := c.width.map positiveZero, height := c.height.map positiveZero }

def Gap.sent (c : Gap) : Gap :=
  { c with distance := c.distance.map positiveZero, offset := c.offset.map positiveZero }

def Offset.sent (c : Offset) : Offset := { c with distance := c.distance.map positiveZero }

def Speed.sent (c : Speed) : Speed := ⟨c.speed.map positiveZero⟩

def Box.sent (c : Box) : Box := { c with radius := some (c.radius.getD 0) }

def Text.sent (c : Text) : Text :=
  { c with xMultiplier := c.xMultiplier.map positiveZero
           yMultiplier := c.yMultiplier.map positiveZero }

def Aztec.sent (c : Aztec) : Aztec :=
  { c with moduleSize := some (c.moduleSize.getD 6)
           errorControl := some (c.errorControl.getD 0)
           escapeFlag := some (c.escapeFlag.getD 0)
           menu := some (c.menu.getD false)
           multi := some (c.multi.getD 6)
           reversed := some (c.reversed.getD false) }

def MaxiCode.sent (c : MaxiCode) : MaxiCode :=
  if c.mode.any isStructured then { c with expressionLength := none }
  else { c with serviceClass := none, country := none, postcode := none }

namespace Command

def sent : Command → Command
  | .size c => .size c.sent
  | .gap c => .gap c.sent
  | .offset c => .offset c.sent
  | .speed c => .speed c.sent
  | .box c => .box c.sent
  | .text c => .text c.sent
  | .maxiCode c => .maxiCode c.sent
  | .aztec c => .aztec c.sent
  | c => c

/-- Two types have positional options that can stand for each other; elsewhere text in front of a
quote or a comma must not contain one. -/
def Decodable : Command → Prop
  | .codablock _ | .dataMatrix _ => False
  | .text c => ∀ s ∈ c.font, '"' ∉ s.toList
  | .maxiCode c => ∀ s ∈ c.postcode, '"' ∉ s.toList
  | .tlc39 c => ∀ s ∈ c.serial, ',' ∉ s.toList
  | _ => True

end Command

end LabelPrinter
