import LabelPrinter.Command.Setup
import LabelPrinter.Command.Job
import LabelPrinter.Command.Shape
import LabelPrinter.Command.Text
import LabelPrinter.Command.Barcode
import LabelPrinter.Command.Stacked
import LabelPrinter.Command.Matrix
import LabelPrinter.Command.Device
import LabelPrinter.Command.Bitmap

namespace LabelPrinter

/-- Parameters are optional so that a command can be built up step by step; they are checked when
it is rendered. -/
inductive Command where
  | size (c : Size)
  | gap (c : Gap)
  | offset (c : Offset)
  | speed (c : Speed)
  | density (c : Density)
  | direction (c : Direction)
  | clearBuffer
  | cut
  | print (c : Print)
  | selfTest (c : SelfTest)
  | bar (c : Bar)
  | box (c : Box)
  | circle (c : Circle)
  | ellipse (c : Ellipse)
  | erase (c : Erase)
  | text (c : Text)
  | barcode (c : Barcode)
  | codablock (c : Codablock)
  | tlc39 (c : Tlc39)
  | qrCode (c : QrCode)
  | dataMatrix (c : DataMatrix)
  | pdf417 (c : Pdf417)
  | maxiCode (c : MaxiCode)
  | aztec (c : Aztec)
  | setting (c : DeviceSetting)
  | counter (c : Counter)
  | counterExpression (c : CounterExpression)
  | poll (c : StatusPoll)
  | bitmap (c : Bitmap)
  deriving DecidableEq, Repr

namespace Command

def mnemonic : Command → String
  | .size _ => "SIZE"
  | .gap _ => "GAP"
  | .offset _ => "OFFSET"
  | .speed _ => "SPEED"
  | .density _ => "DENSITY"
  | .direction _ => "DIRECTION"
  | .clearBuffer => "CLS"
  | .cut => "CUT"
  | .print _ => "PRINT"
  | .selfTest _ => "SELFTEST"
  | .bar _ => "BAR"
  | .box _ => "BOX"
  | .circle _ => "CIRCLE"
  | .ellipse _ => "ELLIPSE"
  | .erase _ => "ERASE"
  | .text _ => "TEXT"
  | .barcode _ => "BARCODE"
  | .codablock _ => "CODABLOCK"
  | .tlc39 _ => "TLC39"
  | .qrCode _ => "QRCODE"
  | .dataMatrix _ => "DMATRIX"
  | .pdf417 _ => "PDF417"
  | .maxiCode _ => "MAXICODE"
  | .aztec _ => "AZTEC"
  | .setting _ => "SET"
  | .counter _ => "SET COUNTER"
  | .counterExpression _ => "@n"
  | .poll _ => "ESC !"
  | .bitmap _ => "BITMAP"

def render : Command → Except ValidationError (List UInt8)
  | .size c => Line.finish <$> c.line
  | .gap c => Line.finish <$> c.line
  | .offset c => Line.finish <$> c.line
  | .speed c => Line.finish <$> c.line
  | .density c => Line.finish <$> c.line
  | .direction c => Line.finish <$> c.line
  | .clearBuffer => .ok (Line.of "CLS" []).finish
  | .cut => .ok (Line.of "CUT" []).finish
  | .print c => Line.finish <$> c.line
  | .selfTest c => .ok c.line.finish
  | .bar c => Line.finish <$> c.line
  | .box c => Line.finish <$> c.line
  | .circle c => Line.finish <$> c.line
  | .ellipse c => Line.finish <$> c.line
  | .erase c => Line.finish <$> c.line
  | .text c => Line.finish <$> c.line
  | .barcode c => Line.finish <$> c.line
  | .codablock c => Line.finish <$> c.line
  | .tlc39 c => Line.finish <$> c.line
  | .qrCode c => Line.finish <$> c.line
  | .dataMatrix c => Line.finish <$> c.line
  | .pdf417 c => Line.finish <$> c.line
  | .maxiCode c => Line.finish <$> c.line
  | .aztec c => Line.finish <$> c.line
  | .setting c => Line.finish <$> c.line
  | .counter c => Line.finish <$> c.line
  | .counterExpression c => Line.finish <$> c.line
  | .poll c => .ok c.line.finish
  | .bitmap c => c.render

end Command

end LabelPrinter
