import LabelPrinter.Charset.Utf16
import LabelPrinter.Error

/-!
Charsets. A codec may be any; the code pages are those that a caller picks by name.
-/

namespace LabelPrinter

/-- What becomes of text that a codec has no code for. A function of the caller's gives the bytes
that stand in for it, or none if it refuses it. -/
inductive Trap where
  | strict
  | replace
  | ignore
  | reference
  | call (substitute? : String → Option (List UInt8))

def Trap.substitute? (trap : Trap) (c : Char) : Option (List UInt8) :=
  match trap with
  | .strict => none
  | .replace => some (Utf8.encode "?")
  | .ignore => some []
  | .reference => some (Utf8.encode ("&#" ++ c.toNat.repr ++ ";"))
  | .call substitute? => substitute? (String.singleton c)

/-- What a charset takes from a codec: the bytes of a text under a trap or the reason why it has
none, and the text of bytes, if any, with what is not well formed replaced. -/
structure Codec where
  name : String
  encode : Trap → String → Except String (List UInt8)
  decode : List UInt8 → Option String

namespace Windows1252

/-- The characters of the bytes 80 to 9F; a byte with none stands for the control character of its
number. -/
def table : List Nat :=
  [0x20AC, 0x81, 0x201A, 0x192, 0x201E, 0x2026, 0x2020, 0x2021,
    0x2C6, 0x2030, 0x160, 0x2039, 0x152, 0x8D, 0x17D, 0x8F,
    0x90, 0x2018, 0x2019, 0x201C, 0x201D, 0x2022, 0x2013, 0x2014,
    0x2DC, 0x2122, 0x161, 0x203A, 0x153, 0x9D, 0x17E, 0x178]

def decodeByte (b : UInt8) : Char :=
  if 0x80 ≤ b && b < 0xA0 then Char.ofNat (table[b.toNat - 0x80]?.getD 0) else Char.ofNat b.toNat

def encodeChar? (c : Char) : Option UInt8 :=
  if c.toNat < 0x80 || (0xA0 ≤ c.toNat && c.toNat < 0x100) then some c.toNat.toUInt8
  else (table.findIdx? (· = c.toNat)).map fun i => (0x80 + i).toUInt8

end Windows1252

/-- Codes that are published character by character. -/
inductive CodePage where
  | ascii
  | utf8
  | latin1
  | windows1252
  | utf16 (order : Utf16.Endian)
  deriving DecidableEq, Repr

namespace CodePage

def name : CodePage → String
  | .ascii => "ascii"
  | .utf8 => "utf-8"
  | .latin1 => "iso-8859-1"
  | .windows1252 => "windows-1252"
  | .utf16 .little => "utf-16le"
  | .utf16 .big => "utf-16be"

def all : List CodePage :=
  [.ascii, .utf8, .latin1, .windows1252, .utf16 .little, .utf16 .big]

def encodeChar? (page : CodePage) (c : Char) : Option (List UInt8) :=
  match page with
  | .ascii => if c.toNat < 0x80 then some [c.toNat.toUInt8] else none
  | .utf8 => some (Utf8.encode (String.singleton c))
  | .latin1 => if c.toNat < 0x100 then some [c.toNat.toUInt8] else none
  | .windows1252 => (Windows1252.encodeChar? c).map fun b => [b]
  | .utf16 order => some (Utf16.encodeChar order c)

/-- Each character by its code, or by what the trap puts in its place. -/
def encode (page : CodePage) (trap : Trap) (text : String) : Except String (List UInt8) :=
  match text.toList.mapM fun c => (page.encodeChar? c).or (trap.substitute? c) with
  | some units => .ok units.flatten
  | none => .error "unrepresentable character"

/-- What is not well formed is read as U+FFFD. No byte order mark is looked for. -/
def decode (page : CodePage) (bytes : List UInt8) : String :=
  match page with
  | .ascii =>
    String.ofList (bytes.map fun b => if b < 0x80 then Char.ofNat b.toNat else replacementChar)
  | .utf8 => Utf8.decode bytes
  | .latin1 => String.ofList (bytes.map fun b => Char.ofNat b.toNat)
  | .windows1252 => String.ofList (bytes.map Windows1252.decodeByte)
  | .utf16 order => String.ofList (Utf16.decode order bytes)

def codec (page : CodePage) : Codec where
  name := page.name
  encode := page.encode
  decode bytes := some (page.decode bytes)

end CodePage

namespace Codec

def ascii : Codec := CodePage.ascii.codec

def ofName? (s : String) : Option Codec :=
  (CodePage.all.find? fun page => page.name = s).map CodePage.codec

end Codec

structure Charset where
  codec : Codec := .ascii
  trap : Trap := .replace

namespace Charset

def name (c : Charset) : String := c.codec.name

def description (c : Charset) : String := "Charset \x7b codec: " ++ quote c.name ++ " \x7d"

def encode (charset : Charset) (text : String) : Except Error (List UInt8) :=
  (charset.codec.encode charset.trap text).mapError .encoding

/-- Where the codec has no text for the bytes they are read as UTF-8. -/
def decode (charset : Charset) (bytes : List UInt8) : String :=
  (charset.codec.decode bytes).getD (Utf8.decode bytes)

end Charset

end LabelPrinter
