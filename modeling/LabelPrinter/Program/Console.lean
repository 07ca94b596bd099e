import LabelPrinter.Charset.Utf8
import LabelPrinter.Listener

namespace LabelPrinter

/-- What a listener of a program prints, and what it tells the program about the connection being
ready. -/
structure Reaction where
  printed : String := ""
  ready : List Bool := []
  deriving DecidableEq, Repr

def println (s : String) : String := s ++ "\n"

namespace Blank

/-- The characters that Unicode calls white space. -/
def isBlank (c : Char) : Bool :=
  (9 ≤ c.toNat && c.toNat ≤ 13) || c.toNat = 0x20 || c.toNat = 0x85 || c.toNat = 0xA0 ||
    c.toNat = 0x1680 || (0x2000 ≤ c.toNat && c.toNat ≤ 0x200A) || c.toNat = 0x2028 ||
    c.toNat = 0x2029 || c.toNat = 0x202F || c.toNat = 0x205F || c.toNat = 0x3000

def trimEnd (s : String) : String :=
  String.ofList (s.toList.reverse.dropWhile isBlank).reverse

end Blank

namespace Console

/-- The console tells when the connection is open and when it cannot be opened. -/
def onClient (n : Notice) : Reaction :=
  match n.event with
  | .established => { printed := println ("connected to " ++ n.endpoint), ready := [true] }
  | .lost => { printed := println ("lost " ++ n.endpoint) }
  | .failing f => { printed := println (n.endpoint ++ " failing: " ++ f.message), ready := [false] }

def onData : DataEvent → Reaction
  | .sent message => { printed := Utf8.decode message }
  | .received text => { printed := println ("printer: " ++ Blank.trimEnd text) }
  | .sendFailed f payload =>
    { printed := println (payload.length.repr ++ " bytes not sent: " ++ f.message) }

end Console

namespace StatusPrinter

def conditions : List (Nat × String) :=
  [(0, "Head opened"), (1, "Paper jam"), (2, "Out of paper"), (3, "Out of ribbon"),
    (4, "Paused"), (5, "Printing")]

def binary (status : Nat) : String :=
  let digits := Nat.toDigits 2 status
  String.ofList (List.replicate (8 - digits.length) '0' ++ digits)

def report (status : Nat) : List String :=
  ["Status: " ++ binary status] ++ (if status = 0 then ["Ready"] else []) ++
    (conditions.filter fun c => status.testBit c.1).map Prod.snd ++ ["============="]

/-- A status is one byte below 80; anything else is no status. -/
def onData : DataEvent → Reaction
  | .sent _ => {}
  | .received text =>
    match text.toList with
    | c :: _ => if c.toNat < 0x80 then { printed := String.join ((report c.toNat).map println) } else {}
    | [] => {}
  | .sendFailed f _ => { printed := println ("Status poll failed: " ++ f.message) }

end StatusPrinter

end LabelPrinter
