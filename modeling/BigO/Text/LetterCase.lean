-- Letter case. Lower case moves one letter at a time but for two rules: the
-- dotted capital I leaves its dot behind, and a capital sigma that ends a word
-- takes its final form. Upper case may turn one letter into several.
import BigO.Text.CaseTables

namespace BigO.Text

/-- The character of a code point, or nothing if there is no such character. -/
def charOf (n : Nat) : List Char :=
  if n.isValidChar then [Char.ofNat n] else []

/-- The first run that holds the code point sends it on; no run keeps it. -/
def shiftCase (runs : List CaseRun) (c : Char) : List Char :=
  match runs.findSome? (·.shifted? c.toNat) with
  | some n => charOf n
  | none => [c]

/-- The lower case of a letter that stands anywhere but at the end of a word. -/
def lowerChar (c : Char) : List Char :=
  if c.toNat < 0x80 then [c.toLower]
  else if c.toNat = 0x130 then ['i', Char.ofNat 0x307]
  else shiftCase lowerRuns c

def upperChar (c : Char) : List Char :=
  if c.toNat < 0x80 then [c.toUpper]
  else match upperExpansions.lookup c.toNat with
    | some ns => ns.flatMap charOf
    | none => shiftCase upperRuns c

/-- The first character that is not passed over has a case. -/
def meetsCased (side : List Char) : Bool :=
  match side.dropWhile (inRanges caseIgnorableRanges) with
  | [] => false
  | c :: _ => inRanges casedRanges c

/-- The lower case of a capital sigma between the text before it, nearest
first, and the text after it. -/
def lowerSigma (before after : List Char) : Char :=
  if meetsCased before && !meetsCased after then Char.ofNat 0x3C2 else Char.ofNat 0x3C3

/-- Lower case of the rest of a text, with the part already read behind it. -/
def toLowerFrom (before : List Char) : List Char → List Char
  | [] => []
  | c :: cs =>
    (if c.toNat = 0x3A3 then [lowerSigma before cs] else lowerChar c)
      ++ toLowerFrom (c :: before) cs

def toLower (text : List Char) : List Char :=
  toLowerFrom [] text

def toUpper (text : List Char) : List Char :=
  text.flatMap upperChar

/-- The letter that a character stands for when case is ignored in a search
for ASCII letters: the long s is an s, the Kelvin sign a k, and the dotted
capital and the dotless small i are both an i. -/
def foldCase (c : Char) : Char :=
  if c.toNat = 0x17F then 's'
  else if c.toNat = 0x212A then 'k'
  else if c.toNat = 0x130 || c.toNat = 0x131 then 'i'
  else c.toLower

end BigO.Text
