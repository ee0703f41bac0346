-- Confidence in an estimate, a decimal number. It is shown and never decides
-- anything: only the rank of a class does. So a number of any size will do, a
-- zero keeps its sign, and what is no number at all is passed on as it is.
import BigO.Text.Digit

namespace BigO

/-- A decimal number `digits · 10 ^ exponent` with its sign, or what lies
beyond numbers. -/
inductive Confidence where
  | finite (negative : Bool) (digits : Nat) (exponent : Int)
  | infinite (negative : Bool)
  | undefined
deriving DecidableEq, Repr

namespace Confidence

/-- A number of hundredths. -/
def percent (n : Nat) : Confidence := .finite false n (-2)

/-! ## Writing -/

/-- The digits of a number without the zeros at its end, and how many those were. -/
def dropZeros : List Char → List Char × Nat
  | [] => ([], 0)
  | c :: cs =>
    match dropZeros cs with
    | ([], k) => if c = '0' then ([], k + 1) else ([c], k)
    | (d :: ds, k) => (c :: d :: ds, k)

/-- A whole number with the digits after it, the point `point` places in. At
least one digit stands on either side of the point. -/
def positional (digits : List Char) (point : Int) : List Char :=
  if point ≤ 0 then
    ['0', '.'] ++ List.replicate (-point).toNat '0' ++ digits
  else if digits.length ≤ point.toNat then
    digits ++ List.replicate (point.toNat - digits.length) '0' ++ ['.', '0']
  else
    digits.take point.toNat ++ '.' :: digits.drop point.toNat

/-- The exponent of ten after its mark: a sign and at least two digits. -/
def exponentText (e : Int) : List Char :=
  let digits := Nat.toDigits 10 e.natAbs
  'e' :: (if e < 0 then '-' else '+') :: (if digits.length < 2 then '0' :: digits else digits)

/-- One digit, a point if more follow, and the exponent of ten. -/
def scientific (digits : List Char) (point : Int) : List Char :=
  match digits with
  | [] => []
  | [d] => d :: exponentText (point - 1)
  | d :: ds => d :: '.' :: ds ++ exponentText (point - 1)

/-- The number without its sign, in its digits and without zeros that say
nothing; by powers of ten below a ten-thousandth and from ten to the sixteenth on. -/
def magnitude (n : Nat) (exponent : Int) : List Char :=
  let (digits, zeros) := dropZeros (Nat.toDigits 10 n)
  let point := digits.length + zeros + exponent
  if digits = [] then ['0', '.', '0']
  else if -4 < point ∧ point ≤ 16 then positional digits point
  else scientific digits point

def signed (negative : Bool) (text : List Char) : String :=
  String.ofList (if negative then '-' :: text else text)

def infiniteText : List Char := ['i', 'n', 'f']

def undefinedText : List Char := ['n', 'a', 'n']

/-- The confidence as it is written. -/
def text : Confidence → String
  | .finite negative digits exponent => signed negative (magnitude digits exponent)
  | .infinite negative => signed negative infiniteText
  | .undefined => signed false undefinedText

/-! ## Reading -/

/-- The number that a run of ASCII digits stands for. -/
def readDigits (text : List Char) : Nat :=
  text.foldl (fun n c => n * 10 + (Text.digitValue? c).getD 0) 0

/-- A whole number, perhaps with a sign. -/
def readInt : List Char → Int
  | '-' :: ds => -(readDigits ds : Int)
  | '+' :: ds => readDigits ds
  | ds => readDigits ds

/-- A decimal number without a sign: digits, a point, digits, and perhaps an
exponent of ten after its mark. -/
def readMagnitude (negative : Bool) (text : List Char) : Confidence :=
  let mantissa := text.takeWhile (· != 'e')
  let power := (text.dropWhile (· != 'e')).drop 1
  let whole := mantissa.takeWhile (· != '.')
  let fraction := (mantissa.dropWhile (· != '.')).drop 1
  .finite negative (readDigits (whole ++ fraction)) (readInt power - fraction.length)

/-- The confidence that a text without a sign stands for, with a given sign. -/
def readSigned (negative : Bool) (text : List Char) : Confidence :=
  if text = infiniteText then .infinite negative
  else if text = undefinedText then .undefined
  else readMagnitude negative text

/-- The confidence that a text stands for. -/
def ofText (text : String) : Confidence :=
  match text.toList with
  | '-' :: cs => readSigned true cs
  | cs => readSigned false cs

/-! ## Rounding -/

/-- The quotient to the nearest whole number, a half going to the even one. -/
def roundDiv (n d : Nat) : Nat :=
  let q := n / d
  let r := n % d
  if 2 * r < d then q
  else if d < 2 * r then q + 1
  else q + q % 2

/-- The number in percent, to the nearest whole one, as it is written. What is
no number has no percentage and keeps its text. -/
def percentText : Confidence → String
  | .finite negative digits exponent =>
    let e := exponent + 2
    let n := if 0 ≤ e then digits * Nat.pow 10 e.toNat else roundDiv digits (Nat.pow 10 (-e).toNat)
    signed (negative && n != 0) (Nat.toDigits 10 n)
  | c => c.text

end Confidence

/-- The confidence that each kind of evidence earns. -/
structure Tier where
  oneLoop : Confidence
  nest : Confidence
  progression : Confidence
  sort : Confidence
  sortBesideLoop : Confidence
  straightRecursion : Confidence
  branchingRecursion : Confidence
  nothing : Confidence

/-- What evidence earns when it is read from the text. -/
def Tier.lexical : Tier where
  oneLoop := .percent 60
  nest := .percent 65
  progression := .percent 58
  sort := .percent 55
  sortBesideLoop := .percent 60
  straightRecursion := .percent 52
  branchingRecursion := .percent 78
  nothing := .percent 25

/-- What evidence earns when it is read from a parse tree. -/
def Tier.structural : Tier where
  oneLoop := .percent 72
  nest := .percent 72
  progression := .percent 62
  sort := .percent 70
  sortBesideLoop := .percent 76
  straightRecursion := .percent 52
  branchingRecursion := .percent 78
  nothing := .percent 35

end BigO
