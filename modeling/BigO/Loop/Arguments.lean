-- The arguments of a call. Brackets of the three kinds nest and are not told
-- apart; a comma outside all of them ends an argument, and the first bracket
-- that closes more than was opened ends the call.
import BigO.Text.Blank

namespace BigO.Loop

open BigO.Text

def isOpening (c : Char) : Bool :=
  c == '(' || c == '[' || c == '{'

def isClosing (c : Char) : Bool :=
  c == ')' || c == ']' || c == '}'

/-- The last argument of a call: none if nothing stands there. -/
def lastArgument (argument : List Char) : List (List Char) :=
  if trim argument = [] then [] else [trim argument]

/-- The arguments of a call, from `depth` brackets deep and with the part of
the current argument behind, nearest character first. -/
def argumentsFrom (depth : Nat) (current : List Char) : List Char → Option (List (List Char))
  | [] => none
  | c :: cs =>
    if isOpening c then argumentsFrom (depth + 1) (c :: current) cs
    else if isClosing c then
      match depth with
      | 0 => some (lastArgument current.reverse)
      | d + 1 => argumentsFrom d (c :: current) cs
    else if c = ',' ∧ depth = 0 then
      (argumentsFrom 0 [] cs).map (trim current.reverse :: ·)
    else argumentsFrom depth (c :: current) cs

/-- The arguments of a call whose opening bracket has just been read, or none if the call is never closed
(`_split_arguments`). -/
def arguments? (text : List Char) : Option (List (List Char)) :=
  argumentsFrom 0 [] text

end BigO.Loop
