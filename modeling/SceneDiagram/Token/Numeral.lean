/-!
# Numerals

A numeral is an optionally signed decimal with an optional fraction and exponent, the word `inf` or
`infinity` with an optional sign, or the word `nan`; the words may be written in any case. Each
function here reads one part of a numeral from the front of a text and gives what follows it.
-/

namespace SceneDiagram.Numeral

/-- What follows a non-empty run of digits. -/
def afterDigits? : List Char → Option (List Char)
  | [] => none
  | c :: cs => if c.isDigit then some (cs.dropWhile Char.isDigit) else none

/-- What follows an optional sign. -/
def afterSign : List Char → List Char
  | [] => []
  | c :: cs => if c = '+' ∨ c = '-' then cs else c :: cs

/-- What follows an optional exponent; an exponent mark without digits is no numeral. -/
def afterExponent? : List Char → Option (List Char)
  | [] => some []
  | c :: cs => if c = 'e' ∨ c = 'E' then afterDigits? (afterSign cs) else some (c :: cs)

/-- What follows an optional point and the digits after it. -/
def afterFraction : List Char → List Char
  | [] => []
  | c :: cs => if c = '.' then cs.dropWhile Char.isDigit else c :: cs

/-- What follows a decimal, which has a digit before or after its point. -/
def afterDecimal? : List Char → Option (List Char)
  | [] => none
  | c :: cs =>
    if c = '.' then (afterDigits? cs).bind afterExponent?
    else (afterDigits? (c :: cs)).bind fun rest => afterExponent? (afterFraction rest)

/-- What follows a given word, whose letters may be written in any case. -/
def afterLetters? : List Char → List Char → Option (List Char)
  | [], cs => some cs
  | _ :: _, [] => none
  | l :: ls, c :: cs => if c.toLower = l then afterLetters? ls cs else none

/-- What follows an infinity, in its long or its short spelling. -/
def afterInfinity? (cs : List Char) : Option (List Char) :=
  (afterLetters? ['i', 'n', 'f'] cs).map fun rest =>
    (afterLetters? ['i', 'n', 'i', 't', 'y'] rest).getD rest

/-- What follows the numeral at the front of a text. -/
def after? (cs : List Char) : Option (List Char) :=
  (afterDecimal? (afterSign cs)).or
    ((afterInfinity? (afterSign cs)).or (afterLetters? ['n', 'a', 'n'] cs))

end SceneDiagram.Numeral
