import SceneDiagram.Document
import SceneDiagram.Text.Hexadecimal

/-!
# Scalars of TOML

Keys, strings and numbers of the configuration notation TOML, and the blanks and comments between
them. Each function reads from the front of a text and gives what follows; `none` means that the
text is malformed.
-/

namespace SceneDiagram.Toml

open Text

/-! ## Between values -/

/-- Blanks within a line. -/
def isSpace (c : Char) : Bool := c == ' ' || c == '\t'

/-- Control characters, which stand nowhere but in escapes. The tabulator is none of them. -/
def isControl (c : Char) : Bool :=
  (c.toNat < 0x20 && c != '\t') || c.toNat == 0x7F

/-- What follows the blanks at the front of a text. -/
def skipSpace (cs : List Char) : List Char := cs.dropWhile isSpace

/-- Whether a text starts with a line feed. -/
def startsWithLineFeed : List Char → Bool
  | '\n' :: _ => true
  | _ => false

/-- Whether a character is a line feed, or a carriage return before one. -/
def isLineEnd (c : Char) (rest : List Char) : Bool :=
  c == '\n' || (c == '\r' && startsWithLineFeed rest)

/-- What follows blanks, line ends and comments. -/
def skipLines? (inComment : Bool) : List Char → Option (List Char)
  | [] => some []
  | c :: cs =>
    if c = '\n' then skipLines? false cs
    else if c = '\r' then if startsWithLineFeed cs then skipLines? inComment cs else none
    else if inComment then if isControl c then none else skipLines? true cs
    else if isSpace c then skipLines? false cs
    else if c = '#' then skipLines? true cs
    else some (c :: cs)

/-- What follows the end of a line, before which only blanks and a comment may stand. -/
def endLine? (inComment : Bool) : List Char → Option (List Char)
  | [] => some []
  | c :: cs =>
    if c = '\n' then some cs
    else if c = '\r' then if startsWithLineFeed cs then endLine? inComment cs else none
    else if inComment then if isControl c then none else endLine? true cs
    else if isSpace c then endLine? false cs
    else if c = '#' then endLine? true cs
    else none

/-! ## Strings -/

/-- The character of an escape, and how many characters it takes after the backslash. -/
def escape? : List Char → Option (Char × Nat)
  | [] => none
  | c :: cs =>
    if c = 'b' then some ('\x08', 1)
    else if c = 't' then some ('\t', 1)
    else if c = 'n' then some ('\n', 1)
    else if c = 'f' then some ('\x0c', 1)
    else if c = 'r' then some ('\r', 1)
    else if c = 'e' then some ('\x1b', 1)
    else if c = '"' ∨ c = '\\' then some (c, 1)
    else
      let digits := if c = 'x' then 2 else if c = 'u' then 4 else if c = 'U' then 8 else 0
      if digits = 0 then none
      else ((hexNumber? 0 digits cs).bind charOfNat?).map (·, digits + 1)

/-- What follows the line end at the front of a text, if there is one. -/
def afterLineEnd? : List Char → Option (List Char)
  | '\n' :: cs => some cs
  | '\r' :: '\n' :: cs => some cs
  | _ => none

/-- What follows blanks and line ends. A carriage return alone is none. -/
def skipBlankLines : List Char → List Char
  | [] => []
  | c :: cs =>
    if isSpace c ∨ isLineEnd c cs then skipBlankLines cs else c :: cs

/-- How long the blanks and line ends are after a backslash that ends its line, if it does. -/
def lineContinuation? (cs : List Char) : Option Nat :=
  (afterLineEnd? (skipSpace cs)).map fun rest => cs.length - (skipBlankLines rest).length

/-- The end of a string, after a quote in it: the quotes that still belong to the contents, and what
follows. A string of several lines ends with three quotes, and up to two before them belong to
it. -/
def closing? (multiline : Bool) (quote : Char) (cs : List Char) :
    Option (List Char × List Char) :=
  if multiline then
    let quotes := (cs.take 4).takeWhile (· == quote)
    if quotes.length < 2 then none else some (quotes.drop 2, cs.drop quotes.length)
  else some ([], cs)

/-- The contents of a string in double quotes, after its opening quotes. Line ends are kept as they
are written. -/
def basicString? (multiline : Bool) : List Char → Option (List Char × List Char)
  | [] => none
  | c :: cs =>
    if c = '"' then
      match closing? multiline '"' cs with
      | some closed => some closed
      | none => (basicString? multiline cs).map fun (s, rest) => ('"' :: s, rest)
    else if c = '\\' then
      match (if multiline then lineContinuation? cs else none) with
      | some n => basicString? multiline (cs.drop n)
      | none =>
        match escape? cs with
        | none => none
        | some (d, n) =>
          (basicString? multiline (cs.drop n)).map fun (s, rest) => (d :: s, rest)
    else if isControl c ∧ ¬ (multiline ∧ isLineEnd c cs) then none
    else (basicString? multiline cs).map fun (s, rest) => (c :: s, rest)
termination_by cs => cs.length
decreasing_by
  all_goals simp only [List.length_drop, List.length_cons]
  all_goals omega

/-- The contents of a string in single quotes, after its opening quotes. -/
def literalString? (multiline : Bool) : List Char → Option (List Char × List Char)
  | [] => none
  | c :: cs =>
    if c = '\x27' then
      match closing? multiline '\x27' cs with
      | some closed => some closed
      | none => (literalString? multiline cs).map fun (s, rest) => ('\x27' :: s, rest)
    else if isControl c ∧ ¬ (multiline ∧ isLineEnd c cs) then none
    else (literalString? multiline cs).map fun (s, rest) => (c :: s, rest)

/-- What follows a line end right after the quotes that open a string of several lines. -/
def skipFirstLineEnd (cs : List Char) : List Char := (afterLineEnd? cs).getD cs

/-- The string at the front of a text that starts with a quote. -/
def string? : List Char → Option (String × List Char)
  | '"' :: '"' :: '"' :: cs => finish (basicString? true (skipFirstLineEnd cs))
  | '"' :: cs => finish (basicString? false cs)
  | '\x27' :: '\x27' :: '\x27' :: cs => finish (literalString? true (skipFirstLineEnd cs))
  | '\x27' :: cs => finish (literalString? false cs)
  | _ => none
where
  /-- The contents as a text. -/
  finish (read : Option (List Char × List Char)) : Option (String × List Char) :=
    read.map fun (s, rest) => (String.ofList s, rest)

/-! ## Keys -/

/-- The characters of a key without quotes. -/
def isBareKeyChar (c : Char) : Bool := c.isAlphanum || c == '_' || c == '-'

/-- One part of a key: a bare one, or a string of one line. -/
def keyPart? : List Char → Option (String × List Char)
  | [] => none
  | c :: cs =>
    if c = '"' then string?.finish (basicString? false cs)
    else if c = '\x27' then string?.finish (literalString? false cs)
    else
      match (c :: cs).takeWhile isBareKeyChar with
      | [] => none
      | part => some (String.ofList part, (c :: cs).dropWhile isBareKeyChar)

/-- How many parts a key can have, and how deep values can lie in each other. -/
def maxDepth : Nat := 80

/-- A key of at most so many parts, with dots between them. -/
def keyParts? : Nat → List Char → Option (List String × List Char)
  | 0, _ => none
  | most + 1, cs => do
    let (part, rest) ← keyPart? (skipSpace cs)
    match skipSpace rest with
    | '.' :: rest => (keyParts? most rest).map fun (parts, rest) => (part :: parts, rest)
    | rest => some ([part], rest)

/-- A key. -/
def key? (cs : List Char) : Option (List String × List Char) := keyParts? maxDepth cs

/-! ## Numbers and words -/

/-- The digits of a number, of which two may have an underscore between them. -/
def digits? (isDigit : Char → Bool) : List Char → Option (List Char)
  | [] => none
  | [c] => if isDigit c then some [c] else none
  | c :: '_' :: cs => if isDigit c then (digits? isDigit cs).map (c :: ·) else none
  | c :: d :: cs => if isDigit c then (digits? isDigit (d :: cs)).map (c :: ·) else none

/-- The number that digits write in a base. -/
def ofDigits (base : Nat) (digits : List Char) : Nat :=
  digits.foldl (fun n c => base * n + (hexDigit? c).getD 0) 0

/-- A whole number after the letter of its base. Without digits it cannot be read. -/
def based? (base : Nat) (isDigit : Char → Bool) : List Char → Option Document
  | [] => some .unreadable
  | cs => (digits? isDigit cs).map fun digits => .integer (ofDigits base digits)

/-- Whether a character is a digit in any base. -/
def isAnyDigit (c : Char) : Bool := (hexDigit? c).isSome

/-- Whether every underscore stands between digits of any base. One in front stands well if a sign
is before it, as the first argument says. -/
def isSpaced (signed : Bool) : List Char → Bool
  | [] => true
  | c :: cs =>
    if c = '_' then signed && cs.head?.any isAnyDigit && isSpaced false cs
    else isSpaced (isAnyDigit c) cs

/-- The characters that make a number one with a fraction or an exponent. -/
def isFloatMark (c : Char) : Bool := c == '.' || c == 'e' || c == 'E'

/-- A decimal whole number behind its sign, if it has one. No zero stands in front of other digits.
Behind an underscore anything may stand that makes no fraction or exponent, but a number with other
characters than digits cannot be read. -/
def decimal? (signed negative : Bool) (cs : List Char) : Option Document :=
  let rest := cs.dropWhile Char.isDigit
  let digits := cs.filter (· != '_')
  if digits = [] ∨ (cs.head? = some '0' ∧ cs ≠ ['0']) then none
  else if rest.head?.any (· != '_') || rest.any isFloatMark || !isSpaced signed cs then none
  else if digits.all Char.isDigit then
    let n : Int := ofDigits 10 digits
    some (.integer (if negative then -n else n))
  else some .unreadable

/-- A whole number. -/
def integer? : List Char → Option Document
  | '0' :: 'x' :: cs => based? 16 isAnyDigit cs
  | '0' :: 'o' :: cs => based? 8 (fun c => '0' ≤ c && c ≤ '7') cs
  | '0' :: 'b' :: cs => based? 2 (fun c => c == '0' || c == '1') cs
  | '+' :: cs => decimal? true false cs
  | '-' :: cs => decimal? true true cs
  | cs => decimal? false false cs

/-- A text without its sign. -/
def dropSign : List Char → List Char
  | '+' :: cs => cs
  | '-' :: cs => cs
  | cs => cs

/-- Whether a text writes a decimal whole number in digits, with no zero in front. -/
def isWhole (cs : List Char) : Bool :=
  match digits? Char.isDigit cs with
  | some ('0' :: _ :: _) => false
  | some _ => true
  | none => false

/-- Whether a text is a number with a fraction or an exponent, or one of the words for what is no
number. -/
def isFloat (cs : List Char) : Bool :=
  let unsigned := dropSign cs
  let isExponentMark (c : Char) : Bool := c == 'e' || c == 'E'
  let mantissa := unsigned.takeWhile (! isExponentMark ·)
  let exponent := unsigned.drop mantissa.length
  let whole := mantissa.takeWhile (· != '.')
  let fraction := mantissa.drop whole.length
  unsigned == ['i', 'n', 'f'] || unsigned == ['n', 'a', 'n'] ||
    (isWhole whole && !(fraction.isEmpty && exponent.isEmpty) &&
      (fraction.isEmpty || (digits? Char.isDigit (fraction.drop 1)).isSome) &&
      (exponent.isEmpty || (digits? Char.isDigit (dropSign (exponent.drop 1))).isSome))

/-- The characters that numbers and words do not hold: a word goes up to the next of them. -/
def endsWord (c : Char) : Bool :=
  isSpace c || ['=', ',', '[', ']', '\x7b', '\x7d', '#', '\r', '\n'].contains c

/-- The value of a word or a number. -/
def plain? (cs : List Char) : Option Document :=
  if cs = ['t', 'r', 'u', 'e'] then some (.bool true)
  else if cs = ['f', 'a', 'l', 's', 'e'] then some (.bool false)
  else
    match integer? cs with
    | some d => some d
    | none => if isFloat cs then some .other else none

end SceneDiagram.Toml
