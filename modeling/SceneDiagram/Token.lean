import SceneDiagram.Text.Span

/-!
# Tokens

The words of a scene source: strings, numbers as written, bare words, eleven punctuation marks, and
the trivia between them. A lexeme is a token with the span that it was read from.
-/

namespace SceneDiagram

open Text

/-- The punctuation marks. -/
inductive Punct where
  | leftBracket
  | rightBracket
  | leftBrace
  | rightBrace
  | leftParen
  | rightParen
  | equals
  | colon
  | comma
  | ampersand
  | caret
deriving Repr, DecidableEq

namespace Punct

/-- The character that a mark is written as. -/
def char : Punct → Char
  | leftBracket => '['
  | rightBracket => ']'
  | leftBrace => '\x7b'
  | rightBrace => '\x7d'
  | leftParen => '('
  | rightParen => ')'
  | equals => '='
  | colon => ':'
  | comma => ','
  | ampersand => '&'
  | caret => '^'

/-- All punctuation marks. -/
def all : List Punct :=
  [leftBracket, rightBracket, leftBrace, rightBrace, leftParen, rightParen, equals, colon, comma,
    ampersand, caret]

/-- The mark that a character stands for. -/
def ofChar? (c : Char) : Option Punct :=
  all.find? (·.char == c)

@[simp] theorem ofChar?_char (p : Punct) : ofChar? p.char = some p := by
  cases p <;> rfl

end Punct

/-- A token of the scene format. -/
inductive Token where
  /-- A string with its escapes decoded. -/
  | string (contents : String)
  /-- A number as written. -/
  | number (text : String)
  /-- A bare word: a key, a constructor, a truth value. -/
  | word (text : String)
  | punct (mark : Punct)
  /-- A comment without its semicolon. -/
  | comment (text : String)
  /-- A run of blanks that are not line ends. -/
  | space
  | newline
deriving Repr, DecidableEq

namespace Token

/-- Whether a token is only there to separate others. -/
def isTrivia : Token → Bool
  | comment _ | space | newline => true
  | _ => false

/-- A token as it is shown in messages. -/
def render : Token → String
  | string s => "\"" ++ s ++ "\""
  | number n => n
  | word w => w
  | punct p => p.char.toString
  | comment t => ";" ++ t
  | space => "whitespace"
  | newline => "newline"

end Token

/-- A token and where it was read. -/
structure Lexeme where
  token : Token
  span : Span
deriving Repr, DecidableEq

end SceneDiagram
