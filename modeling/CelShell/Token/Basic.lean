import CelShell.Number.Decimal
import CelShell.Source.Span
import CelShell.Text.Quoted

/-!
# Tokens

The words of the expression language. A token is what it says, its `Kind`, and where it stands.
-/

namespace CelShell

/-- The operators and delimiters. -/
inductive Symbol where
  | plus | minus | star | slash | percent
  | equals | notEquals | less | lessEquals | greater | greaterEquals
  | and | or | not | question
  | leftParen | rightParen | leftBracket | rightBracket | leftBrace | rightBrace
  | comma | colon | dot
  deriving DecidableEq, Repr, Inhabited

namespace Symbol

/-- How a symbol is written. -/
def text : Symbol → String
  | plus => "+"
  | minus => "-"
  | star => "*"
  | slash => "/"
  | percent => "%"
  | equals => "=="
  | notEquals => "!="
  | less => "<"
  | lessEquals => "<="
  | greater => ">"
  | greaterEquals => ">="
  | and => "&&"
  | or => "||"
  | not => "!"
  | question => "?"
  | leftParen => "("
  | rightParen => ")"
  | leftBracket => "["
  | rightBracket => "]"
  | leftBrace => "\x7b"
  | rightBrace => "\x7d"
  | comma => ","
  | colon => ":"
  | dot => "."

/-- Every symbol. -/
def all : List Symbol :=
  [plus, minus, star, slash, percent, equals, notEquals, less, lessEquals, greater, greaterEquals,
    and, or, not, question, leftParen, rightParen, leftBracket, rightBracket, leftBrace,
    rightBrace, comma, colon, dot]

end Symbol

/-- A constant written in an expression. -/
inductive Literal where
  | null
  | bool (b : Bool)
  | int (n : Int64)
  | uint (n : UInt64)
  | double (d : Double)
  | string (s : String)
  deriving DecidableEq, Inhabited

namespace Literal

/-- A truth value as it is written. -/
def boolText (b : Bool) : String := if b then "true" else "false"

/-- The source text of a literal. A negative number is written with its sign. -/
def text : Literal → String
  | null => "null"
  | bool b => boolText b
  | int n => Number.int64Text n
  | uint n => Number.uint64Text n ++ "u"
  | double d => d.text .source
  | string s => Text.quote s

/-- Whether two literals are the same constant. Doubles are compared as numbers, so the two zeros
are the same and a NaN is not even itself. -/
def same : Literal → Literal → Bool
  | double d, double e => d.equals e
  | a, b => a == b

end Literal

/-- What a token says. -/
inductive Kind where
  /-- A name. -/
  | ident (name : String)
  /-- A constant. -/
  | literal (value : Literal)
  /-- The keyword `in`. -/
  | keywordIn
  /-- An operator or a delimiter. -/
  | symbol (symbol : Symbol)
  /-- The end of the text. -/
  | eof
  deriving DecidableEq, Inhabited

namespace Kind

/-- What a token is called in messages. -/
def describe : Kind → String
  | ident name => "identifier '" ++ name ++ "'"
  | literal (.string s) => Text.reveal s
  | literal value => "'" ++ value.text ++ "'"
  | keywordIn => "'in'"
  | symbol s => "'" ++ s.text ++ "'"
  | eof => "end of input"

/-- Whether a token is of an expected kind; constants are compared as by `Literal.same`. -/
def same : Kind → Kind → Bool
  | literal a, literal b => a.same b
  | a, b => a == b

end Kind

/-- A word of a source text. -/
structure Token where
  /-- What it says. -/
  kind : Kind
  /-- Where it stands. -/
  span : Span
  deriving DecidableEq, Inhabited

end CelShell
