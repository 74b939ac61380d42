import Mathlib.Data.List.Basic
import Mathlib.Data.String.Basic

/-!
# JSON texts

Values, their compact text, and a reader for the whole grammar.  The reader is
two machines in a row: one turns characters into tokens, the other keeps a stack
of open arrays and objects and turns tokens into a value.
-/

namespace Json

namespace Number

/-- Where a reader stands in the text of a number. -/
inductive Place where
  | start
  | sign
  | zero
  | integer
  | point
  | fraction
  | exponent
  | exponentSign
  | power
deriving DecidableEq

def Place.accepting : Place → Bool
  | zero | integer | fraction | power => true
  | _ => false

def Place.step (place : Place) (char : Char) : Option Place :=
  match place with
  | start =>
      if char = '-' then some sign
      else if char = '0' then some zero
      else if char.isDigit then some integer
      else none
  | sign =>
      if char = '0' then some zero
      else if char.isDigit then some integer
      else none
  | zero =>
      if char = '.' then some point
      else if char = 'e' ∨ char = 'E' then some exponent
      else none
  | integer =>
      if char.isDigit then some integer
      else if char = '.' then some point
      else if char = 'e' ∨ char = 'E' then some exponent
      else none
  | point => if char.isDigit then some fraction else none
  | fraction =>
      if char.isDigit then some fraction
      else if char = 'e' ∨ char = 'E' then some exponent
      else none
  | exponent =>
      if char = '+' ∨ char = '-' then some exponentSign
      else if char.isDigit then some power
      else none
  | exponentSign => if char.isDigit then some power else none
  | power => if char.isDigit then some power else none

def Place.after : Place → List Char → Option Place
  | place, [] => some place
  | place, char :: rest => (place.step char).bind fun next => next.after rest

def accepts (chars : List Char) : Bool :=
  (Place.start.after chars).any Place.accepting

end Number

/-- A number is kept as it was written. -/
structure Number where
  chars : List Char
  accepted : Number.accepts chars = true
deriving DecidableEq

end Json

inductive Json where
  | null
  | bool (value : Bool)
  | number (value : Json.Number)
  | string (value : String)
  | array (elements : List Json)
  | object (members : List (String × Json))

namespace Json

inductive Token where
  | openArray
  | closeArray
  | openObject
  | closeObject
  | colon
  | comma
  | string (value : String)
  | word (chars : List Char)
deriving DecidableEq

def hexDigit (digit : Nat) : Char := "0123456789abcdef".toList.getD digit '0'

/-- Only quotes, backslashes and control characters need an escape. -/
def escape (char : Char) : List Char :=
  if char = '"' then ['\\', '"']
  else if char = '\\' then ['\\', '\\']
  else if char = '\x08' then ['\\', 'b']
  else if char = '\t' then ['\\', 't']
  else if char = '\n' then ['\\', 'n']
  else if char = '\x0c' then ['\\', 'f']
  else if char = '\r' then ['\\', 'r']
  else if char < ' ' then
    ['\\', 'u', '0', '0', hexDigit (char.toNat / 16), hexDigit (char.toNat % 16)]
  else [char]

def Token.text : Token → List Char
  | openArray => ['[']
  | closeArray => [']']
  | openObject => ['{']
  | closeObject => ['}']
  | colon => [':']
  | comma => [',']
  | string value => '"' :: (value.toList.flatMap escape ++ ['"'])
  | word chars => chars

/-- The lists with commas between them. -/
def separated : List (List Token) → List Token
  | [] => []
  | [tokens] => tokens
  | tokens :: rest => tokens ++ .comma :: separated rest

mutual

def tokens : Json → List Token
  | null => [.word "null".toList]
  | bool true => [.word "true".toList]
  | bool false => [.word "false".toList]
  | number value => [.word value.chars]
  | string value => [.string value]
  | array elements =>
      .openArray :: (separated (elementTokens elements) ++ [.closeArray])
  | object members =>
      .openObject :: (separated (memberTokens members) ++ [.closeObject])

def elementTokens : List Json → List (List Token)
  | [] => []
  | element :: rest => element.tokens :: elementTokens rest

def memberTokens : List (String × Json) → List (List Token)
  | [] => []
  | (key, value) :: rest =>
      (.string key :: .colon :: value.tokens) :: memberTokens rest

end

/-- The text without spaces and with the mandatory escapes only. -/
def compact (value : Json) : List Char := value.tokens.flatMap Token.text

/-- Where the tokenizer stands, with the characters of the open token. -/
inductive Mode where
  | between
  | word (chars : List Char)
  | string (chars : List Char)
  | escape (chars : List Char)
  | hex (chars : List Char) (high : Option Nat) (value count : Nat)
  | pairEscape (chars : List Char) (high : Nat)
  | pairMark (chars : List Char) (high : Nat)
deriving DecidableEq

def isSpace (char : Char) : Bool :=
  char = ' ' || char = '\t' || char = '\n' || char = '\r'

def punctuation (char : Char) : Option Token :=
  if char = '[' then some .openArray
  else if char = ']' then some .closeArray
  else if char = '{' then some .openObject
  else if char = '}' then some .closeObject
  else if char = ':' then some .colon
  else if char = ',' then some .comma
  else none

/-- A character that neither ends a word nor starts another token. -/
def isPlain (char : Char) : Bool :=
  !isSpace char && char != '"' && (punctuation char).isNone

def unescape (char : Char) : Option Char :=
  if char = '"' then some '"'
  else if char = '\\' then some '\\'
  else if char = '/' then some '/'
  else if char = 'b' then some '\x08'
  else if char = 'f' then some '\x0c'
  else if char = 'n' then some '\n'
  else if char = 'r' then some '\r'
  else if char = 't' then some '\t'
  else none

def hexValue (char : Char) : Option Nat :=
  if '0' ≤ char ∧ char ≤ '9' then some (char.toNat - '0'.toNat)
  else if 'a' ≤ char ∧ char ≤ 'f' then some (char.toNat - 'a'.toNat + 10)
  else if 'A' ≤ char ∧ char ≤ 'F' then some (char.toNat - 'A'.toNat + 10)
  else none

namespace Mode

def start (char : Char) : List Token × Mode :=
  if isSpace char then ([], between)
  else if char = '"' then ([], string [])
  else
    match punctuation char with
    | some token => ([token], between)
    | none => ([], word [char])

/-- Four hexadecimal digits are read.  Surrogates come in pairs. -/
def unicode (chars : List Char) (high : Option Nat) (value : Nat) :
    Option Mode :=
  match high with
  | none =>
      if 0xd800 ≤ value ∧ value < 0xdc00 then some (pairEscape chars value)
      else if 0xdc00 ≤ value ∧ value < 0xe000 then none
      else some (string (chars ++ [Char.ofNat value]))
  | some high =>
      if 0xdc00 ≤ value ∧ value < 0xe000 then
        some (string (chars ++ [Char.ofNat
          (0x10000 + (high - 0xd800) * 0x400 + (value - 0xdc00))]))
      else none

def step (mode : Mode) (char : Char) : Option (List Token × Mode) :=
  match mode with
  | between => some (start char)
  | word chars =>
      if isPlain char then some ([], word (chars ++ [char]))
      else some (.word chars :: (start char).1, (start char).2)
  | string chars =>
      if char = '"' then some ([.string (String.ofList chars)], between)
      else if char = '\\' then some ([], escape chars)
      else if char < ' ' then none
      else some ([], string (chars ++ [char]))
  | escape chars =>
      if char = 'u' then some ([], hex chars none 0 0)
      else (unescape char).map fun meant => ([], string (chars ++ [meant]))
  | hex chars high value count =>
      (hexValue char).bind fun digit =>
        if count < 3 then
          some ([], hex chars high (value * 16 + digit) (count + 1))
        else
          (unicode chars high (value * 16 + digit)).map fun next => ([], next)
  | pairEscape chars high =>
      if char = '\\' then some ([], pairMark chars high) else none
  | pairMark chars high =>
      if char = 'u' then some ([], hex chars (some high) 0 0) else none

/-- The text ends here. -/
def finish : Mode → Option (List Token)
  | between => some []
  | word chars => some [.word chars]
  | _ => none

def tokenize : Mode → List Char → Option (List Token)
  | mode, [] => mode.finish
  | mode, char :: rest =>
      (mode.step char).bind fun next =>
        (next.2.tokenize rest).map fun later => next.1 ++ later

end Mode

/-- An array or object that is still open, with what it has so far. -/
inductive Frame where
  | elements (done : List Json)
  | members (done : List (String × Json)) (key : String)

inductive State where
  | value (stack : List Frame)
  | key (done : List (String × Json)) (stack : List Frame)
  | colon (done : List (String × Json)) (key : String) (stack : List Frame)
  | complete (value : Json) (stack : List Frame)

def scalar (chars : List Char) : Option Json :=
  if chars = "null".toList then some null
  else if chars = "true".toList then some (bool true)
  else if chars = "false".toList then some (bool false)
  else if accepted : Number.accepts chars = true then
    some (number ⟨chars, accepted⟩)
  else none

namespace State

def step : State → Token → Option State
  | value stack, .word chars => (scalar chars).map (complete · stack)
  | value stack, .string text => some (complete (.string text) stack)
  | value stack, .openArray => some (value (.elements [] :: stack))
  | value stack, .openObject => some (key [] stack)
  | value (.elements [] :: stack), .closeArray =>
      some (complete (.array []) stack)
  | key done stack, .string text => some (colon done text stack)
  | key [] stack, .closeObject => some (complete (.object []) stack)
  | colon done text stack, .colon => some (value (.members done text :: stack))
  | complete json (.elements done :: stack), .comma =>
      some (value (.elements (done ++ [json]) :: stack))
  | complete json (.elements done :: stack), .closeArray =>
      some (complete (.array (done ++ [json])) stack)
  | complete json (.members done text :: stack), .comma =>
      some (key (done ++ [(text, json)]) stack)
  | complete json (.members done text :: stack), .closeObject =>
      some (complete (.object (done ++ [(text, json)])) stack)
  | _, _ => none

def run : State → List Token → Option State
  | state, [] => some state
  | state, token :: rest => (state.step token).bind fun next => next.run rest

/-- The value of a finished text. -/
def result : State → Option Json
  | complete json [] => some json
  | _ => none

end State

def ofTokens (tokens : List Token) : Option Json :=
  ((State.value []).run tokens).bind State.result

def parse (chars : List Char) : Option Json :=
  (Mode.between.tokenize chars).bind ofTokens

/-- What a derived reader does with a structure: the values of the named fields,
from an object with these keys in any order or from an array. -/
def fields (names : List String) : Json → Option (List Json)
  | object members =>
      if members.length = names.length then
        names.mapM fun name => members.lookup name
      else none
  | array elements =>
      if elements.length = names.length then some elements else none
  | _ => none

def asString : Json → Option String
  | string value => some value
  | _ => none

/-- An unsigned number below the bound.  Fractions and exponents are no
integers. -/
def asNat (bound : Nat) : Json → Option Nat
  | number value =>
      if value.chars.all Char.isDigit = true then
        let value := Nat.ofDigitChars 10 value.chars 0
        if value < bound then some value else none
      else none
  | _ => none

end Json
