import PolicyForge.Json.Basic

namespace PolicyForge.Json

/-- Where a machine stands inside the escapes of a string. -/
inductive Escape where
  /-- Outside of any. -/
  | outside
  /-- Behind the backslash. -/
  | opened
  /-- Inside a code unit, with so many digits to come and the value of those read. -/
  | unit (remaining value : Nat)
  deriving Repr, DecidableEq

/-- The part of a numeral that was read last. -/
inductive NumeralPart where
  | minus
  | zero
  | integer
  | point
  | fraction
  | mark
  | sign
  | exponent
  deriving Repr, DecidableEq

namespace NumeralPart

/-- The part that `c` belongs to when it continues the numeral. No digit follows a leading zero. -/
def next? (part : NumeralPart) (c : Char) : Option NumeralPart :=
  match part with
  | minus => if c == '0' then some zero else if c.isDigit then some integer else none
  | zero => if c == '.' then some point else if c == 'e' || c == 'E' then some mark else none
  | integer =>
    if c.isDigit then some integer
    else if c == '.' then some point
    else if c == 'e' || c == 'E' then some mark
    else none
  | point => if c.isDigit then some fraction else none
  | fraction =>
    if c.isDigit then some fraction else if c == 'e' || c == 'E' then some mark else none
  | mark =>
    if c == '+' || c == '-' then some sign else if c.isDigit then some exponent else none
  | sign => if c.isDigit then some exponent else none
  | exponent => if c.isDigit then some exponent else none

/-- Whether a numeral may end here. -/
def mayEnd : NumeralPart → Bool
  | zero | integer | fraction | exponent => true
  | _ => false

end NumeralPart

/-- What a machine awaits, or is in the middle of. -/
inductive Mode where
  /-- A value. -/
  | value
  /-- The first item of an array, or its end. -/
  | firstItem
  /-- The first key of an object, or its end. -/
  | firstKey
  /-- Another key, behind a comma. -/
  | nextKey
  /-- The colon behind a key. -/
  | colon
  /-- A comma, or the end of the innermost container. -/
  | separator
  /-- The rest of a string, which is a key or a value. The code points read are kept in reverse. -/
  | literal (isKey : Bool) (points : List Nat) (escape : Escape)
  /-- The rest of a word, and the value it stands for. -/
  | word (rest : List Char) (meaning : Json)
  /-- The rest of a numeral. The characters read are kept in reverse. -/
  | numeral (part : NumeralPart) (spelling : List Char)
  /-- Nothing: the value of the document is complete. -/
  | done (value : Json)

/-- An open container and what it holds so far, the latest first. -/
inductive Frame where
  | array (items : List Json)
  /-- A key that stands for no text is kept as `none`. The key of the member to come is apart. -/
  | object (members : List (Option String × Json)) (key : Option String)

/-- The open containers, the innermost first, and what is awaited there. -/
structure Machine where
  stack : List Frame := []
  mode : Mode := .value

/-- Put the characters that code points stand for in front of `text`. The points are given in
reverse. A low surrogate and the high one it follows are one character, and any other surrogate is
none. -/
def decodePoints (text : List Char) : List Nat → Option (List Char)
  | [] => some text
  | point :: before =>
    if 0xDC00 ≤ point && point < 0xE000 then
      match before with
      | high :: before =>
        if 0xD800 ≤ high && high < 0xDC00 then
          decodePoints
            (Char.ofNat (0x10000 + (high - 0xD800) * 0x400 + (point - 0xDC00)) :: text) before
        else none
      | [] => none
    else if 0xD800 ≤ point && point < 0xDC00 then none
    else decodePoints (Char.ofNat point :: text) before

/-- The text of a string, from its code points in reverse. -/
def textOfPoints (points : List Nat) : Option String :=
  (decodePoints [] points).map String.ofList

/-- The characters that may stand between tokens. -/
def isSpace (c : Char) : Bool :=
  c == ' ' || c == '\t' || c == '\n' || c == '\r'

/-- The value of a digit in base sixteen. -/
def hexDigit? (c : Char) : Option Nat :=
  if c.isDigit then some (c.toNat - '0'.toNat)
  else if 'a' ≤ c && c ≤ 'f' then some (c.toNat - 'a'.toNat + 10)
  else if 'A' ≤ c && c ≤ 'F' then some (c.toNat - 'A'.toNat + 10)
  else none

/-- The code point of an escape of one letter. -/
def shortEscape? (c : Char) : Option Nat :=
  if c == '"' || c == '\\' || c == '/' then some c.toNat
  else if c == 'b' then some 0x08
  else if c == 'f' then some 0x0C
  else if c == 'n' then some 0x0A
  else if c == 'r' then some 0x0D
  else if c == 't' then some 0x09
  else none

/-- The object with the given members, the latest first. -/
def closeObject (members : List (Option String × Json)) : Json :=
  match members.reverse.mapM fun (key, value) => key.map (·, value) with
  | some members => .object members
  | none => .undecodable

namespace Machine

/-- The machine with a value put where it was awaited. -/
def put (m : Machine) (value : Json) : Machine :=
  match m.stack with
  | [] => ⟨[], .done value⟩
  | .array items :: rest => ⟨.array (value :: items) :: rest, .separator⟩
  | .object members key :: rest => ⟨.object ((key, value) :: members) none :: rest, .separator⟩

/-- The machine with a string put where it was awaited. -/
def putString (m : Machine) (isKey : Bool) (points : List Nat) : Option Machine :=
  let text := textOfPoints points
  if isKey then
    match m.stack with
    | .object members _ :: rest => some ⟨.object members text :: rest, .colon⟩
    | _ => none
  else some (m.put (match text with
    | some text => .string text
    | none => .undecodable))

/-- Close the innermost container, when `c` is its closing bracket. -/
def close (m : Machine) (c : Char) : Option Machine :=
  match m.stack with
  | .array items :: rest =>
    if c == ']' then some (put ⟨rest, .separator⟩ (.array items.reverse)) else none
  | .object members _ :: rest =>
    if c == '}' then some (put ⟨rest, .separator⟩ (closeObject members)) else none
  | [] => none

/-- Begin the value that starts with `c`. -/
def begin (m : Machine) (c : Char) : Option Machine :=
  if c == '"' then some { m with mode := .literal false [] .outside }
  else if c == '[' then some ⟨.array [] :: m.stack, .firstItem⟩
  else if c == '{' then some ⟨.object [] none :: m.stack, .firstKey⟩
  else if c == 't' then some { m with mode := .word "rue".toList (.bool true) }
  else if c == 'f' then some { m with mode := .word "alse".toList (.bool false) }
  else if c == 'n' then some { m with mode := .word "ull".toList .null }
  else if c == '-' then some { m with mode := .numeral .minus [c] }
  else if c == '0' then some { m with mode := .numeral .zero [c] }
  else if c.isDigit then some { m with mode := .numeral .integer [c] }
  else none

/-- Take a character between two tokens. -/
def stepBetween (m : Machine) (c : Char) : Option Machine :=
  if isSpace c then some m
  else match m.mode with
    | .value => m.begin c
    | .firstItem => if c == ']' then m.close c else m.begin c
    | .firstKey =>
      if c == '"' then some { m with mode := .literal true [] .outside } else m.close c
    | .nextKey => if c == '"' then some { m with mode := .literal true [] .outside } else none
    | .colon => if c == ':' then some { m with mode := .value } else none
    | .separator =>
      if c == ',' then
        match m.stack with
        | .array _ :: _ => some { m with mode := .value }
        | .object .. :: _ => some { m with mode := .nextKey }
        | [] => none
      else m.close c
    | _ => none

/-- Take a character of a string. Control characters have to be escaped. -/
def stepLiteral (m : Machine) (isKey : Bool) (points : List Nat) (escape : Escape) (c : Char) :
    Option Machine :=
  match escape with
  | .outside =>
    if c == '"' then m.putString isKey points
    else if c == '\\' then some { m with mode := .literal isKey points .opened }
    else if c.toNat < 0x20 then none
    else some { m with mode := .literal isKey (c.toNat :: points) .outside }
  | .opened =>
    if c == 'u' then some { m with mode := .literal isKey points (.unit 4 0) }
    else (shortEscape? c).map fun point =>
      { m with mode := .literal isKey (point :: points) .outside }
  | .unit remaining value =>
    (hexDigit? c).map fun digit =>
      let value := 16 * value + digit
      if remaining ≤ 1 then { m with mode := .literal isKey (value :: points) .outside }
      else { m with mode := .literal isKey points (.unit (remaining - 1) value) }

/-- Take one character, or refuse it. A numeral ends before the first character that does not
continue it, and this character is then taken in its own right. -/
def step (m : Machine) (c : Char) : Option Machine :=
  match m.mode with
  | .literal isKey points escape => m.stepLiteral isKey points escape c
  | .word (expected :: rest) meaning =>
    if c == expected then
      some (if rest.isEmpty then m.put meaning else { m with mode := .word rest meaning })
    else none
  | .numeral part spelling =>
    match part.next? c with
    | some part => some { m with mode := .numeral part (c :: spelling) }
    | none =>
      if part.mayEnd then
        (m.put (.number (String.ofList spelling.reverse))).stepBetween c
      else none
  | _ => m.stepBetween c

/-- The value of a text that ends here. -/
def finish? (m : Machine) : Option Json :=
  match m.mode with
  | .done value => some value
  | .numeral part spelling =>
    if part.mayEnd && m.stack.isEmpty then some (.number (String.ofList spelling.reverse))
    else none
  | _ => none

end Machine

/-- The value that a text writes, if it writes one. -/
def read? (text : String) : Option Json := do
  (← text.toList.foldlM Machine.step {}).finish?

end PolicyForge.Json
