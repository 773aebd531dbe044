namespace PolicyForge.Text

/-- The bytes in which a text is written. -/
def utf8 (text : String) : List UInt8 :=
  text.toUTF8.data.toList

/-- What stands in a text for bytes that are no character. -/
def replacement : Char :=
  '\uFFFD'

/-- A character of which bytes are missing. -/
structure Unfinished where
  /-- What the bytes so far say. -/
  code : Nat
  /-- The least that the next byte may be. -/
  least : Nat
  /-- The greatest that the next byte may be. -/
  greatest : Nat
  /-- How many bytes are missing behind the next one. -/
  behind : Nat
  deriving Repr, DecidableEq

/-- The character that begins with a byte, if more bytes have to follow. The bounds leave out
characters written in more bytes than they need, halves of surrogate pairs, and numbers too great
for a character. -/
def Unfinished.ofFirst? (byte : Nat) : Option Unfinished :=
  if byte < 0xC2 then none
  else if byte < 0xE0 then
    some { code := byte - 0xC0, least := 0x80, greatest := 0xBF, behind := 0 }
  else if byte < 0xF0 then
    some {
      code := byte - 0xE0
      least := if byte = 0xE0 then 0xA0 else 0x80
      greatest := if byte = 0xED then 0x9F else 0xBF
      behind := 1 }
  else if byte < 0xF5 then
    some {
      code := byte - 0xF0
      least := if byte = 0xF0 then 0x90 else 0x80
      greatest := if byte = 0xF4 then 0x8F else 0xBF
      behind := 2 }
  else none

/-- Read a byte that no character waits for: the characters to write, and the one that has begun. -/
def readFirst (byte : Nat) : List Char × Option Unfinished :=
  if byte < 0x80 then ([Char.ofNat byte], none)
  else match Unfinished.ofFirst? byte with
    | some unfinished => ([], some unfinished)
    | none => ([replacement], none)

/-- Read a byte that belongs to the character that has begun. -/
def Unfinished.extend (unfinished : Unfinished) (byte : Nat) : List Char × Option Unfinished :=
  let code := 64 * unfinished.code + byte % 64
  match unfinished.behind with
  | 0 => ([Char.ofNat code], none)
  | behind + 1 => ([], some { code, least := 0x80, greatest := 0xBF, behind })

/-- Read a byte. One that does not belong to the character that has begun ends it, and is read as
though nothing had begun. -/
def readByte : Option Unfinished → Nat → List Char × Option Unfinished
  | none, byte => readFirst byte
  | some unfinished, byte =>
    if unfinished.least ≤ byte ∧ byte ≤ unfinished.greatest then unfinished.extend byte
    else (replacement :: (readFirst byte).1, (readFirst byte).2)

/-- Read bytes to the end, which ends a character that has begun. -/
def readBytes : Option Unfinished → List Nat → List Char
  | none, [] => []
  | some _, [] => [replacement]
  | unfinished, byte :: bytes =>
    let (characters, next) := readByte unfinished byte
    characters ++ readBytes next bytes

/-- The text that bytes are written for, with a replacement for each run of bytes that begins a
character and does not finish it, and for each byte that cannot begin one. -/
def lossy (bytes : List UInt8) : String :=
  String.ofList (readBytes none (bytes.map (·.toNat)))

end PolicyForge.Text
