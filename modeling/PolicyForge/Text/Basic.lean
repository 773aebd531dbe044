namespace PolicyForge.Text

/-- A character is blank when it has the Unicode property `White_Space`. The property holds of
twenty-five characters and is stable, so they are listed. -/
def isBlank (c : Char) : Bool :=
  let n := c.toNat
  (0x09 ≤ n && n ≤ 0x0D) || n == 0x20 || n == 0x85 || n == 0xA0 || n == 0x1680 ||
    (0x2000 ≤ n && n ≤ 0x200A) || n == 0x2028 || n == 0x2029 || n == 0x202F || n == 0x205F ||
    n == 0x3000

/-- Drop the characters at both ends that satisfy `p`. -/
def strip (p : Char → Bool) (cs : List Char) : List Char :=
  ((cs.dropWhile p).reverse.dropWhile p).reverse

/-- The text without blank characters at its ends. -/
def trim (text : String) : String :=
  String.ofList (strip isBlank text.toList)

/-- Cut a list at every element that satisfies `p`. The elements cut at are left out, so there is
one piece more than there are cuts, and pieces may be empty. -/
def pieces {α : Type} (p : α → Bool) (xs : List α) : List (List α) :=
  xs.foldr (fun x cut =>
    if p x then [] :: cut
    else match cut with
      | [] => [[x]]
      | piece :: others => (x :: piece) :: others) [[]]

/-- The maximal runs of characters that are not blank, in order. -/
def words (cs : List Char) : List (List Char) :=
  (pieces isBlank cs).filter (!·.isEmpty)

/-- The decimal numeral of `n`, with zeros in front up to `width` digits. -/
def padded (width n : Nat) : String :=
  let digits := toString n
  String.ofList (List.replicate (width - digits.length) '0') ++ digits

/-- The hexadecimal numeral of `n` in lower case, without zeros in front. -/
def hexadecimal (n : Nat) : List Char :=
  Nat.toDigits 16 n

end PolicyForge.Text
