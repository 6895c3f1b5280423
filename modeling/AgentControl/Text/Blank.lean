/-! # Blank characters

Two classes of white space, the one that text is trimmed of and the wider one that also holds the
four separator controls, and the trimming itself.
-/

namespace AgentControl.Text

/-- White space of Unicode's property table. -/
def isSpace (c : Char) : Bool :=
  let n := c.toNat
  (9 ≤ n && n ≤ 13) || n == 32 || n == 0x85 || n == 0xA0 || n == 0x1680 ||
    (0x2000 ≤ n && n ≤ 0x200A) || n == 0x2028 || n == 0x2029 || n == 0x202F || n == 0x205F ||
    n == 0x3000

/-- White space together with the separator controls U+001C to U+001F. -/
def isBlank (c : Char) : Bool :=
  isSpace c || (0x1C ≤ c.toNat && c.toNat ≤ 0x1F)

/-- Drops what satisfies `p` at both ends. -/
def trimBy (p : Char → Bool) (cs : List Char) : List Char :=
  ((cs.dropWhile p).reverse.dropWhile p).reverse

/-- A text without blanks at its ends. -/
def strip (s : String) : String := String.ofList (trimBy isBlank s.toList)

/-- Splits at every `sep`; there is one more part than there are separators. -/
def splitOn (sep : Char) : List Char → List (List Char)
  | [] => [[]]
  | c :: cs =>
      if c = sep then [] :: splitOn sep cs
      else match splitOn sep cs with
        | [] => [[c]]
        | p :: ps => (c :: p) :: ps

theorem splitOn_ne_nil (sep : Char) (cs : List Char) : splitOn sep cs ≠ [] := by
  induction cs with
  | nil => simp [splitOn]
  | cons c cs ih =>
    by_cases h : c = sep
    · simp [splitOn, h]
    · rw [splitOn, if_neg h]
      split <;> simp

/-- Puts `sep` between the parts. -/
def join (sep : String) (parts : List String) : String := sep.intercalate parts

end AgentControl.Text
