/-!
# Journey.Text.Blank -- what counts as blank, and trimming

Two sets of blanks are in use.  `isSpace` is the white-space property of the character standard; it
surrounds numbers.  `isBlank` adds the four information separators U+001C to U+001F; it surrounds
identifiers, titles and every other text that is trimmed.

`trimBy` takes the members of a set off both ends and touches nothing between them.  Main
statement: a text whose two ends are outside the set is left as it is (`trimBy_eq_self`).
-/

namespace Journey.Text

set_option autoImplicit false

/-- The white-space property: horizontal and vertical breaks, and the spaces of every width. -/
def isSpace (c : Char) : Bool :=
  let n := c.toNat
  (0x09 ≤ n && n ≤ 0x0d) || n == 0x20 || n == 0x85 || n == 0xa0 || n == 0x1680
    || (0x2000 ≤ n && n ≤ 0x200a) || n == 0x2028 || n == 0x2029 || n == 0x202f || n == 0x205f
    || n == 0x3000

/-- White space or an information separator. -/
def isBlank (c : Char) : Bool :=
  isSpace c || (0x1c ≤ c.toNat && c.toNat ≤ 0x1f)

/-! ## Trimming -/

/-- The characters between the outermost ones that are not in the set. -/
def trimBy (p : Char → Bool) (cs : List Char) : List Char :=
  ((cs.dropWhile p).reverse.dropWhile p).reverse

/-- The text without the blanks at its two ends. -/
def trim (s : String) : String :=
  String.ofList (trimBy isBlank s.toList)

@[simp] theorem trimBy_nil (p : Char → Bool) : trimBy p [] = [] := rfl

theorem dropWhile_eq_self {p : Char → Bool} {cs : List Char}
    (h : ∀ c, cs.head? = some c → p c = false) : cs.dropWhile p = cs := by
  cases cs with
  | nil => rfl
  | cons c cs => simp [List.dropWhile, h c rfl]

/-- A text whose two ends are not in the set is left as it is. -/
theorem trimBy_eq_self {p : Char → Bool} {cs : List Char}
    (first : ∀ c, cs.head? = some c → p c = false)
    (last : ∀ c, cs.getLast? = some c → p c = false) : trimBy p cs = cs := by
  have tail : cs.reverse.dropWhile p = cs.reverse :=
    dropWhile_eq_self fun c h => last c (by simpa using h)
  simp [trimBy, dropWhile_eq_self first, tail]

end Journey.Text
