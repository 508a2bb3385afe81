import PocketSql.Text.Ranges

/-!
# White space

The Unicode property White_Space: 25 characters. Texts are trimmed of it at both ends, and words
are separated by it.
-/

namespace PocketSql.Text

/-- The code points with the property White_Space. -/
def blankRanges : Ranges :=
  [(0x9, 0xD), (0x20, 0x20), (0x85, 0x85), (0xA0, 0xA0), (0x1680, 0x1680), (0x2000, 0x200A),
   (0x2028, 0x2029), (0x202F, 0x202F), (0x205F, 0x205F), (0x3000, 0x3000)]

/-- Whether a character is white space. -/
def isBlank (c : Char) : Bool := blankRanges.has c.toNat

/-- Characters without the white space at both ends. -/
def trimmed (s : List Char) : List Char :=
  ((s.dropWhile isBlank).reverse.dropWhile isBlank).reverse

/-- A text without the white space at both ends. -/
def trim (s : String) : String := String.ofList (trimmed s.toList)

/-- What stands before the first white space, and what stands after that character. -/
def splitBlank (s : List Char) : List Char × Option (List Char) :=
  (s.takeWhile (fun c => !isBlank c), (s.dropWhile (fun c => !isBlank c)).tail?)

@[simp] theorem trimmed_nil : trimmed [] = [] := rfl

end PocketSql.Text
