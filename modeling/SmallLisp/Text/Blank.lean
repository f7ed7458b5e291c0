import SmallLisp.Text.Ranges

/-!
# Blank characters

The characters that separate tokens are those with the Unicode property `White_Space`. They are
more than the ASCII ones: the no-break space counts, the zero-width space does not.
-/

namespace SmallLisp.Text

/-- The ranges of the property `White_Space`. -/
def blankRanges : List (Nat × Nat) :=
  [(0x9, 0xd), (0x20, 0x20), (0x85, 0x85), (0xa0, 0xa0), (0x1680, 0x1680), (0x2000, 0x200a),
    (0x2028, 0x2029), (0x202f, 0x202f), (0x205f, 0x205f), (0x3000, 0x3000)]

def isBlank (c : Char) : Bool := inRanges blankRanges c

/-- A text of blanks only, the empty one included. -/
def isBlankText (s : String) : Bool := s.toList.all isBlank

end SmallLisp.Text
