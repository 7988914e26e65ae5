import RowExpr.Text.Basic

/-!
White space. `Text.isBlank` is the set of code units that trimming removes: the
controls from tab to carriage return, the space separators, the line and
paragraph separators and the byte order mark.
-/

namespace RowExpr

def Text.isBlank (u : UInt16) : Bool :=
  (0x09 ≤ u && u ≤ 0x0D) || u == 0x20 || u == 0xA0 || u == 0x1680 || (0x2000 ≤ u && u ≤ 0x200A) ||
    u == 0x2028 || u == 0x2029 || u == 0x202F || u == 0x205F || u == 0x3000 || u == 0xFEFF

/-- The text without white space at its two ends. -/
def Text.trim (t : Text) : Text :=
  ((t.dropWhile isBlank).reverse.dropWhile isBlank).reverse

end RowExpr
