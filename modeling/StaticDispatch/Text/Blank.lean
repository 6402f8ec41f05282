/-!
# Blanks

The characters with the property White_Space, and text without the blanks at
its ends.
-/

namespace StaticDispatch.Text

def blankRuns : List (Nat × Nat) :=
  [(0x09, 0x0d), (0x20, 0x20), (0x85, 0x85), (0xa0, 0xa0), (0x1680, 0x1680), (0x2000, 0x200a),
    (0x2028, 0x2029), (0x202f, 0x202f), (0x205f, 0x205f), (0x3000, 0x3000)]

def isBlank (c : Char) : Bool :=
  blankRuns.any fun run => run.1 ≤ c.toNat && c.toNat ≤ run.2

/-- The text without the blanks at both ends. -/
def trim (text : String) : String :=
  let fromFirst := text.toList.dropWhile isBlank
  String.ofList (fromFirst.reverse.dropWhile isBlank).reverse

end StaticDispatch.Text
