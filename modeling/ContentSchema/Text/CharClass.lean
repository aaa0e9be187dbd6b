/-! # Character classes

A class of characters is given by the ranges of its code points.
-/

namespace ContentSchema.Text

structure CharClass where
  ranges : List (Nat × Nat)

namespace CharClass

def contains (cls : CharClass) (c : Char) : Bool :=
  cls.ranges.any fun range => range.1 ≤ c.toNat && c.toNat ≤ range.2

/-- The characters with the Unicode property `White_Space`. -/
def blank : CharClass where
  ranges := [(0x09, 0x0D), (0x20, 0x20), (0x85, 0x85), (0xA0, 0xA0), (0x1680, 0x1680),
    (0x2000, 0x200A), (0x2028, 0x2029), (0x202F, 0x202F), (0x205F, 0x205F), (0x3000, 0x3000)]

end CharClass

end ContentSchema.Text
