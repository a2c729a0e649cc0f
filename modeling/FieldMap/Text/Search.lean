/-!
# Searching a text

Whether a text contains another one. Every text contains the empty one.
-/

namespace FieldMap.Text

/-- **Whether `needle` stands somewhere in a text.** -/
def contains (needle : List Char) : List Char → Bool
  | [] => needle.isEmpty
  | c :: cs => needle.isPrefixOf (c :: cs) || contains needle cs

end FieldMap.Text
