/-!
# Ranges of code points

Properties of characters beyond ASCII are tables of ranges. A table lists its ranges in ascending
order, so the search gives up at the first range that starts beyond the code point.
-/

namespace ScriptLint.Text

/-- Whether `code` lies in one of the ascending, inclusive ranges of the table. -/
def inRanges (code : Nat) : List (Nat × Nat) → Bool
  | [] => false
  | (low, high) :: rest => if code < low then false else code ≤ high || inRanges code rest

end ScriptLint.Text
