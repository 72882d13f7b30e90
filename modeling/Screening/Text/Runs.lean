/-!
# Sets of characters as runs

A set of code points is written as the lengths of the stretches outside of it and inside of it, in
turn and from zero on.
-/

set_option autoImplicit false

namespace Screening.Text

/-- Whether a code point lies in one of the runs. -/
def inRuns : List Nat → Nat → Bool
  | gap :: run :: rest, n =>
    if n < gap then false else if n < gap + run then true else inRuns rest (n - gap - run)
  | _, _ => false

end Screening.Text
