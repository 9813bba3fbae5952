/-! The edit distance between two texts: the least number of insertions, deletions and
substitutions of single characters that turns one into the other, computed row by row. -/
namespace VoiceCommand.Text

/-- The rest of the row of `x`: `left` is the entry just computed, and the old row gives the
entries above it. -/
def rowFrom (x : Char) : List Char → List Nat → Nat → List Nat
  | y :: ys, diagonal :: above :: old, left =>
    let best := min (min (left + 1) (above + 1)) (diagonal + if x = y then 0 else 1)
    best :: rowFrom x ys (above :: old) best
  | _, _, _ => []

def nextRow (target : List Char) (old : List Nat) (x : Char) : List Nat :=
  let first := old.headD 0 + 1
  first :: rowFrom x target old first

def distance (source target : List Char) : Nat :=
  (source.foldl (nextRow target) (List.range (target.length + 1))).getLastD 0

end VoiceCommand.Text
