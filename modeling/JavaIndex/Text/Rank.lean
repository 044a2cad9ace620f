/-! The rank of a number in an ascending table: how many entries are at most that number. Line starts
and the switch points of a character class are both looked up this way. -/
namespace JavaIndex.Rank

/-- Bisection between `low` entries known to be at most `x` and the entries from `high` on known to be
above it. Each step halves the open part, so `fuel` is the number of its binary digits. -/
def bisect (table : Array Nat) (x : Nat) : (fuel low high : Nat) → Nat
  | 0, low, _ => low
  | fuel + 1, low, high =>
    if high ≤ low then low
    else
      let middle := (low + high) / 2
      if table.getD middle 0 ≤ x then bisect table x fuel (middle + 1) high
      else bisect table x fuel low middle

/-- How many entries of an ascending table are at most `x`. -/
def rank (table : Array Nat) (x : Nat) : Nat :=
  bisect table x (Nat.log2 table.size + 1) 0 table.size

end JavaIndex.Rank
