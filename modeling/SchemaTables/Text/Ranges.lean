/-! Character classes given as closed ranges of code points. -/
namespace SchemaTables.Ranges

def covers (ranges : List (Nat × Nat)) (c : Char) : Bool :=
  ranges.any fun r => r.1 ≤ c.toNat && c.toNat ≤ r.2

end SchemaTables.Ranges
