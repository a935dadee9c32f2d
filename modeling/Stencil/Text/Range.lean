
namespace Stencil.Text

abbrev Range := Nat × Nat

def Range.covers (table : List Range) (c : Nat) : Bool :=
  table.any fun r => r.1 ≤ c && c ≤ r.2

end Stencil.Text
