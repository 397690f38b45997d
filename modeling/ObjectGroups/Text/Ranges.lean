/-
Classes of characters as tables of ranges, both ends of each included, in
rising order.
-/
namespace ObjectGroups.Text

/-- Whether a range of the table holds the character. -/
def inRanges (table : Array (Nat × Nat)) (c : Char) : Bool :=
  table.any fun r => r.1 ≤ c.toNat && c.toNat ≤ r.2

end ObjectGroups.Text
