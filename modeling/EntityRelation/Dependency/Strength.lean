/-!
# Strength of a dependency

A dependency is hard when a key can live at one end only, and soft when it could live at the other
end as well. Of two dependencies between the same entities the stronger one counts.
-/

namespace EntityRelation

/-- How strongly one entity has to be declared after another. -/
inductive Strength where
  /-- The key could live at the other end as well. -/
  | soft
  /-- The owner of the key has to follow its target. -/
  | hard
  deriving DecidableEq, Repr

namespace Strength

/-- The name of a strength. -/
def name : Strength → String
  | soft => "Soft"
  | hard => "Hard"

/-- The stronger of two. -/
def max : Strength → Strength → Strength
  | soft, s => s
  | hard, _ => hard

end Strength

end EntityRelation
