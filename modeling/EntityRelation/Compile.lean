import EntityRelation.Catalog
import EntityRelation.TableModule

/-!
# Compiling a package

A package of a catalog becomes a module: its entities and the relationships between them are
resolved to a schema, the schema is put into an order, and its tables are declared in that order.
-/

namespace EntityRelation

/-- The module of a package. -/
def compile (c : Catalog) (package : String) (o : Options) : Logged TableModule := do
  o.validate
  let entities ← c.entitiesOf package
  let schema ← Schema.build entities ((c.between entities).map (·.1))
  let order ← schema.order
  Logged.report (.packageCompiled package schema.size schema.links.length order.broken.length)
  TableModule.write o schema order.placed

end EntityRelation
