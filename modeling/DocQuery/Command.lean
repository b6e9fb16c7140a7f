import DocQuery.Document.Json

/-!
# Commands

What a statement becomes: one command on one collection.

## Main Definitions

* `Command` — the collection and what is done with it
* `Operation` — the seven kinds of command
* `Command.render` — the shell text

## Design Notes

Skip and limit are integers in which everything below one means that the clause is absent.
-/

namespace DocQuery

/-- What a command does with its collection. -/
inductive Operation where
  | find (filter projection sort : Document) (skip limit : Int)
  | count (filter : Document)
  | distinct (field : String) (filter : Document)
  | aggregate (pipeline : List Document) (options : Document)
  | remove (filter : Document)
  | updateMany (filter update : Document)
  | insertMany (documents : List Document)

structure Command where
  collection : String
  operation : Operation

namespace Operation

def name : Operation → String
  | .find .. => "find"
  | .count .. => "count"
  | .distinct .. => "distinct"
  | .aggregate .. => "aggregate"
  | .remove .. => "remove"
  | .updateMany .. => "updateMany"
  | .insertMany .. => "insertMany"

def renderList (documents : List Document) : String :=
  (Json.array (documents.map Document.toJson)).render

/-- The arguments of a command, separated as in a call. -/
def arguments : Operation → List String
  | .find filter projection .. =>
    filter.render :: (if projection.isEmpty then [] else [projection.render])
  | .count filter => [filter.render]
  | .distinct field filter => [Json.quote field, filter.render]
  | .aggregate pipeline options =>
    renderList pipeline :: (if options.isEmpty then [] else [options.render])
  | .remove filter => [filter.render]
  | .updateMany filter update => [filter.render, update.render]
  | .insertMany documents => [renderList documents]

/-- The calls that follow a find: order, skip and limit, each only if present. -/
def modifiers : Operation → List String
  | .find _ _ sort skip limit =>
    (if sort.isEmpty then [] else [".sort(" ++ sort.render ++ ")"]) ++
      (if 0 < skip then [".skip(" ++ toString skip ++ ")"] else []) ++
      (if 0 < limit then [".limit(" ++ toString limit ++ ")"] else [])
  | _ => []

end Operation

def Command.render (c : Command) : String :=
  "db." ++ c.collection ++ "." ++ c.operation.name ++ "(" ++
    String.intercalate ", " c.operation.arguments ++ ")" ++ String.join c.operation.modifiers

end DocQuery
