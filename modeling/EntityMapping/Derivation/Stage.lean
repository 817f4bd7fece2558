/-! # Stages of a table

Every table passes the same stages, one after the other.
-/
namespace EntityMapping

inductive Stage
  | init
  | normalized
  | identified
  | versioned
  | referencing
  | scalarsBound
  | registered
  | collecting
deriving DecidableEq

namespace Stage

def text : Stage → String
  | init => "init"
  | normalized => "catalog-schema-normalized"
  | identified => "identifier-bound"
  | versioned => "version-bound"
  | referencing => "outgoing-associations-bound"
  | scalarsBound => "scalars-bound"
  | registered => "registered"
  | collecting => "incoming-associations-bound"

def next? : Stage → Option Stage
  | init => some normalized
  | normalized => some identified
  | identified => some versioned
  | versioned => some referencing
  | referencing => some scalarsBound
  | scalarsBound => some registered
  | registered => some collecting
  | collecting => none

end Stage
end EntityMapping
