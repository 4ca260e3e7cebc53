/-
  Data files: the implementors of one trait, grouped by the crate that declares them.
-/
import TraitCatalog.OrderedMap

namespace TraitCatalog

/-- One data file.  Crates and descriptors are in the order of generation. -/
structure DataFile where
  traitPath : Text
  crates : OrderedMap (List Text)
  deriving DecidableEq

namespace DataFile

/-- The last segment of the trait path. -/
def traitName (d : DataFile) : Text :=
  Text.afterLastColons d.traitPath

/-- All descriptors, crate by crate. -/
def descriptors (d : DataFile) : List Text :=
  d.crates.values.flatten

/-- The number of descriptors over all crates. -/
def count (d : DataFile) : Nat :=
  d.descriptors.length

/-- The implementor map that a data file stands for: its trait and all its
    descriptors. -/
def toMap (d : DataFile) : ImplementorMap :=
  .single d.traitPath d.descriptors

end DataFile

end TraitCatalog
