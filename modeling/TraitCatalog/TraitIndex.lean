/-
  The index of implementors by trait.

  An index takes in maps one by one: the descriptors of each trait are appended to those
  that are there, and a trait is a key from the first time it occurs, also with no
  descriptors.
-/
import TraitCatalog.OrderedMap

namespace TraitCatalog

/-- The implementors of each trait, and the number of maps taken in. -/
structure TraitIndex where
  index : OrderedMap (List Text)
  deliveries : Nat
  deriving DecidableEq

namespace TraitIndex

/-- The index that has taken in nothing. -/
def empty : TraitIndex :=
  ⟨.empty, 0⟩

/-- The descriptors of a trait, in order of arrival; none for an unknown trait. -/
def implementorsOf (ix : TraitIndex) (trait_ : Text) : List Text :=
  (ix.index.get? trait_).getD []

/-- Appends descriptors to a trait. -/
def extend (ix : OrderedMap (List Text)) (trait_ : Text) (descriptors : List Text) :
    OrderedMap (List Text) :=
  ix.put trait_ ((ix.get? trait_).getD [] ++ descriptors)

/-- Takes in a map. -/
def receive (ix : TraitIndex) (m : ImplementorMap) : TraitIndex :=
  ⟨m.entries.foldl (fun ix e => extend ix e.1 e.2) ix.index, ix.deliveries + 1⟩

/-- The number of descriptors of each trait, in the order of the traits. -/
def summary (ix : TraitIndex) : List (Text × Nat) :=
  (Text.sort ix.index.keys).map fun t => (t, (ix.implementorsOf t).length)

end TraitIndex

end TraitCatalog
