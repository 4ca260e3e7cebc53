/-
  A catalog: the data files below a root, run by rules.

  Loading a catalog buffers the maps of all files and then installs the index as the hook of
  the registry, so that the index receives them in order.  The hook announces deliveries if
  the rules say so.
-/
import TraitCatalog.Loader
import TraitCatalog.Rules.Basic
import TraitCatalog.TraitIndex

namespace TraitCatalog

variable {β ω : Type}

/-- The data files below a root, with the rules for them. -/
structure Catalog where
  store : Store
  rules : Rules

/-- The only hook of a catalog by itself is its index, which takes in every map. -/
def collect : Behaviour Unit TraitIndex :=
  fun _ m => .update (·.receive m) .done

namespace Catalog

/-- The catalog below `root`, seen from the folder `here`. -/
def atRoot (tree : FileTree) (here : Location) (codecs : Text → Option Codec) (root : Text)
    (rules : Rules) : Except FileFault Catalog := do
  return ⟨← Store.atRoot tree here codecs root rules.files.pattern rules.files.encoding, rules⟩

/-- The hook that hands maps to the index `index`. -/
def indexHook (c : Catalog) (index : β) : Hook β :=
  .logged c.rules.registry.logDeliveries (.base index)

/-- Installs the index, and gives the number of maps drained. -/
def installIndex (c : Catalog) (invoke : Invoke (Hook β) ω) (index : β) : Run (Hook β) ω Nat :=
  install invoke (c.indexHook index)

/-- Loads all files, then installs the index.  The load is strict if that is asked for here
    or in the rules. -/
def loadIndex (c : Catalog) (invoke : Invoke (Hook β) ω) (tree : FileTree) (index : β)
    (strict : Bool) : Run (Hook β) ω LoadReport :=
  loadThenInstall invoke (c.store.source tree) (strict || c.rules.files.strict) (c.indexHook index)

end Catalog

end TraitCatalog
