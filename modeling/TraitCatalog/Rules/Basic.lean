/-
  The rules that a catalog is run by.
-/
import TraitCatalog.Files.Store

namespace TraitCatalog

open Text (lit)

/-- What the rules are for. -/
structure ProjectRules where
  slug : Text
  version : Text
  deriving DecidableEq, Repr

/-- Where data files are and how they are read. -/
structure FileRules where
  pattern : Text := Store.defaultPattern
  encoding : Text := Store.defaultEncoding
  /-- The first faulty file ends a load. -/
  strict : Bool := false
  deriving DecidableEq, Repr

/-- How deliveries are treated. -/
structure RegistryRules where
  logDeliveries : Bool := true
  deriving DecidableEq, Repr

/-- What is logged, and how. -/
structure LogRules where
  level : Text := lit "INFO"
  format : Text := lit "%(asctime)s - %(name)s - %(levelname)s - %(message)s"
  deriving DecidableEq, Repr

/-- The rules. -/
structure Rules where
  project : ProjectRules
  files : FileRules := {}
  registry : RegistryRules := {}
  log : LogRules := {}
  deriving DecidableEq, Repr

end TraitCatalog
