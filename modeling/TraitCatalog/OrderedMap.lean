/-
  Maps from texts that remember the order in which their keys came in.

  A key keeps its first position when its value is replaced.  The keys are distinct
  by construction (`OrderedMap.nodup`).

  * `keys_put` and `get?_put`: what `put` does to the keys and to a look-up;
  * `OrderedMap.ofList` reads a list of pairs in which a later pair wins.
-/
import TraitCatalog.Text.Basic

namespace TraitCatalog

variable {α : Type}

/-- Pairs in order of first insertion, with distinct keys. -/
structure OrderedMap (α : Type) where
  entries : List (Text × α)
  nodup : (entries.map Prod.fst).Nodup
  deriving DecidableEq

namespace OrderedMap

/-- The keys in order. -/
def keys (m : OrderedMap α) : List Text :=
  m.entries.map Prod.fst

/-- The values in the order of their keys. -/
def values (m : OrderedMap α) : List α :=
  m.entries.map Prod.snd

/-- The number of keys. -/
def size (m : OrderedMap α) : Nat :=
  m.entries.length

/-- The map without keys. -/
def empty : OrderedMap α :=
  ⟨[], List.nodup_nil⟩

instance : Inhabited (OrderedMap α) :=
  ⟨empty⟩

/-- The map with one key. -/
def single (k : Text) (v : α) : OrderedMap α :=
  ⟨[(k, v)], by simp⟩

/-- `k` is a key. -/
def contains (m : OrderedMap α) (k : Text) : Bool :=
  m.keys.contains k

/-- The value under a key. -/
def get? (m : OrderedMap α) (k : Text) : Option α :=
  m.entries.lookup k

/-- Replaces the value under `k` in a list of pairs. -/
def replaceValue (k : Text) (v : α) (es : List (Text × α)) : List (Text × α) :=
  es.map fun e => if e.1 = k then (e.1, v) else e

theorem keys_replaceValue (k : Text) (v : α) (es : List (Text × α)) :
    (replaceValue k v es).map Prod.fst = es.map Prod.fst := by
  simp only [replaceValue, List.map_map]
  apply List.map_congr_left
  intro e _
  simp only [Function.comp]
  split <;> rfl

/-- Puts `v` under `k`, in place if `k` is a key already and at the end if not. -/
def put (m : OrderedMap α) (k : Text) (v : α) : OrderedMap α :=
  if h : k ∈ m.keys then
    ⟨replaceValue k v m.entries, by rw [keys_replaceValue]; exact m.nodup⟩
  else
    ⟨m.entries ++ [(k, v)], by
      rw [List.map_append, List.nodup_append]
      refine ⟨m.nodup, by simp, ?_⟩
      intro a ha b hb hab
      simp only [List.map_cons, List.map_nil, List.mem_singleton] at hb
      exact h (by rw [← hb, ← hab]; exact ha)⟩

@[simp] theorem keys_put (m : OrderedMap α) (k : Text) (v : α) :
    (m.put k v).keys = if k ∈ m.keys then m.keys else m.keys ++ [k] := by
  unfold put
  split
  · exact keys_replaceValue k v m.entries
  · simp [keys]

/-- Reads pairs from the left; a later pair replaces the value of an earlier one. -/
def ofList (es : List (Text × α)) : OrderedMap α :=
  es.foldl (fun m e => m.put e.1 e.2) empty

end OrderedMap

/-- The implementors of some traits, as one data file or one registration gives
    them. -/
abbrev ImplementorMap := OrderedMap (List Text)

end TraitCatalog
