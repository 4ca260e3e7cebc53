/-
  A workshop of hooks.

  A workshop holds consumers in numbered slots and knows hooks by name.  A consumer is a
  trait index, or follows a script: it records each call, and on the calls that concern it
  registers maps, installs hooks or gives up, in the order of the script.

  * `Workshop.define` makes the hook of a description, under its name, and so replaces
    what the name stood for; hooks made earlier are not affected;
  * `Workshop.act` is what the consumer in a slot does with a map.
-/
import TraitCatalog.Registry.Basic
import TraitCatalog.TraitIndex

namespace TraitCatalog

/-! ## Descriptions -/

mutual

/-- The description of a hook. -/
inductive HookSpec where
  /-- A hook that has a name already. -/
  | named (id : Text)
  | index (id : Text)
  | logged (id : Text) (enabled : Bool) (inner : HookSpec)
  /-- Acts at most `times?` times, and only on maps with the key `on?`. -/
  | scripted (id : Text) (on? : Option Text) (times? : Option Nat) (acts : List ScriptAct)

/-- A step of a script. -/
inductive ScriptAct where
  | register (m : ImplementorMap)
  | install (h : HookSpec)
  | giveUp (message : Text)

end

instance : Inhabited HookSpec :=
  ⟨.named []⟩

/-! ## Consumers -/

/-- A consumer that follows a script, with the number of times that are left. -/
structure Script where
  id : Text
  on? : Option Text
  left? : Option Nat
  acts : List ScriptAct

namespace Script

/-- The script acts on a map. -/
def concerns (s : Script) (m : ImplementorMap) : Bool :=
  s.left? != some 0 &&
    match s.on? with
    | some t => m.contains t
    | none => true

/-- One time less is left. -/
def useOnce (s : Script) : Script :=
  { s with left? := s.left?.map (· - 1) }

end Script

/-- What is in a slot. -/
inductive Consumer where
  | index (ix : TraitIndex)
  | script (s : Script)

/-- Consumers in slots, hooks by name, the latest first, and the calls of scripts, oldest
    first. -/
structure Workshop where
  consumers : List Consumer
  names : List (Text × Hook Nat)
  calls : List (Text × ImplementorMap)

namespace Workshop

/-- The workshop with nothing in it. -/
def empty : Workshop :=
  ⟨[], [], []⟩

/-- The hook of a name. -/
def hook? (w : Workshop) (id : Text) : Option (Hook Nat) :=
  w.names.lookup id

/-- Gives a hook a name. -/
def name (w : Workshop) (id : Text) (h : Hook Nat) : Workshop :=
  { w with names := (id, h) :: w.names }

/-- Puts a consumer into a new slot, and names its hook. -/
def add (w : Workshop) (id : Text) (c : Consumer) : Hook Nat × Workshop :=
  let h := .base w.consumers.length
  (h, { w with consumers := w.consumers ++ [c] }.name id h)

/-- The index of a name. -/
def index? (w : Workshop) (id : Text) : Option TraitIndex :=
  match w.hook? id with
  | some (.base slot) =>
    match w.consumers[slot]? with
    | some (.index ix) => some ix
    | _ => none
  | _ => none

/-- Makes the hook of a description; there is none if it names an unknown hook. -/
def define (w : Workshop) : HookSpec → Option (Hook Nat × Workshop)
  | .named id => (w.hook? id).map fun h => (h, w)
  | .index id => some (w.add id (.index .empty))
  | .logged id enabled inner =>
    match define w inner with
    | some (h, w) => some (.logged enabled h, w.name id (.logged enabled h))
    | none => none
  | .scripted id on? times? acts => some (w.add id (.script ⟨id, on?, times?, acts⟩))

/-- Replaces the consumer in a slot. -/
def setConsumer (w : Workshop) (slot : Nat) (c : Consumer) : Workshop :=
  { w with consumers := w.consumers.set slot c }

/-- Carries out the steps of a script; a step that fails ends it. -/
def perform : List ScriptAct → Plan (Hook Nat) Workshop
  | [] => .done
  | .register m :: rest => .register m fun
    | .ok () => perform rest
    | .error f => .fail f
  | .install spec :: rest => .inspect fun w =>
    match w.define spec with
    | none => .fail (.hook [])
    | some (h, w) => .update (fun _ => w) <| .install h fun
      | .ok _ => perform rest
      | .error f => .fail f
  | .giveUp message :: _ => .fail (.hook message)

/-- What the consumer in a slot does with a map. -/
def act : Behaviour Nat Workshop := fun slot m =>
  .inspect fun w =>
    match w.consumers[slot]? with
    | none => .done
    | some (.index ix) => .update (·.setConsumer slot (.index (ix.receive m))) .done
    | some (.script s) =>
      .update (fun w => { w with calls := w.calls ++ [(s.id, m)] }) <|
        if s.concerns m then
          .update (·.setConsumer slot (.script s.useOnce)) (perform s.acts)
        else .done

end Workshop

end TraitCatalog
