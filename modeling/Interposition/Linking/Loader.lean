import Interposition.Linking.Space
import Interposition.Linking.Transform

/-!
# Interposition.Linking.Loader — stacks of loaders

At the bottom of a stack is a bundle, which defines the modules of an artifact as they are.
Each layer above takes some names for itself: it fetches the bytes of such a module from
below, redirects their calls and defines the result in its own space. All other names go
through to the loader below. A module resolves its references at the level it was defined at.
-/

namespace Interposition

/-! ## Bundles -/

/-- Where a bundle finds its resources. -/
inductive Resources where
  /-- By path, latest first. -/
  | memory (files : List (String × List UInt8))
  /-- In the files below a directory. -/
  | directory (tree : FileTree) (root : String)

namespace Resources

def label : Resources → String
  | memory _ => "bundle:memory"
  | directory _ root => "bundle:" ++ root

/-- The bytes of a resource. A path that does not lead downwards from the root has none. -/
def read (r : Resources) (path : String) : Except Error (Option (List UInt8)) :=
  match r with
  | memory files => .ok (files.lookup path)
  | directory tree root =>
    if Path.isDownward path then (tree.read (Path.join root path)).mapError .unreadable
    else .ok none

/-- The bytes of the resource a module is kept in. -/
def readModule (r : Resources) (name : String) : Except Error (List UInt8) :=
  match r.read (resourcePath name) with
  | .error e => .error e
  | .ok none => .error (.resourceNotFound name)
  | .ok (some bytes) => .ok bytes

end Resources

structure Bundle where
  resources : Resources
  space : Space

namespace Bundle

def of (resources : Resources) : Bundle :=
  ⟨resources, .empty⟩

/-- The module of a name, defined when it is first asked for. -/
def load (b : Bundle) (name : String) : Except Error Module × Bundle :=
  match b.space.find? name with
  | some m => (.ok m, b)
  | none =>
    match b.resources.readModule name >>= fun bytes => b.space.define name bytes false (some 0) with
    | .error e => (.error e, b)
    | .ok (m, space) => (.ok m, { b with space })

end Bundle

/-! ## Layers -/

structure Layer where
  /-- The names the layer takes for itself. -/
  selects : String → Bool
  registry : Registry
  space : Space
  tally : Tally

namespace Layer

/-- A layer that takes the names starting with one of some texts. -/
def ofPrefixes (starts : List String) (registry : Registry) : Layer :=
  ⟨fun name => starts.any fun start => start.toList.isPrefixOf name.toList, registry, .empty,
    .zero⟩

/-- Fixes the rules. The first load does so. -/
def freeze (l : Layer) : Layer :=
  { l with registry := l.registry.freeze }

/-- Redirects the calls in the bytes of a module and defines the result at a level. -/
def define (l : Layer) (level : Nat) (name : String) (bytes : List UInt8) :
    Except Error Module × Layer :=
  match redirectBytes l.registry.rules bytes with
  | .error e => (.error e, l)
  | .ok (image, report) =>
    -- What was redirected counts also if the result cannot be defined.
    let l := { l with tally := l.tally.count report }
    match image.encode.mapError .encode >>= (l.space.define name · true (some level)) with
    | .error e => (.error e, l)
    | .ok (m, space) => (.ok m, { l with space })

end Layer

/-! ## Stacks -/

inductive Loader where
  | bundle (bundle : Bundle)
  | layer (layer : Layer) (below : Loader)

namespace Loader

/-- The number of loaders below. -/
def level : Loader → Nat
  | bundle _ => 0
  | layer _ below => below.level + 1

def label : Loader → String
  | bundle b => b.resources.label
  | layer _ below => s!"interpose({below.label})"

def resources : Loader → Resources
  | bundle b => b.resources
  | layer _ below => below.resources

/-- The modules this loader has defined itself. -/
def space : Loader → Space
  | bundle b => b.space
  | layer l _ => l.space

/-- The module already defined under a name, at the level that is responsible for it. -/
def find? : Loader → String → Option Module
  | bundle b, name => b.space.find? name
  | layer l below, name => if l.selects name then l.space.find? name else below.find? name

/-- Loads the module of a name. A layer defines a module once and refuses a second load; a
bundle answers with the module it has. -/
def load : Loader → String → Except Error Module × Loader
  | bundle b, name =>
    let (answer, b) := b.load name
    (answer, bundle b)
  | layer l below, name =>
    -- The rules are fixed even if the name goes through to the loader below.
    let l := l.freeze
    if l.selects name then
      if l.space.contains name then (.error (.defineConflict name), layer l below)
      else
        match below.resources.readModule name with
        | .error e => (.error e, layer l below)
        | .ok bytes =>
          let (answer, l) := l.define (below.level + 1) name bytes
          (answer, layer l below)
    else
      let (answer, below) := below.load name
      (answer, layer l below)

/-- The module of a name: the one already defined or else the one loaded now. -/
def resolve (l : Loader) (name : String) : Except Error Module × Loader :=
  match l.find? name with
  | some m => (.ok m, l)
  | none => l.load name

/-- Has the loader at a level of the stack do something. A level that is too high is that of
the topmost loader. -/
def within {α : Type} (level : Nat) (act : Loader → α × Loader) : Loader → α × Loader
  | bundle b => act (bundle b)
  | layer l below =>
    if below.level < level then act (layer l below)
    else
      let (answer, below) := within level act below
      (answer, layer l below)

/-- Resolves a name as the loader at a level of the stack does. -/
def resolveAt (level : Nat) (l : Loader) (name : String) : Except Error Module × Loader :=
  l.within level (·.resolve name)

/-- The loader at a level of the stack. -/
def at? (level : Nat) (l : Loader) : Option Loader :=
  if level ≤ l.level then some (l.within level fun here => (here, here)).1 else none

/-- What was redirected at all levels. -/
def tally : Loader → Tally
  | bundle _ => .zero
  | layer l below => l.tally.add below.tally

end Loader

end Interposition
