import Interposition.Launch.Report
import Interposition.Sandbox.Traps
import Interposition.Settings.Basic
import Interposition.Text.Utf8

/-!
# Interposition.Launch.Launcher — starting a program from an artifact

A launch checks its settings, finds the artifact, installs the traps, runs the entry point
through a layer that redirects the calls of the chosen modules, and reports. Anything that goes
wrong before the run, or that keeps it from having an outcome, is an error instead.
-/

namespace Interposition

/-- What a launch is started with. -/
structure Launch where
  settings : Settings
  tree : FileTree
  /-- The capacity of a console of the caller's, which takes the lines instead of the report. -/
  ownConsole : Option Nat
  /-- How many milliseconds to wait for the run. A run is never done before a deadline of 0. -/
  deadline : Option Nat
  /-- The addresses that the allocator has for the objects of the run. -/
  addresses : Nat → Nat

/-- What a launch comes to. -/
structure LaunchResult where
  answer : Except Interruption Report
  world : World
  tally : Tally

namespace Launch

/-- A launch with the deadline that its settings have. -/
def ofSettings (settings : Settings) (tree : FileTree)
    (addresses : Nat → Nat := World.blocks) : Launch :=
  ⟨settings, tree, none, settings.timeoutSeconds.map (· * 1000), addresses⟩

/-- The artifact to run: valid settings, a directory, and a resource for the entry module. -/
def findArtifact (l : Launch) : Except Error String := do
  l.settings.validate.mapError fun fault => .settings fault.message
  let root ← (Artifact.locate l.tree l.settings.searchOrder).mapError .discovery
  (Artifact.ensureEntry l.tree root l.settings.entryModule).mapError .discovery
  return root

/-- The version stamp of an artifact, if it has one that can be read. -/
def readVersion (resources : Resources) : Except Error (Option VersionStamp) := do
  let bytes ← resources.read VersionStamp.resource
  return bytes.bind fun bytes => VersionStamp.parse? (Text.decodeLossy bytes)

/-- A world with an empty console. -/
def startWorld (l : Launch) : World :=
  .initial (l.ownConsole.getD l.settings.sinkCapacity) l.addresses

/-- The sandbox over the resources of an artifact, with the traps installed. -/
def sandbox (l : Launch) (resources : Resources) : Except Error Sandbox := do
  let s := l.settings
  let (host, registry) := Traps.install s.label s.forcedProperties Core.host .empty
  let host ← host.mapError Error.ofRegistry
  let layer := Layer.ofPrefixes s.transformPrefixes registry
  return ⟨⟨host, s.limits⟩, .layer layer (.bundle (.of resources)), l.startWorld⟩

/-- The console that the report takes its lines from. If there is one of the caller's it has all
lines, and that of the launch has none. -/
def capture (l : Launch) (console : Console) : Console :=
  if l.ownConsole.isSome then .ofCapacity l.settings.sinkCapacity else console

/-- The report of a run, and the console that is left when the lines for the report are drained. One
of the caller's stays as it is. -/
def report (l : Launch) (root : String) (version : Option VersionStamp) (outcome : Outcome)
    (console : Console) : Report × Console :=
  let (lines, drained) := (l.capture console).drain
  ({
    entry := l.settings.entryPoint.text
    artifact := root
    version
    outcome := .ofOutcome outcome
    exitCode := outcome.exitCode
    console := lines
    consoleDropped := drained.dropped },
    if l.ownConsole.isSome then console else drained)

/-- What is ready when the run starts. -/
def prepare (l : Launch) : Except Error (String × Option VersionStamp × Sandbox) := do
  let root ← l.findArtifact
  let resources := Resources.directory l.tree root
  let version ← readVersion resources
  let sandbox ← l.sandbox resources
  -- Whatever keeps a run from starting is reported before its deadline.
  if l.deadline = some 0 then throw .timeout
  return (root, version, sandbox)

def run (l : Launch) : LaunchResult :=
  match l.prepare with
  | .error e => ⟨.error (.error e), l.startWorld, .zero⟩
  | .ok (root, version, sandbox) =>
    match sandbox.invoke l.settings.entryPoint [] with
    | (.error interruption, sandbox) =>
      ⟨.error interruption, sandbox.world, sandbox.loader.tally⟩
    | (.ok outcome, sandbox) =>
      let (report, console) := l.report root version outcome sandbox.world.console
      ⟨.ok report, { sandbox.world with console }, sandbox.loader.tally⟩

end Launch

end Interposition
