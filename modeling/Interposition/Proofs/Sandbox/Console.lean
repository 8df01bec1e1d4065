import Interposition.Proofs.Machine.Trace
import Interposition.Proofs.Sandbox.Capture

/-!
# Interposition.Proofs.Sandbox.Console — what a run leaves on the console

With the traps installed on the host of the core library, one native writes to the console: the
stand-in for prints (`Traps.captures_of_install`). So each instruction either calls it with a text,
which is one more line for the console, or leaves the console as it is
(`Snapshot.attempt_console`), and after an invocation the console has been handed the texts of its
trace, one after another (`Sandbox.invoke_console`). A console keeps as many of the lines it is
handed as it has room for, the first ones, and counts the others (`Console.foldl_emit`).
-/

namespace Interposition

/-! ## Consoles -/

namespace Console

/-- Lines that come one after another are kept while there is room. The others are counted. -/
theorem foldl_emit (c : Console) (lines : List Line) :
    lines.foldl emit c =
      { c with
        buffered := c.buffered ++ (lines.take (c.capacity - c.size)).toArray
        emitted := c.emitted + min lines.length (c.capacity - c.size)
        dropped := c.dropped + (lines.length - (c.capacity - c.size)) } := by
  induction lines generalizing c with
  | nil => simp
  | cons line rest ih =>
    rw [List.foldl_cons, ih]
    by_cases hroom : c.size < c.capacity
    · have hemit : c.emit line =
          { c with buffered := c.buffered.push line, emitted := c.emitted + 1 } := by
        rw [emit, if_pos hroom]
      have hsize : (c.emit line).size = c.size + 1 := by
        rw [hemit]
        exact Array.size_push line
      obtain ⟨room, hleft⟩ : ∃ room, c.capacity - c.size = room + 1 :=
        Nat.exists_eq_succ_of_ne_zero (by omega)
      have hless : c.capacity - (c.size + 1) = room := by omega
      have hcapacity : (c.emit line).capacity = c.capacity := by rw [hemit]
      rw [hsize, hcapacity, hless, hleft, hemit]
      simp only [List.take_succ_cons, List.length_cons, mk.injEq, true_and]
      exact ⟨by simp, by omega, by omega⟩
    · have hemit : c.emit line = { c with dropped := c.dropped + 1 } := by
        rw [emit, if_neg hroom]
      have hsize : (c.emit line).size = c.size := by
        rw [hemit]
        rfl
      have hcapacity : (c.emit line).capacity = c.capacity := by rw [hemit]
      have hfull : c.capacity - c.size = 0 := by omega
      rw [hsize, hcapacity, hfull, hemit]
      simp only [List.take_zero, List.length_cons, mk.injEq, true_and]
      exact ⟨by omega, by omega⟩

end Console

/-! ## Natives -/

/-- A native leaves the console as it is. -/
def Native.Silent (native : Native) : Prop :=
  ∀ args w, (native args w).2.console = w.console

/-- All natives but that of a symbol leave the console as it is. -/
def Host.SilentBut (host : Host) (symbol : Symbol) : Prop :=
  ∀ called native, host.native? called = some native → called ≠ symbol → native.Silent

theorem Native.silent_ofArgs {α : Type} (read : List Value → Except Failure α)
    {act : α → World → Answer × World} (h : ∀ a w, (act a w).2.console = w.console) :
    (ofArgs read act).Silent := by
  intro args w
  unfold ofArgs
  cases read args with
  | error failure => rfl
  | ok a => exact h a w

theorem Host.SilentBut.register {host : Host} {symbol : Symbol} (h : host.SilentBut symbol)
    (other : Symbol) {native : Native} (hsilent : other ≠ symbol → native.Silent) :
    (host.register other native).SilentBut symbol := by
  intro called found hfound hcalled
  rw [Host.native?, Host.register, List.lookup_cons] at hfound
  split at hfound
  case h_1 hsame =>
    obtain rfl : native = found := Option.some.inj hfound
    obtain rfl : called = other := by simpa using hsame
    exact hsilent hcalled
  case h_2 => exact h called found hfound hcalled

/-- The core library prints for real. -/
theorem Core.host_silentBut (symbol : Symbol) : Core.host.SilentBut symbol := by
  have hfields : ∀ fields, Host.SilentBut ⟨[], fields⟩ symbol := by
    intro fields called native hnative
    cases hnative
  refine .register (.register (.register (hfields _) _ ?_) _ ?_) _ ?_
  · intro _
    exact Native.silent_ofArgs _ fun _ _ => rfl
  · intro _
    exact Native.silent_ofArgs _ fun _ _ => rfl
  · intro _
    exact Native.silent_ofArgs _ fun _ _ => rfl

/-- The stand-in for prints captures under a tag, and no other native writes to the console. -/
structure Host.Captures (host : Host) (tag : String) : Prop where
  print : host.native? Traps.printRule.target = some (Traps.handlePrint tag)
  silent : host.SilentBut Traps.printRule.target

/-- Of the natives that stand in, only that for prints writes to the console. -/
theorem Traps.captures_of_install {tag : String} {forced : List String} {host host' : Host}
    {r r' : Registry} (h : install tag forced host r = (.ok host', r'))
    (hhost : host.SilentBut printRule.target) : host'.Captures tag := by
  refine ⟨(install_captures h).2, ?_⟩
  rcases install_ok h with ⟨-, rfl⟩
  refine .register (.register (.register hhost _ ?_) _ ?_) _ ?_
  · intro _
    exact Native.silent_ofArgs _ fun _ _ => rfl
  · intro hother
    exact absurd rfl hother
  · intro _
    exact Native.silent_ofArgs _ fun _ _ => rfl

/-! ## Instructions -/

/-- The text that the stand-in for prints takes at an instruction: the instruction calls it, and
the second argument, after the receiver, is a text. -/
def Snapshot.captured? (env : Environment) (s : Snapshot) : Option String :=
  match s.frame.execute env.host with
  | .ok (.call _ call) =>
    if call.symbol = Traps.printRule.target then call.args[1]?.bind Value.str? else none
  | _ => none

/-- The console after a text may have been captured. -/
def Console.take (tag : String) (c : Console) : Option String → Console
  | some text => c.emit ⟨tag, text⟩
  | none => c

/-- The stand-in for prints takes a text if that is its second argument. -/
theorem Traps.handlePrint_console (tag : String) (args : List Value) (w : World) :
    (handlePrint tag args w).2.console = w.console.take tag (args[1]?.bind Value.str?) := by
  unfold handlePrint Native.ofArgs Native.strArg
  dsimp only
  cases args[1]? with
  | none => rfl
  | some v =>
    cases v with
    | str text => rfl
    | void | int | bool | object => rfl

/-- Linking a call changes nothing but the loaders. -/
theorem link_world (env : Environment) (m : Machine) (caller : Module) (call : Frame.Call)
    (depth : Nat) : (link env m caller call depth).2.world = m.world := by
  rcases link_cases env m caller call depth with ⟨failure, hlink, -⟩ | ⟨_, _, -, -, hmachine, -⟩
  · rw [hlink]
  · rw [hmachine]

namespace Snapshot

variable {env : Environment} {tag : String}

theorem attemptCall_console (hhost : env.host.Captures tag) (m : Machine) (s : Snapshot)
    (waiting : Frame) (call : Frame.Call) :
    (attemptCall env m s waiting call).1.world.console =
      m.world.console.take tag
        (if call.symbol = Traps.printRule.target then call.args[1]?.bind Value.str? else none) := by
  unfold attemptCall
  split
  case h_1 native hfound =>
    have hconsole : (native call.args m.world).2.console =
        m.world.console.take tag
          (if call.symbol = Traps.printRule.target then call.args[1]?.bind Value.str?
            else none) := by
      by_cases hprint : call.symbol = Traps.printRule.target
      · rw [hprint, hhost.print] at hfound
        obtain rfl := Option.some.inj hfound
        rw [if_pos hprint]
        exact Traps.handlePrint_console tag call.args m.world
      · rw [if_neg hprint]
        exact hhost.silent _ _ hfound hprint call.args m.world
    rw [← hconsole]
    dsimp only
    split <;> rfl
  case h_2 hnone =>
    have hother : call.symbol ≠ Traps.printRule.target := by
      intro hprint
      rw [hprint, hhost.print] at hnone
      cases hnone
    have hworld := link_world env m s.frame.module call (s.callers.depth + 1)
    rw [if_neg hother, Console.take, ← hworld]
    dsimp only
    split <;> rfl

/-- An instruction leaves the console as it is, or with one line more that it is handed. -/
theorem attempt_console (hhost : env.host.Captures tag) (s : Snapshot) :
    (s.attempt env).1.world.console = s.machine.world.console.take tag (s.captured? env) := by
  unfold attempt captured?
  cases s.frame.execute env.host with
  | error failure => rfl
  | ok flow =>
    cases flow with
    | call waiting call => exact attemptCall_console hhost _ s waiting call
    | _ => rfl

end Snapshot

/-! ## Invocations -/

namespace Sandbox

variable {s : Sandbox} {entry : EntryPoint} {args : List Value}

/-- The snapshots whose instructions are executed in an invocation. -/
def trace (s : Sandbox) (entry : EntryPoint) (args : List Value) : List Snapshot :=
  match s.called entry args with
  | .error _ => []
  | .ok (module, index) => (s.machine entry).trace s.env module index args

/-- The call of an invocation visits the snapshots of its trace, and has fuel for their
instructions. -/
theorem visits_of_mem_trace {t : Snapshot} (h : t ∈ s.trace entry args) :
    ∃ module index, s.called entry args = .ok (module, index) ∧
      (s.machine entry).Visits s.env module index args t ∧
      t.machine.executed < s.env.limits.fuel := by
  unfold trace at h
  cases htarget : s.called entry args with
  | error e =>
    rw [htarget] at h
    cases h
  | ok target =>
    rcases target with ⟨module, index⟩
    rw [htarget] at h
    exact ⟨module, index, rfl, Machine.visits_of_mem_trace (Nat.zero_le _) h⟩

/-- The texts that the stand-in for prints takes in an invocation, in order. -/
def captured (s : Sandbox) (entry : EntryPoint) (args : List Value) : List String :=
  (s.trace entry args).filterMap (Snapshot.captured? s.env)

/-- An invocation hands the console the texts that are captured in it. -/
theorem invoke_console {tag : String} (hhost : s.env.host.Captures tag) (entry : EntryPoint)
    (args : List Value) :
    (s.invoke entry args).2.world.console =
      ((s.captured entry args).map (Line.mk tag)).foldl Console.emit s.world.console := by
  cases htarget : s.called entry args with
  | error e =>
    rw [invoke_of_error htarget, captured, trace, htarget]
    rfl
  | ok target =>
    rcases target with ⟨module, index⟩
    have hstep (t : Snapshot) : (t.attempt s.env).1.world.console =
        t.machine.world.console.take tag (t.captured? s.env) :=
      t.attempt_console hhost
    have hcall : ((s.machine entry).call s.env module index args).1.world.console =
        ((s.machine entry).trace s.env module index args).foldl
          (fun c t => c.take tag (t.captured? s.env)) (s.machine entry).world.console :=
      Machine.call_observed (fun m => m.world.console) hstep
    rw [invoke_of_ok htarget, captured, trace, htarget, List.foldl_map, List.foldl_filterMap]
    dsimp only
    rw [hcall]
    congr 1
    funext c t
    cases t.captured? s.env with
    | none => rfl
    | some text => rfl

end Sandbox

end Interposition
