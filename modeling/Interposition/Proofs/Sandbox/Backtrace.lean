import Interposition.Proofs.Machine.Backtrace
import Interposition.Proofs.Sandbox.Boundary

/-!
# Interposition.Proofs.Sandbox.Backtrace — what a crash tells of the program

The failure that an invocation ends with has one layer for each frame that was active where it
failed, the entry method outermost. The chain that is reported of a crash is these layers in order
and then the cause, with the errors that it was made from (`Sandbox.invoke_fails`).

Natives could put failures of their own into layers. Those of the core library and of the traps do
not (`Traps.unlayered_of_install`).
-/

namespace Interposition

/-! ## Natives -/

namespace Native

/-- A native that reads its arguments fails in no layers if neither the reading nor what it does
then does. -/
theorem unlayered_ofArgs {α : Type} {read : List Value → Except Failure α}
    {act : α → World → Answer × World} (hread : ∀ args, FailsPlainly (read args))
    (hact : ∀ a w failure, (act a w).1 = .failure failure → failure.isLayered = false) :
    (ofArgs read act).Unlayered := by
  intro args w failure h
  unfold ofArgs at h
  cases hargs : read args with
  | error e =>
    rw [hargs] at h
    obtain rfl := Answer.failure.inj h
    exact (hread args e hargs).unlayered
  | ok a =>
    rw [hargs] at h
    exact hact a w failure h

theorem intArg_plain (name : String) (args : List Value) (index : Nat) :
    FailsPlainly (intArg name args index) := by
  unfold intArg
  split
  · exact .ok _
  · exact .error ⟨rfl, rfl⟩

theorem strArg_plain (name : String) (args : List Value) (index : Nat) :
    FailsPlainly (strArg name args index) := by
  unfold strArg
  split
  · exact .ok _
  · exact .error ⟨rfl, rfl⟩

end Native

theorem Core.printArgs_plain (args : List Value) : FailsPlainly (printArgs args) := by
  unfold printArgs
  split
  · exact .bind (Native.strArg_plain _ _ _) fun _ => .ok _
  · exact .error ⟨rfl, rfl⟩

theorem Host.Unlayered.register {host : Host} (h : host.Unlayered) (symbol : Symbol)
    {native : Native} (hnative : native.Unlayered) : (host.register symbol native).Unlayered := by
  intro called found hfound
  rw [Host.native?, Host.register, List.lookup_cons] at hfound
  split at hfound
  case h_1 =>
    obtain rfl := Option.some.inj hfound
    exact hnative
  case h_2 => exact h called found hfound

/-- The core library fails in no layers. -/
theorem Core.host_unlayered : Core.host.Unlayered := by
  have hfields : ∀ fields, Host.Unlayered ⟨[], fields⟩ := by
    intro fields called native hnative
    cases hnative
  refine .register (.register (.register (hfields _) _ ?_) _ ?_) _ ?_
  · exact Native.unlayered_ofArgs (Native.intArg_plain _ · _) (by rintro _ _ _ ⟨⟩)
  · exact Native.unlayered_ofArgs printArgs_plain (by rintro _ _ _ ⟨⟩)
  · exact Native.unlayered_ofArgs (Native.strArg_plain _ · _) (by rintro _ _ _ ⟨⟩)

/-- Nor do the natives that stand in. An exit request is raised as it is. -/
theorem Traps.unlayered_of_install {tag : String} {forced : List String} {host host' : Host}
    {r r' : Registry} (h : install tag forced host r = (.ok host', r')) (hhost : host.Unlayered) :
    host'.Unlayered := by
  rcases install_ok h with ⟨-, rfl⟩
  refine .register (.register (.register hhost _ ?_) _ ?_) _ ?_
  · refine Native.unlayered_ofArgs (Native.intArg_plain _ · _) ?_
    rintro code w _ ⟨⟩
    rfl
  · exact Native.unlayered_ofArgs (Native.strArg_plain _ · _) (by rintro _ _ _ ⟨⟩)
  · exact Native.unlayered_ofArgs (Native.strArg_plain _ · _) (by rintro _ _ _ ⟨⟩)

/-! ## Invocations -/

namespace Sandbox

variable {s : Sandbox} {entry : EntryPoint} {args : List Value} {module : Module} {index : Nat}

/-- An invocation starts in the method that the entry point names. -/
theorem describe_called (h : s.called entry args = .ok (module, index)) :
    module.name = entry.module ∧
      module.image.describeMethod index = entry.method ++ entry.descriptor := by
  rcases called_eq_ok_iff.1 h with ⟨hmodule, hfind⟩
  exact ⟨Loader.name_of_resolve ((s.resolveEntry_eq entry).2 _ hmodule),
    Image.describeMethod_of_find (EntryPoint.found hfind).1⟩

/-- With verified modules only, it starts in a frame that stands. -/
theorem sound_called {heights : Heights} (hheights : heights.Sound)
    (hverified : s.loader.All Module.Verified) (h : s.called entry args = .ok (module, index)) :
    ∃ frame, Frame.enter module index args = .ok frame ∧
      Snapshot.Sound heights ⟨s.machine entry, frame, .empty⟩ := by
  rcases called_eq_ok_iff.1 h with ⟨hmodule, hfind⟩
  rcases s.resolveEntry_eq entry with ⟨hloader, hanswer⟩
  have hresolves := @Loader.resolve_all _ Module.verified_ofDefine _ entry.module hverified
  have hmoduleVerified : module.Verified := hresolves.2 _ (hanswer module hmodule)
  rcases EntryPoint.find_eq_ok hfind with ⟨method, signature, hmethod, hdescriptor, hparse, hargs⟩
  rcases Frame.enter_stands hmoduleVerified hheights hmethod hdescriptor hparse hargs with
    ⟨frame, henter, hstands⟩
  refine ⟨frame, henter, ?_, hstands, by simp [Callers.Wait, Callers.empty]⟩
  rintro loader ⟨⟩
  rw [hloader]
  exact hresolves.1

/-- Chains of causes name all frames. Let the modules be verified, let no native fail in layers,
let there be room for a frame, and let the run of an invocation end with a failure. Then it failed
at a snapshot `t` of the run, for a cause that was raised there:

* the failure is that cause as it was raised, in one layer for each frame that was active there, the
  outermost that of the entry method, and each frame but the innermost is at the call of the method
  that the next one is of (`Machine.FailsAt`);
* if the invocation is a crash, what is reported of it is a header, these layers from the outermost
  to the innermost, the cause, and the errors that the cause was made from (`Failure.sources`). -/
theorem invoke_fails {failure : Failure} (hverified : s.loader.All Module.Verified)
    (hhost : s.env.host.Unlayered) (hdepth : 1 ≤ s.env.limits.maxCallDepth)
    (hcalled : s.called entry args = .ok (module, index))
    (hfailed : ((s.machine entry).call s.env module index args).2 = .failed failure) :
    ∃ t cause, (s.machine entry).FailsAt s.env module index args failure t cause ∧
      failure.root = cause ∧
      (∃ offset inner,
        failure = .frame ⟨entry.module, entry.method ++ entry.descriptor, offset⟩ inner) ∧
      ∀ text crashed, (s.invoke entry args).1 = .ok (.crash text crashed) →
        text = entry.text ∧ crashed = failure ∧
        Outcome.crashChain text crashed =
          s!"subsystem crashed in {entry.text}" ::
            (t.stack.reverse.map fun f =>
              s!"at {f.place.module}.{f.place.method} @{f.place.offset}") ++
            cause.message :: cause.sources := by
  rcases Heights.exists_sound with ⟨heights, hheights⟩
  rcases sound_called hheights hverified hcalled with ⟨frame, henter, hsound⟩
  rcases Machine.call_fails hhost hheights hdepth henter hsound hfailed with ⟨t, cause, hfails⟩
  refine ⟨t, cause, hfails, ?_, ?_, ?_⟩
  · rw [hfails.layers, ← t.abandon_eq_layered, root_abandon]
    exact Failure.root_of_unlayered hfails.unlayered
  · rcases hfails.backtrace.exists_outermost with ⟨inner, f, hstack, hmodule, hindex⟩
    rcases describe_called hcalled with ⟨hname, hmethod⟩
    refine ⟨f.place.offset, cause.layered inner, ?_⟩
    rw [hfails.layers, hstack, Failure.layered_concat, ← hname, ← hmethod, ← hmodule, ← hindex]
    rfl
  · intro text crashed hcrash
    rw [invoke_of_ok hcalled, Ending.outcome_eq_crash_iff, hfailed] at hcrash
    rcases hcrash with ⟨rfl, hsame, -⟩
    obtain rfl := Ending.failed.inj hsame
    refine ⟨rfl, rfl, ?_⟩
    rw [Outcome.crashChain, hfails.layers, cause.layered_messages, List.cons_append,
      Failure.causes_of_unlayered hfails.unlayered]

end Sandbox

/-- A program whose method `main` catches what `risky` throws and then calls `deep`, which calls
into a module that has no proper image. -/
def Image.recovering : Image where
  major := 1
  minor := 0
  pool := ⟨#[.utf8 "a", .utf8 "main", .utf8 "()V", .utf8 "risky", .utf8 "deep", .utf8 "b",
    .utf8 "boom", .str 6, .method ⟨0, 3, 2⟩, .method ⟨0, 4, 2⟩, .method ⟨5, 1, 2⟩]⟩
  thisName := 0
  methods := #[
    ⟨1, 1, 2, 0, #[.invoke .static 8, .ret, .pop, .invoke .static 9, .ret], [⟨0, 3, 4⟩]⟩,
    ⟨1, 3, 2, 0, #[.const 7, .throw], []⟩,
    ⟨1, 4, 2, 0, #[.invoke .static 10, .ret], []⟩]

def Sandbox.recovering : Sandbox where
  env := ⟨Core.host, ⟨20, 4⟩⟩
  loader := .bundle (.of (.memory [(resourcePath "a", Image.recovering.bytes),
    (resourcePath "b", [0x00])]))
  world := .initial 4

namespace Sandbox

/-- The method that has returned to a handler is in no layer, and what the link failed for comes
last. -/
theorem invoke_fails_recovering :
    ∃ module index failure t cause,
      recovering.called (.main "a") [] = .ok (module, index) ∧
      (recovering.machine (.main "a")).FailsAt recovering.env module index [] failure t cause ∧
      failure = .frame ⟨"a", "main()V", 5⟩ (.frame ⟨"a", "deep()V", 0⟩ cause) ∧
      cause = .link "b" (.decode (.truncated 0 3)) ∧
      (recovering.invoke (.main "a") []).1 = .ok (.crash "a.main()V" failure) ∧
      Outcome.crashChain "a.main()V" failure =
        ["subsystem crashed in a.main()V", "at a.main()V @5", "at a.deep()V @0",
          "cannot link `b`",
          "malformed module image: unexpected end of input at byte 0 (needed 3 more)",
          "unexpected end of input at byte 0 (needed 3 more)"] := by
  have hends : ((recovering.called (.main "a") []).toOption.bind fun target =>
      ((recovering.machine (.main "a")).call recovering.env target.1 target.2 []).2.failure?) =
        some (.frame ⟨"a", "main()V", 5⟩
          (.frame ⟨"a", "deep()V", 0⟩ (.link "b" (.decode (.truncated 0 3))))) := by
    decide +kernel
  rcases Option.bind_eq_some_iff.1 hends with ⟨⟨module, index⟩, htarget, hfailed⟩
  have hcalled := toOption_eq_some_iff.1 htarget
  have hending := Ending.failure?_eq_some_iff.1 hfailed
  have hverified : recovering.loader.All Module.Verified := by
    simp [recovering, Loader.All, Bundle.of, Space.empty]
  rcases invoke_fails hverified Core.host_unlayered (by decide) hcalled hending with
    ⟨t, cause, hfails, hroot, -, -⟩
  obtain rfl : _ = cause := hroot
  refine ⟨module, index, _, t, _, hcalled, hfails, rfl, rfl, ?_, by decide +kernel⟩
  rw [invoke_of_ok hcalled, Ending.outcome_eq_crash_iff]
  exact ⟨rfl, hending, by rintro code ⟨⟩⟩

end Sandbox

end Interposition
