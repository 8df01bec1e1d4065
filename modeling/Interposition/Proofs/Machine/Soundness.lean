import Interposition.Proofs.Image.WellFormed
import Interposition.Proofs.Linking.Defined
import Interposition.Proofs.Machine.Course
import Interposition.Proofs.Machine.Execution

/-!
# Interposition.Proofs.Machine.Soundness — verified code has no defects at run time

The heights that the verifier finds for a method are the heights of the stack whenever a frame
of the method is about to execute an instruction. `Snapshot.Sound` is the invariant: the frame
stands at its height, and every frame that waits will stand at its height when its call returns.
With it no instruction fails for a defect of the code (`Snapshot.attempt_sound`), whatever the
program does, calls or catches.
-/

namespace Interposition

/-! ## Verified modules -/

/-- A module as `define` makes it: the verifier accepts the image, and the table of offsets is
that of its code. -/
structure Module.Verified (m : Module) : Prop where
  verified : m.image.verify = .ok ()
  offsets_eq : m.offsets = m.image.methods.map fun method => Code.offsets method.code

/-- Whatever bytes define is verified. -/
theorem Module.verified_ofDefine : Module.OfDefine Module.Verified := by
  intro name bytes derived level m h
  rcases Module.define_eq_ok h with ⟨image, -, hverify, rfl⟩
  exact ⟨Image.verify_eq_ok_iff.2 (Image.verifyNamed_eq_ok_iff.1 hverify).1, rfl⟩

theorem Module.Verified.methodOffsets_eq {m : Module} (hm : m.Verified) {index : Nat}
    {method : Method} (hmethod : m.image.methods[index]? = some method) :
    m.methodOffsets index = Code.offsets method.code := by
  simp [methodOffsets, hm.offsets_eq, hmethod]

/-- Natives that do not themselves fail for a defect of code. -/
def Host.Sound (host : Host) : Prop :=
  ∀ symbol native, host.native? symbol = some native →
    ∀ args w failure, (native args w).1 = .failure failure → failure.isDefect = false

/-- The loaders of a machine have verified modules only. -/
def Machine.Verified (m : Machine) : Prop :=
  ∀ loader, m.loader = some loader → loader.All Module.Verified

/-! ## Heights -/

/-- Heights of the methods of images, by position. -/
abbrev Heights :=
  Image → Method → Nat → Option Nat

/-- Heights that keep the discipline of every method of every image the verifier accepts. -/
def Heights.Sound (heights : Heights) : Prop :=
  ∀ image, image.verify = .ok () → ∀ method ∈ image.methods, ∃ r,
    Routine.ofMethod image method = .ok r ∧ r.Discipline (heights image method)

theorem Heights.exists_sound : ∃ heights : Heights, heights.Sound := by
  classical
  have hall (image : Image) (method : Method) : ∃ heights : Nat → Option Nat,
      image.verify = .ok () → method ∈ image.methods →
        ∃ r, Routine.ofMethod image method = .ok r ∧ r.Discipline heights := by
    by_cases h : image.verify = .ok () ∧ method ∈ image.methods
    · rcases (Image.verify_eq_ok_iff.1 h.1).disciplined method h.2 with ⟨r, heights, hr, hd⟩
      exact ⟨heights, fun _ _ => ⟨r, hr, hd⟩⟩
    · exact ⟨fun _ => none, fun hverify hmem => absurd ⟨hverify, hmem⟩ h⟩
  choose heights hheights using hall
  exact ⟨heights, fun image hverify method hmem => hheights image method hverify hmem⟩

variable {heights : Heights}

/-! ## Frames -/

namespace Frame

/-- A frame of verified code with the slots its method asks for. -/
structure Fits (f : Frame) : Prop where
  verified : f.module.Verified
  locals_size : f.locals.size = f.method.maxLocals.toNat

/-- A frame about to execute an instruction on a stack of just the height found for it. -/
structure Stands (heights : Heights) (f : Frame) : Prop extends f.Fits where
  height : heights f.module.image f.method f.position = some f.stack.length

theorem Fits.of_stays {f g : Frame} (hf : f.Fits) (h : f.Stays g) : g.Fits := by
  refine ⟨by rw [h.module_eq]; exact hf.verified, ?_⟩
  rw [h.locals_size, h.method_eq, hf.locals_size]

/-- The routine of a frame of verified code. -/
theorem Fits.discipline {f : Frame} (hf : f.Fits) (hheights : heights.Sound) :
    ∃ r : Routine, r.pool = f.module.image.pool ∧ r.method = f.method ∧
      r.starts = f.module.methodOffsets f.index ∧
      r.Discipline (heights f.module.image f.method) := by
  rcases hheights _ hf.verified.verified _ f.method_mem with ⟨r, hr, hd⟩
  rcases Routine.ofMethod_eq_ok_iff.1 hr with ⟨_, _, _, _, _, _, _, rfl⟩
  exact ⟨_, rfl, rfl, (hf.verified.methodOffsets_eq f.method_found).symm, hd⟩

/-- A frame stands wherever it moves to on a stack of the height found there. -/
theorem Fits.moveTo {f : Frame} {position : Nat} (hf : f.Fits)
    (hposition : position < f.method.code.size)
    (hheight : heights f.module.image f.method position = some f.stack.length) :
    ∃ g, f.moveTo position = .ok g ∧ g.Stands heights := by
  rw [Frame.moveTo, dif_pos hposition]
  exact ⟨_, rfl, ⟨hf.verified, hf.locals_size⟩, hheight⟩

theorem Fits.jump {f : Frame} {target : UInt32} {goal : Nat} (hf : f.Fits)
    (hgoal : Code.position? (f.module.methodOffsets f.index) target.toNat = some goal)
    (hheight : heights f.module.image f.method goal = some f.stack.length) :
    ∃ g, f.jump target = .ok g ∧ g.Stands heights := by
  rw [Frame.jump, hgoal]
  have hlt : goal < f.method.code.size := by
    have h := Code.lt_of_position? hgoal
    rwa [hf.verified.methodOffsets_eq f.method_found, Code.offsets_size] at h
  exact hf.moveTo hlt hheight

/-- A failure that is caught goes on at a height that is right; one that is not leaves the
frame. -/
theorem Fits.raise {f : Frame} (hf : f.Fits) (hheights : heights.Sound) (failure : Failure) :
    (∃ g, f.raise failure = .ok g ∧ g.Stands heights) ∨
      f.catches failure = false ∧ f.raise failure = .error (.frame f.place failure) := by
  cases hcatches : f.catches failure with
  | false => exact Or.inr ⟨rfl, raise_of_not_catches hcatches⟩
  | true =>
    rcases raise_of_catches hcatches with ⟨handler, hmem, -, hraise⟩
    rcases hf.discipline hheights with ⟨r, -, hmethod, hstarts, hd⟩
    -- The target of a handler has height one: there is the message and nothing else.
    rcases hd.caught handler (by rwa [hmethod]) with ⟨goal, hgoal, hheight⟩
    rw [Routine.position?, hstarts] at hgoal
    obtain ⟨g, hg, hstands⟩ :=
      Fits.jump (f := { f with stack := [.str failure.root.message] })
        ⟨hf.verified, hf.locals_size⟩ hgoal hheight
    exact Or.inl ⟨g, hraise.trans hg, hstands⟩

/-- A method of a verified module is entered on its arguments, and its frame stands. -/
theorem enter_stands {m : Module} {index : Nat} {args : List Value} {method : Method}
    {descriptor : String} {signature : Signature} (hm : m.Verified) (hheights : heights.Sound)
    (hmethod : m.image.methods[index]? = some method)
    (hdescriptor : m.image.methodDescriptor? method = some descriptor)
    (hparse : Signature.parse descriptor = .ok signature)
    (hargs : args.length = Routine.argumentSlots method signature) :
    ∃ f, Frame.enter m index args = .ok f ∧ f.Stands heights := by
  have hmem : method ∈ m.image.methods := Array.mem_of_getElem? hmethod
  rcases hheights _ hm.verified _ hmem with ⟨r, hr, hd⟩
  rcases Routine.ofMethod_eq_ok_iff.1 hr with
    ⟨descriptor', _, signature', hdescriptor', -, hparse', hslots, rfl⟩
  obtain rfl : descriptor = descriptor' :=
    Option.some.inj (hdescriptor.symm.trans hdescriptor')
  obtain rfl : signature = signature' := Except.ok.inj (hparse.symm.trans hparse')
  -- The verifier has counted the slots for the arguments.
  have hfit : ¬ method.maxLocals.toNat < args.length := by omega
  rw [enter_of_some hmethod, if_neg hfit, dif_pos hd.nonempty]
  refine ⟨_, rfl, ⟨hm, ?_⟩, hd.entry⟩
  simp only [Array.size_append, List.size_toArray, Array.size_replicate]
  omega

end Frame

/-! ## Frames that wait -/

/-- A frame that stands at its height as soon as its call returns. -/
structure Caller.Waits (heights : Heights) (c : Caller) : Prop extends c.frame.Fits where
  position_lt : c.frame.position + 1 < c.frame.method.code.size
  height : heights c.frame.module.image c.frame.method (c.frame.position + 1) =
    some (c.frame.stack.length + if c.keepsResult then 1 else 0)

def Callers.Wait (heights : Heights) (cs : Callers) : Prop :=
  ∀ c ∈ cs.list, c.Waits heights

/-- A frame that is left at its next instruction, with a result if it keeps one, stands. -/
theorem Caller.Waits.advance {c : Caller} (hc : c.Waits heights) (value : Value) :
    ∃ g, (if c.keepsResult then c.frame.push value else c.frame).advance = .ok g ∧
      g.Stands heights := by
  have hheight := hc.height
  split
  case isTrue hkeeps =>
    rw [if_pos hkeeps] at hheight
    have hfits : (c.frame.push value).Fits := hc.toFits.of_stays (.push (.refl _) _)
    exact hfits.moveTo hc.position_lt hheight
  case isFalse hkeeps =>
    rw [if_neg hkeeps] at hheight
    exact hc.toFits.moveTo hc.position_lt hheight

/-- What is caught of a failure that is no defect is no defect. -/
theorem Failure.isDefect_of_mem_caughtIn (hheights : heights.Sound) {fs : List Frame}
    (hfs : ∀ f ∈ fs, f.Fits) {failure caught : Failure} (hfailure : failure.isDefect = false)
    (hmem : caught ∈ failure.caughtIn fs) : caught.isDefect = false := by
  induction fs generalizing failure with
  | nil => simp [caughtIn] at hmem
  | cons f outer ih =>
    rcases List.forall_mem_cons.1 hfs with ⟨hf, houter⟩
    rcases hf.raise hheights failure with ⟨g, hg, -⟩ | ⟨hcatches, hraise⟩
    · simp only [caughtIn, hg] at hmem
      split at hmem
      · rcases List.mem_singleton.1 hmem with rfl
        exact hfailure
      · simp at hmem
    · simp only [caughtIn, hcatches, hraise, Bool.false_eq_true, if_false] at hmem
      exact ih houter (by simpa using hfailure) hmem

/-! ## Steps -/

/-- What comes after a step of verified code. -/
def Progress.Sound (heights : Heights) : Progress → Prop
  | running f callers => f.Stands heights ∧ callers.Wait heights
  | ended (.failed failure) => failure.isDefect = false
  | ended _ => True

/-- What an instruction of verified code comes to: control is never lost, and no failure is one
for a defect of the code. -/
def Attempt.Sound (heights : Heights) : Attempt → Prop
  | moves outcome callers => (∃ f, outcome = .ok f ∧ f.Stands heights) ∧ callers.Wait heights
  | raises failure => failure.isDefect = false
  | ends (.failed _) => False
  | ends _ => True

theorem unwind_sound (hheights : heights.Sound) {cs : List Caller}
    (hcs : ∀ c ∈ cs, c.Waits heights) {failure : Failure} (hfailure : failure.isDefect = false) :
    (unwind failure cs).Sound heights := by
  induction cs generalizing failure with
  | nil => exact hfailure
  | cons c rest ih =>
    rcases List.forall_mem_cons.1 hcs with ⟨hc, hrest⟩
    rw [unwind]
    rcases hc.toFits.raise hheights failure with ⟨g, hg, hstands⟩ | ⟨-, hraise⟩
    · rw [hg]
      exact ⟨hstands, hrest⟩
    · rw [hraise]
      exact ih hrest (by simpa using hfailure)

namespace Attempt

variable {a : Attempt} {f : Frame} {callers : Callers}

theorem Sound.settle (ha : a.Sound heights) (hheights : heights.Sound) (hf : f.Fits)
    (hcallers : callers.Wait heights) : (a.settle f callers).Sound heights := by
  cases a with
  | moves outcome callers' =>
    rcases ha with ⟨⟨g, rfl, hstands⟩, hwait⟩
    exact ⟨hstands, hwait⟩
  | raises failure =>
    rcases hf.raise hheights failure with ⟨g, hg, hstands⟩ | ⟨-, hraise⟩
    · rw [Attempt.settle, hg]
      exact ⟨hstands, hcallers⟩
    · rw [Attempt.settle, hraise]
      have hfailure : failure.isDefect = false := ha
      exact unwind_sound hheights hcallers (by simpa using hfailure)
  | ends ending =>
    cases ending with
    | failed failure => exact ha.elim
    | returned value => trivial
    | exited code => trivial

theorem Sound.caught (ha : a.Sound heights) (hheights : heights.Sound) (hf : f.Fits)
    (hcallers : callers.Wait heights) :
    ∀ failure ∈ a.caught f callers, failure.isDefect = false := by
  intro failure hmem
  cases a with
  | moves outcome callers' =>
    rcases ha with ⟨⟨g, rfl, -⟩, -⟩
    simp [Attempt.caught] at hmem
  | raises raised =>
    have hfits : ∀ g ∈ f :: callers.list.map Caller.frame, g.Fits := by
      simp only [List.forall_mem_cons, List.forall_mem_map]
      exact ⟨hf, fun c hc => (hcallers c hc).toFits⟩
    exact Failure.isDefect_of_mem_caughtIn hheights hfits ha hmem
  | ends ending => simp [Attempt.caught] at hmem

end Attempt

/-! ## Instructions -/

/-- What the discipline says about the instruction of a frame that stands: its effect applies,
and where control goes on the height is that after it. -/
theorem Frame.Stands.allows {f : Frame} (hf : f.Stands heights) (hheights : heights.Sound)
    (host : Host) :
    ∃ e, f.Conforms e (f.execute host) ∧ e.pops ≤ f.stack.length ∧
      (∀ target, f.instruction.jumpTarget? = some target →
        ∃ goal, Code.position? (f.module.methodOffsets f.index) target.toNat = some goal ∧
          heights f.module.image f.method goal = some (f.stack.length - e.pops + e.pushes)) ∧
      (f.instruction.isTerminal = false → f.position + 1 < f.method.code.size ∧
        heights f.module.image f.method (f.position + 1) =
          some (f.stack.length - e.pops + e.pushes)) := by
  rcases hf.discipline hheights with ⟨r, hpool, hmethod, hstarts, hd⟩
  rcases hd.closed _ _ hf.height with ⟨i, e, hi, he, hpops, hjump, hnext⟩
  rw [hmethod] at hi
  obtain rfl := instruction_eq_of_getElem? hi
  have hlocals : f.locals.size = r.method.maxLocals.toNat := by rw [hmethod, hf.locals_size]
  refine ⟨e, Frame.execute_conforms hpool hlocals he hpops, hpops, ?_, ?_⟩
  · simpa only [Routine.position?, hstarts] using hjump
  · simpa only [hmethod] using hnext

/-- A frame with another stack stands at the next instruction if the stack has the height there. -/
theorem Frame.Fits.advance {f g : Frame} {height : Nat} (hg : g.Fits) (hstays : f.Stays g)
    (hlt : f.position + 1 < f.method.code.size)
    (hheight : heights f.module.image f.method (f.position + 1) = some height)
    (hlength : g.stack.length = height) : ∃ k, g.advance = .ok k ∧ k.Stands heights := by
  rw [← hstays.position_eq, ← hstays.method_eq] at hlt
  rw [← hstays.position_eq, ← hstays.method_eq, ← hstays.module_eq, ← hlength] at hheight
  exact hg.moveTo hlt hheight

/-- A frame that calls waits for the return. -/
theorem Frame.Stands.waits {f g : Frame} (hf : f.Stands heights) (hheights : heights.Sound)
    {host : Host} {call : Frame.Call} (h : f.execute host = .ok (.call g call)) :
    (Caller.mk g call.keepsResult).Waits heights := by
  rcases hf.allows hheights host with ⟨e, hconforms, hpops, -, hnext⟩
  rw [h] at hconforms
  rcases hconforms with ⟨hlength, hpushes⟩
  rcases Frame.execute_of h with ⟨kind, index, hi, hcall⟩
  have hstays := Frame.call_stays hcall
  rcases hnext (by rw [hi]; rfl) with ⟨hlt, hheight⟩
  refine ⟨hf.toFits.of_stays hstays, ?_, ?_⟩
  · rwa [hstays.position_eq, hstays.method_eq]
  · have hafter : f.stack.length - e.pops = g.stack.length := by omega
    rw [hafter, hpushes] at hheight
    rwa [hstays.position_eq, hstays.method_eq, hstays.module_eq]

/-! ## Calls -/

/-- The method that is found for a name, a descriptor and a kind of call. -/
theorem Image.of_findMethod?_filter {image : Image} {name descriptor : String} {static : Bool}
    {index : Nat}
    (h : (image.findMethod? name descriptor).filter (fun index =>
      image.methods[index]?.any fun method => method.isStatic == static) = some index) :
    ∃ method, image.methods[index]? = some method ∧
      image.methodDescriptor? method = some descriptor ∧ method.isStatic = static := by
  rcases Option.filter_eq_some_iff.1 h with ⟨hfind, hkind⟩
  rcases Array.findIdx?_eq_some_iff_getElem.1 hfind with ⟨hlt, hfound, -⟩
  rw [Array.getElem?_eq_getElem hlt] at hkind ⊢
  refine ⟨_, rfl, ?_, by simpa using hkind⟩
  have hboth := by simpa using hfound
  exact hboth.2

/-- A linked call enters a verified method on as many arguments as it has slots for. -/
theorem link_sound (env : Environment) {m : Machine} (caller : Module) {call : Frame.Call}
    (depth : Nat) (hm : m.Verified) (hheights : heights.Sound)
    (hparse : Signature.parse call.descriptor = .ok call.symbol.signature)
    (hargs : call.args.length =
      call.symbol.signature.arity + call.symbol.kind.receivers) :
    (link env m caller call depth).2.Verified ∧
      ((∃ f, (link env m caller call depth).1 = .ok f ∧ f.Stands heights) ∨
        ∃ failure, (link env m caller call depth).1 = .error failure ∧
          failure.isDefect = false) := by
  rcases link_cases env m caller call depth with
    ⟨failure, hlink, hfailure⟩ | ⟨loader, level, hloader, -, hmachine, hanswer⟩
  · rw [hlink]
    exact ⟨hm, Or.inr ⟨failure, rfl, hfailure⟩⟩
  · obtain ⟨hall, hverified⟩ :=
      Loader.resolveAt_all Module.verified_ofDefine level call.symbol.owner (hm loader hloader)
    refine ⟨?_, ?_⟩
    · rw [hmachine]
      rintro _ ⟨⟩
      exact hall
    · rcases hanswer with hfailure | ⟨target, index, htarget, hindex, henter⟩
      · exact Or.inr hfailure
      · rcases Image.of_findMethod?_filter hindex with ⟨method, hmethod, hdescriptor, hstatic⟩
        have hslots : call.args.length =
            Routine.argumentSlots method call.symbol.signature := by
          rw [hargs, Routine.argumentSlots, hstatic, Symbol.isStatic]
          cases call.symbol.kind <;> rfl
        rw [henter]
        exact Or.inl (Frame.enter_stands (hverified target htarget) hheights hmethod hdescriptor
          hparse hslots)

theorem attemptCall_sound {env : Environment} {m : Machine} {s : Snapshot} {waiting : Frame}
    {call : Frame.Call} (hhost : env.host.Sound) (hheights : heights.Sound) (hm : m.Verified)
    (hcallers : s.callers.Wait heights)
    (hwaits : (Caller.mk waiting call.keepsResult).Waits heights)
    (hparse : Signature.parse call.descriptor = .ok call.symbol.signature)
    (hargs : call.args.length =
      call.symbol.signature.arity + call.symbol.kind.receivers) :
    (attemptCall env m s waiting call).1.Verified ∧
      (attemptCall env m s waiting call).2.Sound heights := by
  unfold attemptCall
  split
  case h_1 native hnative =>
    dsimp only
    split
    case h_1 v hanswer => exact ⟨hm, hwaits.advance v, hcallers⟩
    case h_2 failure hanswer => exact ⟨hm, hhost _ _ hnative _ _ _ hanswer⟩
    case h_3 code hanswer => exact ⟨hm, trivial⟩
  case h_2 =>
    rcases link_sound env s.frame.module (s.callers.depth + 1) hm hheights hparse hargs with
      ⟨hlinked, hanswer⟩
    dsimp only
    rcases hanswer with ⟨f, hf, hstands⟩ | ⟨failure, hfailure, hdefect⟩
    · simp only [hf]
      exact ⟨hlinked, ⟨f, rfl, hstands⟩, List.forall_mem_cons.2 ⟨hwaits, hcallers⟩⟩
    · simp only [hfailure]
      exact ⟨hlinked, hdefect⟩

/-! ## Snapshots -/

/-- The invariant of a run of verified code. -/
structure Snapshot.Sound (heights : Heights) (s : Snapshot) : Prop where
  machine : s.machine.Verified
  frame : s.frame.Stands heights
  callers : s.callers.Wait heights

/-- A value is returned to a frame that waits for it. -/
theorem Callers.receive_sound {cs : Callers} (hcs : cs.Wait heights) (value : Value) :
    (cs.receive value).Sound heights := by
  unfold Callers.receive
  split
  case h_1 => trivial
  case h_2 c rest hpop =>
    rw [Callers.Wait, Callers.list_of_pop? hpop] at hcs
    rcases List.forall_mem_cons.1 hcs with ⟨hc, hrest⟩
    exact ⟨hc.advance value, hrest⟩

theorem Snapshot.attempt_sound {env : Environment} {s : Snapshot} (hs : s.Sound heights)
    (hheights : heights.Sound) (hhost : env.host.Sound) :
    (s.attempt env).1.Verified ∧ (s.attempt env).2.Sound heights := by
  rcases hs.frame.allows hheights env.host with ⟨e, hconforms, hpops, hjump, hnext⟩
  have hfits := hs.frame.toFits
  unfold attempt
  cases hexecute : s.frame.execute env.host with
  | error failure =>
    rw [hexecute] at hconforms
    exact ⟨hs.machine, hconforms⟩
  | ok flow =>
    rw [hexecute] at hconforms
    have hof := Frame.execute_of hexecute
    cases flow with
    | next g =>
      rcases hof with ⟨hstays, hterminal⟩
      rcases hnext hterminal with ⟨hlt, hheight⟩
      -- Falling through: the height found for the next instruction is that after the effect.
      have hlength : g.stack.length = s.frame.stack.length - e.pops + e.pushes := by
        simp only [Frame.Conforms] at hconforms
        omega
      exact ⟨hs.machine, (hfits.of_stays hstays).advance hstays hlt hheight hlength, hs.callers⟩
    | jump g target =>
      rcases hof with ⟨hstays, htarget⟩
      rcases hjump target htarget with ⟨goal, hgoal, hheight⟩
      have hlength : g.stack.length = s.frame.stack.length - e.pops + e.pushes := by
        simp only [Frame.Conforms] at hconforms
        omega
      rw [← hstays.module_eq, ← hstays.index_eq] at hgoal
      rw [← hstays.module_eq, ← hstays.method_eq, ← hlength] at hheight
      exact ⟨hs.machine, (hfits.of_stays hstays).jump hgoal hheight, hs.callers⟩
    | ret value => exact ⟨hs.machine, Callers.receive_sound hs.callers value⟩
    | allocate g typeName =>
      rcases hof with ⟨hstays, index, hi⟩
      rcases hnext (by rw [hi]; rfl) with ⟨hlt, hheight⟩
      have hstays' := hstays.push (s.machine.world.allocate typeName).1
      have hlength : (g.push (s.machine.world.allocate typeName).1).stack.length =
          s.frame.stack.length - e.pops + e.pushes := by
        simp only [Frame.Conforms] at hconforms
        simp only [Frame.push, List.length_cons]
        omega
      exact ⟨hs.machine, (hfits.of_stays hstays').advance hstays' hlt hheight hlength, hs.callers⟩
    | call g call =>
      rcases hof with ⟨kind, index, -, hcall⟩
      rcases Frame.call_args hcall with ⟨hparse, rfl, hargs⟩
      exact attemptCall_sound hhost hheights hs.machine hs.callers
        (hs.frame.waits hheights hexecute) hparse hargs

/-- A step of a run keeps the invariant. -/
theorem Snapshot.Sound.next {env : Environment} {s t : Snapshot} (hs : s.Sound heights)
    (hheights : heights.Sound) (hhost : env.host.Sound) (h : s.Leads env t) :
    t.Sound heights := by
  rcases attempt_sound hs hheights hhost with ⟨hm, ha⟩
  have hsettle := ha.settle hheights hs.frame.toFits hs.callers
  rcases h.settles with ⟨hmachine, hprogress⟩
  rw [hprogress] at hsettle
  rw [hmachine] at hm
  exact ⟨hm, hsettle.1, hsettle.2⟩

theorem Snapshot.Reaches.sound {env : Environment} {s t : Snapshot} (h : s.Reaches env t)
    (hs : s.Sound heights) (hheights : heights.Sound) (hhost : env.host.Sound) :
    t.Sound heights :=
  h.invariant hs fun _ _ ha hleads => ha.next hheights hhost hleads

/-! ## Runs -/

/-- Leaving all frames changes nothing about what went wrong. -/
theorem isDefect_abandon (failure : Failure) (frame : Frame) (callers : Callers) :
    (abandon failure frame callers).isDefect = failure.isDefect := by
  have hfold (cs : List Caller) (failure : Failure) :
      (cs.foldl (fun failure c => Failure.frame c.frame.place failure) failure).isDefect =
        failure.isDefect := by
    induction cs generalizing failure with
    | nil => rfl
    | cons c rest ih => rw [List.foldl_cons, ih, Failure.isDefect_frame]
  rw [abandon, hfold, Failure.isDefect_frame]

/-- A run of verified code does not end for a defect of the code. -/
theorem run_sound {env : Environment} {fuel : Nat} {s : Snapshot} {failure : Failure}
    (hs : s.Sound heights) (hheights : heights.Sound) (hhost : env.host.Sound)
    (h : (run env fuel s.machine s.frame s.callers).2 = .failed failure) :
    failure.isDefect = false := by
  rcases Snapshot.run_last env fuel s with ⟨last, hreaches, hnext | habandon⟩
  -- The run ends by a step, whose attempt is sound.
  · have hlast := hreaches.sound hs hheights hhost
    have hsettle := (Snapshot.attempt_sound hlast hheights hhost).2.settle hheights
      hlast.frame.toFits hlast.callers
    have hprogress := (Prod.mk.inj ((last.next_eq_settle env).symm.trans hnext)).2
    rw [hprogress, h] at hsettle
    exact hsettle
  -- The fuel is gone, which is no defect of the code.
  · rw [habandon] at h
    rcases Ending.failed.inj h with rfl
    rw [isDefect_abandon]
    rfl

/-- Verified code has no defects: there is a table of heights such that, on a host whose natives
do not fail so themselves, a call of a method of a verified module on as many arguments as the
method has slots for

* does not end with a failure for a defect of the code,
* has no such failure caught on the way, and
* has the one height of the table on the stack whenever a frame is about to execute an
  instruction, however control came there. -/
theorem Machine.call_sound :
    ∃ height : Image → Method → Nat → Nat,
      ∀ (env : Environment) (m : Machine) (target : Module) (index : Nat) (method : Method)
        (descriptor : String) (signature : Signature) (args : List Value),
      env.host.Sound → m.Verified → target.Verified →
      target.image.methods[index]? = some method →
      target.image.methodDescriptor? method = some descriptor →
      Signature.parse descriptor = .ok signature →
      args.length = Routine.argumentSlots method signature →
      (∀ failure, (m.call env target index args).2 = .failed failure →
        failure.isDefect = false) ∧
      ∀ f s, Frame.enter target index args = .ok f → Snapshot.Reaches env ⟨m, f, .empty⟩ s →
        (∀ failure ∈ s.caught env, failure.isDefect = false) ∧
        s.frame.stack.length = height s.frame.module.image s.frame.method s.frame.position := by
  rcases Heights.exists_sound with ⟨heights, hheights⟩
  refine ⟨fun image method position => (heights image method position).getD 0, ?_⟩
  intro env m target index method descriptor signature args hhost hm htarget hmethod hdescriptor
    hparse hargs
  rcases Frame.enter_stands htarget hheights hmethod hdescriptor hparse hargs with
    ⟨entered, henter, hstands⟩
  have hstart : Snapshot.Sound heights ⟨m, entered, .empty⟩ :=
    ⟨hm, hstands, by simp [Callers.Wait, Callers.empty]⟩
  constructor
  · intro failure hfailure
    unfold Machine.call at hfailure
    split at hfailure
    · rcases Ending.failed.inj hfailure with rfl
      rfl
    · rw [henter] at hfailure
      exact run_sound hstart hheights hhost hfailure
  · intro f s hf hreaches
    obtain rfl : entered = f := Except.ok.inj (henter.symm.trans hf)
    have hs := hreaches.sound hstart hheights hhost
    refine ⟨?_, ?_⟩
    · exact (Snapshot.attempt_sound hs hheights hhost).2.caught hheights hs.frame.toFits
        hs.callers
    · simp only [hs.frame.height, Option.getD_some]

/-- An entry that catches what the method it calls throws. -/
def Image.catching : Image where
  major := 1
  minor := 0
  pool := ⟨#[.utf8 "a", .utf8 "run", .utf8 "fail", .utf8 "()T", .utf8 "boom", .str 4,
    .method ⟨0, 2, 3⟩]⟩
  thisName := 0
  methods := #[
    ⟨1, 1, 3, 0, #[.invoke .static 6, .retValue], [⟨0, 3, 3⟩]⟩,
    ⟨1, 2, 3, 0, #[.const 5, .throw], []⟩]

def Module.catching : Module where
  name := "a"
  bytes := []
  image := .catching
  offsets := Image.catching.methods.map fun method => Code.offsets method.code
  derived := false
  level := some 0

theorem Machine.call_sound_catching :
    let m : Machine := ⟨0, some (.bundle ⟨.memory [], ⟨[.catching]⟩⟩), .initial 4⟩
    let env : Environment := ⟨.empty, ⟨10, 2⟩⟩
    (match (m.call env .catching 0 []).2 with
      | .returned v => v.str?
      | _ => none) = some "boom" ∧
      ∃ height : Image → Method → Nat → Nat, ∀ f s, Frame.enter .catching 0 [] = .ok f →
        Snapshot.Reaches env ⟨m, f, .empty⟩ s →
          (∀ failure ∈ s.caught env, failure.isDefect = false) ∧
          s.frame.stack.length =
            height s.frame.module.image s.frame.method s.frame.position := by
  refine ⟨by decide +kernel, ?_⟩
  have hverified : Module.catching.Verified := ⟨by decide +kernel, rfl⟩
  rcases Machine.call_sound with ⟨height, hsound⟩
  have hcall := hsound ⟨.empty, ⟨10, 2⟩⟩
    ⟨0, some (.bundle ⟨.memory [], ⟨[.catching]⟩⟩), .initial 4⟩ .catching 0 _ "()T"
    ⟨[], some .str⟩ [] (by rintro symbol native ⟨⟩)
    (by rintro _ ⟨⟩; simpa [Loader.All] using hverified) hverified rfl rfl
    (by decide +kernel) rfl
  exact ⟨height, hcall.2⟩

end Interposition
