import Interposition.Proofs.Linking.Growth
import Interposition.Proofs.Machine.Standing
import Interposition.Proofs.Machine.Stopping

/-!
# Interposition.Proofs.Machine.Backtrace — the layers of a failure are the frames it left

A failure is raised in the innermost frame (`Snapshot.Raises`). If a frame catches it the run goes
on there, so what a run ends with was caught by none of the frames that were active, and has one
layer for each (`Snapshot.Sound.exists_raises`). That no frame loses control is what verified code
is needed for: such a failure would have no layer for the frame it arose in.

That the layers say who called whom is an invariant of the frames (`Backtrace`). A step either goes
on in an active frame, with all those inside it gone, or enters one more, for which the frame that
called waits at its call (`Snapshot.Leads.stack_cases`), and a frame that waits is not changed.
-/

namespace Interposition

variable {heights : Heights} {env : Environment}

/-! ## Layers -/

/-- A native does not itself fail in layers. -/
def Native.Unlayered (native : Native) : Prop :=
  ∀ args w failure, (native args w).1 = .failure failure → failure.isLayered = false

/-- No native of the host fails in layers. -/
def Host.Unlayered (host : Host) : Prop :=
  ∀ symbol native, host.native? symbol = some native → native.Unlayered

/-- A failure in a layer for each of some frames, innermost first. -/
def Failure.layered (cause : Failure) (fs : List Frame) : Failure :=
  fs.foldl (fun failure f => .frame f.place failure) cause

theorem Failure.layered_concat (cause : Failure) (inner : List Frame) (f : Frame) :
    cause.layered (inner ++ [f]) = .frame f.place (cause.layered inner) := by
  rw [layered, List.foldl_append]
  rfl

/-- A failure without layers is its own root. -/
theorem Failure.root_of_unlayered {f : Failure} (h : f.isLayered = false) : f.root = f := by
  cases f with
  | frame place inner => cases h
  | _ => rfl

/-- The messages of the errors that a failure was made from where it was raised, outermost first.
Only that of a link was made from any. -/
def Failure.sources : Failure → List String
  | .link _ error => error.message :: error.causes
  | _ => []

theorem Failure.causes_of_unlayered {f : Failure} (h : f.isLayered = false) :
    f.causes = f.sources := by
  cases f with
  | frame place inner => cases h
  | _ => rfl

/-- The messages of the layers come outermost first, and then those of what they are around. -/
theorem Failure.layered_messages (cause : Failure) (fs : List Frame) :
    (cause.layered fs).message :: (cause.layered fs).causes =
      (fs.reverse.map fun f => s!"at {f.place.module}.{f.place.method} @{f.place.offset}") ++
        cause.message :: cause.causes := by
  induction fs generalizing cause with
  | nil => rfl
  | cons f outer ih =>
    rw [layered, List.foldl_cons, ← layered, ih, List.reverse_cons, List.map_append,
      List.append_assoc]
    rfl

namespace Snapshot

variable {s t : Snapshot} {failure : Failure}

/-- The frames that are active, innermost first. -/
def stack (s : Snapshot) : List Frame :=
  s.frame :: s.callers.list.map Caller.frame

theorem abandon_eq_layered (cause : Failure) (s : Snapshot) :
    abandon cause s.frame s.callers = cause.layered s.stack := by
  rw [abandon, Failure.layered, stack, List.foldl_cons, List.foldl_map]

/-- What goes wrong at a snapshot, as it is raised: its fuel is gone, its instruction fails, it
calls a native that fails, or its call cannot be linked. -/
inductive Raises (env : Environment) (t : Snapshot) : Failure → Prop
  | fuel (hfuel : env.limits.fuel ≤ t.machine.executed) :
      Raises env t (.fuelExhausted t.machine.executed)
  | instruction {failure : Failure} (hfuel : t.machine.executed < env.limits.fuel)
      (hexecute : t.frame.execute env.host = .error failure) : Raises env t failure
  | native {waiting : Frame} {call : Frame.Call} {native : Native} {failure : Failure}
      (hfuel : t.machine.executed < env.limits.fuel)
      (hexecute : t.frame.execute env.host = .ok (.call waiting call))
      (hnative : env.host.native? call.symbol = some native)
      (hanswer : (native call.args t.machine.world).1 = .failure failure) : Raises env t failure
  | link {waiting : Frame} {call : Frame.Call} {failure : Failure}
      (hfuel : t.machine.executed < env.limits.fuel)
      (hexecute : t.frame.execute env.host = .ok (.call waiting call))
      (hnative : env.host.native? call.symbol = none)
      (hlink : (link env { t.machine with executed := t.machine.executed + 1 } t.frame.module call
        (t.callers.depth + 1)).1 = .error failure) : Raises env t failure

theorem raises_of_attempt (hfuel : t.machine.executed < env.limits.fuel)
    (h : (t.attempt env).2 = .raises failure) : t.Raises env failure := by
  unfold attempt at h
  cases hexecute : t.frame.execute env.host with
  | error e =>
    rw [hexecute] at h
    obtain rfl := Attempt.raises.inj h
    exact .instruction hfuel hexecute
  | ok flow =>
    rw [hexecute] at h
    cases flow with
    | next | jump | allocate => cases h
    | ret value =>
      simp only [Callers.receive] at h
      split at h <;> cases h
    | call waiting call =>
      dsimp only [attemptCall] at h
      split at h
      case h_1 native hnative =>
        split at h
        case h_2 e hanswer =>
          obtain rfl := Attempt.raises.inj h
          exact .native hfuel hexecute hnative hanswer
        all_goals cases h
      case h_2 hnative =>
        split at h
        case h_1 => cases h
        case h_2 e hlink =>
          obtain rfl := Attempt.raises.inj h
          exact .link hfuel hexecute hnative hlink

/-- What is raised has no layers yet, unless a native has put it into some. -/
theorem Raises.unlayered (h : t.Raises env failure) (hhost : env.host.Unlayered) :
    failure.isLayered = false := by
  cases h with
  | fuel => rfl
  | instruction _ hexecute => exact (t.frame.execute_plain env.host failure hexecute).unlayered
  | native _ _ hnative hanswer => exact hhost _ _ hnative _ _ _ hanswer
  | link _ _ _ hlink =>
    rcases link_plain_or_deep hlink with hplain | ⟨rfl, -⟩
    · exact hplain.unlayered
    · rfl

end Snapshot

/-! ## Leaving all frames -/

/-- A failure that leaves all frames that wait is caught by none of them, and gets a layer for
each. -/
theorem unwind_eq_failed (hheights : heights.Sound) {cs : List Caller}
    (hcs : ∀ c ∈ cs, c.frame.Fits) {failure last : Failure}
    (h : unwind failure cs = .ended (.failed last)) :
    (∀ c ∈ cs, c.frame.catches failure = false) ∧
      last = failure.layered (cs.map Caller.frame) := by
  induction cs generalizing failure with
  | nil =>
    obtain rfl : failure = last := by simpa [unwind] using h
    exact ⟨by simp, rfl⟩
  | cons c outer ih =>
    rcases List.forall_mem_cons.1 hcs with ⟨hc, houter⟩
    rw [unwind] at h
    rcases hc.raise hheights failure with ⟨g, hg, -⟩ | ⟨hcatches, hraise⟩
    · rw [hg] at h
      cases h
    · rw [hraise] at h
      rcases ih houter h with ⟨hnone, hlast⟩
      -- Whether a frame catches a failure is a matter of the root, so layers do not count.
      exact ⟨List.forall_mem_cons.2 ⟨hcatches, hnone⟩, hlast⟩

namespace Snapshot

variable {s t : Snapshot}

theorem Visits.sound (h : s.Visits env t) (hs : s.Sound heights) (hheights : heights.Sound) :
    t.Sound heights := by
  induction h with
  | refl => exact hs
  | tail _ hspends ih => exact ih.onward hheights hspends.2

theorem Sound.fits (hs : s.Sound heights) : ∀ f ∈ s.stack, f.Fits := by
  simp only [stack, List.forall_mem_cons, List.forall_mem_map]
  exact ⟨hs.frame.toFits, fun c hc => (hs.callers c hc).toFits⟩

/-- A step of verified code that ends a run with a failure has raised one that no frame catches. -/
theorem Sound.raises (ht : t.Sound heights) (hheights : heights.Sound)
    (hfuel : t.machine.executed < env.limits.fuel) {failure : Failure}
    (h : (t.next env).2 = .ended (.failed failure)) :
    ∃ cause, t.Raises env cause ∧ (∀ f ∈ t.stack, f.catches cause = false) ∧
      failure = cause.layered t.stack := by
  have hlands := (ht.lands hheights env).2
  rw [t.next_eq_settle] at h
  cases hattempt : (t.attempt env).2 with
  | moves outcome callers =>
    rw [hattempt] at hlands h
    rcases hlands with ⟨⟨g, rfl, -⟩, -⟩
    cases h
  | ends ending =>
    -- No instruction ends a run with a failure but by raising it.
    rw [hattempt] at h
    rcases ordinary_or_stops hfuel with hordinary | ⟨cause, hraises, -⟩
    · rw [hattempt] at hordinary
      exact absurd (Progress.ended.inj h) (hordinary failure)
    · rw [hattempt] at hraises
      cases hraises
  | raises cause =>
    rw [hattempt] at h
    refine ⟨cause, raises_of_attempt hfuel hattempt, ?_⟩
    rcases List.forall_mem_cons.1 ht.fits with ⟨hframe, -⟩
    rcases hframe.raise hheights cause with ⟨g, hg, -⟩ | ⟨hcatches, hraise⟩
    · rw [Attempt.settle, hg] at h
      cases h
    · rw [Attempt.settle, hraise] at h
      have hcallers : ∀ c ∈ t.callers.list, c.frame.Fits := fun c hc => (ht.callers c hc).toFits
      rcases unwind_eq_failed hheights hcallers h with ⟨hnone, hlast⟩
      refine ⟨?_, hlast⟩
      simp only [stack, List.forall_mem_cons, List.forall_mem_map]
      exact ⟨hcatches, hnone⟩

/-- A run of verified code that ends with a failure has raised its cause at a snapshot it visits.
No frame that was active there catches it, and it has a layer for each. -/
theorem Sound.exists_raises (hs : s.Sound heights) (hheights : heights.Sound) {failure : Failure}
    (h : (run env (env.limits.fuel - s.machine.executed) s.machine s.frame s.callers).2 =
      .failed failure) :
    ∃ t cause, s.Visits env t ∧ t.Raises env cause ∧
      (∀ f ∈ t.stack, f.catches cause = false) ∧ failure = cause.layered t.stack := by
  rcases exists_last env s with ⟨last, hvisits, hlast⟩
  by_cases hfuel : last.machine.executed < env.limits.fuel
  · rcases hlast hfuel with ⟨ending, hnext⟩
    obtain rfl : ending = .failed failure := (hvisits.run_of_ended hfuel hnext).symm.trans h
    rcases (hvisits.sound hs hheights).raises hheights hfuel hnext with ⟨cause, hraises⟩
    exact ⟨last, cause, hvisits, hraises⟩
  · have hgone : last.Stops env _ := .fuel (Nat.not_lt.1 hfuel)
    rw [hvisits.run_eq, hgone.run_eq] at h
    refine ⟨last, _, hvisits, .fuel (Nat.not_lt.1 hfuel), ?_, ?_⟩
    · intro f hf
      exact Frame.catches_eq_false rfl f
    · rw [← abandon_eq_layered]
      exact (Ending.failed.inj h).symm

end Snapshot

/-! ## Methods -/

namespace Frame

/-- A layer names the method of its frame. -/
theorem SameMethod.place_eq {f g : Frame} (h : f.SameMethod g) :
    g.place.module = f.place.module ∧ g.place.method = f.place.method := by
  simp [place, h.module_eq, h.index_eq]

theorem Stays.instruction_eq {f g : Frame} (h : f.Stays g) : g.instruction = f.instruction := by
  apply instruction_eq_of_getElem?
  rw [h.method_eq, h.position_eq, f.getElem?_position]

/-- The offset that a layer has is that of the instruction in its code. -/
theorem Fits.offset_eq {f : Frame} (hf : f.Fits) :
    (Code.offsets f.method.code)[f.position]? = some f.place.offset := by
  have hlt : f.position < (Code.offsets f.method.code).size := by
    rw [Code.offsets_size]
    exact f.position_lt
  rw [place, offset, hf.verified.methodOffsets_eq f.method_found, Array.getElem?_eq_getElem hlt,
    Option.getD_some]

end Frame

/-- A method that is found is shown by its name and its descriptor. -/
theorem Image.describeMethod_of_find {image : Image} {name descriptor : String} {index : Nat}
    (h : image.findMethod? name descriptor = some index) :
    image.describeMethod index = name ++ descriptor := by
  rcases Array.findIdx?_eq_some_iff_getElem.1 h with ⟨hlt, hfound, -⟩
  have hboth := by simpa using hfound
  rw [describeMethod, Array.getElem?_eq_getElem hlt]
  simp only [methodLabel, hboth.1, hboth.2, Option.getD_some]

/-! ## Calls -/

/-- At a snapshot a call is executed for which the frame waits from then on as `f`. No native takes
the call, and it is linked to the method that `g` is of. -/
structure Snapshot.Enters (env : Environment) (u : Snapshot) (f g : Frame) (kind : CallKind)
    (operand : UInt16) (member : MemberTexts) (call : Frame.Call) : Prop where
  instruction : f.instruction = .invoke kind operand
  names : f.module.image.pool.method? operand = some member
  takes : u.frame.call kind operand = .ok (call, f)
  no_native : env.host.native? call.symbol = none
  linked : ∃ entered, (link env { u.machine with executed := u.machine.executed + 1 }
    u.frame.module call (u.callers.depth + 1)).1 = .ok entered ∧ entered.SameMethod g
  owner : g.place.module = call.symbol.owner
  static : kind = .static → g.place.module = member.owner
  method : g.place.method = member.name ++ member.descriptor

namespace Snapshot

variable {s t u : Snapshot} {f g k : Frame} {kind : CallKind} {operand : UInt16}
  {member : MemberTexts} {call : Frame.Call}

theorem Enters.sameMethod (h : u.Enters env f g kind operand member call) (hgk : g.SameMethod k) :
    u.Enters env f k kind operand member call where
  instruction := h.instruction
  names := h.names
  takes := h.takes
  no_native := h.no_native
  linked := by
    rcases h.linked with ⟨entered, hlink, hsame⟩
    exact ⟨entered, hlink, hsame.trans hgk⟩
  owner := hgk.place_eq.1.trans h.owner
  static := fun hkind => hgk.place_eq.1.trans (h.static hkind)
  method := hgk.place_eq.2.trans h.method

/-- A call that is linked enters the method of its name and descriptor in the module of its
owner. -/
theorem place_of_link {m : Machine} {caller : Module} {depth : Nat}
    (h : (link env m caller call depth).1 = .ok g) :
    g.place.module = call.symbol.owner ∧
      g.place.method = call.symbol.name ++ call.descriptor := by
  rcases link_cases env m caller call depth with
    ⟨failure, hlink, -⟩ | ⟨loader, level, -, -, -, ⟨failure, hlink, -⟩ |
      ⟨target, index, htarget, hindex, henter⟩⟩
  · rw [hlink] at h
    cases h
  · rw [hlink] at h
    cases h
  · rw [henter] at h
    have hfind := (Option.filter_eq_some_iff.1 hindex).1
    simp only [Frame.place, Frame.enter_module h, Frame.enter_index h]
    exact ⟨Loader.name_of_resolveAt htarget, Image.describeMethod_of_find hfind⟩

theorem enters_of_link (hexecute : u.frame.execute env.host = .ok (.call f call))
    (hnative : env.host.native? call.symbol = none)
    (hlink : (link env { u.machine with executed := u.machine.executed + 1 } u.frame.module call
      (u.callers.depth + 1)).1 = .ok g) :
    ∃ kind operand member, u.Enters env f g kind operand member call := by
  rcases Frame.execute_of hexecute with ⟨kind, operand, hi, hcall⟩
  have hstays := Frame.call_stays hcall
  rcases place_of_link hlink with ⟨howner, hmethod⟩
  rcases Frame.call_eq_ok_iff.1 hcall with
    ⟨member, signature, owner, hmember, -, -, hcalled, hcall_eq, -⟩
  refine ⟨kind, operand, member, hstays.instruction_eq.trans hi, ?_, hcall, hnative,
    ⟨g, hlink, rfl, rfl⟩, howner, ?_, ?_⟩
  · rw [hstays.module_eq]
    exact hmember
  · rintro rfl
    rw [howner, hcall_eq]
    exact (Except.ok.inj hcalled).symm
  · rw [hmethod, hcall_eq]

/-! ## Steps -/

/-- Control goes on in the innermost frame, or in the one behind it with the innermost gone, or in
one that is entered now. -/
theorem attempt_moves {callers : Callers} (h : (s.attempt env).2 = .moves (.ok g) callers) :
    (s.frame.SameMethod g ∧ callers = s.callers) ∨
    (∃ c rest, s.callers.list = c :: rest ∧ c.frame.SameMethod g ∧ callers.list = rest) ∨
    ∃ waiting call, s.frame.execute env.host = .ok (.call waiting call) ∧
      env.host.native? call.symbol = none ∧
      (link env { s.machine with executed := s.machine.executed + 1 } s.frame.module call
        (s.callers.depth + 1)).1 = .ok g ∧
      callers = s.callers.push ⟨waiting, call.keepsResult⟩ := by
  have hstay {f : Frame} {outcome : Except Failure Frame} (hf : s.frame.SameMethod f)
      (hmoves : Attempt.moves outcome s.callers = .moves (.ok g) callers)
      (houtcome : outcome = .ok g → f.SameMethod g) :
      s.frame.SameMethod g ∧ callers = s.callers := by
    rcases Attempt.moves.inj hmoves with ⟨rfl, rfl⟩
    exact ⟨hf.trans (houtcome rfl), rfl⟩
  unfold attempt at h
  cases hexecute : s.frame.execute env.host with
  | error failure =>
    rw [hexecute] at h
    cases h
  | ok flow =>
    have hof := Frame.execute_of hexecute
    rw [hexecute] at h
    cases flow with
    | next f => exact Or.inl (hstay (.of_stays hof.1) h .of_moveTo)
    | jump f target => exact Or.inl (hstay (.of_stays hof.1) h .of_jump)
    | allocate f typeName => exact Or.inl (hstay (.of_stays (hof.1.push _)) h .of_moveTo)
    | ret value =>
      simp only [Callers.receive] at h
      split at h
      case h_1 => cases h
      case h_2 c rest hpop =>
        rcases Attempt.moves.inj h with ⟨hadvance, rfl⟩
        refine Or.inr (Or.inl ⟨c, _, Callers.list_of_pop? hpop, ?_, rfl⟩)
        split at hadvance
        · exact (Frame.SameMethod.of_stays (.push (.refl _) value)).trans (.of_moveTo hadvance)
        · exact .of_moveTo hadvance
    | call waiting call =>
      rcases hof with ⟨kind, operand, -, hcall⟩
      have hwaiting := Frame.call_stays hcall
      dsimp only [attemptCall] at h
      split at h
      case h_1 native hnative =>
        split at h
        case h_1 v hanswer =>
          refine Or.inl ?_
          split at h
          · exact hstay (.of_stays (hwaiting.push v)) h .of_moveTo
          · exact hstay (.of_stays hwaiting) h .of_moveTo
        all_goals cases h
      case h_2 hnative =>
        split at h
        case h_1 entered hlink =>
          rcases Attempt.moves.inj h with ⟨hentered, rfl⟩
          obtain rfl := Except.ok.inj hentered
          exact Or.inr (Or.inr ⟨waiting, call, rfl, hnative, hlink, rfl⟩)
        case h_2 => cases h

/-- A failure that is caught goes on in a frame that waits, with all frames inside it gone. -/
theorem unwind_running {failure : Failure} {cs : List Caller} {callers : Callers}
    (h : unwind failure cs = .running g callers) :
    ∃ c rest, c :: rest <:+ cs ∧ c.frame.SameMethod g ∧ callers.list = rest := by
  induction cs generalizing failure with
  | nil => cases h
  | cons c outer ih =>
    rw [unwind] at h
    split at h
    case h_1 caught hraise =>
      obtain ⟨rfl, rfl⟩ := Progress.running.inj h
      exact ⟨c, outer, List.suffix_refl _, .of_raise hraise, rfl⟩
    case h_2 left hraise =>
      rcases ih h with ⟨c', rest, hsuffix, hsame, hlist⟩
      exact ⟨c', rest, hsuffix.trans (List.suffix_cons _ _), hsame, hlist⟩

/-- A step of verified code goes on in an active frame, with all frames inside it gone, or enters a
frame that the frame before it waits for. -/
theorem Leads.stack_cases (h : s.Leads env t) (hs : s.Sound heights) (hheights : heights.Sound) :
    (∃ f rest, f :: rest <:+ s.stack ∧ f.SameMethod t.frame ∧ t.stack = t.frame :: rest) ∨
    ∃ waiting kind operand member call, s.Enters env waiting t.frame kind operand member call ∧
      s.frame.SameMethod waiting ∧
      t.stack = t.frame :: waiting :: s.callers.list.map Caller.frame := by
  have hlands := (hs.lands hheights env).2
  have hsettles := h.settles.2
  cases hattempt : (s.attempt env).2 with
  | ends ending =>
    rw [hattempt] at hsettles
    cases hsettles
  | moves outcome callers =>
    rw [hattempt] at hlands hsettles
    rcases hlands with ⟨⟨g, rfl, -⟩, -⟩
    obtain ⟨rfl, rfl⟩ := Progress.running.inj hsettles
    rcases attempt_moves hattempt with ⟨hsame, hcallers⟩ | ⟨c, rest, hlist, hsame, hrest⟩ |
      ⟨waiting, call, hexecute, hnative, hlink, hcallers⟩
    · refine Or.inl ⟨s.frame, _, List.suffix_refl _, hsame, ?_⟩
      rw [stack, hcallers]
    · refine Or.inl ⟨c.frame, rest.map Caller.frame, ?_, hsame, ?_⟩
      · rw [stack, hlist, List.map_cons]
        exact List.suffix_cons _ _
      · rw [stack, hrest]
    · rcases enters_of_link hexecute hnative hlink with ⟨kind, operand, member, henters⟩
      refine Or.inr ⟨waiting, kind, operand, member, call, henters, ?_, ?_⟩
      · exact .of_stays (Frame.call_stays henters.takes)
      · rw [stack, hcallers]
        rfl
  | raises failure =>
    rw [hattempt, Attempt.settle] at hsettles
    cases hraise : s.frame.raise failure with
    | ok g =>
      rw [hraise] at hsettles
      obtain ⟨rfl, hcallers⟩ := Progress.running.inj hsettles
      refine Or.inl ⟨s.frame, _, List.suffix_refl _, .of_raise hraise, ?_⟩
      rw [stack, hcallers]
    | error left =>
      rw [hraise] at hsettles
      rcases unwind_running hsettles with ⟨c, rest, hsuffix, hsame, hlist⟩
      refine Or.inl ⟨c.frame, rest.map Caller.frame, ?_, hsame, ?_⟩
      · exact (hsuffix.map Caller.frame).trans (List.suffix_cons _ _)
      · rw [stack, hlist]

end Snapshot

/-! ## Runs -/

/-- Frames, innermost first: the outermost is of a method that was called first, and each other of
the method that the frame behind it calls. -/
inductive Backtrace (calls : Frame → Frame → Prop) (target : Module) (index : Nat) :
    List Frame → Prop
  | entry {f : Frame} (hmodule : f.module = target) (hindex : f.index = index) :
      Backtrace calls target index [f]
  | call {f g : Frame} {outer : List Frame} (hcalls : calls f g)
      (houter : Backtrace calls target index (f :: outer)) :
      Backtrace calls target index (g :: f :: outer)

namespace Backtrace

variable {calls : Frame → Frame → Prop} {target : Module} {index : Nat} {f g : Frame}
  {outer fs : List Frame}

/-- The innermost frame may go on in its method. -/
theorem sameMethod (hcalls : ∀ f g k, calls f g → g.SameMethod k → calls f k)
    (h : Backtrace calls target index (f :: outer)) (hsame : f.SameMethod g) :
    Backtrace calls target index (g :: outer) := by
  cases h with
  | entry hmodule hindex =>
    exact .entry (hsame.module_eq.trans hmodule) (hsame.index_eq.trans hindex)
  | call hcall houter => exact .call (hcalls _ _ _ hcall hsame) houter

/-- Frames may be gone from the inside, but not all. -/
theorem suffix (h : Backtrace calls target index fs) (hsuffix : f :: outer <:+ fs) :
    Backtrace calls target index (f :: outer) := by
  induction h with
  | entry hmodule hindex =>
    rcases List.suffix_cons_iff.1 hsuffix with heq | hnil
    · rw [heq]
      exact .entry hmodule hindex
    · cases List.suffix_nil.1 hnil
  | call hcall houter ih =>
    rcases List.suffix_cons_iff.1 hsuffix with heq | hrest
    · rw [heq]
      exact .call hcall houter
    · exact ih hrest

theorem exists_outermost (h : Backtrace calls target index fs) :
    ∃ inner f, fs = inner ++ [f] ∧ f.module = target ∧ f.index = index := by
  induction h with
  | entry hmodule hindex => exact ⟨[], _, rfl, hmodule, hindex⟩
  | @call f g outer hcall houter ih =>
    rcases ih with ⟨inner, outermost, hfs, hmodule, hindex⟩
    exact ⟨g :: inner, outermost, by rw [hfs, List.cons_append], hmodule, hindex⟩

end Backtrace

namespace Machine

variable {m : Machine} {target : Module} {index : Nat} {args : List Value} {t : Snapshot}

/-- In the run of a called method, a frame waits at a call of the method that another frame is
of. -/
def Calls (env : Environment) (m : Machine) (target : Module) (index : Nat) (args : List Value)
    (f g : Frame) : Prop :=
  ∃ u kind operand member call, m.Visits env target index args u ∧
    u.machine.executed < env.limits.fuel ∧ u.Enters env f g kind operand member call

/-- The frames of a run of verified code are those of calls that have not returned. -/
theorem Visits.backtrace {frame : Frame} (henter : Frame.enter target index args = .ok frame)
    (hs : Snapshot.Sound heights ⟨m, frame, .empty⟩) (hheights : heights.Sound)
    (h : m.Visits env target index args t) :
    Backtrace (m.Calls env target index args) target index t.stack := by
  rcases h with ⟨hdepth, frame', henter', hvisits⟩
  obtain rfl : frame = frame' := Except.ok.inj (henter.symm.trans henter')
  have hsame (f g k : Frame) (hcalls : m.Calls env target index args f g)
      (hgk : g.SameMethod k) : m.Calls env target index args f k := by
    rcases hcalls with ⟨u, kind, operand, member, call, hu, hfuel, henters⟩
    exact ⟨u, kind, operand, member, call, hu, hfuel, henters.sameMethod hgk⟩
  induction hvisits with
  | refl => exact .entry (Frame.enter_module henter) (Frame.enter_index henter)
  | @tail u t hbefore hspends ih =>
    rcases hspends with ⟨hfuel, hleads⟩
    have husound := Snapshot.Visits.sound hbefore hs hheights
    rcases hleads.stack_cases husound hheights with ⟨f, rest, hsuffix, hf, hstack⟩ |
      ⟨waiting, kind, operand, member, call, henters, hwaiting, hstack⟩
    · rw [hstack]
      exact (ih.suffix hsuffix).sameMethod hsame hf
    · have hu : m.Visits env target index args u := ⟨hdepth, frame, henter, hbefore⟩
      rw [hstack]
      exact .call ⟨u, kind, operand, member, call, hu, hfuel, henters⟩
        (ih.sameMethod hsame hwaiting)

/-- A call fails for a cause that is raised at a snapshot of its run: no frame that is active there
catches the cause, and the failure that the call ends with has the cause, as it was raised, in a
layer for each of these frames. The frames are those of the calls that led there, and every layer
has the offset of the instruction that its frame is at. -/
structure FailsAt (env : Environment) (m : Machine) (target : Module) (index : Nat)
    (args : List Value) (failure : Failure) (t : Snapshot) (cause : Failure) : Prop where
  visits : m.Visits env target index args t
  raises : t.Raises env cause
  uncaught : ∀ f ∈ t.stack, f.catches cause = false
  layers : failure = cause.layered t.stack
  unlayered : cause.isLayered = false
  backtrace : Backtrace (m.Calls env target index args) target index t.stack
  offsets : ∀ f ∈ t.stack, (Code.offsets f.method.code)[f.position]? = some f.place.offset

/-- A call of verified code that fails does so at a snapshot of its run. -/
theorem call_fails {frame : Frame} {failure : Failure} (hhost : env.host.Unlayered)
    (hheights : heights.Sound) (hdepth : 1 ≤ env.limits.maxCallDepth)
    (henter : Frame.enter target index args = .ok frame)
    (hs : Snapshot.Sound heights ⟨m, frame, .empty⟩)
    (hfailed : (m.call env target index args).2 = .failed failure) :
    ∃ t cause, m.FailsAt env target index args failure t cause := by
  have hroom : env.limits.maxCallDepth ≠ 0 := by omega
  rw [call, if_neg hroom, henter] at hfailed
  rcases hs.exists_raises hheights hfailed with ⟨t, cause, hreached, hraises, huncaught, hlayers⟩
  have hvisits : m.Visits env target index args t := ⟨hroom, frame, henter, hreached⟩
  exact ⟨t, cause, hvisits, hraises, huncaught, hlayers, hraises.unlayered hhost,
    hvisits.backtrace henter hs hheights,
    fun f hf => ((hreached.sound hs hheights).fits f hf).offset_eq⟩

end Machine

end Interposition
