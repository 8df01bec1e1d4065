import Interposition.Proofs.Image.Reach
import Interposition.Proofs.Image.Room
import Interposition.Proofs.Machine.Lockstep

/-!
# Interposition.Proofs.Machine.Convention — what a redirected call takes and leaves

A redirected call finds its operands where the call in whose place it stands would: the receiver, if
there is one, and the arguments in order. It takes all of them off and keeps a result where that one
would (`Frame.Redirected.passes_alike`). The number of operands is counted from two descriptors and
two kinds of call, and comes out the same since the receiver is the first parameter of the target.

The original call does not always get as far: it fails for a receiver that is no object, and for an
operand that names a method only since the redirection added it. The call in its place passes what
it finds all the same (`Frame.passes_differently`).
-/

namespace Interposition

/-! ## Reported calls -/

/-- No two instructions start at the same offset. -/
theorem Code.eq_of_offsets {code : Array Instruction} {p q offset : Nat}
    (hp : (offsets code)[p]? = some offset) (hq : (offsets code)[q]? = some offset) : p = q := by
  have hfound (position : Nat) (h : (offsets code)[position]? = some offset) :
      position? (offsets code) offset = some position := by
    rw [offsets_getElem?] at h
    split at h
    case isTrue hlt => exact position?_eq_some_iff.2 ⟨hlt, Option.some.inj h⟩
    case isFalse => cases h
  exact Option.some.inj ((hfound p hp).symm.trans (hfound q hq))

/-- What is reported is a call of the image, by what it names in the pool of the result and the
target of the rule for that. -/
theorem Image.exists_call_of_reported {rules : RuleSet} {image image' : Image}
    {report : RedirectReport} {site : RedirectedSite} (hsize : image.pool.size ≤ Pool.capacity)
    (h : image.redirect rules = .ok (image', report)) (hsite : site ∈ report.sites) :
    ∃ call ∈ image.callSites, call.method = site.method ∧ call.offset = site.offset ∧
      image'.pool.Names call.operand site.source ∧
      ∃ rule, rules.lookup site.source = some rule ∧ site.target = rule.target := by
  rcases redirect_ok h hsize with ⟨-, -, rfl⟩ | ⟨known, -, -, rfl, hsettles⟩
  · cases hsite
  · obtain ⟨call, hcall, hreported⟩ := List.mem_filterMap.1 hsite
    obtain ⟨replacement, hfind, rfl⟩ := Option.map_eq_some_iff.1 hreported
    obtain ⟨source, hnames, hsettled⟩ := hsettles call hcall
    rw [hfind] at hsettled
    split at hsettled
    case h_1 => cases hsettled
    case h_2 rule hrule =>
      obtain ⟨index, heq, -⟩ := hsettled
      obtain rfl : replacement = ⟨index, source, rule.target⟩ := Option.some.inj heq
      exact ⟨call, hcall, rfl, rfl, hnames, rule, hrule, rfl⟩

namespace Frame

/-! ## Calls of frames -/

theorem execute_invoke {f : Frame} {kind : CallKind} {index : UInt16} (host : Host)
    (hi : f.instruction = .invoke kind index) :
    f.execute host = (f.call kind index).map fun (made, waiting) => .call waiting made := by
  simp only [execute, hi]
  cases f.call kind index <;> rfl

/-- A call fails whose operand is no method. -/
theorem execute_of_no_method {f : Frame} {kind : CallKind} {index : UInt16} (host : Host)
    (hi : f.instruction = .invoke kind index) (hmethod : f.module.image.pool.method? index = none) :
    f.execute host = .error (.malformed (.notAMethod index)) := by
  rw [execute_invoke host hi, call, hmethod]
  rfl

/-- A call of a symbol that an operand names, with its operands there, fails for its receiver at
most. -/
theorem call_of_names {f : Frame} {kind : CallKind} {index : UInt16} {s : Symbol}
    (hnames : f.module.image.pool.Names (index, kind) s)
    (hle : s.signature.arity + kind.receivers ≤ f.stack.length) :
    f.call kind index = (calledOwner s.texts kind (f.operands s.signature kind)).map fun owner =>
      (⟨{ s with owner }, s.signature.descriptor, f.operands s.signature kind⟩,
        { f with stack := f.stack.drop (s.signature.arity + kind.receivers) }) := by
  obtain ⟨rfl, hmethod, hreadable⟩ := Pool.names_iff.1 hnames
  have hparse : Signature.parse s.texts.descriptor = .ok s.signature :=
    Signature.parse_eq_ok_iff.2 ⟨rfl, hreadable⟩
  rw [call_eq hmethod hparse, if_neg (Nat.not_lt.2 hle)]
  rfl

/-- The instruction of a frame calls a symbol: it passes operands and leaves the stack below them,
and a native of the symbol is handed just these. -/
structure Passes (env : Environment) (f : Frame) (s : Symbol) (args rest : List Value) : Prop where
  execute_eq : f.execute env.host =
    .ok (.call { f with stack := rest } ⟨s, s.signature.descriptor, args⟩)
  handed_eq : ∀ native, env.host.native? s = some native → ∀ machine callers,
    Snapshot.handed? env ⟨machine, f, callers⟩ = some args

theorem passes_of_execute {env : Environment} {f : Frame} {s : Symbol} {args rest : List Value}
    (h : f.execute env.host =
      .ok (.call { f with stack := rest } ⟨s, s.signature.descriptor, args⟩)) :
    f.Passes env s args rest := by
  refine ⟨h, ?_⟩
  intro native hnative machine callers
  simp [Snapshot.handed?, h, hnative]

/-! ## Redirected calls -/

/-- A frame at a reported call of an image that is verified, with the operands of the call there,
and one in the same state in the redirected image. The receivers of all instance calls that are
sources can stand in a descriptor. -/
structure Redirected (rules : RuleSet) (image image' : Image) (site : RedirectedSite)
    (f f' : Frame) : Prop where
  verified : image.verify = .ok ()
  reads : ∀ rule ∈ rules.rules, rule.source.kind = .virtual →
    rule.source.owner ≠ "" ∧ ';' ∉ rule.source.owner.toList ∧ ')' ∉ rule.source.owner.toList
  reported : ∃ report, image.redirect rules = .ok (image', report) ∧ site ∈ report.sites
  image_eq : f.module.image = image
  image_eq' : f'.module.image = image'
  label_eq : image.methodLabel f.method = site.method
  offset_eq : (Code.offsets f.method.code)[f.position]? = some site.offset
  stack_le : site.source.signature.arity + site.source.kind.receivers ≤ f.stack.length
  index_eq : f'.index = f.index
  position_eq : f'.position = f.position
  locals_eq : f'.locals = f.locals
  stack_eq : f'.stack = f.stack

namespace Redirected

variable {rules : RuleSet} {image image' : Image} {site : RedirectedSite} {f f' : Frame}

/-- The instruction at a reported call is that call: labels tell methods apart, and offsets
instructions. -/
theorem instruction_eq (h : Redirected rules image image' site f f')
    (hsize : image.pool.size ≤ Pool.capacity) :
    ∃ index rule, f.instruction = .invoke site.source.kind index ∧
      image'.pool.Names (index, site.source.kind) site.source ∧
      rules.lookup site.source = some rule ∧ site.target = rule.target := by
  obtain ⟨report, hredirect, hsite⟩ := h.reported
  obtain ⟨call, hcall, hmethod, hoffset, hnames, rule, hrule, htarget⟩ :=
    Image.exists_call_of_reported hsize hredirect hsite
  obtain ⟨m, hm, hzip, hlabel⟩ := Image.mem_callSites.1 hcall
  have hfound : f.method ∈ image.methods := by
    rw [← h.image_eq]
    exact f.method_mem
  -- The label of the reported call finds the method, its offset the instruction.
  have hlabels : image.methodLabel m = image.methodLabel f.method := by
    rw [← hlabel, hmethod, h.label_eq]
  obtain rfl : m = f.method :=
    List.inj_on_of_nodup_map (Image.verify_eq_ok_iff.1 h.verified).distinct
      (Array.mem_toList_iff.2 hm) (Array.mem_toList_iff.2 hfound) hlabels
  obtain ⟨position, hposition⟩ := List.mem_iff_getElem?.1 hzip
  obtain ⟨hcode, hstart⟩ := List.getElem?_zip_eq_some.1 hposition
  rw [Array.getElem?_toList] at hcode hstart
  rw [hoffset] at hstart
  obtain rfl := Code.eq_of_offsets hstart h.offset_eq
  have hinstruction : f.instruction = .invoke call.kind call.index :=
    instruction_eq_of_getElem? hcode
  obtain ⟨hkind, -, -⟩ := Pool.names_iff.1 hnames
  rw [← hkind] at hinstruction
  refine ⟨call.index, rule, hinstruction, ?_, hrule, htarget⟩
  rw [hkind]
  exact hnames

/-- The call in its place is a static call of the target. -/
theorem instruction_eq' (h : Redirected rules image image' site f f')
    (hsize : image.pool.size ≤ Pool.capacity) :
    ∃ index, f'.instruction = .invoke .static index ∧
      image'.pool.Names (index, .static) site.target := by
  obtain ⟨report, hredirect, hsite⟩ := h.reported
  obtain ⟨index, rule, hinstruction, hnames, hrule, htarget⟩ := h.instruction_eq hsize
  rcases Image.redirect_alters hsize hredirect with ⟨hempty, -⟩ | halters
  · rw [RuleSet.lookup_eq_none hempty] at hrule
    cases hrule
  · have hfound : image.methods[f.index]? = some f.method := by
      rw [← h.image_eq]
      exact f.method_found
    have hfound' : image'.methods[f.index]? = some f'.method := by
      rw [← h.image_eq', ← h.index_eq]
      exact f'.method_found
    have hposition' : f'.method.code[f.position]? = some f'.instruction := by
      rw [← h.position_eq]
      exact f'.getElem?_position
    obtain ⟨i, hi, hbecomes⟩ :=
      (halters.method f.index _ _ hfound hfound').instruction _ _ hposition'
    obtain rfl := instruction_eq_of_getElem? hi
    rw [hinstruction] at hbecomes
    obtain ⟨target, hcall, hmethod⟩ := hbecomes.of_ruled hnames hrule
    obtain ⟨hmem, hsource⟩ := RuleSet.lookup_eq_some hrule
    rw [← hsource] at hnames
    refine ⟨target, hcall, ?_⟩
    rw [htarget]
    exact Rule.names_target (h.reads rule hmem) hnames hmethod

/-- The target has a parameter for each operand of the source, and the result of the source. -/
theorem signature_eq (h : Redirected rules image image' site f f')
    (hsize : image.pool.size ≤ Pool.capacity) :
    site.target.signature.arity = site.source.signature.arity + site.source.kind.receivers ∧
      site.target.signature.isVoid = site.source.signature.isVoid := by
  obtain ⟨_, rule, -, -, hrule, htarget⟩ := h.instruction_eq hsize
  obtain ⟨-, hsource⟩ := RuleSet.lookup_eq_some hrule
  rw [htarget, rule.target_signature, hsource]
  exact ⟨Symbol.arity_staticSignature _, Symbol.isVoid_staticSignature _⟩

/-- The call in its place passes the operands of the call it stands in for. -/
theorem target_passes (h : Redirected rules image image' site f f') (env : Environment)
    (hsize : image.pool.size ≤ Pool.capacity) :
    f'.Passes env site.target (f.operands site.source.signature site.source.kind)
      (f.stack.drop (site.source.signature.arity + site.source.kind.receivers)) := by
  obtain ⟨index, hinstruction, hnames⟩ := h.instruction_eq' hsize
  obtain ⟨harity, -⟩ := h.signature_eq hsize
  -- A static call has no receiver, but its target has a parameter for that of the source.
  have hcount : site.target.signature.arity + CallKind.static.receivers =
      site.source.signature.arity + site.source.kind.receivers := harity
  have hnames' : f'.module.image.pool.Names (index, .static) site.target := by
    rw [h.image_eq']
    exact hnames
  have hle : site.target.signature.arity + CallKind.static.receivers ≤ f'.stack.length := by
    rw [hcount, h.stack_eq]
    exact h.stack_le
  have hoperands : f'.operands site.target.signature .static =
      f.operands site.source.signature site.source.kind := by
    rw [operands, hcount, h.stack_eq, operands]
  refine passes_of_execute ?_
  rw [execute_invoke env.host hinstruction, call_of_names hnames' hle, hoperands, hcount,
    h.stack_eq]
  rfl

/-- Control reaches no call that has no method for its operand. -/
theorem not_reached (h : Redirected rules image image' site f f') {kind : CallKind}
    {index : UInt16} (hinstruction : f.instruction = .invoke kind index)
    (hmethod : image.pool.method? index = none) : ¬f.method.Reached f.position := by
  intro hreached
  have hfound : f.method ∈ image.methods := by
    rw [← h.image_eq]
    exact f.method_mem
  obtain ⟨r, i, e, hr, hi, he⟩ :=
    (Image.verify_eq_ok_iff.1 h.verified).exists_effect hfound hreached
  obtain ⟨_, _, _, -, -, -, -, rfl⟩ := Routine.ofMethod_eq_ok_iff.1 hr
  obtain rfl := instruction_eq_of_getElem? hi
  rw [hinstruction] at he
  have hsome := Routine.isSome_method?_of_effect he
  rw [hmethod] at hsome
  cases hsome

/-- What the original call comes to: it is of a method that the pool does not have, or it goes to
the owner written there or the type of its receiver, unless that is no object. -/
theorem source_execute (h : Redirected rules image image' site f f') (host : Host)
    (hsize : image.pool.size ≤ Pool.capacity) :
    (∃ index, f.instruction = .invoke site.source.kind index ∧ image.pool.method? index = none ∧
        ¬f.method.Reached f.position ∧
        f.execute host = .error (.malformed (.notAMethod index))) ∨
      f.execute host = (calledOwner site.source.texts site.source.kind
          (f.operands site.source.signature site.source.kind)).map fun owner =>
        .call
          { f with stack :=
              f.stack.drop (site.source.signature.arity + site.source.kind.receivers) }
          ⟨{ site.source with owner }, site.source.signature.descriptor,
            f.operands site.source.signature site.source.kind⟩ := by
  obtain ⟨report, hredirect, -⟩ := h.reported
  obtain ⟨index, -, hinstruction, hnames, -⟩ := h.instruction_eq hsize
  cases hmethod : image.pool.method? index with
  | none =>
    refine Or.inl ⟨index, hinstruction, hmethod, h.not_reached hinstruction hmethod, ?_⟩
    rw [← h.image_eq] at hmethod
    exact execute_of_no_method host hinstruction hmethod
  | some texts =>
    -- What is there from the start is what is there in the end.
    have hextends : image'.pool.Extends image.pool := by
      rcases Image.redirect_alters hsize hredirect with ⟨-, rfl⟩ | halters
      · exact .refl _
      · exact halters.extends_pool
    obtain ⟨hkind, hmethod', hreadable⟩ := Pool.names_iff.1 hnames
    obtain rfl : texts = site.source.texts :=
      Option.some.inj ((hextends.method? hmethod).symm.trans hmethod')
    have hnames' : f.module.image.pool.Names (index, site.source.kind) site.source := by
      rw [h.image_eq]
      exact Pool.names_iff.2 ⟨hkind, hmethod, hreadable⟩
    refine Or.inr ?_
    rw [execute_invoke host hinstruction, call_of_names hnames' h.stack_le]
    cases calledOwner site.source.texts site.source.kind
      (f.operands site.source.signature site.source.kind) <;> rfl

/-- The convention of a redirected call, in an image of no more constants than the format can count.
The call in its place takes the operands of the original call, the receiver first, and leaves the
same stack; natives of the target are handed these operands; a result is kept or not as there. The
original call passes the same operands to the owner written there or the type of the receiver.
It fails if the receiver is no object, or if there is no method for its operand, which can only be
where control never gets. -/
theorem passes_alike (env : Environment) (hsize : image.pool.size ≤ Pool.capacity)
    (h : Redirected rules image image' site f f') :
    ∃ args rest, f.stack = args.reverse ++ rest ∧
      args.length = site.source.signature.arity + site.source.kind.receivers ∧
      f'.Passes env site.target args rest ∧
      site.target.signature.isVoid = site.source.signature.isVoid ∧
      ((site.source.kind = .static ∧ f.Passes env site.source args rest) ∨
        (∃ receiver arguments, site.source.kind = .virtual ∧ args = .object receiver :: arguments ∧
          f.Passes env { site.source with owner := receiver.typeName } args rest) ∨
        (∃ receiver arguments, site.source.kind = .virtual ∧ args = receiver :: arguments ∧
          (∀ object, receiver ≠ .object object) ∧
          f.execute env.host = .error (.mismatch site.source.owner receiver)) ∨
        ∃ index, f.instruction = .invoke site.source.kind index ∧
          image.pool.method? index = none ∧ ¬f.method.Reached f.position ∧
          f.execute env.host = .error (.malformed (.notAMethod index))) := by
  have hlength : (f.operands site.source.signature site.source.kind).length =
      site.source.signature.arity + site.source.kind.receivers := by
    rw [operands, List.length_reverse, List.length_take]
    exact Nat.min_eq_left h.stack_le
  have hstack : f.stack = (f.operands site.source.signature site.source.kind).reverse ++
      f.stack.drop (site.source.signature.arity + site.source.kind.receivers) := by
    rw [operands, List.reverse_reverse, List.take_append_drop]
  obtain ⟨-, hvoid⟩ := h.signature_eq hsize
  refine ⟨_, _, hstack, hlength, h.target_passes env hsize, hvoid, ?_⟩
  rcases h.source_execute env.host hsize with hnone | hexecute
  · exact Or.inr (Or.inr (Or.inr hnone))
  · cases hkind : site.source.kind with
    | static =>
      rw [hkind] at hexecute
      exact Or.inl ⟨rfl, passes_of_execute hexecute⟩
    | virtual =>
      rw [hkind] at hexecute hlength
      cases hargs : f.operands site.source.signature .virtual with
      | nil => simp [hargs, CallKind.receivers] at hlength
      | cons receiver arguments =>
        rw [hargs] at hexecute
        cases receiver with
        | object receiver =>
          exact Or.inr (Or.inl ⟨receiver, arguments, rfl, rfl, passes_of_execute hexecute⟩)
        | void | int v | bool v | str v =>
          refine Or.inr (Or.inr (Or.inl ⟨_, arguments, rfl, rfl, ?_, hexecute⟩))
          rintro object ⟨⟩

end Redirected

end Frame

/-! ## Examples -/

/-- Calls of `q.hit` go to `s.hit`, and calls of that to `s.put`. -/
def RuleSet.relayed : RuleSet :=
  .ofList [.redirect ⟨"q", "hit", .void, .virtual⟩ "s" "hit",
    .redirect ⟨"s", "hit", ⟨[.object "q"], none⟩, .static⟩ "s" "put"]

namespace Image

/-- The constants of `visiting` and the descriptor of the target of its call. -/
def visitedPool : Pool :=
  ⟨visiting.pool.entries.push (.utf8 "(Lq;)V")⟩

/-- An image that calls a method of an object it makes. The constant for the target of the call is
there, behind many numbers. -/
def stuffed (n : Nat) : Image :=
  { visiting with
    pool := ⟨visitedPool.entries ++ (Array.replicate n (.int 0)).push (.method ⟨0, 4, 6⟩)⟩ }

theorem stuffed_extends (n : Nat) : (stuffed n).pool.Extends visitedPool := by
  simp [Pool.Extends, stuffed]

theorem stuffed_find? (n : Nat) :
    (stuffed n).pool.find? (.method ⟨0, 4, 6⟩) = some (7 + n).toUInt16 := by
  have hbefore : visitedPool.entries.findIdx? (· = .method ⟨0, 4, 6⟩) = none := by
    simp [visitedPool, visiting]
  have hnumbers : (Array.replicate n (Constant.int 0)).findIdx? (· = .method ⟨0, 4, 6⟩) = none := by
    rw [Array.findIdx?_eq_none_iff]
    intro c hc
    rw [Array.eq_of_mem_replicate hc]
    rfl
  have hlast : Array.findIdx? (· = Constant.method ⟨0, 4, 6⟩) #[.method ⟨0, 4, 6⟩] = some 0 := by
    simp
  have hsize : visitedPool.entries.size = 7 := rfl
  show Option.map Nat.toUInt16 (Array.findIdx? _
    (visitedPool.entries ++ (Array.replicate n (.int 0)).push (.method ⟨0, 4, 6⟩))) = _
  rw [← Array.append_singleton, Array.findIdx?_append, Array.findIdx?_append, hbefore, hnumbers,
    hlast, hsize]
  simp [Nat.add_comm]

/-- It is well formed, however many they are. -/
theorem stuffed_verify (n : Nat) : (stuffed n).verify = .ok () := by
  have hvisiting : visiting.verify = .ok () := by decide +kernel
  have hwell := verify_eq_ok_iff.1 hvisiting
  have hextends : (stuffed n).pool.Extends visiting.pool :=
    (stuffed_extends n).trans (by simp [Pool.Extends, visitedPool])
  refine verify_eq_ok_iff.2 (hwell.withPool hextends ?_)
  intro c hc
  rcases Array.mem_append.1 hc with hc | hc
  · rcases Array.mem_push.1 hc with hc | rfl
    · exact (hwell.admitted c hc).extends hextends
    · trivial
  · rcases Array.mem_push.1 hc with hc | rfl
    · rw [Array.eq_of_mem_replicate hc]
      trivial
    · have htexts : visitedPool.texts? ⟨0, 4, 6⟩ = some ⟨"s", "hit", "(Lq;)V"⟩ := by decide
      have hparse : Signature.parse "(Lq;)V" = .ok ⟨[.object "q"], none⟩ := by decide +kernel
      exact ⟨_, _, (stuffed_extends n).texts? htexts, hparse⟩

/-- The same image with its call redirected. -/
def restuffed (n : Nat) : Image :=
  { stuffed n with
    methods := #[⟨1, 1, 2, 0, #[.new 3, .invoke .static (7 + n).toUInt16, .ret], []⟩] }

/-- The call of a method of an object, as it is reported. -/
def visitingSite : RedirectedSite :=
  ⟨"run()V", 3, ⟨"q", "hit", .void, .virtual⟩, ⟨"s", "hit", ⟨[.object "q"], none⟩, .static⟩⟩

theorem stuffed_label (n : Nat) :
    (stuffed n).methodLabel ⟨1, 1, 2, 0, #[.new 3, .invoke .virtual 5, .ret], []⟩ = "run()V" := by
  have hrun : (stuffed n).pool.utf8? 1 = some "run" := (stuffed_extends n).utf8? rfl
  have hvoid : (stuffed n).pool.utf8? 2 = some "()V" := (stuffed_extends n).utf8? rfl
  rw [methodLabel, methodName?, methodDescriptor?, hrun, hvoid]
  rfl

theorem stuffed_method? (n : Nat) :
    (stuffed n).pool.method? 5 = some ⟨"q", "hit", "()V"⟩ :=
  (stuffed_extends n).method? rfl

/-- The target is found behind the numbers, but its position is cut to 16 bits if there are too
many. -/
theorem stuffed_redirect (n : Nat) :
    (stuffed n).redirect .relayed = .ok (restuffed n, ⟨"s", [visitingSite], 0⟩) := by
  have hextends := stuffed_extends n
  have hname : (stuffed n).name? = some "s" := hextends.utf8? rfl
  have hsites : (stuffed n).callSites = [⟨"run()V", 3, .virtual, 5⟩] := by
    rw [← stuffed_label n]
    rfl
  have hparse : Signature.parse "()V" = .ok .void := by decide +kernel
  have hintern : Pool.internMethod ⟨"s", "hit", "(Lq;)V"⟩ (stuffed n).pool =
      (.ok (7 + n).toUInt16, (stuffed n).pool) := by
    have hfound (c : Constant) (index : UInt16) (h : (stuffed n).pool.find? c = some index) :
        Pool.intern c (stuffed n).pool = (.ok index, (stuffed n).pool) := by
      rw [Pool.intern, h]
    have howner := hfound (.utf8 "s") 0 (hextends.find? (by decide +kernel))
    have hhit := hfound (.utf8 "hit") 4 (hextends.find? (by decide +kernel))
    have hdescriptor := hfound (.utf8 "(Lq;)V") 6 (hextends.find? (by decide +kernel))
    refine Pool.interning_bind_eq_ok.2 ⟨⟨0, 4, 6⟩, _, ?_, hfound _ _ (stuffed_find? n)⟩
    refine Pool.interning_bind_eq_ok.2 ⟨0, _, howner, ?_⟩
    refine Pool.interning_bind_eq_ok.2 ⟨4, _, hhit, ?_⟩
    exact Pool.interning_bind_eq_ok.2 ⟨6, _, hdescriptor, rfl⟩
  have hsource : (stuffed n).pool.symbol ⟨"run()V", 3, .virtual, 5⟩ =
      .ok ⟨"q", "hit", .void, .virtual⟩ := by
    simp [Pool.symbol, stuffed_method?, Symbol.ofDescriptor, hparse, Except.map]
  have hlookup : RuleSet.relayed.lookup ⟨"q", "hit", .void, .virtual⟩ =
      some (.redirect ⟨"q", "hit", .void, .virtual⟩ "s" "hit") := by
    decide +kernel
  have hresolve : (stuffed n).pool.resolve .relayed ⟨"run()V", 3, .virtual, 5⟩ =
      .ok (some ⟨(7 + n).toUInt16, ⟨"q", "hit", .void, .virtual⟩,
        ⟨"s", "hit", ⟨[.object "q"], none⟩, .static⟩⟩, (stuffed n).pool) := by
    have htarget : (Rule.redirect ⟨"q", "hit", .void, .virtual⟩ "s" "hit").target =
        ⟨"s", "hit", ⟨[.object "q"], none⟩, .static⟩ := rfl
    have hdescriptor : Signature.descriptor ⟨[.object "q"], none⟩ = "(Lq;)V" := by decide +kernel
    simp only [Pool.resolve_eq hsource, hlookup, htarget, Symbol.texts, hdescriptor, hintern]
  have hrules : RuleSet.relayed.isEmpty = false := by decide +kernel
  have hall : (stuffed n).pool.resolveAll .relayed [] [⟨"run()V", 3, .virtual, 5⟩] =
      .ok ((stuffed n).pool, [((5, .virtual), some ⟨(7 + n).toUInt16,
        ⟨"q", "hit", .void, .virtual⟩, ⟨"s", "hit", ⟨[.object "q"], none⟩, .static⟩⟩)]) := by
    simp [Pool.resolveAll, hresolve]
  have hmethods : (stuffed n).methods =
      #[⟨1, 1, 2, 0, #[.new 3, .invoke .virtual 5, .ret], []⟩] := rfl
  simp [redirect, hrules, hsites, hall, hname, hmethods, Replacements.apply, Replacements.find?,
    Replacements.redirected?, restuffed, visitingSite, bind, Except.bind, pure, Except.pure]

/-- An image with a call that is never reached, of a constant that is not there. -/
def departing : Image :=
  { visiting with
    methods :=
      #[⟨1, 1, 2, 0, #[.new 3, .invoke .virtual 5, .ret, .invoke .static 7], []⟩] }

/-- The same image with its calls redirected. The second call names what the first one brought. -/
def departed : Image :=
  { visiting with
    pool := ⟨visiting.pool.entries ++ #[.utf8 "(Lq;)V", .method ⟨0, 4, 6⟩, .utf8 "put",
      .method ⟨0, 8, 6⟩]⟩
    methods :=
      #[⟨1, 1, 2, 0, #[.new 3, .invoke .static 7, .ret, .invoke .static 9], []⟩] }

def departingSite : RedirectedSite :=
  ⟨"run()V", 7, ⟨"s", "hit", ⟨[.object "q"], none⟩, .static⟩,
    ⟨"s", "put", ⟨[.object "q"], none⟩, .static⟩⟩

theorem departing_redirect :
    departing.redirect .relayed = .ok (departed, ⟨"s", [visitingSite, departingSite], 4⟩) := by
  decide +kernel

end Image

namespace Frame

/-- A frame in the first method of an image, without slots. -/
def inside (image : Image) (m : Method) (position : Nat) (stack : List Value)
    (found : image.methods[0]? = some m) (lt : position < m.code.size) : Frame where
  module := ⟨"", [], image, image.methods.map fun m => Code.offsets m.code, false, none⟩
  index := 0
  method := m
  locals := #[]
  stack
  position
  method_found := found
  position_lt := lt

/-- A frame at the call of a stuffed image. -/
def calling (n : Nat) (stack : List Value) : Frame :=
  inside (.stuffed n) ⟨1, 1, 2, 0, #[.new 3, .invoke .virtual 5, .ret], []⟩ 1 stack rfl (by decide)

/-- A frame at the call in its place. -/
def recalling (n : Nat) (stack : List Value) : Frame :=
  inside (.restuffed n) ⟨1, 1, 2, 0, #[.new 3, .invoke .static (7 + n).toUInt16, .ret], []⟩ 1 stack
    rfl (by simp)

theorem redirected_calling (n : Nat) (stack : List Value) (hstack : 1 ≤ stack.length) :
    Redirected .relayed (.stuffed n) (.restuffed n) Image.visitingSite (calling n stack)
      (recalling n stack) where
  verified := Image.stuffed_verify n
  reads := by decide
  reported := ⟨_, Image.stuffed_redirect n, List.mem_singleton_self _⟩
  image_eq := rfl
  image_eq' := rfl
  label_eq := Image.stuffed_label n
  offset_eq := by
    show (Code.offsets #[.new 3, .invoke .virtual 5, .ret])[1]? = some 3
    decide
  stack_le := hstack
  index_eq := rfl
  position_eq := rfl
  locals_eq := rfl
  stack_eq := rfl

/-- A frame at a call that is never reached. -/
def unreached : Frame :=
  inside .departing ⟨1, 1, 2, 0, #[.new 3, .invoke .virtual 5, .ret, .invoke .static 7], []⟩ 3
    [.int 5] rfl (by decide)

/-- A frame at the call in its place. -/
def reached : Frame :=
  inside .departed ⟨1, 1, 2, 0, #[.new 3, .invoke .static 7, .ret, .invoke .static 9], []⟩ 3
    [.int 5] rfl (by decide)

theorem redirected_unreached :
    Redirected .relayed .departing .departed Image.departingSite unreached reached where
  verified := by decide +kernel
  reads := by decide
  reported := ⟨_, Image.departing_redirect, by simp⟩
  image_eq := rfl
  image_eq' := rfl
  label_eq := by decide +kernel
  offset_eq := by decide
  stack_le := by decide
  index_eq := rfl
  position_eq := rfl
  locals_eq := rfl
  stack_eq := rfl

/-- Two frames pass the same operands, leave the same stack below them and keep a result alike. -/
def PassAlike (env : Environment) (f f' : Frame) : Prop :=
  ∃ s s' args rest, f.Passes env s args rest ∧ f'.Passes env s' args rest ∧
    s'.signature.isVoid = s.signature.isVoid

/-- The call of a method passes the object it is called on, and so does the call in its place. -/
theorem passes_alike_calling :
    (calling 0 [.object ⟨⟨3, 0⟩, "q", none⟩, .int 7]).Passes ⟨.empty, .default⟩
        ⟨"q", "hit", .void, .virtual⟩ [.object ⟨⟨3, 0⟩, "q", none⟩] [.int 7] ∧
      (recalling 0 [.object ⟨⟨3, 0⟩, "q", none⟩, .int 7]).Passes ⟨.empty, .default⟩
        ⟨"s", "hit", ⟨[.object "q"], none⟩, .static⟩ [.object ⟨⟨3, 0⟩, "q", none⟩] [.int 7] := by
  have hsize : (Image.stuffed 0).pool.size ≤ Pool.capacity := by decide
  have hredirected := redirected_calling 0 [.object ⟨⟨3, 0⟩, "q", none⟩, .int 7] (by decide)
  obtain ⟨args, rest, hstack, hlength, htarget, -, hsource⟩ :=
    hredirected.passes_alike ⟨.empty, .default⟩ hsize
  obtain ⟨a, rfl⟩ := List.length_eq_one_iff.1 hlength
  obtain ⟨rfl, rfl⟩ := List.cons.inj hstack
  refine ⟨?_, htarget⟩
  rcases hsource with ⟨hstatic, -⟩ | ⟨receiver, arguments, -, hargs, hpasses⟩ |
    ⟨receiver, arguments, -, hargs, hnot, -⟩ | ⟨index, hinstruction, hnone, -⟩
  · cases hstatic
  · obtain ⟨hreceiver, -⟩ := List.cons.inj hargs
    obtain rfl := Value.object.inj hreceiver
    exact hpasses
  · obtain ⟨rfl, -⟩ := List.cons.inj hargs
    exact absurd rfl (hnot _)
  · obtain ⟨-, rfl⟩ := Instruction.invoke.inj hinstruction
    rw [Image.stuffed_method?] at hnone
    cases hnone

/-- A call that is given no object fails, and so does one whose operand names nothing yet; the calls
in their places pass what they are given. A call in an image of more constants than can be counted
passes the object, and the one in its place has no method for an operand. -/
theorem passes_differently :
    (Redirected .relayed (.stuffed 0) (.restuffed 0) Image.visitingSite (calling 0 [.int 5])
        (recalling 0 [.int 5]) ∧
      ∀ env : Environment,
        (calling 0 [.int 5]).execute env.host = .error (.mismatch "q" (.int 5)) ∧
        (recalling 0 [.int 5]).Passes env Image.visitingSite.target [.int 5] []) ∧
    (Redirected .relayed .departing .departed Image.departingSite unreached reached ∧
      ∀ env : Environment,
        unreached.execute env.host = .error (.malformed (.notAMethod 7)) ∧
        reached.Passes env Image.departingSite.target [.int 5] []) ∧
    (Redirected .relayed (.stuffed 65529) (.restuffed 65529) Image.visitingSite
        (calling 65529 [.object ⟨⟨3, 0⟩, "q", none⟩])
        (recalling 65529 [.object ⟨⟨3, 0⟩, "q", none⟩]) ∧
      ∀ env : Environment,
        (calling 65529 [.object ⟨⟨3, 0⟩, "q", none⟩]).Passes env Image.visitingSite.source
          [.object ⟨⟨3, 0⟩, "q", none⟩] [] ∧
        (recalling 65529 [.object ⟨⟨3, 0⟩, "q", none⟩]).execute env.host =
          .error (.malformed (.notAMethod 0))) ∧
    ¬∀ (rules : RuleSet) (image image' : Image) (site : RedirectedSite) (f f' : Frame)
      (env : Environment), Redirected rules image image' site f f' → PassAlike env f f' := by
  have hmismatch (env : Environment) :
      (calling 0 [.int 5]).execute env.host = .error (.mismatch "q" (.int 5)) := by
    have hsize : (Image.stuffed 0).pool.size ≤ Pool.capacity := by decide
    rcases (redirected_calling 0 [.int 5] (by decide)).source_execute env.host hsize with
      ⟨index, hinstruction, hnone, -⟩ | hexecute
    · obtain ⟨-, rfl⟩ := Instruction.invoke.inj hinstruction
      rw [Image.stuffed_method?] at hnone
      cases hnone
    · rw [hexecute]
      rfl
  have hunreached (env : Environment) :
      unreached.execute env.host = .error (.malformed (.notAMethod 7)) := by
    have hnone : unreached.module.image.pool.method? 7 = none := by decide
    exact execute_of_no_method env.host rfl hnone
  have hpasses (env : Environment) (n : Nat) :
      (calling n [.object ⟨⟨3, 0⟩, "q", none⟩]).Passes env Image.visitingSite.source
        [.object ⟨⟨3, 0⟩, "q", none⟩] [] := by
    have hnames : (calling n [.object ⟨⟨3, 0⟩, "q", none⟩]).module.image.pool.Names (5, .virtual)
        Image.visitingSite.source := by
      have hparse : Signature.parse "()V" = .ok .void := by decide +kernel
      exact ⟨_, Image.stuffed_method? n, map_eq_ok_iff.2 ⟨_, hparse, rfl⟩⟩
    refine passes_of_execute ?_
    rw [execute_invoke env.host rfl, call_of_names hnames (Nat.le_refl 1)]
    rfl
  have hrefused (env : Environment) :
      (recalling 65529 [.object ⟨⟨3, 0⟩, "q", none⟩]).execute env.host =
        .error (.malformed (.notAMethod 0)) := by
    have hinstruction : (recalling 65529 [.object ⟨⟨3, 0⟩, "q", none⟩]).instruction =
        .invoke .static 0 := by
      have hposition : (7 + 65529).toUInt16 = 0 := by decide
      show Instruction.invoke .static (7 + 65529).toUInt16 = .invoke .static 0
      rw [hposition]
    have htext : (Image.stuffed 65529).pool.get? 0 = some (.utf8 "s") :=
      (Image.stuffed_extends 65529).get? rfl
    refine execute_of_no_method env.host hinstruction ?_
    show (Image.stuffed 65529).pool.method? 0 = none
    rw [Pool.method?, htext]
  have hobject := redirected_calling 0 [.int 5] (by decide)
  refine ⟨⟨hobject, fun env => ⟨hmismatch env, ?_⟩⟩, ⟨redirected_unreached, fun env =>
    ⟨hunreached env, ?_⟩⟩, ⟨redirected_calling 65529 _ (by decide), fun env =>
      ⟨hpasses env 65529, hrefused env⟩⟩, ?_⟩
  · exact hobject.target_passes env (by decide)
  · exact redirected_unreached.target_passes env (by decide)
  · intro hall
    obtain ⟨s, s', args, rest, hpassed, -⟩ := hall _ _ _ _ _ _ ⟨.empty, .default⟩ hobject
    have hexecute := hpassed.execute_eq
    rw [hmismatch] at hexecute
    cases hexecute

end Frame

end Interposition
