import Interposition.Proofs.Call.Descriptor
import Interposition.Proofs.Image.Redirection
import Interposition.Proofs.Image.WellFormed

/-!
# Interposition.Proofs.Image.Preservation — redirected images stay well formed

A redirected call takes and leaves what the call in its place took and left: the target of a
rule has the parameters of the source, the receiver in front, and its descriptor reads as just
these (`Symbol.readable_staticSignature`). So the heights of a method are heights of the method
with its calls redirected (`Discipline.transfer`), and the verifier accepts what it accepted
(`Image.redirect_wellFormed`).
-/

namespace Interposition

/-! ## Signatures of targets -/

/-- The owner of an instance call whose receiver can stand in a descriptor. -/
def Symbol.Reads (s : Symbol) : Prop :=
  s.kind = .virtual → s.owner ≠ "" ∧ ';' ∉ s.owner.toList ∧ ')' ∉ s.owner.toList

theorem Symbol.reads_of_static {s : Symbol} (h : s.kind = .static) : s.Reads := by
  intro hvirtual
  rw [h] at hvirtual
  cases hvirtual

theorem Symbol.readable_staticSignature {s : Symbol} (hs : s.Reads)
    (hsignature : s.signature.Readable) : s.staticSignature.Readable := by
  unfold staticSignature
  cases hkind : s.kind with
  | static => exact hsignature
  | virtual =>
    rcases hs hkind with ⟨hnonempty, hclean, hclosed⟩
    exact hsignature.withReceiver hnonempty hclean hclosed

/-- A static call that stands in takes one operand more than there are parameters if the call it
stands in for has a receiver. -/
theorem Symbol.arity_staticSignature (s : Symbol) :
    s.staticSignature.arity = s.signature.arity + s.kind.receivers := by
  unfold staticSignature
  cases s.kind <;> rfl

theorem Symbol.isVoid_staticSignature (s : Symbol) :
    s.staticSignature.isVoid = s.signature.isVoid := by
  unfold staticSignature
  cases s.kind <;> rfl

theorem Pool.Names.readable {p : Pool} {operand : UInt16 × CallKind} {s : Symbol}
    (h : p.Names operand s) : s.signature.Readable := by
  rcases h with ⟨m, -, hs⟩
  rcases map_eq_ok_iff.1 hs with ⟨signature, hparse, rfl⟩
  exact (Signature.parse_eq_ok_iff.1 hparse).2

/-- The descriptor of a target reads as its signature where some call names the source. -/
theorem Rule.parse_target {p : Pool} {operand : UInt16 × CallKind} {rule : Rule}
    (hreads : rule.source.Reads) (hnames : p.Names operand rule.source) :
    Signature.parse rule.target.signature.descriptor = .ok rule.target.signature := by
  rw [rule.target_signature]
  exact Signature.parse_eq_ok_iff.2 ⟨rfl, Symbol.readable_staticSignature hreads hnames.readable⟩

/-- An operand names a symbol that its kind and the texts at its position make up, if the descriptor
reads as the signature. -/
theorem Pool.names_iff {p : Pool} {index : UInt16} {kind : CallKind} {s : Symbol} :
    p.Names (index, kind) s ↔
      s.kind = kind ∧ p.method? index = some s.texts ∧ s.signature.Readable := by
  constructor
  · rintro ⟨m, hm, hs⟩
    rcases map_eq_ok_iff.1 hs with ⟨signature, hparse, rfl⟩
    rcases Signature.parse_eq_ok_iff.1 hparse with ⟨hdescriptor, hreadable⟩
    refine ⟨rfl, ?_, hreadable⟩
    rw [hm, Symbol.texts, ← hdescriptor]
  · rintro ⟨rfl, hm, hreadable⟩
    have hparse := Signature.parse_eq_ok_iff.2 ⟨rfl, hreadable⟩
    exact ⟨s.texts, hm, map_eq_ok_iff.2 ⟨s.signature, hparse, rfl⟩⟩

/-- A static call of a constant for a target names that target. -/
theorem Rule.names_target {p : Pool} {operand : UInt16 × CallKind} {rule : Rule} {index : UInt16}
    (hreads : rule.source.Reads) (hnames : p.Names operand rule.source)
    (hindex : p.method? index = some rule.target.texts) :
    p.Names (index, .static) rule.target := by
  have hparse := rule.parse_target hreads hnames
  exact Pool.names_iff.2 ⟨rule.target_static, hindex, (Signature.parse_eq_ok_iff.1 hparse).2⟩

/-! ## Pools -/

theorem Pool.Admits.extends {p q : Pool} {c : Constant} (h : p.Admits c) (hq : q.Extends p) :
    q.Admits c := by
  cases c with
  | utf8 text => trivial
  | int value => trivial
  | str text =>
    rcases h with ⟨s, hs⟩
    exact ⟨s, hq.utf8? hs⟩
  | method m =>
    rcases h with ⟨texts, signature, htexts, hparse⟩
    exact ⟨texts, signature, hq.texts? htexts, hparse⟩
  | field m =>
    rcases h with ⟨texts, type, htexts, hparse⟩
    exact ⟨texts, type, hq.texts? htexts, hparse⟩

/-- What a redirection adds is in order. -/
theorem Pool.AddedFor.admits {rules : RuleSet} {q : Pool} {c : Constant}
    (h : q.AddedFor rules c) (hreads : ∀ rule ∈ rules.rules, rule.source.Reads) :
    q.Admits c := by
  rcases h with ⟨text, rfl⟩ | ⟨rule, hrule, ⟨operand, hnames⟩, m, rfl, htexts⟩
  · trivial
  · exact ⟨_, _, htexts, rule.parse_target (hreads rule hrule) hnames⟩

/-! ## Effects -/

namespace Routine

/-- An instruction that has an effect has an operand that the pool provides. -/
theorem provides_of_effect {r : Routine} {offset : Nat} {i : Instruction} {e : Effect}
    (h : r.effect offset i = .ok e) {index : UInt16} (hindex : i.poolOperand? = some index) :
    r.pool.Provides index := by
  cases i <;> simp only [Instruction.poolOperand?, Option.some.injEq, reduceCtorEq] at hindex
  case const operand =>
    subst hindex
    simp only [effect] at h
    split at h
    case h_1 value hget => exact ⟨by simp [hget], by simp [hget]⟩
    case h_2 text hget => exact ⟨by simp [hget], by simp [hget]⟩
    case h_3 => cases h
  case getStatic operand =>
    subst hindex
    simp only [effect] at h
    split at h
    case h_1 texts hfield =>
      rcases Pool.field?_eq_some_iff.1 hfield with ⟨m, hget, htexts⟩
      refine ⟨by simp [hget], ?_⟩
      intro m' hm'
      obtain rfl : m = m' := by simpa [hget] using hm'
      simp [htexts]
    case h_2 => cases h
  case new operand =>
    subst hindex
    simp only [effect] at h
    split at h
    case h_1 text hutf8 =>
      have hget := Pool.get?_of_utf8? hutf8
      exact ⟨by simp [hget], by simp [hget]⟩
    case h_2 => cases h
  case invoke kind operand =>
    subst hindex
    simp only [effect] at h
    split at h
    case h_1 => cases h
    case h_2 texts hmethod =>
      rcases Pool.method?_eq_some_iff.1 hmethod with ⟨m, hget, htexts⟩
      refine ⟨by simp [hget], ?_⟩
      intro m' hm'
      obtain rfl : m = m' := by simpa [hget] using hm'
      simp [htexts]

/-- A call that has an effect names a method. -/
theorem isSome_method?_of_effect {r : Routine} {offset : Nat} {kind : CallKind} {index : UInt16}
    {e : Effect} (h : r.effect offset (.invoke kind index) = .ok e) :
    (r.pool.method? index).isSome := by
  simp only [effect] at h
  split at h
  case h_1 => cases h
  case h_2 texts hmethod => simp [hmethod]

/-- An effect depends on how the operand is read. -/
theorem effect_congr {r r' : Routine} {offset offset' : Nat} {i : Instruction} {e : Effect}
    (hoperand : ∀ index, i.poolOperand? = some index → r.pool.ReadsAlike r'.pool index)
    (hsignature : r'.signature = r.signature)
    (hlocals : r'.method.maxLocals = r.method.maxLocals) (h : r.effect offset i = .ok e) :
    r'.effect offset' i = .ok e := by
  cases i with
  | const index =>
    simp only [effect, (hoperand index rfl).get?_eq] at h ⊢
    cases hget : r.pool.get? index with
    | none => simp [hget] at h
    | some c => cases c <;> simp_all
  | load slot | store slot =>
    simp only [effect, hlocals] at h ⊢
    split at h
    case isTrue hslot =>
      rw [if_pos hslot]
      exact h
    case isFalse => cases h
  | getStatic index =>
    simp only [effect, (hoperand index rfl).field?_eq] at h ⊢
    cases hfield : r.pool.field? index with
    | none => simp [hfield] at h
    | some m => simpa [hfield] using h
  | new index =>
    simp only [effect, Pool.utf8?_congr (hoperand index rfl).get?_eq] at h ⊢
    cases htext : r.pool.utf8? index with
    | none => simp [htext] at h
    | some text => simpa [htext] using h
  | invoke kind index =>
    simp only [effect, (hoperand index rfl).method?_eq] at h ⊢
    cases hm : r.pool.method? index with
    | none => simp [hm] at h
    | some m =>
      cases hparse : Signature.parse m.descriptor with
      | error error => simp [hm, hparse] at h
      | ok signature => simpa [hm, hparse] using h
  | ret =>
    simp only [effect, hsignature] at h ⊢
    split at h
    case isTrue hvoid =>
      rw [if_pos hvoid]
      exact h
    case isFalse => cases h
  | retValue =>
    simp only [effect, hsignature] at h ⊢
    split at h
    case isTrue => cases h
    case isFalse hvalue =>
      rw [if_neg hvalue]
      exact h
  | _ => exact h

/-- An effect that applies in a pool applies when the pool has grown. -/
theorem effect_extends {r r' : Routine} {offset offset' : Nat} {i : Instruction} {e : Effect}
    (hpool : r'.pool.Extends r.pool) (hsignature : r'.signature = r.signature)
    (hlocals : r'.method.maxLocals = r.method.maxLocals) (h : r.effect offset i = .ok e) :
    r'.effect offset' i = .ok e := by
  refine effect_congr ?_ hsignature hlocals h
  intro index hindex
  exact hpool.readsAlike (provides_of_effect h hindex)

/-- A redirected call has the effect of the call in whose place it stands. -/
theorem effect_becomes {rules : RuleSet} {r r' : Routine} {offset offset' : Nat}
    {i i' : Instruction} {e : Effect} (hreads : ∀ kind index source, i = .invoke kind index →
      r'.pool.Names (index, kind) source → (rules.lookup source).isSome → source.Reads)
    (hpool : r'.pool.Extends r.pool) (hsignature : r'.signature = r.signature)
    (hlocals : r'.method.maxLocals = r.method.maxLocals) (hbecomes : i.Becomes rules r'.pool i')
    (h : r.effect offset i = .ok e) : r'.effect offset' i' = .ok e := by
  cases hbecomes with
  | stays => exact effect_extends hpool hsignature hlocals h
  | @turns kind index target source rule hnames hrule htarget =>
    have hsource := hreads kind index source rfl hnames (by rw [hrule]; rfl)
    rcases RuleSet.lookup_eq_some hrule with ⟨-, rfl⟩
    have hparse := rule.parse_target hsource hnames
    -- The operand names the same method in both pools.
    rcases hnames with ⟨m, hm, hsymbol⟩
    rcases map_eq_ok_iff.1 hsymbol with ⟨signature, hsignature', heq⟩
    simp only [effect] at h
    cases hm' : r.pool.method? index with
    | none => simp [hm'] at h
    | some m' =>
      rcases Option.some.inj (hm.symm.trans (hpool.method? hm')) with rfl
      have harity : rule.target.signature.arity = signature.arity + kind.receivers := by
        rw [rule.target_signature, Symbol.arity_staticSignature, ← heq]
      have hvoid : rule.target.signature.isVoid = signature.isVoid := by
        rw [rule.target_signature, Symbol.isVoid_staticSignature, ← heq]
      obtain rfl : ⟨signature.arity + kind.receivers, if signature.isVoid then 0 else 1⟩ = e := by
        simpa [hm', hsignature'] using h
      have htexts : rule.target.texts.descriptor = rule.target.signature.descriptor := rfl
      simp only [effect, htarget, htexts, hparse, harity, hvoid]
      rfl

/-- Code of the same shape and effects keeps the heights. -/
theorem Discipline.transfer {r r' : Routine} {heights : Nat → Option Nat}
    (hd : r.Discipline heights) (hstarts : r'.starts = r.starts)
    (hhandlers : r'.method.handlers = r.method.handlers)
    (hsize : r'.method.code.size = r.method.code.size)
    (hlength : Code.byteLength r'.method.code = Code.byteLength r.method.code)
    (hcode : ∀ p i e, (heights p).isSome → r.method.code[p]? = some i →
      r.effect (r.offset p) i = .ok e → ∃ i', r'.method.code[p]? = some i' ∧
        r'.effect (r'.offset p) i' = .ok e ∧ i'.jumpTarget? = i.jumpTarget? ∧
        i'.isTerminal = i.isTerminal) :
    r'.Discipline heights := by
  -- Jumps and handlers go by byte offset, and no instruction has moved.
  have hposition (offset : UInt32) : r'.position? offset = r.position? offset := by
    rw [position?, position?, hstarts]
  refine ⟨by rw [hsize]; exact hd.nonempty, ?_, hd.entry, ?_, ?_⟩
  · intro h hmem
    rw [hhandlers] at hmem
    have hok := hd.handlers h hmem
    simpa only [handlerOk, hposition, hlength] using hok
  · intro h hmem
    rw [hhandlers] at hmem
    simpa only [hposition] using hd.caught h hmem
  · intro p height hheight
    rcases hd.closed p height hheight with ⟨i, e, hi, he, hpops, hjump, hnext⟩
    have hsome : (heights p).isSome := by
      rw [hheight]
      rfl
    rcases hcode p i e hsome hi he with ⟨i', hi', he', htarget, hterminal⟩
    refine ⟨i', e, hi', he', hpops, ?_, ?_⟩
    · simpa only [htarget, hposition] using hjump
    · simpa only [hterminal, hsize] using hnext

end Routine

theorem Instruction.Becomes.jumpTarget?_eq {rules : RuleSet} {p : Pool} {i i' : Instruction}
    (h : i.Becomes rules p i') : i'.jumpTarget? = i.jumpTarget? := by
  cases h with
  | stays => rfl
  | turns => rfl

theorem Instruction.Becomes.isTerminal_eq {rules : RuleSet} {p : Pool} {i i' : Instruction}
    (h : i.Becomes rules p i') : i'.isTerminal = i.isTerminal := by
  cases h with
  | stays => rfl
  | turns => rfl

/-! ## Images -/

namespace Image

/-- The texts of a method that has a routine are there in every later pool. -/
theorem methodLabel_extends {image image' : Image} {m m' : Method} {r : Routine}
    (hpool : image'.pool.Extends image.pool) (hr : Routine.ofMethod image m = .ok r)
    (hname : m'.name = m.name) (hdescriptor : m'.descriptor = m.descriptor) :
    image'.methodLabel m' = image.methodLabel m := by
  rcases Routine.ofMethod_eq_ok_iff.1 hr with ⟨descriptor, name, _, hdescriptor', hname', -, -, -⟩
  simp only [methodLabel, methodName?, methodDescriptor?, hname, hdescriptor, hname',
    hdescriptor', hpool.utf8? hname', hpool.utf8? hdescriptor']

/-- An image stays well formed when constants are added that are in order. -/
theorem WellFormed.withPool {image : Image} {q : Pool} (h : image.WellFormed)
    (hq : q.Extends image.pool) (hadmitted : ∀ c ∈ q.entries, q.Admits c) :
    ({ image with pool := q } : Image).WellFormed := by
  refine ⟨hadmitted, ?_, ?_, ?_⟩
  · rcases h.named with ⟨name, hname⟩
    exact ⟨name, hq.utf8? hname⟩
  · have hlabels : image.methods.toList.map ({ image with pool := q } : Image).methodLabel =
        image.methods.toList.map image.methodLabel := by
      refine List.map_congr_left fun m hm => ?_
      rcases h.disciplined m (Array.mem_toList_iff.1 hm) with ⟨r, heights, hr, -⟩
      exact methodLabel_extends hq hr rfl rfl
    show (image.methods.toList.map ({ image with pool := q } : Image).methodLabel).Nodup
    rw [hlabels]
    exact h.distinct
  · intro m hm
    rcases h.disciplined m hm with ⟨r, heights, hr, hd⟩
    rcases Routine.ofMethod_eq_ok_iff.1 hr with
      ⟨descriptor, name, signature, hdescriptor, hname, hparse, hslots, rfl⟩
    refine ⟨_, heights, Routine.ofMethod_eq_ok_iff.2 ⟨descriptor, name, signature,
      hq.utf8? hdescriptor, hq.utf8? hname, hparse, hslots, rfl⟩, ?_⟩
    refine hd.transfer rfl rfl rfl rfl ?_
    intro p i e _ hi he
    refine ⟨i, hi, ?_, rfl, rfl⟩
    refine Routine.effect_extends ?_ ?_ ?_ he
    · exact hq
    · rfl
    · rfl

/-- A method keeps its heights when its calls are redirected. -/
theorem disciplined_apply {rules : RuleSet} {image image' : Image} {known : Replacements}
    {m : Method} {r : Routine} {heights : Nat → Option Nat}
    (hreads : ∀ rule ∈ rules.rules, rule.source.Reads) (hpool : image'.pool.Extends image.pool)
    (hbecomes : ∀ i ∈ m.code, i.Becomes rules image'.pool (known.apply i))
    (hr : Routine.ofMethod image m = .ok r) (hd : r.Discipline heights) :
    ∃ r', Routine.ofMethod image' { m with code := m.code.map known.apply } = .ok r' ∧
      r'.Discipline heights := by
  rcases Routine.ofMethod_eq_ok_iff.1 hr with
    ⟨descriptor, name, signature, hdescriptor, hname, hparse, hslots, rfl⟩
  refine ⟨_, Routine.ofMethod_eq_ok_iff.2 ⟨descriptor, name, signature, hpool.utf8? hdescriptor,
    hpool.utf8? hname, hparse, hslots, rfl⟩, ?_⟩
  refine hd.transfer (known.offsets_map_apply m.code) rfl Array.size_map ?_ ?_
  · refine Code.byteLength_congr ?_
    simp [Function.comp_def]
  · intro p i e _ hi he
    have hbecomes' := hbecomes i (Array.mem_of_getElem? hi)
    have hi' : (m.code.map known.apply)[p]? = some (known.apply i) := by
      rw [Array.getElem?_map, hi, Option.map_some]
    refine ⟨known.apply i, hi', ?_, hbecomes'.jumpTarget?_eq, hbecomes'.isTerminal_eq⟩
    refine Routine.effect_becomes ?_ ?_ ?_ ?_ hbecomes' he
    · intro kind index source _ _ hruled
      rcases Option.isSome_iff_exists.1 hruled with ⟨rule, hrule⟩
      rcases RuleSet.lookup_eq_some hrule with ⟨hmem, rfl⟩
      exact hreads rule hmem
    · exact hpool
    · rfl
    · rfl

theorem redirect_wellFormed {rules : RuleSet} {image image' : Image} {report : RedirectReport}
    (hsize : image.pool.size ≤ Pool.capacity) (hreads : ∀ rule ∈ rules.rules, rule.source.Reads)
    (hwell : image.WellFormed) (h : image.redirect rules = .ok (image', report)) :
    image'.WellFormed ∧ image'.name? = image.name? := by
  rcases redirect_ok h hsize with ⟨-, rfl, -⟩ | ⟨known, hgrows, himage, -, hsettles⟩
  · exact ⟨hwell, rfl⟩
  have hpool := hgrows.extends_pool
  have hmethods : image'.methods = image.methods.map fun m =>
      { m with code := m.code.map known.apply } := by rw [himage]
  rcases hwell.named with ⟨name, hname⟩
  have hname' : image'.name? = some name := by
    have hthis : image'.thisName = image.thisName := by rw [himage]
    rw [name?, hthis]
    exact hpool.utf8? hname
  refine ⟨⟨?_, ⟨name, hname'⟩, ?_, ?_⟩, hname'.trans hname.symm⟩
  · intro c hc
    rcases hgrows.of_mem c hc with hc | hc
    · exact (hwell.admitted c hc).extends hpool
    · exact hc.admits hreads
  · have hlabels : image'.methods.toList.map image'.methodLabel =
        image.methods.toList.map image.methodLabel := by
      rw [hmethods, Array.toList_map, List.map_map]
      refine List.map_congr_left fun m hm => ?_
      rcases hwell.disciplined m (Array.mem_toList_iff.1 hm) with ⟨r, heights, hr, -⟩
      exact methodLabel_extends hpool hr rfl rfl
    rw [hlabels]
    exact hwell.distinct
  · intro m' hm'
    rw [hmethods] at hm'
    rcases Array.mem_map.1 hm' with ⟨m, hm, rfl⟩
    rcases hwell.disciplined m hm with ⟨r, heights, hr, hd⟩
    obtain ⟨r', hr', hd'⟩ := disciplined_apply hreads hpool
      (fun i hi => becomes_of_settles hsettles hm hi) hr hd
    exact ⟨r', heights, hr', hd'⟩

/-- Redirecting keeps an image well formed, and its name, if the receivers of all instance calls
that are sources can stand in a descriptor. -/
theorem redirect_verify {rules : RuleSet} {image image' : Image} {report : RedirectReport}
    (hsize : image.pool.size ≤ Pool.capacity)
    (hreads : ∀ rule ∈ rules.rules, rule.source.kind = .virtual →
      rule.source.owner ≠ "" ∧ ';' ∉ rule.source.owner.toList ∧ ')' ∉ rule.source.owner.toList)
    (hverify : image.verify = .ok ()) (h : image.redirect rules = .ok (image', report)) :
    image'.verify = .ok () ∧
      ∀ name, image.verifyNamed name = .ok () → image'.verifyNamed name = .ok () := by
  rcases redirect_wellFormed hsize hreads (verify_eq_ok_iff.1 hverify) h with ⟨hwell, hname⟩
  refine ⟨verify_eq_ok_iff.2 hwell, ?_⟩
  intro name hnamed
  rcases verifyNamed_eq_ok_iff.1 hnamed with ⟨-, hname'⟩
  exact verifyNamed_eq_ok_iff.2 ⟨hwell, hname.trans hname'⟩

/-- An image that calls a method of an object it makes. -/
def visiting : Image where
  major := 1
  minor := 0
  pool := ⟨#[.utf8 "s", .utf8 "run", .utf8 "()V", .utf8 "q", .utf8 "hit", .method ⟨3, 4, 2⟩]⟩
  thisName := 0
  methods := #[⟨1, 1, 2, 0, #[.new 3, .invoke .virtual 5, .ret], []⟩]

theorem redirect_verify_visiting :
    ∃ image' report,
      visiting.redirect (.ofList [.redirect ⟨"q", "hit", .void, .virtual⟩ "s" "hit"]) =
        .ok (image', report) ∧
      image'.methods = #[⟨1, 1, 2, 0, #[.new 3, .invoke .static 7, .ret], []⟩] ∧
      image'.verifyNamed "s" = .ok () := by
  have hredirect : visiting.redirect (.ofList [.redirect ⟨"q", "hit", .void, .virtual⟩ "s" "hit"]) =
      .ok (⟨1, 0, ⟨#[.utf8 "s", .utf8 "run", .utf8 "()V", .utf8 "q", .utf8 "hit",
          .method ⟨3, 4, 2⟩, .utf8 "(Lq;)V", .method ⟨0, 4, 6⟩]⟩, 0,
          #[⟨1, 1, 2, 0, #[.new 3, .invoke .static 7, .ret], []⟩]⟩,
        ⟨"s", [⟨"run()V", 3, ⟨"q", "hit", .void, .virtual⟩,
          ⟨"s", "hit", ⟨[.object "q"], none⟩, .static⟩⟩], 2⟩) := by
    decide +kernel
  refine ⟨_, _, hredirect, rfl, ?_⟩
  exact (redirect_verify (by decide) (by decide) (by decide +kernel) hredirect).2 "s"
    (by decide +kernel)

end Image

end Interposition
