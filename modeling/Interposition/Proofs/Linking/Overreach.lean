import Interposition.Proofs.Image.Reach
import Interposition.Proofs.Linking.Coherence

/-!
# Interposition.Proofs.Linking.Overreach — faults that redirecting conceals

A layer verifies what it has redirected, and by then constants have been added to the pool. A
reference that leads nowhere in the original may lead to one of these. Such a reference is the
only fault that is concealed so (`Image.redirect_conceals`): seen from all other references the
two pools are alike, and a redirected call has the effect of the call in whose place it stands.

The effects are the same as long as the receivers of redirected calls can stand in a descriptor.
The owner of a source is not checked for that, and one that has a `;` reads as more than one
parameter of the target.
-/

namespace Interposition

/-! ## Pools seen from an image -/

/-- Where nothing was added a larger pool holds what there was. -/
theorem Pool.Extends.get?_eq {p q : Pool} (h : q.Extends p) {index : UInt16}
    (hout : ¬(p.size ≤ index.toNat ∧ index.toNat < q.size)) : q.get? index = p.get? index := by
  rcases h.exists_added with ⟨added, hadded⟩
  by_cases hlt : index.toNat < p.size
  · rw [Pool.get?, Pool.get?, hadded, Array.getElem?_append_left hlt]
  · have hp : p.size ≤ index.toNat := Nat.not_lt.1 hlt
    have hq : q.size ≤ index.toNat := Nat.not_lt.1 fun hlt' => hout ⟨hp, hlt'⟩
    rw [Pool.get?, Pool.get?, Array.getElem?_eq_none hp, Array.getElem?_eq_none hq]

namespace Image

/-- Seen from the references of an image a pool is the one the image has. -/
def Sees (image : Image) (q : Pool) : Prop :=
  ∀ index, image.Follows index → q.get? index = image.pool.get? index

variable {image : Image} {q : Pool}

theorem Sees.utf8?_eq (h : image.Sees q) {index : UInt16} (hindex : image.Follows index) :
    q.utf8? index = image.pool.utf8? index :=
  Pool.utf8?_congr (h index hindex)

theorem Sees.texts?_eq (h : image.Sees q) {c : Constant} {m : Member}
    (hc : c ∈ image.pool.entries) (hm : c.references = [m.owner, m.name, m.descriptor]) :
    q.texts? m = image.pool.texts? m := by
  have hfollows (index : UInt16) (hindex : index ∈ [m.owner, m.name, m.descriptor]) :
      q.get? index = image.pool.get? index := by
    rw [← hm] at hindex
    exact h index (.constant hc hindex)
  apply Pool.texts?_congr
  · exact hfollows m.owner (by simp)
  · exact hfollows m.name (by simp)
  · exact hfollows m.descriptor (by simp)

/-- What a reference is read as goes one step further, to the texts of a member that is there. -/
theorem Sees.readsAlike (h : image.Sees q) {index : UInt16} (hindex : image.Follows index) :
    image.pool.ReadsAlike q index := by
  apply Pool.readsAlike_of_get? (h index hindex)
  intro m hm
  rcases hm with hm | hm
  · exact h.texts?_eq (Array.mem_of_getElem? hm) rfl
  · exact h.texts?_eq (Array.mem_of_getElem? hm) rfl

/-- What the pool admits of the constants of the image, the image's own pool admits. -/
theorem Sees.admits (h : image.Sees q) {c : Constant} (hc : c ∈ image.pool.entries)
    (hadmits : q.Admits c) : image.pool.Admits c := by
  cases c with
  | utf8 text => trivial
  | int value => trivial
  | str text =>
    rcases hadmits with ⟨s, hs⟩
    have hfollows : image.Follows text := .constant hc (by simp [Constant.references])
    rw [h.utf8?_eq hfollows] at hs
    exact ⟨s, hs⟩
  | method m | field m =>
    rcases hadmits with ⟨texts, a, htexts, hparse⟩
    rw [h.texts?_eq hc rfl] at htexts
    exact ⟨texts, a, htexts, hparse⟩

theorem Sees.methodLabel_eq {image' : Image} (h : image.Sees image'.pool) {m m' : Method}
    (hm : m ∈ image.methods) (hname : m'.name = m.name)
    (hdescriptor : m'.descriptor = m.descriptor) :
    image'.methodLabel m' = image.methodLabel m := by
  simp only [methodLabel, methodName?, methodDescriptor?, hname, hdescriptor,
    h.utf8?_eq (.methodName hm), h.utf8?_eq (.methodDescriptor hm)]

end Image

/-! ## Effects -/

/-- A source that reads as a target reads, if its owner does not end early. -/
theorem Symbol.reads_of_parse {s : Symbol} {t : Signature}
    (hclean : s.kind = .virtual → ';' ∉ s.owner.toList)
    (h : Signature.parse s.staticSignature.descriptor = .ok t) : s.Reads := by
  intro hvirtual
  have hreceiver : s.staticSignature = s.signature.withReceiver s.owner := by
    rw [staticSignature, hvirtual]
  rw [hreceiver] at h
  rcases Signature.owner_of_parse_withReceiver (hclean hvirtual) h with ⟨hnonempty, hclosed⟩
  exact ⟨hnonempty, hclean hvirtual, hclosed⟩

namespace Routine

variable {r r' : Routine} {offset offset' : Nat} {i i' : Instruction} {e : Effect}

/-- A call has the effect of the one that has come in its place. -/
theorem effect_of_becomes {rules : RuleSet} (hreads : ∀ kind index source,
      i = .invoke kind index → r'.pool.Names (index, kind) source →
      (rules.lookup source).isSome → source.Reads)
    (hpool : r'.pool.Extends r.pool)
    (hoperand : ∀ index, i.poolOperand? = some index → r.pool.ReadsAlike r'.pool index)
    (hsignature : r'.signature = r.signature) (hlocals : r'.method.maxLocals = r.method.maxLocals)
    (hbecomes : i.Becomes rules r'.pool i') (h : r'.effect offset' i' = .ok e) :
    r.effect offset i = .ok e := by
  cases hbecomes with
  | stays =>
    refine effect_congr ?_ hsignature.symm hlocals.symm h
    intro index hindex
    exact (hoperand index hindex).symm
  | @turns kind index target source rule hnames hrule htarget =>
    -- The operand names a method in the pool there was, so the call has an effect to begin with.
    have hcall : ∃ e₀, r.effect offset (.invoke kind index) = .ok e₀ := by
      rcases hnames with ⟨m, hm, hsymbol⟩
      rcases map_eq_ok_iff.1 hsymbol with ⟨signature, hparse, -⟩
      rw [(hoperand index rfl).method?_eq] at hm
      simp only [effect, hm, hparse]
      exact ⟨_, rfl⟩
    rcases hcall with ⟨e₀, he₀⟩
    have hcalled : r'.effect offset' (.invoke .static target) = .ok e₀ :=
      effect_becomes hreads hpool hsignature hlocals (.turns hnames hrule htarget) he₀
    rw [he₀, ← hcalled, h]

end Routine

/-! ## Images -/

/-- No redirected instance call has an owner that ends early in a descriptor. -/
def RedirectReport.Clean (report : RedirectReport) : Prop :=
  ∀ site ∈ report.sites, site.source.kind = .virtual → ';' ∉ site.source.owner.toList

namespace Image

/-- A reference that is followed leads behind the pool, among the constants that come next. -/
def Overreaches (image : Image) (growth : Nat) : Prop :=
  ∃ index, image.Follows index ∧ image.pool.size ≤ index.toNat ∧
    index.toNat < image.pool.size + growth

theorem WellFormed.not_overreaches {image : Image} (h : image.WellFormed) (growth : Nat) :
    ¬image.Overreaches growth := by
  rintro ⟨index, hfollows, hle, -⟩
  have hlt := h.lt_of_follows hfollows
  omega

variable {rules : RuleSet} {image image' : Image} {report : RedirectReport}
  {known : Replacements}

/-- In a redirected image that is well formed the receivers of redirected calls can stand in a
descriptor, as the targets' descriptors read. -/
theorem reads_of_settles (hwell : image'.WellFormed)
    (hclean : ∀ site ∈ image.callSites.filterMap known.redirected?,
      site.source.kind = .virtual → ';' ∉ site.source.owner.toList)
    (hsettles : ∀ site ∈ image.callSites,
      image'.pool.Settles rules site.operand (known.find? site.operand))
    {m : Method} (hm : m ∈ image.methods) (kind : CallKind) (index : UInt16) (source : Symbol)
    (hi : .invoke kind index ∈ m.code) (hnames : image'.pool.Names (index, kind) source)
    (hruled : (rules.lookup source).isSome) : source.Reads := by
  rcases exists_callSite hm hi with ⟨site, hsite, hoperand⟩
  rcases Option.isSome_iff_exists.1 hruled with ⟨rule, hrule⟩
  rcases hsettles site hsite with ⟨source', hnames', hsettled⟩
  rw [hoperand] at hnames'
  obtain rfl : source' = source := hnames'.unique hnames
  rw [hrule] at hsettled
  rcases hsettled with ⟨target, hfind, hmethod⟩
  have hlisted : (⟨site.method, site.offset, source', rule.target⟩ : RedirectedSite) ∈
      image.callSites.filterMap known.redirected? := by
    refine List.mem_filterMap.2 ⟨site, hsite, ?_⟩
    rw [Replacements.redirected?, hfind, Option.map_some]
  rcases RuleSet.lookup_eq_some hrule with ⟨-, rfl⟩
  rcases hwell.parse_of_method? hmethod with ⟨signature, hparse⟩
  have hdescriptor : rule.target.texts.descriptor = rule.source.staticSignature.descriptor :=
    congrArg Signature.descriptor rule.target_signature
  rw [hdescriptor] at hparse
  exact Symbol.reads_of_parse (hclean _ hlisted) hparse

/-- A method had heights before its calls were redirected, if it has some after. -/
theorem disciplined_of_apply {m : Method} {r' : Routine} {heights : Nat → Option Nat}
    (hm : m ∈ image.methods) (hreads : ∀ kind index source, .invoke kind index ∈ m.code →
      image'.pool.Names (index, kind) source → (rules.lookup source).isSome → source.Reads)
    (hpool : image'.pool.Extends image.pool) (hsees : image.Sees image'.pool)
    (hbecomes : ∀ i ∈ m.code, i.Becomes rules image'.pool (known.apply i))
    (hr' : Routine.ofMethod image' { m with code := m.code.map known.apply } = .ok r')
    (hd : r'.Discipline heights) :
    ∃ r heights, Routine.ofMethod image m = .ok r ∧ r.Discipline heights := by
  rcases Routine.ofMethod_eq_ok_iff.1 hr' with
    ⟨descriptor, name, signature, hdescriptor, hname, hparse, hslots, rfl⟩
  rw [hsees.utf8?_eq (.methodDescriptor hm)] at hdescriptor
  rw [hsees.utf8?_eq (.methodName hm)] at hname
  -- Only operands of instructions that are reached are followed.
  rcases hd.exists_reached rfl with ⟨heights', hd', hreached⟩
  have halters := Method.alters_apply known hbecomes
  refine ⟨_, heights', Routine.ofMethod_eq_ok_iff.2
    ⟨descriptor, name, signature, hdescriptor, hname, hparse, hslots, rfl⟩, ?_⟩
  refine hd'.transfer halters.offsets_eq.symm rfl halters.code_size.symm ?_ ?_
  · refine Code.byteLength_congr ?_
    simp [Function.comp_def]
  · intro p i' e hsome hi' he
    rcases Option.isSome_iff_exists.1 hsome with ⟨height, hheight⟩
    have hp : m.Reached p := by
      refine halters.reached ?_ (hreached p height hheight)
      intro i i' hi
      exact ⟨hi.jumpTarget?_eq, hi.isTerminal_eq⟩
    rcases halters.instruction p i' hi' with ⟨i, hi, hbecomes'⟩
    have hmem : i ∈ m.code := Array.mem_of_getElem? hi
    refine ⟨i, hi, ?_, hbecomes'.jumpTarget?_eq.symm, hbecomes'.isTerminal_eq.symm⟩
    refine Routine.effect_of_becomes ?_ ?_ ?_ ?_ ?_ hbecomes' he
    · rintro kind index source rfl
      exact hreads kind index source hmem
    · exact hpool
    · intro index hindex
      exact hsees.readsAlike (.operand hm hp hi hindex)
    · rfl
    · rfl

/-- Redirecting to a well-formed image conceals no fault but a reference to what was added. -/
theorem redirect_conceals (hsize : image.pool.size ≤ Pool.capacity) (hwell : image'.WellFormed)
    (hclean : report.Clean) (h : image.redirect rules = .ok (image', report)) :
    (image.WellFormed ∧ image.name? = image'.name?) ↔ ¬image.Overreaches report.poolGrowth := by
  constructor
  · rintro ⟨hwell, -⟩
    exact hwell.not_overreaches report.poolGrowth
  intro hwithin
  rcases redirect_ok h hsize with ⟨-, rfl, -⟩ | ⟨known, hgrows, himage, hreport, hsettles⟩
  · exact ⟨hwell, rfl⟩
  have hpool := hgrows.extends_pool
  have hmethods : image'.methods = image.methods.map fun m =>
      { m with code := m.code.map known.apply } := congrArg Image.methods himage
  have hthis : image'.thisName = image.thisName := by rw [himage]
  have hsees : image.Sees image'.pool := by
    intro index hindex
    apply hpool.get?_eq
    rintro ⟨hle, hlt⟩
    refine hwithin ⟨index, hindex, hle, ?_⟩
    have hgrowth : report.poolGrowth = image'.pool.size - image.pool.size :=
      congrArg RedirectReport.poolGrowth hreport
    omega
  have hname : image.name? = image'.name? := by
    rw [name?, name?, hthis, hsees.utf8?_eq .name]
  refine ⟨⟨?_, ?_, ?_, ?_⟩, hname⟩
  · intro c hc
    rcases hpool.exists_added with ⟨added, hadded⟩
    have hc' : c ∈ image'.pool.entries := by
      rw [hadded]
      exact Array.mem_append_left added hc
    exact hsees.admits hc (hwell.admitted c hc')
  · rw [hname]
    exact hwell.named
  · have hlabels : image'.methods.toList.map image'.methodLabel =
        image.methods.toList.map image.methodLabel := by
      rw [hmethods, Array.toList_map, List.map_map]
      refine List.map_congr_left fun m hm => ?_
      exact hsees.methodLabel_eq (Array.mem_toList_iff.1 hm) rfl rfl
    rw [← hlabels]
    exact hwell.distinct
  · intro m hm
    have hm' : { m with code := m.code.map known.apply } ∈ image'.methods := by
      rw [hmethods]
      exact Array.mem_map_of_mem hm
    rcases hwell.disciplined _ hm' with ⟨r', heights, hr', hd⟩
    rw [hreport] at hclean
    exact disciplined_of_apply hm (reads_of_settles hwell hclean hsettles hm) hpool hsees
      (fun i hi => becomes_of_settles hsettles hm hi) hr' hd

end Image

/-! ## Transformations -/

/-- Transformed bytes that verify conceal no fault of the original but a reference to what was
added. -/
theorem transform_verifyNamed_iff {rules : RuleSet} {bytes encoded : List UInt8}
    {report : RedirectReport} {image : Image} {name : String}
    (htransform : transform rules bytes = .ok (encoded, report))
    (hdecode : Image.decode encoded = .ok image) (hverify : image.verifyNamed name = .ok ())
    (hclean : report.Clean) :
    ∃ original, Image.decode bytes = .ok original ∧
      (original.verifyNamed name = .ok () ↔ ¬original.Overreaches report.poolGrowth) := by
  rcases transform_eq_ok htransform with ⟨original, image', horiginal, hredirect, hdecode'⟩
  obtain rfl : image' = image := Except.ok.inj (hdecode'.symm.trans hdecode)
  rcases Image.verifyNamed_eq_ok_iff.1 hverify with ⟨hwell, hname⟩
  have hsize := (Image.decode_eq_ok_iff.1 horiginal).2.1.pool_size
  have hconceals := Image.redirect_conceals hsize hwell hclean hredirect
  refine ⟨original, horiginal, ?_⟩
  rw [← hconceals, Image.verifyNamed_eq_ok_iff, hname]

/-- A free name is defined by bytes exactly if their image is accepted under it. -/
theorem Space.exists_define_iff {s : Space} {name : String} {bytes : List UInt8} {image : Image}
    (hfree : s.contains name = false) (hdecode : Image.decode bytes = .ok image) (derived : Bool)
    (level : Option Nat) :
    (∃ result, s.define name bytes derived level = .ok result) ↔
      image.verifyNamed name = .ok () := by
  constructor
  · rintro ⟨⟨m, space⟩, hdefine⟩
    rcases Module.define_eq_ok (Space.define_eq_ok hdefine).1 with ⟨image', hdecode', hverify, -⟩
    obtain rfl : image' = image := Except.ok.inj (hdecode'.symm.trans hdecode)
    exact hverify
  · intro hverify
    rw [Space.define_of_free hfree]
    simp only [Module.define, hdecode, hverify, mapError_ok, bind, Except.bind, pure, Except.pure,
      Except.map]
    exact ⟨_, rfl⟩

/-- A name that a layer takes and loads is that of transformed bytes, which are accepted. -/
theorem Loader.load_layer_eq_ok {l : Layer} {below : Loader} {name : String} {m : Module}
    (hselects : l.selects name = true) (h : ((Loader.layer l below).load name).1 = .ok m) :
    ∃ bytes report, below.resources.readModule name = .ok bytes ∧
      transform l.registry.rules bytes = .ok (m.bytes, report) ∧
      Image.decode m.bytes = .ok m.image ∧ m.image.verifyNamed name = .ok () := by
  have hfrozen : l.freeze.selects name = true := hselects
  rw [load] at h
  simp only [hfrozen, if_true] at h
  split at h
  case isTrue => cases h
  case isFalse =>
    split at h
    case h_1 => cases h
    case h_2 bytes hread =>
      rcases l.freeze.define_cases (below.level + 1) name bytes with
        ⟨⟨e, he⟩, -⟩ | ⟨encoded, report, m', htransform, hdefine, hanswer, -⟩
      · rw [he] at h
        cases h
      · rw [hanswer] at h
        obtain rfl : m' = m := Except.ok.inj h
        rcases Module.define_eq_ok hdefine with ⟨image, hdecode, hverify, rfl⟩
        exact ⟨bytes, report, hread, htransform, hdecode, hverify⟩

/-- If no redirected instance call has an owner with a `;`, then

* bytes whose transformation is accepted under a name are accepted under it themselves exactly if
  no reference that is followed to verify them leads to one of the constants added;
* so a layer defines a module that its bytes do not define in a loader below exactly where such
  a reference does. -/
theorem transform_conceals :
    (∀ (rules : RuleSet) (bytes encoded : List UInt8) (report : RedirectReport) (image : Image)
        (name : String), transform rules bytes = .ok (encoded, report) →
      Image.decode encoded = .ok image → image.verifyNamed name = .ok () → report.Clean →
      ∃ original, Image.decode bytes = .ok original ∧
        (original.verifyNamed name = .ok () ↔ ¬original.Overreaches report.poolGrowth)) ∧
    ∀ (l : Layer) (below : Loader) (name : String) (m : Module), l.selects name = true →
      ((Loader.layer l below).load name).1 = .ok m →
      ∃ bytes report original, below.resources.readModule name = .ok bytes ∧
        transform l.registry.rules bytes = .ok (m.bytes, report) ∧
        Image.decode bytes = .ok original ∧
        (report.Clean → ∀ (s : Space) (level : Option Nat), s.contains name = false →
          ((∃ result, s.define name bytes false level = .ok result) ↔
            ¬original.Overreaches report.poolGrowth)) := by
  constructor
  · intro rules bytes encoded report image name htransform hdecode hverify hclean
    exact transform_verifyNamed_iff htransform hdecode hverify hclean
  · intro l below name m hselects hload
    rcases Loader.load_layer_eq_ok hselects hload with
      ⟨bytes, report, hread, htransform, hdecode, hverify⟩
    rcases transform_eq_ok htransform with ⟨original, image, horiginal, -⟩
    refine ⟨bytes, report, original, hread, htransform, horiginal, ?_⟩
    intro hclean s level hfree
    rcases transform_verifyNamed_iff htransform hdecode hverify hclean with
      ⟨original', horiginal', hiff⟩
    obtain rfl : original' = original := Except.ok.inj (horiginal'.symm.trans horiginal)
    rw [Space.exists_define_iff hfree horiginal, hiff]

/-- A program with a literal whose text is not there. -/
def Image.awaiting : Image where
  major := 1
  minor := 0
  pool := ⟨#[.utf8 "a", .utf8 "main", .utf8 "()V", .utf8 "b", .utf8 "f", .method ⟨3, 4, 2⟩,
    .str 7]⟩
  thisName := 0
  methods := #[⟨1, 1, 2, 0, #[.invoke .static 5, .ret], []⟩]

/-- The rule for the call in it. The first text of the target comes where the literal has its. -/
def Rule.supplying : Rule :=
  .redirect ⟨"b", "f", .void, .static⟩ "c" "g"

/-- The program with its call redirected. -/
def Image.supplied : Image where
  major := 1
  minor := 0
  pool := ⟨#[.utf8 "a", .utf8 "main", .utf8 "()V", .utf8 "b", .utf8 "f", .method ⟨3, 4, 2⟩,
    .str 7, .utf8 "c", .utf8 "g", .method ⟨7, 8, 2⟩]⟩
  thisName := 0
  methods := #[⟨1, 1, 2, 0, #[.invoke .static 9, .ret], []⟩]

/-- What is reported of that. -/
def RedirectReport.supplying : RedirectReport :=
  ⟨"a", [⟨"main()V", 0, Rule.supplying.source, Rule.supplying.target⟩], 3⟩

theorem transform_awaiting :
    Image.decode Image.awaiting.bytes = .ok .awaiting ∧
      Image.awaiting.verifyNamed "a" = .error (.badConstant 7 "Utf8") ∧
      transform (.ofList [.supplying]) Image.awaiting.bytes =
        .ok (Image.supplied.bytes, .supplying) ∧
      Image.decode Image.supplied.bytes = .ok .supplied ∧
      Image.supplied.verifyNamed "a" = .ok () := by
  have hdecode : Image.decode Image.awaiting.bytes = .ok .awaiting := by decide +kernel
  have hredirect : Image.awaiting.redirect (.ofList [.supplying]) =
      .ok (.supplied, .supplying) := by
    decide +kernel
  have hencode : Image.supplied.encode = .ok Image.supplied.bytes := by decide +kernel
  have hrefused : Image.awaiting.verifyNamed "a" = .error (.badConstant 7 "Utf8") := by
    decide +kernel
  have hverify : Image.supplied.verifyNamed "a" = .ok () := by decide +kernel
  exact ⟨hdecode, hrefused, transform_of_redirect hdecode hredirect hencode,
    Image.decode_of_encode hencode rfl, hverify⟩

/-- A layer with the rule over a bundle with the program. -/
def Loader.supplying : Loader :=
  .layer ⟨(· == "a"), ⟨.ofList [.supplying], false⟩, .empty, .zero⟩
    (.bundle (.of (.memory [(resourcePath "a", Image.awaiting.bytes)])))

/-- The layer loads the program, though its bytes define no module. -/
theorem transform_conceals_supplying :
    Image.awaiting.Overreaches 3 ∧ ∃ m, (Loader.supplying.load "a").1 = .ok m ∧
      ¬∃ result, Space.empty.define "a" Image.awaiting.bytes false none = .ok result := by
  rcases transform_awaiting with ⟨hdecode, hrefused, htransform, hdecode', hverify⟩
  have hclean : RedirectReport.supplying.Clean := by
    simp [RedirectReport.Clean, RedirectReport.supplying, Rule.supplying, Rule.redirect]
  have hoverreaches : Image.awaiting.Overreaches 3 := by
    rcases transform_conceals.1 _ _ _ _ _ _ htransform hdecode' hverify hclean with
      ⟨original, horiginal, hiff⟩
    obtain rfl : original = .awaiting := Except.ok.inj (horiginal.symm.trans hdecode)
    by_contra hwithin
    have haccepted := hiff.2 hwithin
    rw [hrefused] at haccepted
    cases haccepted
  have hloads : ∃ m, (Loader.supplying.load "a").1 = .ok m := by
    have hsome : (Loader.supplying.load "a").1.toOption.isSome = true := by decide +kernel
    cases hload : (Loader.supplying.load "a").1 with
    | error e => simp [hload, Except.toOption] at hsome
    | ok m => exact ⟨m, rfl⟩
  rcases hloads with ⟨m, hload⟩
  refine ⟨hoverreaches, m, hload, ?_⟩
  rcases transform_conceals.2 _ _ "a" m rfl hload with
    ⟨bytes, report, original, hread, htransform', horiginal, hconceals⟩
  have hbytes : bytes = Image.awaiting.bytes :=
    (Except.ok.inj (hread.symm.trans (by simp [Loader.resources, Bundle.of, Resources.readModule,
      Resources.read])))
  subst hbytes
  obtain rfl : original = .awaiting := Except.ok.inj (horiginal.symm.trans hdecode)
  have hpair : (m.bytes, report) = (Image.supplied.bytes, RedirectReport.supplying) :=
    Except.ok.inj (htransform'.symm.trans htransform)
  obtain rfl : report = .supplying := congrArg Prod.snd hpair
  intro hdefines
  exact (hconceals hclean .empty none rfl).1 hdefines hoverreaches

/-- A program that calls a method of an object on a stack of two, on one of two ways. -/
def Image.forking : Image where
  major := 1
  minor := 0
  pool := ⟨#[.utf8 "a", .utf8 "main", .utf8 "()V", .utf8 "x;Ly", .utf8 "f", .method ⟨3, 4, 2⟩]⟩
  thisName := 0
  methods := #[⟨1, 1, 2, 0, #[.pushTrue, .jumpIfFalse 11, .pushTrue, .pushTrue,
    .invoke .virtual 5, .ret], []⟩]

/-- The rule for the call in it. The descriptor of the target reads as one of two parameters. -/
def Rule.doubling : Rule :=
  .redirect ⟨"x;Ly", "f", .void, .virtual⟩ "c" "g"

/-- The program with its call redirected. -/
def Image.doubled : Image where
  major := 1
  minor := 0
  pool := ⟨#[.utf8 "a", .utf8 "main", .utf8 "()V", .utf8 "x;Ly", .utf8 "f", .method ⟨3, 4, 2⟩,
    .utf8 "c", .utf8 "g", .utf8 "(Lx;Ly;)V", .method ⟨6, 7, 8⟩]⟩
  thisName := 0
  methods := #[⟨1, 1, 2, 0, #[.pushTrue, .jumpIfFalse 11, .pushTrue, .pushTrue,
    .invoke .static 9, .ret], []⟩]

/-- Transforming may conceal a reference to what was added, and a call that takes too few
operands for the way control goes on. -/
theorem transform_conceals_faults :
    (∃ encoded report image,
      transform (.ofList [.supplying]) Image.awaiting.bytes = .ok (encoded, report) ∧
      Image.decode encoded = .ok image ∧ image.verifyNamed "a" = .ok () ∧
      Image.decode Image.awaiting.bytes = .ok .awaiting ∧
      Image.awaiting.verifyNamed "a" = .error (.badConstant 7 "Utf8")) ∧
    (∃ encoded report image,
      transform (.ofList [.doubling]) Image.forking.bytes = .ok (encoded, report) ∧
      Image.decode encoded = .ok image ∧ image.verifyNamed "a" = .ok () ∧
      Image.decode Image.forking.bytes = .ok .forking ∧
      Image.forking.verifyNamed "a" = .error (.stackMismatch "main()V" 11 0 1)) ∧
    ¬∀ (rules : RuleSet) (bytes encoded : List UInt8) (report : RedirectReport) (image : Image)
        (name : String), transform rules bytes = .ok (encoded, report) →
      Image.decode encoded = .ok image → image.verifyNamed name = .ok () →
      ∃ original, Image.decode bytes = .ok original ∧ original.verifyNamed name = .ok () := by
  rcases transform_awaiting with ⟨hdecode, hrefused, htransform, hdecode', hverify⟩
  refine ⟨⟨_, _, _, htransform, hdecode', hverify, hdecode, hrefused⟩, ?_, ?_⟩
  · have hforking : Image.decode Image.forking.bytes = .ok .forking := by decide +kernel
    have hredirect : Image.forking.redirect (.ofList [.doubling]) =
        .ok (.doubled, ⟨"a", [⟨"main()V", 8, Rule.doubling.source, Rule.doubling.target⟩], 4⟩) := by
      decide +kernel
    have hencode : Image.doubled.encode = .ok Image.doubled.bytes := by decide +kernel
    have hmismatch : Image.forking.verifyNamed "a" =
        .error (.stackMismatch "main()V" 11 0 1) := by decide +kernel
    have hdoubled : Image.doubled.verifyNamed "a" = .ok () := by decide +kernel
    exact ⟨_, _, .doubled, transform_of_redirect hforking hredirect hencode,
      Image.decode_of_encode hencode rfl, hdoubled, hforking, hmismatch⟩
  · intro hkeeps
    rcases hkeeps _ _ _ _ _ _ htransform hdecode' hverify with ⟨original, horiginal, haccepted⟩
    obtain rfl : original = .awaiting := Except.ok.inj (horiginal.symm.trans hdecode)
    rw [hrefused] at haccepted
    cases haccepted

end Interposition
