import Interposition.Proofs.Linking.Overreach

/-!
# Interposition.Proofs.Linking.Writability — rules that cannot be written into an image

A registry takes a redirection without a look at the owner of its source. For an instance call that
owner becomes a part of the target's descriptor, and the descriptor is what an image holds and what
is read from it again. `Registry.redirect_written` says which of the accepted rules survive this,
and what comes of the others: their descriptors read as nothing, or as signatures with more
parameters than the target has. So they fail when a module is loaded, or call something else.

An owner with a `;` in it is the only way to another signature. It ends a type early, and what
stands behind it is read as further types (`Signature.params_of_parse_withReceiver`).
-/

namespace Interposition

/-! ## Delimiters -/

section Delimiter

variable {d e : Char} {xs ys rest rest' : List Char}

/-- Where two texts are split at the same character, and the second one at its first, the splits
are one, or the first one comes later. -/
theorem split_eq_or_later (hys : d ∉ ys) (h : xs ++ d :: rest = ys ++ d :: rest') :
    xs = ys ∧ rest = rest' ∨ ∃ more, xs = ys ++ d :: more ∧ rest' = more ++ d :: rest := by
  rcases List.append_eq_append_iff.1 h with ⟨front, rfl, htail⟩ | ⟨front, rfl, htail⟩
  · cases front with
    | nil =>
      left
      exact ⟨(List.append_nil xs).symm, (List.cons.inj htail).2⟩
    | cons c front =>
      obtain ⟨rfl, -⟩ := List.cons.inj htail
      exact absurd (by simp) hys
  · cases front with
    | nil =>
      left
      exact ⟨List.append_nil ys, (List.cons.inj htail).2.symm⟩
    | cons c front =>
      obtain ⟨rfl, rfl⟩ := List.cons.inj htail
      right
      exact ⟨front, rfl, rfl⟩

/-- Where a text is split at a `d` with no `e` behind it, and also at an `e`, the `d` stands behind
that `e`. -/
theorem exists_split_behind (hne : e ≠ d) (hrest : e ∉ rest)
    (h : xs ++ d :: rest = ys ++ e :: rest') : ∃ more, rest' = more ++ d :: rest := by
  rcases List.append_eq_append_iff.1 h with ⟨front, rfl, htail⟩ | ⟨front, rfl, htail⟩
  · cases front with
    | nil => exact absurd (List.cons.inj htail).1.symm hne
    | cons c front =>
      obtain ⟨rfl, rfl⟩ := List.cons.inj htail
      exact absurd (by simp) hrest
  · cases front with
    | nil => exact absurd (List.cons.inj htail).1 hne
    | cons c front =>
      obtain ⟨rfl, rfl⟩ := List.cons.inj htail
      exact ⟨front, rfl⟩

end Delimiter

/-! ## Written types -/

namespace ValueType

/-- A `;` in a written type ends it. -/
theorem eq_nil_of_chars {t : ValueType} (ht : t.Readable) {front rest : List Char}
    (h : t.chars = front ++ ';' :: rest) : rest = [] := by
  have hletter (c : Char) (hc : c ≠ ';') (h : [c] = front ++ ';' :: rest) : rest = [] := by
    have hmem : ';' ∈ [c] := by simp [h]
    exact absurd (List.mem_singleton.1 hmem).symm hc
  cases t with
  | int => exact hletter 'I' (by decide) h
  | bool => exact hletter 'Z' (by decide) h
  | str => exact hletter 'T' (by decide) h
  | object owner =>
    rcases List.eq_nil_or_concat rest with hnil | ⟨rest', last, rfl⟩
    · exact hnil
    · -- All but the last character are the letter and the owner.
      have hlast : ('L' :: owner.toList) ++ [';'] = (front ++ ';' :: rest') ++ [last] := by
        simpa [chars] using h
      have hfront : 'L' :: owner.toList = front ++ ';' :: rest' := (List.append_inj' hlast rfl).1
      have hmem : ';' ∈ 'L' :: owner.toList := by
        rw [hfront]
        simp
      have howner : ';' ∈ owner.toList := by simpa using hmem
      exact absurd howner ht.2

/-- Behind a `;` in written types other types begin. -/
theorem exists_append_of_chars {ts : List ValueType} (hts : ∀ t ∈ ts, t.Readable)
    {front rest : List Char} (h : ts.flatMap chars = front ++ ';' :: rest) :
    ∃ before after, ts = before ++ after ∧ before.flatMap chars = front ++ [';'] ∧
      after.flatMap chars = rest := by
  induction ts generalizing front with
  | nil => simp at h
  | cons t ts ih =>
    obtain ⟨ht, hrest⟩ := List.forall_mem_cons.1 hts
    rw [List.flatMap_cons] at h
    rcases List.append_eq_append_iff.1 h with ⟨front', rfl, htail⟩ | ⟨tail, htype, htail⟩
    · -- The `;` stands behind the first type.
      obtain ⟨before, after, rfl, hbefore, hafter⟩ := ih hrest htail
      refine ⟨t :: before, after, rfl, ?_, hafter⟩
      rw [List.flatMap_cons, hbefore, List.append_assoc]
    · cases tail with
      | nil =>
        rw [List.append_nil] at htype
        have hnext : ts.flatMap chars = [] ++ ';' :: rest := htail.symm
        obtain ⟨before, after, rfl, hbefore, hafter⟩ := ih hrest hnext
        refine ⟨t :: before, after, rfl, ?_, hafter⟩
        rw [List.flatMap_cons, hbefore, htype, List.nil_append]
      | cons c tail =>
        -- The `;` is in the first type, so the type ends there.
        obtain ⟨rfl, rfl⟩ := List.cons.inj htail
        obtain rfl := eq_nil_of_chars ht htype
        exact ⟨[t], ts, rfl, by simpa using htype, rfl⟩

/-- Written types determine the types. -/
theorem eq_of_flatMap_chars {ts us : List ValueType} (hts : ∀ t ∈ ts, t.Readable)
    (hus : ∀ u ∈ us, u.Readable) (h : ts.flatMap chars = us.flatMap chars) : ts = us := by
  have hread : readAll [] (ts.flatMap chars) = .ok ts := readAll_eq_ok_iff.2 ⟨ts, rfl, rfl, hts⟩
  have hread' : readAll [] (us.flatMap chars) = .ok us := readAll_eq_ok_iff.2 ⟨us, rfl, rfl, hus⟩
  rw [h, hread'] at hread
  exact (Except.ok.inj hread).symm

end ValueType

/-! ## Descriptors with a receiver -/

namespace Signature

variable {s t : Signature} {owner : String}

/-- A descriptor with a receiver in front closes its parameters where the signature does, if it
reads at all. -/
theorem params_chars_of_parse_withReceiver (hs : s.Readable)
    (h : parse (s.withReceiver owner).descriptor = .ok t) :
    t.params.flatMap ValueType.chars =
      ('L' :: owner.toList) ++ ';' :: s.params.flatMap ValueType.chars := by
  obtain ⟨hdescriptor, ht⟩ := parse_eq_ok_iff.1 h
  have hlists := congrArg String.toList hdescriptor
  simp only [descriptor, String.toList_ofList] at hlists
  have hchars : (('L' :: owner.toList) ++ ';' :: s.params.flatMap ValueType.chars) ++
      ')' :: ValueType.resultChars s.result =
        t.params.flatMap ValueType.chars ++ ')' :: ValueType.resultChars t.result := by
    have htails := congrArg List.tail hlists
    simpa [chars, withReceiver, ValueType.chars] using htails
  rcases split_eq_or_later ht.closed hchars with ⟨hparams, -⟩ | ⟨more, howner, hresult⟩
  · exact hparams.symm
  · -- The owner would close the list, and what follows it would be a result with a `;` inside.
    obtain ⟨front, rfl⟩ := exists_split_behind (by decide) hs.closed howner
    have hinside : ValueType.resultChars t.result = front ++ ';' ::
        (s.params.flatMap ValueType.chars ++ ')' :: ValueType.resultChars s.result) := by
      rw [hresult, List.append_assoc, List.cons_append]
    cases hvoid : t.result with
    | none =>
      have hmem : ';' ∈ ValueType.resultChars t.result := by
        rw [hinside]
        simp
      rw [hvoid] at hmem
      exact absurd (List.mem_singleton.1 hmem) (by decide)
    | some result =>
      rw [hvoid] at hinside
      have hend := ValueType.eq_nil_of_chars (ht.result result hvoid) hinside
      simp at hend

/-- What a descriptor with a receiver in front reads as: the parameters there were, and in front of
them what the receiver is read as. -/
theorem params_of_parse_withReceiver (hs : s.Readable)
    (h : parse (s.withReceiver owner).descriptor = .ok t) :
    ∃ before, t.params = before ++ s.params ∧
      before.flatMap ValueType.chars = (ValueType.object owner).chars := by
  obtain ⟨-, ht⟩ := parse_eq_ok_iff.1 h
  have hchars := params_chars_of_parse_withReceiver hs h
  obtain ⟨before, after, hparams, hbefore, hafter⟩ :=
    ValueType.exists_append_of_chars ht.params hchars
  have hreadable : ∀ u ∈ after, u.Readable := by
    intro u hu
    apply ht.params
    rw [hparams]
    exact List.mem_append_right before hu
  obtain rfl := ValueType.eq_of_flatMap_chars hreadable hs.params hafter
  exact ⟨before, hparams, hbefore⟩

/-- An owner that ends early makes more parameters of a receiver than one. -/
theorem arity_lt_of_parse_withReceiver (hs : s.Readable) (howner : ';' ∈ owner.toList)
    (h : parse (s.withReceiver owner).descriptor = .ok t) :
    (s.withReceiver owner).arity < t.arity := by
  obtain ⟨-, ht⟩ := parse_eq_ok_iff.1 h
  obtain ⟨before, hparams, hbefore⟩ := params_of_parse_withReceiver hs h
  have htwo : 2 ≤ before.length := by
    match before, hbefore with
    | [], hbefore => simp [ValueType.chars] at hbefore
    | [first], hbefore =>
      -- One type would end at the `;` in the owner.
      have hfirst : first.Readable := by
        apply ht.params
        simp [hparams]
      obtain ⟨front, rest, hsplit⟩ := List.append_of_mem howner
      have hchars : first.chars = ('L' :: front) ++ ';' :: (rest ++ [';']) := by
        simpa [ValueType.chars, hsplit] using hbefore
      have hend := ValueType.eq_nil_of_chars hfirst hchars
      simp at hend
    | _ :: _ :: _, _ => simp
  simp only [arity, withReceiver, hparams, List.length_append, List.length_cons]
  omega

end Signature

/-! ## Targets -/

namespace Symbol

variable {source : Symbol} {other : Signature}

/-- The descriptor of a target stands for its signature exactly if the receiver can stand there. -/
theorem parse_staticSignature_iff (hs : source.signature.Readable) :
    Signature.parse source.staticSignature.descriptor = .ok source.staticSignature ↔
      source.Reads := by
  constructor
  · intro h
    obtain ⟨-, hreadable⟩ := Signature.parse_eq_ok_iff.1 h
    apply reads_of_parse _ h
    intro hvirtual
    rw [staticSignature, hvirtual] at hreadable
    exact (hreadable.params (.object source.owner) List.mem_cons_self).2
  · intro h
    exact Signature.parse_eq_ok_iff.2 ⟨rfl, readable_staticSignature h hs⟩

/-- Where the receiver cannot stand in the descriptor, a signature that is read from it has more
parameters than were written. -/
theorem arity_lt_of_parse (hs : source.signature.Readable) (hreads : ¬source.Reads)
    (h : Signature.parse source.staticSignature.descriptor = .ok other) :
    source.staticSignature.arity < other.arity := by
  have hends : source.kind = .virtual ∧ ';' ∈ source.owner.toList := by
    by_contra hnot
    apply hreads
    apply reads_of_parse _ h
    intro hvirtual howner
    exact hnot ⟨hvirtual, howner⟩
  obtain ⟨hvirtual, howner⟩ := hends
  have hreceiver : source.staticSignature = source.signature.withReceiver source.owner := by
    rw [staticSignature, hvirtual]
  rw [hreceiver] at h ⊢
  exact Signature.arity_lt_of_parse_withReceiver hs howner h

end Symbol

/-! ## Redirected calls -/

namespace Image

variable {rules : RuleSet} {image image' : Image} {report : RedirectReport}

/-- For every call that is reported there is a rule, and a static call that names its target. -/
theorem exists_redirected_call (hsize : image.pool.size ≤ Pool.capacity)
    (h : image.redirect rules = .ok (image', report)) {site : RedirectedSite}
    (hsite : site ∈ report.sites) :
    ∃ rule, rules.lookup site.source = some rule ∧ ∃ m ∈ image'.methods, ∃ index,
      .invoke .static index ∈ m.code ∧ image'.pool.method? index = some rule.target.texts := by
  rcases redirect_ok h hsize with ⟨-, -, rfl⟩ | ⟨known, -, himage, rfl, hsettles⟩
  · cases hsite
  have hmethods : image'.methods = image.methods.map fun m =>
      { m with code := m.code.map known.apply } := congrArg Image.methods himage
  obtain ⟨call, hcall, hreport⟩ := List.mem_filterMap.1 hsite
  obtain ⟨replacement, hfind, rfl⟩ := Option.map_eq_some_iff.1 hreport
  obtain ⟨source, -, hsettled⟩ := hsettles call hcall
  cases hrule : rules.lookup source with
  | none =>
    rw [hrule, hfind] at hsettled
    cases hsettled
  | some rule =>
    rw [hrule, hfind] at hsettled
    obtain ⟨index, hreplacement, htarget⟩ := hsettled
    obtain rfl := Option.some.inj hreplacement
    obtain ⟨m, hm, hmem, -⟩ := mem_callSites.1 hcall
    have hi : .invoke call.kind call.index ∈ m.code :=
      Array.mem_toList_iff.1 (List.of_mem_zip hmem).1
    have happly : known.apply (.invoke call.kind call.index) = .invoke .static index := by
      simp only [Replacements.apply, hfind]
    refine ⟨rule, hrule, { m with code := m.code.map known.apply }, ?_, index, ?_, htarget⟩
    · rw [hmethods]
      exact Array.mem_map_of_mem hm
    · rw [← happly]
      exact Array.mem_map_of_mem hi

/-- In an image that verifies the descriptor of every method reads. -/
theorem exists_parse_of_verify (h : image.verify = .ok ()) {index : UInt16} {texts : MemberTexts}
    (hmethod : image.pool.method? index = some texts) :
    ∃ signature, Signature.parse texts.descriptor = .ok signature := by
  have hwell := verify_eq_ok_iff.1 h
  exact hwell.parse_of_method? hmethod

end Image

/-! ## Registrations -/

/-- What comes of a redirection that was accepted. The rule is there, whatever the owner of its
source is. The descriptor of its target reads as the target's signature exactly if the call has no
receiver, or one whose owner is not empty and has neither `;` nor `)` in it. Each call that is
redirected by the rule names that descriptor. If that does not read as the target's signature, the
redirected image does not verify, or what it calls there has more parameters. -/
theorem Registry.redirect_written {r r' : Registry} {source : Symbol}
    {owner name descriptor : String} (hparse : Signature.parse descriptor = .ok source.signature)
    (h : r.redirect source owner name = .ok r') :
    (∃ rule ∈ r'.rules.rules, rule.source = source ∧
      rule.target = ⟨owner, name, source.staticSignature, .static⟩) ∧
    (Signature.parse source.staticSignature.descriptor = .ok source.staticSignature ↔
      (source.kind = .virtual →
        source.owner ≠ "" ∧ ';' ∉ source.owner.toList ∧ ')' ∉ source.owner.toList)) ∧
    ∀ (image image' : Image) (report : RedirectReport), image.pool.size ≤ Pool.capacity →
      image.redirect r'.rules = .ok (image', report) → ∀ site ∈ report.sites,
        site.source = source → ∃ m ∈ image'.methods, ∃ index, .invoke .static index ∈ m.code ∧
          image'.pool.method? index = some ⟨owner, name, source.staticSignature.descriptor⟩ ∧
          (Signature.parse source.staticSignature.descriptor = .ok source.staticSignature ∨
            image'.verify ≠ .ok () ∨
            ∃ other, Signature.parse source.staticSignature.descriptor = .ok other ∧
              source.staticSignature.arity < other.arity) := by
  obtain ⟨-, hreadable⟩ := Signature.parse_eq_ok_iff.1 hparse
  have hmem : Rule.redirect source owner name ∈ r'.rules.rules := (insert_eq_ok h).1
  have hreads := Symbol.parse_staticSignature_iff hreadable
  refine ⟨⟨_, hmem, rfl, rfl⟩, hreads, ?_⟩
  intro image image' report hsize hredirect site hsite hsource
  obtain ⟨rule, hrule, m, hm, index, hcall, htarget⟩ :=
    Image.exists_redirected_call hsize hredirect hsite
  have hlookup := RuleSet.lookup_source hmem
  rw [hsource] at hrule
  obtain rfl : rule = .redirect source owner name :=
    Option.some.inj (hrule.symm.trans hlookup)
  refine ⟨m, hm, index, hcall, htarget, ?_⟩
  by_cases husable : source.Reads
  · left
    exact hreads.2 husable
  · right
    by_cases hverify : image'.verify = .ok ()
    · right
      obtain ⟨other, hother⟩ := Image.exists_parse_of_verify hverify htarget
      exact ⟨other, hother, Symbol.arity_lt_of_parse hreadable husable hother⟩
    · left
      exact hverify

theorem Registry.redirect_written_hit :
    ∃ r', Registry.empty.redirect ⟨"q", "hit", .void, .virtual⟩ "s" "hit" = .ok r' ∧
      Signature.parse "(Lq;)V" = .ok ⟨[.object "q"], none⟩ := by
  have hparse : Signature.parse "()V" = .ok .void := by decide +kernel
  have haccepted : ∃ r', Registry.empty.redirect ⟨"q", "hit", .void, .virtual⟩ "s" "hit" =
      .ok r' := ⟨_, rfl⟩
  obtain ⟨r', hr'⟩ := haccepted
  refine ⟨r', hr', ?_⟩
  have hwritten := (redirect_written hparse hr').2.1.2
  exact hwritten (by decide)

/-- A registry that has taken the redirection of `hit`, for objects of a type, to `s.hit`. -/
def Registry.hitting (owner : String) : Registry :=
  ⟨RuleSet.empty.insert (.redirect ⟨owner, "hit", .void, .virtual⟩ "s" "hit"), false⟩

/-- An image that makes two objects of a type and calls `hit` of the second one. -/
def Image.hitting (owner : String) : Image where
  major := 1
  minor := 0
  pool := ⟨#[.utf8 "s", .utf8 "run", .utf8 "()V", .utf8 owner, .utf8 "hit", .method ⟨3, 4, 2⟩]⟩
  thisName := 0
  methods := #[⟨1, 1, 2, 0, #[.new 3, .new 3, .invoke .virtual 5, .ret], []⟩]

/-- The image with its call redirected to a method of a descriptor. -/
def Image.hit (owner descriptor : String) : Image where
  major := 1
  minor := 0
  pool := ⟨#[.utf8 "s", .utf8 "run", .utf8 "()V", .utf8 owner, .utf8 "hit", .method ⟨3, 4, 2⟩,
    .utf8 descriptor, .method ⟨0, 4, 6⟩]⟩
  thisName := 0
  methods := #[⟨1, 1, 2, 0, #[.new 3, .new 3, .invoke .static 7, .ret], []⟩]

/-- Redirections whose descriptor does not read are accepted like all others. With an empty owner
an image that verifies is redirected to one that does not. With a `;` in the owner the call of one
object becomes a call that takes two, and no check finds it. -/
theorem Registry.redirect_unwritable :
    (∀ owner, Registry.empty.redirect ⟨owner, "hit", .void, .virtual⟩ "s" "hit" =
      .ok (.hitting owner)) ∧
    ((Image.hitting "").verify = .ok () ∧
      ((Image.hitting "").redirect (Registry.hitting "").rules).map Prod.fst =
        .ok (.hit "" "(L;)V") ∧
      (Image.hit "" "(L;)V").verify ≠ .ok ()) ∧
    ((Image.hitting "x;Ly").verify = .ok () ∧
      ((Image.hitting "x;Ly").redirect (Registry.hitting "x;Ly").rules).map Prod.fst =
        .ok (.hit "x;Ly" "(Lx;Ly;)V") ∧
      (Image.hit "x;Ly" "(Lx;Ly;)V").verify = .ok () ∧
      Signature.parse "(Lx;Ly;)V" = .ok ⟨[.object "x", .object "y"], none⟩) ∧
    ¬∀ (r r' : Registry) (source : Symbol) (owner name descriptor : String),
      Signature.parse descriptor = .ok source.signature →
      r.redirect source owner name = .ok r' →
      Signature.parse source.staticSignature.descriptor = .ok source.staticSignature := by
  have haccepts (owner : String) :
      Registry.empty.redirect ⟨owner, "hit", .void, .virtual⟩ "s" "hit" = .ok (.hitting owner) :=
    rfl
  have hempty : ((Image.hitting "").redirect (Registry.hitting "").rules).map Prod.fst =
      .ok (.hit "" "(L;)V") := by
    decide +kernel
  have hearly : ((Image.hitting "x;Ly").redirect (Registry.hitting "x;Ly").rules).map Prod.fst =
      .ok (.hit "x;Ly" "(Lx;Ly;)V") := by
    decide +kernel
  refine ⟨haccepts, ⟨by decide +kernel, hempty, by decide +kernel⟩,
    ⟨by decide +kernel, hearly, by decide +kernel, by decide +kernel⟩, ?_⟩
  intro hreads
  have hparse : Signature.parse "()V" = .ok .void := by decide +kernel
  have hread := hreads .empty (.hitting "") ⟨"", "hit", .void, .virtual⟩ "s" "hit" "()V" hparse
    (haccepts "")
  have hunread : Signature.parse "(L;)V" ≠ .ok ⟨[.object ""], none⟩ := by decide +kernel
  exact hunread hread

end Interposition
