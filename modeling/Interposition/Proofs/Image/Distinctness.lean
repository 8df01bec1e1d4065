import Interposition.Proofs.Call.Descriptor
import Interposition.Proofs.Image.WellFormed

/-!
# Interposition.Proofs.Image.Distinctness — how methods are told apart

The verifier remembers the methods it has met by their labels, and a label is a name and a
descriptor run together. So it finds every repeated method, but it also takes two different ones
for the same whose texts run together alike (`Image.verify_takes_for_same`). A method is reported
exactly if it is the first one whose label was met before (`Image.verify_eq_duplicate_iff`). Where
no name has the parenthesis that a descriptor starts with, that is the first one whose name and
descriptor were met before.
-/

namespace Interposition

/-! ## Checks of one method -/

/-- A check that finds no method to be a repetition, whatever else it finds. -/
def FindsNoDuplicate {α : Type} (x : Except VerifyError α) : Prop :=
  ∀ label, x ≠ .error (.duplicateMethod label)

namespace FindsNoDuplicate

variable {α β : Type}

theorem ok (a : α) : FindsNoDuplicate (.ok a) := by
  intro label h
  cases h

/-- What is reported after such a check is reported by a later one. -/
theorem bind_eq_duplicate_iff {x : Except VerifyError α} {next : α → Except VerifyError β}
    {label : String} (hx : FindsNoDuplicate x) :
    x >>= next = .error (.duplicateMethod label) ↔
      ∃ a, x = .ok a ∧ next a = .error (.duplicateMethod label) := by
  cases hfirst : x with
  | error e =>
    constructor
    · intro h
      have he : e = .duplicateMethod label := Except.error.inj h
      rw [he] at hfirst
      exact absurd hfirst (hx label)
    · rintro ⟨a, ha, -⟩
      cases ha
  | ok a =>
    constructor
    · intro h
      exact ⟨a, rfl, h⟩
    · rintro ⟨_, ⟨⟩, h⟩
      exact h

/-- Checks one after another. -/
theorem bind {x : Except VerifyError α} {next : α → Except VerifyError β}
    (hx : FindsNoDuplicate x) (hnext : ∀ a, FindsNoDuplicate (next a)) :
    FindsNoDuplicate (x >>= next) := by
  intro label h
  obtain ⟨a, -, hreported⟩ := hx.bind_eq_duplicate_iff.1 h
  exact hnext a label hreported

theorem throw {e : VerifyError} (he : ∀ label, e ≠ .duplicateMethod label) :
    FindsNoDuplicate (.error e : Except VerifyError α) := by
  intro label h
  exact he label (Except.error.inj h)

/-- A fault that keeps all later checks from being made. -/
theorem throw_bind {e : VerifyError} {next : α → Except VerifyError β}
    (he : ∀ label, e ≠ .duplicateMethod label) :
    FindsNoDuplicate ((.error e : Except VerifyError α) >>= next) :=
  throw he

theorem mapError {ε : Type} {x : Except ε α} {f : ε → VerifyError}
    (hf : ∀ e label, f e ≠ .duplicateMethod label) : FindsNoDuplicate (x.mapError f) := by
  intro label h
  cases x with
  | error e => exact hf e label (Except.error.inj h)
  | ok a => cases h

theorem checkEach {check : Nat → α → Except VerifyError Unit}
    (hcheck : ∀ i a, FindsNoDuplicate (check i a)) (start : Nat) (as : List α) :
    FindsNoDuplicate (Interposition.checkEach check start as) := by
  intro label h
  rcases checkEach_eq_error_iff.1 h with ⟨i, a, -, hfails, -⟩
  exact hcheck _ a label hfails

theorem foldlM {step : β → α → Except VerifyError β}
    (hstep : ∀ b a, FindsNoDuplicate (step b a)) (b : β) (as : List α) :
    FindsNoDuplicate (as.foldlM step b) := by
  induction as generalizing b with
  | nil => exact .ok b
  | cons a rest ih =>
    rw [List.foldlM_cons]
    exact (hstep b a).bind ih

end FindsNoDuplicate

section Checks

variable {p : Pool} {r : Routine}

theorem Pool.requireUtf8_noDuplicate (index : UInt16) :
    FindsNoDuplicate (p.requireUtf8 index) := by
  intro label h
  unfold requireUtf8 at h
  split at h <;> cases h

theorem Pool.requireDescriptor_noDuplicate {α : Type}
    (parse : String → Except DescriptorError α) (index position : UInt16) :
    FindsNoDuplicate (p.requireDescriptor parse index position) := by
  refine (requireUtf8_noDuplicate position).bind fun text => .mapError ?_
  intro e label h
  cases h

theorem Pool.verify_noDuplicate : FindsNoDuplicate p.verify := by
  refine .checkEach ?_ 0 p.entries.toList
  intro i c
  cases c with
  | utf8 text => exact .ok ()
  | int value => exact .ok ()
  | str text => exact (requireUtf8_noDuplicate text).bind fun _ => .ok ()
  | method m | field m =>
    refine (requireUtf8_noDuplicate m.owner).bind fun _ => ?_
    refine (requireUtf8_noDuplicate m.name).bind fun _ => ?_
    exact (requireDescriptor_noDuplicate _ _ m.descriptor).bind fun _ => .ok ()

namespace Routine

theorem ofMethod_noDuplicate (image : Image) (m : Method) :
    FindsNoDuplicate (ofMethod image m) := by
  refine (Pool.requireUtf8_noDuplicate m.descriptor).bind fun descriptor => ?_
  refine (Pool.requireUtf8_noDuplicate m.name).bind fun _ => ?_
  refine FindsNoDuplicate.bind (.mapError ?_) fun signature => ?_
  · intro e label h
    cases h
  · intro label h
    by_cases hslots : m.maxLocals.toNat < argumentSlots m signature
    · simp [hslots, throw, throwThe, MonadExceptOf.throw, bind, Except.bind] at h
    · simp [hslots, pure, Except.pure] at h

theorem checkHandlers_noDuplicate : FindsNoDuplicate r.checkHandlers := by
  refine .checkEach ?_ 0 r.method.handlers
  intro i handler label h
  split at h <;> cases h

theorem effect_noDuplicate (offset : Nat) (i : Instruction) :
    FindsNoDuplicate (r.effect offset i) := by
  intro label h
  cases i <;> simp only [effect] at h
  case invoke kind index =>
    split at h
    · cases h
    · split at h <;> cases h
  all_goals first
    | cases h
    | (split at h <;> cases h)

theorem arrive_noDuplicate (flow : Flow) (position height : Nat) :
    FindsNoDuplicate (r.arrive flow position height) := by
  intro label h
  unfold arrive at h
  split at h
  · split at h <;> cases h
  · cases h

theorem entries_noDuplicate : FindsNoDuplicate r.entries := by
  refine (arrive_noDuplicate _ 0 0).bind fun start => ?_
  exact .foldlM (fun flow _ => arrive_noDuplicate flow _ 1) start r.method.handlers

theorem visit_noDuplicate (flow : Flow) (position height : Nat) (i : Instruction) :
    FindsNoDuplicate (r.visit flow position height i) := by
  refine (effect_noDuplicate _ i).bind fun effect => ?_
  have hnext (mid : Flow) : FindsNoDuplicate
      (if i.isTerminal then (.ok mid : Except VerifyError Flow)
        else if position + 1 < r.method.code.size then
          r.arrive mid (position + 1) (height - effect.pops + effect.pushes)
        else .error (.fallsOffEnd r.label)) := by
    split
    · exact .ok mid
    · split
      · exact arrive_noDuplicate mid _ _
      · exact .throw (by rintro label ⟨⟩)
  dsimp only
  split
  · exact .throw_bind (by rintro label ⟨⟩)
  · split
    · exact (FindsNoDuplicate.ok flow).bind hnext
    · split
      · exact .throw_bind (by rintro label ⟨⟩)
      · exact (arrive_noDuplicate flow _ _).bind hnext

theorem follow_noDuplicate (steps : Nat) (flow : Flow) :
    FindsNoDuplicate (r.follow steps flow) := by
  induction steps generalizing flow with
  | zero => exact .ok ()
  | succ steps ih =>
    rw [follow]
    split
    · exact .ok ()
    · split
      · split
        · rename_i hvisit
          intro label h
          have he := Except.error.inj h
          rw [he] at hvisit
          exact visit_noDuplicate _ _ _ _ label hvisit
        · exact ih _
      · exact ih _

theorem check_noDuplicate : FindsNoDuplicate r.check := by
  refine checkHandlers_noDuplicate.bind fun _ => ?_
  unfold checkFlow
  by_cases hempty : r.method.code.isEmpty = true
  · simp only [hempty, if_true]
    exact .throw_bind (by rintro label ⟨⟩)
  · simp only [hempty]
    refine (entries_noDuplicate (r := r)).bind fun start => ?_
    exact follow_noDuplicate _ start

end Routine

end Checks

namespace Image

variable {image : Image}

/-! ## Repeated labels -/

/-- A method whose label was met is refused. -/
theorem checkMethods_of_mem {seen : List String} {first : Method}
    (h : image.methodLabel first ∈ seen) (ms : List Method) :
    image.checkMethods seen (first :: ms) =
      .error (.duplicateMethod (image.methodLabel first)) := by
  rw [checkMethods, if_pos h]

/-- A method with a new label is checked, and then the ones after it. -/
theorem checkMethods_of_not_mem {seen : List String} {first : Method}
    (h : image.methodLabel first ∉ seen) (ms : List Method) :
    image.checkMethods seen (first :: ms) =
      Routine.ofMethod image first >>= Routine.check >>= fun _ =>
        image.checkMethods (image.methodLabel first :: seen) ms := by
  rw [checkMethods, if_neg h]
  cases Routine.ofMethod image first >>= Routine.check <;> rfl

/-- A label of a method was met, among the ones seen or on the way to it, and all on the way
passed. -/
def Repeats (image : Image) (seen : List String) (ms : List Method) (label : String) : Prop :=
  ∃ before m after, ms = before ++ m :: after ∧ image.methodLabel m = label ∧
    (label ∈ seen ∨ label ∈ before.map image.methodLabel) ∧
    image.checkMethods seen before = .ok ()

theorem repeats_of_mem {seen : List String} {first : Method} {rest : List Method} {label : String}
    (h : image.methodLabel first ∈ seen) :
    image.Repeats seen (first :: rest) label ↔ image.methodLabel first = label := by
  constructor
  · rintro ⟨before, m, after, hsplit, hlabel, -, hpass⟩
    cases before with
    | nil =>
      obtain ⟨rfl, -⟩ := List.cons.inj hsplit
      exact hlabel
    | cons b before =>
      obtain ⟨rfl, -⟩ := List.cons.inj hsplit
      rw [checkMethods_of_mem h] at hpass
      cases hpass
  · rintro rfl
    exact ⟨[], first, rest, rfl, rfl, Or.inl h, rfl⟩

theorem repeats_of_not_mem {seen : List String} {first : Method} {rest : List Method}
    {label : String} (h : image.methodLabel first ∉ seen) :
    image.Repeats seen (first :: rest) label ↔
      Routine.ofMethod image first >>= Routine.check = .ok () ∧
        image.Repeats (image.methodLabel first :: seen) rest label := by
  have hmet (before : List Method) :
      label ∈ image.methodLabel first :: seen ∨ label ∈ before.map image.methodLabel ↔
        label ∈ seen ∨ label ∈ (first :: before).map image.methodLabel := by
    simp only [List.mem_cons, List.map_cons]
    tauto
  constructor
  · rintro ⟨before, m, after, hsplit, hlabel, hlabels, hpass⟩
    cases before with
    | nil =>
      obtain ⟨rfl, -⟩ := List.cons.inj hsplit
      rw [← hlabel] at hlabels
      exact absurd hlabels (by simpa using h)
    | cons b before =>
      obtain ⟨rfl, rfl⟩ := List.cons.inj hsplit
      rw [checkMethods_of_not_mem h] at hpass
      obtain ⟨hcheck, hlater⟩ := check_bind_eq_ok_iff.1 hpass
      exact ⟨hcheck, before, m, after, rfl, hlabel, (hmet before).2 hlabels, hlater⟩
  · rintro ⟨hcheck, before, m, after, rfl, hlabel, hlabels, hlater⟩
    refine ⟨first :: before, m, after, rfl, hlabel, (hmet before).1 hlabels, ?_⟩
    rw [checkMethods_of_not_mem h]
    exact check_bind_eq_ok_iff.2 ⟨hcheck, hlater⟩

/-- A method is taken for a repetition where its label was met and all before it passed. -/
theorem checkMethods_eq_duplicate_iff {seen : List String} {ms : List Method} {label : String} :
    image.checkMethods seen ms = .error (.duplicateMethod label) ↔
      image.Repeats seen ms label := by
  induction ms generalizing seen with
  | nil => simp [checkMethods, Repeats]
  | cons first rest ih =>
    by_cases htaken : image.methodLabel first ∈ seen
    · rw [checkMethods_of_mem htaken, repeats_of_mem htaken]
      simp
    · have hnone : FindsNoDuplicate (Routine.ofMethod image first >>= Routine.check) :=
        (Routine.ofMethod_noDuplicate image first).bind fun _ => Routine.check_noDuplicate
      -- No fault of the method itself is a repetition, so it passed if a later one is reported.
      rw [checkMethods_of_not_mem htaken, repeats_of_not_mem htaken, ← ih,
        hnone.bind_eq_duplicate_iff]
      constructor
      · rintro ⟨⟨⟩, hcheck, hlater⟩
        exact ⟨hcheck, hlater⟩
      · rintro ⟨hcheck, hlater⟩
        exact ⟨(), hcheck, hlater⟩

/-- The image with other methods. -/
def withMethods (image : Image) (ms : List Method) : Image :=
  { image with methods := ms.toArray }

/-- Methods are checked against the constants of an image, and not against its methods. -/
theorem checkMethods_withMethods (others : List Method) (seen : List String) (ms : List Method) :
    (image.withMethods others).checkMethods seen ms = image.checkMethods seen ms := by
  induction ms generalizing seen with
  | nil => rfl
  | cons m rest ih =>
    rw [checkMethods, checkMethods, ih]
    rfl

/-- The first method that is as an earlier one, by what tells methods apart, has a label. Cut off
before that method the image verifies. -/
def RepeatsFirst {α : Type} (image : Image) (key : Method → α) (label : String) : Prop :=
  ∃ before m after, image.methods.toList = before ++ m :: after ∧ key m ∈ before.map key ∧
    image.methodLabel m = label ∧ (image.withMethods before).verify = .ok ()

/-- The verifier reports the first method whose label was met before. -/
theorem verify_eq_duplicate_iff {label : String} :
    image.verify = .error (.duplicateMethod label) ↔
      image.RepeatsFirst image.methodLabel label := by
  have hcut (before : List Method) : (image.withMethods before).verify = .ok () ↔
      image.pool.verify = .ok () ∧ (∃ name, image.pool.requireUtf8 image.thisName = .ok name) ∧
        image.checkMethods [] before = .ok () := by
    rw [verify, check_bind_eq_ok_iff, bind_eq_ok_iff]
    show _ ∧ (∃ name, image.pool.requireUtf8 image.thisName = .ok name ∧
      (image.withMethods before).checkMethods [] before = .ok ()) ↔ _
    rw [checkMethods_withMethods]
    simp only [exists_and_right]
    rfl
  have hverify : image.verify = .error (.duplicateMethod label) ↔
      image.pool.verify = .ok () ∧ (∃ name, image.pool.requireUtf8 image.thisName = .ok name) ∧
        image.checkMethods [] image.methods.toList = .error (.duplicateMethod label) := by
    have hpool : FindsNoDuplicate image.pool.verify := Pool.verify_noDuplicate
    have hname := Pool.requireUtf8_noDuplicate (p := image.pool) image.thisName
    rw [verify, hpool.bind_eq_duplicate_iff]
    simp only [hname.bind_eq_duplicate_iff]
    constructor
    · rintro ⟨⟨⟩, hpasses, name, hnamed, hrest⟩
      exact ⟨hpasses, ⟨name, hnamed⟩, hrest⟩
    · rintro ⟨hpasses, ⟨name, hnamed⟩, hrest⟩
      exact ⟨(), hpasses, name, hnamed, hrest⟩
  rw [hverify, checkMethods_eq_duplicate_iff]
  constructor
  · rintro ⟨hpasses, hnamed, before, m, after, hsplit, hlabel, hmet, hpass⟩
    have hmet' : label ∈ before.map image.methodLabel := by simpa using hmet
    rw [← hlabel] at hmet'
    exact ⟨before, m, after, hsplit, hmet', hlabel, (hcut before).2 ⟨hpasses, hnamed, hpass⟩⟩
  · rintro ⟨before, m, after, hsplit, hmet, hlabel, hpass⟩
    obtain ⟨hpasses, hnamed, hbefore⟩ := (hcut before).1 hpass
    rw [hlabel] at hmet
    exact ⟨hpasses, hnamed, before, m, after, hsplit, hlabel, Or.inr hmet, hbefore⟩

/-! ## Labels and texts -/

/-- The name and the descriptor of a method, as far as they are there. -/
def methodTexts (image : Image) (m : Method) : Option String × Option String :=
  (image.methodName? m, image.methodDescriptor? m)

theorem methodLabel_congr {m m' : Method} (h : image.methodTexts m = image.methodTexts m') :
    image.methodLabel m = image.methodLabel m' := by
  obtain ⟨hname, hdescriptor⟩ := Prod.mk.inj h
  rw [methodLabel, methodLabel, hname, hdescriptor]

/-- In the label of a method one can see where the name ends: it has no parenthesis, and the
descriptor starts with one. -/
def Delimited (image : Image) (m : Method) : Prop :=
  ∃ name descriptor, image.methodTexts m = (some name, some (String.ofList ('(' :: descriptor))) ∧
    '(' ∉ name.toList

theorem Delimited.texts_eq {m m' : Method} (hm : image.Delimited m) (hm' : image.Delimited m')
    (h : image.methodLabel m = image.methodLabel m') :
    image.methodTexts m = image.methodTexts m' := by
  rcases hm with ⟨name, descriptor, htexts, hclean⟩
  rcases hm' with ⟨name', descriptor', htexts', hclean'⟩
  obtain ⟨hname, hdescriptor⟩ := Prod.mk.inj htexts
  obtain ⟨hname', hdescriptor'⟩ := Prod.mk.inj htexts'
  rw [methodLabel, methodLabel, hname, hdescriptor, hname', hdescriptor'] at h
  have hchars : name.toList ++ '(' :: descriptor = name'.toList ++ '(' :: descriptor' := by
    have hlists := congrArg String.toList h
    simpa using hlists
  -- Both names end at the first parenthesis.
  have hnames : name = name' := by
    have htake := congrArg (List.takeWhile (· ≠ '(')) hchars
    rw [takeWhile_delimiter hclean, takeWhile_delimiter hclean'] at htake
    exact String.toList_inj.1 htake
  have hdescriptors : descriptor = descriptor' := by
    have hdrop := congrArg (List.dropWhile (· ≠ '(')) hchars
    rw [dropWhile_delimiter hclean, dropWhile_delimiter hclean'] at hdrop
    exact (List.cons.inj hdrop).2
  rw [htexts, htexts', hnames, hdescriptors]

/-- In a well-formed image a name and a descriptor belong to one method at most. -/
theorem WellFormed.texts_nodup (h : image.WellFormed) :
    (image.methods.toList.map image.methodTexts).Nodup := by
  have hlabels : (image.methods.toList.map image.methodTexts).map
      (fun texts => texts.1.getD "?" ++ texts.2.getD "?") =
        image.methods.toList.map image.methodLabel := by
    rw [List.map_map]
    rfl
  refine List.Nodup.of_map
    (fun texts : Option String × Option String => texts.1.getD "?" ++ texts.2.getD "?") ?_
  rw [hlabels]
  exact h.distinct

/-- So it is the one that is found by them. -/
theorem WellFormed.findMethod?_eq (h : image.WellFormed) {i : Nat} {m : Method}
    {name descriptor : String} (hm : image.methods[i]? = some m)
    (htexts : image.methodTexts m = (some name, some descriptor)) :
    image.findMethod? name descriptor = some i := by
  obtain ⟨hlt, rfl⟩ := Array.getElem?_eq_some_iff.1 hm
  obtain ⟨hname, hdescriptor⟩ := Prod.mk.inj htexts
  refine Array.findIdx?_eq_some_iff_getElem.2 ⟨hlt, by simp [hname, hdescriptor], ?_⟩
  intro j hj hother
  have hsame : image.methodTexts image.methods[j] = image.methodTexts image.methods[i] := by
    rw [htexts]
    simpa [methodTexts] using hother
  have hnodup := h.texts_nodup
  rw [List.nodup_iff_injective_getElem] at hnodup
  have hindex := @hnodup ⟨j, by simp; omega⟩ ⟨i, by simpa using hlt⟩ (by simpa using hsame)
  have heq : j = i := by simpa using hindex
  omega

/-- How methods are told apart. A method is reported as a repetition exactly if it is the first one
whose label was met before. If in all labels one can see where the name ends, that is the first
one whose name and descriptor were met before. In an image that verifies, names and descriptors
differ, so each method is the one found by them. -/
theorem verify_tells_apart (image : Image) :
    (∀ label, image.verify = .error (.duplicateMethod label) ↔
      image.RepeatsFirst image.methodLabel label) ∧
    ((∀ m ∈ image.methods, image.Delimited m) →
      ∀ label, image.verify = .error (.duplicateMethod label) ↔
        image.RepeatsFirst image.methodTexts label) ∧
    (image.verify = .ok () →
      (image.methods.toList.map image.methodTexts).Nodup ∧
      ∀ (i : Nat) (m : Method) (name descriptor : String), image.methods[i]? = some m →
        image.methodTexts m = (some name, some descriptor) →
        image.findMethod? name descriptor = some i) := by
  refine ⟨fun label => verify_eq_duplicate_iff, ?_, ?_⟩
  · intro hdelimited label
    rw [verify_eq_duplicate_iff]
    constructor
    · rintro ⟨before, m, after, hsplit, hmet, hlabel, hpass⟩
      refine ⟨before, m, after, hsplit, ?_, hlabel, hpass⟩
      obtain ⟨earlier, hearlier, hsame⟩ := List.mem_map.1 hmet
      have hmethod (m' : Method) (hm' : m' ∈ before ++ m :: after) : image.Delimited m' := by
        rw [← hsplit] at hm'
        exact hdelimited m' (Array.mem_toList_iff.1 hm')
      have htexts := (hmethod earlier (by simp [hearlier])).texts_eq (hmethod m (by simp)) hsame
      exact List.mem_map.2 ⟨earlier, hearlier, htexts⟩
    · rintro ⟨before, m, after, hsplit, hmet, hlabel, hpass⟩
      refine ⟨before, m, after, hsplit, ?_, hlabel, hpass⟩
      obtain ⟨earlier, hearlier, hsame⟩ := List.mem_map.1 hmet
      exact List.mem_map.2 ⟨earlier, hearlier, methodLabel_congr hsame⟩
  · intro hverify
    have hwell := verify_eq_ok_iff.1 hverify
    refine ⟨hwell.texts_nodup, ?_⟩
    intro i m name descriptor hm htexts
    exact hwell.findMethod?_eq hm htexts

/-- Two methods of one name, and the first of them once more. -/
def repeating : Image where
  major := 1
  minor := 0
  pool := ⟨#[.utf8 "a", .utf8 "f", .utf8 "(I)V", .utf8 "()V"]⟩
  thisName := 0
  methods :=
    #[⟨1, 1, 2, 1, #[.ret], []⟩, ⟨1, 1, 3, 0, #[.ret], []⟩, ⟨1, 1, 2, 1, #[.nop, .ret], []⟩]

/-- Names without parentheses leave no doubt about what is repeated. Without the third method the
image verifies, and each of the two is found. -/
theorem verify_tells_apart_repeating :
    (∀ m ∈ repeating.methods, repeating.Delimited m) ∧
    repeating.RepeatsFirst repeating.methodTexts "f(I)V" ∧
    (repeating.withMethods (repeating.methods.toList.take 2)).findMethod? "f" "()V" = some 1 := by
  have hdelimited : ∀ m ∈ repeating.methods, repeating.Delimited m := by
    intro m hm
    have hmethods : m ∈ repeating.methods.toList := Array.mem_toList_iff.2 hm
    simp only [repeating, List.mem_cons, List.not_mem_nil, or_false] at hmethods
    rcases hmethods with rfl | rfl | rfl
    · exact ⟨"f", "I)V".toList, by decide +kernel, by decide +kernel⟩
    · exact ⟨"f", ")V".toList, by decide +kernel, by decide +kernel⟩
    · exact ⟨"f", "I)V".toList, by decide +kernel, by decide +kernel⟩
  have hverify : repeating.verify = .error (.duplicateMethod "f(I)V") := by decide +kernel
  refine ⟨hdelimited, ((verify_tells_apart repeating).2.1 hdelimited _).1 hverify, ?_⟩
  exact ((verify_tells_apart _).2.2 (by decide +kernel)).2 1 ⟨1, 1, 3, 0, #[.ret], []⟩ "f" "()V" rfl
    (by decide +kernel)

/-- Two methods, `f` and `f(La`, whose names and descriptors run together to the same label. -/
def overlapping : Image where
  major := 1
  minor := 0
  pool := ⟨#[.utf8 "a", .utf8 "f", .utf8 "(La(Lb;)V", .utf8 "f(La", .utf8 "(Lb;)V"]⟩
  thisName := 0
  methods := #[⟨1, 1, 2, 1, #[.ret], []⟩, ⟨1, 3, 4, 1, #[.ret], []⟩]

/-- Two methods of different names and descriptors, each of which verifies without the other, are
taken for the same. -/
theorem verify_takes_for_same :
    overlapping.verify = .error (.duplicateMethod "f(La(Lb;)V") ∧
    overlapping.methods.toList.map overlapping.methodTexts =
      [(some "f", some "(La(Lb;)V"), (some "f(La", some "(Lb;)V")] ∧
    (∀ m ∈ overlapping.methods, (overlapping.withMethods [m]).verify = .ok ()) ∧
    ¬∀ (image : Image) (label : String), image.verify = .error (.duplicateMethod label) →
      ∃ before m after, image.methods.toList = before ++ m :: after ∧
        image.methodTexts m ∈ before.map image.methodTexts := by
  have hverify : overlapping.verify = .error (.duplicateMethod "f(La(Lb;)V") := by decide +kernel
  have htexts : overlapping.methods.toList.map overlapping.methodTexts =
      [(some "f", some "(La(Lb;)V"), (some "f(La", some "(Lb;)V")] := by decide +kernel
  refine ⟨hverify, htexts, by decide +kernel, ?_⟩
  intro hexact
  obtain ⟨before, m, after, hsplit, hmet⟩ := hexact _ _ hverify
  have hnodup : (overlapping.methods.toList.map overlapping.methodTexts).Nodup := by
    rw [htexts]
    decide
  rw [hsplit, List.map_append, List.map_cons, List.nodup_append] at hnodup
  exact hnodup.2.2 _ hmet _ List.mem_cons_self rfl

end Image

end Interposition
