import Interposition.Proofs.Call.Registration
import Mathlib.Data.List.Dedup

/-!
# Interposition.Proofs.Call.Lifecycle — what a registry holds after any use

A registry is used by registrations in several forms, by freezing it, and by asking for its size and
for the rule of a call site. What it holds after any sequence of these is what was accepted until it
was first frozen (`Registry.target?_after_eq_some_iff`), under each source the target that was
accepted first (`Registry.target?_after`). Nothing is accepted later (`Registry.accepted_frozen`).

All registrations are one: each asks for a pair of source and target, and is answered as the
explicit registration of that pair (`Registry.perform_registration`).

The frozen set may be made once and be kept apart from the rules. It is never other than they are,
so this makes no difference (`Registry.Split.Mirrors.replies`).
-/

namespace Interposition

/-! ## Sets -/

namespace RuleSet

/-- Sets of the same rules find the same. -/
theorem lookup_congr {rules other : RuleSet}
    (h : ∀ rule, rule ∈ rules.rules ↔ rule ∈ other.rules) (site : Symbol) :
    rules.lookup site = other.lookup site := by
  refine Option.ext fun rule => ?_
  constructor
  · intro hfound
    rcases lookup_eq_some hfound with ⟨hmem, rfl⟩
    exact lookup_source ((h rule).1 hmem)
  · intro hfound
    rcases lookup_eq_some hfound with ⟨hmem, rfl⟩
    exact lookup_source ((h rule).2 hmem)

/-- A rule that is new for its source is found under it, and nothing else changes. -/
theorem lookup_insert {rules : RuleSet} {rule : Rule} (h : rules.lookup rule.source = none)
    (site : Symbol) :
    (rules.insert rule).lookup site =
      if rule.source = site then some rule else rules.lookup site := by
  split
  case isTrue hsite =>
    rw [← hsite]
    exact lookup_source ((mem_insert h).2 (Or.inr rfl))
  case isFalse hsite =>
    refine Option.ext fun other => ?_
    constructor
    · intro hfound
      rcases lookup_eq_some hfound with ⟨hmem, rfl⟩
      rcases (mem_insert h).1 hmem with hold | rfl
      · exact lookup_source hold
      · exact absurd rfl hsite
    · intro hfound
      rcases lookup_eq_some hfound with ⟨hmem, rfl⟩
      exact lookup_source ((mem_insert h).2 (Or.inl hmem))

/-- Rules for different sources are added one behind the other. -/
theorem rules_foldl_insert (list : List Rule) {start : RuleSet}
    (h : (start.rules ++ list).Pairwise (·.source ≠ ·.source)) :
    (list.foldl insert start).rules = start.rules ++ list := by
  induction list generalizing start with
  | nil => simp
  | cons first rest ih =>
    have hkept : start.rules.filter (·.source ≠ first.source) = start.rules := by
      refine List.filter_eq_self.2 fun old hold => ?_
      simpa using (List.pairwise_append.1 h).2.2 old hold first List.mem_cons_self
    have hrules : (start.insert first).rules = start.rules ++ [first] := by
      simp only [insert, hkept]
    have hlater : ((start.insert first).rules ++ rest).Pairwise (·.source ≠ ·.source) := by
      simpa only [hrules, List.append_assoc, List.singleton_append] using h
    rw [List.foldl_cons, ih hlater, hrules, List.append_assoc, List.singleton_append]

/-- The rules of a set may be collected into another one in any order. -/
theorem rules_ofList_of_perm {rules : RuleSet} {list : List Rule} (h : list.Perm rules.rules) :
    (ofList list).rules = list := by
  have hdistinct : list.Pairwise (·.source ≠ ·.source) :=
    (h.pairwise_iff fun hne => hne.symm).2 rules.distinct
  exact rules_foldl_insert list (by simpa [empty] using hdistinct)

end RuleSet

namespace Registry

/-! ## Operations -/

/-- What is asked of a registry. -/
inductive Operation where
  | register (source target : Symbol)
  | redirect (source : Symbol) (owner name : String)
  /-- The redirection of a call that is given by its parts. -/
  | reroute (kind : CallKind) (owner name : String) (signature : Signature)
      (targetOwner targetName : String)
  | freeze
  | size
  /-- Freezes the registry and looks a call site up. -/
  | lookup (site : Symbol)

inductive Reply where
  | accepted
  | refused (error : RegistryError)
  | rules (rules : RuleSet)
  | size (size : Nat)
  | rule (rule? : Option Rule)

/-- The source and the target that a registration asks for. -/
def Operation.pair? : Operation → Option (Symbol × Symbol)
  | register source target => some (source, target)
  | redirect source owner name => some (source, ⟨owner, name, source.staticSignature, .static⟩)
  | reroute kind owner name signature targetOwner targetName =>
    let source : Symbol := ⟨owner, name, signature, kind⟩
    some (source, ⟨targetOwner, targetName, source.staticSignature, .static⟩)
  | freeze | size | lookup _ => none

def Operation.freezes : Operation → Bool
  | freeze | lookup _ => true
  | _ => false

/-- What is there after a registration. One that is refused leaves all as it was. -/
def settle {α : Type} (r : α) : Except RegistryError α → Reply × α
  | .ok r => (.accepted, r)
  | .error e => (.refused e, r)

def perform (r : Registry) : Operation → Reply × Registry
  | .register source target => settle r (r.register source target)
  | .redirect source owner name => settle r (r.redirect source owner name)
  | .reroute kind owner name signature targetOwner targetName =>
    settle r (r.redirect ⟨owner, name, signature, kind⟩ targetOwner targetName)
  | .freeze => (.rules r.freeze.rules, r.freeze)
  | .size => (.size r.size, r)
  | .lookup site => (.rule (r.freeze.rules.lookup site), r.freeze)

/-- The registry that operations leave behind. -/
def after (r : Registry) (operations : List Operation) : Registry :=
  operations.foldl (fun r operation => (r.perform operation).2) r

/-- Operations with the replies they get, in order. -/
def exchanges (r : Registry) : List Operation → List (Operation × Reply)
  | [] => []
  | operation :: rest =>
    (operation, (r.perform operation).1) :: (r.perform operation).2.exchanges rest

/-- The pair of a registration that was accepted. -/
def acceptedPair? : Operation × Reply → Option (Symbol × Symbol)
  | (operation, .accepted) => operation.pair?
  | _ => none

/-- The pairs that operations register, in the order in which they are accepted. -/
def accepted (r : Registry) (operations : List Operation) : List (Symbol × Symbol) :=
  (r.exchanges operations).filterMap acceptedPair?

@[simp] theorem after_nil (r : Registry) : r.after [] = r := rfl

@[simp] theorem after_cons (r : Registry) (operation : Operation) (rest : List Operation) :
    r.after (operation :: rest) = (r.perform operation).2.after rest := rfl

@[simp] theorem after_append (r : Registry) (earlier later : List Operation) :
    r.after (earlier ++ later) = (r.after earlier).after later :=
  List.foldl_append

theorem accepted_cons (r : Registry) (operation : Operation) (rest : List Operation) :
    r.accepted (operation :: rest) =
      (acceptedPair? (operation, (r.perform operation).1)).toList ++
        (r.perform operation).2.accepted rest := by
  unfold accepted
  rw [exchanges, List.filterMap_cons]
  cases acceptedPair? (operation, (r.perform operation).1) with
  | none => rfl
  | some pair => rfl

/-! ## Registrations -/

/-- A target that may replace a source. -/
def Fits (source target : Symbol) : Prop :=
  target.kind = .static ∧ target.signature = source.staticSignature

/-- A registration is answered as that of its pair. -/
theorem perform_registration {r : Registry} {operation : Operation} {source target : Symbol}
    (h : operation.pair? = some (source, target)) :
    r.perform operation = settle r (r.register source target) := by
  cases operation with
  | register | redirect | reroute =>
    obtain ⟨rfl, rfl⟩ := Prod.mk.inj (Option.some.inj h)
    simp [perform, register, redirect, Rule.ofPair, Rule.redirect]
  | freeze | size | lookup => cases h

/-- Anything else leaves the rules as they are. -/
theorem perform_of_no_pair {r : Registry} {operation : Operation} (h : operation.pair? = none) :
    (r.perform operation).2.rules = r.rules ∧
      acceptedPair? (operation, (r.perform operation).1) = none := by
  cases operation with
  | register | redirect | reroute => cases h
  | freeze | size | lookup => exact ⟨rfl, rfl⟩

/-- What a registration comes to: the pair is looked at first, then whether the registry is frozen,
then what it has for the source. -/
inductive Registers (r : Registry) (source target : Symbol) : Except RegistryError Registry → Prop
  | invalid (reason : RuleError) (hpair : Rule.ofPair source target = .error reason) :
      Registers r source target (.error (.invalid reason))
  | frozen (hfits : Fits source target) (hfrozen : r.frozen = true) :
      Registers r source target (.error (.frozen source))
  | conflict (hfits : Fits source target) (hopen : r.frozen = false) (existing : Rule)
      (hfound : r.rules.lookup source = some existing) (hother : existing.target ≠ target) :
      Registers r source target (.error (.conflict source existing.target target))
  | there (hfits : Fits source target) (hopen : r.frozen = false) (existing : Rule)
      (hfound : r.rules.lookup source = some existing) (hsame : existing.target = target) :
      Registers r source target (.ok r)
  | new (hfits : Fits source target) (hopen : r.frozen = false) (rule : Rule)
      (hfree : r.rules.lookup rule.source = none) (hsource : rule.source = source)
      (htarget : rule.target = target) :
      Registers r source target (.ok { r with rules := r.rules.insert rule })

theorem ofPair_of_fits {source target : Symbol} (h : Fits source target) :
    Rule.ofPair source target = .ok ⟨source, target, h.1, h.2⟩ := by
  rw [Rule.ofPair, dif_pos h.1, dif_pos h.2]

theorem ofPair_eq_error {source target : Symbol} (h : ¬Fits source target) :
    ∃ reason, Rule.ofPair source target = .error reason := by
  unfold Rule.ofPair
  split
  case isTrue hkind =>
    rw [dif_neg fun hsignature => h ⟨hkind, hsignature⟩]
    exact ⟨_, rfl⟩
  case isFalse => exact ⟨_, rfl⟩

theorem registers (r : Registry) (source target : Symbol) :
    r.Registers source target (r.register source target) := by
  unfold register
  by_cases hfits : Fits source target
  · simp only [ofPair_of_fits hfits, insert]
    split
    case isTrue hfrozen => exact .frozen hfits hfrozen
    case isFalse hopen =>
      have hopen : r.frozen = false := by simpa using hopen
      cases hfound : r.rules.lookup source with
      | none => exact .new hfits hopen ⟨source, target, hfits.1, hfits.2⟩ hfound rfl rfl
      | some existing =>
        dsimp only
        split
        case isTrue hsame => exact .there hfits hopen existing hfound hsame
        case isFalse hother => exact .conflict hfits hopen existing hfound hother
  · rcases ofPair_eq_error hfits with ⟨reason, hpair⟩
    simp only [hpair]
    exact .invalid reason hpair

/-- The target that a registry has for a source. -/
def target? (r : Registry) (source : Symbol) : Option Symbol :=
  (r.rules.lookup source).map Rule.target

theorem target?_eq_some_iff {r : Registry} {source target : Symbol} :
    r.target? source = some target ↔
      ∃ rule ∈ r.rules.rules, rule.source = source ∧ rule.target = target := by
  rw [target?, Option.map_eq_some_iff]
  constructor
  · rintro ⟨rule, hfound, htarget⟩
    rcases RuleSet.lookup_eq_some hfound with ⟨hmem, hsource⟩
    exact ⟨rule, hmem, hsource, htarget⟩
  · rintro ⟨rule, hmem, rfl, htarget⟩
    exact ⟨rule, RuleSet.lookup_source hmem, htarget⟩

/-- The answers to a registration, and when it gets them. -/
structure Answers (r : Registry) (operation : Operation) (source target : Symbol) : Prop where
  invalid : ∀ reason, (r.perform operation).1 = .refused (.invalid reason) ↔
    ¬Fits source target ∧ Rule.ofPair source target = .error reason
  frozen : ∀ named, (r.perform operation).1 = .refused (.frozen named) ↔
    named = source ∧ Fits source target ∧ r.frozen = true
  conflict : ∀ named existing requested,
    (r.perform operation).1 = .refused (.conflict named existing requested) ↔
      named = source ∧ requested = target ∧ Fits source target ∧ r.frozen = false ∧
        r.target? source = some existing ∧ existing ≠ target
  accepted : (r.perform operation).1 = .accepted ↔
    Fits source target ∧ r.frozen = false ∧
      ∀ existing, r.target? source = some existing → existing = target
  /-- A refused registration changes nothing, and neither does one of what is there. -/
  unchanged : (∃ error, (r.perform operation).1 = .refused error) ∨
    r.target? source = some target → (r.perform operation).2 = r

theorem answers (r : Registry) {operation : Operation} {source target : Symbol}
    (h : operation.pair? = some (source, target)) : r.Answers operation source target := by
  have hcases := r.registers source target
  have hperform := perform_registration (r := r) h
  generalize r.register source target = outcome at hcases hperform
  cases hcases with
  | invalid reason hpair =>
    have hnot : ¬Fits source target := by
      intro hfits
      rw [ofPair_of_fits hfits] at hpair
      cases hpair
    constructor <;> simp [hperform, settle, hnot, hpair]
  | frozen hfits hfrozen =>
    constructor <;> simp [hperform, settle, hfits, hfrozen, eq_comm]
  | conflict hfits hopen existing hfound hother =>
    have htarget : r.target? source = some existing.target := by rw [target?, hfound]; rfl
    constructor <;> grind [settle]
  | there hfits hopen existing hfound hsame =>
    constructor <;> simp [hperform, settle, hfits, hopen, target?, hfound, hsame]
  | new hfits hopen rule hfree hsource htarget =>
    subst hsource
    constructor <;> simp [hperform, settle, hfits, hopen, target?, hfree]

/-! ## One operation -/

/-- What an operation does to a registry. -/
theorem perform_cases (r : Registry) (operation : Operation) :
    (acceptedPair? (operation, (r.perform operation).1) = none ∧
        (r.perform operation).2.rules = r.rules) ∨
      r.frozen = false ∧ ∃ source target,
        acceptedPair? (operation, (r.perform operation).1) = some (source, target) ∧
        (r.target? source = some target ∧ (r.perform operation).2 = r ∨
          ∃ rule : Rule, rule.source = source ∧ rule.target = target ∧
            r.rules.lookup rule.source = none ∧
            (r.perform operation).2 = { r with rules := r.rules.insert rule }) := by
  cases hpair : operation.pair? with
  | none =>
    rcases perform_of_no_pair (r := r) hpair with ⟨hrules, hnone⟩
    exact Or.inl ⟨hnone, hrules⟩
  | some pair =>
    rcases pair with ⟨source, target⟩
    have hcases := r.registers source target
    have hperform := perform_registration (r := r) hpair
    generalize r.register source target = outcome at hcases hperform
    rw [hperform]
    cases hcases with
    | invalid | frozen | conflict => exact Or.inl ⟨rfl, rfl⟩
    | there hfits hopen existing hfound hsame =>
      have htarget : r.target? source = some target := by rw [target?, hfound, ← hsame]; rfl
      exact Or.inr ⟨hopen, source, target, hpair, Or.inl ⟨htarget, rfl⟩⟩
    | new hfits hopen rule hfree hsource htarget =>
      exact Or.inr ⟨hopen, source, target, hpair, Or.inr ⟨rule, hsource, htarget, hfree, rfl⟩⟩

/-- Only an accepted pair changes what a registry has for a source, and only if it has nothing. -/
theorem target?_perform (r : Registry) (operation : Operation) (site : Symbol) :
    (r.perform operation).2.target? site = (r.target? site).or
      ((acceptedPair? (operation, (r.perform operation).1)).toList.lookup site) := by
  rcases r.perform_cases operation with ⟨hnone, hrules⟩ | ⟨-, source, target, hpair, hcases⟩
  · simp [hnone, target?, hrules]
  · rcases hcases with ⟨htarget, hsame⟩ | ⟨rule, rfl, rfl, hfree, hnew⟩
    · rw [hpair, hsame]
      by_cases hsite : site = source
      · simp [hsite, htarget]
      · simp [beq_false_of_ne hsite]
    · rw [hpair, hnew, target?, target?, RuleSet.lookup_insert hfree]
      by_cases hsite : site = rule.source
      · simp [hsite, hfree]
      · simp [beq_false_of_ne hsite, Ne.symm hsite]

/-- What is accepted is there, and all that was there before. -/
theorem target?_perform_eq_some_iff (r : Registry) (operation : Operation)
    {source target : Symbol} :
    (r.perform operation).2.target? source = some target ↔ r.target? source = some target ∨
      acceptedPair? (operation, (r.perform operation).1) = some (source, target) := by
  rcases r.perform_cases operation with ⟨hnone, hrules⟩ | ⟨-, source', target', hpair, hcases⟩
  · simp [hnone, target?, hrules]
  · rw [hpair, Option.some.injEq, Prod.mk.injEq]
    rcases hcases with ⟨htarget, hsame⟩ | ⟨rule, rfl, rfl, hfree, hnew⟩
    · rw [hsame, iff_self_or]
      rintro ⟨rfl, rfl⟩
      exact htarget
    · rw [hnew, target?, target?, RuleSet.lookup_insert hfree]
      by_cases hsource : rule.source = source
      · rw [← hsource]
        simp [hfree]
      · simp [hsource]

theorem freeze_of_frozen {r : Registry} (h : r.frozen = true) : r.freeze = r := by
  rcases r with ⟨rules, frozen⟩
  obtain rfl : frozen = true := h
  rfl

/-- A frozen registry stays as it is and accepts nothing. -/
theorem perform_frozen {r : Registry} (h : r.frozen = true) (operation : Operation) :
    (r.perform operation).2 = r ∧
      acceptedPair? (operation, (r.perform operation).1) = none := by
  cases hpair : operation.pair? with
  | none =>
    refine ⟨?_, (perform_of_no_pair hpair).2⟩
    cases operation with
    | register | redirect | reroute => cases hpair
    | freeze | lookup => exact freeze_of_frozen h
    | size => rfl
  | some pair =>
    rcases pair with ⟨source, target⟩
    have hcases := r.registers source target
    have hperform := perform_registration (r := r) hpair
    generalize r.register source target = outcome at hcases hperform
    rw [hperform]
    cases hcases with
    | invalid | frozen => exact ⟨rfl, rfl⟩
    | conflict _ hopen | there _ hopen | new _ hopen =>
      rw [h] at hopen
      cases hopen

/-! ## All operations -/

theorem after_frozen {r : Registry} (h : r.frozen = true) (operations : List Operation) :
    r.after operations = r := by
  induction operations with
  | nil => rfl
  | cons operation rest ih => rw [after_cons, (perform_frozen h operation).1, ih]

theorem accepted_frozen {r : Registry} (h : r.frozen = true) (operations : List Operation) :
    r.accepted operations = [] := by
  induction operations with
  | nil => rfl
  | cons operation rest ih =>
    rcases perform_frozen h operation with ⟨hsame, hnone⟩
    rw [accepted_cons, hnone, hsame, ih]
    rfl

theorem perform_freezes {r : Registry} {operation : Operation} (h : operation.freezes = true) :
    (r.perform operation).2 = r.freeze ∧ operation.pair? = none := by
  cases operation with
  | register | redirect | reroute | size => cases h
  | freeze | lookup => exact ⟨rfl, rfl⟩

/-- All that is accepted is accepted before the registry is first frozen. -/
theorem accepted_takeWhile (r : Registry) (operations : List Operation) :
    r.accepted (operations.takeWhile (!·.freezes)) = r.accepted operations := by
  induction operations generalizing r with
  | nil => rfl
  | cons operation rest ih =>
    rw [List.takeWhile_cons]
    cases hfreezes : operation.freezes with
    | true =>
      rcases perform_freezes (r := r) hfreezes with ⟨hfrozen, hpair⟩
      rw [accepted_cons, (perform_of_no_pair hpair).2, hfrozen,
        accepted_frozen (r := r.freeze) rfl]
      rfl
    | false => simp only [Bool.not_false, if_true, accepted_cons, ih]

/-- A registry has for a source what it had, or else what was first accepted for it. -/
theorem target?_after (r : Registry) (operations : List Operation) (site : Symbol) :
    (r.after operations).target? site =
      (r.target? site).or ((r.accepted operations).lookup site) := by
  induction operations generalizing r with
  | nil => simp [accepted, exchanges]
  | cons operation rest ih =>
    rw [after_cons, ih, target?_perform, accepted_cons, List.lookup_append, Option.or_assoc]

/-- A registry has all it had, and all that was accepted. -/
theorem target?_after_eq_some_iff (r : Registry) (operations : List Operation)
    {source target : Symbol} :
    (r.after operations).target? source = some target ↔
      r.target? source = some target ∨ (source, target) ∈ r.accepted operations := by
  induction operations generalizing r with
  | nil => simp [accepted, exchanges]
  | cons operation rest ih =>
    rw [after_cons, ih, target?_perform_eq_some_iff, accepted_cons, List.mem_append,
      Option.mem_toList, or_assoc]

/-- A rule is counted once for each source. -/
theorem size_eq_length_dedup {r : Registry} {pairs : List (Symbol × Symbol)}
    (h : ∀ source target, r.target? source = some target ↔ (source, target) ∈ pairs) :
    r.size = (pairs.map Prod.fst).dedup.length := by
  have hnodup : (r.rules.rules.map Rule.source).Nodup :=
    List.pairwise_map.2 r.rules.distinct
  have hperm : (r.rules.rules.map Rule.source).Perm (pairs.map Prod.fst).dedup := by
    refine (List.perm_ext_iff_of_nodup hnodup (List.nodup_dedup _)).2 fun source => ?_
    simp only [List.mem_dedup, List.mem_map]
    constructor
    · rintro ⟨rule, hmem, rfl⟩
      exact ⟨(rule.source, rule.target),
        (h _ _).1 (target?_eq_some_iff.2 ⟨rule, hmem, rfl, rfl⟩), rfl⟩
    · rintro ⟨⟨source, target⟩, hmem, rfl⟩
      rcases target?_eq_some_iff.1 ((h _ _).2 hmem) with ⟨rule, hrule, hsource, -⟩
      exact ⟨rule, hrule, hsource⟩
  rw [← hperm.length_eq, List.length_map]
  rfl

/-! ## The frozen set kept apart -/

/-- A registry in two parts: the rules that it collects, and the set that was made of them when it
was frozen. -/
structure Split where
  pending : RuleSet
  snapshot : Option RuleSet

/-- Replies that say the same. Rules may be listed in another order. -/
inductive Reply.Alike : Reply → Reply → Prop
  | same (reply : Reply) : Alike reply reply
  | rules {rules rules' : RuleSet} (h : rules.rules.Perm rules'.rules) :
      Alike (.rules rules) (.rules rules')

namespace Split

def empty : Split := ⟨.empty, none⟩

def insert (s : Split) (rule : Rule) : Except RegistryError Split :=
  if s.snapshot.isSome then .error (.frozen rule.source)
  else
    match s.pending.lookup rule.source with
    | none => .ok { s with pending := s.pending.insert rule }
    | some existing =>
      if existing.target = rule.target then .ok s
      else .error (.conflict rule.source existing.target rule.target)

def register (s : Split) (source target : Symbol) : Except RegistryError Split :=
  match Rule.ofPair source target with
  | .error reason => .error (.invalid reason)
  | .ok rule => s.insert rule

/-- The set that was made, or else one that is made now. The rules are collected into it in some
order. -/
def freeze (collect : List Rule → List Rule) (s : Split) : RuleSet × Split :=
  match s.snapshot with
  | some rules => (rules, s)
  | none =>
    let rules := .ofList (collect s.pending.rules)
    (rules, { s with snapshot := some rules })

def size (s : Split) : Nat :=
  match s.snapshot with
  | some rules => rules.size
  | none => s.pending.size

def perform (collect : List Rule → List Rule) (s : Split) : Operation → Reply × Split
  | .register source target => settle s (s.register source target)
  | .redirect source owner name => settle s (s.insert (.redirect source owner name))
  | .reroute kind owner name signature targetOwner targetName =>
    settle s (s.insert (.redirect ⟨owner, name, signature, kind⟩ targetOwner targetName))
  | .freeze => (.rules (s.freeze collect).1, (s.freeze collect).2)
  | .size => (.size s.size, s)
  | .lookup site => (.rule ((s.freeze collect).1.lookup site), (s.freeze collect).2)

/-- The replies to operations, in order. -/
def replies (collect : List Rule → List Rule) (s : Split) : List Operation → List Reply
  | [] => []
  | operation :: rest =>
    (s.perform collect operation).1 :: (s.perform collect operation).2.replies collect rest

/-- What operations leave behind. -/
def after (collect : List Rule → List Rule) (s : Split) (operations : List Operation) : Split :=
  operations.foldl (fun s operation => (s.perform collect operation).2) s

/-- The two parts of a registry: the set was made of the rules there are. -/
structure Mirrors (s : Split) (r : Registry) : Prop where
  pending_eq : s.pending = r.rules
  isSome_eq : s.snapshot.isSome = r.frozen
  perm : ∀ rules, s.snapshot = some rules → rules.rules.Perm r.rules.rules

variable {collect : List Rule → List Rule} {s : Split} {r : Registry}

theorem Mirrors.insert (h : s.Mirrors r) (rule : Rule) :
    Interposition.Alike Mirrors (s.insert rule) (r.insert rule) := by
  unfold Split.insert Registry.insert
  rw [h.isSome_eq, h.pending_eq]
  split
  case isTrue => exact .error _
  case isFalse hopen =>
    cases r.rules.lookup rule.source with
    | none =>
      refine .ok ⟨rfl, h.isSome_eq, ?_⟩
      intro rules hrules
      -- There is no set yet.
      rw [← h.isSome_eq, hrules] at hopen
      exact absurd rfl hopen
    | some existing =>
      dsimp only
      split
      · exact .ok h
      · exact .error _

theorem Mirrors.register (h : s.Mirrors r) (source target : Symbol) :
    Interposition.Alike Mirrors (s.register source target) (r.register source target) := by
  unfold Split.register Registry.register
  cases Rule.ofPair source target with
  | error reason => exact .error _
  | ok rule => exact h.insert rule

theorem Mirrors.settle (h : s.Mirrors r) {x : Except RegistryError Split}
    {y : Except RegistryError Registry} (hxy : Interposition.Alike Mirrors x y) :
    (Registry.settle s x).1 = (Registry.settle r y).1 ∧
      (Registry.settle s x).2.Mirrors (Registry.settle r y).2 := by
  cases hxy with
  | error e => exact ⟨rfl, h⟩
  | ok hlater => exact ⟨rfl, hlater⟩

theorem Mirrors.freeze (h : s.Mirrors r) (hcollect : ∀ list, (collect list).Perm list) :
    (s.freeze collect).1.rules.Perm r.rules.rules ∧
      (s.freeze collect).2.Mirrors r.freeze := by
  unfold Split.freeze
  cases hsnapshot : s.snapshot with
  | some rules =>
    have hfrozen : s.snapshot.isSome = r.freeze.frozen := by
      rw [hsnapshot]
      rfl
    exact ⟨h.perm rules hsnapshot, h.pending_eq, hfrozen, h.perm⟩
  | none =>
    have hperm : (RuleSet.ofList (collect s.pending.rules)).rules.Perm r.rules.rules := by
      rw [RuleSet.rules_ofList_of_perm (hcollect _), ← h.pending_eq]
      exact hcollect _
    refine ⟨hperm, h.pending_eq, rfl, ?_⟩
    rintro _ ⟨⟩
    exact hperm

theorem Mirrors.size_eq (h : s.Mirrors r) : s.size = r.size := by
  unfold Split.size
  cases hsnapshot : s.snapshot with
  | some rules => exact (h.perm rules hsnapshot).length_eq
  | none => exact congrArg RuleSet.size h.pending_eq

theorem Mirrors.perform (h : s.Mirrors r) (hcollect : ∀ list, (collect list).Perm list)
    (operation : Operation) :
    (s.perform collect operation).1.Alike (r.perform operation).1 ∧
      (s.perform collect operation).2.Mirrors (r.perform operation).2 := by
  have hsettle {x : Except RegistryError Split} {y : Except RegistryError Registry}
      (hxy : Interposition.Alike Mirrors x y) :
      (Registry.settle s x).1.Alike (Registry.settle r y).1 ∧
        (Registry.settle s x).2.Mirrors (Registry.settle r y).2 := by
    rcases h.settle hxy with ⟨hreply, hlater⟩
    rw [hreply]
    exact ⟨.same _, hlater⟩
  rcases h.freeze hcollect with ⟨hperm, hfrozen⟩
  cases operation with
  | register source target => exact hsettle (h.register source target)
  | redirect | reroute => exact hsettle (h.insert _)
  | freeze => exact ⟨.rules hperm, hfrozen⟩
  | size =>
    rw [Split.perform, h.size_eq]
    exact ⟨.same _, h⟩
  | lookup site =>
    rw [Split.perform, RuleSet.lookup_congr (fun _ => hperm.mem_iff) site]
    exact ⟨.same _, hfrozen⟩

/-- Operations get the same replies, whether the frozen set is kept apart or not. -/
theorem Mirrors.replies (h : s.Mirrors r) (hcollect : ∀ list, (collect list).Perm list)
    (operations : List Operation) :
    List.Forall₂ Reply.Alike (s.replies collect operations)
      ((r.exchanges operations).map Prod.snd) := by
  induction operations generalizing s r with
  | nil => exact .nil
  | cons operation rest ih =>
    rcases h.perform hcollect operation with ⟨hreply, hlater⟩
    exact .cons hreply (ih hlater)

theorem mirrors_empty : empty.Mirrors .empty :=
  ⟨rfl, rfl, by simp [empty]⟩

theorem perform_of_snapshot {rules : RuleSet} (h : s.snapshot = some rules)
    (operation : Operation) : (s.perform collect operation).2 = s := by
  have hrefused (rule : Rule) : s.insert rule = .error (.frozen rule.source) := by
    simp [Split.insert, h]
  have hfreeze : (s.freeze collect).2 = s := by simp [Split.freeze, h]
  cases operation with
  | register source target =>
    rw [Split.perform, Split.register]
    cases Rule.ofPair source target with
    | error reason => rfl
    | ok rule =>
      dsimp only
      rw [hrefused]
      rfl
  | redirect | reroute =>
    rw [Split.perform, hrefused]
    rfl
  | freeze | lookup => exact hfreeze
  | size => rfl

theorem after_append (earlier later : List Operation) :
    s.after collect (earlier ++ later) = (s.after collect earlier).after collect later :=
  List.foldl_append

/-- Once the set is made it stays, and all the rest too. -/
theorem after_of_snapshot {rules : RuleSet} (h : s.snapshot = some rules)
    (operations : List Operation) : s.after collect operations = s := by
  induction operations with
  | nil => rfl
  | cons operation rest ih =>
    rw [Split.after, List.foldl_cons, perform_of_snapshot h]
    exact ih

end Split

/-! ## The life of a registry -/

/-- A registry that starts out empty has for a source what was first accepted for it. -/
theorem target?_after_empty (operations : List Operation) (site : Symbol) :
    (empty.after operations).target? site = (empty.accepted operations).lookup site := by
  rw [target?_after]
  simp [target?, empty, RuleSet.empty, RuleSet.lookup]

theorem target?_after_empty_iff (operations : List Operation) (source target : Symbol) :
    (empty.after operations).target? source = some target ↔
      (source, target) ∈ empty.accepted operations := by
  rw [target?_after_eq_some_iff]
  simp [target?, empty, RuleSet.empty, RuleSet.lookup]

theorem exists_lookup_iff (operations : List Operation) (site : Symbol) :
    (∃ rule, (empty.after operations).rules.lookup site = some rule) ↔
      ∃ target, (site, target) ∈ empty.accepted operations := by
  simp only [← target?_after_empty_iff, target?, Option.map_eq_some_iff]
  constructor
  · rintro ⟨rule, hfound⟩
    exact ⟨rule.target, rule, hfound, rfl⟩
  · rintro ⟨target, rule, hfound, -⟩
    exact ⟨rule, hfound⟩

/-- The rule of a call site in a registry that started out empty. -/
structure Serves (accepted : List (Symbol × Symbol)) (site : Symbol) (rule : Rule) : Prop where
  source_eq : rule.source = site
  first : accepted.lookup site = some rule.target
  static : rule.target.kind = .static
  signature_of_static : site.kind = .static → rule.target.signature = site.signature
  /-- The target takes what an instance call is made on as its first argument. -/
  signature_of_virtual : site.kind = .virtual → rule.target.signature =
    ⟨.object site.owner :: site.signature.params, site.signature.result⟩

theorem serves_of_lookup {operations : List Operation} {site : Symbol} {rule : Rule}
    (h : (empty.after operations).rules.lookup site = some rule) :
    Serves (empty.accepted operations) site rule := by
  rcases RuleSet.lookup_eq_some h with ⟨-, rfl⟩
  have htarget : (empty.after operations).target? rule.source = some rule.target := by
    rw [target?, h]
    rfl
  rw [target?_after_empty] at htarget
  have hsignature := rule.target_signature
  refine ⟨rfl, htarget, rule.target_static, ?_, ?_⟩
  · intro hstatic
    rw [hsignature, Symbol.staticSignature, hstatic]
  · intro hvirtual
    rw [hsignature, Symbol.staticSignature, hvirtual]
    rfl

/-- From the first freezing on a registry stays as it is. -/
theorem after_freezes {operation : Operation} (h : operation.freezes = true)
    (r : Registry) (earlier later : List Operation) :
    r.after (earlier ++ operation :: later) = (r.after earlier).freeze := by
  rw [after_append, after_cons, (perform_freezes h).1, after_frozen rfl]

/-- A frozen registry refuses every pair that makes a rule, and stays as it is. -/
theorem perform_of_fits {r : Registry} (hfrozen : r.frozen = true) {operation : Operation}
    {source target : Symbol} (hpair : operation.pair? = some (source, target))
    (hfits : Fits source target) : r.perform operation = (.refused (.frozen source), r) := by
  have hreply : (r.perform operation).1 = .refused (.frozen source) :=
    ((answers r hpair).frozen source).2 ⟨rfl, hfits, hfrozen⟩
  exact Prod.ext hreply (perform_frozen hfrozen operation).1

/-- The life of a registry that starts out empty and is used in any way, by registrations of each
form, by freezing, and by asking for its size and for the rule of a call site:

* It has exactly the pairs that were accepted before it was first frozen, one for each source.
* In the frozen set a call site has a rule exactly if some accepted registration had it for its
  source. The rule has the call site for its source, and for its target the one first accepted for
  it, which is static and takes what the source takes.
* A registration is refused because its pair makes no rule; if it does, because the registry is
  frozen; if it is not, because it has another target for the source. In no other case is it
  refused. A refused registration, and one of a pair that is there, changes nothing.
* From the first freezing on it stays as it is: any pair that makes a rule is refused, and freezing
  it again answers with the same set.
* All this may be read off a registry that makes the frozen set once, collecting its rules in any
  order, and keeps the set apart: it gives the same replies. -/
theorem after_empty_lifecycle (operations : List Operation) :
    ((∀ source target, (∃ rule ∈ (empty.after operations).rules.rules,
          rule.source = source ∧ rule.target = target) ↔
        (source, target) ∈ empty.accepted (operations.takeWhile (!·.freezes))) ∧
      (empty.after operations).rules.rules.Pairwise (·.source ≠ ·.source) ∧
      (empty.after operations).size =
        ((empty.accepted operations).map Prod.fst).dedup.length) ∧
    (∀ site,
      ((∃ rule, (empty.after operations).freeze.rules.lookup site = some rule) ↔
        ∃ target, (site, target) ∈ empty.accepted operations) ∧
      ∀ rule, (empty.after operations).freeze.rules.lookup site = some rule →
        Serves (empty.accepted operations) site rule) ∧
    (∀ operation source target, operation.pair? = some (source, target) →
      (empty.after operations).Answers operation source target) ∧
    (∀ earlier operation later, operations = earlier ++ operation :: later →
      operation.freezes = true →
        empty.after operations = (empty.after earlier).freeze ∧
        (∀ next source target, next.pair? = some (source, target) → Fits source target →
          (empty.after operations).perform next =
            (.refused (.frozen source), empty.after operations)) ∧
        ((empty.after operations).perform .freeze).1 = .rules (empty.after earlier).rules) ∧
    ∀ collect, (∀ list, (collect list).Perm list) →
      List.Forall₂ Reply.Alike (Split.empty.replies collect operations)
          ((empty.exchanges operations).map Prod.snd) ∧
        ∀ earlier later rules, operations = earlier ++ later →
          (Split.empty.after collect earlier).snapshot = some rules →
          (Split.empty.after collect operations).snapshot = some rules := by
  refine ⟨⟨?pairs, (empty.after operations).rules.distinct, ?size⟩, ?sites, ?answers, ?frozen,
    ?split⟩
  case pairs =>
    intro source target
    rw [accepted_takeWhile, ← target?_after_empty_iff, target?_eq_some_iff]
  case size => exact size_eq_length_dedup (target?_after_empty_iff operations)
  case sites =>
    intro site
    exact ⟨exists_lookup_iff operations site, fun rule => serves_of_lookup⟩
  case answers =>
    intro operation source target hpair
    exact answers _ hpair
  case frozen =>
    rintro earlier operation later rfl hfreezes
    rw [after_freezes hfreezes]
    refine ⟨rfl, ?_, rfl⟩
    intro next source target hpair hfits
    exact perform_of_fits rfl hpair hfits
  case split =>
    intro collect hcollect
    refine ⟨Split.mirrors_empty.replies hcollect operations, ?_⟩
    rintro earlier later rules rfl hrules
    rw [Split.after_append, Split.after_of_snapshot hrules]
    exact hrules

/-- A second target is refused, and after a look-up every rule is. -/
example :
    let exit : Symbol := ⟨"core.System", "exit", ⟨[.int], none⟩, .static⟩
    let print : Symbol := ⟨"core.PrintStream", "println", ⟨[.str], none⟩, .virtual⟩
    empty.accepted [.redirect exit "trap" "exit", .redirect exit "other" "exit", .lookup exit,
      .redirect print "trap" "print"] =
        [(exit, ⟨"trap", "exit", ⟨[.int], none⟩, .static⟩)] := by
  decide

end Registry

end Interposition
