import Interposition.Text.Diagnostic

/-!
# Interposition.Call.Signature — value types and call signatures

A signature is written as a descriptor: the parameter types between parentheses, then the
return type. `I` is an integer, `Z` a boolean, `T` a string, `L` owner `;` an object and, as a
return type only, `V` nothing. `Signature.parse` reads that text and `Signature.descriptor`
writes it.
-/

namespace Interposition

/-! ## Types -/

/-- A type of a parameter, a result or a field. -/
inductive ValueType where
  | int
  | bool
  | str
  /-- An instance of the module or host type `owner`. -/
  | object (owner : String)
deriving DecidableEq, Repr

/-- Parameter types and return type; `none` returns nothing. -/
structure Signature where
  params : List ValueType
  result : Option ValueType
deriving DecidableEq, Repr

/-! ## Faults of a descriptor -/

/-- What is wrong with a descriptor. -/
inductive DescriptorFault where
  | missingOpenParen
  | missingCloseParen
  | unknownType (code : Char)
  | unterminatedObject
  | voidParameter
  | trailing
deriving DecidableEq, Repr

/-- A descriptor that cannot be read, and why. -/
structure DescriptorError where
  descriptor : String
  fault : DescriptorFault
deriving DecidableEq, Repr

def DescriptorError.message (e : DescriptorError) : String :=
  match e.fault with
  | .missingOpenParen => s!"descriptor `{e.descriptor}` must start with '('"
  | .missingCloseParen => s!"descriptor `{e.descriptor}` has no ')'"
  | .unknownType code => s!"descriptor `{e.descriptor}` has unknown type code '{code}'"
  | .unterminatedObject => s!"descriptor `{e.descriptor}` has an unterminated object type"
  | .voidParameter => s!"descriptor `{e.descriptor}` uses void as a parameter"
  | .trailing => s!"descriptor `{e.descriptor}` has trailing characters"

instance : Diagnostic DescriptorError where
  kind e :=
    match e.fault with
    | .missingOpenParen => "MissingOpenParen"
    | .missingCloseParen => "MissingCloseParen"
    | .unknownType _ => "UnknownType"
    | .unterminatedObject => "UnterminatedObject"
    | .voidParameter => "VoidParameter"
    | .trailing => "Trailing"
  message := DescriptorError.message
  causes _ := []

/-! ## Writing -/

/-- The characters of a type. -/
def ValueType.chars : ValueType → List Char
  | .int => ['I']
  | .bool => ['Z']
  | .str => ['T']
  | .object owner => 'L' :: owner.toList ++ [';']

def ValueType.descriptor (t : ValueType) : String :=
  String.ofList t.chars

/-- The characters of a return type. -/
def ValueType.resultChars : Option ValueType → List Char
  | none => ['V']
  | some t => t.chars

def Signature.chars (s : Signature) : List Char :=
  '(' :: s.params.flatMap ValueType.chars ++ ')' :: ValueType.resultChars s.result

def Signature.descriptor (s : Signature) : String :=
  String.ofList s.chars

/-! ## Reading -/

/-- Reads one type, `none` for void, and gives what follows it. The owner of an object type
runs to the next `;` and is not empty. -/
def ValueType.read : List Char → Except DescriptorFault (Option ValueType × List Char)
  | [] => .error .trailing
  | 'I' :: rest => .ok (some .int, rest)
  | 'Z' :: rest => .ok (some .bool, rest)
  | 'T' :: rest => .ok (some .str, rest)
  | 'V' :: rest => .ok (none, rest)
  | 'L' :: rest =>
    -- An owner has a character at least, and the `;` after it has to be there.
    match rest.takeWhile (· ≠ ';'), rest.dropWhile (· ≠ ';') with
    | c :: owner, _ :: tail => .ok (some (.object (String.ofList (c :: owner))), tail)
    | _, _ => .error .unterminatedObject
  | code :: _ => .error (.unknownType code)

/-- Reading a type consumes a character at least. -/
theorem ValueType.read_length_lt {input rest : List Char} {t : Option ValueType}
    (h : ValueType.read input = .ok (t, rest)) : rest.length < input.length := by
  have drop_le (cs : List Char) : (cs.dropWhile (· ≠ ';')).length ≤ cs.length :=
    (List.dropWhile_suffix _).length_le
  unfold ValueType.read at h
  split at h
  case h_6 cs =>
    split at h
    case h_1 eq =>
      have shorter := drop_le cs
      simp only [Except.ok.injEq, Prod.mk.injEq] at h
      rw [eq, h.2, List.length_cons] at shorter
      exact Nat.lt_succ_of_lt shorter
    case h_2 => cases h
  all_goals cases h
  all_goals exact Nat.lt_succ_self _

/-- Reads parameter types to the end of the input. -/
def ValueType.readAll (done : List ValueType) (input : List Char) :
    Except DescriptorFault (List ValueType) :=
  if input.isEmpty then .ok done.reverse
  else
    match _h : ValueType.read input with
    | .error fault => .error fault
    -- Nothing has no values to pass.
    | .ok (none, _) => .error .voidParameter
    | .ok (some t, rest) => ValueType.readAll (t :: done) rest
termination_by input.length
decreasing_by exact ValueType.read_length_lt _h

/-- Reads a type that ends the input. -/
def ValueType.readLast (input : List Char) : Except DescriptorFault (Option ValueType) :=
  match ValueType.read input with
  | .error fault => .error fault
  | .ok (t, []) => .ok t
  | .ok (_, _ :: _) => .error .trailing

/-- The type a field descriptor stands for. -/
def ValueType.parse (descriptor : String) : Except DescriptorError ValueType :=
  match ValueType.readLast descriptor.toList with
  | .error fault => .error ⟨descriptor, fault⟩
  | .ok none => .error ⟨descriptor, .voidParameter⟩
  | .ok (some t) => .ok t

/-- Reads a signature. The parameters end at the first closing parenthesis, also one inside
an object type. -/
def Signature.read : List Char → Except DescriptorFault Signature
  | '(' :: rest =>
    -- A missing `)` is reported before anything that is wrong with the parameters.
    match rest.dropWhile (· ≠ ')') with
    | [] => .error .missingCloseParen
    | _ :: tail => do
      let params ← ValueType.readAll [] (rest.takeWhile (· ≠ ')'))
      let result ← ValueType.readLast tail
      return ⟨params, result⟩
  | _ => .error .missingOpenParen

/-- The signature a call descriptor stands for. -/
def Signature.parse (descriptor : String) : Except DescriptorError Signature :=
  (Signature.read descriptor.toList).mapError fun fault => ⟨descriptor, fault⟩

/-! ## Calls -/

namespace Signature

/-- No parameters and no result. -/
def void : Signature := ⟨[], none⟩

/-- The signature with a receiver of type `owner` in front: what a static method needs that
stands in for an instance method of `owner`. -/
def withReceiver (s : Signature) (owner : String) : Signature :=
  { s with params := .object owner :: s.params }

def arity (s : Signature) : Nat :=
  s.params.length

def isVoid (s : Signature) : Bool :=
  s.result.isNone

end Signature

end Interposition
