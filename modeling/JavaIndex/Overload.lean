import JavaIndex.Classpath.ClassInfo

/-! The choice between methods of one name. Candidates are narrowed rule by rule, and a rule that no
candidate passes is skipped: first the number of arguments, where an exact fit beats a variable one, then
the number of arguments whose type is exactly that of the parameter, then the order of declaration. -/
namespace JavaIndex

/-- A method that a call may mean, with types as its receiver sees them. -/
structure Candidate where
  symbol : Symbol
  params : List JavaType
  varargs : Bool
  returns : JavaType
  isStatic : Bool
deriving Inhabited

namespace Candidate

/-- The method as its own class sees it. -/
def ofMethod (m : MethodInfo) : Candidate := ⟨m.symbol, m.params, m.varargs, m.returns, m.isStatic⟩

/-- There are as many parameters as arguments. -/
def fits (c : Candidate) (arity : Nat) : Bool := c.params.length == arity

/-- The last parameter takes what is left of the arguments. -/
def stretches (c : Candidate) (arity : Nat) : Bool := c.varargs && c.params.length ≤ arity + 1

/-- What one of the arguments for a parameter of any number of them has to be. -/
def elementOf : JavaType → JavaType
  | .array element => element
  | t => t

/-- The type of the parameter that receives an argument. -/
def paramFor (c : Candidate) (index arity : Nat) : Option JavaType :=
  match c.params.length with
  | 0 => none
  | last + 1 =>
    if !c.varargs || index < last || (arity == last + 1 && index == last) then c.params[index]?
    else c.params[last]?.map elementOf

/-- How many arguments have exactly the type of their parameter, where anything is known of it. -/
def exactMatches (c : Candidate) (args : List JavaType) : Nat :=
  args.zipIdx.countP fun (arg, i) =>
    arg.isKnown && ((c.paramFor i args.length).map (·.sameErasure arg)).getD false

end Candidate

/-- What came of the choice. -/
inductive Selection where
  | unique (chosen : Candidate)
  /-- Several candidates passed every rule; the first one declared was chosen. -/
  | ambiguous (chosen : Candidate) (survivors : List Symbol)
  | notFound
deriving Inhabited

namespace Selection

/-- The candidate that was chosen. -/
def candidate? : Selection → Option Candidate
  | .unique c | .ambiguous c _ => some c
  | .notFound => none

/-- There was a candidate to choose. -/
def isFound (s : Selection) : Bool := s.candidate?.isSome

/-- The candidates that pass a rule, or all of them if none does. -/
def narrow (rule : Candidate → Bool) (candidates : List Candidate) : List Candidate :=
  if candidates.any rule then candidates.filter rule else candidates

/-- The candidates with the most exact arguments. -/
def mostExact (args : List JavaType) (candidates : List Candidate) : List Candidate :=
  let best := (candidates.map (·.exactMatches args)).foldl max 0
  candidates.filter fun c => c.exactMatches args == best

/-- The candidates that pass every rule. -/
def survivors (args : List JavaType) (candidates : List Candidate) : List Candidate :=
  let arity := args.length
  mostExact args <|
    narrow (·.fits arity) <| narrow (fun c => c.fits arity || c.stretches arity) candidates

/-- The choice for a call, of candidates in the order of declaration. -/
def select (candidates : List Candidate) (args : List JavaType) : Selection :=
  match survivors args candidates with
  | [] => .notFound
  | [c] => .unique c
  | c :: rest => .ambiguous c ((c :: rest).map Candidate.symbol)

end Selection
end JavaIndex
