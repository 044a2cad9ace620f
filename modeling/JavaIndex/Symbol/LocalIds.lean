import JavaIndex.Config

/-! The numbers of local declarations, given out in the order of discovery. -/
namespace JavaIndex

/-- The policy, the next number, and how many bodies are open. -/
structure LocalIds where
  policy : LocalNumbering
  next : Nat
  depth : Nat
deriving DecidableEq, Repr, Inhabited

namespace LocalIds

/-- No number given out, no body open. -/
def start (policy : LocalNumbering) : LocalIds := ⟨policy, 0, 0⟩

/-- A number not given out in this sequence, and the state after it. -/
def fresh (ids : LocalIds) : Nat × LocalIds := (ids.next, { ids with next := ids.next + 1 })

/-- Inside one more body. A new sequence begins only with an outermost body, and only if every method has
its own: a class inside a body goes on with the sequence around it. -/
def enter (ids : LocalIds) : LocalIds :=
  let restarts := ids.policy = .perMethod ∧ ids.depth = 0
  ⟨ids.policy, if restarts then 0 else ids.next, ids.depth + 1⟩

/-- Outside the body entered last. -/
def leave (ids : LocalIds) : LocalIds := { ids with depth := ids.depth - 1 }

end LocalIds
end JavaIndex
