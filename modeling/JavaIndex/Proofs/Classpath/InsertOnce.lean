import JavaIndex.Proofs.Classpath.Memory

/-! The memory in shards is one map. Whatever shards the keys are put in and whatever is asked and made in which order,
the value of a key is the first that was made for it, and making stops there. -/
namespace JavaIndex.ResourceCache

/-- What is done with a memory: an entry is asked for, or asked for and made if there is none. -/
inductive Call where
  | get (key : String)
  | make (key : String) (factory : Unit → Option ResourceEntry)

/-- What comes of a call: the entry, and whether anything was to be made. -/
structure Outcome where
  entry : Option ResourceEntry
  ran : Bool

/-! What one map would do. -/

/-- What a call would make for a key. -/
def Call.offer? (key : String) : Call → Option ResourceEntry
  | .get _ => none
  | .make other factory => if other = key then factory () else none

/-- The first entry that was made for a key. -/
def firstMade (calls : List Call) (key : String) : Option ResourceEntry := calls.findSome? (Call.offer? key)

/-- What comes of a call where the keys have these values. Nothing is made for a key that has one. -/
def answer (value : String → Option ResourceEntry) : Call → Outcome
  | .get key => ⟨value key, false⟩
  | .make key factory => ⟨(value key).or (factory ()), (value key).isNone⟩

/-- What comes of some calls after others, where the value of each key is the first that was made for it. -/
def answers (before : List Call) : List Call → List Outcome
  | [] => []
  | next :: rest => answer (firstMade before) next :: answers (before ++ [next]) rest

/-- The call made an entry for the key. -/
def Call.stores (key : String) (o : Outcome) : Call → Bool
  | .get _ => false
  | .make other _ => other == key && o.ran && o.entry.isSome

/-! What the memory does. -/

variable {count : Nat}

/-- One call. -/
def call (c : ResourceCache count) : Call → Outcome × ResourceCache count
  | .get key => (⟨c.get? key, false⟩, c)
  | .make key factory =>
    let (entry, c, ran) := c.getOrMake key factory
    (⟨entry, ran⟩, c)

/-- The memory after some calls. -/
def after (c : ResourceCache count) : List Call → ResourceCache count
  | [] => c
  | next :: rest => (c.call next).2.after rest

/-- What comes of some calls one after the other. -/
def outcomes (c : ResourceCache count) : List Call → List Outcome
  | [] => []
  | next :: rest => (c.call next).1 :: (c.call next).2.outcomes rest

variable (c : ResourceCache count)

/-! One call. -/

theorem call_answer (next : Call) : (c.call next).1 = answer c.get? next := by
  cases next with
  | get key => rfl
  | make key factory =>
    cases found : c.get? key with
    | some entry => simp [call, getOrMake, answer, found]
    | none => cases made : factory () <;> simp [call, getOrMake, answer, found, made]

theorem call_make (key : String) (factory : Unit → Option ResourceEntry) :
    (c.call (.make key factory)).2 = if (c.get? key).isSome then c else (factory ()).elim c (c.put key) := by
  cases found : c.get? key <;> cases made : factory () <;> simp [call, getOrMake, found, made]

theorem get?_call (next : Call) (key : String) :
    (c.call next).2.get? key = (c.get? key).or (next.offer? key) := by
  cases next with
  | get other => exact Option.or_none.symm
  | make other factory =>
    rw [call_make, Call.offer?]
    by_cases same : other = key
    · subst same
      cases found : c.get? other <;> cases factory () <;> simp [found, get?_put]
    · cases c.get? other <;> cases factory () <;> simp [same, get?_put]

/-- Nothing made is nothing remembered. -/
theorem call_nothing (key : String) {factory : Unit → Option ResourceEntry} (nothing : factory () = none) :
    (c.call (.make key factory)).2 = c := by
  rw [call_make, nothing, Option.elim_none, ite_self]

/-- A call makes an entry for a key just if the key gets its value by it. -/
theorem stores_call (next : Call) (key : String) :
    (next.stores key (c.call next).1).toNat + (c.get? key).isSome.toNat =
      ((c.call next).2.get? key).isSome.toNat := by
  rw [get?_call, call_answer]
  cases next with
  | get other => simp [Call.stores, Call.offer?]
  | make other factory =>
    by_cases same : other = key
    · subst same
      cases found : c.get? other <;> cases made : factory () <;>
        simp [Call.stores, Call.offer?, answer, found, made]
    · simp [Call.stores, Call.offer?, same]

/-- As many entries are remembered as keys have a value. -/
def Counted : Prop := ∃ keys : List String, keys.Nodup ∧ (∀ key, key ∈ keys ↔ (c.get? key).isSome = true) ∧
  c.size = keys.length

variable {c}

theorem Counted.call (h : c.Counted) (next : Call) : (c.call next).2.Counted := by
  cases next with
  | get key => exact h
  | make key factory =>
    rw [call_make]
    split
    · exact h
    · rename_i unknown
      cases made : factory () with
      | none => exact h
      | some entry =>
        obtain ⟨keys, nodup, known, size⟩ := h
        have new : c.get? key = none := by simpa using unknown
        refine ⟨key :: keys, List.nodup_cons.mpr ⟨fun old => unknown ((known key).mp old), nodup⟩, fun other => ?_, ?_⟩
        · rw [Option.elim_some, get?_put, List.mem_cons, known]
          by_cases same : key = other
          · simp [same]
          · simp [same, Ne.symm same]
        · rw [Option.elim_some, size_put new, size, List.length_cons]

theorem size_empty (place : String → Fin count) : (empty place).size = 0 := by
  have none (n : Nat) : Lists.total (List.replicate n 0) = 0 := by
    induction n with
    | zero => rfl
    | succ n ih => rw [List.replicate_succ, Lists.total, ih]
  simp [size, empty, none]

theorem counted_empty (place : String → Fin count) : (empty place).Counted :=
  ⟨[], .nil, fun key => by simp [get?_empty], size_empty place⟩

/-! Whole sequences of calls. -/

variable (c)

theorem get?_after (calls : List Call) (key : String) :
    (c.after calls).get? key = (c.get? key).or (firstMade calls key) := by
  induction calls generalizing c with
  | nil => exact Option.or_none.symm
  | cons next rest ih =>
    have first : firstMade (next :: rest) key = (next.offer? key).or (firstMade rest key) := by
      cases offered : next.offer? key <;> simp [firstMade, offered]
    rw [after, ih, get?_call, first, Option.or_assoc]

theorem outcomes_answers {before : List Call} (same : c.get? = firstMade before) (calls : List Call) :
    c.outcomes calls = answers before calls := by
  induction calls generalizing c before with
  | nil => rfl
  | cons next rest ih =>
    have step : (c.call next).2.get? = firstMade (before ++ [next]) := by
      funext key
      have last : firstMade [next] key = next.offer? key := by simp [firstMade]
      rw [get?_call, same, ← last]
      exact List.findSome?_append.symm
    rw [outcomes, answers, call_answer, same, ih _ step]

theorem stores_outcomes (calls : List Call) (key : String) :
    (calls.zip (c.outcomes calls)).countP (fun p => p.1.stores key p.2) + (c.get? key).isSome.toNat =
      ((c.after calls).get? key).isSome.toNat := by
  induction calls generalizing c with
  | nil => simp [after]
  | cons next rest ih =>
    have step := c.stores_call next key
    have later := ih (c.call next).2
    have here : (if next.stores key (c.call next).1 = true then 1 else 0) =
        (next.stores key (c.call next).1).toNat := by
      cases next.stores key (c.call next).1 <;> rfl
    rw [outcomes, List.zip_cons_cons, List.countP_cons, after, here]
    omega

theorem counted_after {c : ResourceCache count} (h : c.Counted) (calls : List Call) : (c.after calls).Counted := by
  induction calls generalizing c with
  | nil => exact h
  | cons next rest ih => exact ih (h.call next)

/-- A memory, in whatever shards, answers every sequence of calls as one map in which the value of a key is the first
entry that was made for it, and stays. A factory runs for a key without a value only, so that at most one call makes an
entry for a key; a factory that makes nothing changes nothing; and as many entries are remembered as keys have a
value. -/
theorem outcomes_once (place : String → Fin count) (calls : List Call) :
    let reached := (empty place).after calls
    (empty place).outcomes calls = answers [] calls ∧
      (∀ key, reached.get? key = firstMade calls key) ∧
      (∀ key entry, reached.get? key = some entry → ∀ more, (reached.after more).get? key = some entry) ∧
      (∀ key, (calls.zip ((empty place).outcomes calls)).countP (fun p => p.1.stores key p.2) ≤ 1) ∧
      (∀ key factory, factory () = none → (reached.call (.make key factory)).2 = reached) ∧
      ∃ keys : List String, keys.Nodup ∧ (∀ key, key ∈ keys ↔ (firstMade calls key).isSome = true) ∧
        reached.size = keys.length := by
  intro reached
  have values (key : String) : reached.get? key = firstMade calls key := by
    rw [get?_after, get?_empty, Option.none_or]
  have none : (empty place).get? = firstMade [] := funext fun key => get?_empty place key
  refine ⟨outcomes_answers _ none calls, values, fun key entry found more => ?_, fun key => ?_,
    fun key factory => reached.call_nothing key, ?_⟩
  · rw [get?_after, found, Option.some_or]
  · have once := stores_outcomes (empty place) calls key
    have bound := Bool.toNat_le (((empty place).after calls).get? key).isSome
    omega
  · obtain ⟨keys, nodup, known, size⟩ := counted_after (counted_empty place) calls
    exact ⟨keys, nodup, fun key => (known key).trans (by rw [values]), size⟩

end JavaIndex.ResourceCache
