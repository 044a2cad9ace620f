import JavaIndex.Classpath.ClassInfo
import Std.Data.TreeMap

/-! A memory of entries that are made when they are first asked for and never change. It is kept in
several shards, and a function of the key says in which one; what it answers does not depend on that
function. -/
namespace JavaIndex

/-- An entry generated from resources. -/
inductive ResourceEntry where
  /-- A class `R`, or a class of one type of resource in it. -/
  | ofClass (info : ClassInfo)
  /-- A constant of a type of resource. -/
  | constant (field : FieldInfo)
deriving Inhabited

/-- Entries by key, in so many shards. -/
structure ResourceCache (count : Nat) where
  place : String → Fin count
  shards : Vector (Std.TreeMap String ResourceEntry) count

namespace ResourceCache

variable {count : Nat}

/-- No entries. -/
def empty (place : String → Fin count) : ResourceCache count :=
  ⟨place, Vector.replicate count ∅⟩

/-- The shard of a key. -/
def shard (c : ResourceCache count) (key : String) : Std.TreeMap String ResourceEntry :=
  c.shards[c.place key]

/-- The entry of a key. -/
def get? (c : ResourceCache count) (key : String) : Option ResourceEntry := (c.shard key)[key]?

/-- The key has this entry. -/
def put (c : ResourceCache count) (key : String) (entry : ResourceEntry) : ResourceCache count :=
  { c with shards := c.shards.set (c.place key) ((c.shard key).insert key entry) }

/-- The entry of a key, made if there is none yet, with the memory after that. Nothing made is nothing
remembered. The answer says last whether anything was to be made. -/
def getOrMake (c : ResourceCache count) (key : String) (make : Unit → Option ResourceEntry) :
    Option ResourceEntry × ResourceCache count × Bool :=
  match c.get? key with
  | some entry => (some entry, c, false)
  | none =>
    match make () with
    | some entry => (some entry, c.put key entry, true)
    | none => (none, c, true)

/-- How many entries there are. -/
def size (c : ResourceCache count) : Nat := Lists.total (c.shards.toList.map Std.TreeMap.size)

end ResourceCache
end JavaIndex
