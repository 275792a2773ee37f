import StepFlow.Control.Methods

/-!
# The store of named objects

Steps find an object by its name. An object that is removed, or whose name is given to another one,
is not found any more, but stays for those who still listen to it. Objects are numbered in the order
in which they are stored.
-/

namespace StepFlow

structure StoredObject where
  /-- The name, as long as the object can be found. -/
  name : Option String
  control : Control

/-- The objects ever stored, the newest first. -/
abbrev ObjectStore : Type := List StoredObject

abbrev ObjectId : Type := Nat

namespace StoredObject

/-- Takes the name away from an object. -/
def retire (o : StoredObject) : StoredObject := ⟨none, o.control.release⟩

end StoredObject

namespace ObjectStore

def get? : ObjectStore → ObjectId → Option StoredObject
  | [], _ => none
  | o :: older, id => if id = older.length then some o else get? older id

/-- The number of the object with a name. -/
def find? : ObjectStore → String → Option ObjectId
  | [], _ => none
  | o :: older, name => if o.name = some name then some older.length else find? older name

def control? (store : ObjectStore) (name : String) : Option Control :=
  ((store.find? name).bind store.get?).map StoredObject.control

def modify (change : StoredObject → StoredObject) : ObjectStore → ObjectId → ObjectStore
  | [], _ => []
  | o :: older, id =>
    if id = older.length then change o :: older else o :: modify change older id

def setControl (store : ObjectStore) (id : ObjectId) (control : Control) : ObjectStore :=
  store.modify (fun o => { o with control }) id

def remove (store : ObjectStore) (name : String) : ObjectStore :=
  match store.find? name with
  | some id => store.modify StoredObject.retire id
  | none => store

/-- Stores an object under a name, in place of any that has the name. -/
def insert (store : ObjectStore) (name : String) (control : Control) : ObjectStore :=
  ⟨some name, control⟩ :: store.remove name

/-- The number of objects that can be found. -/
def size (store : ObjectStore) : Nat := store.countP fun o => o.name.isSome

/-- The store when all ticks due before `now` have taken place. -/
def advance (now : Nat) (store : ObjectStore) : ObjectStore :=
  store.map fun o => { o with control := o.control.advance now }

/-- Calls a method of a named object. A failed call leaves the store as it is. -/
def call (store : ObjectStore) (ms : Methods) (now : Nat) (name method : String) (args : Object) :
    Except ActionError (Value × ObjectStore) :=
  match store.find? name with
  | none => .error (.objectNotFound name)
  | some id =>
    match store.get? id with
    | none => .error (.objectNotFound name)
    | some o =>
      (ms.call now o.control method args).map fun result =>
        (result.1, store.setControl id result.2)

end ObjectStore

end StepFlow
