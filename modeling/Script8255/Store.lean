import Script8255.Failure
import Script8255.Table

/-! Named variables, some of which hold bytes of an arena of fixed size. -/

namespace Script8255

def statusRegister : String := "slx"

structure Variable where
  value : Option Value
  capacity : Option UInt64
  reserved : Bool
  deriving DecidableEq

structure Store where
  size : UInt64
  slots : Table Variable
  deriving DecidableEq

namespace Store

def empty (size : UInt64) : Store := ⟨size, []⟩

def get? (store : Store) (name : String) : Option Variable := store.slots.get? name

def capacity (store : Store) (name : String) : UInt64 :=
  ((store.get? name).bind Variable.capacity).getD 0

def used (store : Store) : UInt64 :=
  (store.slots.filterMap fun (_, slot) => slot.capacity).foldr (· + ·) 0

def isReserved (store : Store) (name : String) : Bool :=
  name == statusRegister || (store.get? name).any Variable.reserved

def put (store : Store) (name : String) (slot : Variable) : Store :=
  { store with slots := store.slots.put name slot }

/-- An allocation replaces the variable of that name and may use the bytes this frees. -/
def allocate (store : Store) (name : String) (capacity : UInt64) : Except StoreError Store :=
  let used := store.used - store.capacity name
  if store.isReserved name then .error (.reserved name)
  else if used.toNat + capacity.toNat ≤ store.size.toNat then
    .ok (store.put name ⟨none, some capacity, false⟩)
  else .error (.arenaExhausted name capacity used store.size)

def assign (store : Store) (name : String) (value : Value) (reserved : Bool) :
    Except StoreError Store :=
  match store.get? name with
  | none => .ok (store.put name ⟨some value, none, reserved⟩)
  | some slot =>
    let updated := store.put name
      { slot with value := some value, reserved := slot.reserved || reserved }
    match slot.capacity with
    | none => .ok updated
    | some capacity =>
      if capacity.toNat < value.byteSize then
        .error (.capacityExceeded name capacity value.byteSize)
      else .ok updated

def write (store : Store) (name : String) (value : Value) : Except StoreError Store :=
  if store.isReserved name then .error (.reserved name) else store.assign name value false

/-- The machine's own way of writing, which reserves the variable. -/
def writeReserved (store : Store) (name : String) (value : Value) : Except StoreError Store :=
  store.assign name value true

def read (store : Store) (name : String) : Except StoreError Value :=
  match store.get? name with
  | none => .error (.undefined name)
  | some slot =>
    match slot.value with
    | none => .error (.noData name)
    | some value => .ok value

def drop (store : Store) (name : String) : Except StoreError (Variable × Store) :=
  if store.isReserved name then .error (.reserved name)
  else
    match store.get? name with
    | none => .error (.undefined name)
    | some slot => .ok (slot, { store with slots := store.slots.remove name })

end Store

end Script8255
