import Statechart.Snapshot.Basic

/-!
# The binary form of snapshots

Numbers are little-endian; texts and lists begin with their length in eight bytes; an option begins
with a byte that is 0 or 1. Values are compact JSON texts, so present null data stays apart from
absent data. Bytes after a snapshot are not looked at.
-/

namespace Statechart

open Json

abbrev Bytes := List UInt8

/-- Reads a front part of some bytes. -/
abbrev ByteReader (α : Type) := Bytes → Option (α × Bytes)

namespace Binary

/-- The lowest `n` bytes of a number, lowest first. -/
def putNat : Nat → Nat → Bytes
  | 0, _ => []
  | n + 1, x => x.toUInt8 :: putNat n (x / 256)

def getNat : Nat → ByteReader Nat
  | 0, bs => some (0, bs)
  | _ + 1, [] => none
  | n + 1, b :: bs => (getNat n bs).map fun (x, rest) => (b.toNat + 256 * x, rest)

/-- Bytes after their number. -/
def putBytes (bs : Bytes) : Bytes := putNat 8 bs.length ++ bs

def getBytes : ByteReader Bytes := fun bs => do
  let (n, bs) ← getNat 8 bs
  let front := bs.take n
  if front.length < n then none else some (front, bs.drop n)

def putText (s : String) : Bytes := putBytes s.toUTF8.data.toList

def getText : ByteReader String := fun bs => do
  let (text, rest) ← getBytes bs
  (String.fromUTF8? ⟨text.toArray⟩).map (·, rest)

def putOption {α : Type} (put : α → Bytes) : Option α → Bytes
  | none => [0]
  | some a => 1 :: put a

def getOption {α : Type} (get : ByteReader α) : ByteReader (Option α)
  | 0 :: bs => some (none, bs)
  | 1 :: bs => (get bs).map fun (a, rest) => (some a, rest)
  | _ => none

def putItems {α : Type} (put : α → Bytes) (xs : List α) : Bytes := xs.flatMap put

def getItems {α : Type} (get : ByteReader α) : Nat → ByteReader (List α)
  | 0, bs => some ([], bs)
  | n + 1, bs => do
    let (a, bs) ← get bs
    let (as, bs) ← getItems get n bs
    some (a :: as, bs)

def putList {α : Type} (put : α → Bytes) (xs : List α) : Bytes :=
  putNat 8 xs.length ++ putItems put xs

/-- An item takes a byte at least, so a list is no longer than what is left. -/
def getList {α : Type} (get : ByteReader α) : ByteReader (List α) := fun bs => do
  let (n, bs) ← getNat 8 bs
  if bs.length < n then none else getItems get n bs

def putUuid (u : Uuid) : Bytes := putBytes u.bytes

def getUuid : ByteReader Uuid := fun bs => do
  let (b, rest) ← getBytes bs
  (Uuid.ofBytes? b).map (·, rest)

def putInstant (t : Instant) : Bytes := putText t.render

def getInstant : ByteReader Instant := fun bs => do
  let (s, rest) ← getText bs
  (Instant.parse s).map (·, rest)

/-- Values travel as compact texts. -/
def putValue (v : Value) : Bytes := putText v.compact

def getValue : ByteReader Value := fun bs => do
  let (s, rest) ← getText bs
  (Value.parse s).map (·, rest)

def putArgs (args : List Value) : Bytes := putValue (.array args)

def getArgs : ByteReader (List Value) := fun bs => do
  match ← getValue bs with
  | (.array args, rest) => some (args, rest)
  | _ => none

def putEvent (e : Event) : Bytes := putText e.name ++ putArgs e.args

def getEvent : ByteReader Event := fun bs => do
  let (name, bs) ← getText bs
  let (args, bs) ← getArgs bs
  some (⟨name, args⟩, bs)

def putQueued (q : QueuedTransition) : Bytes := putText q.transition ++ putArgs q.args

def getQueued : ByteReader QueuedTransition := fun bs => do
  let (transition, bs) ← getText bs
  let (args, bs) ← getArgs bs
  some (⟨transition, args⟩, bs)

def putEntry (h : HistoryEntry) : Bytes :=
  putInstant h.time ++ putOption putText h.previousState ++ putOption putText h.transition ++
    putText h.newState ++ putOption putEvent h.event ++ putOption putText h.trigger ++
    putOption putValue h.data

def getEntry : ByteReader HistoryEntry := fun bs => do
  let (time, bs) ← getInstant bs
  let (previousState, bs) ← getOption getText bs
  let (transition, bs) ← getOption getText bs
  let (newState, bs) ← getText bs
  let (event, bs) ← getOption getEvent bs
  let (trigger, bs) ← getOption getText bs
  let (data, bs) ← getOption getValue bs
  some ({ time, previousState, transition, newState, event, trigger, data }, bs)

end Binary

namespace Snapshot

open Binary

def toBytes (s : Snapshot) : Bytes :=
  putNat 4 s.version ++ putUuid s.id ++ putUuid s.machine ++ putInstant s.takenAt ++
    putText s.definition ++ putOption putText s.activeState ++
      putList putQueued s.transitionQueue ++
    putList putEvent s.eventQueue ++ putList putEntry s.history

def readBytes : ByteReader Snapshot := fun bs => do
  let (version, bs) ← getNat 4 bs
  let (id, bs) ← getUuid bs
  let (machine, bs) ← getUuid bs
  let (takenAt, bs) ← getInstant bs
  let (definition, bs) ← getText bs
  let (activeState, bs) ← getOption getText bs
  let (transitionQueue, bs) ← getList getQueued bs
  let (eventQueue, bs) ← getList getEvent bs
  let (history, bs) ← getList getEntry bs
  some (
    { version, id, machine, takenAt, definition, activeState, transitionQueue, eventQueue,
      history }, bs)

/-- Reads a snapshot of the current version. -/
def ofBytes (bs : Bytes) : Except SnapshotError Snapshot :=
  match readBytes bs with
  | none => .error .deserializationFailed
  | some (s, _) => s.checkVersion.map fun _ => s

end Snapshot
end Statechart
