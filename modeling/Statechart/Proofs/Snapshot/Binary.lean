import Statechart.Proofs.Json.Trees
import Statechart.Proofs.Time
import Statechart.Snapshot.Binary

/-!
# The binary form gives snapshots back

Each reader gives back what its writer wrote and leaves what follows. Lengths are written in eight
bytes, and whatever a length counts is no shorter than the length says, so the bytes of an item tell
that its lengths fit.
-/

namespace Statechart

open Json

namespace Binary

variable {α : Type} {put : α → Bytes} {get : ByteReader α} {rest : Bytes}

/-- The item is read from in front of anything as it was written, if its length can be written. -/
def Restores (put : α → Bytes) (get : ByteReader α) (a : α) : Prop :=
  (put a).length < 2 ^ 64 → ∀ rest, get (put a ++ rest) = some (a, rest)

/-! ## Numbers, bytes and texts -/

@[simp]
theorem length_putNat (n x : Nat) : (putNat n x).length = n := by
  induction n generalizing x with
  | zero => rfl
  | succ n ih => rw [putNat, List.length_cons, ih]

theorem getNat_putNat {n x : Nat} (h : x < 256 ^ n) :
    getNat n (putNat n x ++ rest) = some (x, rest) := by
  induction n generalizing x with
  | zero =>
    obtain rfl : x = 0 := by simpa using h
    rfl
  | succ n ih =>
    have hquotient : x / 256 < 256 ^ n := by
      rw [Nat.pow_succ] at h
      exact Nat.div_lt_of_lt_mul (by rwa [Nat.mul_comm] at h)
    have hbyte : x.toUInt8.toNat = x % 256 := UInt8.toNat_ofNat'
    rw [putNat, List.cons_append, getNat, ih hquotient, Option.map_some]
    dsimp only
    rw [hbyte, Nat.mod_add_div]

theorem getNat_putNat_length {n : Nat} (h : n < 2 ^ 64) :
    getNat 8 (putNat 8 n ++ rest) = some (n, rest) :=
  getNat_putNat (by omega)

theorem getBytes_putBytes (bs : Bytes) : Restores putBytes getBytes bs := by
  intro hsize rest
  rw [putBytes, List.length_append, length_putNat] at hsize
  rw [getBytes, putBytes, List.append_assoc, getNat_putNat_length (by omega),
    Option.bind_eq_bind, Option.bind_some]
  simp

theorem fromUTF8?_toUTF8 (s : String) : String.fromUTF8? s.toUTF8 = some s := by
  rw [String.fromUTF8?, String.toUTF8_eq_toByteArray, dif_pos s.isValidUTF8]
  rfl

theorem getText_putText (s : String) : Restores putText getText s := by
  intro hsize rest
  rw [getText, putText, getBytes_putBytes _ hsize, Option.bind_eq_bind, Option.bind_some]
  dsimp only
  rw [Array.toArray_toList, fromUTF8?_toUTF8, Option.map_some]

/-! ## Options and lists -/

theorem getOption_putOption {o : Option α} (h : ∀ a ∈ o, Restores put get a) :
    Restores (putOption put) (getOption get) o := by
  intro hsize rest
  cases o with
  | none => rfl
  | some a =>
    rw [putOption, List.length_cons] at hsize
    rw [putOption, List.cons_append, getOption, h a rfl (by omega), Option.map_some]

theorem getItems_putItems {xs : List α} (h : ∀ a ∈ xs, Restores put get a)
    (hsize : (putItems put xs).length < 2 ^ 64) :
    getItems get xs.length (putItems put xs ++ rest) = some (xs, rest) := by
  induction xs with
  | nil => rfl
  | cons a xs ih =>
    obtain ⟨ha, hxs⟩ := List.forall_mem_cons.mp h
    rw [putItems, List.flatMap_cons, ← putItems, List.length_append] at hsize
    rw [putItems, List.flatMap_cons, ← putItems, List.append_assoc, List.length_cons,
      getItems, ha (by omega), Option.bind_eq_bind, Option.bind_some]
    dsimp only
    rw [ih hxs (by omega)]
    rfl

theorem length_le_putItems {xs : List α} (h : ∀ a ∈ xs, put a ≠ []) :
    xs.length ≤ (putItems put xs).length := by
  induction xs with
  | nil => exact Nat.le_refl 0
  | cons a xs ih =>
    obtain ⟨ha, hxs⟩ := List.forall_mem_cons.mp h
    have hrest := ih hxs
    have hfirst := List.length_pos_iff.mpr ha
    rw [putItems, List.flatMap_cons, ← putItems, List.length_append, List.length_cons]
    omega

theorem getList_putList {xs : List α} (hput : ∀ a ∈ xs, put a ≠ [])
    (h : ∀ a ∈ xs, Restores put get a) : Restores (putList put) (getList get) xs := by
  intro hsize rest
  have hcount := length_le_putItems hput
  rw [putList, List.length_append, length_putNat] at hsize
  rw [getList, putList, List.append_assoc, getNat_putNat_length (by omega),
    Option.bind_eq_bind, Option.bind_some]
  dsimp only
  rw [if_neg (by rw [List.length_append]; omega), getItems_putItems h (by omega)]

/-! ## Identifiers, times and values -/

theorem getUuid_putUuid (u : Uuid) : Restores putUuid getUuid u := by
  intro hsize rest
  rw [getUuid, putUuid, getBytes_putBytes _ hsize, Option.bind_eq_bind, Option.bind_some]
  dsimp only
  rw [Uuid.ofBytes?, dif_pos u.sixteen, Option.map_some]

theorem getInstant_putInstant {t : Instant} (h : Instant.parse t.render = some t) :
    Restores putInstant getInstant t := by
  intro hsize rest
  rw [getInstant, putInstant, getText_putText _ hsize, Option.bind_eq_bind, Option.bind_some]
  dsimp only
  rw [h, Option.map_some]

theorem getValue_putValue {v : Value} (h : Value.parse v.compact = some v) :
    Restores putValue getValue v := by
  intro hsize rest
  rw [getValue, putValue, getText_putText _ hsize, Option.bind_eq_bind, Option.bind_some]
  dsimp only
  rw [h, Option.map_some]

theorem getArgs_putArgs {args : List Value}
    (h : Value.parse (Value.array args).compact = some (.array args)) :
    Restores putArgs getArgs args := by
  intro hsize rest
  rw [getArgs, putArgs, getValue_putValue h hsize]
  rfl

/-! ## Parts of a snapshot -/

theorem putText_append_ne_nil (s : String) (bs : Bytes) : putText s ++ bs ≠ [] := by
  intro hnil
  have hlength := congrArg List.length hnil
  rw [List.length_append, putText, putBytes, List.length_append, length_putNat,
    List.length_nil] at hlength
  omega

theorem putEvent_ne_nil (e : Event) : putEvent e ≠ [] := putText_append_ne_nil _ _

theorem putQueued_ne_nil (q : QueuedTransition) : putQueued q ≠ [] := putText_append_ne_nil _ _

theorem putEntry_ne_nil (h : HistoryEntry) : putEntry h ≠ [] := by
  rw [putEntry, putInstant]
  simp only [List.append_assoc]
  exact putText_append_ne_nil _ _

section
variable {e : Event} {q : QueuedTransition} {h : HistoryEntry}

theorem getEvent_putEvent
    (hargs : Value.parse (Value.array e.args).compact = some (.array e.args)) :
    Restores putEvent getEvent e := by
  intro hsize rest
  rw [putEvent, List.length_append] at hsize
  have hname := getText_putText e.name (by omega)
  have hargs := getArgs_putArgs hargs (by omega)
  simp only [getEvent, putEvent, List.append_assoc, Option.bind_eq_bind,
    Option.bind_some, hname, hargs]

theorem getQueued_putQueued
    (hargs : Value.parse (Value.array q.args).compact = some (.array q.args)) :
    Restores putQueued getQueued q := by
  intro hsize rest
  rw [putQueued, List.length_append] at hsize
  have htransition := getText_putText q.transition (by omega)
  have hargs := getArgs_putArgs hargs (by omega)
  simp only [getQueued, putQueued, List.append_assoc, Option.bind_eq_bind, Option.bind_some,
    htransition, hargs]

theorem getEntry_putEntry (htime : Instant.parse h.time.render = some h.time)
    (hargs : ∀ e ∈ h.event, Value.parse (Value.array e.args).compact = some (.array e.args))
    (hdata : ∀ v ∈ h.data, Value.parse v.compact = some v) : Restores putEntry getEntry h := by
  intro hsize rest
  simp only [putEntry, List.length_append] at hsize
  have htext (o : Option String) : Restores (putOption putText) (getOption getText) o :=
    getOption_putOption fun s _ => getText_putText s
  have htime := getInstant_putInstant htime (by omega)
  have hprevious := htext h.previousState (by omega)
  have htransition := htext h.transition (by omega)
  have hnew := getText_putText h.newState (by omega)
  have hevent := getOption_putOption (fun e he => getEvent_putEvent (hargs e he)) (by omega)
  have htrigger := htext h.trigger (by omega)
  have hdata := getOption_putOption (fun v hv => getValue_putValue (hdata v hv)) (by omega)
  simp only [getEntry, putEntry, List.append_assoc, Option.bind_eq_bind,
    Option.bind_some, htime, hprevious, htransition, hnew, hevent, htrigger, hdata]

end

end Binary

namespace Snapshot

open Binary

variable {s : Snapshot}

/-- The argument lists of the queues and of the events of the history. -/
def argLists (s : Snapshot) : List (List Value) :=
  s.transitionQueue.map (·.args) ++ s.eventQueue.map (·.args) ++
    (s.history.filterMap (·.event)).map (·.args)

/-- The data that is present in the history. -/
def dataValues (s : Snapshot) : List Value := s.history.filterMap (·.data)

def times (s : Snapshot) : List Instant := s.takenAt :: s.history.map (·.time)

/-- A snapshot is read back whatever follows it. -/
theorem readBytes_toBytes (hversion : s.version < 2 ^ 32)
    (hargs : ∀ args ∈ s.argLists, Value.parse (Value.array args).compact = some (.array args))
    (hdata : ∀ v ∈ s.dataValues, Value.parse v.compact = some v)
    (htimes : ∀ t ∈ s.times, t.Proper) (hsize : s.toBytes.length < 2 ^ 64) (rest : Bytes) :
    readBytes (s.toBytes ++ rest) = some (s, rest) := by
  have hqueued : ∀ q ∈ s.transitionQueue, Restores putQueued getQueued q := fun q hq =>
    getQueued_putQueued (hargs _
      (List.mem_append_left _ (List.mem_append_left _ (List.mem_map_of_mem hq))))
  have hevent : ∀ e ∈ s.eventQueue, Restores putEvent getEvent e := fun e he =>
    getEvent_putEvent (hargs _
      (List.mem_append_left _ (List.mem_append_right _ (List.mem_map_of_mem he))))
  have hentry : ∀ h ∈ s.history, Restores putEntry getEntry h := by
    intro h hh
    have htime := htimes _ (List.mem_cons_of_mem _ (List.mem_map_of_mem hh))
    refine getEntry_putEntry htime.parse_render (fun e he => hargs _ ?_) (fun v hv => hdata v ?_)
    · exact List.mem_append_right _ (List.mem_map_of_mem (List.mem_filterMap.mpr ⟨h, hh, he⟩))
    · exact List.mem_filterMap.mpr ⟨h, hh, hv⟩
  simp only [toBytes, List.length_append] at hsize
  have hid := getUuid_putUuid s.id (by omega)
  have hmachine := getUuid_putUuid s.machine (by omega)
  have htaken := getInstant_putInstant (htimes _ List.mem_cons_self).parse_render (by omega)
  have hdefinition := getText_putText s.definition (by omega)
  have hactive := getOption_putOption
    (fun a (_ : a ∈ s.activeState) => getText_putText a) (by omega)
  have htransitions := getList_putList (fun q _ => putQueued_ne_nil q) hqueued (by omega)
  have hevents := getList_putList (fun e _ => putEvent_ne_nil e) hevent (by omega)
  have hhistory := getList_putList (fun h _ => putEntry_ne_nil h) hentry (by omega)
  have hnumber (rest : Bytes) : getNat 4 (putNat 4 s.version ++ rest) = some (s.version, rest) :=
    getNat_putNat hversion
  simp only [readBytes, toBytes, List.append_assoc, Option.bind_eq_bind, Option.bind_some,
    hnumber, hid, hmachine, htaken, hdefinition, hactive, htransitions, hevents, hhistory]

/-- A snapshot of the current version is read back from its bytes. -/
theorem ofBytes_toBytes (hversion : s.version = currentVersion)
    (hargs : ∀ args ∈ s.argLists, Value.parse (Value.array args).compact = some (.array args))
    (hdata : ∀ v ∈ s.dataValues, Value.parse v.compact = some v) (htimes : ∀ t ∈ s.times, t.Proper)
    (hsize : s.toBytes.length < 2 ^ 64) : ofBytes s.toBytes = .ok s := by
  have hread := readBytes_toBytes (by rw [hversion]; decide) hargs hdata htimes hsize []
  rw [List.append_nil] at hread
  rw [ofBytes, hread]
  dsimp only
  rw [checkVersion, if_pos hversion]
  rfl

/-- A snapshot in a leap second. One of its records has no data, the other has null for data. -/
def lateNight : Snapshot where
  version := 1
  id := .ofNat 1
  machine := .ofNat 2
  takenAt := ⟨17166, 86399, 1500000000⟩
  definition := "night"
  activeState := some "late"
  transitionQueue := [⟨"late->early", [.null, .string "now"]⟩]
  eventQueue := [⟨"wake", []⟩]
  history :=
    [{ time := ⟨17166, 0, 0⟩, previousState := none, transition := none,
       newState := "early", event := none,
       trigger := none, data := none },
     { time := ⟨17166, 3600, 123000000⟩, previousState := some "early",
       transition := some "early->late",
       newState := "late", event := some ⟨"tire", [.bool true]⟩, trigger :=
         some "", data := some .null }]

theorem ofBytes_toBytes_lateNight :
    lateNight.version = currentVersion ∧
    (∀ args ∈ lateNight.argLists, Value.parse (Value.array args).compact = some (.array args)) ∧
    (∀ v ∈ lateNight.dataValues, Value.parse v.compact = some v) ∧
    (∀ t ∈ lateNight.times, t.Proper) ∧
    lateNight.toBytes.length < 2 ^ 64 ∧ ofBytes lateNight.toBytes = .ok lateNight := by
  have hargs : ∀ args ∈ lateNight.argLists,
      Value.parse (Value.array args).compact = some (.array args) := by
    have hscalars : ∀ args ∈ lateNight.argLists,
        (∀ v ∈ args, v.Legible ∧ v.Ordered) ∧ (Value.array args).depth ≤ Tree.maxDepth := by
      simp only [argLists, lateNight, List.map, List.filterMap, List.cons_append, List.nil_append,
        List.forall_mem_cons]
      exact ⟨⟨⟨⟨.null, .null⟩, ⟨.string, .string⟩, nofun⟩, by decide⟩, ⟨nofun, by decide⟩,
        ⟨⟨⟨.bool, .bool⟩, nofun⟩, by decide⟩, nofun⟩
    intro args ha
    obtain ⟨hitems, hdepth⟩ := hscalars args ha
    rw [Value.parse_compact_eq (.array fun v hv => (hitems v hv).1)
      (.array fun v hv => (hitems v hv).2), if_pos hdepth]
  have hdata : ∀ v ∈ lateNight.dataValues, Value.parse v.compact = some v := by
    simp only [dataValues, lateNight, List.filterMap, List.forall_mem_cons]
    refine ⟨?_, nofun⟩
    rw [Value.parse_compact_eq .null .null, if_pos (by decide)]
  have htimes : ∀ t ∈ lateNight.times, t.Proper := by
    simp only [times, lateNight, List.map, List.forall_mem_cons]
    exact ⟨⟨by decide, by decide, by decide⟩, ⟨by decide, by decide, by decide⟩,
      ⟨by decide, by decide, by decide⟩, by simp⟩
  have hsize : lateNight.toBytes.length < 2 ^ 64 := by decide +kernel
  exact ⟨rfl, hargs, hdata, htimes, hsize, ofBytes_toBytes rfl hargs hdata htimes hsize⟩

end Snapshot
end Statechart
