import Statechart.Proofs.Json.Trees
import Statechart.Proofs.Machine.Readiness
import Statechart.Proofs.Snapshot.Binary
import Statechart.Snapshot.Restore

/-!
# The two forms of a snapshot

Both forms give back the snapshot of a machine, but for null data in the JSON form, where it stands
for no data. The JSON form is one document, so the values in it must leave room for the levels
around them.
-/

namespace Statechart

open Json Json.Decode

/-! ## Parts of the JSON form -/

theorem inverts_uuid (u : Uuid) : Inverts Decode.uuid (.string u.render) u := by
  refine .of_scalar rfl fun room => ?_
  rw [Tree.ofValue, Decode.uuid, string, Option.bind_eq_bind, Option.bind_some, u.parse_render]

theorem inverts_instant {t : Instant} (h : t.Proper) :
    Inverts Decode.instant (.string t.render) t := by
  refine .of_scalar rfl fun room => ?_
  rw [Tree.ofValue, Decode.instant, string, Option.bind_eq_bind, Option.bind_some, h.parse_render]

theorem inverts_args {args : List Value} (h : ∀ v ∈ args, v.Ordered) :
    Inverts (list value) (.array args) args := by
  have hlist := inverts_list (f := id) fun v hv => inverts_value (h v hv)
  rwa [List.map_id] at hlist

/-- A text and a list of arguments, as events and queued transitions are written. -/
theorem inverts_named {α : Type} {d : Decoder α} {make : String → List Value →
  α} {field name : String}
    {args : List Value} (hfield : field ≠ "args") (hargs : Inverts (list value) (.array args) args)
    (hd : ∀ room t, d room t = (record [field, "args"] room t).bind fun
      | (room, [name, args]) => (required string room name).bind fun name =>
          (withDefault [] (list value) room args).bind fun args => some (make name args)
      | _ => none) :
    Inverts d (.object [(field, .string name), ("args", .array args)]) (make name args) := by
  intro room
  rw [hd]
  cases room with
  | zero => rfl
  | succ room =>
    rw [record_ofValue, Option.bind_some]
    · simp only [List.map, required, withDefault, (inverts_string name).bind, hargs.bind]
      simp
    · rfl
    · simpa using hfield

theorem Event.inverts {e : Event} (h : ∀ v ∈ e.args, v.Ordered) : Inverts Event.decode e.toJson e :=
  inverts_named (by decide) (inverts_args h) fun _ _ => rfl

theorem QueuedTransition.inverts {q : QueuedTransition} (h : ∀ v ∈ q.args, v.Ordered) :
    Inverts QueuedTransition.decode q.toJson q :=
  inverts_named (by decide) (inverts_args h) fun _ _ => rfl

theorem Event.legible {e : Event} (h : (Value.array e.args).Legible) : e.toJson.Legible :=
  .object (List.forall_mem_cons.mpr ⟨.string, List.forall_mem_singleton.mpr h⟩)

theorem QueuedTransition.legible {q : QueuedTransition}
    (h : (Value.array q.args).Legible) : q.toJson.Legible :=
  .object (List.forall_mem_cons.mpr ⟨.string, List.forall_mem_singleton.mpr h⟩)

namespace HistoryEntry

variable {h : HistoryEntry}

/-- An entry with null data taken for no data. -/
def withoutNull (h : HistoryEntry) : HistoryEntry :=
  { h with data := match h.data with
      | some .null => none
      | data => data }

theorem withoutNull_eq_self : h.withoutNull = h ↔ h.data ≠ some .null := by
  obtain ⟨time, previousState, transition, newState, event, trigger, data⟩ := h
  simp only [withoutNull]
  split <;> simp_all

/-- What is read for the data of an entry. -/
theorem inverts_data (hordered : ∀ v ∈ h.data, v.Ordered) :
    Inverts (nullable value) (.ofOption id h.data) h.withoutNull.data := by
  obtain ⟨time, previousState, transition, newState, event, trigger, data⟩ := h
  cases data with
  | none => exact inverts_none
  | some v =>
    have hv := inverts_value (hordered v rfl)
    cases v with
    | null => exact inverts_none
    | _ => exact inverts_some hv nofun

theorem inverts (htime : h.time.Proper) (hargs : ∀ e ∈ h.event, ∀ v ∈ e.args, v.Ordered)
    (hordered : ∀ v ∈ h.data, v.Ordered) : Inverts HistoryEntry.decode h.toJson h.withoutNull := by
  have htext (o : Option String) : Inverts (nullable string) (.ofOption .string o) o :=
    inverts_ofOption fun s _ => ⟨inverts_string s, nofun⟩
  have htime := inverts_instant htime
  have hevent : Inverts (nullable Event.decode) (.ofOption Event.toJson h.event) h.event :=
    inverts_ofOption fun e he => ⟨Event.inverts (hargs e he), nofun⟩
  have hdata := inverts_data hordered
  intro room
  cases room with
  | zero => rfl
  | succ room =>
    -- there is room for texts wherever there is a record, so the event and the data decide
    have hdepth : h.toJson.depth ≤ room + 1 ↔
        (Value.ofOption Event.toJson h.event).depth ≤ room ∧
        (Value.ofOption id h.data).depth ≤ room := by
      simp [HistoryEntry.toJson]
    rw [HistoryEntry.decode, HistoryEntry.toJson, record_ofValue,
      Option.bind_eq_bind, Option.bind_some, ← HistoryEntry.toJson]
    · simp only [hdepth, ite_and, List.map, required, Json.Decode.optional,
        Option.bind_eq_bind, htime.bind,
        (htext _).bind, (inverts_string _).bind, hevent.bind, hdata.bind, Value.depth_string,
        Value.depth_ofOption_string, Nat.zero_le, if_true]
      rfl
    · rfl
    · decide

theorem legible (hargs : ∀ e ∈ h.event, (Value.array e.args).Legible)
    (hlegible : ∀ v ∈ h.data, v.Legible) : h.toJson.Legible := by
  have htext (o : Option String) : (Value.ofOption .string o).Legible :=
    .ofOption fun _ _ => .string
  have hevent : (Value.ofOption Event.toJson h.event).Legible := .ofOption fun e he =>
    e.legible (hargs e he)
  have hdata : (Value.ofOption id h.data).Legible := .ofOption hlegible
  refine .object ?_
  simp only [List.forall_mem_cons, List.not_mem_nil, false_implies, implies_true, and_true]
  exact ⟨.string, htext _, htext _, .string, hevent, htext _, hdata⟩

end HistoryEntry

namespace Snapshot

variable {s : Snapshot}

def withoutNulls (s : Snapshot) : Snapshot := { s with history := s.history.map (·.withoutNull) }

theorem withoutNulls_eq_self : s.withoutNulls = s ↔ ∀ h ∈ s.history, h.data ≠ some .null := by
  have hmap : s.history.map (·.withoutNull) = s.history ↔ ∀ h ∈ s.history, h.withoutNull = h := by
    conv_lhs => rhs; rw [← List.map_id s.history]
    exact List.map_inj_left
  simp only [HistoryEntry.withoutNull_eq_self] at hmap
  rw [← hmap]
  exact ⟨congrArg history, fun h => by rw [withoutNulls, h]⟩

/-- The values that a snapshot carries: lists of arguments, and data. -/
def values (s : Snapshot) : List Value := s.argLists.map .array ++ s.dataValues

theorem queued_mem_values {q : QueuedTransition}
    (h : q ∈ s.transitionQueue) : .array q.args ∈ s.values :=
  List.mem_append_left _ (List.mem_map_of_mem
    (List.mem_append_left _ (List.mem_append_left _ (List.mem_map_of_mem h))))

theorem event_mem_values {e : Event} (h : e ∈ s.eventQueue) : .array e.args ∈ s.values :=
  List.mem_append_left _ (List.mem_map_of_mem
    (List.mem_append_left _ (List.mem_append_right _ (List.mem_map_of_mem h))))

theorem recorded_mem_values {h : HistoryEntry} {e : Event} (hh : h ∈ s.history) (he : e ∈ h.event) :
    .array e.args ∈ s.values :=
  List.mem_append_left _ (List.mem_map_of_mem
    (List.mem_append_right _ (List.mem_map_of_mem (List.mem_filterMap.mpr ⟨h, hh, he⟩))))

theorem data_mem_values {h : HistoryEntry} {v : Value} (hh : h ∈ s.history)
    (hv : v ∈ h.data) : v ∈ s.values :=
  List.mem_append_right _ (List.mem_filterMap.mpr ⟨h, hh, hv⟩)

theorem inverts (hversion : s.version < 2 ^ 32) (hordered : ∀ v ∈ s.values, v.Ordered)
    (htimes : ∀ t ∈ s.times, t.Proper) : Inverts decode s.toJson s.withoutNulls := by
  have hversion := inverts_nat hversion
  have hid := inverts_uuid s.id
  have hmachine := inverts_uuid s.machine
  have htaken := inverts_instant (htimes _ List.mem_cons_self)
  have hdefinition := inverts_string s.definition
  have hactive : Inverts (nullable string) (.ofOption .string s.activeState) s.activeState :=
    inverts_ofOption fun s _ => ⟨inverts_string s, nofun⟩
  have htransitions : Inverts (list QueuedTransition.decode)
      (.array (s.transitionQueue.map (·.toJson))) s.transitionQueue :=
    inverts_list fun q hq => QueuedTransition.inverts (hordered _ (queued_mem_values hq)).items
  have hevents : Inverts (list Event.decode) (.array (s.eventQueue.map (·.toJson))) s.eventQueue :=
    inverts_list fun e he => Event.inverts (hordered _ (event_mem_values he)).items
  have hhistory := inverts_list_map (b := (·.withoutNull)) fun h (hh : h ∈ s.history) =>
    HistoryEntry.inverts (htimes _ (List.mem_cons_of_mem _ (List.mem_map_of_mem hh)))
      (fun e he => (hordered _ (recorded_mem_values hh he)).items) fun v hv =>
        hordered v (data_mem_values hh hv)
  intro room
  cases room with
  | zero => rfl
  | succ room =>
    have hdepth : s.toJson.depth ≤ room + 1 ↔
        (Value.array (s.transitionQueue.map (·.toJson))).depth ≤ room ∧
          (Value.array (s.eventQueue.map (·.toJson))).depth ≤ room ∧
            (Value.array (s.history.map (·.toJson))).depth ≤ room := by
      simp [toJson]
    rw [decode, toJson, record_ofValue, Option.bind_eq_bind, Option.bind_some, ← toJson]
    · simp only [hdepth, ite_and, List.map, required, withDefault, Json.Decode.optional,
        Option.bind_eq_bind,
        hversion.bind, hid.bind, hmachine.bind, htaken.bind, hdefinition.bind, hactive.bind,
        htransitions.bind,
        hevents.bind, hhistory.bind, Value.depth_nat, Value.depth_string,
        Value.depth_ofOption_string, Nat.zero_le,
        if_true]
      rfl
    · rfl
    · decide

theorem legible_toJson (hversion : s.version < 2 ^ 32)
    (h : ∀ v ∈ s.values, v.Legible) : s.toJson.Legible := by
  have hnumber : (Value.nat s.version).Legible := .number (Number.legible_int (by omega) (by omega))
  have hactive : (Value.ofOption .string s.activeState).Legible := .ofOption fun _ _ => .string
  have hentry : ∀ e ∈ s.history, e.toJson.Legible := fun e he =>
    HistoryEntry.legible (fun f hf => h _ (recorded_mem_values he hf)) fun v hv =>
      h v (data_mem_values he hv)
  refine .object ?_
  simp only [List.forall_mem_cons, List.not_mem_nil, false_implies, implies_true, and_true]
  refine ⟨hnumber, .string, .string, .string, .string, hactive, .array ?_, .array ?_, .array ?_⟩
  · exact List.forall_mem_map.mpr fun q hq => q.legible (h _ (queued_mem_values hq))
  · exact List.forall_mem_map.mpr fun e he => e.legible (h _ (event_mem_values he))
  · exact List.forall_mem_map.mpr hentry

/-- The JSON form, with null data lost. -/
theorem parse_render (hversion : s.version = currentVersion) (hlegible : ∀ v ∈ s.values, v.Legible)
    (hordered : ∀ v ∈ s.values, v.Ordered) (htimes : ∀ t ∈ s.times, t.Proper) :
    parse s.render =
      if s.toJson.depth ≤ Tree.maxDepth then .ok s.withoutNulls
        else .error .deserializationFailed := by
  have hbound : s.version < 2 ^ 32 := by rw [hversion]; decide
  have hchecked : s.withoutNulls.checkVersion =
    .ok () := by rw [checkVersion, withoutNulls, if_pos hversion]
  rw [parse, Json.Decode.text, render, Value.parse_pretty (legible_toJson hbound hlegible),
    Option.bind_some, inverts hbound hordered htimes]
  by_cases hdepth : s.toJson.depth ≤ Tree.maxDepth
  · rw [if_pos hdepth, if_pos hdepth]
    dsimp only
    rw [hchecked]
    rfl
  · rw [if_neg hdepth, if_neg hdepth]

/-- What is read of the two forms. -/
structure ReadBack (s : Snapshot) : Prop where
  bytes : ofBytes s.toBytes = .ok s
  text : parse s.render =
    if s.toJson.depth ≤ Tree.maxDepth then .ok s.withoutNulls else .error .deserializationFailed
  agree : parse s.render = ofBytes s.toBytes ↔
    s.toJson.depth ≤ Tree.maxDepth ∧ ∀ h ∈ s.history, h.data ≠ some .null

theorem readBack (hversion : s.version = currentVersion)
    (hvalues : ∀ v ∈ s.values, v.Legible ∧ v.Ordered ∧ v.depth ≤ Tree.maxDepth)
    (htimes : ∀ t ∈ s.times, t.Proper) (hsize : s.toBytes.length < 2 ^ 64) : s.ReadBack := by
  have hlegible : ∀ v ∈ s.values, v.Legible := fun v hv => (hvalues v hv).1
  have hordered : ∀ v ∈ s.values, v.Ordered := fun v hv => (hvalues v hv).2.1
  have hcompact : ∀ v ∈ s.values, Value.parse v.compact = some v := fun v hv => by
    rw [Value.parse_compact_eq (hlegible v hv) (hordered v hv), if_pos (hvalues v hv).2.2]
  have hread := readBytes_toBytes (by rw [hversion]; decide)
    (fun args hargs => hcompact _ (List.mem_append_left _ (List.mem_map_of_mem hargs)))
    (fun v hv => hcompact v (List.mem_append_right _ hv)) htimes hsize []
  have hbytes : ofBytes s.toBytes = .ok s := by
    rw [List.append_nil] at hread
    rw [ofBytes, hread]
    dsimp only
    rw [checkVersion, if_pos hversion]
    rfl
  have htext := parse_render hversion hlegible hordered htimes
  refine ⟨hbytes, htext, ?_⟩
  rw [htext, hbytes, ← withoutNulls_eq_self]
  split
  · rename_i hdepth
    rw [Except.ok.injEq]
    exact ⟨fun h => ⟨hdepth, h⟩, fun h => h.2⟩
  · rename_i hdepth
    refine iff_of_false (fun h => ?_) fun h => absurd h.1 hdepth
    cases h

end Snapshot

/-! ## Snapshots of machines -/

namespace World

variable {σ κ : Type}

/-- A snapshot of the machine with its own records. -/
def snapshot (w : World σ κ) (id : Uuid) (takenAt : Instant) : Snapshot :=
  .capture id takenAt w.machine w.records

theorem snapshot_readBack (w : World σ κ) (id : Uuid) (takenAt : Instant)
    (hvalues : ∀ v ∈ (w.snapshot id takenAt).values, v.Legible ∧ v.Ordered ∧
      v.depth ≤ Tree.maxDepth)
    (htimes : ∀ t ∈ (w.snapshot id takenAt).times, t.Proper)
    (hsize : (w.snapshot id takenAt).toBytes.length < 2 ^ 64) : (w.snapshot id takenAt).ReadBack :=
  Snapshot.readBack rfl hvalues htimes hsize

end World

/-- The linear machine in its first state, with a transition and an event queued, and a record of
the start. -/
def annotated : World Unit Unit :=
  { linearWorld with
    machine :=
      { linearWorld.machine with
        active := some ⟨0⟩
        pending := some ⟨⟨0⟩, [.nat 42]⟩
        events := [⟨"late", [.bool true]⟩] }
    logs := linearWorld.logs.append linearWorld.machine.history
      { time := ⟨0, 0, 0⟩, previous := none, transition := none, new := ⟨0⟩,
        event := none, trigger := none
        data := some (.object [("by", .string "ada"), ("seen", .array [.null])]) } }

theorem snapshot_readBack_annotated :
    (∀ v ∈ (annotated.snapshot (.ofNat 1) ⟨0, 0, 0⟩).values, v.Legible ∧ v.Ordered ∧
      v.depth ≤ Tree.maxDepth) ∧
      (∀ t ∈ (annotated.snapshot (.ofNat 1) ⟨0, 0, 0⟩).times, t.Proper) ∧
      (annotated.snapshot (.ofNat 1) ⟨0, 0, 0⟩).toBytes.length < 2 ^ 64 ∧
      (annotated.snapshot (.ofNat 1) ⟨0, 0, 0⟩).ReadBack := by
  have hlist : (annotated.snapshot (.ofNat 1) ⟨0, 0, 0⟩).values =
      [.array [.nat 42], .array [.bool true],
        .object [("by", .string "ada"), ("seen", .array [.null])]] := rfl
  have hnumber : (Value.nat 42).Legible := .number (Number.legible_int (by decide) (by decide))
  have hvalues : ∀ v ∈ (annotated.snapshot (.ofNat 1) ⟨0, 0, 0⟩).values,
      v.Legible ∧ v.Ordered ∧ v.depth ≤ Tree.maxDepth := by
    rw [hlist]
    simp only [List.forall_mem_cons, List.not_mem_nil, false_implies, implies_true, and_true]
    refine ⟨⟨.array ?_, .array ?_, by decide⟩, ⟨.array ?_, .array ?_, by decide⟩,
      .object ?_, .object (by decide) ?_, by decide⟩ <;>
      simp only [List.forall_mem_cons, List.not_mem_nil, false_implies, implies_true, and_true]
    · exact hnumber
    · exact .number
    · exact .bool
    · exact .bool
    · exact ⟨.string, .array (List.forall_mem_singleton.mpr .null)⟩
    · exact ⟨.string, .array (List.forall_mem_singleton.mpr .null)⟩
  have htimes : ∀ t ∈ (annotated.snapshot (.ofNat 1) ⟨0, 0, 0⟩).times, t.Proper := by
    have hlist : (annotated.snapshot (.ofNat 1) ⟨0, 0, 0⟩).times = [⟨0, 0, 0⟩, ⟨0, 0, 0⟩] := rfl
    have hproper : Instant.Proper ⟨0, 0, 0⟩ := ⟨by decide, by decide, by decide⟩
    rw [hlist]
    simpa using hproper
  have hsize : (annotated.snapshot (.ofNat 1) ⟨0, 0, 0⟩).toBytes.length <
    2 ^ 64 := by decide +kernel
  exact ⟨hvalues, htimes, hsize,
    annotated.snapshot_readBack (.ofNat 1) ⟨0, 0, 0⟩ hvalues htimes hsize⟩

/-- The linear machine with null for the data of its records. -/
def tacit : World Unit Unit :=
  linearWorld.mapMachine fun m => { m with options := m.options.withHistoryData .null }

def tacitStarted : World Unit Unit := Host.silent.next 3 (.start []) tacit

def tacitSnapshot : Snapshot := tacitStarted.snapshot (.ofNat 1) ⟨0, 0, 0⟩

def isNull : Value → Bool
  | .null => true
  | _ => false

theorem eq_null_of_isNull {v : Value} (h : isNull v = true) : v = .null := by
  cases v with
  | null => rfl
  | _ => exact absurd h nofun

/-- Once started, it has a snapshot that only the binary form gives back. -/
theorem not_parse_render_tacit : Host.silent.Step (.start []) tacit tacitStarted ∧
    Snapshot.ofBytes tacitSnapshot.toBytes = .ok tacitSnapshot ∧
    Snapshot.parse tacitSnapshot.render ≠ .ok tacitSnapshot := by
  have hstep : Host.silent.completes 3 (.start []) tacit = true := by decide +kernel
  have hnulls : tacitSnapshot.values.all isNull = true := by decide +kernel
  have hdata : tacitSnapshot.history.any (·.data.any isNull) = true := by decide +kernel
  have htimes : ∀ t ∈ tacitSnapshot.times, t = ⟨0, 0, 0⟩ := by decide +kernel
  have hread : tacitSnapshot.ReadBack := by
    refine Snapshot.readBack (by decide +kernel) (fun v hv => ?_) (fun t ht => ?_)
      (by decide +kernel)
    · rw [eq_null_of_isNull (List.all_eq_true.mp hnulls v hv)]
      exact ⟨.null, .null, Nat.zero_le _⟩
    · rw [htimes t ht]
      exact ⟨by decide, by decide, by decide⟩
  refine ⟨Host.step_next hstep, hread.bytes, fun h => ?_⟩
  obtain ⟨e, he, hnull⟩ := List.any_eq_true.mp hdata
  refine (hread.agree.mp (h.trans hread.bytes.symm)).2 e he ?_
  cases hv : e.data with
  | none =>
    rw [hv] at hnull
    exact absurd hnull nofun
  | some v =>
    rw [hv] at hnull
    rw [eq_null_of_isNull hnull]

end Statechart
