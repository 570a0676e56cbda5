import Mathlib.Data.List.Perm.Basic
import Switchyard.Payload
import Switchyard.Proofs.Record.Reference

/-!
# What a payload is decoded to

A payload offers a record field by field, under the names of its columns.  `Payload.Offers` says
which cell it offers for a column: the one that it holds, or a blank one where it leaves the column
out.  There are four outcomes (`Payload.Outcome`).  Decoding fails if the payload is no object, if
it leaves columns out that it may not leave out, or if some field does not hold a value of its
column, and the first of these reasons counts.  Otherwise the record has exactly the cells that the
payload offers.  Nothing else in a payload matters (`decode_never_fills_in`).
-/

set_option autoImplicit false

namespace Switchyard

/-! ## Cells with their columns -/

namespace Cells

/-- Every cell with its column. -/
def entries : (columns : List Column) → Cells columns → List ((c : Column) × c.kind.Value)
  | [], _ => []
  | c :: cs, (v, vs) => ⟨c, v⟩ :: entries cs vs

variable {columns : List Column} {read : (c : Column) → Option c.kind.Value}

variable (columns) in
theorem mem_of_mem_entries {vs : Cells columns} {entry : (c : Column) × c.kind.Value}
    (h : entry ∈ entries columns vs) : entry.1 ∈ columns := by
  induction columns with
  | nil => exact absurd h List.not_mem_nil
  | cons c cs ih =>
    rcases List.mem_cons.1 h with rfl | h
    · exact List.mem_cons_self
    · exact List.mem_cons_of_mem c (ih h)

/-- Every column has its cell. -/
theorem exists_mem_entries {c : Column} (hc : c ∈ columns) (vs : Cells columns) :
    ∃ v, ⟨c, v⟩ ∈ entries columns vs := by
  induction columns with
  | nil => exact absurd hc List.not_mem_nil
  | cons d ds ih =>
    obtain ⟨w, ws⟩ := vs
    rcases List.mem_cons.1 hc with rfl | hc
    · exact ⟨w, List.mem_cons_self⟩
    · exact (ih hc ws).imp fun _ => List.mem_cons_of_mem _

/-- JSON can hold cells if it can hold each of them. -/
theorem storable_iff {vs : Cells columns} :
    Storable columns vs ↔ ∀ entry ∈ entries columns vs, entry.1.kind.Storable entry.2 := by
  induction columns with
  | nil => simp [Storable, entries]
  | cons c cs ih => simp [Storable, entries, ih]

/-- The fields of a row hold each cell under the name of its column. -/
theorem lookup_fields {vs : Cells columns} (hnodup : (columns.map Column.name).Nodup)
    {entry : (c : Column) × c.kind.Value} (h : entry ∈ entries columns vs) :
    (fields columns vs).lookup entry.1.name = some (entry.1.kind.encode entry.2) := by
  induction columns with
  | nil => exact absurd h List.not_mem_nil
  | cons c cs ih =>
    obtain ⟨v, vs⟩ := vs
    obtain ⟨hc, hcs⟩ := List.nodup_cons.1 hnodup
    rcases List.mem_cons.1 h with rfl | h
    · simp [fields]
    · have hname : entry.1.name ∈ cs.map Column.name :=
        List.mem_map_of_mem (mem_of_mem_entries cs h)
      have hne : (entry.1.name == c.name) = false :=
        beq_false_of_ne fun heq => hc (heq ▸ hname)
      rw [fields, List.lookup_cons, hne]
      exact ih hcs h

/-- **The cells that are read are those that every column reads.** -/
theorem build?_eq_some_iff {vs : Cells columns} :
    build? read columns = some vs ↔ ∀ entry ∈ entries columns vs, read entry.1 = some entry.2 := by
  induction columns with
  | nil => simp [build?, entries]
  | cons c cs ih =>
    obtain ⟨v, vs⟩ := vs
    rw [build?, entries, List.forall_mem_cons, ← ih]
    constructor
    · intro h
      split at h
      · rename_i w ws hw hws
        obtain ⟨rfl, rfl⟩ := Prod.mk.inj (Option.some.inj h)
        exact ⟨hw, hws⟩
      · simp at h
    · rintro ⟨hv, hvs⟩
      simp only at hv
      rw [hv, hvs]

/-- One column that cannot be read is enough to fail. -/
theorem build?_eq_none_iff : build? read columns = none ↔ ∃ c ∈ columns, read c = none := by
  induction columns with
  | nil => simp [build?]
  | cons c cs ih =>
    simp only [build?, List.mem_cons, exists_eq_or_imp, ← ih]
    cases read c <;> cases build? read cs <;> simp

end Cells

/-- Every cell of a record with its column, those of the version key first. -/
def Record.entries {α : Type} [Record α] (r : α) : List ((c : Column) × c.kind.Value) :=
  Cells.entries (schema α) (allCells r)

/-- The row of a record holds each cell under the name of its column. -/
theorem Record.get?_encode {α : Type} [Record α] {r : α} {entry : (c : Column) × c.kind.Value}
    (h : entry ∈ entries r) :
    (encode r).get? entry.1.name = some (entry.1.kind.encode entry.2) := by
  have hnodup : ((schema α).map Column.name).Nodup := nodup_names
  exact @Cells.lookup_fields (schema α) (allCells r) hnodup entry h

namespace Payload

variable {α : Type} [Record α] {payload : Json} {allowed : List String}

/-! ## What a payload offers -/

/-- The cell that a payload offers for a column: the one that it holds, or a blank one. -/
def Offers (payload : Json) (c : Column) (v : c.kind.Value) : Prop :=
  match payload.get? c.name with
  | some value => c.kind.decode value = some v
  | none => v = c.kind.blank

/-- The payload holds something for the column that is no value of it. -/
def Misfits (payload : Json) (c : Column) : Prop :=
  ∃ value, payload.get? c.name = some value ∧ c.kind.decode value = none

/-- The column is neither in the payload nor may it be left out. -/
def Lacks (payload : Json) (allowed : List String) (c : Column) : Prop :=
  payload.get? c.name = none ∧ c.name ∉ allowed

/-- The names are those of some columns of a record type, each of them once and in ascending
order. -/
structure Names (α : Type) [Record α] (which : Column → Prop) (names : List String) : Prop where
  ascending : names.Pairwise (· < ·)
  mem_iff : ∀ name, name ∈ names ↔ ∃ c ∈ Record.schema α, c.name = name ∧ which c

theorem readOrBlank?_eq_some_iff {c : Column} {v : c.kind.Value} :
    c.readOrBlank? payload = some v ↔ Offers payload c v := by
  rw [Column.readOrBlank?, Offers]
  cases payload.get? c.name with
  | some value => exact .rfl
  | none => rw [Option.some.injEq, eq_comm]

theorem readOrBlank?_eq_none_iff {c : Column} :
    c.readOrBlank? payload = none ↔ Misfits payload c := by
  rw [Column.readOrBlank?, Misfits]
  cases payload.get? c.name with
  | some value => simp
  | none => simp

theorem ofPayload?_eq_some_iff {r : α} :
    Record.ofPayload? payload = some r ↔
      ∀ entry ∈ Record.entries r, Offers payload entry.1 entry.2 := by
  have hbuild : Cells.build? (·.readOrBlank? payload) (Record.schema α) =
      some (Record.allCells r) ↔ ∀ entry ∈ Record.entries r, Offers payload entry.1 entry.2 := by
    rw [Cells.build?_eq_some_iff]
    simp only [readOrBlank?_eq_some_iff, Record.entries]
  rw [Record.ofPayload?, Option.map_eq_some_iff, ← hbuild]
  constructor
  · rintro ⟨vs, hvs, rfl⟩
    rw [hvs, Record.allCells_ofAllCells]
  · exact fun h => ⟨_, h, Record.ofAllCells_allCells r⟩

theorem ofPayload?_eq_none_iff :
    (Record.ofPayload? payload : Option α) = none ↔ ∃ c ∈ Record.schema α, Misfits payload c := by
  rw [Record.ofPayload?, Option.map_eq_none_iff, Cells.build?_eq_none_iff]
  simp only [readOrBlank?_eq_none_iff]

/-! ## What a payload leaves out -/

theorem mem_schemaNames_iff {name : String} :
    name ∈ Record.schemaNames α ↔ ∃ c ∈ Record.schema α, c.name = name := by
  rw [Record.schemaNames, List.mem_mergeSort, List.mem_map]

/-- The names of the columns come in strictly ascending order. -/
theorem schemaNames_ascending (α : Type) [Record α] :
    (Record.schemaNames α).Pairwise (· < ·) := by
  have htrans (a b c : String) (hab : decide (a ≤ b) = true) (hbc : decide (b ≤ c) = true) :
      decide (a ≤ c) = true := by
    simp only [decide_eq_true_eq] at hab hbc ⊢
    exact String.le_trans hab hbc
  have htotal (a b : String) : (decide (a ≤ b) || decide (b ≤ a)) = true := by
    simp only [Bool.or_eq_true, decide_eq_true_eq]
    exact String.le_total a b
  have hsorted := List.pairwise_mergeSort htrans htotal ((Record.schema α).map Column.name)
  have hnodup : (Record.schemaNames α).Nodup :=
    (List.mergeSort_perm _ _).nodup_iff.2 Record.nodup_names
  refine hsorted.imp₂ (fun a b hle hne => ?_) hnodup
  exact String.not_le.1 fun h => hne (String.le_antisymm (of_decide_eq_true hle) h)

/-- Names are told by the columns that they belong to. -/
theorem Names.eq {which : Column → Prop} {names names' : List String} (h : Names α which names)
    (h' : Names α which names') : names = names' := by
  have hne {a b : String} (hlt : a < b) : a ≠ b := fun heq => String.lt_irrefl b (heq ▸ hlt)
  have hperm : names.Perm names' :=
    (List.perm_ext_iff_of_nodup (h.ascending.imp hne) (h'.ascending.imp hne)).2 fun name => by
      rw [h.mem_iff, h'.mem_iff]
  refine hperm.eq_of_pairwise (fun a b _ _ hab hba => ?_) h.ascending h'.ascending
  exact absurd (String.lt_trans hab hba) (String.lt_irrefl a)

/-- The keys of an object are those under which something can be looked up. -/
theorem not_mem_keys_iff {fields : List (String × Json)} {name : String} :
    name ∉ fields.map Prod.fst ↔ (Json.obj fields).get? name = none := by
  rw [Json.get?, List.lookup_eq_none_iff, List.mem_map]
  simp only [bne_iff_ne, ne_eq, not_exists, not_and]
  exact forall₂_congr fun p _ => not_congr eq_comm

/-- **The columns that are found unset are those that the payload lacks.** -/
theorem names_unset (α : Type) [Record α] (fields : List (String × Json))
    (allowed : List String) :
    Names α (Lacks (.obj fields) allowed)
      (unset (Record.schemaNames α) (fields.map Prod.fst) allowed) where
  ascending := (schemaNames_ascending α).filter _
  mem_iff name := by
    simp only [unset, List.mem_filter, mem_schemaNames_iff, Bool.and_eq_true, Bool.not_eq_true',
      List.contains_eq_mem, decide_eq_false_iff_not, not_mem_keys_iff, Lacks]
    constructor
    · rintro ⟨⟨c, hc, rfl⟩, h⟩
      exact ⟨c, hc, rfl, h⟩
    · rintro ⟨c, hc, rfl, h⟩
      exact ⟨⟨c, hc, rfl⟩, h⟩

/-! ## Outcomes -/

/-- The payload is an object and lacks no column. -/
structure IsComplete (α : Type) [Record α] (payload : Json) (allowed : List String) : Prop where
  isObject : payload.IsObject
  not_lacks : ∀ c ∈ Record.schema α, ¬ Lacks payload allowed c

/-- How decoding a payload may end, and when. -/
inductive Outcome (payload : Json) (allowed : List String) : Except PayloadError α → Prop where
  | notAnObject (h : ¬ payload.IsObject) : Outcome payload allowed (.error .notAnObject)
  /-- All columns that the payload lacks are listed, whatever else is wrong with it. -/
  | unsetFields {names : List String} (hobject : payload.IsObject) (hne : names ≠ [])
      (hnames : Names α (Lacks payload allowed) names) :
      Outcome payload allowed (.error (.unsetFields names))
  | malformed {c : Column} (hcomplete : IsComplete α payload allowed) (hc : c ∈ Record.schema α)
      (hmisfits : Misfits payload c) : Outcome payload allowed (.error .malformed)
  | ok {r : α} (hcomplete : IsComplete α payload allowed)
      (hoffers : ∀ entry ∈ Record.entries r, Offers payload entry.1 entry.2) :
      Outcome payload allowed (.ok r)

theorem isObject_iff : payload.IsObject ↔ ∃ fields, payload = .obj fields := by
  cases payload <;> simp [Json.IsObject, Json.fields?]

theorem isComplete_obj_iff {fields : List (String × Json)} :
    IsComplete α (.obj fields) allowed ↔
      unset (Record.schemaNames α) (fields.map Prod.fst) allowed = [] := by
  have hnames := names_unset α fields allowed
  rw [List.eq_nil_iff_forall_not_mem]
  simp only [hnames.mem_iff]
  constructor
  · rintro h name ⟨c, hc, -, hlacks⟩
    exact h.not_lacks c hc hlacks
  · exact fun h => ⟨rfl, fun c hc hlacks => h c.name ⟨c, hc, rfl, hlacks⟩⟩

theorem decode_of_not_isObject (h : ¬ payload.IsObject) :
    decode α payload allowed = .error .notAnObject := by
  cases payload with
  | obj fields => exact absurd rfl h
  | _ => rfl

/-- A complete payload is decoded cell by cell. -/
theorem decode_of_isComplete (h : IsComplete α payload allowed) :
    decode α payload allowed = (Record.ofPayload? payload).elim (.error .malformed) .ok := by
  obtain ⟨fields, rfl⟩ := isObject_iff.1 h.isObject
  rw [isComplete_obj_iff] at h
  rw [decode, validate, h]
  cases (Record.ofPayload? (.obj fields) : Option α) with
  | some r => rfl
  | none => rfl

/-- An incomplete object is refused with the names of the columns that it lacks. -/
theorem exists_names_of_not_isComplete (hobject : payload.IsObject)
    (h : ¬ IsComplete α payload allowed) :
    ∃ names, decode α payload allowed = .error (.unsetFields names) ∧ names ≠ [] ∧
      Names α (Lacks payload allowed) names := by
  obtain ⟨fields, rfl⟩ := isObject_iff.1 hobject
  have hnames := names_unset α fields allowed
  rw [isComplete_obj_iff] at h
  rw [decode, validate]
  revert h hnames
  cases unset (Record.schemaNames α) (fields.map Prod.fst) allowed with
  | nil => exact fun h _ => absurd rfl h
  | cons name names => exact fun h hnames => ⟨_, rfl, h, hnames⟩

/-- A complete payload lacks no column that could be listed. -/
theorem IsComplete.not_names (h : IsComplete α payload allowed) {names : List String}
    (hne : names ≠ []) : ¬ Names α (Lacks payload allowed) names := by
  intro hnames
  obtain ⟨name, hname⟩ := List.exists_mem_of_ne_nil _ hne
  obtain ⟨c, hc, -, hlacks⟩ := (hnames.mem_iff name).1 hname
  exact h.not_lacks c hc hlacks

/-- **Decoding has one of the four outcomes.** -/
theorem decode_outcome (α : Type) [Record α] (payload : Json) (allowed : List String) :
    Outcome payload allowed (decode α payload allowed) := by
  by_cases hobject : payload.IsObject
  · by_cases hcomplete : IsComplete α payload allowed
    · rw [decode_of_isComplete hcomplete]
      cases h : (Record.ofPayload? payload : Option α) with
      | some r => exact .ok hcomplete (ofPayload?_eq_some_iff.1 h)
      | none =>
        obtain ⟨c, hc, hmisfits⟩ := ofPayload?_eq_none_iff.1 h
        exact .malformed hcomplete hc hmisfits
    · obtain ⟨names, heq, hne, hnames⟩ := exists_names_of_not_isComplete hobject hcomplete
      rw [heq]
      exact .unsetFields hobject hne hnames
  · rw [decode_of_not_isObject hobject]
    exact .notAnObject hobject

/-- No two outcomes are possible at once. -/
theorem Outcome.decode_eq {result : Except PayloadError α} (h : Outcome payload allowed result) :
    decode α payload allowed = result := by
  cases h with
  | notAnObject h => exact decode_of_not_isObject h
  | unsetFields hobject hne hnames =>
    obtain ⟨names', heq, -, hnames'⟩ := exists_names_of_not_isComplete hobject
      fun hcomplete => hcomplete.not_names hne hnames
    rw [heq, hnames'.eq hnames]
  | malformed hcomplete hc hmisfits =>
    rw [decode_of_isComplete hcomplete, ofPayload?_eq_none_iff.2 ⟨_, hc, hmisfits⟩,
      Option.elim_none]
  | ok hcomplete hoffers =>
    rw [decode_of_isComplete hcomplete, ofPayload?_eq_some_iff.2 hoffers, Option.elim_some]

/-! ## Fields of no column -/

/-- The payload without the fields that belong to no column of a record type. -/
def restrict (α : Type) [Record α] : Json → Json
  | .obj fields => .obj (fields.filter fun field => field.1 ∈ (Record.schema α).map Column.name)
  | payload => payload

theorem isObject_restrict (α : Type) [Record α] (payload : Json) :
    (restrict α payload).IsObject ↔ payload.IsObject := by
  cases payload <;> rfl

theorem get?_restrict {c : Column} (hc : c ∈ Record.schema α) :
    (restrict α payload).get? c.name = payload.get? c.name := by
  cases payload with
  | obj fields =>
    have hname : c.name ∈ (Record.schema α).map Column.name := List.mem_map_of_mem hc
    simp only [restrict, Json.get?]
    induction fields with
    | nil => rfl
    | cons field rest ih =>
      obtain ⟨key, value⟩ := field
      by_cases hkey : c.name = key
      · subst hkey
        rw [List.filter_cons_of_pos (by simpa using hname)]
        simp
      · have hbeq : (c.name == key) = false := beq_false_of_ne hkey
        rw [List.lookup_cons, hbeq, List.filter_cons]
        split
        · rw [List.lookup_cons, hbeq, ih]
        · exact ih
  | _ => rfl

theorem lacks_restrict {c : Column} (hc : c ∈ Record.schema α) :
    Lacks (restrict α payload) allowed c ↔ Lacks payload allowed c := by
  rw [Lacks, Lacks, get?_restrict hc]

theorem IsComplete.of_restrict (h : IsComplete α (restrict α payload) allowed) :
    IsComplete α payload allowed where
  isObject := (isObject_restrict α payload).1 h.isObject
  not_lacks c hc := mt (lacks_restrict hc).2 (h.not_lacks c hc)

/-- **Fields of no column do not matter.** -/
theorem Outcome.of_restrict {result : Except PayloadError α}
    (h : Outcome (restrict α payload) allowed result) : Outcome payload allowed result := by
  cases h with
  | notAnObject h => exact .notAnObject (mt (isObject_restrict α payload).2 h)
  | unsetFields hobject hne hnames =>
    refine .unsetFields ((isObject_restrict α payload).1 hobject) hne
      ⟨hnames.ascending, fun name => ?_⟩
    rw [hnames.mem_iff]
    refine exists_congr fun c => and_congr_right fun hc => and_congr_right fun _ => ?_
    exact lacks_restrict hc
  | malformed hcomplete hc hmisfits =>
    rw [Misfits, get?_restrict hc] at hmisfits
    exact .malformed hcomplete.of_restrict hc hmisfits
  | ok hcomplete hoffers =>
    refine .ok hcomplete.of_restrict fun entry hentry => ?_
    have hoffer := hoffers entry hentry
    rwa [Offers, get?_restrict (Cells.mem_of_mem_entries _ hentry)] at hoffer

/-! ## The row of a record -/

theorem isComplete_encode (r : α) (allowed : List String) :
    IsComplete α (Record.encode r) allowed where
  isObject := rfl
  not_lacks c hc hlacks := by
    rw [Lacks, Record.encode, ← not_mem_keys_iff, Record.map_fst_fields] at hlacks
    exact hlacks.1 (List.mem_map_of_mem hc)

/-- **The row of a record offers the record**, unless one of its floats is not finite. -/
theorem outcome_encode (r : α) (allowed : List String) :
    Outcome (Record.encode r) allowed
      (if Record.Storable r then .ok r else .error .malformed) := by
  have hdecode {entry : (c : Column) × c.kind.Value} (hentry : entry ∈ Record.entries r) :
      entry.1.readOrBlank? (Record.encode r) =
        if entry.1.kind.Storable entry.2 then some entry.2 else none := by
    rw [Column.readOrBlank?, Record.get?_encode hentry]
    exact ColumnKind.decode_encode _ _
  have hstorable : Record.Storable r ↔
      ∀ entry ∈ Record.entries r, entry.1.kind.Storable entry.2 := by
    rw [← Record.storable_allCells, Cells.storable_iff, Record.entries]
  split
  · rename_i h
    refine .ok (isComplete_encode r allowed) fun entry hentry => ?_
    rw [← readOrBlank?_eq_some_iff, hdecode hentry, if_pos (hstorable.1 h entry hentry)]
  · rename_i h
    simp only [hstorable, not_forall] at h
    obtain ⟨entry, hentry, h⟩ := h
    refine .malformed (isComplete_encode r allowed) (Cells.mem_of_mem_entries _ hentry) ?_
    rw [← readOrBlank?_eq_none_iff, hdecode hentry, if_neg h]

/-- **Decoding a payload never fills a field in silently.**  Whatever the payload and whatever it
may leave out, decoding has just the outcome that `Outcome` allows, so each of the errors arises
exactly when it should, and a record has the cells that the payload offers.  Fields of no column do
not matter.  The row of a record is decoded to the record, unless one of its floats is not
finite. -/
theorem decode_never_fills_in (α : Type) [Record α] (payload : Json) (allowed : List String) :
    (∀ result, decode α payload allowed = result ↔ Outcome payload allowed result) ∧
      decode α payload allowed = decode α (restrict α payload) allowed ∧
      ∀ r : α, decode α (Record.encode r) allowed =
        if Record.Storable r then .ok r else .error .malformed := by
  refine ⟨fun result => ⟨?_, Outcome.decode_eq⟩, ?_, fun r => (outcome_encode r allowed).decode_eq⟩
  · rintro rfl
    exact decode_outcome α payload allowed
  · exact (decode_outcome α (restrict α payload) allowed).of_restrict.decode_eq

end Payload

end Switchyard
