import Switchyard.Load.Active
import Switchyard.Proofs.Record.Reference
import Switchyard.Proofs.Version.Resolution

/-!
# Loading is resolving and then filtering

`Backend.loadActive` never sees the whole table: it asks for the rows that match, and then for the
history of the assets that have one.  If every row of the table can be read, the outcome is the
same as resolving the whole table and filtering the active records, provided that the condition can
look into every row (`loadActive_eq_of_sees`).  It can if the record type has no rows without names
(`loadActive_eq`).
-/

set_option autoImplicit false

namespace Switchyard

/-! ## Results -/

section Results

variable {ε α β : Type} {x : Except ε α}

theorem toOption_eq_some_iff {a : α} : x.toOption = some a ↔ x = .ok a := by
  cases x <;> simp [Except.toOption]

theorem exists_eq_ok_of_isOk (h : x.isOk = true) : ∃ a, x = .ok a := by
  cases x with
  | error e => simp [Except.isOk, Except.toBool] at h
  | ok a => exact ⟨a, rfl⟩

/-- A result that was reached in two steps was reached in each of them. -/
theorem bind_eq_ok_iff {f : α → Except ε β} {y : β} :
    x >>= f = .ok y ↔ ∃ a, x = .ok a ∧ f a = .ok y := by
  cases x <;> simp [bind, Except.bind]

end Results

/-! ## Records without floats -/

theorem Cells.storable_of_forall_ne_real {columns : List Column}
    (h : ∀ c ∈ columns, c.kind ≠ .real) (vs : Cells columns) : Storable columns vs := by
  induction columns with
  | nil => trivial
  | cons c cs ih =>
    obtain ⟨v, vs⟩ := vs
    refine ⟨?_, ih (fun d hd => h d (List.mem_cons_of_mem c hd)) vs⟩
    obtain ⟨name, kind⟩ := c
    cases kind with
    | real => exact absurd rfl (h _ List.mem_cons_self)
    | _ => trivial

/-- JSON can hold every record of a type without float columns. -/
theorem Record.storable_of_forall_ne_real {α : Type} [Record α]
    (h : ∀ c ∈ columns α, c.kind ≠ .real) (r : α) : Storable r :=
  Cells.storable_of_forall_ne_real h _

namespace Backend

variable {α : Type} [Record α] {b : Backend} {rows : List Json} {rs : List α} {p : Predicate}

/-! ## Reading rows -/

theorem decodeRows_cons_eq_ok_iff {row : Json} :
    decodeRows α (row :: rows) = .ok rs ↔
      ∃ (r : α) (rest : List α),
        Record.decode? row = some r ∧ decodeRows α rows = .ok rest ∧ rs = r :: rest := by
  rw [decodeRows]
  cases hrow : (Record.decode? row : Option α) with
  | none => simp
  | some r =>
    cases hrest : decodeRows α rows with
    | error e => simp [Except.map]
    | ok rest => simp [Except.map, eq_comm]

/-- Reading the rows that match is choosing among the records. -/
theorem decodeRows_filter (hp : p.Reads α) (hsees : ∀ row ∈ rows, p.Sees row)
    (h : decodeRows α rows = .ok rs) :
    decodeRows α (rows.filter p.holds) = .ok (rs.filter fun r => p.holds (Record.encode r)) := by
  induction rows generalizing rs with
  | nil =>
    rw [← Except.ok.inj h]
    rfl
  | cons row rows ih =>
    obtain ⟨r, rest, hrow, hrest, rfl⟩ := decodeRows_cons_eq_ok_iff.1 h
    obtain ⟨hsee, hsees⟩ := List.forall_mem_cons.1 hsees
    have hholds := Predicate.holds_encode hp hsee hrow
    by_cases hmatch : p.holds row = true
    · rw [List.filter_cons_of_pos hmatch, List.filter_cons, if_pos (hholds.trans hmatch)]
      exact decodeRows_cons_eq_ok_iff.2 ⟨r, _, hrow, ih hsees hrest, rfl⟩
    · rw [List.filter_cons_of_neg hmatch, List.filter_cons, if_neg (by rwa [hholds])]
      exact ih hsees hrest

/-- Rows can be read together if each of them can. -/
theorem decodeRows_eq_ok_iff :
    decodeRows α rows = .ok rs ↔ rows.map Record.decode? = rs.map some := by
  induction rows generalizing rs with
  | nil => cases rs <;> simp [decodeRows]
  | cons row rows ih =>
    rw [decodeRows_cons_eq_ok_iff, List.map_cons]
    constructor
    · rintro ⟨r, rest, hrow, hrest, rfl⟩
      rw [List.map_cons, hrow, ih.1 hrest]
    · intro hmap
      obtain ⟨r, rest, rfl, hrow, hrest⟩ := List.map_eq_cons_iff.1 hmap.symm
      exact ⟨r, rest, hrow.symm, ih.2 hrest.symm, rfl⟩

/-- Rows that can be read are objects, if the type has no rows without names. -/
theorem isObject_of_decodeRows (hnamed : Record.isPositional α = false)
    (h : decodeRows α rows = .ok rs) : ∀ row ∈ rows, row.IsObject := by
  intro row hrow
  have hmem : Record.decode? row ∈ rs.map some :=
    decodeRows_eq_ok_iff.1 h ▸ List.mem_map_of_mem hrow
  obtain ⟨r, -, hread⟩ := List.mem_map.1 hmem
  exact Record.isObject_of_decode? hnamed hread.symm

/-- Each record is read from one of the rows. -/
theorem exists_row_of_mem_decodeRows (h : decodeRows α rows = .ok rs) {r : α} (hr : r ∈ rs) :
    ∃ row ∈ rows, Record.decode? row = some r := by
  rw [← List.mem_map, decodeRows_eq_ok_iff.1 h]
  exact List.mem_map_of_mem hr

theorem decodeRows_append {rows' : List Json} {rs' : List α} (h : decodeRows α rows = .ok rs)
    (h' : decodeRows α rows' = .ok rs') : decodeRows α (rows ++ rows') = .ok (rs ++ rs') := by
  rw [decodeRows_eq_ok_iff] at *
  rw [List.map_append, List.map_append, h, h']

/-- Rows of records without infinities and NaN read back. -/
theorem decodeRows_map_encode (h : ∀ r ∈ rs, Record.Storable r) :
    decodeRows α (rs.map Record.encode) = .ok rs := by
  rw [decodeRows_eq_ok_iff, List.map_map]
  refine List.map_congr_left fun r hr => ?_
  rw [Function.comp_apply, Record.decode?_encode, if_pos (h r hr)]

/-! ## Fetching -/

/-- Rows can be fetched if the queries of their table are answered and all that match can be
read. -/
theorem fetch_eq_ok_iff {p : Predicate} :
    b.fetch α p = .ok rs ↔
      b.outage.query (Record.table α) = none ∧
        decodeRows α ((b.store.rows (Record.table α)).filter p.holds) = .ok rs := by
  rw [fetch, query, Store.query]
  cases b.outage.query (Record.table α) <;> simp [answerUnless]

/-- A whole table can be fetched if its queries are answered and its rows can be read. -/
theorem fetch_all_eq_ok_iff :
    b.fetch α .all = .ok rs ↔
      b.outage.query (Record.table α) = none ∧
        decodeRows α (b.store.rows (Record.table α)) = .ok rs := by
  have hall : (b.store.rows (Record.table α)).filter Predicate.all.holds =
      b.store.rows (Record.table α) := List.filter_eq_self.2 fun _ _ => rfl
  rw [fetch_eq_ok_iff, hall]

/-- Records that are seeded come after those that are there. -/
theorem fetch_all_seed {store : Store} {news : List α} (old : List α)
    (hold : ({ store } : Backend).fetch α .all = .ok old) (h : ∀ r ∈ news, Record.Storable r) :
    ({ store := store.seed news } : Backend).fetch α .all = .ok (old ++ news) := by
  have hbatch : (Batch.ofRecords news).table = Record.table α := rfl
  refine fetch_all_eq_ok_iff.2 ⟨rfl, ?_⟩
  show decodeRows α ((store.seed news).rows (Record.table α)) = _
  rw [Store.seed, Store.rows_seedBatch, if_pos hbatch]
  exact decodeRows_append (fetch_all_eq_ok_iff.1 hold).2 (decodeRows_map_encode h)

/-- Records of another table that are seeded are not there to be fetched. -/
theorem fetch_all_seed_other {β : Type} [Record β] {store : Store} {others : List β}
    (hother : Record.table β ≠ Record.table α) :
    ({ store := store.seed others } : Backend).fetch α .all =
      ({ store } : Backend).fetch α .all := by
  have hbatch : (Batch.ofRecords others).table ≠ Record.table α := hother
  simp only [fetch, query, Store.query]
  rw [Store.seed, Store.rows_seedBatch, if_neg hbatch, List.append_nil]

/-- A store that was seeded with records has them. -/
theorem fetch_all_seeded (h : ∀ r ∈ rs, Record.Storable r) :
    ({ store := ({} : Store).seed rs } : Backend).fetch α .all = .ok rs :=
  fetch_all_seed [] rfl h

/-- Fetching the rows that match is choosing among all records. -/
theorem fetch_eq (hp : p.Reads α) (hsees : ∀ row ∈ b.store.rows (Record.table α), p.Sees row)
    (h : b.fetch α .all = .ok rs) :
    b.fetch α p = .ok (rs.filter fun r => p.holds (Record.encode r)) := by
  obtain ⟨houtage, hrows⟩ := fetch_all_eq_ok_iff.1 h
  rw [fetch, query, houtage]
  exact decodeRows_filter hp hsees hrows

/-- **Loading is resolving and then filtering.** -/
theorem loadActive_eq_of_sees (hp : p.Reads α)
    (hsees : ∀ row ∈ b.store.rows (Record.table α), p.Sees row) (h : b.fetch α .all = .ok rs) :
    b.loadActive α p =
      .ok ((Version.active rs).filter fun r => p.holds (Record.encode r)) := by
  rw [loadActive, fetch_eq hp hsees h]
  dsimp only
  split
  · rename_i heq
    subst heq
    simp
  · rename_i hne
    -- whatever is active and matches is a version that matches
    have hmatched {r : α} (hr : r ∈ Version.active rs)
        (hholds : p.holds (Record.encode r) = true) :
        r ∈ rs.filter fun r => p.holds (Record.encode r) :=
      List.mem_filter.2 ⟨Version.mem_of_mem_latest (Version.mem_active_iff.1 hr).1, hholds⟩
    split
    · rename_i hempty
      rw [eq_comm, Except.ok.injEq, List.filter_eq_nil_iff]
      intro r hr hholds
      have hmem := hmatched hr hholds
      rw [List.isEmpty_iff.1 hempty] at hmem
      exact absurd hmem (by simp)
    · have hobjects : ∀ row ∈ b.store.rows (Record.table α), row.IsObject :=
        fun row hrow => (hsees row hrow).resolve_left hne
      rw [fetch_eq (Predicate.reads_mridIn _) (fun row hrow => .inr (hobjects row hrow)) h]
      simp only [Predicate.holds_mridIn_encode]
      rw [Version.active_filter, List.filter_filter]
      refine congrArg Except.ok (List.filter_congr fun r hr => ?_)
      by_cases hholds : p.holds (Record.encode r) = true
      · simpa [hholds] using ⟨r, List.mem_filter.1 (hmatched hr hholds), rfl⟩
      · simp [hholds]

/-- If the type has no rows without names, every condition can look into its rows. -/
theorem sees_of_fetch (hnamed : Record.isPositional α = false) (h : b.fetch α .all = .ok rs)
    (p : Predicate) : ∀ row ∈ b.store.rows (Record.table α), p.Sees row := fun row hrow =>
  .inr (isObject_of_decodeRows hnamed (fetch_all_eq_ok_iff.1 h).2 row hrow)

/-- Loading is resolving and then filtering, for a type that has no rows without names. -/
theorem loadActive_eq (hp : p.Reads α) (hnamed : Record.isPositional α = false)
    (h : b.fetch α .all = .ok rs) :
    b.loadActive α p =
      .ok ((Version.active rs).filter fun r => p.holds (Record.encode r)) :=
  loadActive_eq_of_sees hp (sees_of_fetch hnamed h p) h

end Backend

end Switchyard
