import Switchyard.Proofs.Json.CanonicalText
import Switchyard.Proofs.Store.Reached
import Switchyard.Proofs.Write.EditOutcome

/-!
# Edits that change nothing

An edit is left out if the checksum of the candidate is the stored one.  Checksums are computed over
the row of a record without the stamp of its commit (`Record.contentRow`), and the canonical text of
this row tells everything about the record but the stamp.  So, unless the hash collides on the two
texts, an edit is left out exactly if the candidate has the same content as the record that the
checksum was taken of (`edit_unchanged_iff_sameContent`).

What is not proved here but assumed, and of the two records only: that their floats are told apart
by their text (`Json.TellsApart`), and that the hash does not collide (`Record.NoCollision`).
-/

set_option autoImplicit false

namespace Switchyard

/-! ## Content -/

/-- Two cells agree: floats bit for bit. -/
def ColumnKind.Agree : (kind : ColumnKind) → kind.Value → kind.Value → Prop
  | real, x, y => Float.toBits x = Float.toBits y
  | _, v, w => v = w

/-- Each of the cells agrees with its counterpart. -/
def Cells.Agree : (columns : List Column) → Cells columns → Cells columns → Prop
  | [], _, _ => True
  | c :: cs, (v, vs), (w, ws) => c.kind.Agree v w ∧ Agree cs vs ws

/-- A float is told by its bits. -/
theorem float_toBits_inj {x y : Float} : x.toBits = y.toBits ↔ x = y := by
  refine ⟨fun h => ?_, congrArg Float.toBits⟩
  obtain ⟨⟨bits, _⟩⟩ := x
  obtain ⟨⟨bits', _⟩⟩ := y
  obtain rfl : bits = bits' := h
  rfl

theorem ColumnKind.agree_iff {kind : ColumnKind} {v w : kind.Value} : kind.Agree v w ↔ v = w := by
  cases kind with
  | real => exact float_toBits_inj
  | _ => exact .rfl

theorem Cells.agree_iff {columns : List Column} {vs ws : Cells columns} :
    Agree columns vs ws ↔ vs = ws := by
  induction columns with
  | nil => simp [Agree]
  | cons c cs ih =>
    obtain ⟨v, vs⟩ := vs
    obtain ⟨w, ws⟩ := ws
    rw [Agree, ColumnKind.agree_iff, ih, Prod.mk.injEq]

namespace Record

variable {α : Type} [Record α] {r s : α}

/-- Two records agree in everything but the commit that they are stamped with. -/
structure SameContent (r s : α) : Prop where
  mrid : mrid r = mrid s
  cells : Cells.Agree (columns α) (cells r) (cells s)

/-- The row that the checksum of a record is computed over. -/
def contentRow (r : α) : Json := encode (stamp .unset r)

/-- The text of the row that the checksum of a record is computed over. -/
def contentBytes (r : α) : List UInt8 := (contentRow r).canonicalBytes

/-- The hash tells the texts of two records apart, if they are different. -/
def NoCollision (r s : α) : Prop :=
  Checksum.sha256 (contentBytes r) = Checksum.sha256 (contentBytes s) →
    contentBytes r = contentBytes s

instance : Decidable (NoCollision r s) := inferInstanceAs (Decidable (_ → _))

/-- A record that JSON can hold is told by its row. -/
theorem encode_inj (hr : Storable r) (hs : Storable s) : encode r = encode s ↔ r = s := by
  refine ⟨fun h => ?_, congrArg encode⟩
  have hdecode := decode?_encode r
  rw [h, decode?_encode, if_pos hr, if_pos hs] at hdecode
  exact (Option.some.inj hdecode).symm

theorem stamp_eq_stamp_iff {id : CommitId} : stamp id r = stamp id s ↔ SameContent r s := by
  constructor
  · intro h
    have hmrid := congrArg Versioned.mrid h
    have hcells := congrArg cells h
    rw [mrid_stamp, mrid_stamp] at hmrid
    rw [cells_stamp, cells_stamp] at hcells
    exact ⟨hmrid, Cells.agree_iff.2 hcells⟩
  · intro h
    rw [stamp, stamp, h.mrid, Cells.agree_iff.1 h.cells]

/-- The row that a checksum is computed over tells the content. -/
theorem contentRow_inj (hr : Storable r) (hs : Storable s) :
    contentRow r = contentRow s ↔ SameContent r s := by
  rw [contentRow, contentRow, encode_inj (storable_stamp.2 hr) (storable_stamp.2 hs),
    stamp_eq_stamp_iff]

/-- **Records have the same text exactly if they have the same content.** -/
theorem contentBytes_inj (hr : Storable r) (hs : Storable s)
    (htell : Json.TellsApart (contentRow r).floats (contentRow s).floats) :
    contentBytes r = contentBytes s ↔ SameContent r s := by
  rw [contentBytes, contentBytes, Json.canonicalBytes_inj htell, contentRow_inj hr hs]

/-- **Records have the same checksum exactly if they have the same content.** -/
theorem checksum_inj (hr : Storable r) (hs : Storable s)
    (htell : Json.TellsApart (contentRow r).floats (contentRow s).floats)
    (hsha : NoCollision r s) : checksum r = checksum s ↔ SameContent r s := by
  have hchecksum : checksum r = checksum s ↔ contentRow r = contentRow s :=
    Json.checksum_inj htell hsha
  rw [hchecksum, contentRow_inj hr hs]

end Record

/-! ## Storing and fetching -/

namespace Backend

variable {α : Type} [Record α] {before after : Backend} {p : Predicate} {rs news : List α}

/-- Whatever is asked for, new records come after those that were there. -/
theorem fetch_append (hbefore : before.fetch α p = .ok rs) (houtage : after.outage = before.outage)
    (hrows : after.store.rows (Record.table α) =
      before.store.rows (Record.table α) ++ news.map Record.encode)
    (hstorable : ∀ r ∈ news, Record.Storable r) :
    after.fetch α p = .ok (rs ++ news.filter fun r => p.holds (Record.encode r)) := by
  obtain ⟨hquery, hdecode⟩ := fetch_eq_ok_iff.1 hbefore
  refine fetch_eq_ok_iff.2 ⟨by rw [houtage, hquery], ?_⟩
  rw [hrows, List.filter_append, List.filter_map]
  exact decodeRows_append hdecode
    (decodeRows_map_encode fun r hr => hstorable r (List.mem_filter.1 hr).1)

/-- The last of the new records is the last one that is fetched, if it is asked for at all. -/
theorem exists_fetch_concat (hbefore : before.fetch α p = .ok rs)
    (houtage : after.outage = before.outage) {r : α}
    (hrows : after.store.rows (Record.table α) =
      before.store.rows (Record.table α) ++ (news ++ [r]).map Record.encode)
    (hnews : ∀ s ∈ news, Record.Storable s) (hr : Record.Storable r)
    (hholds : p.holds (Record.encode r) = true) :
    ∃ earlier, after.fetch α p = .ok (earlier ++ [r]) := by
  have hstorable : ∀ s ∈ news ++ [r], Record.Storable s :=
    List.forall_mem_append.2 ⟨hnews, by simpa using hr⟩
  rw [fetch_append hbefore houtage hrows hstorable, List.filter_append,
    List.filter_singleton, hholds, ← List.append_assoc]
  exact ⟨_, rfl⟩

end Backend

/-- After a single record was written, it is the last one in its table. -/
theorem Persisted.exists_rows_eq_concat {before after : Backend} {commit : Commit} {modelId : Int32}
    {α : Type} [Record α] [Registered α] {r : α}
    (h : Persisted before after commit [Entity.of r modelId] [Batch.ofRecords [r]]) :
    ∃ news : List α, after.store.rows (Record.table α) =
        before.store.rows (Record.table α) ++ (news ++ [r]).map Record.encode ∧
      ∀ s ∈ news, Record.Storable s := by
  have hidentity : (Batch.ofRecords [Entity.of r modelId]).HoldsRecords :=
    Batch.holdsEach_ofRecords fun e _ => Record.storable_of_forall_ne_real (by decide) e
  obtain ⟨news, hnews, hstorable⟩ :=
    Contents.exists_rowsOf_eq (List.forall_mem_singleton.2 hidentity) α
  refine ⟨news, ?_, hstorable⟩
  have hlast : Contents.rowsOf (Record.table α) [Batch.ofRecords [r]] = [Record.encode r] := by
    rw [Contents.rowsOf_singleton, if_pos (by rfl)]
    rfl
  rw [Contents.rowsOf_singleton] at hnews
  rw [h.rows_eq, hlast, List.map_append, ← hnews]
  simp only [eq_comm (a := Record.table α)]
  rfl

/-- The ways to store a record: as what it is stored, and the backend that it is stored in then. -/
inductive StoredAs {α : Type} [Record α] (before : Backend) (r : α) : α → Backend → Prop where
  | seeded : StoredAs before r r { before with store := before.store.seed [r] }
  | written {modelId : Int32} {note : CommitNote} {limit : Option Nat} {id : CommitId}
    (h : (before.write modelId note limit (SingleVersion.mk r)).result = .ok id) :
    StoredAs before r (Record.stamp id r)
      (before.write modelId note limit (SingleVersion.mk r)).backend

namespace StoredAs

variable {before after : Backend} {α : Type} [Record α] {r stored : α}

/-- Storing a record does not change its checksum. -/
theorem checksum_eq (h : StoredAs before r stored after) :
    Record.checksum stored = Record.checksum r := by
  cases h with
  | seeded => rfl
  | written => exact Record.checksum_stamp _ r

/-- A record that was stored is fetched by every query that its row fulfils. -/
theorem exists_fetch (h : StoredAs before r stored after) [Registered α] (hr : Record.Storable r)
    {p : Predicate} {rs : List α} (hbefore : before.fetch α p = .ok rs)
    (hholds : p.holds (Record.encode stored) = true) :
    ∃ earlier, after.fetch α p = .ok (earlier ++ [stored]) := by
  cases h with
  | seeded =>
    have hrows : (before.store.seed [r]).rows (Record.table α) =
        before.store.rows (Record.table α) ++ ([] ++ [r]).map Record.encode := by
      rw [Store.seed, Store.rows_seedBatch, if_pos (by rfl)]
      rfl
    have houtage : ({ before with store := before.store.seed [r] } : Backend).outage =
        before.outage := rfl
    exact Backend.exists_fetch_concat hbefore houtage hrows (by simp) hr hholds
  | written hok =>
    have hpersisted := persisted_of_write hok rfl
    obtain ⟨news, hrows, hnews⟩ := Persisted.exists_rows_eq_concat hpersisted
    exact Backend.exists_fetch_concat hbefore hpersisted.outage_eq hrows hnews
      (Record.storable_stamp.2 hr) hholds

end StoredAs

/-! ## Edits -/

/-- **An edit is left out exactly if it changes nothing.**  For records with finite floats, the text
that checksums are computed over is the same exactly if the records agree in everything but the
stamp.  So an edit is left out, and the store stays as it is, exactly if they agree; any other edit
is committed as long as the store accepts its rows.  It does not matter whether the checksum was
taken before the record was stored or after it was fetched back. -/
theorem edit_unchanged_iff_sameContent {α : Type} [Record α] [Registered α] {current candidate : α}
    (hcurrent : Record.Storable current) (hcandidate : Record.Storable candidate)
    (htell : Json.TellsApart (Record.contentRow current).floats
      (Record.contentRow candidate).floats)
    (hsha : Record.NoCollision current candidate) :
    (Record.contentBytes current = Record.contentBytes candidate ↔
        Record.SameContent current candidate) ∧
      (∀ (b : Backend) (modelId : Int32) (note : CommitNote),
        let out := b.commitIfChanged modelId note (Record.checksum current) candidate
        (out.result = .ok .unchanged ↔ Record.SameContent current candidate) ∧
          (out.result = .ok .unchanged → out.backend = b) ∧
          (¬ Record.SameContent current candidate → b.Accepts none [.entities, Record.table α] →
            out.result = .ok (.committed b.store.nextCommitId))) ∧
      ∀ (before after : Backend) (stored : α), StoredAs before current stored after →
        Record.checksum stored = Record.checksum current ∧
          ∀ (p : Predicate) (rs : List α), before.fetch α p = .ok rs →
            p.holds (Record.encode stored) = true →
            ∃ earlier, after.fetch α p = .ok (earlier ++ [stored]) := by
  refine ⟨Record.contentBytes_inj hcurrent hcandidate htell, fun b modelId note => ?_,
    fun before after stored h => ⟨h.checksum_eq, fun p rs => h.exists_fetch hcurrent⟩⟩
  intro out
  have hchecksum : Record.checksum candidate = Record.checksum current ↔
      Record.SameContent current candidate := by
    rw [eq_comm, Record.checksum_inj hcurrent hcandidate htell hsha]
  exact ⟨Backend.edit_eq_unchanged_iff.trans hchecksum, Backend.backend_of_edit_eq_unchanged,
    fun hdiffers haccepts =>
      Backend.edit_eq_committed_iff.2 ⟨mt hchecksum.1 hdiffers, rfl, haccepts⟩⟩

/-- A name that takes in a bit of the text around it is a change all the same; a stamp is none. -/
theorem edit_unchanged_iff_sameContent_quotedName :
    let note : CommitNote := { message := "m", author := "a" }
    let current : BaseVoltage :=
      { mrid := .ofNat 1, commitId := ⟨5⟩, name := "a", shortName := "b", nominalVoltage := 110.0 }
    let renamed : BaseVoltage := { current with name := "a\",\"short_name\":\"b", shortName := "" }
    let restamped : BaseVoltage := { current with commitId := ⟨9⟩ }
    let b : Backend := { store := ({} : Store).seed [current] }
    (b.commitIfChanged 1 note (Record.checksum current) renamed).result = .ok (.committed ⟨6⟩) ∧
      (b.commitIfChanged 1 note (Record.checksum current) restamped).result = .ok .unchanged ∧
      (b.commitIfChanged 1 note (Record.checksum current) restamped).backend = b := by
  intro note current renamed restamped b
  have haccepts : b.Accepts none [.entities, Record.table BaseVoltage] :=
    ⟨rfl, by decide, by decide, by simp, rfl⟩
  have hcurrent : Record.Storable current := by decide +kernel
  have hrenamed : Record.Storable renamed := by decide +kernel
  have hrestamped : Record.Storable restamped := by decide +kernel
  obtain ⟨-, -, hcommitted⟩ := (edit_unchanged_iff_sameContent hcurrent hrenamed
    (by decide +kernel) (by decide +kernel)).2.1 b 1 note
  obtain ⟨hunchanged, hbackend, -⟩ := (edit_unchanged_iff_sameContent hcurrent hrestamped
    (by decide +kernel) fun _ => rfl).2.1 b 1 note
  have hsame : Record.SameContent current restamped := ⟨rfl, Cells.agree_iff.2 rfl⟩
  refine ⟨hcommitted (fun h => ?_) haccepts, hunchanged.2 hsame, hbackend (hunchanged.2 hsame)⟩
  have hname : current.name = renamed.name :=
    congrArg (fun cells => cells.2.1) (Cells.agree_iff.1 h.cells)
  exact absurd hname (by decide)

end Switchyard
