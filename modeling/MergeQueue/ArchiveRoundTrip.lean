import MergeQueue.RetryArchive

/-!
# The round trip through the archive

An archive that only captures have written always verifies, and its ids lie
below the high-water marks of the live tables.  So a restore puts every archived
row back, and an archive that verifies although it was altered carries digests
that no capture wrote.
-/

namespace MergeQueue

namespace RetryArchive

/-! ## Live tables -/

namespace LiveTable

variable {s : Source} {t t' : LiveTable s} {columns : List (RawColumn s)} {row : RawRow s}

theorem seq_le_highWater (t : LiveTable s) : (t.seq.getD 0 : ℤ) ≤ t.highWater := le_max_right _ _

theorem highWater_le {n : ℤ} (hn : (t.seq.getD 0 : ℤ) ≤ n) : t.highWater ≤ n := by
  refine max_le ?_ hn
  cases hmax : t.ids.max? with
  | none =>
      have : (0 : ℤ) ≤ t.seq.getD 0 := Int.natCast_nonneg _
      simpa using this.trans hn
  | some m =>
      obtain ⟨r, hr, rfl⟩ := List.mem_map.mp (List.max?_mem hmax)
      exact (t.issued r hr).trans hn

theorem highWater_eq (t : LiveTable s) : t.highWater = t.seq.getD 0 :=
  le_antisymm (highWater_le le_rfl) t.seq_le_highWater

theorem le_highWater {id : ℤ} (h : id ∈ t.ids) : id ≤ t.highWater := by
  obtain ⟨r, hr, rfl⟩ := List.mem_map.mp h
  exact (t.issued r hr).trans t.seq_le_highWater

theorem eq_of_rowId_eq (t : LiveTable s) {r r' : RawRow s} (hr : r ∈ t.rows) (hr' : r' ∈ t.rows)
    (h : rowId r = rowId r') : r = r' :=
  List.inj_on_of_nodup_map t.unique hr hr' h

theorem insert_eq_ok (h : t.insert columns row = .ok t') :
    t'.rows = t.rows ++ [row] ∧ t'.highWater = max t.highWater (rowId row) := by
  unfold insert at h
  split_ifs at h
  rw [← Except.ok.inj h]
  refine ⟨rfl, ?_⟩
  rw [highWater_eq, highWater_eq]
  simp only [Option.getD_some]
  omega

theorem insert_of_free (hid : row .id = .int (rowId row)) (hfree : rowId row ∉ t.ids)
    (hnull : ∀ c ∈ columns, c.nullable = false → row c.column ≠ .null) :
    ∃ t', t.insert columns row = .ok t' := by
  refine ⟨_, (dif_pos ⟨hid, hfree⟩).trans (if_neg ?_)⟩
  rintro ⟨c, hc, hnullable, hvalue⟩
  exact hnull c hc hnullable hvalue

theorem one_of_mem {r : RawRow s} (hr : r ∈ t.rows) : t.one (rowId r) = .ok r := by
  unfold one
  cases hfind : t.rows.find? (rowId · = rowId r) with
  | none => simpa using List.find?_eq_none.mp hfind r hr
  | some r' =>
      have hid : rowId r' = rowId r := by simpa using List.find?_some hfind
      rw [t.eq_of_rowId_eq (List.mem_of_find?_eq_some hfind) hr hid]

theorem update_eq_ok {id : ℤ} (h : t.update columns id row = .ok t') :
    t'.ids = t.ids ∧ t'.seq = t.seq := by
  unfold update at h
  split_ifs at h
  rw [← Except.ok.inj h]
  refine ⟨?_, rfl⟩
  simp only [ids, List.map_map]
  refine List.map_congr_left fun r _ ↦ ?_
  simp only [Function.comp_apply]
  split_ifs with hr
  · rw [rowId_withId, hr]
  · rfl

/-- What a live table may become without giving an id out twice. -/
structure Grows (t t' : LiveTable s) : Prop where
  highWater_le : t.highWater ≤ t'.highWater
  new : ∀ id ∈ t'.ids, id ∈ t.ids ∨ t.highWater < id

namespace Grows

theorem refl (t : LiveTable s) : Grows t t := ⟨le_rfl, fun _ h ↦ .inl h⟩

theorem of_sublist (hseq : t.highWater ≤ t'.highWater) (h : ∀ id ∈ t'.ids, id ∈ t.ids) :
    Grows t t' := ⟨hseq, fun id hid ↦ .inl (h id hid)⟩

theorem delete (t : LiveTable s) (id : ℤ) : Grows t (t.delete id) := by
  refine of_sublist (by rw [highWater_eq, highWater_eq]; rfl) fun n hn ↦ ?_
  obtain ⟨r, hr, rfl⟩ := List.mem_map.mp hn
  exact List.mem_map.mpr ⟨r, List.mem_of_mem_filter hr, rfl⟩

theorem update {id : ℤ} (h : t.update columns id row = .ok t') : Grows t t' := by
  obtain ⟨hids, hseq⟩ := update_eq_ok h
  refine of_sublist ?_ fun n hn ↦ by rwa [hids] at hn
  rw [highWater_eq, highWater_eq, hseq]

theorem insert (h : t.insert columns (row.withId t.nextId) = .ok t') : Grows t t' := by
  obtain ⟨hrows, hwater⟩ := insert_eq_ok h
  refine ⟨by rw [hwater]; exact le_max_left _ _, fun n hn ↦ ?_⟩
  rw [ids, hrows, List.map_append, List.mem_append] at hn
  refine hn.imp_right fun hn ↦ ?_
  rw [List.map_singleton, List.mem_singleton, rowId_withId] at hn
  rw [hn, nextId]
  omega

end Grows

theorem advance_highWater (t : LiveTable s) (n : ℤ) :
    (t.advance n).highWater = max t.highWater n := by
  have hwater := t.highWater_eq
  rw [highWater_eq (t.advance n)]
  simp only [advance, Option.getD_some]
  omega

end LiveTable

/-! ## Reading the archive -/

theorem forSources_eq_ok {α : Source → Type} {f : (s : Source) → Except String (α s)}
    {g : (s : Source) → α s} : forSources f = .ok g ↔ ∀ s, f s = .ok (g s) := by
  simp only [forSources, bind_eq_ok]
  constructor
  · rintro ⟨retry, hretry, dlq, hdlq, h⟩ s
    rw [← Except.ok.inj h]
    cases s
    · exact hretry
    · exact hdlq
  · intro h
    exact ⟨_, h .retryQueue, _, h .dlq, by rw [bySource_eta]⟩

/-- The manifests of captures that no restore acknowledged. -/
def ArchiveTables.pending (tables : ArchiveTables) : List Manifest :=
  tables.manifests.filter (·.archiveId ≠ controlId)

def ArchiveTables.batch (tables : ArchiveTables) (manifest : Manifest) : Batch :=
  { manifest := manifest, rows := tables.batchRows manifest }

def ArchiveTables.batches (tables : ArchiveTables) : List Batch :=
  tables.pending.map tables.batch

section Read

variable {sha256 : String → String} {tables : ArchiveTables} {manifest : Manifest}

theorem readBatch_eq_ok_iff {batch : Batch} : readBatch sha256 tables manifest = .ok batch ↔
    (manifest.owner = owner ∧ manifest.formatVersion = 1 ∧
      manifest.targetRevision = Revision.previous.name) ∧
    (∃ schema, loadSchema manifest = some schema ∧
      ∀ s, checkBatch sha256 manifest schema s (tables.batchRows manifest s) = .ok ()) ∧
    tables.batch manifest = batch := by
  rw [readBatch, ensure_bind_eq_ok]
  refine and_congr_right fun _ ↦ ?_
  cases hschema : loadSchema manifest with
  | none => simp
  | some schema =>
      simp only [bind_eq_ok, Option.some.injEq, exists_eq_left']
      constructor
      · rintro ⟨_, hretry, _, hdlq, h⟩
        exact ⟨fun s ↦ by cases s; exacts [hretry, hdlq], Except.ok.inj h⟩
      · rintro ⟨hchecked, hbatch⟩
        exact ⟨(), hchecked .retryQueue, (), hchecked .dlq, congrArg Except.ok hbatch⟩

/-- What `_read_archive` checks about the archive alone. -/
structure Verified (sha256 : String → String) (tables : ArchiveTables) : Prop where
  owned : ∀ s, ∀ row ∈ tables.archived s, row.archiveId ∈ tables.pending.map (·.archiveId)
  readable : ∀ manifest ∈ tables.pending,
    readBatch sha256 tables manifest = .ok (tables.batch manifest)
  distinct : ∀ s, (archivedIds tables.batches s).Nodup

theorem mapM_readBatch_eq_ok {manifests : List Manifest} {batches : List Batch} :
    manifests.mapM (readBatch sha256 tables) = .ok batches ↔
      (∀ manifest ∈ manifests, readBatch sha256 tables manifest = .ok (tables.batch manifest)) ∧
        manifests.map tables.batch = batches := by
  constructor
  · intro h
    have hread : List.Forall₂ (fun m b ↦ tables.batch m = b) manifests batches :=
      (mapM_eq_ok_iff.mp h).imp fun m b hmb ↦ (readBatch_eq_ok_iff.mp hmb).2.2
    have hbatches : manifests.map tables.batch = batches :=
      List.forall₂_eq_eq_eq ▸ List.forall₂_map_left_iff.mpr hread
    refine ⟨?_, hbatches⟩
    rw [← hbatches] at h
    exact List.forall₂_same.mp (List.forall₂_map_right_iff.mp (mapM_eq_ok_iff.mp h))
  · rintro ⟨hread, rfl⟩
    exact mapM_eq_ok_map hread

theorem checkIdentities_eq_ok {live : (s : Source) → LiveTable s} {batches : List Batch}
    {s : Source} {u : Unit} : checkIdentities live batches s = .ok u ↔
      (archivedIds batches s).Nodup ∧ ∀ id ∈ archivedIds batches s, id ∉ (live s).ids := by
  rw [checkIdentities, ensure_bind_eq_ok, ensure_eq_ok]

theorem readArchive_eq_ok_iff {live : (s : Source) → LiveTable s} {batches : List Batch} :
    readArchive sha256 live (some tables) = .ok batches ↔
      Verified sha256 tables ∧ (∀ s, ∀ id ∈ archivedIds tables.batches s, id ∉ (live s).ids) ∧
        tables.batches = batches := by
  rw [readArchive, ensure_bind_eq_ok]
  constructor
  · rintro ⟨howned, h⟩
    obtain ⟨bs, hbs, h⟩ := bind_eq_ok.mp h
    obtain ⟨_, hretry, h⟩ := bind_eq_ok.mp h
    obtain ⟨_, hdlq, h⟩ := bind_eq_ok.mp h
    obtain ⟨hreadable, hbatches⟩ := mapM_readBatch_eq_ok.mp hbs
    have hbatches : tables.batches = bs := hbatches
    subst hbatches
    have hidentities : ∀ s, (archivedIds tables.batches s).Nodup ∧
        ∀ id ∈ archivedIds tables.batches s, id ∉ (live s).ids
      | .retryQueue => checkIdentities_eq_ok.mp hretry
      | .dlq => checkIdentities_eq_ok.mp hdlq
    exact ⟨⟨howned, hreadable, fun s ↦ (hidentities s).1⟩, fun s ↦ (hidentities s).2,
      Except.ok.inj h⟩
  · rintro ⟨hverified, hapart, rfl⟩
    have hidentities : ∀ s, checkIdentities live tables.batches s = .ok () := fun s ↦
      checkIdentities_eq_ok.mpr ⟨hverified.distinct s, hapart s⟩
    refine ⟨hverified.owned, bind_eq_ok.mpr ⟨tables.batches, ?_, ?_⟩⟩
    · exact mapM_readBatch_eq_ok.mpr ⟨hverified.readable, rfl⟩
    · exact bind_eq_ok.mpr ⟨(), hidentities _, bind_eq_ok.mpr ⟨(), hidentities _, rfl⟩⟩

end Read

/-! ## What the digests bind -/

section Digests

variable {sha256 : String → String} {s : Source}

theorem Schema.text_injective : Function.Injective Schema.text := by
  rintro ⟨a⟩ ⟨b⟩ h
  have hjson := Json.render_injective h
  simpa [Schema.json, Schema.json.columnsJson, Schema.columns] using hjson

theorem Schema.exists_column (schema : Schema) (column : Column s) :
    ∃ c ∈ schema.columns s, c.column = column := by
  cases s <;> cases column <;> simp [Schema.columns]

/-- The values of a row that a schema admits. -/
def Compatible (schema : Schema) (row : RawRow s) : Prop :=
  ∀ c ∈ schema.columns s,
    row c.column = .null ∧ c.nullable = true ∨ (row c.column).fits c.kind = true

theorem validateRows_eq_ok {schema : Schema} {rows : List (RawRow s)} {u : Unit} :
    validateRows (schema.columns s) rows = .ok u ↔ ∀ row ∈ rows, Compatible schema row := by
  rw [validateRows, ensure_eq_ok]
  rfl

theorem Compatible.ne_blob {schema : Schema} {row : RawRow s} (h : Compatible schema row)
    (column : Column s) (bytes : List UInt8) : row column ≠ .blob bytes := by
  obtain ⟨c, hc, rfl⟩ := schema.exists_column column
  intro hblob
  rcases h c hc with ⟨hnull, -⟩ | hfits
  · rw [hnull] at hblob
    cases hblob
  · rw [hblob] at hfits
    cases hfits

theorem Compatible.id_eq {schema : Schema} {row : RawRow s} (h : Compatible schema row) :
    row .id = .int (rowId row) := by
  have hcolumn : ⟨.id, .integer, false⟩ ∈ schema.columns s := by
    cases s <;> simp [Schema.columns]
  rcases h _ hcolumn with ⟨-, hnullable⟩ | hfits
  · cases hnullable
  · cases hid : row .id with
    | int n => rw [rowId, hid]
    | null | text _ | blob _ => simp [hid, Value.fits] at hfits

theorem eq_of_json_eq {v w : Value} (hv : ∀ bytes, v ≠ .blob bytes) (hw : ∀ bytes, w ≠ .blob bytes)
    (h : v.json = w.json) : v = w := by
  cases v with
  | blob bytes => exact absurd rfl (hv bytes)
  | null | int _ | text _ =>
      cases w with
      | blob bytes => exact absurd rfl (hw bytes)
      | null | int _ | text _ => simp_all [Value.json]

theorem Compatible.eq_of_rowJson_eq {schema schema' : Schema} {row row' : RawRow s}
    (hrow : Compatible schema row) (hrow' : Compatible schema' row')
    (h : rowJson row = rowJson row') : row = row' := by
  funext column
  obtain ⟨c, hc, rfl⟩ := Schema.exists_column ⟨true⟩ column
  have hcells := List.map_inj_left.mp (Json.arr.inj h) c hc
  exact eq_of_json_eq (hrow.ne_blob _) (hrow'.ne_blob _) hcells

theorem eq_of_map_eq {α β : Type} {f : α → β} {xs ys : List α}
    (hf : ∀ x ∈ xs, ∀ y ∈ ys, f x = f y → x = y) (h : xs.map f = ys.map f) : xs = ys := by
  induction xs generalizing ys with
  | nil => simpa using h.symm
  | cons x xs ih =>
      cases ys with
      | nil => simp at h
      | cons y ys =>
          obtain ⟨hxy, hrest⟩ := List.cons.inj h
          have hhead : x = y := hf x (.head _) y (.head _) hxy
          have htail : xs = ys :=
            ih (fun a ha b hb ↦ hf a (.tail _ ha) b (.tail _ hb)) hrest
          rw [hhead, htail]

theorem sortById_perm (rows : List (RawRow s)) : (sortById rows).Perm rows :=
  List.mergeSort_perm _ _

/-- The digest of compatible rows determines them up to their order. -/
theorem perm_of_digest_eq (hsha : Function.Injective sha256) {schema schema' : Schema}
    {rows rows' : List (RawRow s)} (hrows : ∀ row ∈ rows, Compatible schema row)
    (hrows' : ∀ row ∈ rows', Compatible schema' row)
    (h : digest sha256 s rows = digest sha256 s rows') : rows.Perm rows' := by
  have hjson := Json.arr.inj (Json.render_injective (hsha h))
  have hsorted : sortById rows = sortById rows' := by
    refine eq_of_map_eq (fun row hrow row' hrow' hjson ↦ ?_) hjson
    have hmem := (sortById_perm rows).mem_iff.mp hrow
    have hmem' := (sortById_perm rows').mem_iff.mp hrow'
    exact (hrows row hmem).eq_of_rowJson_eq (hrows' row' hmem') hjson
  exact (sortById_perm rows).symm.trans (hsorted ▸ sortById_perm rows')

/-- Two manifests with the same context differ in their digests only. -/
theorem eq_of_context_eq {m m' : Manifest} (h : m.context = m'.context) :
    m' = { m with digest := m'.digest } := by
  simp only [Manifest.context, Json.obj.injEq, List.cons.injEq, Prod.mk.injEq, Json.str.injEq,
    Json.num.injEq, true_and, and_true] at h
  obtain ⟨hid, hdlq, hdlqWater, hversion, howner, hretry, hretryWater, hsource, hschema,
    htarget⟩ := h
  have hcount : m'.count = m.count := by
    funext s
    cases s
    exacts [hretry.symm, hdlq.symm]
  have hwater : m'.highWater = m.highWater := by
    funext s
    cases s
    exacts [hretryWater.symm, hdlqWater.symm]
  cases m
  cases m'
  simp_all

theorem batchDigest_inj (hsha : Function.Injective sha256) {m m' : Manifest}
    {rows rows' : List (RawRow s)}
    (h : batchDigest sha256 m s rows = batchDigest sha256 m' s rows') :
    m.context = m'.context ∧ digest sha256 s rows = digest sha256 s rows' := by
  have htext := congrArg String.toList h
  rw [batchDigest, batchDigest, String.toList_append, String.toList_append] at htext
  have hrender := hsha (String.toList_injective (List.append_cancel_left htext))
  have hjson := Json.arr.inj (Json.render_injective hrender)
  simp only [List.cons.injEq, Json.str.injEq, true_and, and_true] at hjson
  exact hjson

theorem checkBatch_eq_ok {m : Manifest} {schema : Schema} {rows : List (ArchivedRow s)} {u : Unit} :
    checkBatch sha256 m schema s rows = .ok u ↔
      (∀ row ∈ rows.map (·.row), Compatible schema row) ∧ (rows.length : ℤ) = m.count s ∧
        batchDigest sha256 m s (rows.map (·.row)) = m.digest s ∧
        (∀ row ∈ rows, digest sha256 s [row.row] = row.rowDigest) ∧
        (rows.map fun row ↦ rowId row.row).max?.getD 0 ≤ m.highWater s := by
  rw [checkBatch, bind_eq_ok]
  simp only [validateRows_eq_ok, ensure_eq_ok, exists_const]

/-- Archived rows that verify are determined by their archive id and their values. -/
theorem copies_eq {archiveId : String} {rows : List (ArchivedRow s)}
    (hid : ∀ row ∈ rows, row.archiveId = archiveId)
    (hdigest : ∀ row ∈ rows, digest sha256 s [row.row] = row.rowDigest) :
    copies sha256 archiveId (rows.map (·.row)) = rows := by
  rw [copies, List.map_map]
  refine (List.map_congr_left fun row hrow ↦ ?_).trans (List.map_id rows)
  rw [Function.comp_apply, hdigest row hrow, ← hid row hrow]
  rfl

/-- A batch whose digests are those of what it holds: of the manifest with the rows of each table,
and of each row. -/
structure SoundBatch (sha256 : String → String) (m : Manifest)
    (rows : (s : Source) → List (ArchivedRow s)) : Prop where
  supported : m.owner = owner ∧ m.formatVersion = 1 ∧ m.targetRevision = Revision.previous.name
  compatible : ∃ schema, loadSchema m = some schema ∧
    ∀ s, ∀ row ∈ rows s, Compatible schema row.row
  count : ∀ s, m.count s = (rows s).length
  digest : ∀ s, m.digest s = batchDigest sha256 m s ((rows s).map (·.row))
  rowDigest : ∀ s, ∀ row ∈ rows s, row.rowDigest = RetryArchive.digest sha256 s [row.row]
  issued : ∀ s, ((rows s).map fun row ↦ rowId row.row).max?.getD 0 ≤ m.highWater s

theorem readBatch_eq_ok_iff_sound {tables : ArchiveTables} {m : Manifest} :
    readBatch sha256 tables m = .ok (tables.batch m) ↔
      SoundBatch sha256 m (tables.batchRows m) := by
  rw [readBatch_eq_ok_iff]
  simp only [checkBatch_eq_ok, List.forall_mem_map]
  constructor
  · rintro ⟨hsupported, ⟨schema, hschema, hchecked⟩, -⟩
    exact
      { supported := hsupported
        compatible := ⟨schema, hschema, fun s ↦ (hchecked s).1⟩
        count := fun s ↦ (hchecked s).2.1.symm
        digest := fun s ↦ (hchecked s).2.2.1.symm
        rowDigest := fun s row hrow ↦ ((hchecked s).2.2.2.1 row hrow).symm
        issued := fun s ↦ (hchecked s).2.2.2.2 }
  · intro h
    obtain ⟨schema, hschema, hrows⟩ := h.compatible
    refine ⟨h.supported, ⟨schema, hschema, fun s ↦ ⟨hrows s, (h.count s).symm, (h.digest s).symm,
      fun row hrow ↦ (h.rowDigest s row hrow).symm, h.issued s⟩⟩, trivial⟩

/-- A sound batch with a digest that another one carries is that batch, but for the other digest
and the rows of the other table. -/
theorem SoundBatch.eq_of_digest_eq (hsha : Function.Injective sha256) {m m' : Manifest}
    {rows rows' : (s : Source) → List (ArchivedRow s)} (hm : SoundBatch sha256 m rows)
    (hm' : SoundBatch sha256 m' rows') (hid : ∀ row ∈ rows s, row.archiveId = m.archiveId)
    (hid' : ∀ row ∈ rows' s, row.archiveId = m'.archiveId) (h : m'.digest s = m.digest s) :
    m' = { m with digest := m'.digest } ∧ (rows' s).Perm (rows s) := by
  obtain ⟨schema, -, hrows⟩ := hm.compatible
  obtain ⟨schema', -, hrows'⟩ := hm'.compatible
  rw [hm.digest s, hm'.digest s] at h
  obtain ⟨hcontext, hsame⟩ := batchDigest_inj hsha h
  have hmanifest := eq_of_context_eq hcontext.symm
  have harchive : m'.archiveId = m.archiveId := by rw [hmanifest]
  refine ⟨hmanifest, ?_⟩
  have hperm := (perm_of_digest_eq hsha (List.forall_mem_map.mpr (hrows' s))
    (List.forall_mem_map.mpr (hrows s)) hsame).map
      fun row ↦ (⟨m.archiveId, row, RetryArchive.digest sha256 s [row]⟩ : ArchivedRow s)
  rw [← copies_eq hid fun row hrow ↦ (hm.rowDigest s row hrow).symm,
    ← copies_eq (fun row hrow ↦ (hid' row hrow).trans harchive)
      fun row hrow ↦ (hm'.rowDigest s row hrow).symm]
  exact hperm

end Digests

/-! ## Archives that only captures have written -/

/-- The archived rows, as the live table had them. -/
def Storage.archivedRows (db : Storage) (s : Source) : List (RawRow s) :=
  ((db.archived s).getD []).map (·.row)

def Storage.pending (db : Storage) : List Manifest :=
  (db.manifests.getD []).filter (·.archiveId ≠ controlId)

/-- An archive next to its live tables: it verifies, its ids were given out and are not in use. -/
structure KeptTables (sha256 : String → String) (live : (s : Source) → LiveTable s)
    (tables : ArchiveTables) : Prop where
  control : tables.manifests.find? (·.archiveId = controlId) = some (controlManifest sha256)
  named : (tables.manifests.map (·.archiveId)).Nodup
  verified : Verified sha256 tables
  ordered : ∀ s, tables.archived s = tables.batches.flatMap (·.rows s)
  covered : ∀ s, ∀ id ∈ archivedIds tables.batches s, id ≤ (live s).highWater
  apart : ∀ s, ∀ id ∈ archivedIds tables.batches s, id ∉ (live s).ids

def Kept (sha256 : String → String) (db : Storage) : Prop :=
  ∃ tables, createArchiveTables sha256 db = .ok tables ∧ KeptTables sha256 db.live tables

section Kept

variable {sha256 : String → String} {db : Storage} {tables : ArchiveTables}
  {live live' : (s : Source) → LiveTable s}

theorem archiveTables_withTables
    (h : tables.manifests.find? (·.archiveId = controlId) = some (controlManifest sha256)) :
    archiveTables sha256 (db.withTables tables) = .ok (some tables) := by
  simp only [archiveTables, Storage.withTables]
  rw [ensure_bind_eq_ok]
  rw [bySource_eta]
  exact ⟨h, rfl⟩

theorem archiveTables_eq_some (h : archiveTables sha256 db = .ok (some tables)) :
    db.manifests = some tables.manifests ∧ (∀ s, db.archived s = some (tables.archived s)) ∧
      tables.manifests.find? (·.archiveId = controlId) = some (controlManifest sha256) := by
  unfold archiveTables at h
  split at h
  · cases h
  · rename_i hmanifests hretry hdlq
    obtain ⟨hcontrol, htables⟩ := ensure_bind_eq_ok.mp h
    rw [← Option.some.inj (Except.ok.inj htables)]
    exact ⟨hmanifests, fun s ↦ by cases s; exacts [hretry, hdlq], hcontrol⟩
  · cases h

theorem archiveTables_eq_none (h : archiveTables sha256 db = .ok none) :
    db.manifests = none ∧ ∀ s, db.archived s = none := by
  unfold archiveTables at h
  split at h
  · rename_i hmanifests hretry hdlq
    exact ⟨hmanifests, fun s ↦ by cases s; exacts [hretry, hdlq]⟩
  · cases (ensure_bind_eq_ok.mp h).2
  · cases h

/-- The archive tables are the ones there are, or the new ones when there are none. -/
theorem archiveTables_of_create (h : createArchiveTables sha256 db = .ok tables) :
    archiveTables sha256 db = .ok (some tables) ∨ archiveTables sha256 db = .ok none ∧
      tables = { manifests := [controlManifest sha256], archived := fun _ ↦ [] } := by
  obtain ⟨o, ho, h⟩ := bind_eq_ok.mp h
  cases o with
  | some found => exact .inl (Except.ok.inj h ▸ ho)
  | none => exact .inr ⟨ho, (Except.ok.inj h).symm⟩

theorem archivedRows_of_create (h : createArchiveTables sha256 db = .ok tables) (s : Source) :
    db.archivedRows s = (tables.archived s).map (·.row) := by
  rw [Storage.archivedRows]
  rcases archiveTables_of_create h with hsome | ⟨hnone, rfl⟩
  · rw [(archiveTables_eq_some hsome).2.1 s]
    rfl
  · rw [(archiveTables_eq_none hnone).2 s]
    rfl

theorem pending_of_create (h : createArchiveTables sha256 db = .ok tables) :
    db.pending = tables.pending := by
  rw [Storage.pending]
  rcases archiveTables_of_create h with hsome | ⟨hnone, rfl⟩
  · rw [(archiveTables_eq_some hsome).1]
    rfl
  · rw [(archiveTables_eq_none hnone).1]
    simp [ArchiveTables.pending, controlManifest]

/-- An archive whose every batch was acknowledged. -/
theorem keptTables_of_empty
    (hcontrol : tables.manifests.find? (·.archiveId = controlId) = some (controlManifest sha256))
    (hnamed : (tables.manifests.map (·.archiveId)).Nodup) (hpending : tables.pending = [])
    (harchived : ∀ s, tables.archived s = []) : KeptTables sha256 live tables := by
  have hbatches : tables.batches = [] := by
    rw [ArchiveTables.batches, hpending, List.map_nil]
  refine
    { control := hcontrol
      named := hnamed
      verified := ⟨fun s row hrow ↦ ?_, fun m hm ↦ ?_, fun s ↦ ?_⟩
      ordered := fun s ↦ by rw [hbatches, harchived s, List.flatMap_nil]
      covered := fun s id hid ↦ ?_
      apart := fun s id hid ↦ ?_ }
  · rw [harchived s] at hrow
    cases hrow
  · rw [hpending] at hm
    cases hm
  · rw [hbatches]
    exact List.nodup_nil
  all_goals
    rw [hbatches] at hid
    cases hid

theorem keptTables_new (sha256 : String → String) (live : (s : Source) → LiveTable s) :
    KeptTables sha256 live { manifests := [controlManifest sha256], archived := fun _ ↦ [] } := by
  refine keptTables_of_empty (by simp [controlManifest]) (List.nodup_singleton _) ?_ fun s ↦ rfl
  simp [ArchiveTables.pending, controlManifest]

theorem Kept.of_absent (h : archiveTables sha256 db = .ok none) : Kept sha256 db := by
  refine ⟨_, ?_, keptTables_new sha256 db.live⟩
  rw [createArchiveTables, h]
  rfl

theorem KeptTables.kept (h : KeptTables sha256 db.live tables) :
    Kept sha256 (db.withTables tables) := by
  refine ⟨tables, ?_, h⟩
  rw [createArchiveTables, archiveTables_withTables h.control]
  rfl

/-- The archive stays next to live tables that give no id out twice. -/
theorem KeptTables.grow (h : KeptTables sha256 live tables)
    (hgrows : ∀ s, (live s).Grows (live' s)) : KeptTables sha256 live' tables :=
  { h with
    covered := fun s id hid ↦ (h.covered s id hid).trans (hgrows s).highWater_le
    apart := fun s id hid hlive ↦ by
      rcases (hgrows s).new id hlive with hold | hnew
      · exact h.apart s id hid hold
      · exact absurd (h.covered s id hid) (by omega) }

theorem KeptTables.readArchive (h : KeptTables sha256 live tables) :
    readArchive sha256 live (some tables) = .ok tables.batches :=
  readArchive_eq_ok_iff.mpr ⟨h.verified, h.apart, rfl⟩

/-- Reading the archive gives its batches also before there are archive tables. -/
theorem KeptTables.read_of_create (h : KeptTables sha256 db.live tables)
    (hcreate : createArchiveTables sha256 db = .ok tables) :
    ∃ o, archiveTables sha256 db = .ok o ∧
      RetryArchive.readArchive sha256 db.live o = .ok tables.batches ∧
      ∀ found, o = some found → found = tables := by
  rcases archiveTables_of_create hcreate with hsome | ⟨hnone, rfl⟩
  · exact ⟨some tables, hsome, h.readArchive, fun found hfound ↦ (Option.some.inj hfound).symm⟩
  · refine ⟨none, hnone, ?_, fun found hfound ↦ by cases hfound⟩
    rw [RetryArchive.readArchive, ArchiveTables.batches, ArchiveTables.pending]
    simp [controlManifest]

end Kept

/-! ## Restoring -/

section Restore

variable {sha256 : String → String} {s : Source} {t : LiveTable s}

theorem foldlM_insert {columns : List (RawColumn s)} {rows : List (RawRow s)}
    (hid : ∀ row ∈ rows, row .id = .int (rowId row))
    (hnull : ∀ row ∈ rows, ∀ c ∈ columns, c.nullable = false → row c.column ≠ .null)
    (hnodup : ((t.rows ++ rows).map rowId).Nodup) :
    ∃ t', rows.foldlM (fun t row ↦ t.insert columns row) t = .ok t' ∧
      t'.rows = t.rows ++ rows ∧ t.highWater ≤ t'.highWater := by
  -- what is still to be inserted comes after what is there
  let I : List (RawRow s) → LiveTable s → Prop := fun rest u ↦
    u.rows ++ rest = t.rows ++ rows ∧ rest ⊆ rows ∧ t.highWater ≤ u.highWater
  obtain ⟨t', hfold, hrows, -, hwater⟩ := foldlM_eq_ok (I := I)
    (f := fun t row ↦ t.insert columns row) (s := t)
    (fun row rest u ⟨hu, hrest, hwater⟩ ↦ by
      have hmem : row ∈ rows := hrest (.head _)
      have hfree : rowId row ∉ u.ids := by
        rw [← hu, List.map_append, List.map_cons, List.nodup_append] at hnodup
        exact fun h ↦ hnodup.2.2 _ h _ (.head _) rfl
      obtain ⟨v, hv⟩ := LiveTable.insert_of_free (hid row hmem) hfree (hnull row hmem)
      obtain ⟨hrows, hmax⟩ := LiveTable.insert_eq_ok hv
      refine ⟨v, hv, ?_, fun r hr ↦ hrest (.tail _ hr), ?_⟩
      · rw [hrows, List.append_assoc]
        exact hu
      · rw [hmax]
        exact hwater.trans (le_max_left _ _))
    ⟨rfl, fun r hr ↦ hr, le_rfl⟩
  exact ⟨t', hfold, by simpa using hrows, hwater⟩

theorem restoreSource_eq_ok {m : Manifest} {rows : List (RawRow s)}
    (hid : ∀ row ∈ rows, row .id = .int (rowId row))
    (hnull : ∀ row ∈ rows, ∀ c ∈ rawColumns s, c.nullable = false → row c.column ≠ .null)
    (hnodup : ((t.rows ++ rows).map rowId).Nodup)
    (hdigest : batchDigest sha256 m s rows = m.digest s) :
    ∃ t', restoreSource sha256 m s rows t = .ok t' ∧ t'.rows = t.rows ++ rows ∧
      t.highWater ≤ t'.highWater := by
  unfold restoreSource
  split_ifs with hrows
  · refine ⟨_, rfl, by rw [hrows, List.append_nil]; rfl, ?_⟩
    rw [LiveTable.advance_highWater]
    exact le_max_left _ _
  · obtain ⟨u, hfold, hu, hwater⟩ := foldlM_insert hid hnull hnodup
    have hread : rows.mapM (fun row ↦ u.one (rowId row)) = .ok rows := by
      have hone : ∀ row ∈ rows, u.one (rowId row) = .ok (id row) := fun row hrow ↦
        LiveTable.one_of_mem (by rw [hu]; exact List.mem_append_right _ hrow)
      rw [mapM_eq_ok_map hone, List.map_id]
    refine ⟨u.advance (m.highWater s), ?_, hu, ?_⟩
    · exact bind_eq_ok.mpr ⟨u, hfold, bind_eq_ok.mpr ⟨rows, hread,
        ensure_bind_eq_ok.mpr ⟨hdigest, rfl⟩⟩⟩
    · rw [LiveTable.advance_highWater]
      exact hwater.trans (le_max_left _ _)

theorem Compatible.ne_null {schema : Schema} {row : RawRow s} (h : Compatible schema row) :
    ∀ c ∈ rawColumns s, c.nullable = false → row c.column ≠ .null := by
  intro c hc hnullable hnull
  have hcolumn : c ∈ schema.columns s := by
    cases s with
    | retryQueue => exact hc
    | dlq =>
        simp only [rawColumns, Schema.columns, List.mem_cons, List.not_mem_nil, or_false] at hc ⊢
        rcases hc with rfl | rfl | rfl | rfl | rfl | rfl | rfl | rfl <;> simp_all
  rcases h c hcolumn with ⟨-, htrue⟩ | hfits
  · rw [hnullable] at htrue
    cases htrue
  · rw [hnull] at hfits
    cases hfits

/-- The rows that a verified batch puts back. -/
def Batch.restored (batch : Batch) (s : Source) : List (RawRow s) := (batch.rows s).map (·.row)

theorem restoreBatch_eq_ok {tables : ArchiveTables} {m : Manifest}
    {live : (s : Source) → LiveTable s}
    (hread : readBatch sha256 tables m = .ok (tables.batch m))
    (hnodup : ∀ s, (((live s).rows ++ (tables.batch m).restored s).map rowId).Nodup) :
    ∃ live', restoreBatch sha256 live (tables.batch m) = .ok live' ∧
      ∀ s, (live' s).rows = (live s).rows ++ (tables.batch m).restored s ∧
        (live s).highWater ≤ (live' s).highWater := by
  obtain ⟨-, ⟨schema, -, hchecked⟩, -⟩ := readBatch_eq_ok_iff.mp hread
  have hsource : ∀ s, ∃ t',
      restoreSource sha256 m s ((tables.batch m).restored s) (live s) = .ok t' ∧
      t'.rows = (live s).rows ++ (tables.batch m).restored s ∧
      (live s).highWater ≤ t'.highWater := by
    intro s
    obtain ⟨hrows, -, hdigest, -⟩ := checkBatch_eq_ok.mp (hchecked s)
    exact restoreSource_eq_ok (fun row hrow ↦ (hrows row hrow).id_eq)
      (fun row hrow ↦ (hrows row hrow).ne_null) (hnodup s) hdigest
  choose live' hlive' hspec using hsource
  exact ⟨live', forSources_eq_ok.mpr hlive', hspec⟩

theorem archivedIds_eq (batches : List Batch) (s : Source) :
    archivedIds batches s = (batches.flatMap (·.restored s)).map rowId := by
  simp only [archivedIds, Batch.restored, List.map_flatMap, List.map_map, Function.comp_def]

theorem KeptTables.restored {live : (s : Source) → LiveTable s} {tables : ArchiveTables}
    (h : KeptTables sha256 live tables) (s : Source) :
    tables.batches.flatMap (·.restored s) = (tables.archived s).map (·.row) := by
  rw [h.ordered s, List.map_flatMap]
  rfl

theorem Verified.nodup {live : (s : Source) → LiveTable s} {tables : ArchiveTables}
    (h : Verified sha256 tables)
    (hapart : ∀ s, ∀ id ∈ archivedIds tables.batches s, id ∉ (live s).ids) (s : Source) :
    (((live s).rows ++ tables.batches.flatMap (·.restored s)).map rowId).Nodup := by
  rw [List.map_append, ← archivedIds_eq, List.nodup_append]
  refine ⟨(live s).unique, h.distinct s, ?_⟩
  rintro a ha b hb rfl
  exact hapart s a hb ha

/-- Every batch of an archive that verifies can be put back, one after the other. -/
theorem Verified.foldlM_restoreBatch {live : (s : Source) → LiveTable s} {tables : ArchiveTables}
    (h : Verified sha256 tables)
    (hapart : ∀ s, ∀ id ∈ archivedIds tables.batches s, id ∉ (live s).ids) :
    ∃ live', tables.batches.foldlM (restoreBatch sha256) live = .ok live' ∧
      ∀ s, (live' s).rows = (live s).rows ++ tables.batches.flatMap (·.restored s) ∧
        (live s).highWater ≤ (live' s).highWater := by
  let I : List Batch → ((s : Source) → LiveTable s) → Prop := fun rest live' ↦
    rest ⊆ tables.batches ∧ ∀ s,
      (live' s).rows ++ rest.flatMap (·.restored s) =
        (live s).rows ++ tables.batches.flatMap (·.restored s) ∧
      (live s).highWater ≤ (live' s).highWater
  obtain ⟨live', hfold, -, hlive'⟩ := foldlM_eq_ok (I := I) (f := restoreBatch sha256) (s := live)
    (fun batch rest u ⟨hrest, hu⟩ ↦ by
      obtain ⟨m, hm, rfl⟩ := List.mem_map.mp (hrest (.head _))
      have hnodup : ∀ s, (((u s).rows ++ (tables.batch m).restored s).map rowId).Nodup := by
        intro s
        have hall := h.nodup hapart s
        rw [← (hu s).1, List.flatMap_cons, ← List.append_assoc, List.map_append] at hall
        exact (List.nodup_append.mp hall).1
      obtain ⟨v, hv, hspec⟩ := restoreBatch_eq_ok (h.readable m hm) hnodup
      refine ⟨v, hv, fun b hb ↦ hrest (.tail _ hb), fun s ↦ ⟨?_, (hu s).2.trans (hspec s).2⟩⟩
      rw [(hspec s).1, List.append_assoc]
      exact (hu s).1)
    ⟨fun b hb ↦ hb, fun s ↦ ⟨rfl, le_rfl⟩⟩
  refine ⟨live', hfold, fun s ↦ ⟨?_, (hlive' s).2⟩⟩
  rw [← (hlive' s).1, List.flatMap_nil, List.append_nil]

theorem acknowledged_control {tables : ArchiveTables} {acknowledged : List String}
    (h : tables.manifests.find? (·.archiveId = controlId) = some (controlManifest sha256))
    (hcontrol : controlId ∉ acknowledged) :
    (tables.manifests.filter (·.archiveId ∉ acknowledged)).find? (·.archiveId = controlId) =
      some (controlManifest sha256) := by
  rw [List.find?_filter, ← h]
  congr 1
  funext m
  by_cases hm : m.archiveId = controlId
  · simp [hm, hcontrol]
  · simp [hm]

/-- A restore at the head revision puts every archived row back and empties the archive. -/
theorem Kept.restore {db : Storage} (h : Kept sha256 db) (hnullable : db.originalNullable = true) :
    ∃ db', restore sha256 db = .ok db' ∧
      (∀ s, (db'.live s).rows = (db.live s).rows ++ db.archivedRows s) ∧
      (∀ s, db'.archivedRows s = []) ∧ db'.pending = [] ∧
      (∀ s, (db.live s).highWater ≤ (db'.live s).highWater) ∧ Kept sha256 db' := by
  obtain ⟨tables, hcreate, hkept⟩ := h
  obtain ⟨o, ho, hread, hfound⟩ := hkept.read_of_create hcreate
  have hsources : checkSources .head db = .ok (schemaOf .head) :=
    ensure_bind_eq_ok.mpr ⟨hnullable, rfl⟩
  have hrows := archivedRows_of_create hcreate
  simp only [RetryArchive.restore, hsources, ho, hread, bind, Except.bind]
  cases hbatches : tables.batches with
  | nil =>
      have harchived : ∀ s, db.archivedRows s = [] := by
        intro s
        rw [hrows s, ← hkept.restored s, hbatches]
        rfl
      have hpending : db.pending = [] := by
        rw [pending_of_create hcreate]
        exact List.map_eq_nil_iff.mp hbatches
      refine ⟨db, by cases o <;> rfl, fun s ↦ ?_, harchived, hpending, fun s ↦ le_rfl, tables,
        hcreate, hkept⟩
      rw [harchived s, List.append_nil]
  | cons batch rest =>
      cases o with
      | none =>
          rw [RetryArchive.readArchive, hbatches] at hread
          cases Except.ok.inj hread
      | some found =>
          have hfound : found = tables := hfound found rfl
          subst hfound
          obtain ⟨live', hfold, hlive'⟩ := hkept.verified.foldlM_restoreBatch hkept.apart
          rw [hbatches] at hfold
          simp only [hfold]
          set acknowledged := (batch :: rest).map fun batch ↦ batch.manifest.archiveId with hack
          have hpending : acknowledged = found.pending.map (·.archiveId) := by
            rw [hack, ← hbatches, ArchiveTables.batches, List.map_map]
            rfl
          have hcontrol : controlId ∉ acknowledged := by
            rw [hpending]
            intro hmem
            obtain ⟨m, hm, hid⟩ := List.mem_map.mp hmem
            simpa [hid] using (List.mem_filter.mp hm).2
          have harchived : ∀ s,
              (found.archived s).filter (·.archiveId ∉ acknowledged) = [] := by
            intro s
            rw [List.filter_eq_nil_iff]
            intro row hrow
            simpa [hpending] using hkept.verified.owned s row hrow
          have hacknowledged : (found.manifests.filter (·.archiveId ∉ acknowledged)).filter
              (·.archiveId ≠ controlId) = [] := by
            rw [List.filter_filter, List.filter_eq_nil_iff]
            intro m hm
            have hmem : m.archiveId ≠ controlId → m.archiveId ∈ acknowledged := by
              intro hne
              rw [hpending]
              exact List.mem_map.mpr ⟨m, List.mem_filter.mpr ⟨hm, by simpa using hne⟩, rfl⟩
            simpa using hmem
          refine ⟨_, rfl, fun s ↦ ?_, fun s ↦ ?_, hacknowledged, fun s ↦ (hlive' s).2, ?_⟩
          · rw [hrows s, ← hkept.restored s]
            exact (hlive' s).1
          · simp only [Storage.archivedRows, Storage.withTables, Option.getD_some, harchived,
              List.map_nil]
          · refine KeptTables.kept (keptTables_of_empty ?_ ?_ hacknowledged harchived)
            · exact acknowledged_control hkept.control hcontrol
            · exact hkept.named.sublist (List.filter_sublist.map _)

/-- A restore at the head revision returns if the archive can be read. -/
theorem restore_of_read {db : Storage} {o : Option ArchiveTables} {batches : List Batch}
    (hnullable : db.originalNullable = true) (ho : archiveTables sha256 db = .ok o)
    (hread : readArchive sha256 db.live o = .ok batches) :
    ∃ db', RetryArchive.restore sha256 db = .ok db' := by
  have hsources : checkSources .head db = .ok (schemaOf .head) :=
    ensure_bind_eq_ok.mpr ⟨hnullable, rfl⟩
  simp only [RetryArchive.restore, hsources, ho, hread, bind, Except.bind]
  cases o with
  | none => exact ⟨db, rfl⟩
  | some tables =>
      obtain ⟨hverified, hapart, rfl⟩ := readArchive_eq_ok_iff.mp hread
      obtain ⟨live', hfold, -⟩ := hverified.foldlM_restoreBatch hapart
      cases hbatches : tables.batches with
      | nil => exact ⟨db, rfl⟩
      | cons batch rest =>
          rw [hbatches] at hfold
          simp only [hfold]
          exact ⟨_, rfl⟩

end Restore

/-! ## Capturing -/

/-- An archive with one more batch. -/
def ArchiveTables.append (tables : ArchiveTables) (batch : Batch) : ArchiveTables where
  manifests := tables.manifests ++ [batch.manifest]
  archived s := tables.archived s ++ batch.rows s

section Append

variable {sha256 : String → String} {live live' : (s : Source) → LiveTable s}
  {tables : ArchiveTables} {batch : Batch}

/-- A batch under a new archive id, all its rows under that id. -/
structure Appendable (tables : ArchiveTables) (batch : Batch) : Prop where
  fresh : batch.manifest.archiveId ∉ tables.manifests.map (·.archiveId)
  named : ∀ s, ∀ row ∈ batch.rows s, row.archiveId = batch.manifest.archiveId

theorem KeptTables.controlId_mem (h : KeptTables sha256 live tables) :
    controlId ∈ tables.manifests.map (·.archiveId) :=
  List.mem_map.mpr ⟨_, List.mem_of_find?_eq_some h.control, rfl⟩

theorem KeptTables.archiveId_mem (h : KeptTables sha256 live tables) {s : Source}
    {row : ArchivedRow s} (hrow : row ∈ tables.archived s) :
    row.archiveId ∈ tables.manifests.map (·.archiveId) := by
  obtain ⟨m, hm, hid⟩ := List.mem_map.mp (h.verified.owned s row hrow)
  exact List.mem_map.mpr ⟨m, List.mem_of_mem_filter hm, hid⟩

theorem Appendable.pending (ha : Appendable tables batch) (h : KeptTables sha256 live tables) :
    (tables.append batch).pending = tables.pending ++ [batch.manifest] := by
  have hne : batch.manifest.archiveId ≠ controlId := fun hid ↦
    ha.fresh (hid ▸ h.controlId_mem)
  rw [ArchiveTables.pending, ArchiveTables.append, List.filter_append, List.filter_singleton]
  simp [hne, ArchiveTables.pending]

theorem Appendable.batchRows_old (ha : Appendable tables batch) {m : Manifest}
    (hm : m ∈ tables.manifests) :
    (tables.append batch).batchRows m = tables.batchRows m := by
  have hne : batch.manifest.archiveId ≠ m.archiveId := fun hid ↦
    ha.fresh (List.mem_map.mpr ⟨m, hm, hid.symm⟩)
  funext s
  have hnone : (batch.rows s).filter (·.archiveId = m.archiveId) = [] := by
    rw [List.filter_eq_nil_iff]
    intro row hrow
    simpa [ha.named s row hrow] using hne
  rw [ArchiveTables.batchRows, ArchiveTables.append, List.filter_append, hnone, List.append_nil]
  rfl

theorem Appendable.batchRows_new (ha : Appendable tables batch)
    (h : KeptTables sha256 live tables) :
    (tables.append batch).batchRows batch.manifest = batch.rows := by
  funext s
  have hnone : (tables.archived s).filter (·.archiveId = batch.manifest.archiveId) = [] := by
    rw [List.filter_eq_nil_iff]
    intro row hrow hid
    have hid : row.archiveId = batch.manifest.archiveId := by simpa using hid
    exact ha.fresh (hid ▸ h.archiveId_mem hrow)
  have hall : (batch.rows s).filter (·.archiveId = batch.manifest.archiveId) = batch.rows s := by
    rw [List.filter_eq_self]
    intro row hrow
    simp [ha.named s row hrow]
  rw [ArchiveTables.batchRows, ArchiveTables.append, List.filter_append, hnone, hall,
    List.nil_append]

theorem Appendable.batches (ha : Appendable tables batch) (h : KeptTables sha256 live tables) :
    (tables.append batch).batches = tables.batches ++ [batch] := by
  have hold : tables.pending.map (tables.append batch).batch = tables.pending.map tables.batch := by
    refine List.map_congr_left fun m hm ↦ ?_
    rw [ArchiveTables.batch, ha.batchRows_old (List.mem_of_mem_filter hm)]
    rfl
  rw [ArchiveTables.batches, ha.pending h, List.map_append, hold, List.map_singleton,
    ArchiveTables.batch, ha.batchRows_new h]
  rfl

/-- A batch that verifies and is not in the live tables any more may be appended. -/
theorem KeptTables.append (h : KeptTables sha256 live tables) (ha : Appendable tables batch)
    (hread : ∀ rows, rows = batch.rows → ∀ tables : ArchiveTables,
      tables.batchRows batch.manifest = rows →
        readBatch sha256 tables batch.manifest = .ok (tables.batch batch.manifest))
    (hnodup : ∀ s, ((batch.restored s).map rowId).Nodup)
    (hlive : ∀ s, ∀ row ∈ batch.restored s, rowId row ∈ (live s).ids)
    (hmoved : ∀ s, ∀ row ∈ batch.restored s, rowId row ∉ (live' s).ids)
    (hgrows : ∀ s, (live s).Grows (live' s)) :
    KeptTables sha256 live' (tables.append batch) := by
  have hids : ∀ s, archivedIds (tables.append batch).batches s =
      archivedIds tables.batches s ++ (batch.restored s).map rowId := by
    intro s
    rw [ha.batches h, archivedIds_eq, archivedIds_eq, List.flatMap_append, List.map_append]
    simp
  have hgrown := h.grow hgrows
  refine
    { control := ?_
      named := ?_
      verified := ⟨?_, ?_, ?_⟩
      ordered := ?_
      covered := ?_
      apart := ?_ }
  · rw [ArchiveTables.append, List.find?_append, h.control]
    rfl
  · rw [ArchiveTables.append, List.map_append, List.nodup_append]
    refine ⟨h.named, List.nodup_singleton _, ?_⟩
    rintro id hid _ hnew rfl
    rw [List.map_singleton, List.mem_singleton] at hnew
    exact ha.fresh (hnew ▸ hid)
  · intro s row hrow
    rw [ha.pending h, List.map_append, List.mem_append]
    refine (List.mem_append.mp hrow).imp (h.verified.owned s row) fun hrow ↦ ?_
    rw [List.map_singleton, List.mem_singleton]
    exact ha.named s row hrow
  · intro m hm
    rw [ha.pending h] at hm
    rcases List.mem_append.mp hm with hm | hm
    · have hrows := ha.batchRows_old (List.mem_of_mem_filter hm)
      obtain ⟨hshape, ⟨schema, hschema, hchecked⟩, -⟩ :=
        readBatch_eq_ok_iff.mp (h.verified.readable m hm)
      refine readBatch_eq_ok_iff.mpr ⟨hshape, ⟨schema, hschema, fun s ↦ ?_⟩, rfl⟩
      rw [hrows]
      exact hchecked s
    · rw [List.mem_singleton.mp hm]
      exact hread _ rfl _ (ha.batchRows_new h)
  · intro s
    rw [hids s, List.nodup_append]
    refine ⟨h.verified.distinct s, hnodup s, ?_⟩
    rintro id hid _ hnew rfl
    obtain ⟨row, hrow, rfl⟩ := List.mem_map.mp hnew
    exact h.apart s _ hid (hlive s row hrow)
  · intro s
    rw [ha.batches h, List.flatMap_append, ← h.ordered s]
    simp [ArchiveTables.append]
  · intro s id hid
    rw [hids s] at hid
    rcases List.mem_append.mp hid with hid | hid
    · exact hgrown.covered s id hid
    · obtain ⟨row, hrow, rfl⟩ := List.mem_map.mp hid
      exact (LiveTable.le_highWater (hlive s row hrow)).trans (hgrows s).highWater_le
  · intro s id hid
    rw [hids s] at hid
    rcases List.mem_append.mp hid with hid | hid
    · exact hgrown.apart s id hid
    · obtain ⟨row, hrow, rfl⟩ := List.mem_map.mp hid
      exact hmoved s row hrow

end Append

section Capture

variable {sha256 : String → String} {fromisoformat : String → Bool} {db : Storage} {s : Source}

theorem mem_captured {row : RawRow s} : row ∈ captured fromisoformat db s ↔
    row ∈ (db.live s).rows ∧ undated fromisoformat row = true := by
  rw [captured, List.mem_filter, (sortById_perm _).mem_iff]

theorem nodup_captured (fromisoformat : String → Bool) (db : Storage) (s : Source) :
    ((captured fromisoformat db s).map rowId).Nodup := by
  have hsorted : ((sortById (db.live s).rows).map rowId).Nodup :=
    ((sortById_perm _).map rowId).nodup_iff.mpr (db.live s).unique
  exact hsorted.sublist (List.filter_sublist.map rowId)

theorem deleteCaptured_eq_ok {t : LiveTable s} {rows : List (RawRow s)}
    (hnodup : (rows.map rowId).Nodup) (hmem : ∀ row ∈ rows, rowId row ∈ t.ids) :
    ∃ t', deleteCaptured t rows = .ok t' ∧
      t'.rows = t.rows.filter (fun r ↦ rowId r ∉ rows.map rowId) ∧ t'.seq = t.seq := by
  induction rows generalizing t with
  | nil => exact ⟨t, rfl, by simp, rfl⟩
  | cons row rows ih =>
      rw [List.map_cons, List.nodup_cons] at hnodup
      have hrest : ∀ r ∈ rows, rowId r ∈ (t.delete (rowId row)).ids := by
        intro r hr
        obtain ⟨r', hr', hid⟩ := List.mem_map.mp (hmem r (.tail _ hr))
        refine List.mem_map.mpr ⟨r', List.mem_filter.mpr ⟨hr', ?_⟩, hid⟩
        rw [hid, decide_eq_true_eq]
        exact fun heq ↦ hnodup.1 (List.mem_map.mpr ⟨r, hr, heq⟩)
      obtain ⟨t', ht', hrows, hseq⟩ := ih hnodup.2 hrest
      refine ⟨t', ?_, ?_, hseq⟩
      · rw [deleteCaptured, ensure_bind_eq_ok]
        exact ⟨List.count_eq_one_of_mem t.unique (hmem row (.head _)), ht'⟩
      · rw [hrows, LiveTable.delete, List.filter_filter]
        refine List.filter_congr fun r _ ↦ ?_
        simp only [ne_eq, List.map_cons, List.mem_cons, not_or, Bool.decide_and, Bool.and_comm]

/-- What `capture` leaves of a live table. -/
theorem filter_not_captured (fromisoformat : String → Bool) (db : Storage) (s : Source) :
    (db.live s).rows.filter (fun r ↦ rowId r ∉ (captured fromisoformat db s).map rowId) =
      (db.live s).rows.filter (!undated fromisoformat ·) := by
  refine List.filter_congr fun r hr ↦ ?_
  have hmem : rowId r ∈ (captured fromisoformat db s).map rowId ↔
      undated fromisoformat r = true := by
    constructor
    · intro h
      obtain ⟨r', hr', hid⟩ := List.mem_map.mp h
      obtain ⟨hlive, hundated⟩ := mem_captured.mp hr'
      rwa [(db.live s).eq_of_rowId_eq hlive hr hid] at hundated
    · intro h
      exact List.mem_map.mpr ⟨r, mem_captured.mpr ⟨hr, h⟩, rfl⟩
  by_cases hundated : undated fromisoformat r = true
  · simp [hmem.mpr hundated, hundated]
  · simp [mt hmem.mp hundated, hundated]

theorem loadSchema_eq {m : Manifest} {revision : Revision} {schema : Schema}
    (hrevision : m.sourceRevision = revision.name) (htext : m.sourceSchema = schema.text)
    (hschema : checkSources revision db = .ok schema) : loadSchema m = some schema := by
  have hfind : ∀ schemas : List Schema, schema ∈ schemas →
      schemas.find? (·.text = schema.text) = some schema := by
    intro schemas hmem
    cases hfind : schemas.find? (·.text = schema.text) with
    | none => simpa using List.find?_eq_none.mp hfind schema hmem
    | some found =>
        have htext : found.text = schema.text := by simpa using List.find?_some hfind
        rw [Schema.text_injective htext]
  rw [loadSchema, hrevision, htext]
  refine hfind _ ?_
  cases revision with
  | head =>
      obtain ⟨-, hhead⟩ := ensure_bind_eq_ok.mp hschema
      rw [← Except.ok.inj hhead]
      decide
  | previous =>
      rw [← Except.ok.inj hschema]
      cases db.originalNullable <;> decide

/-- The batch that a capture appends. -/
def captureBatch (sha256 : String → String) (fromisoformat : String → Bool) (archiveId : String)
    (revision : Revision) (schema : Schema) (db : Storage) : Batch where
  manifest := captureManifest sha256 fromisoformat archiveId revision schema db
  rows s := copies sha256 archiveId (captured fromisoformat db s)

variable {archiveId : String} {revision : Revision} {schema : Schema}

theorem captureBatch_restored :
    (captureBatch sha256 fromisoformat archiveId revision schema db).restored s =
      captured fromisoformat db s := by
  simp only [Batch.restored, captureBatch, copies, List.map_map]
  exact List.map_id _

/-- The batch of a capture verifies, wherever it stands. -/
theorem readBatch_captureBatch (hschema : checkSources revision db = .ok schema)
    (hrows : ∀ s, ∀ row ∈ (db.live s).rows, Compatible schema row) {tables : ArchiveTables}
    (htables : tables.batchRows
        (captureManifest sha256 fromisoformat archiveId revision schema db) =
      (captureBatch sha256 fromisoformat archiveId revision schema db).rows) :
    readBatch sha256 tables (captureManifest sha256 fromisoformat archiveId revision schema db) =
      .ok (tables.batch (captureManifest sha256 fromisoformat archiveId revision schema db)) := by
  refine readBatch_eq_ok_iff.mpr ⟨⟨rfl, rfl, rfl⟩, ⟨schema, ?_, fun s ↦ ?_⟩, rfl⟩
  · exact loadSchema_eq rfl rfl hschema
  · have hvalues : (tables.batchRows
        (captureManifest sha256 fromisoformat archiveId revision schema db) s).map (·.row) =
          captured fromisoformat db s := by
      rw [htables]
      exact captureBatch_restored
    refine checkBatch_eq_ok.mpr ⟨?_, ?_, ?_, ?_, ?_⟩
    · rw [hvalues]
      exact fun row hrow ↦ hrows s row (mem_captured.mp hrow).1
    · rw [← List.length_map (·.row), hvalues]
      rfl
    · rw [hvalues]
      rfl
    · rw [htables]
      intro row hrow
      obtain ⟨r, -, rfl⟩ := List.mem_map.mp hrow
      rfl
    · have hids : ((tables.batchRows
          (captureManifest sha256 fromisoformat archiveId revision schema db) s).map
            fun row ↦ rowId row.row) = (captured fromisoformat db s).map rowId := by
        rw [← hvalues, List.map_map]
        rfl
      rw [hids]
      cases hmax : ((captured fromisoformat db s).map rowId).max? with
      | none => exact (Int.natCast_nonneg _).trans (db.live s).seq_le_highWater
      | some n =>
          obtain ⟨r, hr, rfl⟩ := List.mem_map.mp (List.max?_mem hmax)
          exact LiveTable.le_highWater (List.mem_map.mpr ⟨r, (mem_captured.mp hr).1, rfl⟩)

/-- The archive ids that a capture may not use again. -/
def Storage.archiveIds (db : Storage) : List String :=
  controlId :: (db.manifests.getD []).map (·.archiveId)

theorem KeptTables.mem_archiveIds {tables : ArchiveTables} (h : KeptTables sha256 db.live tables)
    (hcreate : createArchiveTables sha256 db = .ok tables) :
    archiveId ∈ tables.manifests.map (·.archiveId) ↔ archiveId ∈ db.archiveIds := by
  rcases archiveTables_of_create hcreate with hsome | ⟨hnone, rfl⟩
  · rw [Storage.archiveIds, (archiveTables_eq_some hsome).1, Option.getD_some, List.mem_cons]
    exact ⟨.inr, fun hmem ↦ hmem.elim (fun heq ↦ heq ▸ h.controlId_mem) id⟩
  · rw [Storage.archiveIds, (archiveTables_eq_none hnone).1]
    simp [controlManifest]

/-- What a capture does: undated rows leave the live tables and are archived as they were. -/
structure Captured (fromisoformat : String → Bool) (db db' : Storage) : Prop where
  live : ∀ s, (db'.live s).rows = (db.live s).rows.filter (!undated fromisoformat ·)
  archived : ∀ s, db'.archivedRows s = db.archivedRows s ++ captured fromisoformat db s
  grows : ∀ s, (db.live s).Grows (db'.live s)
  nullable : db'.originalNullable = db.originalNullable

theorem Captured.refl_of_dated (hdated : ∀ s, captured fromisoformat db s = []) :
    Captured fromisoformat db db where
  live s := by
    refine (List.filter_eq_self.mpr fun row hrow ↦ ?_).symm
    have hnot : row ∉ captured fromisoformat db s := by simp [hdated s]
    rw [mem_captured] at hnot
    simpa [hrow] using hnot
  archived s := by rw [hdated s, List.append_nil]
  grows s := .refl _
  nullable := rfl

/-- A capture of rows that the schema admits, under a new archive id, returns. -/
theorem Kept.capture_eq_ok (h : Kept sha256 db) (hschema : checkSources revision db = .ok schema)
    (hrows : ∀ s, ∀ row ∈ (db.live s).rows, Compatible schema row)
    (hfresh : (∃ s, captured fromisoformat db s ≠ []) → archiveId ∉ db.archiveIds) :
    ∃ db', capture sha256 fromisoformat archiveId revision db = .ok db' ∧
      Captured fromisoformat db db' ∧ Kept sha256 db' := by
  obtain ⟨tables, hcreate, hkept⟩ := h
  obtain ⟨o, ho, hread, -⟩ := hkept.read_of_create hcreate
  have hvalid : (forSources fun s ↦ validateRows (schema.columns s) (db.live s).rows) =
      .ok fun _ ↦ () :=
    forSources_eq_ok.mpr fun s ↦ validateRows_eq_ok.mpr (hrows s)
  simp only [capture, hschema, ho, hread, hvalid, bind, Except.bind]
  split_ifs with hdated
  · have hdated : ∀ s, captured fromisoformat db s = [] := fun s ↦ by
      cases s
      exacts [hdated.1, hdated.2]
    exact ⟨db, rfl, .refl_of_dated hdated, tables, hcreate, hkept⟩
  · set batch := captureBatch sha256 fromisoformat archiveId revision schema db with hbatch
    have hsome : ∃ s, captured fromisoformat db s ≠ [] := by
      by_contra hnone
      push Not at hnone
      exact hdated ⟨hnone _, hnone _⟩
    have happendable : Appendable tables batch := by
      refine ⟨?_, fun s row hrow ↦ ?_⟩
      · rw [hkept.mem_archiveIds hcreate]
        exact hfresh hsome
      · obtain ⟨r, -, rfl⟩ := List.mem_map.mp hrow
        rfl
    have hcopies : (forSources fun s ↦ checkCopies sha256 archiveId (captured fromisoformat db s)
        (tables.archived s ++ copies sha256 archiveId (captured fromisoformat db s))) =
          .ok fun _ ↦ () := by
      refine forSources_eq_ok.mpr fun s ↦ ensure_eq_ok.mpr (.inr ?_)
      have hcopied : (tables.archived s ++
          copies sha256 archiveId (captured fromisoformat db s)).filter
            (·.archiveId = archiveId) = batch.rows s :=
        congrFun (happendable.batchRows_new hkept) s
      rw [hcopied]
      have hvalues : (batch.rows s).map (·.row) = captured fromisoformat db s :=
        captureBatch_restored
      rw [hvalues]
      exact ⟨by rw [← List.length_map (·.row), hvalues], rfl⟩
    have hdelete : ∀ s, ∃ t', deleteCaptured (db.live s) (captured fromisoformat db s) = .ok t' ∧
        t'.rows = (db.live s).rows.filter
          (fun r ↦ rowId r ∉ (captured fromisoformat db s).map rowId) ∧
        t'.seq = (db.live s).seq := fun s ↦
      deleteCaptured_eq_ok (nodup_captured fromisoformat db s) fun row hrow ↦
        List.mem_map.mpr ⟨row, (mem_captured.mp hrow).1, rfl⟩
    choose deleted hdeleted hleft hseq using hdelete
    let live' : (s : Source) → LiveTable s := fun s ↦
      (deleted s).advance (batch.manifest.highWater s)
    have hlive : (forSources fun s ↦ do
        let t ← deleteCaptured (db.live s) (captured fromisoformat db s)
        .ok (t.advance (batch.manifest.highWater s))) = .ok live' :=
      forSources_eq_ok.mpr fun s ↦ bind_eq_ok.mpr ⟨_, hdeleted s, rfl⟩
    have hrows' : ∀ s, (live' s).rows = (db.live s).rows.filter (!undated fromisoformat ·) :=
      fun s ↦ (hleft s).trans (filter_not_captured fromisoformat db s)
    have hgrows : ∀ s, (db.live s).Grows (live' s) := by
      refine fun s ↦ .of_sublist ?_ fun id hid ↦ ?_
      · rw [LiveTable.advance_highWater]
        exact le_max_right _ _
      · obtain ⟨r, hr, rfl⟩ := List.mem_map.mp hid
        rw [hrows' s] at hr
        exact List.mem_map.mpr ⟨r, List.mem_of_mem_filter hr, rfl⟩
    have happended : KeptTables sha256 live' (tables.append batch) := by
      refine hkept.append happendable ?_ ?_ ?_ ?_ hgrows
      · rintro _ rfl tables htables
        exact readBatch_captureBatch hschema hrows htables
      · intro s
        rw [captureBatch_restored]
        exact nodup_captured fromisoformat db s
      · intro s row hrow
        rw [captureBatch_restored] at hrow
        exact List.mem_map.mpr ⟨row, (mem_captured.mp hrow).1, rfl⟩
      · intro s row hrow hmem
        rw [captureBatch_restored] at hrow
        obtain ⟨r, hr, hid⟩ := List.mem_map.mp hmem
        have hr' : r ∈ (deleted s).rows := hr
        rw [hleft s] at hr'
        have hnot := (List.mem_filter.mp hr').2
        rw [decide_eq_true_eq, hid] at hnot
        exact hnot (List.mem_map.mpr ⟨row, hrow, rfl⟩)
    refine ⟨{ db with live := live' }.withTables (tables.append batch), ?_, ?_, ?_⟩
    · simp only [hcreate, hcopies]
      have hensure : ensure (archiveId ∉ tables.manifests.map (·.archiveId))
          "UNIQUE constraint failed" = .ok () := ensure_eq_ok.mpr happendable.fresh
      have hlive := hlive
      simp only [bind, Except.bind] at hlive
      simp only [hensure]
      exact congrArg (fun x : Except String ((s : Source) → LiveTable s) ↦ x >>= fun live ↦
        Except.ok (({ db with live := live } : Storage).withTables (tables.append batch))) hlive
    · refine ⟨hrows', fun s ↦ ?_, hgrows, rfl⟩
      have hbatchRows : (batch.rows s).map (·.row) = captured fromisoformat db s :=
        captureBatch_restored
      rw [archivedRows_of_create hcreate s]
      simp only [Storage.archivedRows, Storage.withTables, ArchiveTables.append, Option.getD_some,
        List.map_append, hbatchRows]
    · exact happended.kept

/-- A capture that returns was one of rows that the schema admits, under a new archive id. -/
theorem Kept.of_capture_eq_ok {db' : Storage} (h : Kept sha256 db)
    (hcapture : capture sha256 fromisoformat archiveId revision db = .ok db') :
    ∃ schema, checkSources revision db = .ok schema ∧
      (∀ s, ∀ row ∈ (db.live s).rows, Compatible schema row) ∧
      ((∃ s, captured fromisoformat db s ≠ []) → archiveId ∉ db.archiveIds) := by
  obtain ⟨tables, hcreate, hkept⟩ := h
  obtain ⟨schema, hschema, hcapture⟩ := bind_eq_ok.mp hcapture
  obtain ⟨_, -, hcapture⟩ := bind_eq_ok.mp hcapture
  obtain ⟨_, -, hcapture⟩ := bind_eq_ok.mp hcapture
  obtain ⟨_, hvalid, hcapture⟩ := bind_eq_ok.mp hcapture
  refine ⟨schema, hschema, fun s ↦ validateRows_eq_ok.mp (forSources_eq_ok.mp hvalid s), ?_⟩
  rintro ⟨s, hs⟩
  have hundated : ¬(captured fromisoformat db .retryQueue = [] ∧
      captured fromisoformat db .dlq = []) := by
    rintro ⟨hretry, hdlq⟩
    cases s
    exacts [hs hretry, hs hdlq]
  simp only [if_neg hundated] at hcapture
  obtain ⟨_, htables, hcapture⟩ := bind_eq_ok.mp hcapture
  obtain ⟨_, -, hcapture⟩ := bind_eq_ok.mp hcapture
  rw [hcreate] at htables
  rw [← Except.ok.inj htables] at hcapture
  rw [← hkept.mem_archiveIds hcreate]
  exact (ensure_bind_eq_ok.mp hcapture).1

theorem Kept.captured {db' : Storage} (h : Kept sha256 db)
    (hcapture : capture sha256 fromisoformat archiveId revision db = .ok db') :
    Captured fromisoformat db db' ∧ Kept sha256 db' := by
  obtain ⟨schema, hschema, hrows, hfresh⟩ := h.of_capture_eq_ok hcapture
  obtain ⟨db'', hok, hspec⟩ := h.capture_eq_ok hschema hrows hfresh
  rw [hcapture] at hok
  rw [Except.ok.inj hok]
  exact hspec

end Capture

/-! ## Runs -/

section Run

variable {sha256 : String → String} {fromisoformat : String → Bool} {db : Storage}

theorem Kept.of_live {db' : Storage} (h : Kept sha256 db)
    (hmanifests : db'.manifests = db.manifests) (harchived : db'.archived = db.archived)
    (hgrows : ∀ s, (db.live s).Grows (db'.live s)) :
    Kept sha256 db' := by
  obtain ⟨tables, hcreate, hkept⟩ := h
  refine ⟨tables, ?_, hkept.grow hgrows⟩
  rw [← hcreate, createArchiveTables, createArchiveTables, archiveTables, archiveTables, hmanifests,
    harchived]

theorem setLive_grows {s : Source} {t : LiveTable s} (hgrows : (db.live s).Grows t) (s' : Source) :
    (db.live s').Grows ((db.setLive s t).live s') := by
  by_cases hs : s' = s
  · subst hs
    rwa [Storage.setLive_live_self]
  · rw [Storage.setLive_live_of_ne db t hs]
    exact .refl _

theorem eq_or_of_commit (db : Storage) (x : Except String Storage) :
    db.commit x = db ∨ x = .ok (db.commit x) := by
  cases x with
  | error e => exact .inl rfl
  | ok db' => exact .inr rfl

/-- What the service writes to a live table leaves the archive alone. -/
def Event.serving : Event → Bool
  | .insert .. | .update .. | .delete .. | .alter _ => true
  | .capture .. | .restore => false

theorem Event.serving_or (event : Event) : event.serving = true ∨
    (∃ archiveId revision, event = .capture archiveId revision) ∨ event = .restore := by
  cases event with
  | insert | update | delete | alter => exact .inl rfl
  | capture archiveId revision => exact .inr (.inl ⟨archiveId, revision, rfl⟩)
  | restore => exact .inr (.inr rfl)

theorem step_serving {event : Event} (h : event.serving = true) :
    (step sha256 fromisoformat db event).manifests = db.manifests ∧
      (step sha256 fromisoformat db event).archived = db.archived ∧
      ∀ s, (db.live s).Grows ((step sha256 fromisoformat db event).live s) := by
  have hrefl : db.manifests = db.manifests ∧ db.archived = db.archived ∧
      ∀ s, (db.live s).Grows (db.live s) := ⟨rfl, rfl, fun s ↦ .refl _⟩
  cases event with
  | capture | restore => cases h
  | insert s row =>
      rw [step]
      rcases eq_or_of_commit db _ with hsame | hok
      · rwa [hsame]
      · obtain ⟨t, ht, hset⟩ := bind_eq_ok.mp hok
        rw [← Except.ok.inj hset]
        exact ⟨rfl, rfl, setLive_grows (.insert ht)⟩
  | update s id row =>
      rw [step]
      rcases eq_or_of_commit db _ with hsame | hok
      · rwa [hsame]
      · obtain ⟨t, ht, hset⟩ := bind_eq_ok.mp hok
        rw [← Except.ok.inj hset]
        exact ⟨rfl, rfl, setLive_grows (.update ht)⟩
  | delete s id => exact ⟨rfl, rfl, setLive_grows (.delete _ id)⟩
  | alter nullable =>
      rw [step]
      rcases eq_or_of_commit db _ with hsame | hok
      · rwa [hsame]
      · rw [← Except.ok.inj (ensure_bind_eq_ok.mp hok).2]
        exact hrefl

theorem Kept.of_restore_eq_ok {db' : Storage} (h : Kept sha256 db)
    (hrestore : RetryArchive.restore sha256 db = .ok db') :
    (∀ s, (db'.live s).rows = (db.live s).rows ++ db.archivedRows s) ∧
      (∀ s, db'.archivedRows s = []) ∧ db'.pending = [] ∧
      (∀ s, (db.live s).highWater ≤ (db'.live s).highWater) ∧ Kept sha256 db' := by
  obtain ⟨_, hsources, -⟩ := bind_eq_ok.mp hrestore
  obtain ⟨hnullable, -⟩ := ensure_bind_eq_ok.mp hsources
  obtain ⟨db'', hok, hspec⟩ := h.restore hnullable
  rw [hrestore] at hok
  rw [Except.ok.inj hok]
  exact hspec

/-- The step lemma: an archive that only captures write stays one. -/
theorem Kept.step (h : Kept sha256 db) (fromisoformat : String → Bool) (event : Event) :
    Kept sha256 (step sha256 fromisoformat db event) ∧
      ∀ s, (db.live s).highWater ≤ ((step sha256 fromisoformat db event).live s).highWater := by
  obtain hserving | ⟨archiveId, revision, rfl⟩ | rfl := event.serving_or
  · obtain ⟨hmanifests, harchived, hgrows⟩ := step_serving hserving
    exact ⟨h.of_live hmanifests harchived hgrows, fun s ↦ (hgrows s).highWater_le⟩
  · rw [RetryArchive.step]
    rcases eq_or_of_commit db _ with hsame | hok
    · rw [hsame]
      exact ⟨h, fun s ↦ le_rfl⟩
    · obtain ⟨hspec, hkept⟩ := h.captured hok
      exact ⟨hkept, fun s ↦ (hspec.grows s).highWater_le⟩
  · rw [RetryArchive.step]
    rcases eq_or_of_commit db _ with hsame | hok
    · rw [hsame]
      exact ⟨h, fun s ↦ le_rfl⟩
    · obtain ⟨-, -, -, hwater, hkept⟩ := h.of_restore_eq_ok hok
      exact ⟨hkept, hwater⟩

theorem Kept.run (h : Kept sha256 db) (events : List Event) :
    Kept sha256 (run sha256 fromisoformat db events) := by
  induction events generalizing db with
  | nil => exact h
  | cons event events ih => exact ih (h.step fromisoformat event).1

theorem step_archivedRows (h : Kept sha256 db) {event : Event} (hevent : event ≠ .restore)
    (s : Source) : db.archivedRows s <+: (step sha256 fromisoformat db event).archivedRows s := by
  obtain hserving | ⟨archiveId, revision, rfl⟩ | rfl := event.serving_or
  · obtain ⟨-, harchived, -⟩ := step_serving hserving
    rw [Storage.archivedRows, Storage.archivedRows, harchived]
  · rw [step]
    rcases eq_or_of_commit db _ with hsame | hok
    · rw [hsame]
    · rw [(h.captured hok).1.archived s]
      exact List.prefix_append _ _
  · exact absurd rfl hevent

/-- Archived rows stay as they are until a restore. -/
theorem run_archivedRows (h : Kept sha256 db) {events : List Event}
    (hevents : ∀ event ∈ events, event ≠ .restore) (s : Source) :
    db.archivedRows s <+: (run sha256 fromisoformat db events).archivedRows s := by
  induction events generalizing db with
  | nil => exact List.prefix_rfl
  | cons event events ih =>
      exact (step_archivedRows h (hevents event (.head _)) s).trans
        (ih (h.step fromisoformat event).1 fun e he ↦ hevents e (.tail _ he))

theorem mem_handsOut (sha256 : String → String) (fromisoformat : String → Bool) {s : Source}
    {event : Event} {id : ℤ} (h : id ∈ handsOut s db event) :
    (db.live s).highWater < id ∧
      id ≤ ((step sha256 fromisoformat db event).live s).highWater := by
  cases event with
  | update | delete | alter | capture | restore => cases h
  | insert s' row =>
      rw [handsOut] at h
      rw [step]
      cases hinsert : (db.live s').insert (db.columns s') (row.withId (db.live s').nextId) with
      | error e => simp [hinsert] at h
      | ok t =>
          rw [hinsert] at h
          split_ifs at h with hs
          · subst hs
            rw [List.mem_singleton] at h
            have hwater := (LiveTable.insert_eq_ok hinsert).2
            rw [rowId_withId] at hwater
            have hlive :
                ((db.commit (Except.ok t >>= fun t ↦ .ok (db.setLive s' t))).live s') = t :=
              db.setLive_live_self t
            rw [hlive, hwater, h, LiveTable.nextId]
            exact ⟨by omega, le_max_right _ _⟩
          · cases h

theorem Kept.highWater_run (h : Kept sha256 db) (fromisoformat : String → Bool)
    (events : List Event) (s : Source) :
    (db.live s).highWater ≤
      ((RetryArchive.run sha256 fromisoformat db events).live s).highWater := by
  induction events generalizing db with
  | nil => exact le_rfl
  | cons event events ih =>
      obtain ⟨hkept, hwater⟩ := h.step fromisoformat event
      exact (hwater s).trans (ih hkept)

/-- The ids that a run gives out are above the mark before it and at most the mark after it. -/
theorem Kept.mem_handedOut (h : Kept sha256 db) {s : Source} {events : List Event} {id : ℤ}
    (hid : id ∈ handedOut sha256 fromisoformat s db events) :
    (db.live s).highWater < id ∧
      id ≤ ((RetryArchive.run sha256 fromisoformat db events).live s).highWater := by
  induction events generalizing db with
  | nil => cases hid
  | cons event events ih =>
      obtain ⟨hkept, hwater⟩ := h.step fromisoformat event
      rcases List.mem_append.mp hid with hnow | hlater
      · obtain ⟨hnew, hmark⟩ := mem_handsOut sha256 fromisoformat hnow
        exact ⟨hnew, hmark.trans (hkept.highWater_run fromisoformat events s)⟩
      · obtain ⟨hnew, hmark⟩ := ih hkept hlater
        exact ⟨(hwater s).trans_lt hnew, hmark⟩

end Run

/-! ## Altered archives -/

def Storage.batchRows (db : Storage) (m : Manifest) (s : Source) : List (ArchivedRow s) :=
  ((db.archived s).getD []).filter (·.archiveId = m.archiveId)

/-- The ids of the archived rows, batch by batch. -/
def Storage.archivedIds (db : Storage) (s : Source) : List ℤ :=
  db.pending.flatMap fun m ↦ (db.batchRows m s).map fun row ↦ rowId row.row

/-- An archive that agrees with itself: there are no archive tables, or all of them are there with
the owner marker; every row has a manifest, every batch its own digests; and no id stands twice in
the archive or also in its live table. -/
structure Sound (sha256 : String → String) (db : Storage) : Prop where
  complete : (db.manifests = none ∧ ∀ s, db.archived s = none) ∨
    ∃ manifests, db.manifests = some manifests ∧ (∀ s, (db.archived s).isSome) ∧
      manifests.find? (·.archiveId = controlId) = some (controlManifest sha256)
  owned : ∀ s, ∀ row ∈ (db.archived s).getD [], row.archiveId ∈ db.pending.map (·.archiveId)
  batches : ∀ m ∈ db.pending, SoundBatch sha256 m (db.batchRows m)
  distinct : ∀ s, (db.archivedIds s).Nodup
  apart : ∀ s, ∀ id ∈ db.archivedIds s, id ∉ (db.live s).ids

/-- What `db'` may differ in from the archive of `db` although it kept a digest over it: a manifest
carries a digest of `db` while another of its fields, or the rows of that digest's table, are not
those of `db`. -/
inductive Altered (db db' : Storage) : Prop
  | manifest {m m' : Manifest} (s : Source) (hm : m ∈ db.pending) (hm' : m' ∈ db'.pending)
      (hdigest : m'.digest s = m.digest s) (hne : m' ≠ { m with digest := m'.digest })
  | rows {m m' : Manifest} (s : Source) (hm : m ∈ db.pending) (hm' : m' ∈ db'.pending)
      (hdigest : m'.digest s = m.digest s)
      (hrows : ¬(db'.batchRows m' s).Perm (db.batchRows m s))

section Altered

variable {sha256 : String → String} {db db' : Storage} {tables : ArchiveTables}

theorem archivedIds_batches (tables : ArchiveTables) (s : Source) :
    archivedIds tables.batches s =
      tables.pending.flatMap fun m ↦ (tables.batchRows m s).map fun row ↦ rowId row.row := by
  rw [archivedIds, ArchiveTables.batches, List.flatMap_map]
  rfl

theorem batchRows_of_tables (harchived : ∀ s, db.archived s = some (tables.archived s))
    (m : Manifest) : db.batchRows m = tables.batchRows m := by
  funext s
  rw [Storage.batchRows, harchived s]
  rfl

theorem archivedIds_of_tables (hmanifests : db.manifests = some tables.manifests)
    (harchived : ∀ s, db.archived s = some (tables.archived s)) (s : Source) :
    db.archivedIds s = archivedIds tables.batches s := by
  rw [archivedIds_batches, Storage.archivedIds, Storage.pending, hmanifests]
  simp only [batchRows_of_tables harchived]
  rfl

/-- An archive is read without an exception just where it is sound. -/
theorem sound_iff_read : Sound sha256 db ↔ ∃ o batches, archiveTables sha256 db = .ok o ∧
    readArchive sha256 db.live o = .ok batches := by
  constructor
  · intro h
    rcases h.complete with ⟨hmanifests, harchived⟩ | ⟨manifests, hmanifests, harchived, hcontrol⟩
    · exact ⟨none, [], by simp [archiveTables, hmanifests, harchived], rfl⟩
    · have hsome : ∀ s, ∃ rows, db.archived s = some rows := fun s ↦
        Option.isSome_iff_exists.mp (harchived s)
      choose archived harchived using hsome
      let tables : ArchiveTables := { manifests, archived }
      have hpending : db.pending = tables.pending := by
        rw [Storage.pending, hmanifests]
        rfl
      refine ⟨some tables, tables.batches, ?_, readArchive_eq_ok_iff.mpr ⟨⟨?_, ?_, ?_⟩, ?_, rfl⟩⟩
      · simp only [archiveTables, hmanifests, harchived]
        exact ensure_bind_eq_ok.mpr ⟨hcontrol, by rw [bySource_eta]⟩
      · intro s row hrow
        rw [← hpending]
        refine h.owned s row ?_
        rw [harchived s]
        exact hrow
      · intro m hm
        rw [readBatch_eq_ok_iff_sound, ← batchRows_of_tables harchived]
        exact h.batches m (hpending ▸ hm)
      · intro s
        rw [← archivedIds_of_tables hmanifests harchived]
        exact h.distinct s
      · intro s
        rw [← archivedIds_of_tables hmanifests harchived]
        exact h.apart s
  · rintro ⟨_ | tables, batches, ho, hread⟩
    · obtain ⟨hmanifests, harchived⟩ := archiveTables_eq_none ho
      have hpending : db.pending = [] := by rw [Storage.pending, hmanifests]; rfl
      have hids : ∀ s, db.archivedIds s = [] := fun s ↦ by rw [Storage.archivedIds, hpending]; rfl
      exact
        { complete := .inl ⟨hmanifests, harchived⟩
          owned := fun s ↦ by simp [harchived s]
          batches := by simp [hpending]
          distinct := fun s ↦ by simp [hids s]
          apart := fun s ↦ by simp [hids s] }
    · obtain ⟨hmanifests, harchived, hcontrol⟩ := archiveTables_eq_some ho
      obtain ⟨hverified, hapart, -⟩ := readArchive_eq_ok_iff.mp hread
      have hpending : db.pending = tables.pending := by
        rw [Storage.pending, hmanifests]
        rfl
      have hids := archivedIds_of_tables hmanifests harchived
      exact
        { complete := .inr ⟨_, hmanifests, fun s ↦ by rw [harchived s]; rfl, hcontrol⟩
          owned := fun s ↦ by
            rw [harchived s, hpending]
            exact hverified.owned s
          batches := fun m hm ↦ by
            rw [batchRows_of_tables harchived, ← readBatch_eq_ok_iff_sound]
            exact hverified.readable m (hpending ▸ hm)
          distinct := fun s ↦ by
            rw [hids s]
            exact hverified.distinct s
          apart := fun s ↦ by
            rw [hids s]
            exact hapart s }

theorem Kept.sound (h : Kept sha256 db) : Sound sha256 db := by
  obtain ⟨tables, hcreate, hkept⟩ := h
  obtain ⟨o, ho, hread, -⟩ := hkept.read_of_create hcreate
  exact sound_iff_read.mpr ⟨o, _, ho, hread⟩

/-- An archive that kept a digest over what was altered does not agree with itself. -/
theorem Altered.not_sound (haltered : Altered db db') (hsha : Function.Injective sha256)
    (h : Sound sha256 db) : ¬Sound sha256 db' := by
  intro h'
  have hbatch : ∀ s, ∀ m ∈ db.pending, ∀ m' ∈ db'.pending, m'.digest s = m.digest s →
      m' = { m with digest := m'.digest } ∧ (db'.batchRows m' s).Perm (db.batchRows m s) := by
    intro s m hm m' hm' hdigest
    have hid : ∀ (db : Storage) (m : Manifest), ∀ row ∈ db.batchRows m s,
        row.archiveId = m.archiveId := fun db m row hrow ↦ by
      simpa using (List.mem_filter.mp hrow).2
    exact (h.batches m hm).eq_of_digest_eq hsha (h'.batches m' hm') (hid db m) (hid db' m') hdigest
  rcases haltered with ⟨s, hm, hm', hdigest, hne⟩ | ⟨s, hm, hm', hdigest, hrows⟩
  · exact hne (hbatch s _ hm _ hm' hdigest).1
  · exact hrows (hbatch s _ hm _ hm' hdigest).2

theorem restore_error (h : ¬Sound sha256 db) : ∃ e, restore sha256 db = .error e := by
  cases hrestore : restore sha256 db with
  | error e => exact ⟨e, rfl⟩
  | ok db' =>
      obtain ⟨_, -, hrest⟩ := bind_eq_ok.mp hrestore
      obtain ⟨o, ho, hrest⟩ := bind_eq_ok.mp hrest
      obtain ⟨batches, hread, -⟩ := bind_eq_ok.mp hrest
      exact absurd (sound_iff_read.mpr ⟨o, batches, ho, hread⟩) h

theorem Sound.restore_ok (h : Sound sha256 db) (hnullable : db.originalNullable = true) :
    ∃ db', restore sha256 db = .ok db' := by
  obtain ⟨o, batches, ho, hread⟩ := sound_iff_read.mp h
  exact restore_of_read hnullable ho hread

end Altered

/-! ## The round trip -/

/-- The database before the first capture: any live tables, and no archive tables yet. -/
def Storage.unarchived (live : (s : Source) → LiveTable s) (originalNullable : Bool) : Storage where
  live := live
  originalNullable := originalNullable
  manifests := none
  archived _ := none

/-- Captures and restores after any events.  A capture returns if the rows fit their columns, and
only then; one that returns moves exactly the undated rows into the archive, which keeps them.  A
restore at the head revision puts all of them back, and later inserts get ids that were never used.
Whatever was done to the archive, a restore returns if it agrees with itself, and raises if it does
not, as after every alteration that left a digest over what it altered. -/
theorem retry_archive_round_trip {sha256 : String → String} (hsha : Function.Injective sha256)
    (fromisoformat : String → Bool) (live : (s : Source) → LiveTable s) (originalNullable : Bool)
    (events : List Event) :
    let db := run sha256 fromisoformat (.unarchived live originalNullable) events
    (∀ archiveId revision schema, checkSources revision db = .ok schema →
      archiveId ∉ db.archiveIds →
        ((∃ db', capture sha256 fromisoformat archiveId revision db = .ok db') ↔
          ∀ s, ∀ row ∈ (db.live s).rows, Compatible schema row)) ∧
    (∀ archiveId revision db', capture sha256 fromisoformat archiveId revision db = .ok db' →
      ∀ s, (db'.live s).rows = (db.live s).rows.filter (!undated fromisoformat ·) ∧
        (db'.archivedRows s).Perm
          (db.archivedRows s ++ (db.live s).rows.filter (undated fromisoformat ·))) ∧
    (∀ later, (∀ event ∈ later, event ≠ .restore) →
      ∀ s, db.archivedRows s <+: (run sha256 fromisoformat db later).archivedRows s) ∧
    (db.originalNullable = true → ∃ db', restore sha256 db = .ok db' ∧ db'.pending = [] ∧
      ∀ s, (db'.live s).rows = (db.live s).rows ++ db.archivedRows s ∧ db'.archivedRows s = [] ∧
        ∀ later, ∀ id ∈ handedOut sha256 fromisoformat s db' later,
          id ∉ (live s).ids ∧
          id ∉ handedOut sha256 fromisoformat s (.unarchived live originalNullable) events) ∧
    ∀ db',
      (Sound sha256 db' → db'.originalNullable = true → ∃ db'', restore sha256 db' = .ok db'') ∧
      (¬Sound sha256 db' →
        (∃ e, restore sha256 db' = .error e) ∧ step sha256 fromisoformat db' .restore = db') ∧
      (Altered db db' → ¬Sound sha256 db') := by
  intro db
  have hstart : Kept sha256 (.unarchived live originalNullable) := .of_absent rfl
  have hkept : Kept sha256 db := hstart.run events
  refine ⟨?_, ?_, ?_, ?_, fun db' ↦ ⟨Sound.restore_ok, ?_, fun h ↦ h.not_sound hsha hkept.sound⟩⟩
  · intro archiveId revision schema hschema hfresh
    constructor
    · rintro ⟨db', hok⟩
      obtain ⟨found, hfound, hrows, -⟩ := hkept.of_capture_eq_ok hok
      rwa [← Except.ok.inj (hfound.symm.trans hschema)]
    · intro hrows
      obtain ⟨db', hok, -⟩ := hkept.capture_eq_ok hschema hrows fun _ ↦ hfresh
      exact ⟨db', hok⟩
  · intro archiveId revision db' hcapture s
    obtain ⟨hspec, -⟩ := hkept.captured hcapture
    refine ⟨hspec.live s, ?_⟩
    rw [hspec.archived s]
    exact ((sortById_perm _).filter _).append_left _
  · intro later hlater s
    exact run_archivedRows hkept hlater s
  · intro hnullable
    obtain ⟨db', hok, hrows, hempty, hpending, hwater, hkept'⟩ := hkept.restore hnullable
    refine ⟨db', hok, hpending, fun s ↦ ⟨hrows s, hempty s, fun later id hid ↦ ?_⟩⟩
    have hnew : (db.live s).highWater < id := (hwater s).trans_lt (hkept'.mem_handedOut hid).1
    constructor
    · intro hold
      have hfirst := LiveTable.le_highWater hold
      have hgrown := hstart.highWater_run fromisoformat events s
      exact absurd hnew (not_lt.mpr (hfirst.trans hgrown))
    · intro hold
      exact absurd hnew (not_lt.mpr (hstart.mem_handedOut hold).2)
  · intro hunsound
    obtain ⟨e, herror⟩ := restore_error hunsound
    refine ⟨⟨e, herror⟩, ?_⟩
    rw [step, herror]
    rfl

/-- A waiting event whose next attempt has no readable date. -/
def waitingRow (payload : String) : RawRow .retryQueue
  | .id => .int 1
  | .projectId => .int 7
  | .eventType => .text "merge_request"
  | .payload => .text payload
  | .attemptCount => .int 0
  | .maxAttempts => .int 3
  | .nextAttemptAt => .text "CURRENT_TIMESTAMP"
  | .lastError => .null
  | .createdAt => .null

def oneWaiting (payload : String) : (s : Source) → LiveTable s
  | .retryQueue =>
      { rows := [waitingRow payload]
        seq := some 1
        integral := by simp [waitingRow, rowId]
        unique := List.nodup_singleton _
        issued := by simp [waitingRow, rowId] }
  | .dlq =>
      { rows := []
        seq := none
        integral := by simp
        unique := List.nodup_nil
        issued := by simp }

theorem compatible_oneWaiting (payload : String) :
    ∀ s, ∀ row ∈ (oneWaiting payload s).rows, Compatible ⟨true⟩ row := by
  intro s row hrow
  cases s with
  | retryQueue =>
      rw [List.mem_singleton.mp hrow]
      simp [Compatible, Schema.columns, waitingRow, Value.fits]
  | dlq => cases hrow

theorem capture_oneWaiting (payload : String) : ∃ archive,
    capture id (fun _ ↦ false) "archive" .head (.unarchived (oneWaiting payload) true) =
      .ok archive ∧ archive.archivedRows .retryQueue = [waitingRow payload] ∧
      (∀ s, (archive.live s).rows = []) ∧ archive.originalNullable = true ∧ Kept id archive := by
  have hkept : Kept id (.unarchived (oneWaiting payload) true) := .of_absent rfl
  have hschema : checkSources .head (.unarchived (oneWaiting payload) true) = .ok ⟨true⟩ := rfl
  have hfresh : "archive" ∉ (Storage.unarchived (oneWaiting payload) true).archiveIds := by
    simp [Storage.archiveIds, Storage.unarchived, controlId]
  obtain ⟨archive, hok, hspec, harchive⟩ :=
    hkept.capture_eq_ok hschema (compatible_oneWaiting payload) fun _ ↦ hfresh
  refine ⟨archive, hok, ?_, fun s ↦ ?_, hspec.nullable, harchive⟩
  · rw [hspec.archived]
    simp [captured, sortById, Storage.archivedRows, Storage.unarchived, oneWaiting, undated, dates,
      unknown, waitingRow]
  · rw [hspec.live]
    cases s with
    | retryQueue => simp [Storage.unarchived, oneWaiting, undated, dates, unknown, waitingRow]
    | dlq => rfl

/-- A waiting event is captured, and put back with its id. -/
theorem retry_archive_round_trip_of_one_event :
    let db := run id (fun _ ↦ false) (.unarchived (oneWaiting "event") true)
      [.capture "archive" .head]
    (∀ s, (db.live s).rows = []) ∧ db.archivedRows .retryQueue = [waitingRow "event"] ∧
      ∃ db', restore id db = .ok db' ∧ db'.pending = [] ∧
        (db'.live .retryQueue).rows = [waitingRow "event"] := by
  intro db
  obtain ⟨archive, hok, harchived, hlive, hnullable, -⟩ := capture_oneWaiting "event"
  have hdb : db = archive := congrArg (Storage.commit _) hok
  rw [← hdb] at harchived hlive hnullable
  obtain ⟨-, -, -, hrestore, -⟩ := retry_archive_round_trip Function.injective_id (fun _ ↦ false)
    (oneWaiting "event") true [.capture "archive" .head]
  obtain ⟨db', hrestored, hpending, hrows⟩ := hrestore hnullable
  refine ⟨hlive, harchived, db', hrestored, hpending, (hrows .retryQueue).1.trans ?_⟩
  change (db.live .retryQueue).rows ++ db.archivedRows .retryQueue = [waitingRow "event"]
  rw [hlive, harchived, List.nil_append]

/-- The digests are no secret: an archive whose row was exchanged together with all digests over it
is restored like any other. -/
theorem restore_accepts_forged_event : ∃ archive altered restored : Storage,
    capture id (fun _ ↦ false) "archive" .head (.unarchived (oneWaiting "event") true) =
      .ok archive ∧
    archive.archivedRows .retryQueue = [waitingRow "event"] ∧
    altered.archivedRows .retryQueue = [waitingRow "forged"] ∧
    (∀ s, (altered.live s).rows = (archive.live s).rows) ∧
    restore id altered = .ok restored ∧
    (restored.live .retryQueue).rows = [waitingRow "forged"] := by
  obtain ⟨archive, hok, hrows, hlive, -, -⟩ := capture_oneWaiting "event"
  obtain ⟨altered, -, hrows', hlive', hnullable, hkept⟩ := capture_oneWaiting "forged"
  obtain ⟨restored, hrestored, hback, -⟩ := hkept.restore hnullable
  refine ⟨archive, altered, restored, hok, hrows, hrows', fun s ↦ ?_, hrestored, ?_⟩
  · rw [hlive s, hlive' s]
  · rw [hback, hlive', hrows', List.nil_append]

end RetryArchive

end MergeQueue
