import CodeAtlas.Proofs.Index.Storage
import CodeAtlas.Proofs.Tallies

/-!
# What the statistics count

Each position of an index whose name is live counts once: for its file, its kind, and each of
its folders and tags.  The statistics keep the exact counts, and of the folders and tags those
that occur most often.
-/

namespace CodeAtlas

namespace Record

variable {record : Record} {name : String}

theorem set_eq_insertEntries (record : Record) (name : String) (value : Value) :
    record.set name value = Table.insertEntries name value record := by
  induction record with
  | nil => rfl
  | cons entry record ih =>
    rw [set, Table.insertEntries, ih]
    split
    · rename_i same
      rw [eq_of_beq same]
    · rfl

theorem lookup_set (record : Record) (name other : String) (value : Value) :
    (record.set name value).lookup other =
      if other == name then some value else record.lookup other := by
  rw [set_eq_insertEntries]
  exact Table.lookup_insertEntries name other value record

theorem update_of_nodup {changes : Record} (single : ((record ++ changes).map Prod.fst).Nodup) :
    record.update changes = record ++ changes := by
  induction changes generalizing record with
  | nil => exact (List.append_nil record).symm
  | cons entry changes ih =>
    have fresh : entry.1 ∉ record.map Prod.fst := by
      rw [List.map_append, List.nodup_append] at single
      exact fun known => single.2.2 _ known _ (by simp) rfl
    rw [update, List.foldl_cons, set_eq_insertEntries, Table.insertEntries_of_fresh _ fresh]
    have rest := @ih (record ++ [entry]) (by simpa using single)
    simpa [update] using rest

/-- The text in a field, which is unknown where there is none. -/
def textIn (record : Record) (name : String) : String :=
  ((record.lookup name).bind Value.asText?).getD "unknown"

def textsIn (record : Record) (name : String) : List String :=
  match record.lookup name with
  | some (.list items) => items.filterMap Value.asText?
  | _ => []

/-- The fields that are counted hold a text or a list of texts, if they are there. -/
structure HasTexts (record : Record) : Prop where
  file : ∀ value ∈ record.lookup "relative_path", ∃ text, value = .text text
  kind : ∀ value ∈ record.lookup "chunk_type", ∃ text, value = .text text
  folders : ∀ value ∈ record.lookup "folder_structure", ∃ texts, value = .ofTexts texts
  tags : ∀ value ∈ record.lookup "tags", ∃ texts, value = .ofTexts texts

end Record

namespace Statistics

variable {record : Record} {name : String}

theorem fieldKey_eq (holds : ∀ value ∈ record.lookup name, ∃ text, value = .text text) :
    fieldKey record name = .ok (.text (record.textIn name)) := by
  rw [fieldKey, Record.textIn]
  cases found : record.lookup name with
  | none => rfl
  | some value =>
    obtain ⟨text, rfl⟩ := holds value found
    rfl

theorem memberKeys_eq (holds : ∀ value ∈ record.lookup name, ∃ texts, value = .ofTexts texts) :
    memberKeys record name = .ok ((record.textsIn name).map .text) := by
  rw [memberKeys, Record.textsIn]
  cases found : record.lookup name with
  | none => rfl
  | some value =>
    obtain ⟨texts, rfl⟩ := holds value found
    have counted : (texts.map Value.text).mapM countable = .ok ((texts.map Value.text).map id) :=
      mapM_eq_ok (by simp [countable, Value.isPlain])
    have same : (texts.map Value.text).filterMap Value.asText? = texts := by
      rw [List.filterMap_map]
      exact List.filterMap_some
    simpa [Value.ofTexts, Value.members, same, bind, Except.bind] using counted

def counted (record : Record) : Contribution :=
  ⟨.text (record.textIn "relative_path"), (record.textsIn "folder_structure").map .text,
    .text (record.textIn "chunk_type"), (record.textsIn "tags").map .text⟩

theorem contribution_eq (texts : record.HasTexts) :
    contribution record = .ok (counted record) := by
  rw [contribution, fieldKey_eq texts.file, memberKeys_eq texts.folders, fieldKey_eq texts.kind,
    memberKeys_eq texts.tags]
  rfl

theorem countsValue_texts {counts : List (String × Nat)} (single : (counts.map Prod.fst).Nodup) :
    countsValue (counts.map (Prod.map .text id)) =
      .record (counts.map fun entry => (entry.1, .int entry.2)) := by
  rw [countsValue, List.map_map]
  refine congrArg Value.record (Record.update_of_nodup ?_)
  simpa [Function.comp_def, fieldName] using single

private theorem text_beq (text other : String) :
    (Value.text text == .text other) = (text == other) := rfl

theorem countsValue_tally (texts : List String) :
    countsValue (Table.tally (texts.map .text)).entries =
      .record ((Table.tally texts).entries.map fun entry => (entry.1, .int entry.2)) := by
  rw [Table.tally_map text_beq, countsValue_texts]
  rw [Table.tally_entries, List.map_map]
  exact (List.map_id _).symm ▸ Table.nodup_eraseDups texts

theorem exists_tops (limit : Nat) (texts : List String) :
    ∃ counts, countsValue (top limit (texts.map .text)) =
        .record (counts.map fun entry => (entry.1, .int entry.2)) ∧
      Table.Tops limit texts counts := by
  have tops := (Table.ranks_byCount texts).tops limit
  have single := Table.nodup_of_leads tops.ordered fun entry inside => (tops.exact entry inside).1
  refine ⟨_, ?_, tops⟩
  rw [top, Table.byCount_map text_beq, ← List.map_take, countsValue_texts single]

/-- The statistics of an index with so many positions, at the live ones of which the records
stand. -/
structure Describe (statistics : Record) (size : Nat) (live : List Record) : Prop where
  total : statistics.lookup "total_chunks" = some (.int size)
  files : statistics.lookup "files_indexed" =
    some (.int (live.map (·.textIn "relative_path")).toFinset.card)
  kinds : ∃ counts, statistics.lookup "chunk_types" =
      some (.record (counts.map fun entry => (entry.1, .int entry.2))) ∧
    Table.Counts (live.map (·.textIn "chunk_type")) counts ∧
    (counts.map Prod.snd).sum = live.length ∧ live.length ≤ size
  folders : ∃ counts, statistics.lookup "top_folders" =
      some (.record (counts.map fun entry => (entry.1, .int entry.2))) ∧
    Table.Tops 10 (live.flatMap (·.textsIn "folder_structure")) counts
  tags : ∃ counts, statistics.lookup "top_tags" =
      some (.record (counts.map fun entry => (entry.1, .int entry.2))) ∧
    Table.Tops 20 (live.flatMap (·.textsIn "tags")) counts

theorem gather_describes (index : Option VectorIndex) {catalog : Catalog} {names : List String}
    (texts : ∀ record ∈ liveRecords catalog names, record.HasTexts) :
    ∃ statistics, gather index catalog names = .ok statistics ∧
      Describe statistics.toRecord names.length (liveRecords catalog names) := by
  have parts := mapM_eq_ok fun record inside => contribution_eq (texts record inside)
  have fewer : (liveRecords catalog names).length ≤ names.length := List.length_filterMap_le _ _
  refine ⟨_, by rw [gather, parts]; rfl, ?_⟩
  generalize liveRecords catalog names = live at fewer
  have files : (live.map counted).map Contribution.file =
      (live.map (·.textIn "relative_path")).map .text := by
    rw [List.map_map, List.map_map]
    rfl
  have folders : (live.map counted).flatMap Contribution.folders =
      (live.flatMap (·.textsIn "folder_structure")).map .text := by
    rw [List.flatMap_map, List.map_flatMap]
    rfl
  have kinds : (live.map counted).map Contribution.kind =
      (live.map (·.textIn "chunk_type")).map .text := by
    rw [List.map_map, List.map_map]
    rfl
  have tags : (live.map counted).flatMap Contribution.tags =
      (live.flatMap (·.textsIn "tags")).map .text := by
    rw [List.flatMap_map, List.map_flatMap]
    rfl
  have summed := Table.counts_tally (live.map (·.textIn "chunk_type"))
  rw [files, folders, kinds, tags]
  obtain ⟨topFolders, foldersKept, foldersTop⟩ :=
    exists_tops 10 (live.flatMap (·.textsIn "folder_structure"))
  obtain ⟨topTags, tagsKept, tagsTop⟩ := exists_tops 20 (live.flatMap (·.textsIn "tags"))
  refine ⟨rfl, ?_, ⟨_, congrArg some (countsValue_tally _), summed, ?_, fewer⟩,
    ⟨topFolders, congrArg some foldersKept, foldersTop⟩, ⟨topTags, congrArg some tagsKept, tagsTop⟩⟩
  · rw [← Table.length_tally, ← @List.length_map _ _ _ (Prod.map Value.text id),
      ← Table.tally_map text_beq]
    rfl
  · rw [summed.sum, List.length_map]

end Statistics

namespace ChunkIndex

variable {state : IndexState} {kept : Contents}

/-- The statistics of an index in any state are those of the catalog that its calls see. -/
theorem statistics_are_exact (files : state.world.KeepsIndex state.chunks.folder kept)
    (texts : ∀ name ∈ state.chunks.names, ∀ entry,
      (state.chunks.seenCatalog kept).get? name = some entry → entry.record.HasTexts) :
    ∃ after kept' statistics, runFrom state writeStatistics = (.ok (), after) ∧
      after.world.KeepsIndex state.chunks.folder kept' ∧
      kept' .statistics = some (.record statistics) ∧
      Statistics.Describe statistics state.chunks.names.length
        (state.chunks.names.filterMap fun name =>
          ((state.chunks.seenCatalog kept).get? name).map Entry.record) := by
  have live : ∀ record ∈ Statistics.liveRecords (state.chunks.seenCatalog kept)
      state.chunks.names, record.HasTexts := by
    intro record inside
    obtain ⟨name, known, found⟩ := List.mem_filterMap.mp inside
    obtain ⟨entry, entered, rfl⟩ := Option.map_eq_some_iff.mp found
    exact texts name known entry entered
  obtain ⟨statistics, gathered, describe⟩ :=
    Statistics.gather_describes state.chunks.vectors live
  obtain ⟨after, kept', written, files', onDisk⟩ := runFrom_writeStatistics files gathered
  exact ⟨after, kept', statistics.toRecord, written, files', onDisk, describe⟩

/-- A name that stands twice counts twice, one that is not live not at all. -/
theorem statistics_of_four_names :
    let first : Record := [("relative_path", .text "a.py"), ("tags", .ofTexts ["x", "y"])]
    let second : Record := [("chunk_type", .text "class"), ("tags", .ofTexts ["y"])]
    let catalog : Catalog := ⟨[("one", ⟨0, first⟩), ("two", ⟨1, second⟩)]⟩
    let folder : Path := ⟨.root, ["store"]⟩
    ∃ after kept statistics, runFrom ⟨⟨folder, none, ["one", "two", "one", "gone"], some catalog,
        false⟩, World.bare folder⟩ writeStatistics = (.ok (), after) ∧
      after.world.KeepsIndex folder kept ∧ kept .statistics = some (.record statistics) ∧
      Statistics.Describe statistics 4 [first, second, first] := by
  intro first second catalog folder
  refine @statistics_are_exact ⟨⟨folder, none, ["one", "two", "one", "gone"], some catalog, false⟩,
    World.bare folder⟩ _ World.bare_keepsIndex fun name known entry entered => ?_
  have firstTexts : first.HasTexts := by
    constructor <;> rintro value ⟨⟩ <;> exact ⟨_, rfl⟩
  have secondTexts : second.HasTexts := by
    constructor <;> rintro value ⟨⟩ <;> exact ⟨_, rfl⟩
  simp only [List.mem_cons, List.not_mem_nil, or_false] at known
  rcases known with rfl | rfl | rfl | rfl
  · cases entered
    exact firstTexts
  · cases entered
    exact secondTexts
  · cases entered
    exact firstTexts
  · cases entered

end ChunkIndex

end CodeAtlas
