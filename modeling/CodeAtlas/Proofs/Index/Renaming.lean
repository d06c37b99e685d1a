import CodeAtlas.Indexing.Run
import CodeAtlas.Proofs.Tables
import CodeAtlas.Search.Results
import Mathlib.Logic.Equiv.Basic

/-!
# Other names for projects

Names of projects are exchanged for others in the records of an index.  The name of a project is
compared when chunks are removed and nowhere else, so what an index answers about its records with
other names is what it answered before, with the names exchanged.
-/

namespace CodeAtlas

/-- The record with a field changed wherever it stands. -/
def Record.changeField (name : String) (change : Value → Value) (record : Record) : Record :=
  record.map (fun entry => (entry.1, if entry.1 == name then change entry.2 else entry.2))

namespace Record

variable {name : String} {change : Value → Value}

theorem lookup_changeField_self (record : Record) :
    (record.changeField name change).lookup name = (record.lookup name).map change := by
  induction record with
  | nil => rfl
  | cons entry record ih =>
    rw [changeField, List.map_cons, List.lookup_cons, List.lookup_cons]
    cases same : name == entry.1 with
    | false => exact ih
    | true =>
      obtain rfl : name = entry.1 := beq_iff_eq.mp same
      simp

theorem lookup_changeField_of_ne {other : String} (different : other ≠ name) (record : Record) :
    (record.changeField name change).lookup other = record.lookup other := by
  induction record with
  | nil => rfl
  | cons entry record ih =>
    rw [changeField, List.map_cons, List.lookup_cons, List.lookup_cons]
    cases same : other == entry.1 with
    | false => exact ih
    | true =>
      obtain rfl : other = entry.1 := beq_iff_eq.mp same
      simp [different]

theorem changeField_set (record : Record) (other : String) (value : Value) :
    (record.set other value).changeField name change =
      (record.changeField name change).set other
        (if other == name then change value else value) := by
  induction record with
  | nil => rfl
  | cons entry record ih =>
    rw [set, changeField, changeField, List.map_cons, set]
    cases same : other == entry.1 with
    | false => simpa [changeField] using ih
    | true => simp

theorem changeField_update (record changes : Record) :
    (record.update changes).changeField name change =
      (record.changeField name change).update (changes.changeField name change) := by
  induction changes generalizing record with
  | nil => rfl
  | cons entry changes ih =>
    have first : (record.set entry.1 entry.2).changeField name change = _ :=
      changeField_set record entry.1 entry.2
    have rest := ih (record.set entry.1 entry.2)
    rw [first] at rest
    exact rest

theorem changeField_of_missing {record : Record} (missing : ∀ entry ∈ record, entry.1 ≠ name) :
    record.changeField name change = record := by
  rw [changeField]
  conv_rhs => rw [← List.map_id record]
  refine List.map_congr_left (fun entry member => ?_)
  simp [missing entry member]

end Record

variable {exchange : Equiv.Perm String}

/-- A name exchanged for another one; other values stay. -/
def Value.rename (exchange : Equiv.Perm String) : Value → Value
  | .text name => .text (exchange name)
  | other => other

namespace Value

theorem agrees_rename (first second : Value) :
    (first.rename exchange).agrees (second.rename exchange) = first.agrees second := by
  cases first <;> cases second <;> simp [rename, agrees, sameNumber?, asInt?]

theorem isTruthy_rename (empty : exchange "" = "") (value : Value) :
    (value.rename exchange).isTruthy = value.isTruthy := by
  cases value with
  | text name =>
    have same : (exchange name).isEmpty = name.isEmpty := by
      rw [Bool.eq_iff_iff, String.isEmpty_iff, String.isEmpty_iff]
      refine ⟨fun none => exchange.injective (none.trans empty.symm), ?_⟩
      rintro rfl
      exact empty
    rw [rename, isTruthy, isTruthy, same]
  | _ => rfl

end Value

/-- The record of a chunk with the name of its project exchanged. -/
def Record.rename (exchange : Equiv.Perm String) (record : Record) : Record :=
  record.changeField "project_name" (Value.rename exchange)

theorem Record.lookup_rename {name : String} (different : name ≠ "project_name")
    (record : Record) : (record.rename exchange).lookup name = record.lookup name :=
  lookup_changeField_of_ne different record

theorem Record.lookup_project_rename (record : Record) :
    (record.rename exchange).lookup "project_name" =
      (record.lookup "project_name").map (Value.rename exchange) :=
  lookup_changeField_self record

/-- The value with its fields changed, if it is a record. -/
def Value.onFields (change : Record → Record) : Value → Value
  | .record fields => .record (change fields)
  | other => other

def Entry.rename (exchange : Equiv.Perm String) (entry : Entry) : Entry :=
  { entry with record := entry.record.rename exchange }

def Embedded.rename (exchange : Equiv.Perm String) (item : Embedded) : Embedded :=
  { item with record := item.record.rename exchange }

def Hit.rename (exchange : Equiv.Perm String) (hit : Hit) : Hit :=
  { hit with record := hit.record.rename exchange }

theorem Hit.field_rename {name : String} (different : name ≠ "project_name") (hit : Hit)
    (other : Value) : (hit.rename exchange).field name other = hit.field name other := by
  rw [field, field, rename, Record.lookup_rename different]

namespace Catalog

def rename (exchange : Equiv.Perm String) (catalog : Catalog) : Catalog :=
  catalog.map (Entry.rename exchange)

def renameEntry (exchange : Equiv.Perm String) : Value → Value :=
  .onFields (Record.changeField "metadata" (.onFields (Record.rename exchange)))

/-- The document of a catalog with the names of projects exchanged. -/
def renameDocument (exchange : Equiv.Perm String) : Value → Value :=
  .onFields (List.map (fun entry => (entry.1, renameEntry exchange entry.2)))

theorem get?_rename (catalog : Catalog) (name : String) :
    (catalog.rename exchange).get? name = (catalog.get? name).map (Entry.rename exchange) :=
  Table.get?_map _ catalog name

theorem contains_rename (catalog : Catalog) (name : String) :
    (catalog.rename exchange).contains name = catalog.contains name := by
  rw [Table.contains, Table.contains, get?_rename, Option.isSome_map]

theorem enter_rename (catalog : Catalog) (start : Nat) (items : List Embedded) :
    (catalog.rename exchange).enter start (items.map (Embedded.rename exchange)) =
      rename exchange (catalog.enter start items) := by
  induction items generalizing catalog start with
  | nil => rfl
  | cons item items ih =>
    have first : rename exchange (catalog.insert item.identifier ⟨start, item.record⟩) = _ :=
      Table.map_insert _ catalog item.identifier _
    have rest := ih (catalog.insert item.identifier ⟨start, item.record⟩) (start + 1)
    rw [first] at rest
    exact rest

theorem removeAll_rename (catalog : Catalog) (names : List String) :
    (catalog.rename exchange).removeAll names =
      (rename exchange (catalog.removeAll names).1, (catalog.removeAll names).2) := by
  induction names generalizing catalog with
  | nil => rfl
  | cons name names ih =>
    rw [removeAll, removeAll, contains_rename]
    split
    · have erased : rename exchange (catalog.erase name) = _ := Table.map_erase _ catalog name
      have rest := ih (catalog.erase name)
      rw [erased] at rest
      exact rest
    · rfl

theorem toValue_rename (catalog : Catalog) :
    (catalog.rename exchange).toValue = renameDocument exchange catalog.toValue := by
  simp [toValue, rename, Table.map, renameDocument, renameEntry, Value.onFields,
    Record.changeField, Entry.rename, Function.comp_def]

theorem entryOf?_rename (value : Value) :
    entryOf? (renameEntry exchange value) = (entryOf? value).map (Entry.rename exchange) := by
  cases value with
  | record parts =>
    simp only [entryOf?, renameEntry, Value.onFields, Value.field?,
      Record.lookup_changeField_of_ne (show "index_id" ≠ "metadata" by decide),
      Record.lookup_changeField_self]
    rcases parts.lookup "index_id" with _ | position
    · rfl
    · rcases parts.lookup "metadata" with _ | record
      · cases position <;> rfl
      · cases position <;> cases record <;> rfl
  | _ => rfl

theorem ofValue_rename (value : Value) :
    ofValue (renameDocument exchange value) = rename exchange (ofValue value) := by
  cases value with
  | record fields =>
    have read : (fields.map (fun entry => (entry.1, renameEntry exchange entry.2))).filterMap
        (fun entry => (entryOf? entry.2).map (entry.1, ·)) =
        (fields.filterMap (fun entry => (entryOf? entry.2).map (entry.1, ·))).map
          (fun entry => (entry.1, entry.2.rename exchange)) := by
      rw [List.filterMap_map, List.map_filterMap]
      refine congrArg (List.filterMap · fields) (funext fun entry => ?_)
      simp only [Function.comp_apply, entryOf?_rename, Option.map_map]
      rfl
    exact congrArg Table.mk read
  | _ => rfl

theorem filePath_rename (record : Record) : filePath (record.rename exchange) = filePath record := by
  simp (disch := decide) only [filePath, Record.lookup_rename]

/-- A record that names a project belongs to a file of it, and so it does with both names
exchanged. -/
theorem belongsTo_rename (empty : exchange "" = "") (path project : Value) (record : Record) :
    belongsTo path (project.rename exchange) (record.rename exchange) =
      belongsTo path project record := by
  have named : (((record.rename exchange).lookup "project_name").getD .null).agrees
      (project.rename exchange) =
      ((record.lookup "project_name").getD .null).agrees project := by
    rw [Record.lookup_project_rename]
    cases record.lookup "project_name" with
    | none => exact Value.agrees_rename .null project
    | some name => exact Value.agrees_rename name project
  simp only [belongsTo, filePath_rename, Value.isTruthy_rename empty, named]

theorem belonging_rename (empty : exchange "" = "") (catalog : Catalog) (path project : Value)
    (names : List String) :
    (catalog.rename exchange).belonging path (project.rename exchange) names =
      catalog.belonging path project names := by
  induction names with
  | nil => rfl
  | cons name names ih =>
    rw [belonging, belonging, get?_rename]
    cases catalog.get? name with
    | none => exact ih
    | some entry =>
      simp only [Option.map_some, Entry.rename, belongsTo_rename empty, ih]

end Catalog

namespace Filter

/-- A filter that does not ask for the project. -/
def IsBlind (filter : Value) : Prop :=
  ∀ demands, filter = .record demands → ∀ demand ∈ demands, demand.1 ≠ "project_name"

theorem meets_rename {name : String} (different : name ≠ "project_name") (record : Record)
    (demand : Value) : meets (record.rename exchange) name demand = meets record name demand := by
  simp (disch := decide) only [meets, Record.lookup_rename different, Record.lookup_rename]

theorem meetsAll_rename (record : Record) {demands : Record}
    (blind : ∀ demand ∈ demands, demand.1 ≠ "project_name") :
    meetsAll (record.rename exchange) demands = meetsAll record demands := by
  induction demands with
  | nil => rfl
  | cons demand demands ih =>
    obtain ⟨here, later⟩ := List.forall_mem_cons.mp blind
    rw [meetsAll, meetsAll, meets_rename here, ih later]

theorem accepts_rename {filter : Value} (blind : IsBlind filter) (record : Record) :
    accepts (record.rename exchange) filter = accepts record filter := by
  rw [accepts, accepts]
  cases filter with
  | record demands =>
    rw [demandsOf]
    simp only [bind, Except.bind, meetsAll_rename record (blind demands rfl)]
  | _ => rfl

end Filter

theorem Catalog.collect_rename {filter : Value} (blind : Filter.IsBlind filter) (catalog : Catalog)
    (names : List String) (count : Int) (kept : List Hit) (found : List (Similarity × Nat)) :
    (catalog.rename exchange).collect names filter count (kept.map (Hit.rename exchange)) found =
      (catalog.collect names filter count kept found).map
        (List.map (Hit.rename exchange)) := by
  induction found generalizing kept with
  | nil => simp [collect, Except.map]
  | cons first found ih =>
    obtain ⟨similarity, position⟩ := first
    rw [collect, collect]
    cases names[position]? with
    | none => rfl
    | some name =>
      dsimp only
      rw [get?_rename]
      cases catalog.get? name with
      | none => exact ih kept
      | some entry =>
        have next := ih (⟨name, similarity, entry.record⟩ :: kept)
        simp only [Option.map_some, Entry.rename, Filter.accepts_rename blind]
        cases Filter.accepts entry.record filter with
        | error fault => rfl
        | ok accepted =>
          cases accepted with
          | false => exact ih kept
          | true =>
            simp only [bind, Except.bind, if_true, List.length_cons, List.length_map]
            split
            · simp [Except.map, Pure.pure, Except.pure, Hit.rename]
            · exact next

namespace Statistics

theorem contribution_rename (record : Record) :
    contribution (record.rename exchange) = contribution record := by
  simp (disch := decide) only [contribution, fieldKey, memberKeys, Record.lookup_rename]

theorem liveRecords_rename (catalog : Catalog) (names : List String) :
    liveRecords (catalog.rename exchange) names =
      (liveRecords catalog names).map (Record.rename exchange) := by
  simp only [liveRecords, Catalog.get?_rename, List.map_filterMap, Option.map_map]
  rfl

/-- The statistics do not tell the names of projects. -/
theorem gather_rename (index : Option VectorIndex) (catalog : Catalog) (names : List String) :
    gather index (catalog.rename exchange) names = gather index catalog names := by
  simp only [gather, liveRecords_rename, List.mapM_map, Function.comp_def, contribution_rename]

end Statistics

namespace Indexer

theorem rename_indexRecord (chunk : Chunk) :
    Record.rename exchange chunk.indexRecord = chunk.indexRecord := by
  refine Record.changeField_of_missing ?_
  simp [Chunk.indexRecord, Chunk.placeFields]

theorem record_of_embedChunks {encoder : Encoder} {size : Int} {chunks : List Chunk}
    {items : List Embedded} (embedded : encoder.embedChunks size chunks = .ok items) :
    ∀ item ∈ items, ∃ chunk : Chunk, item.record = chunk.indexRecord := by
  intro item member
  rw [Encoder.embedChunks] at embedded
  split at embedded
  · cases embedded
  · split at embedded
    · rw [← Except.ok.inj embedded] at member
      cases member
    · rw [← Except.ok.inj embedded] at member
      obtain ⟨batch, -, member⟩ := List.mem_flatMap.mp member
      rw [Encoder.embedBatch] at member
      split at member
      · obtain ⟨⟨chunk, vector⟩, -, rfl⟩ := List.mem_map.mp member
        exact ⟨chunk, rfl⟩
      · cases member

theorem annotate_rename (project : Value) (chunks : List Chunk) {items : List Embedded}
    (plain : ∀ item ∈ items, ∃ chunk : Chunk, item.record = chunk.indexRecord) :
    annotate (project.rename exchange) chunks items =
      (annotate project chunks items).map (Embedded.rename exchange) := by
  induction chunks generalizing items with
  | nil => rfl
  | cons chunk chunks ih =>
    cases items with
    | nil => rfl
    | cons item items =>
      obtain ⟨⟨source, here⟩, later⟩ := List.forall_mem_cons.mp plain
      have record : item.record.update [("project_name", project.rename exchange),
          ("content", .text chunk.content)] = Record.rename exchange
          (item.record.update [("project_name", project), ("content", .text chunk.content)]) := by
        rw [Record.rename, Record.changeField_update, here]
        exact congrArg (Record.update · _) (rename_indexRecord source).symm
      exact congrArg₂ List.cons (congrArg (Embedded.mk _ _) record) (ih later)

/-- The name of a project is in the records of its chunks and nowhere else. -/
theorem embed_rename (indexer : Indexer) (project : Value) (chunks : List Chunk) :
    indexer.embed (project.rename exchange) chunks =
      (indexer.embed project chunks).map (Embedded.rename exchange) := by
  rw [embed, embed]
  cases embedded : indexer.env.encoder.embedChunks Encoder.standardBatch chunks with
  | error fault => rfl
  | ok items => exact annotate_rename project chunks (record_of_embedChunks embedded)

theorem projectName_rename (empty : exchange "" = "") {place : Path}
    (own : exchange place.name = place.name) (name : Value) :
    projectName (name.rename exchange) place = (projectName name place).rename exchange := by
  rw [projectName, projectName, Value.isTruthy_rename empty]
  split
  · rfl
  · rw [Value.rename, own]

end Indexer

end CodeAtlas
