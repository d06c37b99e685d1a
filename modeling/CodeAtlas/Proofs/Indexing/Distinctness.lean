import CodeAtlas.Proofs.Indexing.Contents
import Mathlib.Data.Set.Card

/-!
# Chunks with the same identifier

An identifier names the path, the lines, the kind and the name of a chunk, and nothing else.
Where paths have no colon, two chunks have the same identifier exactly if they agree in all
five.  Nothing keeps two definitions on one line from doing so, and of such chunks an index has
one entry only.
-/

namespace CodeAtlas

variable {chunk : Chunk} {language : Language} {fragment : Fragment}

namespace Grammar

open Syntax (Node)

variable {grammar : Grammar} {source : Source}

mutual

/-- The kind of a fragment is that of an accepted node. -/
theorem exists_accepted_of_collect :
    ∀ (node : Node) (container : Option Container) (found : List Fragment),
      grammar.collect source container node = .ok found → ∀ fragment ∈ found,
        ∃ inner, grammar.accepts source inner = .ok true ∧ fragment.kind = inner.kind
  | .mk kind span children, container, found, walked, fragment, member => by
    rw [collect] at walked
    obtain ⟨verdict, judged, walked⟩ := bind_eq_ok_iff.mp walked
    cases verdict with
    | false => exact exists_accepted_of_collectList children _ _ walked fragment member
    | true =>
      rw [if_pos rfl] at walked
      obtain ⟨first, made, walked⟩ := bind_eq_ok_iff.mp walked
      have here : ∃ inner, grammar.accepts source inner = .ok true ∧
          first.kind = inner.kind := by
        refine ⟨_, judged, ?_⟩
        obtain ⟨content, -, made⟩ := bind_eq_ok_iff.mp made
        obtain ⟨facts, -, made⟩ := bind_eq_ok_iff.mp made
        rw [← Except.ok.inj made]
      cases holds : containerKind? kind with
      | none =>
        rw [holds] at walked
        obtain rfl := Except.ok.inj walked
        rw [List.mem_singleton.mp member]
        exact here
      | some containerKind =>
        rw [holds] at walked
        obtain ⟨rest, walked', done⟩ := bind_eq_ok_iff.mp walked
        obtain rfl := Except.ok.inj done
        rcases List.mem_cons.mp member with rfl | later
        · exact here
        · exact exists_accepted_of_collectList children _ _ walked' fragment later

theorem exists_accepted_of_collectList :
    ∀ (nodes : List Node) (container : Option Container) (found : List Fragment),
      grammar.collectList source container nodes = .ok found → ∀ fragment ∈ found,
        ∃ inner, grammar.accepts source inner = .ok true ∧ fragment.kind = inner.kind
  | [], container, found, walked, fragment, member => by
    rw [collectList] at walked
    obtain rfl := Except.ok.inj walked
    cases member
  | node :: rest, container, found, walked, fragment, member => by
    rw [collectList] at walked
    obtain ⟨first, here, walked⟩ := bind_eq_ok_iff.mp walked
    obtain ⟨others, walked', done⟩ := bind_eq_ok_iff.mp walked
    obtain rfl := Except.ok.inj done
    rcases List.mem_append.mp member with earlier | later
    · exact exists_accepted_of_collect node _ _ here fragment earlier
    · exact exists_accepted_of_collectList rest _ _ walked' fragment later

end

theorem kind_of_accepts {node : Node} (accepts : language.grammar.accepts source node = .ok true) :
    node.kind ∈ language.grammar.splittable := by
  have listed : ∀ {kinds : List String}, byKind kinds source node = .ok true →
      node.kind ∈ kinds := by
    intro kinds same
    simpa [byKind] using same
  cases language with
  | elixir =>
    change Managed.elixirAccepts source node = .ok true at accepts
    unfold Managed.elixirAccepts at accepts
    split at accepts
    · rename_i call
      simpa [Language.grammar, elixir] using call
    · cases accepts
  | _ => exact listed accepts

theorem kind_of_sectionOf {label : String} {lines : List String} {heading : Node} {last : Int}
    (cut : Markdown.sectionOf label source lines heading last = .ok fragment) :
    fragment.kind = "section" := by
  obtain ⟨text, -, made⟩ := bind_eq_ok_iff.mp cut
  rw [← Except.ok.inj made]

theorem kind_of_sections {label : String} {lines : List String} :
    ∀ {nodes : List Node} {found : List Fragment},
      Markdown.sections label source lines nodes = .ok found →
        ∀ fragment ∈ found, fragment.kind = "section"
  | [], found, cut, fragment, member => by
    obtain rfl := Except.ok.inj cut
    cases member
  | [heading], found, cut, fragment, member => by
    obtain ⟨only, made, done⟩ := bind_eq_ok_iff.mp cut
    obtain rfl := Except.ok.inj done
    rw [List.mem_singleton.mp member]
    exact kind_of_sectionOf made
  | heading :: next :: rest, found, cut, fragment, member => by
    rw [Markdown.sections] at cut
    obtain ⟨first, made, cut⟩ := bind_eq_ok_iff.mp cut
    obtain ⟨others, later, done⟩ := bind_eq_ok_iff.mp cut
    obtain rfl := Except.ok.inj done
    rcases List.mem_cons.mp member with rfl | inside
    · exact kind_of_sectionOf made
    · exact kind_of_sections later fragment inside

end Grammar

/-- The kinds of fragments that no node decides. -/
def ownKinds : List String :=
  ["module", "section", "preamble", "document"]

/-- The kind of a fragment is one that the rules of its language list, or one of a few others. -/
theorem kind_of_mem_fragments {source : Source} {tree : Syntax.Node}
    {found : List Fragment} (cut : language.fragments source tree = .ok found)
    (member : fragment ∈ found) :
    fragment.kind ∈ language.grammar.splittable ∨ fragment.kind ∈ ownKinds := by
  unfold Language.fragments at cut
  split at cut
  · right
    unfold Grammar.Markdown.fragments at cut
    split at cut
    · obtain rfl := Except.ok.inj cut
      unfold Grammar.Markdown.wholeDocument at member
      split at member
      · cases member
      · rw [List.mem_singleton.mp member]
        simp [ownKinds]
    · obtain ⟨parts, divided, done⟩ := bind_eq_ok_iff.mp cut
      obtain rfl := Except.ok.inj done
      rcases List.mem_append.mp member with before | inside
      · unfold Grammar.Markdown.preamble at before
        dsimp only at before
        split at before
        · cases before
        · rw [List.mem_singleton.mp before]
          simp [ownKinds]
      · rw [Grammar.kind_of_sections divided fragment inside]
        decide
  · obtain ⟨walked, collected, done⟩ := bind_eq_ok_iff.mp cut
    obtain rfl := Except.ok.inj done
    split at member
    · right
      unfold Grammar.wholeModule at member
      split at member
      · cases member
      · rw [List.mem_singleton.mp member]
        simp [ownKinds]
    · left
      obtain ⟨inner, accepts, same⟩ :=
        Grammar.exists_accepted_of_collect tree none walked collected fragment member
      rw [same]
      exact Grammar.kind_of_accepts accepts

/-- No kind of a fragment has a colon, and no common word for one. -/
theorem chunkKind_plain {source : Source} {tree : Syntax.Node} {found : List Fragment}
    (cut : language.fragments source tree = .ok found) (member : fragment ∈ found) :
    ':' ∉ fragment.chunkKind.toList := by
  have listed : ∀ kind ∈ language.grammar.splittable, ':' ∉ kind.toList := by
    cases language <;> decide
  have own : ∀ kind ∈ ownKinds, ':' ∉ kind.toList := by decide
  have common : ∀ entry ∈ commonKinds, ':' ∉ entry.2.toList := by decide
  have plain : ':' ∉ fragment.kind.toList := by
    rcases kind_of_mem_fragments cut member with split | other
    · exact listed _ split
    · exact own _ other
  have word : ':' ∉ ((commonKinds.lookup fragment.kind).getD fragment.kind).toList := by
    cases found : commonKinds.lookup fragment.kind with
    | none => exact plain
    | some word => exact common (fragment.kind, word) (Table.mem_of_lookup found)
  unfold Fragment.chunkKind
  dsimp only
  split
  · decide
  · exact word

theorem kind_of_toChunk {root : Option Path} {path : Path}
    (placed : fragment.toChunk root path = .ok chunk) : chunk.kind = fragment.chunkKind := by
  have keeps : ∀ chunk : Chunk, chunk.place.kind = chunk.kind := by
    intro chunk
    unfold Chunk.place
    split <;> rfl
  unfold Fragment.toChunk at placed
  cases root with
  | none =>
    obtain rfl := Except.ok.inj placed
    exact keeps _
  | some root =>
    obtain ⟨relative, -, made⟩ := bind_eq_ok_iff.mp placed
    obtain rfl := Except.ok.inj made
    exact keeps _

theorem Indexer.kind_plain {indexer : Indexer} {place : Path} {names : List String}
    {bytes : ByteArray} (member : chunk ∈ indexer.chunksAt place names bytes) :
    ':' ∉ chunk.kind.toList := by
  unfold chunksAt chunksOfText at member
  split at member
  · split at member
    · split at member
      · rename_i language text _ _ _ _ placed
        obtain ⟨fragment, cut, made⟩ := exists_of_mem_mapM placed member
        rw [kind_of_toChunk made]
        unfold fragmentsBy at cut
        split at cut
        · rename_i done
          exact chunkKind_plain done cut
        · cases cut
      · cases member
    · cases member
  · cases member

namespace Indexer

open IndexState

variable {indexer : Indexer} {place : Path} {project : Value} {view view' : IndexView}
  {snapshot snapshot' : Option FileContents} {start : IndexState} {full : Bool}
  {result : RunResult} {sources : List String}

/-- The identifiers that come into an index are those of the chunks that get a vector. -/
theorem embed_identifiers_paired (indexer : Indexer) (project : Value) (chunks : List Chunk) :
    (indexer.embed project chunks).map Embedded.identifier =
      ((indexer.env.encoder.paired chunks).map Prod.fst).map Chunk.identifier := by
  rw [embed_eq_annotate, Encoder.flatMap_embedBatch, annotate_identifiers, List.map_map,
    List.map_map]
  · rfl
  · rw [List.length_map]
    exact indexer.env.encoder.length_paired chunks

/-- The source files of a project that are tracked, each of them once. -/
def ListsSources (place : Path) (world : World) (sources : List String) : Prop :=
  sources.Nodup ∧ ∀ file, file ∈ sources ↔ ∃ names bytes,
    world.contentAt .standard place names = some bytes ∧
      Language.isSourcePath file = true ∧ file = trackedPath names

section Place

variable (isPlace : place.IsPlace)

include isPlace

/-- A full run adds what the source files of the project are embedded as to an empty index. -/
theorem Effect.of_wanted
    (effect : indexer.Effect place project start view full snapshot result view' snapshot')
    (wanted : full = true ∨ snapshot = none) (wellFormed : start.world.WellFormed) :
    ∃ sources items, ListsSources place start.world sources ∧
      items = indexer.embed project (indexer.chunksOf start.world place sources) ∧
      result = { RunResult.nothing with
        filesAdded := sources.length
        chunksAdded := items.length } ∧ view' = IndexView.empty.add items := by
  have notChanged : ∀ {old}, full = false → snapshot ≠ some old := by
    rintro old rfl rfl
    simp at wanted
  cases effect with
  | unchanged notFull known => exact (notChanged notFull known).elim
  | updated notFull known => exact (notChanged notFull known).elim
  | stopped notFull known => exact (notChanged notFull known).elim
  | @rebuilt cleared tree items _ emptied built made =>
    have wellFormed' := ChunkIndex.wellFormed_clear.after wellFormed emptied
    have follows := Follows.clear.after (.refl start) emptied
    have listed := DigestTree.mem_files_of_build wellFormed' built
    refine ⟨tree.files.filter Language.isSourcePath, items,
      ⟨tree.nodup_files.filter _, fun file => ?_⟩, ?_, rfl, rfl⟩
    · rw [List.mem_filter, listed]
      constructor
      · rintro ⟨⟨names, bytes, held, rfl⟩, source⟩
        exact ⟨names, bytes, follows.contentAt isPlace
          (validNames_of_contentAt wellFormed' held) source held, source, rfl⟩
      · rintro ⟨names, bytes, held, source, rfl⟩
        exact ⟨⟨names, bytes, follows.contentAt_after isPlace
          (validNames_of_contentAt wellFormed held) source held, rfl⟩, source⟩
    · rw [made, chunksOf_before isPlace follows wellFormed wellFormed'
        (fun file known => (listed file).mp known)]

/-- The chunks of source files are told apart by their keys. -/
theorem identifier_eq_iff_of_sources (rooted : indexer.root = place.toString)
    (wellFormed : start.world.WellFormed)
    (plain : ∀ names, start.world.HasFile place names → ':' ∉ (trackedPath names).toList)
    (listed : ListsSources place start.world sources) {chunk other : Chunk}
    (member : chunk ∈ indexer.chunksOf start.world place sources)
    (member' : other ∈ indexer.chunksOf start.world place sources) :
    chunk.identifier = other.identifier ↔ chunk.key = other.key := by
  have each : ∀ chunk ∈ indexer.chunksOf start.world place sources,
      ':' ∉ chunk.relativePath.toList ∧ ':' ∉ chunk.kind.toList := by
    intro chunk member
    obtain ⟨file, known, made⟩ := List.mem_flatMap.mp member
    obtain ⟨names, bytes, held, source, rfl⟩ := (listed.2 file).mp known
    rw [chunksOfFile_of_tracked (Follows.refl start) wellFormed isPlace held source] at made
    rw [relativePath_of_mem_chunksAt isPlace rooted
      (validNames_of_contentAt wellFormed held) made]
    exact ⟨plain names (World.hasFile_of_contentAt held), kind_plain made⟩
  obtain ⟨path, kind⟩ := each chunk member
  obtain ⟨path', kind'⟩ := each other member'
  exact Chunk.identifier_eq_iff path path' kind kind'

end Place

end Indexer

theorem nodup_map_iff {α β γ : Type} {change : α → β} {other : α → γ} {items : List α}
    (same : ∀ item ∈ items, ∀ item' ∈ items,
      change item = change item' ↔ other item = other item') :
    (items.map change).Nodup ↔ (items.map other).Nodup := by
  rw [List.Nodup, List.Nodup, List.pairwise_map, List.pairwise_map]
  exact List.Pairwise.iff_of_mem (fun member member' => not_congr (same _ member _ member'))

/-- A list has at most as many members as places, and as many only if they are different. -/
theorem ncard_members (names : List String) :
    {name | name ∈ names}.ncard ≤ names.length ∧
      ({name | name ∈ names}.ncard = names.length ↔ names.Nodup) := by
  rw [← List.coe_toFinset, Set.ncard_coe_finset]
  exact ⟨List.toFinset_card_le names,
    @Multiset.toFinset_card_eq_card_iff_nodup String _ (Multiset.ofList names)⟩

open Indexer in
/-- A full run on a project whose paths have no colon, after any edits and runs.  The index gets
one entry for each identifier of the chunks that got a vector, and all of these chunks are
counted.  Two of them have the same identifier exactly if they agree in path, lines, kind and
name, so that the count is the number of live entries exactly if no two of them do. -/
theorem full_run_counts_chunks {indexer : Indexer} {place : Path} {dimension : Nat}
    {view : IndexView} {snapshot : Option FileContents} {start before : IndexState}
    {calls : List RunCall} {world : World} {call : RunCall}
    (ready : indexer.Ready place dimension view snapshot start)
    (history : indexer.Reached place dimension start calls before)
    (edited : indexer.Edited place before world) (suits : call.Suits place dimension world)
    (wanted : call.full = true ∨
      runFrom world (indexer.store.has indexer.env place.toString) = (.ok false, world))
    (rooted : indexer.root = place.toString)
    (plain : ∀ names, world.HasFile place names → ':' ∉ (trackedPath names).toList) :
    ∃ sources result after, ListsSources place world sources ∧
      runFrom { before with world } (indexer.perform call) = (.ok result, after) ∧
      result.success = true ∧
      let chunks := (call.encoder.paired (indexer.chunksOf world place sources)).map Prod.fst
      after.chunks.names = chunks.map Chunk.identifier ∧ result.chunksAdded = chunks.length ∧
      (∀ identifier, after.IsLive identifier ↔ identifier ∈ chunks.map Chunk.identifier) ∧
      (∀ chunk ∈ chunks, ∀ other ∈ chunks,
        chunk.identifier = other.identifier ↔ chunk.key = other.key) ∧
      ((chunks.map Chunk.identifier).Nodup ↔ (chunks.map Chunk.key).Nodup) ∧
      {identifier | after.IsLive identifier}.ncard ≤ result.chunksAdded ∧
      ({identifier | after.IsLive identifier}.ncard = result.chunksAdded ↔
        (chunks.map Chunk.key).Nodup) := by
  have isPlace := edited.wellFormed.resolve suits.resolved
  obtain ⟨view, snapshot, ready⟩ := history.ready ready
  obtain ⟨result, view', snapshot', after, ran, effect, -, ready'⟩ :=
    perform_effect ready edited suits
  have wanted' : call.full = true ∨ snapshot = none := by
    refine wanted.imp_right (fun missing => ?_)
    have has := (edited.ready ready).stands.has isPlace
    rw [missing] at has
    have none : false = snapshot.isSome := Except.ok.inj (congrArg Prod.fst has)
    simpa using none
  obtain ⟨sources, items, listed, made, rfl, rfl⟩ :=
    effect.of_wanted isPlace wanted' edited.wellFormed
  rw [chunksOf_withEncoder] at made
  have identifiers : items.map Embedded.identifier = ((call.encoder.paired
      (indexer.chunksOf world place sources)).map Prod.fst).map Chunk.identifier := by
    rw [made]
    exact embed_identifiers_paired _ _ _
  have length := congrArg List.length identifiers
  rw [List.length_map, List.length_map] at length
  have inside := (call.encoder.flatMap_pairedBatch_sublist
    (batches 32 (indexer.chunksOf world place sources)).zipIdx).subset
  rw [flatMap_zipIdx_batches] at inside
  have apart : ∀ chunk ∈ (call.encoder.paired (indexer.chunksOf world place sources)).map Prod.fst,
      ∀ other ∈ (call.encoder.paired (indexer.chunksOf world place sources)).map Prod.fst,
        chunk.identifier = other.identifier ↔ chunk.key = other.key :=
    fun chunk member other member' => @identifier_eq_iff_of_sources indexer place
      { before with world } sources isPlace rooted edited.wellFormed plain listed chunk other
      (inside member) (inside member')
  have live : ∀ identifier, after.IsLive identifier ↔ identifier ∈ ((call.encoder.paired
      (indexer.chunksOf world place sources)).map Prod.fst).map Chunk.identifier := by
    intro identifier
    rw [ready'.shows.isLive_iff, IndexView.live_add_iff, identifiers]
    simp [IndexView.empty]
  have same := nodup_map_iff apart
  obtain ⟨most, exactly⟩ := ncard_members (((call.encoder.paired
    (indexer.chunksOf world place sources)).map Prod.fst).map Chunk.identifier)
  rw [List.length_map] at most exactly
  refine ⟨sources, _, after, listed, ran, rfl, ?_, length, live, apart, same, ?_, ?_⟩
  · rw [ready'.shows.2.1, ← identifiers]
    rfl
  · simp only [live]
    exact most.trans_eq length.symm
  · simp only [live]
    rw [← same, ← exactly, ← length]

namespace Sample

open Indexer

/-- Two functions of one name in one line. -/
def twins (_ : Source) : Syntax.Node :=
  .mk "module" ⟨0, 5, 0, 0⟩ [
    .mk "function_definition" ⟨0, 2, 0, 0⟩ [.mk "identifier" ⟨0, 1, 0, 0⟩ []],
    .mk "function_definition" ⟨3, 5, 0, 0⟩ [.mk "identifier" ⟨3, 4, 0, 0⟩ []]]

def twinsRun : Except Fault RunResult × IndexState :=
  runFrom (unindexed "f1 f2") ((parsing twins).perform (call false))

theorem edited_unindexed (parse : Source → Syntax.Node) (text : String) :
    (parsing parse).Edited place (unindexed text) (unindexed text).world :=
  ⟨fun _ keeps => keeps, fun _ keeps => keeps, fun _ keeps => keeps, ⟨_, lookUp_world⟩,
    wellFormed_world (proper_lone text).single (proper_lone text).valid⟩

theorem plain_unindexed {text : String} {names : List String}
    (file : (unindexed text).world.HasFile place names) : ':' ∉ (trackedPath names).toList := by
  obtain ⟨tree, stored, found, leads⟩ := file
  obtain rfl : FileTree.folder (sourceEntries (lone text)) = tree :=
    Option.some.inj (Except.ok.inj (lookUp_world.symm.trans found))
  obtain ⟨name, bytes, rfl, known, -⟩ := find?_sourceEntries.mp leads
  exact ((proper_lone text).of_lookup known).2

end Sample

open Indexer Sample in
/-- A project with two functions of one name in one line, at its first run. -/
theorem twins_are_counted :
    let start := unindexed "f1 f2"
    (parsing twins).Ready place 1 .empty none start ∧
      (parsing twins).Reached place 1 start [] start ∧
      (parsing twins).Edited place start start.world ∧ (call false).Suits place 1 start.world ∧
      runFrom start.world ((parsing twins).store.has (parsing twins).env place.toString) =
        (.ok false, start.world) ∧
      (∀ names, start.world.HasFile place names → ':' ∉ (trackedPath names).toList) ∧
      ∃ sources result after, ListsSources place start.world sources ∧
        runFrom start ((parsing twins).perform (call false)) = (.ok result, after) ∧
        result.success = true ∧
        let chunks := ((call false).encoder.paired
          ((parsing twins).chunksOf start.world place sources)).map Prod.fst
        after.chunks.names = chunks.map Chunk.identifier ∧ result.chunksAdded = chunks.length ∧
        ({identifier | after.IsLive identifier}.ncard = result.chunksAdded ↔
          (chunks.map Chunk.key).Nodup) := by
  intro start
  have ready := ready_unindexed twins "f1 f2"
  have edited := edited_unindexed twins "f1 f2"
  have suits : (call false).Suits place 1 start.world := suits_call false
  have missing := ready.stands.has isPlace_place
  have plain : ∀ names, start.world.HasFile place names → ':' ∉ (trackedPath names).toList :=
    fun _ file => plain_unindexed file
  obtain ⟨sources, result, after, listed, ran, success, names, count, -, -, -, -, exactly⟩ :=
    full_run_counts_chunks ready .start edited suits (.inr missing) (by decide) plain
  exact ⟨ready, .start, edited, suits, missing, plain, sources, result, after, listed, ran, success,
    names, count, exactly⟩

open Indexer Sample in
/-- Both functions are counted, and the second one takes the entry of the first one. -/
theorem twins_share_an_entry :
    ∃ result after record,
      runFrom (unindexed "f1 f2") ((parsing twins).perform (call false)) = (.ok result, after) ∧
      result.success = true ∧ result.chunksAdded = 2 ∧
      after.chunks.names = ["a.py:1-1:function:f", "a.py:1-1:function:f"] ∧
      {identifier | after.IsLive identifier}.ncard = 1 ∧
      (runFrom after (ChunkIndex.recordOf (.text "a.py:1-1:function:f"))).1 = .ok (some record) ∧
      record.lookup "content" = some (.text "f2") := by
  have told : twinsRun.1.toOption.map (fun result => (result.success, result.chunksAdded)) =
        some (true, 2) ∧
      twinsRun.2.chunks.names = ["a.py:1-1:function:f", "a.py:1-1:function:f"] ∧
      (runFrom twinsRun.2 (ChunkIndex.recordOf (.text "a.py:1-1:function:f"))).1.toOption.map
        (fun found => found.bind contentAndStart?) = some (some ("f2", 1)) := by
    decide +kernel
  have edited := edited_unindexed twins "f1 f2"
  obtain ⟨result, view, _, after, ran, effect, -, ready⟩ :=
    perform_effect (ready_unindexed twins "f1 f2") edited (suits_call false)
  obtain ⟨sources, items, -, -, rfl, rfl⟩ :=
    effect.of_wanted isPlace_place (.inr rfl) edited.wellFormed
  rw [show twinsRun = _ from ran] at told
  obtain ⟨counts, names, kept⟩ := told
  obtain ⟨success, added⟩ := Prod.mk.inj (Option.some.inj counts)
  obtain ⟨found, looked, fields⟩ := exists_result kept
  obtain ⟨record, rfl, fields⟩ := Option.bind_eq_some_iff.mp fields
  have live : ∀ identifier, after.IsLive identifier ↔ identifier = "a.py:1-1:function:f" := by
    intro identifier
    have identifiers : items.map Embedded.identifier = _ := ready.shows.2.1.symm.trans names
    rw [ready.shows.isLive_iff, IndexView.live_add_iff, identifiers]
    simp [IndexView.empty]
  exact ⟨_, after, record, ran, success, added, names, by simp [live],
    congrArg Prod.fst looked, (lookup_of_contentAndStart? fields).1⟩

end CodeAtlas
