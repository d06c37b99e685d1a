import CodeAtlas.Proofs.Embedding.Identifiers
import CodeAtlas.Proofs.Indexing.Runs

/-!
# Identifiers tell files

Where chunks are placed under their own project, the relative path of a chunk is that of its
file, and its identifier starts with it.  So paths without a colon can be read off the
identifiers.
-/

namespace CodeAtlas

namespace Path

theorem stripParts_append (leads parts : List String) :
    stripParts leads (leads ++ parts) = some parts := by
  induction leads with
  | nil => rfl
  | cons lead leads ih => simpa [stripParts] using ih

theorem relativeTo?_below {place : Path} (absolute : place.anchor = .root)
    (names : List String) : (place.below names).relativeTo? place = some ⟨.relative, names⟩ := by
  simp [relativeTo?, below, absolute, stripParts_append]

end Path

theorem relativePath_of_toChunk {root path : Path} {fragment : Fragment} {chunk : Chunk}
    {names : List String} (seen : path.relativeTo? root = some ⟨.relative, names⟩)
    (placed : fragment.toChunk (some root) path = .ok chunk) :
    chunk.relativePath = trackedPath names := by
  have keeps : ∀ chunk : Chunk, chunk.place.relativePath = chunk.relativePath := by
    intro chunk
    unfold Chunk.place
    split <;> rfl
  have relative : path.relativeTo root = .ok ⟨.relative, names⟩ := by
    rw [Path.relativeTo, seen]
  simp only [Fragment.toChunk, relative, bind, Except.bind, pure, Except.pure] at placed
  obtain rfl := Except.ok.inj placed
  exact keeps _

namespace Indexer

variable {indexer : Indexer} {place : Path} {names : List String} {bytes : ByteArray}

section Rooted

variable (isPlace : place.IsPlace) (rooted : indexer.root = place.toString)

include isPlace rooted

/-- The relative path of a chunk is that of its file in the project. -/
theorem relativePath_of_mem_chunksAt {chunk : Chunk} (validNames : ∀ part ∈ names, ValidName part)
    (member : chunk ∈ indexer.chunksAt place names bytes) :
    chunk.relativePath = trackedPath names := by
  have back := Path.ofString_below isPlace validNames
  have root : Path.ofString indexer.root = place := by
    rw [rooted]
    exact isPlace.ofString_toString
  have some : indexer.root.isEmpty = false := by
    rw [rooted, Path.toString_absolute isPlace.absolute]
    simp
  unfold chunksAt at member
  split at member
  · unfold chunksOfText at member
    split at member
    · split at member
      · rename_i cut
        obtain ⟨fragment, -, placed⟩ := exists_of_mem_mapM cut member
        rw [some, root, back] at placed
        exact relativePath_of_toChunk (Path.relativeTo?_below isPlace.absolute names) placed
      · cases member
    · cases member
  · cases member

/-- Chunks of different files have different identifiers, if no path has a colon. -/
theorem identifiersApart_of_plain {content : FileContents}
    (validNames : ∀ names bytes, content names = some bytes → ∀ part ∈ names, ValidName part)
    (plain : ∀ names bytes, content names = some bytes →
      Language.isSourcePath (trackedPath names) = true → ':' ∉ (trackedPath names).toList) :
    indexer.IdentifiersApart place content := by
  intro names names' bytes bytes' held held' chunk member chunk' member' same
  have path := relativePath_of_mem_chunksAt isPlace rooted (validNames _ _ held) member
  have path' := relativePath_of_mem_chunksAt isPlace rooted (validNames _ _ held') member'
  have plain₁ := plain names bytes held (isSource_of_mem_chunksAt member)
  have plain₂ := plain names' bytes' held' (isSource_of_mem_chunksAt member')
  rw [← path] at plain₁
  rw [← path'] at plain₂
  have paths := Chunk.relativePath_eq_of_identifier plain₁ plain₂ same
  rw [path, path'] at paths
  exact trackedPath_inj (validNames _ _ held) (validNames _ _ held') paths

end Rooted

end Indexer

end CodeAtlas
