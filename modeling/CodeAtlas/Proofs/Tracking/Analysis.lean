import CodeAtlas.Tracking.Changes
import CodeAtlas.Proofs.Tallies

/-!
# Counting changes

An analysis of changes counts each of them once by its ending and once by its folder.
-/

namespace CodeAtlas.Changes

theorem analysis_counts_every_change (changes : Changes) :
    let ending (path : String) : String :=
      if (Path.ofString path).suffix = "" then "no_extension" else (Path.ofString path).suffix
    let folder (path : String) : String :=
      if (Path.ofString path).parent = Path.ofString "." then "root"
      else (Path.ofString path).parent.toString
    let paths := changes.added ++ changes.removed ++ changes.modified
    ∃ endings folders : List (String × Nat),
      changes.analysisRecord.lookup "file_extensions" =
        some (.record (endings.map fun entry => (entry.1, .int entry.2))) ∧
      changes.analysisRecord.lookup "directories" =
        some (.record (folders.map fun entry => (entry.1, .int entry.2))) ∧
      Table.Ranks (paths.map ending) endings ∧ Table.Ranks (paths.map folder) folders ∧
      (endings.map Prod.snd).sum = changes.totalChanged ∧
      (folders.map Prod.snd).sum = changes.totalChanged := by
  intro ending folder paths
  have sameEnding : endingKey = ending := by
    funext path
    simp [endingKey, ending]
  have byEnding := Table.ranks_byCount (paths.map ending)
  have byFolder := Table.ranks_byCount (paths.map folder)
  refine ⟨changes.analysis.endings, changes.analysis.folders, rfl, rfl, ?_, byFolder, ?_, ?_⟩
  · rw [analysis, sameEnding]
    exact byEnding
  · rw [analysis, sameEnding, totalChanged, ← @List.length_map _ _ changes.changed ending]
    exact byEnding.sum
  · rw [totalChanged, ← @List.length_map _ _ changes.changed folder]
    exact byFolder.sum

end CodeAtlas.Changes
