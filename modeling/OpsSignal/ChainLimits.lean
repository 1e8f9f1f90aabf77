import OpsSignal.ChainOrder

/-!
# The limits of a chain

A chain may have at most 64 files and be at most 8 files deep.  The walk
counts the files that are finished, not those that are open, and looks at
the depth of a file only when it opens it.  A walk keeps the limits
exactly where it counted every file in time and came to no file again on
a path that is too long.
-/

namespace OpsSignal

namespace Chain

open DepthFirst

namespace Loading

variable {loading : Loading}

/-- The chain has few files, and no path of extends edges from a root is
long. -/
structure WithinLimits
    (loading : Loading) (roots : List ConfigSource) (files : List File) :
    Prop where
  few : files.length ≤ maxFiles
  shallow : ∀ root ∈ roots, ∀ path : List ConfigSource,
    List.IsChain (Names loading.parents) (root :: path) →
      (root :: path).length ≤ maxDepth

/-- What the walk would have to check of a file it comes to: if it opens
the file, that fewer than 64 are open or finished; if it passes it by,
that with the open files no path from it is longer than 8. -/
abbrev AdmitsWithin
    (loading : Loading) (stack seen : List String) (source : ConfigSource) :
    Prop :=
  Visits.Within ConfigSource.shown loading.parents maxDepth maxFiles loading.Admits
    stack seen source

/-- The limits hold exactly where the search of the chain meets them all
along. -/
theorem limits_hold_iff
    {roots : List ConfigSource} {files : List File}
    (walked : loading.walk roots = .ok files) :
    loading.WithinLimits roots files ↔
      Visits ConfigSource.shown loading.parents loading.AdmitsWithin [] []
        roots (sources files) := by
  obtain ⟨searches, _⟩ := searches_of_walk walked
  have sameLength : (sources files).length = files.length := by
    rw [sources, List.length_map]
  constructor
  · intro limits
    apply searches.within
    · have few := limits.few
      simp only [List.length_nil]
      omega
    · intro root isRoot path chain
      have shallow := limits.shallow root isRoot path chain
      simp only [List.length_nil]
      omega
  · intro visits
    have low : ∀ stack seen source, loading.Admits stack seen source →
        source.shown ∉ seen → stack.length < maxDepth := by
      rintro stack seen source (left | ⟨shallow, _⟩) unseen
      · exact absurd left unseen
      · exact shallow
    refine ⟨?_, ?_⟩
    · rcases visits.length_le with nothing | few
      · rw [← sameLength, nothing]
        exact Nat.zero_le _
      · simp only [List.length_nil] at few
        omega
    · intro root isRoot path chain
      have shallow := visits.shallow low root isRoot path chain
      simp only [List.length_nil] at shallow
      omega

/-- The chain of two teams keeps the limits. -/
theorem limits_hold_iff_teams :
    ∃ files, (localLoading teamFiles).walk teamRoots = .ok files ∧
      files.length = 4 ∧
      ((localLoading teamFiles).WithinLimits teamRoots files ↔
        Visits ConfigSource.shown (localLoading teamFiles).parents
          (localLoading teamFiles).AdmitsWithin [] [] teamRoots
          (sources files)) := by
  have computed : ((localLoading teamFiles).walk teamRoots).toOption.any
      (fun files => decide (files.length = 4)) = true := by
    decide +kernel
  obtain ⟨files, isFiles, same⟩ := Option.any_eq_true _ _ |>.mp computed
  have walked := eq_ok_of_toOption isFiles
  exact ⟨files, walked, of_decide_eq_true same, limits_hold_iff walked⟩

/-! ## Chains beyond the limits -/

/-- One file that extends 64 others. -/
def wideFiles : List (String × List String) :=
  let leaves := (List.range 64).map fun index => toString index ++ ".yaml"
  ("root.yaml", leaves) :: leaves.map fun leaf => (leaf, [])

/-- Eight files in a row, and one more on top of them. -/
def tallFiles : List (String × List String) :=
  [("0.yaml", []), ("1.yaml", ["0.yaml"]), ("2.yaml", ["1.yaml"]),
    ("3.yaml", ["2.yaml"]), ("4.yaml", ["3.yaml"]), ("5.yaml", ["4.yaml"]),
    ("6.yaml", ["5.yaml"]), ("7.yaml", ["6.yaml"]), ("8.yaml", ["7.yaml"])]

def tallRoots : List ConfigSource :=
  [localFile "7.yaml", localFile "8.yaml"]

/-- The lower files, from the top of the row. -/
def tallPath : List ConfigSource :=
  [localFile "7.yaml", localFile "6.yaml", localFile "5.yaml",
    localFile "4.yaml", localFile "3.yaml", localFile "2.yaml",
    localFile "1.yaml", localFile "0.yaml"]

/-- A chain of 65 files is accepted, and so is one of nine files in a row
if the walk comes to the lower eight first. -/
theorem limits_exceeded :
    (¬ ∀ (loading : Loading) (roots : List ConfigSource)
        (files : List File), loading.walk roots = .ok files →
          files.length ≤ maxFiles) ∧
      ¬ ∀ (loading : Loading) (roots : List ConfigSource)
          (files : List File), loading.walk roots = .ok files →
            ∀ root ∈ roots, ∀ path : List ConfigSource,
              List.IsChain (Names loading.parents) (root :: path) →
                (root :: path).length ≤ maxDepth := by
  refine ⟨?_, ?_⟩
  · intro claimed
    have computed : ((localLoading wideFiles).walk
        [localFile "root.yaml"]).toOption.any
          (fun files => decide (files.length = 65)) = true := by
      decide +kernel
    obtain ⟨files, isFiles, same⟩ := Option.any_eq_true _ _ |>.mp computed
    have few := claimed _ _ files (eq_ok_of_toOption isFiles)
    rw [of_decide_eq_true same] at few
    exact absurd few (by decide)
  · intro claimed
    have computed : ((localLoading tallFiles).walk
        tallRoots).toOption.isSome = true := by
      decide +kernel
    obtain ⟨files, isFiles⟩ := Option.isSome_iff_exists.mp computed
    have linked : List.IsChain
        (fun child parent =>
          (((localLoading tallFiles).parents child).any fun above =>
            decide (parent ∈ above)) = true)
        (localFile "8.yaml" :: tallPath) := by
      decide +kernel
    have chain : List.IsChain (Names (localLoading tallFiles).parents)
        (localFile "8.yaml" :: tallPath) := by
      apply linked.imp
      intro child parent named
      obtain ⟨above, isAbove, member⟩ := Option.any_eq_true _ _ |>.mp named
      exact ⟨above, isAbove, of_decide_eq_true member⟩
    have short := claimed _ _ files (eq_ok_of_toOption isFiles)
      (localFile "8.yaml") (by decide +kernel) tallPath chain
    exact absurd short (by decide)

end Loading

end Chain

end OpsSignal
