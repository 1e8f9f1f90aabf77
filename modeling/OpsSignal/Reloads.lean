import OpsSignal.CacheRuns

/-!
# The config in use

A client starts with a config and polls for edits.  Its reloader compares
raw texts and fingerprints of secrets, and builds a config only where they
differ.  In a fixed environment the pipeline in use is nevertheless always
that of the most recent chain that was walked and merged.
-/

namespace OpsSignal

open Chain

/-! ## Equal texts -/

/-- The environment is the same, and so are secrets with the same
fingerprint. -/
structure World.SameEnvironment
    (platform : Platform) (left right : World) : Prop where
  fromYaml : left.fromYaml = right.fromYaml
  secrets : ∀ names leftValues rightValues,
    left.resolve names = .ok leftValues →
      right.resolve names = .ok rightValues →
        secretsDigest platform leftValues =
            secretsDigest platform rightValues →
          leftValues = rightValues

def FixedEnvironment (platform : Platform) (worlds : List World) : Prop :=
  ∀ left ∈ worlds, ∀ right ∈ worlds, left.SameEnvironment platform right

/-- One more world. -/
theorem FixedEnvironment.split
    {platform : Platform} {first second last : World}
    {worlds : List World}
    (fixed : FixedEnvironment platform
      (first :: second :: (worlds ++ [last]))) :
    FixedEnvironment platform (first :: second :: worlds) ∧
      ∀ world ∈ first :: second :: worlds,
        world.SameEnvironment platform last := by
  have known : ∀ world ∈ first :: second :: worlds,
      world ∈ first :: second :: (worlds ++ [last]) := by
    intro world member
    rw [← List.cons_append, ← List.cons_append]
    exact List.mem_append_left _ member
  refine ⟨?_, ?_⟩
  · intro left isLeft right isRight
    exact fixed left (known left isLeft) right (known right isRight)
  · intro world member
    exact fixed world (known world member) last (by simp)

namespace Chain

/-- How a text is built. -/
theorem build_eq_ok_iff
    {loading : Loading} {source : ConfigSource} {text : String}
    {built : Built} :
    loading.build source text = .ok built ↔
      ∃ names values, loading.host.secretRefs text = .ok names ∧
        loading.values names = .ok values ∧
        loading.world.fromYaml text values = .ok built.layer ∧
        built.text = text ∧
        built.secrets = secretsDigest loading.host.platform values := by
  constructor
  · intro isBuilt
    rw [Loading.build] at isBuilt
    split at isBuilt
    · cases isBuilt
    · rename_i names isNames
      split at isBuilt
      · cases isBuilt
      · rename_i values isValues
        split at isBuilt
        · cases isBuilt
        · rename_i layer isLayer
          cases isBuilt
          exact ⟨names, values, isNames, isValues, isLayer, rfl, rfl⟩
  · rintro ⟨names, values, isNames, isValues, isLayer, isText, isDigest⟩
    rw [Loading.build, isNames]
    simp only [isValues, isLayer]
    rw [← isText, ← isDigest]

theorem build_of_mem_walk
    {loading : Loading} {roots : List ConfigSource} {files : List File}
    (walked : loading.walk roots = .ok files) {file : File}
    (member : file ∈ files) :
    loading.build file.1.source file.1.text =
      .ok ⟨file.1.text, file.2, file.1.secrets⟩ := by
  have isFile := Loading.file_of_mem_walk walked member
  obtain ⟨built, loaded, isEntry⟩ := Option.map_eq_some_iff.mp isFile
  have isBuilt := build_of_load (eq_ok_of_toOption loaded)
  rw [← isEntry]
  exact isBuilt

variable {first second : Loading}

end Chain

namespace Chain

variable {first second : Loading}

end Chain

/-! ## A client between polls -/

structure Watch where
  reloader : Reloader
  cache : Cache
  /-- The config of the most recent chain that was walked and merged, or
  the default one while there is none. -/
  latest : Config

namespace Watch

variable (host : Host)

def start
    (opts : LoadOptions) (outside : Outside) (cache : Cache)
    (roots : List ConfigSource) : Option Watch :=
  let result := loadInitial host opts outside cache roots
  let good := goodInitial host opts outside cache roots
  result.1.toOption.map fun loaded =>
    { reloader := Reloader.start roots opts loaded
      cache := result.2
      latest := (good.map Good.config).getD {} }

def poll (session : Watch) (world : World) : Watch :=
  let result := session.reloader.check host world session.cache
  let chain := (Reloader.loading host world session.cache).chain
    session.reloader.roots
  { reloader := result.1
    cache := result.2
    latest := (chain.toOption.map Prod.fst).getD session.latest }

end Watch

section Polls

variable {host : Host} {opts : LoadOptions} {outside : Outside}
  {cache : Cache} {roots : List ConfigSource} {worlds : List World}
  {session : Watch} {world : World}

end Polls

/-! ## An edit that does not merge -/

end OpsSignal
