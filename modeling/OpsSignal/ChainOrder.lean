import OpsSignal.Chain
import OpsSignal.Lib.DepthFirst

/-!
# The order of a chain

A walk that succeeds is a depth-first search of the graph of the files
that can be loaded, under the limits of the walk.  What holds of such
searches then holds of walks.
-/

namespace OpsSignal

namespace Chain

open DepthFirst

/-- A computation that returns something succeeds with it. -/
theorem eq_ok_of_toOption
    {Problem Value : Type} {result : Except Problem Value} {value : Value}
    (returned : result.toOption = some value) : result = .ok value := by
  cases result with
  | error problem => cases returned
  | ok other =>
      cases returned
      rfl

/-! ## The graph -/

/-- The key of a file, and its source. -/
def keyOf (file : File) : String :=
  file.1.source.shown

def sources (files : List File) : List ConfigSource :=
  files.map fun file => file.1.source

namespace Loading

variable (loading : Loading)

/-- The parents of a file that can be loaded, if all of its references
can be resolved. -/
def parents (source : ConfigSource) : Option (List ConfigSource) :=
  (loading.load source).toOption.bind fun built =>
    built.layer.extending.mapM fun reference =>
      (source.join loading.host.urls reference.toList).toOption

/-- The entry of a file in the chain. -/
def file (source : ConfigSource) : Option File :=
  (loading.load source).toOption.map fun built =>
    (⟨source, built.text, built.secrets⟩, built.layer)

/-- What the walk checks of a file it comes to. -/
def Admits (stack seen : List String) (source : ConfigSource) : Prop :=
  source.shown ∈ seen ∨
    (stack.length < maxDepth ∧ seen.length < maxFiles ∧
      source.checkSupported loading.host = .ok ())

/-- The searches of the graph under the walk's checks. -/
abbrev Searches
    (stack seen : List String) (todo out : List ConfigSource) : Prop :=
  Visits ConfigSource.shown loading.parents loading.Admits stack seen todo
    out

variable {loading}

theorem source_of_file {source : ConfigSource} {file : File}
    (isFile : loading.file source = some file) :
    file.1.source = source := by
  obtain ⟨built, _, rfl⟩ := Option.map_eq_some_iff.mp isFile
  rfl

theorem file_of_parents {source : ConfigSource} {above : List ConfigSource}
    (isAbove : loading.parents source = some above) :
    ∃ file, loading.file source = some file := by
  obtain ⟨built, loaded, _⟩ := Option.bind_eq_some_iff.mp isAbove
  exact ⟨_, Option.map_eq_some_iff.mpr ⟨built, loaded, rfl⟩⟩

/-- The entries of the files that a search leaves. -/
theorem sources_filterMap {stack seen : List String}
    {todo out : List ConfigSource}
    (searches : loading.Searches stack seen todo out) :
    sources (out.filterMap loading.file) = out := by
  have entered := searches.entered
  clear searches
  induction out with
  | nil => rfl
  | cons source rest inductionHypothesis =>
      obtain ⟨above, isAbove⟩ := entered source List.mem_cons_self
      obtain ⟨file, isFile⟩ := file_of_parents isAbove
      have tail := inductionHypothesis fun other member =>
        entered other (List.mem_cons_of_mem _ member)
      rw [List.filterMap_cons_some isFile]
      simp only [sources] at tail ⊢
      rw [List.map_cons, tail, source_of_file isFile]

theorem keys_filterMap {stack seen : List String}
    {todo out : List ConfigSource}
    (searches : loading.Searches stack seen todo out) :
    (out.filterMap loading.file).map keyOf =
      out.map ConfigSource.shown := by
  have same := congrArg (List.map ConfigSource.shown)
    (sources_filterMap searches)
  rw [sources, List.map_map] at same
  exact same

end Loading

/-! ## From a walk to a search -/

/-- A walk after it has finished some files. -/
def Walk.after (files : List File) (walk : Walk) : Walk where
  stack := walk.stack
  seen := walk.seen ++ files.map keyOf
  order := walk.order ++ files

namespace Loading

variable {loading : Loading}

/-- Visiting parents by reference is visiting the joined sources. -/
theorem foldlM_visitParent
    (recur : Walk → ConfigSource → Except ChainError Walk)
    (source : ConfigSource) (next : Walk) :
    ∀ (references : List String) (walk : Walk),
      references.foldlM (loading.visitParent recur source) walk =
          .ok next ↔
        ∃ above,
          references.mapM (fun reference =>
            (source.join loading.host.urls
              reference.toList).toOption) = some above ∧
          above.foldlM recur walk = .ok next
  | [], walk => by
      simp
  | reference :: rest, walk => by
      rw [List.foldlM_cons, visitParent]
      cases joined : source.join loading.host.urls reference.toList with
      | error error =>
          constructor
          · rintro ⟨⟩
          · rintro ⟨above, isAbove, _⟩
            simp [joined, Except.toOption] at isAbove
      | ok parent =>
          have named : (source.join loading.host.urls
              reference.toList).toOption = some parent := by
            rw [joined]
            rfl
          dsimp only
          cases visited : recur walk parent with
          | error error =>
              constructor
              · rintro ⟨⟩
              · rintro ⟨above, isAbove, folded⟩
                simp only [List.mapM_cons, named, Option.pure_def,
                  Option.bind_eq_bind, Option.bind_some] at isAbove
                obtain ⟨others, _, same⟩ :=
                  Option.bind_eq_some_iff.mp isAbove
                cases same
                rw [List.foldlM_cons, visited] at folded
                cases folded
          | ok middle =>
              have tail := foldlM_visitParent recur source next rest middle
              change rest.foldlM (loading.visitParent recur source)
                middle = .ok next ↔ _
              rw [tail]
              constructor
              · rintro ⟨above, isAbove, folded⟩
                refine ⟨parent :: above, ?_, ?_⟩
                · simp [named, isAbove]
                · rw [List.foldlM_cons, visited]
                  exact folded
              · rintro ⟨above, isAbove, folded⟩
                simp only [List.mapM_cons, named, Option.pure_def,
                  Option.bind_eq_bind, Option.bind_some] at isAbove
                obtain ⟨others, isOthers, same⟩ :=
                  Option.bind_eq_some_iff.mp isAbove
                cases same
                rw [List.foldlM_cons, visited] at folded
                exact ⟨others, isOthers, folded⟩

/-- What a function that visits files may do to a walk. -/
def Sound
    (loading : Loading)
    (recur : Walk → ConfigSource → Except ChainError Walk) : Prop :=
  ∀ walk source next, recur walk source = .ok next →
    ∃ out, loading.Searches walk.stack walk.seen [source] out ∧
      next = walk.after (out.filterMap loading.file)

theorem Sound.foldlM
    {recur : Walk → ConfigSource → Except ChainError Walk}
    (sound : loading.Sound recur) :
    ∀ (todo : List ConfigSource) (walk next : Walk),
      todo.foldlM recur walk = .ok next →
        ∃ out, loading.Searches walk.stack walk.seen todo out ∧
          next = walk.after (out.filterMap loading.file)
  | [], walk, next, folded => by
      cases folded
      exact ⟨[], Visits.nil, by simp [Walk.after]⟩
  | source :: rest, walk, next, folded => by
      rw [List.foldlM_cons] at folded
      cases visited : recur walk source with
      | error error =>
          rw [visited] at folded
          cases folded
      | ok middle =>
          rw [visited] at folded
          obtain ⟨out, searches, isMiddle⟩ := sound walk source middle
            visited
          obtain ⟨later, tail, isNext⟩ :=
            sound.foldlM rest middle next folded
          rw [isMiddle, Walk.after, keys_filterMap searches] at tail
          refine ⟨out ++ later, searches.append tail, ?_⟩
          rw [isNext, isMiddle]
          simp [Walk.after]

theorem sound_visitBody
    {recur : Walk → ConfigSource → Except ChainError Walk}
    (sound : loading.Sound recur) :
    loading.Sound (loading.visitBody recur) := by
  intro walk source next visited
  rw [visitBody] at visited
  split at visited
  · cases visited
  · rename_i closed
    split at visited
    · rename_i left
      cases visited
      exact ⟨[], Visits.pass closed left (Or.inl left) Visits.nil,
        by simp [Walk.after]⟩
    · rename_i unseen
      split at visited
      · cases visited
      · rename_i shallow
        split at visited
        · cases visited
        · rename_i few
          split at visited
          · cases visited
          · rename_i supported
            split at visited
            · cases visited
            · rename_i built loaded
              split at visited
              · cases visited
              · rename_i inside folded
                cases visited
                obtain ⟨above, isAbove, foldedAbove⟩ :=
                  (foldlM_visitParent recur source inside _ _).mp folded
                obtain ⟨inner, searches, isInside⟩ :=
                  sound.foldlM above _ _ foldedAbove
                have named : loading.parents source = some above := by
                  rw [parents, loaded]
                  exact isAbove
                have here : loading.file source = some
                    (⟨source, built.text, built.secrets⟩,
                      built.layer) := by
                  rw [file, loaded]
                  rfl
                refine ⟨inner ++ [source], ?_, ?_⟩
                · exact Visits.enter closed unseen
                    (Or.inr ⟨by omega, by omega, supported⟩) named
                    searches Visits.nil
                · rw [isInside, List.filterMap_append,
                    List.filterMap_cons_some here]
                  simp [Walk.finish, Walk.after, Walk.push, keyOf]

theorem sound_visitWithin :
    ∀ room, loading.Sound (loading.visitWithin room)
  | 0 => by
      apply sound_visitBody
      intro walk source next visited
      cases visited
  | room + 1 => sound_visitBody (sound_visitWithin room)

/-! ## From a search to a walk -/

/-- With room for the files that may still be opened, the walk follows
the search. -/
theorem foldlM_of_searches {stack seen : List String}
    {todo out : List ConfigSource}
    (searches : loading.Searches stack seen todo out) :
    ∀ (room : Nat) (walk : Walk), maxDepth ≤ stack.length + room →
      walk.stack = stack → walk.seen = seen →
        todo.foldlM (loading.visitWithin room) walk =
          .ok (walk.after (out.filterMap loading.file)) := by
  induction searches with
  | nil =>
      intro room walk _ _ _
      rw [List.foldlM_nil]
      simp [Walk.after, pure, Except.pure]
  | @pass stack seen source rest out closed left _ _ inductionHypothesis =>
      intro room walk enough isStack isSeen
      have visited : loading.visitWithin room walk source = .ok walk := by
        have unopened : source.shown ∉ walk.stack := by rwa [isStack]
        have finished : source.shown ∈ walk.seen := by rwa [isSeen]
        cases room with
        | zero => simp [visitWithin, visitBody, unopened, finished]
        | succ room => simp [visitWithin, visitBody, unopened, finished]
      rw [List.foldlM_cons, visited]
      exact inductionHypothesis room walk enough isStack isSeen
  | @enter stack seen source above inner rest out closed unseen met isAbove
      inside _ innerHypothesis restHypothesis =>
      intro room walk enough isStack isSeen
      rcases met with left | ⟨shallow, few, supported⟩
      · exact absurd left unseen
      · obtain ⟨built, isBuilt, named⟩ :=
          Option.bind_eq_some_iff.mp isAbove
        have loaded := eq_ok_of_toOption isBuilt
        cases room with
        | zero => omega
        | succ room =>
            have innerFolded := innerHypothesis room
              (walk.push source.shown)
              (by simp only [List.length_append, List.length_singleton]
                  omega)
              (by rw [Walk.push, isStack]) isSeen
            have parentsFolded :=
              (foldlM_visitParent (loading.visitWithin room) source _
                built.layer.extending (walk.push source.shown)).mpr
                ⟨above, named, innerFolded⟩
            have here : loading.file source = some
                (⟨source, built.text, built.secrets⟩,
                  built.layer) := by
              rw [file, loaded]
              rfl
            have visited : loading.visitWithin (room + 1) walk source =
                .ok (walk.after
                  ((inner ++ [source]).filterMap loading.file)) := by
              have unopened : source.shown ∉ walk.stack := by
                rwa [isStack]
              have unfinished : source.shown ∉ walk.seen := by
                rwa [isSeen]
              have low : ¬ maxDepth ≤ walk.stack.length := by
                rw [isStack]
                omega
              have small : ¬ maxFiles ≤ walk.seen.length := by
                rw [isSeen]
                omega
              rw [visitWithin, visitBody]
              simp only [unopened, unfinished, low, small, if_false,
                supported, loaded, parentsFolded]
              rw [List.filterMap_append, List.filterMap_cons_some here]
              simp [Walk.finish, Walk.after, Walk.push, keyOf]
            have keys : ((inner ++ [source]).filterMap loading.file).map
                keyOf = (inner ++ [source]).map ConfigSource.shown := by
              rw [List.filterMap_append, List.map_append,
                keys_filterMap inside, List.filterMap_cons_some here]
              simp [keyOf]
            rw [List.foldlM_cons, visited]
            have left : (walk.after
                ((inner ++ [source]).filterMap loading.file)).seen =
                seen ++ (inner ++ [source]).map ConfigSource.shown := by
              rw [← keys, ← isSeen]
              rfl
            have later := restHypothesis (room + 1)
              (walk.after ((inner ++ [source]).filterMap loading.file))
              enough isStack left
            refine later.trans ?_
            simp [Walk.after, List.filterMap_cons_some here]

/-- A walk succeeds exactly where the search does not get stuck, and its
chain is what the search leaves. -/
theorem walk_eq_ok_iff {roots : List ConfigSource} {files : List File} :
    loading.walk roots = .ok files ↔
      ∃ out, loading.Searches [] [] roots out ∧
        files = out.filterMap loading.file := by
  constructor
  · intro walked
    rw [Loading.walk] at walked
    cases folded : roots.foldlM loading.visit {} with
    | error error =>
        rw [folded] at walked
        cases walked
    | ok next =>
        rw [folded] at walked
        cases walked
        obtain ⟨out, searches, isNext⟩ :=
          (sound_visitWithin maxDepth).foldlM roots {} next folded
        refine ⟨out, searches, ?_⟩
        rw [isNext]
        simp [Walk.after]
  · rintro ⟨out, searches, rfl⟩
    have folded := foldlM_of_searches searches maxDepth {}
      (by simp) rfl rfl
    rw [Loading.walk, visit, folded]
    simp [Walk.after, Except.map]

/-- A chain is what its own sources load as. -/
theorem searches_of_walk {roots : List ConfigSource} {files : List File}
    (walked : loading.walk roots = .ok files) :
    loading.Searches [] [] roots (sources files) ∧
      files = (sources files).filterMap loading.file := by
  obtain ⟨out, searches, rfl⟩ := walk_eq_ok_iff.mp walked
  rw [sources_filterMap searches]
  exact ⟨searches, rfl⟩

theorem file_of_mem_walk {roots : List ConfigSource} {files : List File}
    (walked : loading.walk roots = .ok files) {file : File}
    (member : file ∈ files) : loading.file file.1.source = some file := by
  obtain ⟨_, same⟩ := searches_of_walk walked
  rw [same] at member
  obtain ⟨source, _, isFile⟩ := List.mem_filterMap.mp member
  rw [source_of_file isFile]
  exact isFile

end Loading

/-! ## The walk ends -/

namespace Loading

variable {loading : Loading}

private theorem foldlM_congr_of_stack
    {recur other : Walk → ConfigSource → Except ChainError Walk}
    {stack : List String} {source : ConfigSource}
    (same : ∀ walk parent, walk.stack = stack →
      recur walk parent = other walk parent)
    (keeps : ∀ walk parent next, recur walk parent = .ok next →
      next.stack = walk.stack) :
    ∀ (references : List String) (walk : Walk), walk.stack = stack →
      references.foldlM (loading.visitParent recur source) walk =
        references.foldlM (loading.visitParent other source) walk
  | [], _, _ => rfl
  | reference :: rest, walk, isStack => by
      have first : loading.visitParent recur source walk reference =
          loading.visitParent other source walk reference := by
        rw [visitParent, visitParent]
        split
        · rfl
        · exact same walk _ isStack
      rw [List.foldlM_cons, List.foldlM_cons, ← first]
      cases visited : loading.visitParent recur source walk reference with
      | error error => rfl
      | ok next =>
          have nextStack : next.stack = stack := by
            rw [visitParent] at visited
            split at visited
            · cases visited
            · rw [keeps walk _ next visited, isStack]
          exact foldlM_congr_of_stack same keeps rest next nextStack

/-- Below the deepest level the visits of parents do not matter. -/
private theorem visitBody_congr
    {recur other : Walk → ConfigSource → Except ChainError Walk}
    {walk : Walk} {source : ConfigSource}
    (same : walk.stack.length < maxDepth → ∀ inner parent,
      inner.stack = walk.stack ++ [source.shown] →
        recur inner parent = other inner parent)
    (keeps : ∀ walk parent next, recur walk parent = .ok next →
      next.stack = walk.stack) :
    loading.visitBody recur walk source =
      loading.visitBody other walk source := by
  rw [visitBody, visitBody]
  by_cases low : walk.stack.length < maxDepth
  · have folded : ∀ references : List String,
        references.foldlM (loading.visitParent recur source)
            (walk.push source.shown) =
          references.foldlM (loading.visitParent other source)
            (walk.push source.shown) := fun references =>
      foldlM_congr_of_stack (same low) keeps references _ rfl
    simp only [folded]
  · have deep : maxDepth ≤ walk.stack.length := by omega
    simp only [deep, if_true]

private theorem stack_visitWithin
    (room : Nat) (walk : Walk) (source : ConfigSource) (next : Walk)
    (visited : loading.visitWithin room walk source = .ok next) :
    next.stack = walk.stack := by
  obtain ⟨out, _, rfl⟩ := sound_visitWithin room walk source next visited
  rfl

/-- Whatever solves the recursion of `visit` is a visit with room for the
levels that are left. -/
theorem visitWithin_of_solves
    {solution : Walk → ConfigSource → Except ChainError Walk}
    (solves : ∀ walk source,
      solution walk source = loading.visitBody solution walk source) :
    ∀ (room : Nat) (walk : Walk) (source : ConfigSource),
      maxDepth ≤ walk.stack.length + room →
        loading.visitWithin room walk source = solution walk source
  | 0, walk, source, enough => by
      rw [solves, visitWithin]
      apply visitBody_congr
      · intro low
        omega
      · intro walk parent next visited
        cases visited
  | room + 1, walk, source, enough => by
      rw [solves, visitWithin]
      apply visitBody_congr
      · intro _ inner parent isStack
        apply visitWithin_of_solves solves room
        rw [isStack, List.length_append, List.length_singleton]
        omega
      · exact stack_visitWithin room

/-- More room changes no visit. -/
theorem visitWithin_stable :
    ∀ (room more : Nat) (walk : Walk) (source : ConfigSource),
      maxDepth ≤ walk.stack.length + room →
        loading.visitWithin (room + more) walk source =
          loading.visitWithin room walk source
  | 0, more, walk, source, enough => by
      have deep : ∀ recur other : Walk → ConfigSource →
          Except ChainError Walk,
          loading.visitBody recur walk source =
            loading.visitBody other walk source := by
        intro recur other
        have reached : maxDepth ≤ walk.stack.length := by omega
        rw [visitBody, visitBody]
        simp only [reached, if_true]
      cases more with
      | zero => rfl
      | succ more =>
          rw [Nat.zero_add, visitWithin, visitWithin]
          exact deep _ _
  | room + 1, more, walk, source, enough => by
      rw [Nat.add_right_comm, visitWithin, visitWithin]
      apply visitBody_congr
      · intro _ inner parent isStack
        apply visitWithin_stable room more
        rw [isStack, List.length_append, List.length_singleton]
        omega
      · exact stack_visitWithin _

/-- `visit` solves its recursion. -/
theorem visit_eq (walk : Walk) (source : ConfigSource) :
    loading.visit walk source =
      loading.visitBody loading.visit walk source := by
  rw [visit, ← visitWithin_stable maxDepth 1 walk source (by omega)]
  rfl

/-- And nothing else does. -/
theorem visit_unique
    {solution : Walk → ConfigSource → Except ChainError Walk}
    (solves : ∀ walk source,
      solution walk source = loading.visitBody solution walk source) :
    solution = loading.visit := by
  funext walk source
  exact (visitWithin_of_solves solves maxDepth walk source
    (by omega)).symm

/-! ## Chains that are accepted -/

/-- Keys tell the files apart that the roots reach. -/
def KeysTell (loading : Loading) (roots : List ConfigSource) : Prop :=
  ∀ left right, Reached loading.parents roots left →
    Reached loading.parents roots right → left.shown = right.shown →
      left = right

/-- What a chain is: the files that the roots reach, each once, in the
order in which a depth-first search leaves them. -/
structure Flattened
    (loading : Loading) (roots : List ConfigSource) (files : List File) :
    Prop where
  once : (files.map keyOf).Nodup
  contents : ∀ file ∈ files, loading.file file.1.source = some file
  reached : ∀ file ∈ files,
    Reached loading.parents roots file.1.source
  rooted : ∀ root ∈ roots, root.shown ∈ files.map keyOf
  complete : loading.KeysTell roots → ∀ source,
    Reached loading.parents roots source → source ∈ sources files
  parentsFirst : ∀ before file after, files = before ++ file :: after →
    ∀ parent, Names loading.parents file.1.source parent →
      parent.shown ∈ before.map keyOf
  order : Visits ConfigSource.shown loading.parents (fun _ _ _ => True)
    [] [] roots (sources files)

theorem keys_eq (files : List File) :
    files.map keyOf = (sources files).map ConfigSource.shown := by
  rw [sources, List.map_map]
  rfl

theorem flattened_of_walk {roots : List ConfigSource} {files : List File}
    (walked : loading.walk roots = .ok files) :
    loading.Flattened roots files := by
  obtain ⟨searches, _⟩ := searches_of_walk walked
  refine ⟨?_, fun _ member => file_of_mem_walk walked member, ?_, ?_,
    fun tell _ reach => searches.complete tell reach, ?_,
    searches.weaken fun _ _ _ _ => trivial⟩
  · rw [keys_eq]
    exact searches.fresh.1
  · intro file member
    exact searches.reached _ (List.mem_map_of_mem member)
  · intro root isRoot
    rw [keys_eq]
    simpa using searches.listed root isRoot
  · intro before file after split parent names
    rw [keys_eq]
    have splitSources : sources files =
        sources before ++ file.1.source :: sources after := by
      rw [split, sources, List.map_append, List.map_cons]
      rfl
    simpa using searches.parents_before _ _ _ splitSources parent names

/-- `visit` is the one solution of its recursion, a walk that succeeds
flattens the graph of the files, and none succeeds where a cycle can be
reached. -/
theorem walk_flattens (loading : Loading) (roots : List ConfigSource) :
    (∀ solution : Walk → ConfigSource → Except ChainError Walk,
      (∀ walk source,
        solution walk source = loading.visitBody solution walk source) ↔
          solution = loading.visit) ∧
      (∀ files, loading.walk roots = .ok files →
        loading.Flattened roots files) ∧
      (loading.KeysTell roots →
        (∃ source, Reached loading.parents roots source ∧
          Relation.TransGen (Names loading.parents) source source) →
          ∀ files, loading.walk roots ≠ .ok files) := by
  refine ⟨?_, fun files => flattened_of_walk, ?_⟩
  · intro solution
    constructor
    · exact visit_unique
    · rintro rfl walk source
      exact visit_eq walk source
  · rintro tell ⟨source, reach, cycle⟩ files walked
    exact (searches_of_walk walked).1.acyclic tell reach cycle

end Loading

/-! ## Teams that share a default -/

/-- A host whose YAML library knows the sample texts by name. -/
def layeredHost : Host where
  platform := ⟨id, fun _ => ""⟩
  urls := ⟨fun _ => .error "", fun _ _ => .error "", fun _ => none⟩
  libraries := ⟨fun _ => .ok (), id, fun _ => .ok [], fun _ => false,
    fun _ => false⟩
  secretRefs _ := .ok []
  reads _ := false
  missing := "No such file or directory (os error 2)"

/-- A world of local files.  The text of a file is its path, and its
parents are looked up by it. -/
def localWorld (extending : List (String × List String)) : World where
  fetch source :=
    if (extending.lookup source.shown).isSome then .ok source.shown
    else .error (.config (source.shown ++ ": cannot read"))
  resolve _ := .ok []
  fromYaml text _ :=
    .ok { extending := (extending.lookup text).getD [] }

def localLoading (extending : List (String × List String)) : Loading where
  host := layeredHost
  world := localWorld extending
  cache _ := none
  mode := .reload

def localFile (path : String) : ConfigSource :=
  .file path.toList

/-- Two team files, a default, and alerts that both teams want. -/
def teamFiles : List (String × List String) :=
  [("default.yaml", []),
    ("shared/db-alerts.yaml", ["../default.yaml"]),
    ("teams/a.yaml", ["../default.yaml", "../shared/db-alerts.yaml"]),
    ("teams/b.yaml", ["../shared/db-alerts.yaml"])]

def teamRoots : List ConfigSource :=
  [localFile "teams/a.yaml", localFile "teams/b.yaml"]

def teamSources : List ConfigSource :=
  [localFile "default.yaml", localFile "shared/db-alerts.yaml",
    localFile "teams/a.yaml", localFile "teams/b.yaml"]

private theorem keysTell_teams :
    (localLoading teamFiles).KeysTell teamRoots := by
  have closed : ∀ source ∈ teamSources,
      (((localLoading teamFiles).parents source).all fun above =>
        above.all fun parent => decide (parent ∈ teamSources)) = true := by
    decide +kernel
  have started : ∀ root ∈ teamRoots, root ∈ teamSources := by
    decide +kernel
  have known : ∀ source, Reached (localLoading teamFiles).parents
      teamRoots source → source ∈ teamSources := by
    rintro source ⟨root, isRoot, path⟩
    induction path with
    | refl => exact started root isRoot
    | tail _ names inductionHypothesis =>
        obtain ⟨above, isAbove, member⟩ := names
        have all := closed _ inductionHypothesis
        rw [isAbove, Option.all_some, List.all_eq_true] at all
        exact of_decide_eq_true (all _ member)
  have apart : ∀ left ∈ teamSources, ∀ right ∈ teamSources,
      left.shown = right.shown → left = right := by
    decide +kernel
  intro left right reachLeft reachRight
  exact apart left (known left reachLeft) right (known right reachRight)

/-- The default first, then what both teams share, then the teams. -/
theorem walk_flattens_teams :
    (localLoading teamFiles).KeysTell teamRoots ∧
      ∃ files, (localLoading teamFiles).walk teamRoots = .ok files ∧
        sources files = teamSources ∧
        (localLoading teamFiles).Flattened teamRoots files := by
  have computed : ((localLoading teamFiles).walk teamRoots).toOption.any
      (fun files => decide (sources files = teamSources)) = true := by
    decide +kernel
  obtain ⟨files, isFiles, same⟩ := Option.any_eq_true _ _ |>.mp computed
  exact ⟨keysTell_teams, files, eq_ok_of_toOption isFiles,
    of_decide_eq_true same,
    (Loading.walk_flattens (localLoading teamFiles) teamRoots).2.1 files
      (eq_ok_of_toOption isFiles)⟩

end Chain

end OpsSignal
