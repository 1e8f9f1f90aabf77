import OpsSignal.Config

/-!
# What a merge of layers is

`merged` states the merge as a whole: the last setting of each entry, and
the routes of the layers from the last one back.  `mergeLayers` computes it
layer by layer, together with where each route came from.
-/

namespace OpsSignal

open Checks

/-- Layers, lowest priority first, each with the file it came from. -/
abbrev NamedLayers := List (Option String × Layer)

/-- The value of the last layer that sets it. -/
def lastSetting {Value : Type}
    (field : Layer → Option Value) (layers : NamedLayers) : Option Value :=
  (layers.filterMap fun named => field named.2).getLast?

/-- The routes of one layer, each with its file and its index there. -/
def routeEntries (named : Option String × Layer) : List (Route × Origin) :=
  named.2.routes.zipIdx.map fun (route, index) =>
    (route, (named.1, index))

/-- The routes of all layers, those of a later layer first. -/
def mergedEntries (layers : NamedLayers) : List (Route × Origin) :=
  layers.reverse.flatMap routeEntries

/-- The merge that the layers ask for. -/
def merged (layers : NamedLayers) : Config where
  providers :=
    { console := lastSetting (·.providers.console) layers
      slack := lastSetting (·.providers.slack) layers
      webhook := lastSetting (·.providers.webhook) layers
      pagerduty := lastSetting (·.providers.pagerduty) layers
      teams := lastSetting (·.providers.teams) layers
      opsgenie := lastSetting (·.providers.opsgenie) layers
      email := lastSetting (·.providers.email) layers }
  routes := layers.reverse.flatMap fun named => named.2.routes
  storage := (lastSetting Layer.storage layers).getD {}

/-! ## The merge, layer by layer -/

theorem lastSetting_concat {Value : Type}
    (field : Layer → Option Value) (layers : NamedLayers)
    (named : Option String × Layer) :
    lastSetting field (layers ++ [named]) =
      (field named.2).or (lastSetting field layers) := by
  cases set : field named.2 with
  | none => simp [lastSetting, List.filterMap_append, set]
  | some value => simp [lastSetting, List.filterMap_append, set]

theorem map_fst_mergedEntries (layers : NamedLayers) :
    (mergedEntries layers).map Prod.fst = (merged layers).routes := by
  have one : ∀ named : Option String × Layer,
      (routeEntries named).map Prod.fst = named.2.routes := by
    intro named
    simp [routeEntries, Function.comp_def]
  simp [mergedEntries, merged, List.map_flatMap, one]

theorem map_snd_routeEntries (named : Option String × Layer) :
    (routeEntries named).map Prod.snd =
      (List.range named.2.routes.length).map fun i => (named.1, i) := by
  simp only [routeEntries, List.map_map]
  rw [List.range_eq_range', ← List.zipIdx_map_snd, List.map_map]
  rfl

theorem mergedEntries_concat
    (layers : NamedLayers) (named : Option String × Layer) :
    mergedEntries (layers ++ [named]) =
      routeEntries named ++ mergedEntries layers := by
  simp [mergedEntries]

theorem overlay_merged
    (layers : NamedLayers) (named : Option String × Layer) :
    named.2.providers.overlay (merged layers).providers =
      (merged (layers ++ [named])).providers := by
  simp only [ProvidersConfig.overlay, merged, lastSetting_concat]

/-- The fold computes the merge, with the origin of each route. -/
theorem mergeLayers_eq (layers : NamedLayers) :
    Config.mergeLayers layers =
      (merged layers, (mergedEntries layers).map Prod.snd) := by
  induction layers using List.reverseRecOn with
  | nil => rfl
  | append_singleton layers named inductionHypothesis =>
      rw [Config.mergeLayers, List.foldl_concat, ← Config.mergeLayers,
        inductionHypothesis, Config.mergeLayer]
      simp only [overlay_merged, mergedEntries_concat, List.map_append,
        map_snd_routeEntries]
      congr 1
      simp only [merged, List.reverse_append, List.reverse_singleton,
        List.singleton_append, List.flatMap_cons, lastSetting_concat]
      cases named.2.storage with
      | none => rfl
      | some storage => rfl

/-! ## The checks of the merge -/

/-- The checks made before the routes are looked at. -/
def checkProviders
    (libraries : Libraries) (providers : ProvidersConfig) :
    Except SignalError Unit :=
  allOf
    [match providers.email with
      | some email => email.check libraries
      | none => .ok (),
      match providers.slack with
      | some slack => slack.check
      | none => .ok (),
      providers.checkTemplates libraries]

theorem allOf_append
    {Error : Type} (first second : List (Except Error Unit)) :
    allOf (first ++ second) = (allOf first).bind fun _ => allOf second := by
  induction first with
  | nil => rfl
  | cons check first inductionHypothesis =>
      cases check with
      | error error => rfl
      | ok result => simpa [allOf] using inductionHypothesis

/-- The providers are checked first, then the routes in merged order. -/
theorem fromLayers_eq (libraries : Libraries) (layers : NamedLayers) :
    Config.fromLayers libraries layers =
      (checkProviders libraries (merged layers).providers).bind fun _ =>
        (checkEach (checkRoute (merged layers).providerNames)
          (mergedEntries layers)).map fun _ => merged layers := by
  have entries :
      (merged layers).routes.zip ((mergedEntries layers).map Prod.snd) =
        mergedEntries layers := by
    rw [← map_fst_mergedEntries, ← List.unzip_fst, ← List.unzip_snd,
      List.zip_unzip]
  have single : ∀ check : Except SignalError Unit, allOf [check] = check := by
    intro check
    cases check with
    | error error => rfl
    | ok result => rfl
  have joined : ∀ email slack templates routes : Except SignalError Unit,
      allOf [email, slack, templates, routes] =
        (allOf [email, slack, templates]).bind fun _ => routes := by
    intro email slack templates routes
    simpa [single] using allOf_append [email, slack, templates] [routes]
  simp only [Config.fromLayers, mergeLayers_eq, Config.checkRoutes, entries]
  split
  · next passed =>
      rw [joined] at passed
      change (checkProviders libraries (merged layers).providers).bind _ =
        _ at passed
      cases first : checkProviders libraries (merged layers).providers with
      | error error => simp [first, Except.bind] at passed
      | ok result =>
          simp only [first, Except.bind] at passed
          simp [passed, Except.bind, Except.map]
  · next error failed =>
      rw [joined] at failed
      change (checkProviders libraries (merged layers).providers).bind _ =
        _ at failed
      cases first : checkProviders libraries (merged layers).providers with
      | error other =>
          simp only [first, Except.bind, Except.error.injEq] at failed
          simp [failed, Except.bind]
      | ok result =>
          simp only [first, Except.bind] at failed
          simp [failed, Except.bind, Except.map]

/-- Whatever a route check refuses, it says where the route stands. -/
theorem display_of_checkRoute
    {known : List String} {entry : Route × Origin} {error : SignalError}
    (refused : checkRoute known entry = .error error) :
    ∃ rest, error = .config (Origin.display entry.2 ++ rest) := by
  have member := mem_of_allOf_eq_error refused
  simp only [List.mem_cons, List.not_mem_nil, or_false] at member
  rcases member with failed | failed | failed | failed | failed | failed
  · exact ⟨_, error_of_refuseIf failed.symm⟩
  · exact ⟨_, error_of_refuseIf failed.symm⟩
  · exact ⟨_, error_of_refuseIf failed.symm⟩
  · exact ⟨_, error_of_refuseIf failed.symm⟩
  · obtain ⟨_, field, _, _, _, here⟩ := checkEach_eq_error failed.symm
    have spelled := error_of_refuseIf here
    simp only [String.append_assoc] at spelled
    exact ⟨_, spelled⟩
  · obtain ⟨_, name, _, _, _, here⟩ := checkEach_eq_error failed.symm
    have spelled := error_of_refuseIf here
    simp only [String.append_assoc] at spelled
    exact ⟨_, spelled⟩

theorem mem_routeEntries
    {named : Option String × Layer} {entry : Route × Origin}
    (member : entry ∈ routeEntries named) :
    ∃ index, entry.2 = (named.1, index) ∧
      named.2.routes[index]? = some entry.1 := by
  obtain ⟨⟨route, index⟩, inside, rfl⟩ := List.mem_map.1 member
  exact ⟨index, rfl, List.mem_zipIdx_iff_getElem?.1 inside⟩

theorem mem_mergedEntries
    {layers : NamedLayers} {entry : Route × Origin}
    (member : entry ∈ mergedEntries layers) :
    ∃ named ∈ layers, ∃ index, entry.2 = (named.1, index) ∧
      named.2.routes[index]? = some entry.1 := by
  obtain ⟨named, inside, listed⟩ := List.mem_flatMap.1 member
  exact ⟨named, List.mem_reverse.1 inside, mem_routeEntries listed⟩

/-- The last setting is one that no later layer makes again. -/
theorem lastSetting_eq_some_iff {Value : Type}
    (field : Layer → Option Value) (layers : NamedLayers) (value : Value) :
    lastSetting field layers = some value ↔
      ∃ before named after, layers = before ++ named :: after ∧
        field named.2 = some value ∧ ∀ later ∈ after, field later.2 = none := by
  induction layers using List.reverseRecOn with
  | nil => simp [lastSetting]
  | append_singleton layers last inductionHypothesis =>
      rw [lastSetting_concat, Option.or_eq_some_iff, inductionHypothesis]
      constructor
      · rintro (set | ⟨unset, before, named, after, rfl, set, later⟩)
        · exact ⟨layers, last, [], rfl, set, by simp⟩
        · refine ⟨before, named, after ++ [last], by simp, set, ?_⟩
          intro layer member
          rcases List.mem_append.1 member with inside | atEnd
          · exact later layer inside
          · rw [List.mem_singleton.1 atEnd]
            exact unset
      · rintro ⟨before, named, after, spelled, set, later⟩
        rcases List.eq_nil_or_concat after with rfl | ⟨front, final, rfl⟩
        · obtain ⟨rfl, same⟩ := List.append_inj' spelled rfl
          simp only [List.cons.injEq, and_true] at same
          subst same
          exact .inl set
        · rw [List.concat_eq_append, ← List.cons_append,
            ← List.append_assoc] at spelled
          obtain ⟨rfl, same⟩ := List.append_inj' spelled rfl
          simp only [List.cons.injEq, and_true] at same
          subst same
          exact .inr ⟨later last (by simp), before, named, front, rfl, set,
            fun layer member => later layer (by simp [member])⟩

/-! ## Layers merge as specified -/

/-- A config that is accepted is the merge, with every merged route
checked; once the providers pass, an error is that of the first route, in
merged order, that fails, and names its file and its index there. -/
theorem fromLayers_merges (libraries : Libraries) (layers : NamedLayers) :
    (∀ config, Config.fromLayers libraries layers = .ok config →
      config = merged layers ∧
        (mergedEntries layers).map Prod.fst = config.routes ∧
        ∀ entry ∈ mergedEntries layers,
          checkRoute config.providerNames entry = .ok ()) ∧
      ∀ error,
        checkProviders libraries (merged layers).providers = .ok () →
        Config.fromLayers libraries layers = .error error →
          ∃ passed entry rest,
            mergedEntries layers = passed ++ entry :: rest ∧
              (∀ earlier ∈ passed,
                checkRoute (merged layers).providerNames earlier =
                  .ok ()) ∧
              checkRoute (merged layers).providerNames entry =
                .error error ∧
              ∃ named ∈ layers, ∃ index text,
                named.2.routes[index]? = some entry.1 ∧
                  error = .config
                    (Origin.display (named.1, index) ++ text) := by
  rw [fromLayers_eq]
  constructor
  · intro config accepted
    cases providers :
        checkProviders libraries (merged layers).providers with
    | error error => simp [providers, Except.bind] at accepted
    | ok result =>
        cases routes : checkEach (checkRoute (merged layers).providerNames)
            (mergedEntries layers) with
        | error error =>
            simp [providers, routes, Except.bind, Except.map] at accepted
        | ok result =>
            simp only [providers, routes, Except.bind, Except.map,
              Except.ok.injEq] at accepted
            subst accepted
            exact ⟨rfl, map_fst_mergedEntries layers,
              checkEach_eq_ok.1 routes⟩
  · intro error providers refused
    rw [providers] at refused
    cases routes : checkEach (checkRoute (merged layers).providerNames)
        (mergedEntries layers) with
    | ok result => simp [routes, Except.bind, Except.map] at refused
    | error other =>
        simp only [routes, Except.bind, Except.map, Except.error.injEq]
          at refused
        subst refused
        obtain ⟨passed, entry, rest, spelled, before, here⟩ :=
          checkEach_eq_error routes
        obtain ⟨text, message⟩ := display_of_checkRoute here
        have listedEntry : entry ∈ mergedEntries layers := by
          simp [spelled]
        obtain ⟨named, inside, index, place, listed⟩ :=
          mem_mergedEntries listedEntry
        exact ⟨passed, entry, rest, spelled, before, here, named, inside,
          index, text, listed, by rw [message, place]⟩

/-- A default file and a team file that routes to a provider nobody
configures. -/
def teamLayers : NamedLayers :=
  [(some "base.yaml", { routes := [{ providers := ["console"] }] }),
    (some "team.yaml",
      { providers := { teams := some { webhookUrl := "u" } }
        routes := [{ providers := ["teams"] },
          { providers := ["pagerduty"] }] })]

def plainLibraries : Libraries where
  mailbox _ := .ok ()
  quote text := text
  undeclared _ := .ok []
  isGlobal _ := false
  cloudSupported _ := false

theorem fromLayers_merges_team :
    ((mergedEntries (teamLayers.take 1)).map Prod.fst =
          [{ providers := ["console"] }] ∧
        ∀ entry ∈ mergedEntries (teamLayers.take 1),
          checkRoute ["console"] entry = .ok ()) ∧
      ∃ error,
        Config.fromLayers plainLibraries teamLayers = .error error ∧
          ∃ named ∈ teamLayers, ∃ index text,
            error = .config
              (Origin.display (named.1, index) ++ text) := by
  constructor
  · exact ((fromLayers_merges plainLibraries (teamLayers.take 1)).1
      (merged (teamLayers.take 1)) rfl).2
  · refine ⟨_, rfl, ?_⟩
    obtain ⟨_, _, _, _, _, _, named, inside, index, text, _, message⟩ :=
      (fromLayers_merges plainLibraries teamLayers).2 _ rfl rfl
    exact ⟨named, inside, index, text, message⟩

end OpsSignal
