import OpsSignal.Secrets

/-!
# Which secret is read

A reference is printed without its field, and parsed again wherever it is
read.  Where its path holds no `#` this gives its own path back, so every
resolved value comes from the address the placeholder names.
-/

namespace OpsSignal

/-! ## Printed references -/

theorem rsplitOnce_eq_none
    {separator : Char} {text : List Char} (fresh : separator ∉ text) :
    rsplitOnce separator text = none := by
  have absent : ∀ text : List Char, separator ∉ text →
      splitOnce separator text = none := by
    intro text
    induction text with
    | nil => exact fun _ => rfl
    | cons c text inductionHypothesis =>
        intro fresh
        simp only [List.mem_cons, not_or] at fresh
        simp [splitOnce, Ne.symm fresh.1, inductionHypothesis fresh.2]
  simp [rsplitOnce, absent text.reverse (by simpa using fresh)]

namespace SecretRef

/-- A reference without a field whose path holds no `#` parses to
itself. -/
theorem parse_urlOf
    (scheme : Store) {path : List Char} (clear : '#' ∉ path) :
    parse (urlOf scheme path) = checkPath scheme path none := by
  have colon : ':' ∉ scheme.scheme := by
    cases scheme with
    | awsSm => decide
    | gcpSm => decide
    | azureKv => decide
  have found :
      (Store.all.find? fun store => store.scheme = scheme.scheme) =
        some scheme := by
    cases scheme with
    | awsSm => rfl
    | gcpSm => rfl
    | azureKv => rfl
  simp only [parse, urlOf, splitOnce_append colon, found,
    rsplitOnce_eq_none clear]

/-- The reference of the whole secret. -/
def whole (reference : SecretRef) : SecretRef :=
  { reference with field := none }

theorem parse_url
    {reference : SecretRef} (clear : '#' ∉ reference.path) :
    parse reference.url = .ok reference.whole := by
  rw [url, parse_urlOf reference.scheme clear, checkPath,
    dif_pos reference.checked]
  rfl

@[simp]
theorem address_whole (reference : SecretRef) :
    reference.whole.address = reference.address :=
  rfl

end SecretRef

/-! ## Addresses -/

theorem azureName_injective
    {left right : List Char} (present : (azureName left).isSome)
    (same : azureName left = azureName right) : left = right := by
  have pieces : ∀ path name, azureName path = some name →
      splitOn '/' path =
        if name.2.2 = [] then [name.1, name.2.1]
        else [name.1, name.2.1, name.2.2] := by
    rintro path ⟨vault, name, version⟩ found
    simp only [azureName, Option.filter_eq_some_iff] at found
    obtain ⟨found, _⟩ := found
    split at found
    · next spelled =>
        cases found
        simp [spelled]
    · next spelled =>
        split at found
        · next named =>
            cases found
            simp [spelled, named]
        · cases found
    · cases found
  obtain ⟨name, found⟩ := Option.isSome_iff_exists.1 present
  rw [← intercalate_splitOn '/' left, pieces left name found,
    ← pieces right name (same ▸ found), intercalate_splitOn]

/-- Two addresses are the same exactly for paths of one store that are
equal or, in the store with two forms of path, name the same version of
one secret. -/
theorem addressOf_eq_iff
    {leftStore rightStore : Store} {left right : List Char}
    (present : (addressOf leftStore left).isSome) :
    addressOf leftStore left = addressOf rightStore right ↔
      leftStore = rightStore ∧
        (left = right ∨
          leftStore = .gcpSm ∧ gcpName left = gcpName right) := by
  constructor
  · intro same
    cases leftStore with
    | awsSm =>
        cases rightStore with
        | awsSm =>
            simp only [addressOf] at same present
            split at same
            · next empty => simp [empty] at present
            · split at same
              · cases same
              · cases same
                exact ⟨rfl, .inl rfl⟩
        | gcpSm =>
            simp only [addressOf] at same present
            split at same
            · next empty => simp [empty] at present
            · cases named : gcpName right with
              | none => simp [named] at same
              | some name => simp [named] at same
        | azureKv =>
            simp only [addressOf] at same present
            split at same
            · next empty => simp [empty] at present
            · cases named : azureName right with
              | none => simp [named] at same
              | some name => simp [named] at same
    | gcpSm =>
        simp only [addressOf, Option.isSome_map] at present
        obtain ⟨name, named⟩ := Option.isSome_iff_exists.1 present
        cases rightStore with
        | awsSm =>
            simp only [addressOf, named, Option.map_some] at same
            split at same
            · cases same
            · cases same
        | gcpSm =>
            cases other : gcpName right with
            | none => simp [addressOf, named, other] at same
            | some name' =>
                simp only [addressOf, named, other, Option.map_some,
                  Option.some.injEq, Address.gcp.injEq] at same
                refine ⟨rfl, .inr ⟨rfl, ?_⟩⟩
                rw [named, Option.some.injEq]
                exact Prod.ext same.1 (Prod.ext same.2.1 same.2.2)
        | azureKv =>
            cases other : azureName right with
            | none => simp [addressOf, named, other] at same
            | some name' => simp [addressOf, named, other] at same
    | azureKv =>
        simp only [addressOf, Option.isSome_map] at present
        obtain ⟨name, named⟩ := Option.isSome_iff_exists.1 present
        cases rightStore with
        | awsSm =>
            simp only [addressOf, named, Option.map_some] at same
            split at same
            · cases same
            · cases same
        | gcpSm =>
            cases other : gcpName right with
            | none => simp [addressOf, named, other] at same
            | some name' => simp [addressOf, named, other] at same
        | azureKv =>
            cases other : azureName right with
            | none => simp [addressOf, named, other] at same
            | some name' =>
                simp only [addressOf, named, other, Option.map_some,
                  Option.some.injEq, Address.azure.injEq] at same
                have sameName : azureName left = azureName right := by
                  rw [named, other, Option.some.injEq]
                  exact Prod.ext same.1 (Prod.ext same.2.1 same.2.2)
                exact ⟨rfl, .inl
                  (azureName_injective (by rw [named]; rfl) sameName)⟩
  · rintro ⟨rfl, rfl | ⟨rfl, same⟩⟩
    · rfl
    · simp [addressOf, same]

/-! ## Reads -/

section

variable {installation : Installation}

/-- A supported reference is read at its own address. -/
theorem read_url_eq_ok_iff
    {reference : SecretRef} (clear : '#' ∉ reference.path)
    (supported : installation.checkSupported reference = .ok ())
    (stored : Address → Except SignalError SecretText)
    (secret : SecretText) :
    installation.read stored reference.url = .ok secret ↔
      stored reference.address = .ok secret := by
  simp only [Installation.read, SecretRef.parse_url clear, Except.bind]
  simp only [Installation.checkSupported] at supported
  by_cases native : installation.native reference.scheme
  · simp [SecretRef.whole, native, SecretRef.address]
  · by_cases addOn : installation.addOn reference.scheme
    · have again : reference.whole.url = reference.url := rfl
      simp only [SecretRef.whole, native, addOn, if_true, Bool.false_eq_true,
        if_false, Installation.fetchBlocking]
      change Except.mapError _ (Except.mapError _
        ((SecretRef.parse reference.whole.url).bind _)) = _ ↔ _
      rw [again, SecretRef.parse_url clear]
      cases answer : stored reference.address with
      | error error =>
          simp [Except.bind, Except.mapError, answer]
      | ok value => simp [Except.bind, Except.mapError, answer]
    · simp [native, addOn, configError] at supported

/-- Two references read the same, whatever the stores hold, exactly if
their addresses are the same. -/
theorem reads_same_iff
    {left right : SecretRef}
    (leftClear : '#' ∉ left.path) (rightClear : '#' ∉ right.path)
    (leftSupported : installation.checkSupported left = .ok ())
    (rightSupported : installation.checkSupported right = .ok ()) :
    (∀ (stored : Address → Except SignalError SecretText) secret,
        installation.read stored left.url = .ok secret ↔
          installation.read stored right.url = .ok secret) ↔
      left.address = right.address := by
  simp only [read_url_eq_ok_iff leftClear leftSupported,
    read_url_eq_ok_iff rightClear rightSupported]
  constructor
  · intro same
    by_contra different
    have read := (same
      (fun address =>
        if address = left.address then .ok [] else .error (configErr ""))
      []).1 (by simp)
    simp [Ne.symm different] at read
  · intro same stored secret
    rw [same]

end

/-! ## The cache -/

section

variable {installation : Installation} {stored : StoreHistory} {ttl : Nat}

/-- Everything in the cache was read at its own address. -/
def SecretCache.Sound
    (installation : Installation) (stored : StoreHistory)
    (cache : SecretCache) : Prop :=
  ∀ url time value, cache url = some (time, value) →
    installation.read (stored time) url = .ok value

/-- A value read, at `time`, at the address it is for. -/
structure ReadWithin
    (installation : Installation) (stored : StoreHistory) (ttl : Nat)
    (clock : Nat → Nat) (url value : List Char) : Prop where
  read : ∃ time turn, (time = clock turn ∨ clock turn - time < ttl) ∧
    installation.read (stored time) url = .ok value

theorem sound_cachedRead
    {cache : SecretCache} (sound : cache.Sound installation stored)
    (now : Nat) (url : List Char) :
    (cachedRead installation stored ttl now url cache).2.Sound
      installation stored := by
  simp only [cachedRead]
  split
  · exact sound
  · split
    · exact sound
    · next value answer =>
        split
        · exact sound
        · intro other time held found
          by_cases same : other = url
          · subst same
            simp only [Function.update_self, Option.some.injEq,
              Prod.mk.injEq] at found
            obtain ⟨rfl, rfl⟩ := found
            exact answer
          · simp only [Function.update_of_ne same] at found
            exact sound other time held found

theorem read_of_cachedRead
    {cache : SecretCache} (sound : cache.Sound installation stored)
    {now : Nat} {url value : List Char}
    (answer : (cachedRead installation stored ttl now url cache).1 =
      .ok value) :
    ∃ time, (time = now ∨ now - time < ttl) ∧
      installation.read (stored time) url = .ok value := by
  simp only [cachedRead] at answer
  split at answer
  · next time held found =>
      simp only [Except.ok.injEq] at answer
      subst answer
      rw [Option.filter_eq_some_iff] at found
      exact ⟨time, .inr (by simpa using found.2), sound url time held found.1⟩
  · split at answer
    · cases answer
    · next held found =>
        simp only [Except.ok.injEq] at answer
        subst answer
        exact ⟨now, .inl rfl, found⟩

/-! ## Resolving -/

variable {parseJson : JsonParser} {clock : Nat → Nat}

/-- What holds of a resolution under way: the cache and the texts read so
far are those of their addresses, and each value is that of its name. -/
structure Resolving.Faithful
    (installation : Installation) (stored : StoreHistory) (ttl : Nat)
    (parseJson : JsonParser) (clock : Nat → Nat)
    (resolving : Resolving) : Prop where
  cache : resolving.cache.Sound installation stored
  raw : ∀ url value, resolving.raw.lookup url = some value →
    ReadWithin installation stored ttl clock url value
  values : ∀ name value, resolving.values.lookup name = some value →
    ∃ reference secret, SecretRef.parse name.toList = .ok reference ∧
      ReadWithin installation stored ttl clock reference.url secret ∧
      fieldOf parseJson reference secret = .ok value.toList

theorem faithful_readRaw
    {resolving : Resolving}
    (faithful : resolving.Faithful installation stored ttl parseJson clock)
    (turn : Nat) (reference : SecretRef) :
    ((readRaw installation stored ttl (clock turn) reference
        resolving).2.Faithful installation stored ttl parseJson clock ∧
      (readRaw installation stored ttl (clock turn) reference
        resolving).2.values = resolving.values) ∧
      ∀ secret, (readRaw installation stored ttl (clock turn) reference
          resolving).1 = .ok secret →
        ReadWithin installation stored ttl clock reference.url secret := by
  simp only [readRaw]
  split
  · next value found =>
      refine ⟨⟨faithful, rfl⟩, fun secret same => ?_⟩
      cases same
      exact faithful.raw _ _ found
  · have kept := @sound_cachedRead installation stored ttl _ faithful.cache
      (clock turn) reference.url
    cases answer : (cachedRead installation stored ttl (clock turn)
        reference.url resolving.cache).1 with
    | error error =>
        dsimp only
        exact ⟨⟨⟨kept, faithful.raw, faithful.values⟩, rfl⟩, by simp⟩
    | ok value =>
        have within : ReadWithin installation stored ttl clock
            reference.url value := by
          obtain ⟨time, recent, read⟩ :=
            read_of_cachedRead faithful.cache answer
          exact ⟨time, turn, recent, read⟩
        dsimp only
        refine ⟨⟨⟨kept, ?_, faithful.values⟩, rfl⟩, ?_⟩
        · intro url text found
          rw [List.lookup_cons] at found
          split at found
          · next same =>
              cases found
              rw [beq_iff_eq.1 same]
              exact within
          · exact faithful.raw url text found
        · intro secret same
          cases same
          exact within

theorem lookup_insertValue
    (name other value : String) (values : Values) :
    (insertValue name value values).lookup other =
      if other = name then some value else values.lookup other := by
  have kept : ∀ values : Values,
      (values.filter fun entry => entry.1 ≠ name).lookup other =
        if other = name then none else values.lookup other := by
    intro values
    induction values with
    | nil => simp
    | cons entry values inductionHypothesis =>
        by_cases same : entry.1 = name
        · rw [List.filter_cons_of_neg (by simpa using same),
            inductionHypothesis, List.lookup_cons]
          by_cases isName : other = name
          · simp [isName]
          · have apart : (other == entry.1) = false := by
              simpa [same] using isName
            simp [isName, apart]
        · rw [List.filter_cons_of_pos (by simpa using same),
            List.lookup_cons, List.lookup_cons, inductionHypothesis]
          by_cases isName : other = name
          · subst isName
            have apart : (other == entry.1) = false := by
              simpa using Ne.symm same
            simp [apart]
          · simp [isName]
  rw [insertValue, List.lookup_append, kept]
  by_cases same : other = name
  · simp [same]
  · have apart : (other == name) = false := by simpa using same
    simp [same, List.lookup_cons, apart]

theorem faithful_resolveOne
    {resolving : Resolving}
    (faithful : resolving.Faithful installation stored ttl parseJson clock)
    (turn : Nat) {entry : String × SecretRef}
    (parsed : SecretRef.parse entry.1.toList = .ok entry.2) :
    (resolveOne installation stored ttl parseJson (clock turn) entry
        resolving).2.Faithful installation stored ttl parseJson clock ∧
      ((resolveOne installation stored ttl parseJson (clock turn) entry
          resolving).1 = .ok () →
        ∀ name,
          (resolveOne installation stored ttl parseJson (clock turn) entry
            resolving).2.values.lookup name ≠ none ↔
          name = entry.1 ∨ resolving.values.lookup name ≠ none) := by
  obtain ⟨⟨kept, sameValues⟩, within⟩ :=
    faithful_readRaw faithful turn entry.2
  simp only [resolveOne]
  split
  · next error next answer =>
      rw [answer] at kept
      exact ⟨kept, by simp⟩
  · next secret next answer =>
      rw [answer] at kept sameValues within
      split
      · exact ⟨kept, by simp⟩
      · next value read =>
          refine ⟨⟨kept.cache, kept.raw, ?_⟩, ?_⟩
          · intro name text found
            rw [lookup_insertValue] at found
            split at found
            · next same =>
                cases found
                refine ⟨entry.2, secret, by rw [same, parsed],
                  within secret rfl, ?_⟩
                rw [read, String.toList_ofList]
            · exact kept.values name text found
          · intro _ name
            dsimp only at sameValues
            rw [lookup_insertValue, sameValues]
            by_cases same : name = entry.1
            · simp [same]
            · simp [same]

theorem faithful_resolveLoop
    {turns : List (Nat × String × SecretRef)}
    (timed : ∀ turn ∈ turns, (∃ index, turn.1 = clock index) ∧
      SecretRef.parse turn.2.1.toList = .ok turn.2.2)
    {resolving : Resolving}
    (faithful :
      resolving.Faithful installation stored ttl parseJson clock) :
    (resolveLoop installation stored ttl parseJson turns
        resolving).2.Faithful installation stored ttl parseJson clock ∧
      ((resolveLoop installation stored ttl parseJson turns
          resolving).1 = .ok () →
        ∀ name,
          (resolveLoop installation stored ttl parseJson turns
            resolving).2.values.lookup name ≠ none ↔
          (∃ turn ∈ turns, turn.2.1 = name) ∨
            resolving.values.lookup name ≠ none) := by
  induction turns generalizing resolving with
  | nil => exact ⟨faithful, by simp [resolveLoop]⟩
  | cons turn turns inductionHypothesis =>
      obtain ⟨now, entry⟩ := turn
      obtain ⟨⟨index, rfl⟩, parsed⟩ := timed _ (List.mem_cons_self ..)
      obtain ⟨kept, listed⟩ :=
        faithful_resolveOne faithful index parsed
      have later := fun turn member =>
        timed turn (List.mem_cons_of_mem _ member)
      simp only [resolveLoop]
      split
      · next error next answer =>
          rw [answer] at kept
          exact ⟨kept, by simp⟩
      · next next answer =>
          rw [answer] at kept listed
          obtain ⟨whole, all⟩ := inductionHypothesis later kept
          refine ⟨whole, fun done name => ?_⟩
          rw [all done name, listed rfl name]
          simp only [List.exists_mem_cons_iff]
          constructor
          · rintro (later | here | before)
            · exact .inl (.inr later)
            · exact .inl (.inl here.symm)
            · exact .inr before
          · rintro ((here | later) | before)
            · exact .inr (.inl here.symm)
            · exact .inl later
            · exact .inr (.inr before)

theorem parse_of_parseRefs
    {names : List String} {refs : List (String × SecretRef)}
    (parsed : parseRefs installation names = .ok refs) :
    refs.map Prod.fst = names ∧
      ∀ entry ∈ refs, SecretRef.parse entry.1.toList = .ok entry.2 ∧
        installation.checkSupported entry.2 = .ok () := by
  induction names generalizing refs with
  | nil =>
      cases parsed
      simp
  | cons name names inductionHypothesis =>
      simp only [parseRefs, List.mapM_cons] at parsed
      cases read : SecretRef.parse name.toList with
      | error error =>
          simp only [read] at parsed
          cases parsed
      | ok reference =>
          cases supported : installation.checkSupported reference with
          | error error =>
              simp only [read, supported] at parsed
              cases parsed
          | ok result =>
              cases rest : parseRefs installation names with
              | error error =>
                  simp only [parseRefs] at rest
                  simp only [read, supported, rest] at parsed
                  cases parsed
              | ok more =>
                  obtain ⟨listed, all⟩ := inductionHypothesis rest
                  simp only [parseRefs] at rest
                  simp only [read, supported, rest] at parsed
                  cases parsed
                  refine ⟨by simp [listed], ?_⟩
                  intro entry member
                  rcases List.mem_cons.1 member with rfl | member
                  · exact ⟨read, supported⟩
                  · exact all entry member

theorem nodup_insertValue
    {values : Values} (distinct : (values.map Prod.fst).Nodup)
    (name value : String) :
    ((insertValue name value values).map Prod.fst).Nodup := by
  rw [insertValue, List.map_append, List.nodup_append]
  refine ⟨(List.filter_sublist.map Prod.fst).nodup distinct, by simp, ?_⟩
  intro left isLeft right isRight same
  obtain ⟨entry, inside, rfl⟩ := List.mem_map.1 isLeft
  have apart := (List.mem_filter.1 inside).2
  simp only [List.map_cons, List.map_nil, List.mem_singleton] at isRight
  simp [same, isRight] at apart

theorem values_readRaw
    (now : Nat) (reference : SecretRef) (resolving : Resolving) :
    (readRaw installation stored ttl now reference resolving).2.values =
      resolving.values := by
  simp only [readRaw]
  split
  · rfl
  · cases (cachedRead installation stored ttl now reference.url
      resolving.cache).1 with
    | error error => rfl
    | ok value => rfl

theorem nodup_resolveLoop
    (turns : List (Nat × String × SecretRef)) {resolving : Resolving}
    (distinct : (resolving.values.map Prod.fst).Nodup) :
    ((resolveLoop installation stored ttl parseJson turns
      resolving).2.values.map Prod.fst).Nodup := by
  induction turns generalizing resolving with
  | nil => exact distinct
  | cons turn turns inductionHypothesis =>
      have one : ((resolveOne installation stored ttl parseJson turn.1 turn.2
          resolving).2.values.map Prod.fst).Nodup := by
        have kept := @values_readRaw installation stored ttl turn.1 turn.2.2
          resolving
        simp only [resolveOne]
        split
        · next error next answer =>
            rw [answer] at kept
            dsimp only at kept
            simpa only [kept] using distinct
        · next secret next answer =>
            rw [answer] at kept
            dsimp only at kept
            split
            · simpa only [kept] using distinct
            · rw [kept]
              exact nodup_insertValue distinct _ _
      simp only [resolveLoop]
      split
      · next error next answer =>
          rw [answer] at one
          exact one
      · next next answer =>
          rw [answer] at one
          exact inductionHypothesis one

/-- The turns of a resolution: every reference, at some moment. -/
structure Timed (clock : Nat → Nat) (refs : List (String × SecretRef))
    (turns : List (Nat × String × SecretRef)) : Prop where
  moment : ∀ turn ∈ turns, ∃ index, turn.1 = clock index
  listed : ∀ turn ∈ turns, turn.2 ∈ refs
  every : ∀ entry ∈ refs, ∃ index, (clock index, entry) ∈ turns

theorem timed_zipIdx (clock : Nat → Nat)
    (refs : List (String × SecretRef)) :
    Timed clock refs (refs.zipIdx.map fun pair =>
      (clock pair.2, pair.1)) where
  moment turn member := by
    obtain ⟨pair, _, rfl⟩ := List.mem_map.1 member
    exact ⟨pair.2, rfl⟩
  listed turn member := by
    obtain ⟨pair, inside, rfl⟩ := List.mem_map.1 member
    exact List.fst_mem_of_mem_zipIdx inside
  every entry member := by
    obtain ⟨index, here⟩ := List.mem_iff_getElem?.1 member
    exact ⟨index, List.mem_map.2
      ⟨(entry, index), List.mem_zipIdx_iff_getElem?.2 here, rfl⟩⟩

/-- All turns of a resolution keep the cache sound, and give every name
the value at its own address, and no other name a value. -/
theorem faithful_turns
    {names : List String} {refs : List (String × SecretRef)}
    {turns : List (Nat × String × SecretRef)} {cache : SecretCache}
    {answer : Except ResolveError Unit} {next : Resolving}
    (parsed : parseRefs installation names = .ok refs)
    (timed : Timed clock refs turns)
    (sound : cache.Sound installation stored)
    (resolved : resolveLoop installation stored ttl parseJson turns
      { cache := cache } = (answer, next)) :
    next.cache.Sound installation stored ∧
      (answer = .ok () →
        ((next.values.map Prod.fst).Nodup ∧
          ∀ name, next.values.lookup name ≠ none → name ∈ names) ∧
        ∀ name ∈ names, ∃ reference secret value,
          SecretRef.parse name.toList = .ok reference ∧
            installation.checkSupported reference = .ok () ∧
            next.values.lookup name = some value ∧
            ReadWithin installation stored ttl clock reference.url secret ∧
            fieldOf parseJson reference secret = .ok value.toList) := by
  obtain ⟨listed, all⟩ := parse_of_parseRefs parsed
  have reads : ∀ turn ∈ turns, (∃ index, turn.1 = clock index) ∧
      SecretRef.parse turn.2.1.toList = .ok turn.2.2 :=
    fun turn member => ⟨timed.moment turn member,
      (all turn.2 (timed.listed turn member)).1⟩
  have start : ({ cache := cache } : Resolving).Faithful installation
      stored ttl parseJson clock :=
    ⟨sound, by simp, by simp⟩
  obtain ⟨faithful, complete⟩ := faithful_resolveLoop reads start
  have distinct := @nodup_resolveLoop installation stored ttl parseJson
    turns { cache := cache } .nil
  rw [resolved] at faithful complete distinct
  refine ⟨faithful.cache, ?_⟩
  rintro rfl
  refine ⟨⟨distinct, fun name present => ?_⟩, ?_⟩
  · rcases (complete rfl name).1 present with ⟨turn, member, rfl⟩ | absent
    · rw [← listed]
      exact List.mem_map_of_mem (timed.listed turn member)
    · exact absurd rfl absent
  · intro name member
    rw [← listed] at member
    obtain ⟨entry, inside, rfl⟩ := List.mem_map.1 member
    obtain ⟨index, here⟩ := timed.every entry inside
    have present := (complete rfl entry.1).2
      (.inl ⟨(clock index, entry), here, rfl⟩)
    obtain ⟨value, found⟩ := Option.ne_none_iff_exists'.1 present
    obtain ⟨reference, secret, isReference, within, read⟩ :=
      faithful.values _ _ found
    obtain ⟨own, supported⟩ := all entry inside
    rw [own, Except.ok.injEq] at isReference
    subst isReference
    exact ⟨entry.2, secret, value, own, supported, found, within, read⟩

/-- One resolution keeps the cache sound, and gives every name the value
at its own address, and no other name a value. -/
theorem faithful_resolve
    {names : List String} {cache : SecretCache}
    (sound : cache.Sound installation stored) :
    (resolve installation stored ttl parseJson names clock
        cache).2.Sound installation stored ∧
      ∀ values,
        (resolve installation stored ttl parseJson names clock cache).1 =
          .ok values →
        ((values.map Prod.fst).Nodup ∧
          ∀ name, values.lookup name ≠ none → name ∈ names) ∧
        ∀ name ∈ names, ∃ reference secret value,
          SecretRef.parse name.toList = .ok reference ∧
            installation.checkSupported reference = .ok () ∧
            values.lookup name = some value ∧
            ReadWithin installation stored ttl clock reference.url secret ∧
            fieldOf parseJson reference secret = .ok value.toList := by
  simp only [resolve]
  cases parsed : parseRefs installation names with
  | error error => exact ⟨sound, by simp⟩
  | ok refs =>
      have timed := timed_zipIdx clock refs
      dsimp only
      split
      · next error next resolved =>
          exact ⟨(faithful_turns parsed timed sound resolved).1, by simp⟩
      · next next resolved =>
          obtain ⟨kept, told⟩ := faithful_turns parsed timed sound resolved
          refine ⟨kept, ?_⟩
          intro values same
          cases same
          exact told rfl

/-- The cache of a process, after some resolutions. -/
def cacheAfter
    (installation : Installation) (stored : StoreHistory) (ttl : Nat)
    (parseJson : JsonParser) (calls : List (List String × (Nat → Nat))) :
    SecretCache :=
  calls.foldl (fun cache call =>
    (resolve installation stored ttl parseJson call.1 call.2 cache).2)
    fun _ => none

theorem sound_cacheAfter (calls : List (List String × (Nat → Nat))) :
    (cacheAfter installation stored ttl parseJson calls).Sound installation
      stored := by
  induction calls using List.reverseRecOn with
  | nil => exact fun _ _ _ found => by simp [cacheAfter] at found
  | append_singleton calls call inductionHypothesis =>
      rw [cacheAfter, List.foldl_concat]
      exact (faithful_resolve inductionHypothesis).1

end

/-! ## The secret that was named -/

/-- What is read for a reference without a `#` in its path is the secret
at its own path: the printed reference parses back, references are read
alike exactly if they name one address, and in every process every
placeholder is resolved to (a field of) what its own address holds. -/
theorem secrets_read_as_named
    (installation : Installation) (stored : StoreHistory) (ttl : Nat)
    (parseJson : JsonParser) :
    (∀ text reference, SecretRef.parse text = .ok reference →
      '#' ∉ reference.path →
        SecretRef.parse reference.url = .ok reference.whole) ∧
      (∀ left right : SecretRef, '#' ∉ left.path → '#' ∉ right.path →
        installation.checkSupported left = .ok () →
        installation.checkSupported right = .ok () →
          ((∀ (held : Address → Except SignalError SecretText) secret,
              installation.read held left.url = .ok secret ↔
                installation.read held right.url = .ok secret) ↔
            left.scheme = right.scheme ∧
              (left.path = right.path ∨
                left.scheme = .gcpSm ∧
                  gcpName left.path = gcpName right.path))) ∧
      ∀ (calls : List (List String × (Nat → Nat))) names clock values,
        (resolve installation stored ttl parseJson names clock
          (cacheAfter installation stored ttl parseJson calls)).1 =
            .ok values →
        ∀ name ∈ names, ∃ reference,
          SecretRef.parse name.toList = .ok reference ∧
            ('#' ∉ reference.path → ∃ time turn secret value,
              (time = clock turn ∨ clock turn - time < ttl) ∧
                stored time reference.address = .ok secret ∧
                values.lookup name = some value ∧
                fieldOf parseJson reference secret = .ok value.toList) := by
  refine ⟨fun text reference _ clear => SecretRef.parse_url clear, ?_, ?_⟩
  · intro left right leftClear rightClear leftSupported rightSupported
    rw [reads_same_iff leftClear rightClear leftSupported rightSupported,
      SecretRef.address, SecretRef.address, ← Option.some_inj,
      Option.some_get, Option.some_get]
    exact addressOf_eq_iff left.checked
  · intro calls names clock values resolved name member
    obtain ⟨reference, secret, value, parsed, supported, found, within,
      read⟩ := ((faithful_resolve (sound_cacheAfter calls)).2 values resolved).2
        name member
    obtain ⟨time, turn, recent, answer⟩ := within.read
    exact ⟨reference, parsed, fun clear => ⟨time, turn, secret, value,
      recent, (read_url_eq_ok_iff clear supported _ _).1 answer, found,
      read⟩⟩

/-- The path `a#b` of `aws-sm:a#b#c` is read as the field `b` of `a`, and
two paths of one store name one secret. -/
theorem secrets_read_elsewhere :
    (∃ reference other : SecretRef,
      SecretRef.parse "aws-sm:a#b#c".toList = .ok reference ∧
        reference.path = "a#b".toList ∧
        SecretRef.parse reference.url = .ok other ∧
        other.path = "a".toList ∧ other.field = some "b".toList) ∧
      ∃ short long : SecretRef,
        SecretRef.parse "gcp-sm:p/s".toList = .ok short ∧
          SecretRef.parse "gcp-sm:projects/p/secrets/s".toList = .ok long ∧
          short.path ≠ long.path ∧ short.address = long.address := by
  refine ⟨⟨⟨.awsSm, "a#b".toList, some "c".toList, by decide⟩,
      ⟨.awsSm, "a".toList, some "b".toList, by decide⟩,
      by decide +kernel, rfl, by decide +kernel, rfl, rfl⟩,
    ⟨.gcpSm, "p/s".toList, none, by decide +kernel⟩,
    ⟨.gcpSm, "projects/p/secrets/s".toList, none, by decide +kernel⟩,
    by decide +kernel, by decide +kernel, by decide +kernel,
    by decide +kernel⟩

/-- A build that reads every store itself. -/
def fullBuild : Installation where
  native _ := true
  addOn _ := false

/-- One secret, rotated at time 400. -/
def rotatedAt400 : StoreHistory := fun time address =>
  if address = .aws "prod/x".toList then
    .ok (if time < 400 then "old".toList else "new".toList)
  else
    .error (configErr "no such secret")

theorem secrets_read_as_named_rotated :
    (∃ reference,
      SecretRef.parse "aws-sm:prod/x".toList = .ok reference ∧
        SecretRef.parse reference.url = .ok reference.whole) ∧
      (∀ values,
        (resolve fullBuild rotatedAt400 300 (fun _ => none)
          ["aws-sm:prod/x"] (fun _ => 450)
          (cacheAfter fullBuild rotatedAt400 300 (fun _ => none)
            [(["aws-sm:prod/x"], fun _ => 200)])).1 = .ok values →
        values.lookup "aws-sm:prod/x" = some "old" ∨
          values.lookup "aws-sm:prod/x" = some "new") ∧
      ∃ values,
        (resolve fullBuild rotatedAt400 300 (fun _ => none)
          ["aws-sm:prod/x"] (fun _ => 450)
          (cacheAfter fullBuild rotatedAt400 300 (fun _ => none)
            [(["aws-sm:prod/x"], fun _ => 200)])).1 = .ok values := by
  have parsed : SecretRef.parse "aws-sm:prod/x".toList =
      .ok ⟨.awsSm, "prod/x".toList, none, by decide +kernel⟩ := by
    decide +kernel
  have clear : '#' ∉ "prod/x".toList := by decide
  refine ⟨⟨_, parsed, (secrets_read_as_named fullBuild rotatedAt400 300
    fun _ => none).1 _ _ parsed clear⟩, ?_, ?_⟩
  · intro values resolved
    obtain ⟨reference, isReference, read⟩ :=
      (secrets_read_as_named fullBuild rotatedAt400 300 fun _ => none).2.2 _
        _ _ _ resolved "aws-sm:prod/x" (by simp)
    rw [parsed, Except.ok.injEq] at isReference
    subst isReference
    obtain ⟨time, _, secret, value, _, held, found, whole⟩ := read clear
    have isAddress : rotatedAt400 time (.aws "prod/x".toList) =
        .ok secret := held
    simp only [rotatedAt400, if_true, Except.ok.injEq] at isAddress
    simp only [fieldOf, Except.ok.injEq] at whole
    rw [found]
    rw [← isAddress] at whole
    split at whole
    · exact .inl (congrArg some (String.toList_inj.1 whole.symm))
    · exact .inr (congrArg some (String.toList_inj.1 whole.symm))
  · exact ⟨[("aws-sm:prod/x", "old")], by decide +kernel⟩

end OpsSignal
