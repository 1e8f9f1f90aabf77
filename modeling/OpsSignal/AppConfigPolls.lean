import OpsSignal.CosmosReads
import OpsSignal.Lib.LabelledRuns

/-!
# Polling sessions of AppConfig

`fetch_appconfig` keeps the token of a profile's polling session and the
configuration that was last received.  It polls with the token it finds,
and a new session is started where that poll fails.  Calls run at the same
time and do not hold the lock while they poll.
-/

namespace OpsSignal

open Checks LabelledRuns

/-! ## One call -/

/-- The libraries of the cloud modules, and the parser of a session. -/
structure AppConfigLibrary extends CosmosLibrary where
  /-- The `InitialConfigurationToken` of a body. -/
  readSession : List UInt8 → Except String String

/-- A response: its status, the header with the next token if it can be
read, and its body. -/
structure AppConfigAnswer where
  status : Nat
  nextToken : Option String
  body : List UInt8

/-- `utf8`. -/
def utf8 (body : List UInt8) : Except SignalError String :=
  match String.fromUTF8? ⟨body.toArray⟩ with
  | some text => .ok text
  | none => configError "config is not valid UTF-8"

section

variable (library : AppConfigLibrary)

/-- A status that is no success is an error. -/
def checkStatus (answer : AppConfigAnswer) : Except SignalError Unit :=
  if 200 ≤ answer.status ∧ answer.status < 300 then .ok ()
  else .error (statusError library.toCosmosLibrary answer.status answer.body)

/-- `latest`, from what `call` returned. -/
def latest (called : Except SignalError AppConfigAnswer) :
    Except SignalError (String × List UInt8) := do
  let answer ← called
  checkStatus library answer
  match answer.nextToken with
  | some next => return (next, answer.body)
  | none => configError "AppConfig sent no Next-Poll-Configuration-Token"

/-- `start_session`, from what `call` returned. -/
def startSession (called : Except SignalError AppConfigAnswer) :
    Except SignalError String := do
  let answer ← called
  checkStatus library answer
  match library.readSession answer.body with
  | .ok token => return token
  | .error message =>
      configError ("unexpected AppConfig response: " ++ message)

/-- Where a call of `fetch_appconfig` stands. -/
inductive FetchStage where
  /-- It polls with the stored token; the text is the stored one. -/
  | polling (token text : String)
  | starting
  /-- It polls with the token of a new session. -/
  | first (token : String)
  | remembering (next text : String)
  | returned (result : Except SignalError String)

/-- The stage after the poll of a stored session. -/
def FetchStage.afterPoll
    (text : String) (called : Except SignalError AppConfigAnswer) :
    FetchStage :=
  match latest library called with
  | .error _ => .starting
  | .ok (next, body) =>
      match if body.isEmpty then .ok text else utf8 body with
      | .error error => .returned (.error error)
      | .ok text => .remembering next text

/-- The stage after a session was asked for. -/
def FetchStage.afterStart
    (called : Except SignalError AppConfigAnswer) : FetchStage :=
  match startSession library called with
  | .error error => .returned (.error error)
  | .ok token => .first token

/-- The stage after the first poll of a new session. -/
def FetchStage.afterFirst
    (called : Except SignalError AppConfigAnswer) : FetchStage :=
  match latest library called with
  | .error error => .returned (.error error)
  | .ok (next, body) =>
      if body.isEmpty then
        .returned (configError
          "AppConfig has no configuration deployed to this environment")
      else
        match utf8 body with
        | .error error => .returned (.error error)
        | .ok text => .remembering next text

/-! ## Calls and the service -/

/-- A call, and the configuration that was current when its last poll was
answered.  Nothing reads the latter. -/
structure Fetch where
  stage : FetchStage
  seen : Option (List UInt8) := none

/-- The service, the pair that is kept for the profile, and the calls. -/
structure AppConfig where
  /-- The configuration, once one is deployed. -/
  current : Option (List UInt8) := none
  /-- Every token with the configuration that was current when it was
  issued. -/
  issued : List (String × Option (List UInt8)) := []
  stored : Option (String × String) := none
  fetches : List Fetch := []

inductive AppConfigStep where
  | deploy (configuration : List UInt8)
  /-- A call begins: it makes the endpoint and reads the stored pair. -/
  | begin (endpoint : Except SignalError Unit)
  /-- The service answers the request a call waits for. -/
  | answer (index : Nat) (called : Except SignalError AppConfigAnswer)
  | remember (index : Nat)

/-- The call a step belongs to. -/
def AppConfigStep.fetch : AppConfigStep → Option Nat
  | .deploy _ => none
  | .begin _ => none
  | .answer index _ => some index
  | .remember index => some index

namespace AppConfig

/-- The stage a call begins in. -/
def beginStage (endpoint : Except SignalError Unit) (config : AppConfig) :
    FetchStage :=
  match endpoint, config.stored with
  | .error error, _ => .returned (.error error)
  | .ok (), some (token, text) => .polling token text
  | .ok (), none => .starting

/-- A token that is handed out now. -/
def issue (token : Option String) (config : AppConfig) : AppConfig :=
  { config with
    issued :=
      config.issued ++ token.toList.map fun token => (token, config.current) }

def put (index : Nat) (fetch : Fetch) (config : AppConfig) : AppConfig :=
  { config with fetches := config.fetches.set index fetch }

/-- The answer to a call. -/
def receive
    (index : Nat) (called : Except SignalError AppConfigAnswer)
    (fetch : Fetch) (config : AppConfig) : Option AppConfig :=
  let next := (latest library called).toOption.map Prod.fst
  match fetch.stage with
  | .polling _ text =>
      some ((config.issue next).put index
        ⟨.afterPoll library text called, config.current⟩)
  | .starting =>
      some ((config.issue (startSession library called).toOption).put index
        ⟨.afterStart library called, fetch.seen⟩)
  | .first _ =>
      some ((config.issue next).put index
        ⟨.afterFirst library called, config.current⟩)
  | .remembering _ _ => none
  | .returned _ => none

def step (config : AppConfig) : AppConfigStep → Option AppConfig
  | .deploy configuration =>
      some { config with current := some configuration }
  | .begin endpoint =>
      some { config with
        fetches := config.fetches ++ [⟨config.beginStage endpoint, none⟩] }
  | .answer index called =>
      config.fetches[index]?.bind fun fetch =>
        config.receive library index called fetch
  | .remember index =>
      config.fetches[index]?.bind fun fetch =>
        match fetch.stage with
        | .remembering next text =>
            some { config.put index ⟨.returned (.ok text), fetch.seen⟩ with
              stored := some (next, text) }
        | _ => none

/-- What the service promises of the answer to a poll: its token is a new
one, its body is empty only if the configuration is the one that was
current when the token of the poll was issued, and is the current
configuration else. -/
def Polled
    (token : String) (called : Except SignalError AppConfigAnswer)
    (config : AppConfig) : Prop :=
  ∀ next body, latest library called = .ok (next, body) →
    next ∉ config.issued.map Prod.fst ∧
      (body = [] → (token, config.current) ∈ config.issued) ∧
      (body ≠ [] → config.current = some body)

/-- What the service promises of any answer.  It may reject every token. -/
def Served (config : AppConfig) : AppConfigStep → Prop
  | .answer index called =>
      ∀ fetch, config.fetches[index]? = some fetch →
        (∀ token text, fetch.stage = .polling token text →
          config.Polled library token called) ∧
        (∀ token, fetch.stage = .first token →
          config.Polled library token called) ∧
        (fetch.stage = .starting →
          ∀ token, startSession library called = .ok token →
            token ∉ config.issued.map Prod.fst)
  | _ => True

end AppConfig

end

/-! ## What is kept -/

namespace AppConfig

/-- The text is the configuration that was current when the token was
issued. -/
def TextOf (token text : String) (config : AppConfig) : Prop :=
  ∃ body, (token, some body) ∈ config.issued ∧ utf8 body = .ok text

end AppConfig

/-- The text is the configuration that was current at the call's last
poll. -/
def Fetch.Saw (text : String) (fetch : Fetch) : Prop :=
  ∃ body, fetch.seen = some body ∧ utf8 body = .ok text

/-- What a call has and returns is what it was sent. -/
def Fetch.Sound (config : AppConfig) (fetch : Fetch) : Prop :=
  match fetch.stage with
  | .polling token text => config.TextOf token text
  | .remembering next text => config.TextOf next text ∧ fetch.Saw text
  | .returned (.ok text) => fetch.Saw text
  | _ => True

/-- Each token was issued once, and every pair of a token and a text, stored
or read, is a right one. -/
structure AppConfig.Sound (config : AppConfig) : Prop where
  fresh : (config.issued.map Prod.fst).Nodup
  stored : ∀ token text, config.stored = some (token, text) →
    config.TextOf token text
  fetches : ∀ fetch ∈ config.fetches, fetch.Sound config

section

variable {library : AppConfigLibrary} {config next : AppConfig}
  {label : AppConfigStep} {token text : String} {index : Nat}
  {called : Except SignalError AppConfigAnswer}

/-! ## One step -/

theorem sound_of_issued
    {before after : AppConfig} (kept : before.issued ⊆ after.issued)
    {fetch : Fetch} (sound : fetch.Sound before) : fetch.Sound after := by
  have texts : ∀ {token text}, before.TextOf token text →
      after.TextOf token text := by
    rintro token text ⟨body, issued, isText⟩
    exact ⟨body, kept issued, isText⟩
  obtain ⟨stage, seen⟩ := fetch
  cases stage with
  | polling token text => exact texts sound
  | remembering next text => exact ⟨texts sound.1, sound.2⟩
  | starting => trivial
  | first token => trivial
  | returned result =>
      cases result with
      | error error => trivial
      | ok text => exact sound

/-- A call moves, and perhaps a new token is handed out. -/
theorem sound_issue_put
    (sound : config.Sound) {given : Option String}
    (new : ∀ token ∈ given, token ∉ config.issued.map Prod.fst)
    {fetch : Fetch} (moved : fetch.Sound (config.issue given)) :
    ((config.issue given).put index fetch).Sound := by
  have kept : config.issued ⊆ (config.issue given).issued :=
    List.subset_append_left _ _
  refine ⟨?_, ?_, ?_⟩
  · cases given with
    | none => simpa [AppConfig.issue, AppConfig.put] using sound.fresh
    | some token =>
        have unused := new token rfl
        rw [AppConfig.put, AppConfig.issue]
        simp only [Option.toList_some, List.map_cons, List.map_nil,
          List.map_append]
        exact List.nodup_append.mpr ⟨sound.fresh, List.nodup_singleton _,
          fun one oneMember other otherMember same => unused
            (List.mem_singleton.mp otherMember ▸ same ▸ oneMember)⟩
  · intro token text stored
    obtain ⟨body, issued, isText⟩ := sound.stored token text stored
    exact ⟨body, kept issued, isText⟩
  · intro other member
    rcases List.mem_or_eq_of_mem_set member with old | rfl
    · exact sound_of_issued kept (sound.fetches other old)
    · exact moved

/-- What a fully answered poll brings is the current configuration. -/
theorem textOf_issued
    {body : List UInt8} (isCurrent : config.current = some body)
    (isText : utf8 body = .ok text) :
    (config.issue (some token)).TextOf token text :=
  ⟨body, by simp [AppConfig.issue, isCurrent], isText⟩

/-- An empty answer to a poll means that the text that was kept for its
token is the current configuration. -/
theorem current_of_unchanged
    (fresh : (config.issued.map Prod.fst).Nodup)
    (kept : config.TextOf token text)
    (unchanged : (token, config.current) ∈ config.issued) :
    ∃ body, config.current = some body ∧ utf8 body = .ok text := by
  obtain ⟨body, issued, isText⟩ := kept
  have same := List.inj_on_of_nodup_map fresh unchanged issued rfl
  exact ⟨body, (Prod.mk.inj same).2, isText⟩

theorem sound_afterPoll
    (fresh : (config.issued.map Prod.fst).Nodup)
    (kept : config.TextOf token text)
    (polled : config.Polled library token called) :
    Fetch.Sound
      (config.issue ((latest library called).toOption.map Prod.fst))
      ⟨.afterPoll library text called, config.current⟩ := by
  rw [FetchStage.afterPoll]
  cases answered : latest library called with
  | error error => trivial
  | ok received =>
      obtain ⟨next, body⟩ := received
      obtain ⟨_, unchanged, full⟩ := polled next body answered
      cases body with
      | nil =>
          obtain ⟨body, isCurrent, isText⟩ :=
            current_of_unchanged fresh kept (unchanged rfl)
          exact ⟨textOf_issued isCurrent isText, body, isCurrent, isText⟩
      | cons byte rest =>
          have isCurrent := full (List.cons_ne_nil _ _)
          simp only [List.isEmpty_cons, Bool.false_eq_true, if_false]
          cases isText : utf8 (byte :: rest) with
          | error error => trivial
          | ok text =>
              exact ⟨textOf_issued isCurrent isText, _, isCurrent, isText⟩

theorem sound_afterFirst
    (polled : config.Polled library token called) :
    Fetch.Sound
      (config.issue ((latest library called).toOption.map Prod.fst))
      ⟨.afterFirst library called, config.current⟩ := by
  rw [FetchStage.afterFirst]
  cases answered : latest library called with
  | error error => trivial
  | ok received =>
      obtain ⟨next, body⟩ := received
      obtain ⟨_, _, full⟩ := polled next body answered
      cases body with
      | nil => trivial
      | cons byte rest =>
          have isCurrent := full (List.cons_ne_nil _ _)
          simp only [List.isEmpty_cons, Bool.false_eq_true, if_false]
          cases isText : utf8 (byte :: rest) with
          | error error => trivial
          | ok text =>
              exact ⟨textOf_issued isCurrent isText, _, isCurrent, isText⟩

theorem sound_afterStart (given : Option String)
    (seen : Option (List UInt8)) :
    Fetch.Sound (config.issue given)
      ⟨.afterStart library called, seen⟩ := by
  rw [FetchStage.afterStart]
  cases startSession library called with
  | error error => trivial
  | ok token => trivial

/-- The token of an answer is a new one. -/
theorem new_of_polled
    (polled : config.Polled library token called) :
    ∀ given ∈ (latest library called).toOption.map Prod.fst,
      given ∉ config.issued.map Prod.fst := by
  intro given isGiven
  cases answered : latest library called with
  | error error =>
      rw [answered] at isGiven
      cases isGiven
  | ok received =>
      rw [answered] at isGiven
      cases isGiven
      exact (polled received.1 received.2 answered).1

theorem sound_receive
    (sound : config.Sound) {fetch : Fetch}
    (member : fetch ∈ config.fetches)
    (polls : ∀ token text, fetch.stage = .polling token text →
      config.Polled library token called)
    (begins : ∀ token, fetch.stage = .first token →
      config.Polled library token called)
    (starts : fetch.stage = .starting →
      ∀ token, startSession library called = .ok token →
        token ∉ config.issued.map Prod.fst)
    (received : config.receive library index called fetch = some next) :
    next.Sound := by
  have own := sound.fetches fetch member
  rw [AppConfig.receive] at received
  cases stage : fetch.stage with
  | polling token text =>
      simp only [stage, Option.some.injEq] at received
      rw [Fetch.Sound, stage] at own
      have polled := polls token text stage
      rw [← received]
      exact sound_issue_put sound (new_of_polled polled)
        (sound_afterPoll sound.fresh own polled)
  | starting =>
      simp only [stage, Option.some.injEq] at received
      rw [← received]
      refine sound_issue_put sound ?_ (sound_afterStart _ _)
      intro token isToken
      cases started : startSession library called with
      | error error =>
          rw [started] at isToken
          cases isToken
      | ok other =>
          rw [started] at isToken
          cases isToken
          exact starts stage _ started
  | first token =>
      simp only [stage, Option.some.injEq] at received
      have polled := begins token stage
      rw [← received]
      exact sound_issue_put sound (new_of_polled polled)
        (sound_afterFirst polled)
  | remembering | returned =>
      simp only [stage] at received
      cases received

theorem AppConfig.sound_step
    (sound : config.Sound) (served : config.Served library label)
    (stepped : config.step library label = some next) : next.Sound := by
  cases label with
  | deploy configuration =>
      cases stepped
      exact ⟨sound.fresh, sound.stored, fun fetch member =>
        sound_of_issued (List.Subset.refl _) (sound.fetches fetch member)⟩
  | begin endpoint =>
      cases stepped
      refine ⟨sound.fresh, sound.stored, ?_⟩
      intro fetch member
      rcases List.mem_append.mp member with old | new
      · exact sound_of_issued (List.Subset.refl _)
          (sound.fetches fetch old)
      · rw [List.mem_singleton.mp new]
        cases endpoint with
        | error error => trivial
        | ok =>
            cases stored : config.stored with
            | none => simp [Fetch.Sound, AppConfig.beginStage, stored]
            | some pair =>
                obtain ⟨body, issued, isText⟩ :=
                  sound.stored pair.1 pair.2 stored
                simp only [Fetch.Sound, AppConfig.beginStage, stored]
                exact ⟨body, issued, isText⟩
  | answer index called =>
      obtain ⟨fetch, found, received⟩ := Option.bind_eq_some_iff.mp stepped
      obtain ⟨polls, begins, starts⟩ := served fetch found
      exact sound_receive sound (List.mem_of_getElem? found) polls begins
        starts received
  | remember index =>
      obtain ⟨fetch, found, remembered⟩ :=
        Option.bind_eq_some_iff.mp stepped
      have own := sound.fetches fetch (List.mem_of_getElem? found)
      cases stage : fetch.stage with
      | remembering token text =>
          simp only [stage, Option.some.injEq] at remembered
          rw [Fetch.Sound, stage] at own
          rw [← remembered]
          refine ⟨sound.fresh, ?_, ?_⟩
          · rintro _ _ ⟨⟩
            exact own.1
          · intro other member
            rcases List.mem_or_eq_of_mem_set member with old | rfl
            · exact sound_of_issued (List.Subset.refl _)
                (sound.fetches other old)
            · exact own.2
      | polling | starting | first | returned =>
          simp only [stage] at remembered
          cases remembered

/-! ## Which calls write -/

theorem receive_cases {fetch : Fetch}
    (received : config.receive library index called fetch = some next) :
    (∀ result, fetch.stage ≠ .returned result) ∧
      next.stored = config.stored ∧
        ∃ moved, next.fetches = config.fetches.set index moved := by
  rw [AppConfig.receive] at received
  cases stage : fetch.stage with
  | polling | starting | first =>
      simp only [stage, Option.some.injEq] at received
      rw [← received]
      exact ⟨nofun, rfl, _, rfl⟩
  | remembering | returned =>
      simp only [stage] at received
      cases received

/-- Everything a step does: it leaves the stored pair and moves at most one
call that has not returned, or it stores the pair of a call that returns
its text. -/
theorem AppConfig.step_cases
    (stepped : config.step library label = some next) :
    (next.stored = config.stored ∧
        ((∃ fetches, next.fetches = config.fetches ++ fetches) ∨
          ∃ index fetch moved, config.fetches[index]? = some fetch ∧
            (∀ result, fetch.stage ≠ .returned result) ∧
              next.fetches = config.fetches.set index moved)) ∨
      ∃ index fetch token text, label = .remember index ∧
        config.fetches[index]? = some fetch ∧
          fetch.stage = .remembering token text ∧
            next.fetches =
              config.fetches.set index ⟨.returned (.ok text), fetch.seen⟩ := by
  cases label with
  | deploy configuration =>
      cases stepped
      exact Or.inl ⟨rfl, Or.inl ⟨[], (List.append_nil _).symm⟩⟩
  | begin endpoint =>
      cases stepped
      exact Or.inl ⟨rfl, Or.inl ⟨_, rfl⟩⟩
  | answer index called =>
      obtain ⟨fetch, found, received⟩ := Option.bind_eq_some_iff.mp stepped
      obtain ⟨running, stored, moved, fetches⟩ := receive_cases received
      exact Or.inl ⟨stored, Or.inr ⟨index, fetch, moved, found, running,
        fetches⟩⟩
  | remember index =>
      obtain ⟨fetch, found, remembered⟩ :=
        Option.bind_eq_some_iff.mp stepped
      cases stage : fetch.stage with
      | remembering token text =>
          simp only [stage, Option.some.injEq] at remembered
          rw [← remembered]
          exact Or.inr ⟨index, fetch, token, text, rfl, found, stage, rfl⟩
      | polling | starting | first | returned =>
          simp only [stage] at remembered
          cases remembered

/-- Whether a call has returned a text. -/
def AppConfig.ReturnedOk (index : Nat) (config : AppConfig) : Prop :=
  ∃ fetch text, config.fetches[index]? = some fetch ∧
    fetch.stage = .returned (.ok text)

theorem returnedOk_step
    (stepped : config.step library label = some next)
    (returned : config.ReturnedOk index) : next.ReturnedOk index := by
  obtain ⟨fetch, text, found, ended⟩ := returned
  have unmoved : ∀ {other : Nat} {moved running : Fetch},
      config.fetches[other]? = some running →
        (∀ result, running.stage ≠ .returned result) →
          (config.fetches.set other moved)[index]? = some fetch := by
    intro other moved running isRunning stage
    rw [List.getElem?_set_ne, found]
    rintro rfl
    rw [found] at isRunning
    cases isRunning
    exact stage _ ended
  rcases AppConfig.step_cases stepped with
    ⟨_, ⟨fetches, same⟩ | ⟨other, running, moved, isRunning, stage, same⟩⟩ |
      ⟨other, running, token, _, _, isRunning, stage, same⟩
  · refine ⟨fetch, text, ?_, ended⟩
    rw [same, List.getElem?_append_left
      (List.getElem?_eq_some_iff.mp found).1, found]
  · exact ⟨fetch, text, same ▸ unmoved isRunning stage, ended⟩
  · exact ⟨fetch, text, same ▸ unmoved isRunning (by simp [stage]), ended⟩

/-- A call that writes returns its text. -/
theorem stored_step
    (stepped : config.step library label = some next)
    (own : label.fetch = some index)
    (failed : ¬ next.ReturnedOk index) : next.stored = config.stored := by
  rcases AppConfig.step_cases stepped with
    ⟨same, _⟩ | ⟨other, fetch, token, text, rfl, found, _, fetches⟩
  · exact same
  · obtain rfl : other = index := Option.some.inj own
    have bound := (List.getElem?_eq_some_iff.mp found).1
    refine absurd ⟨⟨.returned (.ok text), fetch.seen⟩, text, ?_, rfl⟩ failed
    rw [fetches, List.getElem?_set_self bound]

/-- A call that has not returned a text has not touched the stored
pair. -/
theorem stored_of_failed
    {start final : AppConfig} {labels : List AppConfigStep}
    (reached : Reaches (AppConfig.step library) anyStep start labels final)
    (failed : ¬ final.ReturnedOk index) :
    EveryStep (AppConfig.step library) start labels
      fun before label after =>
        label.fetch = some index → after.stored = before.stored := by
  induction reached with
  | nil => exact everyStep_nil
  | snoc reached _ stepped inductionHypothesis =>
      have earlier : ¬ AppConfig.ReturnedOk index _ :=
        fun returned => failed (returnedOk_step stepped returned)
      rw [everyStep_snoc_iff reached]
      refine ⟨inductionHypothesis earlier, ?_⟩
      intro after alsoStepped own
      rw [stepped] at alsoStepped
      cases alsoStepped
      exact stored_step stepped own failed

/-- Whatever calls run at the same time and whatever the service rejects:
each token was issued once, the stored text is the configuration that was
current when the stored token was issued, a call returns the configuration
that was current at its last poll, and a call that fails leaves the stored
pair as it is in each of its steps. -/
theorem appconfig_never_stale
    {deployed : Option (List UInt8)} {labels : List AppConfigStep}
    {final : AppConfig}
    (reached : Reaches (AppConfig.step library)
      (AppConfig.Served library) { current := deployed } labels final) :
    (final.issued.map Prod.fst).Nodup ∧
      (∀ token text, final.stored = some (token, text) →
        ∃ body, (token, some body) ∈ final.issued ∧
          utf8 body = .ok text) ∧
      (∀ fetch ∈ final.fetches, ∀ text,
        fetch.stage = .returned (.ok text) →
          ∃ body, fetch.seen = some body ∧ utf8 body = .ok text) ∧
      ∀ index fetch error, final.fetches[index]? = some fetch →
        fetch.stage = .returned (.error error) →
          EveryStep (AppConfig.step library) { current := deployed } labels
            fun before label after =>
              label.fetch = some index → after.stored = before.stored := by
  have sound : final.Sound := by
    apply reached.invariant
    · exact ⟨List.nodup_nil, nofun, nofun⟩
    · intro config label next before served stepped
      exact AppConfig.sound_step before served stepped
  refine ⟨sound.fresh, sound.stored, ?_, ?_⟩
  · intro fetch member text returned
    have own := sound.fetches fetch member
    rw [Fetch.Sound, returned] at own
    exact own
  · intro index fetch error found failed
    apply stored_of_failed reached.anyStep
    rintro ⟨other, text, alsoFound, returned⟩
    rw [found] at alsoFound
    cases alsoFound
    rw [failed] at returned
    cases returned

end

/-! ## Two calls at the same time -/

instance decidablePolled (library : AppConfigLibrary) (token : String)
    (called : Except SignalError AppConfigAnswer) (config : AppConfig) :
    Decidable (config.Polled library token called) :=
  match answered : latest library called with
  | .error _ => isTrue (by simp [AppConfig.Polled, answered])
  | .ok (next, body) =>
      decidable_of_iff
        (next ∉ config.issued.map Prod.fst ∧
          (body = [] → (token, config.current) ∈ config.issued) ∧
          (body ≠ [] → config.current = some body))
        (by simp [AppConfig.Polled, answered])

/-- What the service promises of the answer at a stage. -/
def AppConfig.ServedAt (library : AppConfigLibrary)
    (called : Except SignalError AppConfigAnswer) (config : AppConfig) :
    FetchStage → Prop
  | .polling token _ => config.Polled library token called
  | .first token => config.Polled library token called
  | .starting =>
      ∀ token ∈ (startSession library called).toOption,
        token ∉ config.issued.map Prod.fst
  | _ => True

instance (library : AppConfigLibrary)
    (called : Except SignalError AppConfigAnswer) (config : AppConfig) :
    ∀ stage, Decidable (config.ServedAt library called stage)
  | .polling _ _ => decidablePolled _ _ _ _
  | .first _ => decidablePolled _ _ _ _
  | .starting => inferInstanceAs (Decidable (∀ _ ∈ _, _))
  | .remembering _ _ => inferInstanceAs (Decidable True)
  | .returned _ => inferInstanceAs (Decidable True)

theorem servedAt_iff (library : AppConfigLibrary)
    (called : Except SignalError AppConfigAnswer) (config : AppConfig)
    (stage : FetchStage) :
    config.ServedAt library called stage ↔
      (∀ token text, stage = .polling token text →
          config.Polled library token called) ∧
        (∀ token, stage = .first token →
          config.Polled library token called) ∧
        (stage = .starting →
          ∀ token, startSession library called = .ok token →
            token ∉ config.issued.map Prod.fst) := by
  cases stage with
  | polling | first | remembering | returned =>
      simp [AppConfig.ServedAt]
  | starting =>
      cases started : startSession library called with
      | error error =>
          simp [AppConfig.ServedAt, started, Except.toOption]
      | ok token => simp [AppConfig.ServedAt, started, Except.toOption]

instance (library : AppConfigLibrary) (config : AppConfig) :
    ∀ label, Decidable (config.Served library label)
  | .deploy _ => inferInstanceAs (Decidable True)
  | .begin _ => inferInstanceAs (Decidable True)
  | .remember _ => inferInstanceAs (Decidable True)
  | .answer index called =>
      decidable_of_iff
        (∀ fetch ∈ config.fetches[index]?,
          config.ServedAt library called fetch.stage)
        (by simp only [AppConfig.Served, Option.mem_def, servedAt_iff])

/-- A session's body is its token, of one letter. -/
def plainAppConfig : AppConfigLibrary where
  urls := ⟨fun _ => .error "", fun _ _ => .error "", fun _ => none⟩
  extendPath _ _ := none
  formEncode text := text
  readJson _ := .error ""
  lossyText _ := []
  statusText _ := ""
  readSession body :=
    match String.fromUTF8? ⟨body.toArray⟩ with
    | some token => .ok token
    | none => .error "expected value"

/-- A poll's answer. -/
def sentAnswer (next : String) (body : List UInt8) :
    Except SignalError AppConfigAnswer :=
  .ok ⟨200, some next, body⟩

/-- A session's answer. -/
def sessionAnswer (token : UInt8) : Except SignalError AppConfigAnswer :=
  .ok ⟨201, none, [token]⟩

/-- Two calls poll with one token after a deployment; the second one is
rejected, starts a session of its own, and stores its pair first. -/
def concurrentPolls : List AppConfigStep :=
  [.begin (.ok ()), .answer 0 (sessionAnswer 65),
    .answer 0 (sentAnswer "B" [97]), .remember 0, .deploy [98],
    .begin (.ok ()), .begin (.ok ()),
    .answer 1 (sentAnswer "C" [98]), .answer 2 (.ok ⟨400, none, []⟩),
    .answer 2 (sessionAnswer 68), .answer 2 (sentAnswer "E" [98]),
    .remember 2, .remember 1]

def polledAppConfig : AppConfig :=
  (run (AppConfig.step plainAppConfig) (AppConfig.Served plainAppConfig)
    { current := some [97] } concurrentPolls).getD {}

theorem appconfig_never_stale_concurrent :
    polledAppConfig.stored = some ("C", "b") ∧
      (polledAppConfig.issued.map Prod.fst).Nodup ∧
      ∀ fetch ∈ polledAppConfig.fetches, ∀ text,
        fetch.stage = .returned (.ok text) →
          ∃ body, fetch.seen = some body ∧ utf8 body = .ok text := by
  have reached : Reaches (AppConfig.step plainAppConfig)
      (AppConfig.Served plainAppConfig) { current := some [97] }
      concurrentPolls polledAppConfig := by
    apply reaches_of_isSome
    decide +kernel
  obtain ⟨fresh, _, current, _⟩ := appconfig_never_stale reached
  exact ⟨by decide +kernel, fresh, current⟩

end OpsSignal
