import OpsSignal.Lib.FirstMention
import OpsSignal.Routing

/-!
# What the planning loop computes

The loop of `plan_with` carries a list of seen names, the targets, the
index of the shared failover target and two lists of lines.  Here it is
split into two independent parts.

* `accounts` lists the matching routes in order, each with the gate's
  answer if it was asked.  Its `fate` says what became of the route.
* `layout` is the closed form of the targets: the first mention of a name
  decides where it goes.
-/

namespace OpsSignal

open FirstMention

/-! ## Accounting for the matching routes -/

/-- What became of a matching route. -/
inductive Fate where
  | suppressed (reason : String)
  | held (wait : Window)
  | sent
  deriving DecidableEq, Repr

/-- A matching route, its index in the config, and the gate's answer. -/
structure Account where
  route : Route
  index : Nat
  /-- `none` if the gate was not asked about the route. -/
  answer : Option (Except String Unit)

namespace Account

/-- A refusal holds the route back; otherwise it waits for its digest if
it groups and is sent now if it does not. -/
def fate (account : Account) : Fate :=
  match account.answer with
  | some (.error reason) => .suppressed reason
  | _ =>
      match account.route.groupWindow with
      | some wait => .held wait
      | none => .sent

/-- The line of a suppressed route. -/
def suppressedLine (account : Account) : Option String :=
  match account.fate with
  | .suppressed reason => some (account.route.suppressedLine reason)
  | _ => none

/-- The index and the line of a held route. -/
def heldEntry (account : Account) : Option (Nat × String) :=
  match account.fate with
  | .held wait => some (account.index, account.route.heldLine wait)
  | _ => none

/-- The providers a route that is sent now brings in. -/
def sentEntries (account : Account) : List (DeliveryMode × String) :=
  match account.fate with
  | .sent => account.route.entries
  | _ => []

end Account

section Accounts

variable {State : Type}

/-- The gate's answer, or `none` if it is not asked. -/
def gateAnswer
    (admits : Gate State) (route : Route) (state : State) :
    Option (Except String Unit) :=
  if route.gatesSignals then some (admits route state).1 else none

/-- The matching routes in order.  The gate's state runs through them. -/
def accounts
    (signal : Signal) (admits : Gate State) :
    List (Route × Nat) → State → List Account
  | [], _ => []
  | (route, index) :: rest, state =>
      if !route.matchRule.accepts signal then
        accounts signal admits rest state
      else
        ⟨route, index, gateAnswer admits route state⟩ ::
          accounts signal admits rest (askGate admits route state).2

/-- The providers of the routes that are sent now, in order. -/
def sentEntries (accounted : List Account) :
    List (DeliveryMode × String) :=
  accounted.flatMap Account.sentEntries

/-- Every matching route is accounted for once, in route order. -/
theorem accounts_map
    (signal : Signal) (admits : Gate State) :
    ∀ (routes : List (Route × Nat)) (state : State),
      (accounts signal admits routes state).map
          (fun account => (account.route, account.index)) =
        routes.filter fun entry => entry.1.matchRule.accepts signal
  | [], _ => rfl
  | (route, index) :: rest, state => by
      by_cases accepted : route.matchRule.accepts signal = true
      · simp [accounts, accepted, accounts_map signal admits rest]
      · simp [accounts, accepted, accounts_map signal admits rest]

/-- The gate is asked exactly where a route keeps a history. -/
theorem answer_isSome_of_mem_accounts
    (signal : Signal) (admits : Gate State) {account : Account} :
    ∀ {routes : List (Route × Nat)} {state : State},
      account ∈ accounts signal admits routes state →
        account.answer.isSome = account.route.gatesSignals
  | [], _, member => by
      simp [accounts] at member
  | (route, index) :: rest, state, member => by
      by_cases accepted : route.matchRule.accepts signal = true
      · simp only [accounts, accepted, Bool.not_true, Bool.false_eq_true,
          if_false, List.mem_cons] at member
        rcases member with rfl | tailMember
        · by_cases gated : route.gatesSignals = true
          · simp [gateAnswer, gated]
          · simp [gateAnswer, gated]
        · exact answer_isSome_of_mem_accounts signal admits tailMember
      · simp only [accounts, accepted, Bool.not_false, if_true] at member
        exact answer_isSome_of_mem_accounts signal admits member

private theorem account_fate
    (admits : Gate State) (route : Route) (index : Nat) (state : State) :
    (Account.mk route index (gateAnswer admits route state)).fate =
      match (askGate admits route state).1 with
      | .error reason => .suppressed reason
      | .ok () =>
          match route.groupWindow with
          | some wait => .held wait
          | none => .sent := by
  by_cases gated : route.gatesSignals = true
  · cases answer : admits route state with
    | mk verdict next =>
        cases verdict with
        | error reason =>
            simp [Account.fate, gateAnswer, askGate, gated, answer]
        | ok =>
            simp [Account.fate, gateAnswer, askGate, gated, answer]
  · simp [Account.fate, gateAnswer, askGate, gated]

/-- The loop over the routes leaves behind what the accounts say. -/
theorem planRoutes_eq
    (signal : Signal) (admits : Gate State) :
    ∀ (routes : List (Route × Nat)) (current : PlanState) (state : State),
      (planRoutes signal admits routes (current, state)).1 =
        let accounted := accounts signal admits routes state
        { placement :=
            (sentEntries accounted).foldl Placement.place
              current.placement
          suppressed :=
            current.suppressed ++
              accounted.filterMap Account.suppressedLine
          grouped :=
            current.grouped ++ accounted.filterMap Account.heldEntry }
  | [], current, state => by
      simp [planRoutes, accounts, sentEntries]
  | (route, index) :: rest, current, state => by
      have unfolded :
          planRoutes signal admits ((route, index) :: rest)
              (current, state) =
            planRoutes signal admits rest
              (planRoute signal admits (current, state)
                (route, index)) := rfl
      rw [unfolded]
      by_cases accepted : route.matchRule.accepts signal = true
      · have fate := account_fate admits route index state
        cases asked : askGate admits route state with
        | mk verdict next =>
            rw [asked] at fate
            cases verdict with
            | error reason =>
                simp only [planRoute, accepted, Bool.not_true,
                  Bool.false_eq_true, if_false, asked]
                rw [planRoutes_eq signal admits rest]
                simp [accounts, accepted, asked, sentEntries,
                  Account.suppressedLine, Account.heldEntry,
                  Account.sentEntries, fate]
            | ok =>
                cases window : route.groupWindow with
                | some wait =>
                    simp only [window] at fate
                    simp only [planRoute, accepted, Bool.not_true,
                      Bool.false_eq_true, if_false, asked, window]
                    rw [planRoutes_eq signal admits rest]
                    simp [accounts, accepted, asked, sentEntries,
                      Account.suppressedLine, Account.heldEntry,
                      Account.sentEntries, fate]
                | none =>
                    simp only [window] at fate
                    simp only [planRoute, accepted, Bool.not_true,
                      Bool.false_eq_true, if_false, asked, window]
                    rw [planRoutes_eq signal admits rest]
                    simp [accounts, accepted, asked, sentEntries,
                      Account.suppressedLine, Account.heldEntry,
                      Account.sentEntries, fate]
      · simp only [planRoute, accepted, Bool.not_false, if_true]
        rw [planRoutes_eq signal admits rest]
        simp [accounts, accepted]

end Accounts

/-! ## The targets in closed form -/

/-- The names that go to the shared failover target. -/
def failoverNames (entries : List (DeliveryMode × String)) :
    List String :=
  (entries.filter (·.1 = .failover)).map Prod.snd

/-- The names that are targets of their own. -/
def fanoutTargets (entries : List (DeliveryMode × String)) :
    List (List String) :=
  (entries.filter (·.1 = .fanout)).map fun entry => [entry.2]

/-- The targets of entries that name every provider once: each fanout
provider alone, the failover providers together where the first of them
stands. -/
def layout : List (DeliveryMode × String) → List (List String)
  | [] => []
  | (.fanout, name) :: rest => [name] :: layout rest
  | (.failover, name) :: rest =>
      (name :: failoverNames rest) :: fanoutTargets rest

/-- What `place` does with a name that is new. -/
private def putFresh
    (placement : Placement) (entry : DeliveryMode × String) :
    Placement :=
  let seen := placement.seen ++ [entry.2]
  match entry.1, placement.failover with
  | .fanout, _ =>
      { placement with
        seen := seen
        targets := placement.targets ++ [[entry.2]] }
  | .failover, some index =>
      { placement with
        seen := seen
        targets := placement.targets.modify index (· ++ [entry.2]) }
  | .failover, none =>
      { seen := seen
        targets := placement.targets ++ [[entry.2]]
        failover := some placement.targets.length }

private theorem seen_putFresh
    (placement : Placement) (entry : DeliveryMode × String) :
    (putFresh placement entry).seen = placement.seen ++ [entry.2] := by
  rcases entry with ⟨mode, name⟩
  cases mode with
  | fanout => rfl
  | failover =>
      cases shared : placement.failover with
      | none => simp [putFresh, shared]
      | some index => simp [putFresh, shared]

private theorem foldl_place_eq
    (entries : List (DeliveryMode × String)) (placement : Placement) :
    entries.foldl Placement.place placement =
      (fresh Prod.snd placement.seen entries).foldl putFresh placement :=
  foldl_skip_seen Placement.seen putFresh seen_putFresh entries placement

private theorem modify_append_of_lt
    {Item : Type} (change : Item → Item) (suffix : List Item) :
    ∀ {items : List Item} {index : Nat},
      index < items.length →
        (items ++ suffix).modify index change =
          items.modify index change ++ suffix
  | [], _, inside => by
      simp at inside
  | _ :: _, 0, _ => rfl
  | item :: items, index + 1, inside => by
      have inner : index < items.length := by
        simpa using inside
      simp [modify_append_of_lt change suffix inner]

private theorem modify_concat_last
    {Item : Type} (change : Item → Item) (last : Item) :
    ∀ items : List Item,
      (items ++ [last]).modify items.length change =
        items ++ [change last]
  | [] => rfl
  | item :: items => by
      simp [modify_concat_last change last items]

private theorem targets_putFresh_shared
    {index : Nat} :
    ∀ (entries : List (DeliveryMode × String)) (placement : Placement),
      placement.failover = some index →
      index < placement.targets.length →
        (entries.foldl putFresh placement).targets =
          placement.targets.modify index (· ++ failoverNames entries) ++
            fanoutTargets entries
  | [], placement, _, _ => by
      have unchanged :
          (fun target : List String => target ++ failoverNames []) = id := by
        funext target
        simp [failoverNames]
      simp [unchanged, fanoutTargets]
  | (.fanout, name) :: rest, placement, shared, inside => by
      rw [List.foldl_cons,
        targets_putFresh_shared rest _ (by simpa [putFresh] using shared)
          (by simp [putFresh]; omega)]
      simp [putFresh, failoverNames, fanoutTargets,
        modify_append_of_lt _ _ inside]
  | (.failover, name) :: rest, placement, shared, inside => by
      have stays : (putFresh placement (.failover, name)).failover =
          some index := by
        simp [putFresh, shared]
      rw [List.foldl_cons,
        targets_putFresh_shared rest _ stays
          (by simpa [putFresh, shared] using inside)]
      simp [putFresh, shared, failoverNames, fanoutTargets,
        List.modify_modify_eq, Function.comp_def]

private theorem targets_putFresh_unshared :
    ∀ (entries : List (DeliveryMode × String)) (placement : Placement),
      placement.failover = none →
        (entries.foldl putFresh placement).targets =
          placement.targets ++ layout entries
  | [], placement, _ => by
      simp [layout]
  | (.fanout, name) :: rest, placement, unshared => by
      rw [List.foldl_cons,
        targets_putFresh_unshared rest _ (by simpa [putFresh] using unshared)]
      simp [putFresh, layout]
  | (.failover, name) :: rest, placement, unshared => by
      have opened : (putFresh placement (.failover, name)).failover =
          some placement.targets.length := by
        simp [putFresh, unshared]
      rw [List.foldl_cons,
        targets_putFresh_shared rest _ opened (by simp [putFresh, unshared])]
      simp [putFresh, unshared, layout, modify_concat_last]

/-- The loop over the providers puts every name where its first mention
says. -/
theorem targets_foldl_place (entries : List (DeliveryMode × String)) :
    (entries.foldl Placement.place {}).targets =
      layout (firsts Prod.snd entries) := by
  rw [foldl_place_eq, targets_putFresh_unshared _ _ rfl]
  rfl

/-! ## Facts about the closed form -/

theorem failoverNames_append_fanout_perm
    (entries : List (DeliveryMode × String)) :
    (failoverNames entries ++ (fanoutTargets entries).flatten).Perm
      (entries.map Prod.snd) := by
  induction entries with
  | nil => simp [failoverNames, fanoutTargets]
  | cons entry rest inductionHypothesis =>
      rcases entry with ⟨mode, name⟩
      cases mode with
      | failover =>
          simpa [failoverNames, fanoutTargets] using
            inductionHypothesis.cons name
      | fanout =>
          have moved :
              (failoverNames rest ++
                  name :: (fanoutTargets rest).flatten).Perm
                (name :: (failoverNames rest ++
                  (fanoutTargets rest).flatten)) :=
            List.perm_middle
          simpa [failoverNames, fanoutTargets] using
            moved.trans (inductionHypothesis.cons name)

/-- The targets hold every name exactly as often as the entries do. -/
theorem flatten_layout_perm :
    ∀ entries : List (DeliveryMode × String),
      (layout entries).flatten.Perm (entries.map Prod.snd)
  | [] => by simp [layout]
  | (.fanout, name) :: rest => by
      simpa [layout] using (flatten_layout_perm rest).cons name
  | (.failover, name) :: rest => by
      simpa [layout] using
        (failoverNames_append_fanout_perm rest).cons name

theorem mem_fanoutTargets
    {entries : List (DeliveryMode × String)} {target : List String} :
    target ∈ fanoutTargets entries ↔
      ∃ name, (DeliveryMode.fanout, name) ∈ entries ∧ target = [name] := by
  simp only [fanoutTargets, List.mem_map, List.mem_filter,
    decide_eq_true_eq, Prod.exists]
  constructor
  · rintro ⟨mode, name, ⟨member, rfl⟩, rfl⟩
    exact ⟨name, member, rfl⟩
  · rintro ⟨name, member, rfl⟩
    exact ⟨.fanout, name, ⟨member, rfl⟩, rfl⟩

/-- A target is one fanout provider or the shared failover list. -/
theorem mem_layout :
    ∀ {entries : List (DeliveryMode × String)} {target : List String},
      target ∈ layout entries ↔
        (∃ name, (DeliveryMode.fanout, name) ∈ entries ∧
          target = [name]) ∨
        (target = failoverNames entries ∧ target ≠ [])
  | [], target => by
      simp [layout, failoverNames]
  | (.fanout, name) :: rest, target => by
      have shared :
          failoverNames ((.fanout, name) :: rest) = failoverNames rest := by
        simp [failoverNames]
      rw [layout, List.mem_cons, mem_layout, shared]
      constructor
      · rintro (equal | ⟨other, member, equal⟩ | failover)
        · exact Or.inl ⟨name, List.mem_cons_self, equal⟩
        · exact Or.inl ⟨other, List.mem_cons_of_mem _ member, equal⟩
        · exact Or.inr failover
      · rintro (⟨other, member, equal⟩ | failover)
        · rcases List.mem_cons.mp member with same | tailMember
          · cases same
            exact Or.inl equal
          · exact Or.inr (Or.inl ⟨other, tailMember, equal⟩)
        · exact Or.inr (Or.inr failover)
  | (.failover, name) :: rest, target => by
      have shared :
          failoverNames ((.failover, name) :: rest) =
            name :: failoverNames rest := by
        simp [failoverNames]
      rw [layout, List.mem_cons, mem_fanoutTargets, shared]
      constructor
      · rintro (rfl | ⟨other, member, equal⟩)
        · exact Or.inr ⟨rfl, List.cons_ne_nil _ _⟩
        · exact Or.inl ⟨other, List.mem_cons_of_mem _ member, equal⟩
      · rintro (⟨other, member, equal⟩ | ⟨equal, _⟩)
        · rcases List.mem_cons.mp member with same | tailMember
          · cases same
          · exact Or.inr ⟨other, tailMember, equal⟩
        · exact Or.inl equal

theorem ne_nil_of_mem_layout
    {entries : List (DeliveryMode × String)} {target : List String}
    (member : target ∈ layout entries) : target ≠ [] := by
  rcases mem_layout.mp member with ⟨name, _, rfl⟩ | ⟨_, nonempty⟩
  · exact List.cons_ne_nil _ _
  · exact nonempty

/-- A name is in some target exactly when some entry mentions it. -/
theorem mem_flatten_layout_firsts
    {entries : List (DeliveryMode × String)} {name : String} :
    name ∈ (layout (firsts Prod.snd entries)).flatten ↔
      name ∈ entries.map Prod.snd := by
  rw [(flatten_layout_perm _).mem_iff, mem_keys_firsts]

/-- No provider is named twice, within a target or across targets. -/
theorem nodup_flatten_layout_firsts
    (entries : List (DeliveryMode × String)) :
    (layout (firsts Prod.snd entries)).flatten.Nodup :=
  (flatten_layout_perm _).nodup_iff.mpr (nodup_keys_firsts entries)

end OpsSignal
