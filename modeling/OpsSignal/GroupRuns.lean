import OpsSignal.GroupKey
import OpsSignal.Lib.Allotment
import OpsSignal.Lib.LabelledRuns

/-!
# Groups over whole runs

Callers add members, take the group of a timer and take all groups, in any
order.  Each call is one step, because it holds the lock of the open
groups.  Every member that was ever added is in one open group or in one
closed group, and a timer closes no group but its own.
-/

namespace OpsSignal

open Allotment LabelledRuns

/-- A member on its way to a group of the route. -/
structure Arrival where
  route : Route
  member : Member

/-- What `add` answered when it opened a group, and the arrival that opened
it. -/
structure Ticket where
  key : String
  seq : Nat
  opener : Nat
  deriving DecidableEq, Repr

/-- The open groups, and what their callers have seen so far. -/
structure GroupHistory where
  groups : Groups := {}
  arrivals : List Arrival := []
  closed : List Closed := []
  tickets : List Ticket := []

inductive GroupCall where
  | add (route : Route) (member : Member)
  | take (key : String) (seq : Nat)
  | takeAll

/-- The routes that members are added to. -/
def GroupCall.routeIn (routes : List Route) : GroupCall → Prop
  | .add route _ => route ∈ routes
  | .take _ _ => True
  | .takeAll => True

instance decidableRouteIn (routes : List Route) (call : GroupCall) :
    Decidable (call.routeIn routes) :=
  match call with
  | .add route _ => inferInstanceAs (Decidable (route ∈ routes))
  | .take _ _ => inferInstanceAs (Decidable True)
  | .takeAll => inferInstanceAs (Decidable True)

namespace GroupHistory

/-- A call of `add`. -/
def add
    (platform : Platform) (route : Route) (member : Member)
    (history : GroupHistory) : GroupHistory :=
  let result := history.groups.add platform route member
  let arrived :=
    { history with
      groups := result.1
      arrivals := history.arrivals ++ [⟨route, member⟩] }
  match result.2 with
  | .joined => arrived
  | .opened key seq _ =>
      { arrived with
        tickets := arrived.tickets ++ [⟨key, seq, history.arrivals.length⟩] }
  | .full closed => { arrived with closed := arrived.closed ++ [closed] }

def step (platform : Platform) (history : GroupHistory) :
    GroupCall → Option GroupHistory
  | .add route member => some (history.add platform route member)
  | .take key seq =>
      match history.groups.take key seq with
      | none => some history
      | some (groups, closed) =>
          some { history with
            groups := groups
            closed := history.closed ++ [closed] }
  | .takeAll =>
      let result := history.groups.takeAll
      some { history with
        groups := result.1
        closed := history.closed ++ result.2 }

end GroupHistory

/-! ## Looking a group up -/

namespace Groups

variable {groups : Groups} {key : String}

/-- The open group of a key, with its place. -/
def lookup (key : String) (groups : Groups) : Option (Nat × OpenGroup) :=
  (groups.find key).bind fun index =>
    groups.opened[index]?.map fun entry => (index, entry.2)

theorem lookup_eq_some {index : Nat} {group : OpenGroup}
    (found : groups.lookup key = some (index, group)) :
    groups.opened[index]? = some (key, group) := by
  obtain ⟨place, isPlace, entries⟩ := Option.bind_eq_some_iff.mp found
  obtain ⟨entry, isEntry, same⟩ := Option.map_eq_some_iff.mp entries
  obtain ⟨bound, named, _⟩ := List.findIdx?_eq_some_iff_getElem.mp isPlace
  obtain ⟨rfl, rfl⟩ := Prod.mk.inj same
  rw [List.getElem?_eq_getElem bound, Option.some.injEq] at isEntry
  rw [List.getElem?_eq_getElem bound, isEntry]
  rw [isEntry, beq_iff_eq] at named
  rw [← named]

theorem lookup_eq_none (absent : groups.lookup key = none) :
    key ∉ groups.opened.map Prod.fst := by
  intro listed
  obtain ⟨entry, member, named⟩ := List.mem_map.mp listed
  have found : (groups.find key).isSome = true := by
    rw [find, List.findIdx?_isSome, List.any_eq_true]
    exact ⟨entry, member, by simp [named]⟩
  obtain ⟨place, isPlace⟩ := Option.isSome_iff_exists.mp found
  obtain ⟨bound, _, _⟩ := List.findIdx?_eq_some_iff_getElem.mp isPlace
  rw [lookup, isPlace, Option.bind_some,
    List.getElem?_eq_getElem bound] at absent
  cases absent

/-- With one group for each key, the lookup finds every open group. -/
theorem lookup_of_mem
    (keyed : (groups.opened.map Prod.fst).Nodup) {group : OpenGroup}
    (member : (key, group) ∈ groups.opened) :
    ∃ index, groups.lookup key = some (index, group) := by
  cases found : groups.lookup key with
  | none =>
      exact absurd (List.mem_map_of_mem member) (lookup_eq_none found)
  | some place =>
      obtain ⟨index, other⟩ := place
      have isOther := List.mem_of_getElem? (lookup_eq_some found)
      have same := List.inj_on_of_nodup_map keyed member isOther rfl
      exact ⟨index, by rw [(Prod.mk.inj same).2]⟩

theorem add_eq
    (platform : Platform) (route : Route) (member : Member)
    (groups : Groups) :
    groups.add platform route member =
      let values := groupValues route member.signal
      let key := groupKey platform route values
      match groups.lookup key with
      | some (index, group) => groups.joinAt index key group member
      | none => groups.openNew key route values member :=
  rfl

theorem take_eq (seq : Nat) :
    groups.take key seq =
      match groups.lookup key with
      | some (index, group) =>
          if group.seq = seq then
            some (groups.remove index, group.toClosed)
          else
            none
      | none => none :=
  rfl

end Groups

/-! ## Where the members are -/

/-- What a group gathered: the members that arrived, in order, all on the
group's route and with the group's values. -/
structure Gathers (arrivals : List Arrival) (closed : Closed) : Prop where
  members : closed.members = arrivals.map Arrival.member
  same : ∀ arrival ∈ arrivals, arrival.route = closed.route ∧
    groupValues arrival.route arrival.member.signal = closed.by_

/-- Every arrival has the number of a group, and every group, open or
closed, has the arrivals of its number. -/
structure Placed
    (platform : Platform) (routes : List Route) (history : GroupHistory)
    (owners : List Nat) (batches : List (Nat × Closed)) : Prop where
  batched : batches.map Prod.snd = history.closed
  aligned : owners.length = history.arrivals.length
  keyed : (history.groups.opened.map Prod.fst).Nodup
  named : ∀ entry ∈ history.groups.opened, entry.2.route ∈ routes ∧
    entry.1 = groupKey platform entry.2.route entry.2.by_
  numbered :
    (history.groups.opened.map (fun entry => entry.2.seq) ++
      batches.map Prod.fst).Nodup
  counted :
    ∀ number ∈ history.groups.opened.map (fun entry => entry.2.seq) ++
      batches.map Prod.fst, number ≤ history.groups.nextSeq
  owned : ∀ owner ∈ owners,
    owner ∈ history.groups.opened.map (fun entry => entry.2.seq) ++
      batches.map Prod.fst
  open_ : ∀ entry ∈ history.groups.opened,
    Gathers (allotted entry.2.seq history.arrivals owners) entry.2.toClosed
  closed : ∀ batch ∈ batches,
    Gathers (allotted batch.1 history.arrivals owners) batch.2
  /-- Each ticket has a number of its own, the number of the group that
  its arrival opened. -/
  distinct : (history.tickets.map Ticket.seq).Nodup
  issued : ∀ ticket ∈ history.tickets,
    owners[ticket.opener]? = some ticket.seq ∧
      ∀ earlier < ticket.opener, owners[earlier]? ≠ some ticket.seq
  ticketed : ∀ entry ∈ history.groups.opened,
    ∃ ticket ∈ history.tickets,
      ticket.key = entry.1 ∧ ticket.seq = entry.2.seq

variable {platform : Platform} {routes : List Route}
  {history : GroupHistory} {owners : List Nat}
  {batches : List (Nat × Closed)}

theorem placed_initial : Placed platform routes {} [] [] where
  batched := rfl
  aligned := rfl
  keyed := List.nodup_nil
  named _ member := by cases member
  numbered := List.nodup_nil
  counted _ member := by cases member
  owned _ member := by cases member
  open_ _ member := by cases member
  closed _ member := by cases member
  distinct := List.nodup_nil
  issued _ member := by cases member
  ticketed _ member := by cases member

theorem Gathers.snoc
    {arrivals : List Arrival} {group : OpenGroup} {arrival : Arrival}
    (gathers : Gathers arrivals group.toClosed)
    (sameRoute : arrival.route = group.route)
    (sameValues :
      groupValues arrival.route arrival.member.signal = group.by_) :
    Gathers (arrivals ++ [arrival])
      (group.push arrival.member).toClosed where
  members := by
    rw [List.map_append, ← gathers.members]
    rfl
  same other member := by
    rcases List.mem_append.mp member with old | new
    · exact gathers.same other old
    · rw [List.mem_singleton.mp new]
      exact ⟨sameRoute, sameValues⟩

/-- A list of groups keeps its keys and numbers when a member joins. -/
private theorem map_set_same
    {Entry Value : Type} {read : Entry → Value} {old new : Entry}
    (same : read new = read old) :
    ∀ {entries : List Entry} {index : Nat}, entries[index]? = some old →
      (entries.set index new).map read = entries.map read
  | [], _, found => by
      simp at found
  | entry :: entries, 0, found => by
      simp only [List.getElem?_cons_zero, Option.some.injEq] at found
      rw [List.set_cons_zero, List.map_cons, List.map_cons, same, found]
  | entry :: entries, index + 1, found => by
      rw [List.getElem?_cons_succ] at found
      rw [List.set_cons_succ, List.map_cons, List.map_cons,
        map_set_same same found]

/-- Taking an entry out leaves the others. -/
private theorem perm_cons_eraseIdx
    {Entry : Type} {entries : List Entry} {index : Nat} {entry : Entry}
    (found : entries[index]? = some entry) :
    (entry :: entries.eraseIdx index).Perm entries := by
  obtain ⟨bound, isEntry⟩ := List.getElem?_eq_some_iff.mp found
  rw [← isEntry]
  exact List.getElem_cons_eraseIdx_perm bound

theorem Placed.opener_lt
    (placed : Placed platform routes history owners batches)
    {ticket : Ticket} (member : ticket ∈ history.tickets) :
    ticket.opener < owners.length := by
  obtain ⟨bound, _⟩ :=
    List.getElem?_eq_some_iff.mp (placed.issued ticket member).1
  exact bound

/-- A ticket stays true when further members arrive. -/
private theorem issued_snoc
    {ticket : Ticket} (owner : Nat) (early : ticket.opener < owners.length)
    (issued : owners[ticket.opener]? = some ticket.seq ∧
      ∀ earlier < ticket.opener, owners[earlier]? ≠ some ticket.seq) :
    (owners ++ [owner])[ticket.opener]? = some ticket.seq ∧
      ∀ earlier < ticket.opener,
        (owners ++ [owner])[earlier]? ≠ some ticket.seq := by
  refine ⟨?_, ?_⟩
  · rw [List.getElem?_append_left early]
    exact issued.1
  · intro earlier before
    rw [List.getElem?_append_left (before.trans early)]
    exact issued.2 earlier before

/-- A member joins an open group. -/
theorem Placed.join
    (placed : Placed platform routes history owners batches)
    {route : Route} {member : Member} {index : Nat} {key : String}
    {group : OpenGroup}
    (found : history.groups.opened[index]? = some (key, group))
    (sameRoute : route = group.route)
    (sameValues : groupValues route member.signal = group.by_) :
    Placed platform routes
      { history with
        groups :=
          { history.groups with
            opened :=
              history.groups.opened.set index (key, group.push member) }
        arrivals := history.arrivals ++ [⟨route, member⟩] }
      (owners ++ [group.seq]) batches := by
  have isMember := List.mem_of_getElem? found
  have sameKeys : (history.groups.opened.set index
      (key, group.push member)).map Prod.fst =
        history.groups.opened.map Prod.fst :=
    map_set_same (by rfl) found
  have sameSeqs : (history.groups.opened.set index
      (key, group.push member)).map (fun entry => entry.2.seq) =
        history.groups.opened.map fun entry => entry.2.seq :=
    map_set_same (by rfl) found
  have seqs : ((history.groups.opened.set index
      (key, group.push member)).map fun entry => entry.2.seq).Nodup :=
    sameSeqs ▸ (List.nodup_append.mp placed.numbered).1
  have newMember : (key, group.push member) ∈
      history.groups.opened.set index (key, group.push member) := by
    obtain ⟨bound, _⟩ := List.getElem?_eq_some_iff.mp found
    exact List.mem_set bound _
  have batchNumbers : ∀ batch ∈ batches, group.seq ≠ batch.1 := by
    intro batch isBatch
    exact (List.nodup_append.mp placed.numbered).2.2 _
      (List.mem_map_of_mem isMember) _ (List.mem_map_of_mem isBatch)
  refine
    { batched := placed.batched
      aligned := by
        rw [List.length_append, List.length_append, placed.aligned]
        rfl
      keyed := sameKeys ▸ placed.keyed
      named := ?_
      numbered := by
        dsimp only
        rw [sameSeqs]
        exact placed.numbered
      counted := by
        dsimp only
        rw [sameSeqs]
        exact placed.counted
      owned := ?_
      open_ := ?_
      closed := ?_
      distinct := placed.distinct
      issued := ?_
      ticketed := ?_ }
  · intro entry isEntry
    rcases List.mem_or_eq_of_mem_set isEntry with old | rfl
    · exact placed.named entry old
    · exact placed.named (key, group) isMember
  · intro owner isOwner
    dsimp only
    rw [sameSeqs]
    rcases List.mem_append.mp isOwner with old | new
    · exact placed.owned owner old
    · rw [List.mem_singleton.mp new]
      exact List.mem_append_left _ (List.mem_map.mpr ⟨_, isMember, rfl⟩)
  · intro entry isEntry
    by_cases same : entry.2.seq = group.seq
    · have isNew : entry = (key, group.push member) :=
        List.inj_on_of_nodup_map seqs isEntry newMember same
      rw [isNew]
      have share : allotted (group.push member).seq
          (history.arrivals ++ [⟨route, member⟩])
          (owners ++ [group.seq]) =
            allotted group.seq history.arrivals owners ++
              [⟨route, member⟩] :=
        allotted_snoc_self placed.aligned
      dsimp only
      rw [share]
      exact (placed.open_ _ isMember).snoc sameRoute sameValues
    · have old : entry ∈ history.groups.opened := by
        rcases List.mem_or_eq_of_mem_set isEntry with old | rfl
        · exact old
        · exact absurd rfl same
      dsimp only
      rw [allotted_snoc_of_ne placed.aligned (Ne.symm same)]
      exact placed.open_ entry old
  · intro batch isBatch
    dsimp only
    rw [allotted_snoc_of_ne placed.aligned (batchNumbers batch isBatch)]
    exact placed.closed batch isBatch
  · intro ticket isTicket
    exact issued_snoc group.seq (placed.opener_lt isTicket)
      (placed.issued ticket isTicket)
  · intro entry isEntry
    rcases List.mem_or_eq_of_mem_set isEntry with old | rfl
    · exact placed.ticketed entry old
    · exact placed.ticketed (key, group) isMember

/-- An open group is closed. -/
theorem Placed.close
    (placed : Placed platform routes history owners batches)
    {index : Nat} {key : String} {group : OpenGroup}
    (found : history.groups.opened[index]? = some (key, group)) :
    Placed platform routes
      { history with
        groups := history.groups.remove index
        closed := history.closed ++ [group.toClosed] }
      owners (batches ++ [(group.seq, group.toClosed)]) := by
  have isMember := List.mem_of_getElem? found
  have parts := perm_cons_eraseIdx found
  have kept : ∀ entry ∈ history.groups.opened.eraseIdx index,
      entry ∈ history.groups.opened := fun entry isEntry =>
    List.mem_of_mem_eraseIdx isEntry
  have numbers : ((history.groups.opened.eraseIdx index).map
      (fun entry => entry.2.seq) ++
        (batches ++ [(group.seq, group.toClosed)]).map Prod.fst).Perm
      (history.groups.opened.map (fun entry => entry.2.seq) ++
        batches.map Prod.fst) := by
    have moved := (parts.map fun entry => entry.2.seq).append_right
      (batches.map Prod.fst)
    refine List.Perm.trans ?_ moved
    rw [List.map_append, ← List.append_assoc]
    exact List.perm_append_singleton group.seq _
  refine
    { batched := by rw [List.map_append, placed.batched]; rfl
      aligned := placed.aligned
      keyed := ?_
      named := fun entry isEntry => placed.named entry (kept entry isEntry)
      numbered := numbers.nodup_iff.mpr placed.numbered
      counted := fun number isNumber =>
        placed.counted number (numbers.mem_iff.mp isNumber)
      owned := fun owner isOwner =>
        numbers.mem_iff.mpr (placed.owned owner isOwner)
      open_ := fun entry isEntry => placed.open_ entry (kept entry isEntry)
      closed := ?_
      distinct := placed.distinct
      issued := placed.issued
      ticketed := fun entry isEntry =>
        placed.ticketed entry (kept entry isEntry) }
  · have keys := (parts.map Prod.fst).nodup_iff.mpr placed.keyed
    exact (List.nodup_cons.mp keys).2
  · intro batch isBatch
    rcases List.mem_append.mp isBatch with old | new
    · exact placed.closed batch old
    · rw [List.mem_singleton.mp new]
      exact placed.open_ _ isMember

/-- All open groups are closed. -/
theorem Placed.closeAll
    (placed : Placed platform routes history owners batches) :
    Placed platform routes
      { history with
        groups := { history.groups with opened := [] }
        closed := history.closed ++
          history.groups.opened.map fun entry => entry.2.toClosed }
      owners
      (batches ++ history.groups.opened.map
        fun entry => (entry.2.seq, entry.2.toClosed)) := by
  have numbers : ([].map (fun entry : String × OpenGroup => entry.2.seq) ++
        (batches ++ history.groups.opened.map
          fun entry => (entry.2.seq, entry.2.toClosed)).map Prod.fst).Perm
      (history.groups.opened.map (fun entry => entry.2.seq) ++
        batches.map Prod.fst) := by
    rw [List.map_nil, List.nil_append, List.map_append, List.map_map]
    exact List.perm_append_comm
  refine
    { batched := by rw [List.map_append, placed.batched, List.map_map]; rfl
      aligned := placed.aligned
      keyed := List.nodup_nil
      named := fun entry isEntry => by cases isEntry
      numbered := numbers.nodup_iff.mpr placed.numbered
      counted := fun number isNumber =>
        placed.counted number (numbers.mem_iff.mp isNumber)
      owned := fun owner isOwner =>
        numbers.mem_iff.mpr (placed.owned owner isOwner)
      open_ := fun entry isEntry => by cases isEntry
      closed := ?_
      distinct := placed.distinct
      issued := placed.issued
      ticketed := fun entry isEntry => by cases isEntry }
  intro batch isBatch
  rcases List.mem_append.mp isBatch with old | new
  · exact placed.closed batch old
  · obtain ⟨entry, isEntry, rfl⟩ := List.mem_map.mp new
    exact placed.open_ entry isEntry

/-- A group is opened. -/
theorem Placed.openNew
    (placed : Placed platform routes history owners batches)
    {route : Route} (listed : route ∈ routes) (member : Member)
    (absent : groupKey platform route (groupValues route member.signal) ∉
      history.groups.opened.map Prod.fst) :
    Placed platform routes
      { history with
        groups := (history.groups.openNew
          (groupKey platform route (groupValues route member.signal)) route
          (groupValues route member.signal) member).1
        arrivals := history.arrivals ++ [⟨route, member⟩]
        tickets := history.tickets ++
          [⟨groupKey platform route (groupValues route member.signal),
            history.groups.nextSeq + 1, history.arrivals.length⟩] }
      (owners ++ [history.groups.nextSeq + 1]) batches := by
  have fresh : ∀ number ∈
      history.groups.opened.map (fun entry => entry.2.seq) ++
        batches.map Prod.fst, number ≠ history.groups.nextSeq + 1 := by
    intro number isNumber
    have counted := placed.counted number isNumber
    omega
  have unowned : history.groups.nextSeq + 1 ∉ owners := by
    intro isOwner
    exact fresh _ (placed.owned _ isOwner) rfl
  have numbers :
      ((history.groups.opened ++
          [(groupKey platform route (groupValues route member.signal),
            OpenGroup.start (history.groups.nextSeq + 1) route
              (groupValues route member.signal) member)]).map
          (fun entry => entry.2.seq) ++ batches.map Prod.fst).Perm
        ((history.groups.nextSeq + 1) ::
          (history.groups.opened.map (fun entry => entry.2.seq) ++
            batches.map Prod.fst)) := by
    rw [List.map_append, List.append_assoc]
    exact List.perm_middle
  have ticketOwned : ∀ ticket ∈ history.tickets,
      ticket.seq ≠ history.groups.nextSeq + 1 := by
    intro ticket isTicket
    have isOwner := List.mem_of_getElem? (placed.issued ticket isTicket).1
    exact fresh _ (placed.owned _ isOwner)
  refine
    { batched := placed.batched
      aligned := by
        rw [List.length_append, List.length_append, placed.aligned]
        rfl
      keyed := ?_
      named := ?_
      numbered := ?_
      counted := ?_
      owned := ?_
      open_ := ?_
      closed := ?_
      distinct := ?_
      issued := ?_
      ticketed := ?_ }
  · dsimp only [Groups.openNew]
    rw [List.map_append]
    refine List.Nodup.append placed.keyed (List.nodup_singleton _) ?_
    intro key isKey isNew
    rw [List.mem_singleton.mp isNew] at isKey
    exact absent isKey
  · intro entry isEntry
    rcases List.mem_append.mp isEntry with old | new
    · exact placed.named entry old
    · rw [List.mem_singleton.mp new]
      exact ⟨listed, rfl⟩
  · refine numbers.nodup_iff.mpr (List.nodup_cons.mpr ⟨?_, placed.numbered⟩)
    intro isNumber
    exact fresh _ isNumber rfl
  · intro number isNumber
    rcases List.mem_cons.mp (numbers.mem_iff.mp isNumber) with new | old
    · exact new.le
    · exact (placed.counted number old).trans (Nat.le_succ _)
  · intro owner isOwner
    refine numbers.mem_iff.mpr ?_
    rcases List.mem_append.mp isOwner with old | new
    · exact List.mem_cons_of_mem _ (placed.owned owner old)
    · rw [List.mem_singleton.mp new]
      exact List.mem_cons_self
  · intro entry isEntry
    rcases List.mem_append.mp isEntry with old | new
    · have other := fresh entry.2.seq
        (List.mem_append_left _ (List.mem_map.mpr ⟨entry, old, rfl⟩))
      dsimp only
      rw [allotted_snoc_of_ne placed.aligned (Ne.symm other)]
      exact placed.open_ entry old
    · rw [List.mem_singleton.mp new]
      have share : allotted (history.groups.nextSeq + 1)
          (history.arrivals ++ [⟨route, member⟩])
          (owners ++ [history.groups.nextSeq + 1]) = [⟨route, member⟩] := by
        rw [allotted_snoc_self placed.aligned, allotted_eq_nil unowned]
        rfl
      dsimp only [OpenGroup.start]
      rw [share]
      refine ⟨rfl, ?_⟩
      intro arrival isArrival
      rw [List.mem_singleton.mp isArrival]
      exact ⟨rfl, rfl⟩
  · intro batch isBatch
    have other := fresh batch.1
      (List.mem_append_right _ (List.mem_map_of_mem isBatch))
    dsimp only
    rw [allotted_snoc_of_ne placed.aligned (Ne.symm other)]
    exact placed.closed batch isBatch
  · rw [List.map_append]
    refine List.Nodup.append placed.distinct (List.nodup_singleton _) ?_
    intro seq isSeq isNew
    obtain ⟨ticket, isTicket, rfl⟩ := List.mem_map.mp isSeq
    exact ticketOwned ticket isTicket (List.mem_singleton.mp isNew)
  · intro ticket isTicket
    rcases List.mem_append.mp isTicket with old | new
    · exact issued_snoc _ (placed.opener_lt old) (placed.issued ticket old)
    · rw [List.mem_singleton.mp new, ← placed.aligned]
      refine ⟨by simp, ?_⟩
      intro earlier before
      rw [List.getElem?_append_left before]
      intro same
      exact unowned (List.mem_of_getElem? same)
  · intro entry isEntry
    rcases List.mem_append.mp isEntry with old | new
    · obtain ⟨ticket, isTicket, same⟩ := placed.ticketed entry old
      exact ⟨ticket, List.mem_append_left _ isTicket, same⟩
    · rw [List.mem_singleton.mp new]
      exact ⟨_, List.mem_append_right _ List.mem_cons_self, rfl, rfl⟩

/-! ## Sizes -/

/-- Open groups are not full, and closed ones not more than full. -/
structure Sized (groups : Groups) (batches : List Closed) : Prop where
  open_ : ∀ entry ∈ groups.opened, entry.2.members.length < maxGroupSize
  closed : ∀ closed ∈ batches, closed.members.length ≤ maxGroupSize

theorem sized_initial : Sized {} [] where
  open_ _ member := by cases member
  closed _ member := by cases member

private theorem Sized.close
    {groups : Groups} {batches : List Closed} (sized : Sized groups batches)
    (index : Nat) {closed : Closed}
    (small : closed.members.length ≤ maxGroupSize) :
    Sized (groups.remove index) (batches ++ [closed]) where
  open_ entry member :=
    sized.open_ entry (List.mem_of_mem_eraseIdx member)
  closed other member := by
    rcases List.mem_append.mp member with old | new
    · exact sized.closed other old
    · rw [List.mem_singleton.mp new]
      exact small

/-! ## Steps -/

/-- Every member is in one group, which is not too large. -/
structure AccountedFor
    (platform : Platform) (routes : List Route) (history : GroupHistory) :
    Prop where
  placed : ∃ owners batches,
    Placed platform routes history owners batches
  sized : Sized history.groups history.closed

theorem accountedFor_add
    (keys : KeysApart platform routes) {route : Route}
    (listed : route ∈ routes) (member : Member)
    (accounted : AccountedFor platform routes history) :
    AccountedFor platform routes (history.add platform route member) := by
  obtain ⟨⟨owners, batches, placed⟩, sized⟩ := accounted
  cases found : history.groups.lookup
      (groupKey platform route (groupValues route member.signal)) with
  | none =>
      have added : history.groups.add platform route member =
          history.groups.openNew
            (groupKey platform route (groupValues route member.signal)) route
            (groupValues route member.signal) member := by
        rw [Groups.add_eq]
        simp only [found]
      rw [GroupHistory.add, added]
      refine ⟨⟨_, _, placed.openNew listed member
        (Groups.lookup_eq_none found)⟩, ⟨?_, sized.closed⟩⟩
      intro entry isEntry
      rcases List.mem_append.mp isEntry with old | new
      · exact sized.open_ entry old
      · have one : 1 < maxGroupSize := by decide
        rw [List.mem_singleton.mp new]
        exact one
  | some place =>
      obtain ⟨index, group⟩ := place
      have added : history.groups.add platform route member =
          history.groups.joinAt index
            (groupKey platform route (groupValues route member.signal))
            group member := by
        rw [Groups.add_eq]
        simp only [found]
      have entry := Groups.lookup_eq_some found
      obtain ⟨groupListed, named⟩ :=
        placed.named _ (List.mem_of_getElem? entry)
      obtain ⟨sameRoute, sameValues⟩ :=
        eq_of_groupKey_eq keys listed groupListed named
      have joined := placed.join entry sameRoute sameValues
      have small := sized.open_ _ (List.mem_of_getElem? entry)
      by_cases room : (group.push member).members.length < maxGroupSize
      · have result : history.groups.joinAt index
            (groupKey platform route (groupValues route member.signal))
            group member =
              ({ history.groups with
                  opened := history.groups.opened.set index
                    (groupKey platform route
                      (groupValues route member.signal),
                      group.push member) },
                .joined) := by
          simp only [Groups.joinAt, room, if_true]
        rw [GroupHistory.add, added, result]
        refine ⟨⟨_, _, joined⟩, ⟨?_, sized.closed⟩⟩
        intro other isOther
        rcases List.mem_or_eq_of_mem_set isOther with old | rfl
        · exact sized.open_ other old
        · exact room
      · have result : history.groups.joinAt index
            (groupKey platform route (groupValues route member.signal))
            group member =
              (history.groups.remove index,
                .full (group.push member).toClosed) := by
          simp only [Groups.joinAt, room, if_false]
        obtain ⟨bound, _⟩ := List.getElem?_eq_some_iff.mp entry
        have closed := joined.close (List.getElem?_set_self bound)
        simp only [Groups.remove, List.eraseIdx_set_eq] at closed
        rw [GroupHistory.add, added, result]
        refine ⟨⟨_, _, closed⟩, ?_⟩
        apply sized.close
        have length : (group.push member).members.length =
            group.members.length + 1 := by
          simp [OpenGroup.push]
        rw [length]
        exact small

theorem accountedFor_take
    {key : String} {seq : Nat} {groups : Groups} {closed : Closed}
    (taken : history.groups.take key seq = some (groups, closed))
    (accounted : AccountedFor platform routes history) :
    AccountedFor platform routes
      { history with
        groups := groups
        closed := history.closed ++ [closed] } := by
  obtain ⟨⟨owners, batches, placed⟩, sized⟩ := accounted
  rw [Groups.take_eq] at taken
  cases found : history.groups.lookup key with
  | none =>
      simp only [found] at taken
      cases taken
  | some place =>
      obtain ⟨index, group⟩ := place
      have entry := Groups.lookup_eq_some found
      simp only [found] at taken
      split at taken
      · cases taken
        exact ⟨⟨_, _, placed.close entry⟩, sized.close _
          (sized.open_ _ (List.mem_of_getElem? entry)).le⟩
      · cases taken

theorem accountedFor_takeAll
    (accounted : AccountedFor platform routes history) :
    AccountedFor platform routes
      { history with
        groups := history.groups.takeAll.1
        closed := history.closed ++ history.groups.takeAll.2 } := by
  obtain ⟨⟨owners, batches, placed⟩, sized⟩ := accounted
  refine ⟨⟨_, _, placed.closeAll⟩, ⟨(fun _ member => by cases member), ?_⟩⟩
  intro closed isClosed
  rcases List.mem_append.mp isClosed with old | new
  · exact sized.closed closed old
  · obtain ⟨entry, isEntry, rfl⟩ := List.mem_map.mp new
    exact (sized.open_ entry isEntry).le

theorem accountedFor_step
    (keys : KeysApart platform routes) {call : GroupCall}
    {next : GroupHistory} (listed : call.routeIn routes)
    (accounted : AccountedFor platform routes history)
    (stepped : history.step platform call = some next) :
    AccountedFor platform routes next := by
  cases call with
  | add route member =>
      cases stepped
      exact accountedFor_add keys listed member accounted
  | take key seq =>
      simp only [GroupHistory.step] at stepped
      cases taken : history.groups.take key seq with
      | none =>
          simp only [taken, Option.some.injEq] at stepped
          exact stepped ▸ accounted
      | some result =>
          obtain ⟨groups, closed⟩ := result
          simp only [taken, Option.some.injEq] at stepped
          exact stepped ▸ accountedFor_take taken accounted
  | takeAll =>
      cases stepped
      exact accountedFor_takeAll accounted

theorem accountedFor_of_reaches
    (keys : KeysApart platform routes) {calls : List GroupCall}
    (reached :
      Reaches (GroupHistory.step platform)
        (fun _ call => call.routeIn routes) {} calls history) :
    AccountedFor platform routes history := by
  induction reached with
  | nil => exact ⟨⟨[], [], placed_initial⟩, sized_initial⟩
  | snoc _ listed stepped inductionHypothesis =>
      exact accountedFor_step keys listed inductionHypothesis stepped

/-! ## What the callers can rely on -/

/-- Together the groups have every member, each once. -/
theorem Placed.members_perm
    (placed : Placed platform routes history owners batches) :
    (history.groups.opened.flatMap (fun entry => entry.2.members) ++
        history.closed.flatMap Closed.members).Perm
      (history.arrivals.map Arrival.member) := by
  have everyone := (flatMap_allotted_perm placed.numbered placed.aligned
    placed.owned).map Arrival.member
  refine List.Perm.trans (List.Perm.of_eq ?_) everyone
  rw [List.map_flatMap, List.flatMap_append, List.flatMap_map,
    List.flatMap_map, ← placed.batched, List.flatMap_map]
  congr 1
  · apply List.flatMap_congr
    intro entry isEntry
    exact (placed.open_ entry isEntry).members
  · apply List.flatMap_congr
    intro batch isBatch
    exact (placed.closed batch isBatch).members

/-- What `take` closes was opened by the call that got its ticket. -/
theorem Placed.take_own
    (placed : Placed platform routes history owners batches)
    {key : String} {seq : Nat} {groups : Groups} {closed : Closed}
    (taken : history.groups.take key seq = some (groups, closed)) :
    ∃ ticket ∈ history.tickets, ticket.key = key ∧ ticket.seq = seq ∧
      Gathers (allotted seq history.arrivals owners) closed ∧
      closed.members.head? =
        history.arrivals[ticket.opener]?.map Arrival.member := by
  rw [Groups.take_eq] at taken
  cases found : history.groups.lookup key with
  | none =>
      simp only [found] at taken
      cases taken
  | some place =>
      obtain ⟨index, group⟩ := place
      have member := List.mem_of_getElem? (Groups.lookup_eq_some found)
      simp only [found] at taken
      split at taken
      · rename_i sameSeq
        cases taken
        obtain ⟨ticket, isTicket, sameKey, ticketSeq⟩ :=
          placed.ticketed _ member
        have gathers := placed.open_ _ member
        obtain ⟨isOwner, first⟩ := placed.issued ticket isTicket
        refine ⟨ticket, isTicket, sameKey, ticketSeq.trans sameSeq,
          sameSeq ▸ gathers, ?_⟩
        rw [gathers.members, List.head?_map]
        dsimp only
        rw [← ticketSeq, head?_allotted isOwner first]
      · cases taken

/-- Exactly one ticket closes an open group. -/
theorem Placed.one_ticket
    (placed : Placed platform routes history owners batches)
    {entry : String × OpenGroup} (member : entry ∈ history.groups.opened) :
    ∃ ticket ∈ history.tickets, ticket.key = entry.1 ∧
      (∃ groups, history.groups.take ticket.key ticket.seq =
        some (groups, entry.2.toClosed)) ∧
      ∀ other ∈ history.tickets, other.key = entry.1 →
        (history.groups.take other.key other.seq).isSome = true →
        other = ticket := by
  obtain ⟨ticket, isTicket, sameKey, sameSeq⟩ := placed.ticketed entry member
  obtain ⟨index, found⟩ := Groups.lookup_of_mem placed.keyed member
  refine ⟨ticket, isTicket, sameKey, ⟨history.groups.remove index, ?_⟩, ?_⟩
  · rw [Groups.take_eq, sameKey]
    simp only [found, sameSeq, if_true]
  · intro other isOther otherKey takes
    rw [Groups.take_eq, otherKey] at takes
    simp only [found] at takes
    split at takes
    · rename_i otherSeq
      exact List.inj_on_of_nodup_map placed.distinct isOther isTicket
        (otherSeq.symm.trans sameSeq.symm)
    · cases takes

/-- In every run, every member that was added is in one group and stands
there in the order of arrival, on the route and with the values of its
group; the groups keep their sizes; `take` closes the group of its ticket
and no other; and every open group has one ticket that closes it. -/
theorem groups_keep_members
    (keys : KeysApart platform routes) {calls : List GroupCall}
    (reached :
      Reaches (GroupHistory.step platform)
        (fun _ call => call.routeIn routes) {} calls history) :
    ∃ owners batches, Placed platform routes history owners batches ∧
      Sized history.groups history.closed ∧
      (history.groups.opened.flatMap (fun entry => entry.2.members) ++
          history.closed.flatMap Closed.members).Perm
        (history.arrivals.map Arrival.member) ∧
      (∀ key seq groups closed,
        history.groups.take key seq = some (groups, closed) →
          ∃ ticket ∈ history.tickets,
            ticket.key = key ∧ ticket.seq = seq ∧
            Gathers (allotted seq history.arrivals owners) closed ∧
            closed.members.head? =
              history.arrivals[ticket.opener]?.map Arrival.member) ∧
      ∀ entry ∈ history.groups.opened,
        ∃ ticket ∈ history.tickets, ticket.key = entry.1 ∧
          (∃ groups, history.groups.take ticket.key ticket.seq =
            some (groups, entry.2.toClosed)) ∧
          ∀ other ∈ history.tickets, other.key = entry.1 →
            (history.groups.take other.key other.seq).isSome = true →
            other = ticket := by
  obtain ⟨⟨owners, batches, placed⟩, sized⟩ :=
    accountedFor_of_reaches keys reached
  refine ⟨owners, batches, placed, sized, placed.members_perm, ?_, ?_⟩
  · intro key seq groups closed taken
    exact placed.take_own taken
  · intro entry member
    exact placed.one_ticket member

/-! ## A sample run -/

/-- One digest for each source. -/
def sourceRoute : Route where
  providers := ["slack"]
  groupBy := some ["source"]

def groupPlatform : Platform where
  sha256 _ := ""
  showTime _ := ""

def sourceMember (source title : String) : Member where
  signal := Signal.fromInput groupPlatform title 0
    { source := source, eventType := "test", title := title }
  admission := {}
  ownsRow := true

/-- A group is opened again under the same key after its timer ran out, and
the timer's second call comes too late. -/
def sourceCalls : List GroupCall :=
  [.add sourceRoute (sourceMember "dbt" "first"),
    .add sourceRoute (sourceMember "host" "second"),
    .add sourceRoute (sourceMember "dbt" "third"),
    .take (groupKey groupPlatform sourceRoute [("source", some "dbt")]) 1,
    .add sourceRoute (sourceMember "dbt" "fourth"),
    .take (groupKey groupPlatform sourceRoute [("source", some "dbt")]) 1,
    .takeAll]

def sourceHistory : GroupHistory :=
  (run (GroupHistory.step groupPlatform)
    (fun _ call => call.routeIn [sourceRoute]) {} sourceCalls).getD {}

private theorem keysApart_source :
    KeysApart groupPlatform [sourceRoute] := by
  refine ⟨?_, by decide⟩
  intro left leftMember right rightMember _
  rw [List.mem_singleton.mp leftMember, List.mem_singleton.mp rightMember]

theorem groups_keep_members_source :
    ∃ owners batches,
      Placed groupPlatform [sourceRoute] sourceHistory owners batches ∧
      Sized sourceHistory.groups sourceHistory.closed := by
  have reached : Reaches (GroupHistory.step groupPlatform)
      (fun _ call => call.routeIn [sourceRoute]) {} sourceCalls
      sourceHistory := by
    apply reaches_of_isSome
    decide +kernel
  obtain ⟨owners, batches, placed, sized, _⟩ :=
    groups_keep_members keysApart_source reached
  exact ⟨owners, batches, placed, sized⟩

end OpsSignal
