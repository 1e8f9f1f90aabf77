import Mathlib.Data.List.Chain
import Mathlib.Data.List.Nodup
import Mathlib.Logic.Relation

/-!
# Depth-first order

A graph whose nodes have keys, and the order in which a depth-first search
leaves them.  The search keeps the keys of the nodes it has not left yet
and of those it has.  It passes by a node whose key it has left, and gets
stuck at one whose key is still open or that has no list of parents.

The relation below is such a search that does not get stuck.  A condition
on what the search meets can be put on it, so that searches with different
limits are one relation.
-/

namespace DepthFirst

universe u v

variable {Node : Type u} {Key : Type v}

/-- One node names the other as a parent. -/
def Names (parents : Node → Option (List Node)) (node parent : Node) :
    Prop :=
  ∃ above, parents node = some above ∧ parent ∈ above

/-- The nodes that can be reached from a list of them. -/
def Reached
    (parents : Node → Option (List Node)) (roots : List Node)
    (node : Node) : Prop :=
  ∃ root ∈ roots, Relation.ReflTransGen (Names parents) root node

/-- The search of a list of nodes: the keys that are open and the keys
that were left when it starts, and the nodes it leaves, in order. -/
inductive Visits
    (key : Node → Key) (parents : Node → Option (List Node))
    (meets : List Key → List Key → Node → Prop) :
    List Key → List Key → List Node → List Node → Prop
  | nil {stack seen : List Key} : Visits key parents meets stack seen [] []
  | pass {stack seen : List Key} {node : Node} {rest out : List Node} :
      key node ∉ stack → key node ∈ seen → meets stack seen node →
        Visits key parents meets stack seen rest out →
          Visits key parents meets stack seen (node :: rest) out
  | enter {stack seen : List Key} {node : Node}
      {above inner rest out : List Node} :
      key node ∉ stack → key node ∉ seen → meets stack seen node →
        parents node = some above →
          Visits key parents meets (stack ++ [key node]) seen above inner →
            Visits key parents meets stack
              (seen ++ (inner ++ [node]).map key) rest out →
              Visits key parents meets stack seen (node :: rest)
                (inner ++ node :: out)

namespace Visits

variable {key : Node → Key} {parents others : Node → Option (List Node)}
  {meets weaker : List Key → List Key → Node → Prop}
  {stack seen : List Key} {todo out : List Node}

/-! ## What a search leaves -/

/-- It leaves a key at most once, and none that was open or left
before. -/
theorem fresh (visits : Visits key parents meets stack seen todo out) :
    (out.map key).Nodup ∧
      ∀ node ∈ out, key node ∉ stack ∧ key node ∉ seen := by
  induction visits with
  | nil => simp
  | pass _ _ _ _ inductionHypothesis => exact inductionHypothesis
  | @enter stack seen node above inner rest out closed unseen _ _ _ _
      innerHypothesis restHypothesis =>
      obtain ⟨innerNodup, innerFresh⟩ := innerHypothesis
      obtain ⟨restNodup, restFresh⟩ := restHypothesis
      have nodeNotInner : key node ∉ inner.map key := by
        intro listed
        obtain ⟨other, member, same⟩ := List.mem_map.mp listed
        apply (innerFresh other member).1
        rw [same]
        exact List.mem_append_right _ (List.mem_singleton_self _)
      have restApart : ∀ other ∈ out,
          key other ∉ (inner ++ [node]).map key := by
        intro other member listed
        exact (restFresh other member).2 (List.mem_append_right _ listed)
      refine ⟨?_, ?_⟩
      · have split : (inner ++ node :: out).map key =
            (inner ++ [node]).map key ++ out.map key := by
          simp
        rw [split, List.nodup_append']
        refine ⟨?_, restNodup, ?_⟩
        · rw [List.map_append, List.nodup_append']
          refine ⟨innerNodup, List.nodup_singleton _, ?_⟩
          intro wanted left right
          rw [List.map_singleton, List.mem_singleton] at right
          exact nodeNotInner (right ▸ left)
        · intro wanted left right
          obtain ⟨other, member, same⟩ := List.mem_map.mp right
          exact restApart other member (same ▸ left)
      · intro other member
        rcases List.mem_append.mp member with inInner | later
        · refine ⟨fun opened => ?_, (innerFresh other inInner).2⟩
          exact (innerFresh other inInner).1
            (List.mem_append_left _ opened)
        · rcases List.mem_cons.mp later with rfl | inRest
          · exact ⟨closed, unseen⟩
          · refine ⟨(restFresh other inRest).1, fun left => ?_⟩
            exact (restFresh other inRest).2 (List.mem_append_left _ left)

/-- Every node it leaves has a list of parents. -/
theorem entered (visits : Visits key parents meets stack seen todo out) :
    ∀ node ∈ out, ∃ above, parents node = some above := by
  induction visits with
  | nil => simp
  | pass _ _ _ _ inductionHypothesis => exact inductionHypothesis
  | @enter stack seen node above inner rest out _ _ _ isAbove _ _
      innerHypothesis restHypothesis =>
      intro other member
      rcases List.mem_append.mp member with inInner | later
      · exact innerHypothesis other inInner
      · rcases List.mem_cons.mp later with rfl | inRest
        · exact ⟨above, isAbove⟩
        · exact restHypothesis other inRest

/-- Every node it leaves met the condition when it was entered. -/
theorem met (visits : Visits key parents meets stack seen todo out) :
    ∀ node ∈ out, ∃ opened left, key node ∉ left ∧
      meets opened left node := by
  induction visits with
  | nil => simp
  | pass _ _ _ _ inductionHypothesis => exact inductionHypothesis
  | @enter stack seen node above inner rest out _ unseen here _ _ _
      innerHypothesis restHypothesis =>
      intro other member
      rcases List.mem_append.mp member with inInner | later
      · exact innerHypothesis other inInner
      · rcases List.mem_cons.mp later with rfl | inRest
        · exact ⟨stack, seen, unseen, here⟩
        · exact restHypothesis other inRest

/-- Every node it leaves can be reached. -/
theorem reached (visits : Visits key parents meets stack seen todo out) :
    ∀ node ∈ out, Reached parents todo node := by
  induction visits with
  | nil => simp
  | pass _ _ _ _ inductionHypothesis =>
      intro other member
      obtain ⟨root, isRoot, path⟩ := inductionHypothesis other member
      exact ⟨root, List.mem_cons_of_mem _ isRoot, path⟩
  | @enter stack seen node above inner rest out _ _ _ isAbove _ _
      innerHypothesis restHypothesis =>
      intro other member
      rcases List.mem_append.mp member with inInner | later
      · obtain ⟨root, isRoot, path⟩ := innerHypothesis other inInner
        exact ⟨node, List.mem_cons_self,
          Relation.ReflTransGen.head ⟨above, isAbove, isRoot⟩ path⟩
      · rcases List.mem_cons.mp later with rfl | inRest
        · exact ⟨other, List.mem_cons_self, Relation.ReflTransGen.refl⟩
        · obtain ⟨root, isRoot, path⟩ := restHypothesis other inRest
          exact ⟨root, List.mem_cons_of_mem _ isRoot, path⟩

/-- No key it is asked for is missing afterwards. -/
theorem listed (visits : Visits key parents meets stack seen todo out) :
    ∀ node ∈ todo, key node ∈ seen ++ out.map key := by
  induction visits with
  | nil => simp
  | pass _ left _ _ inductionHypothesis =>
      intro other member
      rcases List.mem_cons.mp member with rfl | inRest
      · exact List.mem_append_left _ left
      · exact inductionHypothesis other inRest
  | @enter stack seen node above inner rest out _ _ _ _ _ _ _
      restHypothesis =>
      intro other member
      rcases List.mem_cons.mp member with rfl | inRest
      · simp
      · have later := restHypothesis other inRest
        simpa [or_assoc] using later

/-- It leaves a node after all of its parents. -/
theorem parents_before
    (visits : Visits key parents meets stack seen todo out) :
    ∀ before node after, out = before ++ node :: after →
      ∀ parent, Names parents node parent →
        key parent ∈ seen ++ before.map key := by
  induction visits with
  | nil => simp
  | pass _ _ _ _ inductionHypothesis => exact inductionHypothesis
  | @enter stack seen node above inner rest out _ _ _ isAbove inside _
      innerHypothesis restHypothesis =>
      intro before other after split parent names
      rcases List.append_eq_append_iff.mp split with
        ⟨between, isBefore, isOut⟩ | ⟨between, isInner, isAfter⟩
      · cases between with
        | nil =>
            rw [List.nil_append, List.cons.injEq] at isOut
            obtain ⟨rfl, _⟩ := isOut
            obtain ⟨named, isNamed, member⟩ := names
            rw [isAbove, Option.some.injEq] at isNamed
            subst isNamed
            rw [isBefore, List.append_nil]
            exact inside.listed parent member
        | cons first between =>
            rw [List.cons_append, List.cons.injEq] at isOut
            obtain ⟨rfl, isOut⟩ := isOut
            have later := restHypothesis between other after isOut parent
              names
            rw [isBefore]
            simpa [or_assoc] using later
      · cases between with
        | nil =>
            rw [List.nil_append, List.cons.injEq] at isAfter
            obtain ⟨rfl, _⟩ := isAfter
            obtain ⟨named, isNamed, member⟩ := names
            rw [isAbove, Option.some.injEq] at isNamed
            subst isNamed
            have known := inside.listed parent member
            rw [isInner, List.append_nil] at known
            exact known
        | cons first between =>
            rw [List.cons_append, List.cons.injEq] at isAfter
            obtain ⟨rfl, _⟩ := isAfter
            exact innerHypothesis before other between isInner parent names

/-! ## Other graphs and other conditions -/

theorem weaken (visits : Visits key parents meets stack seen todo out)
    (implied : ∀ stack seen node, meets stack seen node →
      weaker stack seen node) :
    Visits key parents weaker stack seen todo out := by
  induction visits with
  | nil => exact nil
  | pass closed left met _ inductionHypothesis =>
      exact pass closed left (implied _ _ _ met) inductionHypothesis
  | enter closed unseen met isAbove _ _ innerHypothesis restHypothesis =>
      exact enter closed unseen (implied _ _ _ met) isAbove innerHypothesis
        restHypothesis

/-- A search depends only on the nodes that it leaves. -/
theorem replay (visits : Visits key parents meets stack seen todo out)
    (same : ∀ node ∈ out, others node = parents node)
    (implied : ∀ stack seen node, key node ∈ seen ∨ node ∈ out →
      meets stack seen node → weaker stack seen node) :
    Visits key others weaker stack seen todo out := by
  induction visits with
  | nil => exact nil
  | pass closed left met _ inductionHypothesis =>
      exact pass closed left (implied _ _ _ (Or.inl left) met)
        (inductionHypothesis same implied)
  | @enter stack seen node above inner rest out closed unseen met isAbove
      _ _ innerHypothesis restHypothesis =>
      have here : node ∈ inner ++ node :: out :=
        List.mem_append_right _ List.mem_cons_self
      refine enter closed unseen (implied _ _ _ (Or.inr here) met)
        ((same node here).trans isAbove) ?_ ?_
      · apply innerHypothesis
        · intro other member
          exact same other (List.mem_append_left _ member)
        · intro stack seen other known met
          exact implied stack seen other
            (known.imp_right (List.mem_append_left _)) met
      · apply restHypothesis
        · intro other member
          exact same other
            (List.mem_append_right _ (List.mem_cons_of_mem _ member))
        · intro stack seen other known met
          exact implied stack seen other (known.imp_right fun member =>
            List.mem_append_right _ (List.mem_cons_of_mem _ member)) met

/-- Two searches of the same nodes leave the same. -/
theorem unique {other : List Node}
    (visits : Visits key parents meets stack seen todo out)
    (again : Visits key parents weaker stack seen todo other) :
    other = out := by
  induction visits generalizing other with
  | nil =>
      cases again
      rfl
  | pass _ left _ _ inductionHypothesis =>
      cases again with
      | pass _ _ _ rest => exact inductionHypothesis rest
      | enter _ unseen => exact absurd left unseen
  | @enter stack seen node above inner rest out _ unseen _ isAbove _ _
      innerHypothesis restHypothesis =>
      cases again with
      | pass _ left => exact absurd left unseen
      | enter _ _ _ isOther inside later =>
          rw [isAbove, Option.some.injEq] at isOther
          subst isOther
          have sameInner := innerHypothesis inside
          subst sameInner
          rw [restHypothesis later]

/-- A search goes on where the one before it ends. -/
theorem append {first second out later : List Node}
    (visits : Visits key parents meets stack seen first out)
    (after : Visits key parents meets stack (seen ++ out.map key) second
      later) :
    Visits key parents meets stack seen (first ++ second)
      (out ++ later) := by
  induction visits with
  | nil => simpa using after
  | pass closed left met _ inductionHypothesis =>
      exact pass closed left met (inductionHypothesis after)
  | @enter stack seen node above inner rest out closed unseen met isAbove
      inside _ _ restHypothesis =>
      rw [List.append_assoc, List.cons_append]
      refine enter closed unseen met isAbove inside (restHypothesis ?_)
      simpa using after

/-! ## Whole searches -/

section Whole

variable {roots : List Node}

/-- Where keys tell the reached nodes apart, the search leaves all of
them. -/
theorem complete (visits : Visits key parents meets [] [] roots out)
    (tell : ∀ left right, Reached parents roots left →
      Reached parents roots right → key left = key right → left = right)
    {node : Node} (reach : Reached parents roots node) : node ∈ out := by
  have of_key : ∀ wanted, Reached parents roots wanted →
      key wanted ∈ out.map key → wanted ∈ out := by
    intro wanted reach known
    obtain ⟨found, member, same⟩ := List.mem_map.mp known
    rw [← tell found wanted (visits.reached found member) reach same]
    exact member
  obtain ⟨root, isRoot, path⟩ := reach
  induction path with
  | refl =>
      exact of_key root ⟨root, isRoot, Relation.ReflTransGen.refl⟩
        (by simpa using visits.listed root isRoot)
  | @tail middle last path names inductionHypothesis =>
      obtain ⟨before, after, split⟩ :=
        List.append_of_mem inductionHypothesis
      have known := visits.parents_before before middle after split last
        names
      apply of_key last ⟨root, isRoot, path.tail names⟩
      rw [split, List.map_append]
      exact List.mem_append_left _ (by simpa using known)

/-- Where keys tell the reached nodes apart, no cycle can be reached. -/
theorem acyclic [DecidableEq Key]
    (visits : Visits key parents meets [] [] roots out)
    (tell : ∀ left right, Reached parents roots left →
      Reached parents roots right → key left = key right → left = right)
    {node : Node} (reach : Reached parents roots node) :
    ¬ Relation.TransGen (Names parents) node node := by
  have earlier : ∀ child parent, Reached parents roots child →
      Names parents child parent →
        (out.map key).idxOf (key parent) <
          (out.map key).idxOf (key child) := by
    intro child parent reach names
    obtain ⟨before, after, split⟩ :=
      List.append_of_mem (visits.complete tell reach)
    have known := visits.parents_before before child after split parent
      names
    rw [List.nil_append] at known
    have distinct := visits.fresh.1
    rw [split, List.map_append, List.map_cons] at distinct ⊢
    have late : key child ∉ before.map key := by
      intro again
      exact (List.disjoint_of_nodup_append distinct) again
        List.mem_cons_self
    rw [List.idxOf_append_of_mem known,
      List.idxOf_append_of_notMem late, List.idxOf_cons_self,
      Nat.add_zero]
    exact List.idxOf_lt_length_of_mem known
  have along : ∀ last, Relation.TransGen (Names parents) node last →
      (out.map key).idxOf (key last) < (out.map key).idxOf (key node) := by
    intro last path
    induction path with
    | single names => exact earlier node _ reach names
    | @tail middle last path names inductionHypothesis =>
        obtain ⟨root, isRoot, toNode⟩ := reach
        have toMiddle : Reached parents roots middle :=
          ⟨root, isRoot, toNode.trans path.to_reflTransGen⟩
        exact (earlier middle last toMiddle names).trans inductionHypothesis
  intro cycle
  exact Nat.lt_irrefl _ (along node cycle)

end Whole

/-! ## Limits -/

/-- Each path from a node fits under the nodes that are open. -/
def Shallow
    (parents : Node → Option (List Node)) (depth : Nat) (stack : List Key)
    (node : Node) : Prop :=
  ∀ path, List.IsChain (Names parents) (node :: path) →
    stack.length + (node :: path).length ≤ depth

/-- The limits that a search meets: a node that is entered finds fewer
nodes entered than the limit, and one that is passed by is not the start
of a path that is too long. -/
def Within
    (key : Node → Key) (parents : Node → Option (List Node))
    (depth limit : Nat) (meets : List Key → List Key → Node → Prop)
    (stack seen : List Key) (node : Node) : Prop :=
  meets stack seen node ∧
    (key node ∉ seen → stack.length + seen.length < limit) ∧
      (key node ∈ seen → Shallow parents depth stack node)

/-- A search that leaves few nodes, from nodes with short paths, meets the
limits. -/
theorem within {depth limit : Nat}
    (visits : Visits key parents meets stack seen todo out)
    (few : stack.length + seen.length + out.length ≤ limit)
    (short : ∀ node ∈ todo, Shallow parents depth stack node) :
    Visits key parents (Within key parents depth limit meets) stack seen
      todo out := by
  induction visits with
  | nil => exact nil
  | @pass stack seen node rest out closed left met _
      inductionHypothesis =>
      refine pass closed left ⟨met, fun unseen => absurd left unseen,
        fun _ => short node List.mem_cons_self⟩ ?_
      exact inductionHypothesis few fun other member =>
        short other (List.mem_cons_of_mem _ member)
  | @enter stack seen node above inner rest out closed unseen met isAbove
      _ _ innerHypothesis restHypothesis =>
      simp only [List.length_append, List.length_cons] at few
      refine enter closed unseen ⟨met, fun _ => by omega,
        fun left => absurd left unseen⟩ isAbove ?_ ?_
      · apply innerHypothesis
        · simp only [List.length_append, List.length_singleton]
          omega
        · intro parent member path chain
          have longer := short node List.mem_cons_self (parent :: path)
            (List.isChain_cons_cons.mpr ⟨⟨above, isAbove, member⟩, chain⟩)
          simp only [List.length_append, List.length_cons,
            List.length_nil] at longer ⊢
          omega
      · apply restHypothesis
        · simp only [List.length_append, List.length_map,
            List.length_singleton]
          omega
        · intro other member
          exact short other (List.mem_cons_of_mem _ member)

/-- A search that meets the limits leaves few nodes. -/
theorem length_le {depth limit : Nat}
    (visits : Visits key parents (Within key parents depth limit meets)
      stack seen todo out) :
    out = [] ∨ stack.length + seen.length + out.length ≤ limit := by
  induction visits with
  | nil => exact Or.inl rfl
  | pass _ _ _ _ inductionHypothesis => exact inductionHypothesis
  | @enter stack seen node above inner rest out _ unseen met _ _ _
      innerHypothesis restHypothesis =>
      right
      have room := met.2.1 unseen
      simp only [List.length_append, List.length_map,
        List.length_singleton] at innerHypothesis restHypothesis
      simp only [List.length_append, List.length_cons]
      rcases restHypothesis with rfl | rest
      · rcases innerHypothesis with rfl | inside
        · simp only [List.length_nil]
          omega
        · simp only [List.length_nil]
          omega
      · omega

/-- From where a search that meets the limits starts, all paths are
short. -/
theorem shallow {depth limit : Nat}
    (visits : Visits key parents (Within key parents depth limit meets)
      stack seen todo out)
    (low : ∀ stack seen node, meets stack seen node → key node ∉ seen →
      stack.length < depth) :
    ∀ node ∈ todo, Shallow parents depth stack node := by
  induction visits with
  | nil => simp
  | @pass stack seen node rest out _ left met _ inductionHypothesis =>
      intro other member
      rcases List.mem_cons.mp member with rfl | inRest
      · exact met.2.2 left
      · exact inductionHypothesis other inRest
  | @enter stack seen node above inner rest out _ unseen met isAbove _ _
      innerHypothesis restHypothesis =>
      intro other member
      rcases List.mem_cons.mp member with rfl | inRest
      · intro path chain
        have open_ := low stack seen other met.1 unseen
        cases path with
        | nil =>
            simp only [List.length_cons, List.length_nil]
            omega
        | cons parent path =>
            obtain ⟨⟨named, isNamed, listed⟩, tail⟩ :=
              List.isChain_cons_cons.mp chain
            rw [isAbove, Option.some.injEq] at isNamed
            subst isNamed
            have longer := innerHypothesis parent listed path tail
            simp only [List.length_append, List.length_cons,
              List.length_nil] at longer ⊢
            omega
      · exact restHypothesis other inRest

end Visits

end DepthFirst
