import Mathlib.Logic.Equiv.Basic
import OpsSignal.Lib.Framing
import OpsSignal.Reloads
import OpsSignal.SecretReads

/-!
# Which rotations a fingerprint shows

The fingerprint of resolved secrets is the digest of names and values,
each ended by a NUL.  A value may hold a NUL too: two values can trade
text without a change of the fingerprint.
-/

namespace OpsSignal

open Chain Framing

/-- The character that ends a name or a value. -/
def nul : Char := Char.ofNat 0

/-- The names and values, in turn. -/
def frames (values : Values) : List (List Char) :=
  values.flatMap fun entry => [entry.1.toList, entry.2.toList]

/-- The order of a `BTreeMap`. -/
def sortedValues (values : Values) : Values :=
  values.mergeSort fun left right => decide (left.1 ≤ right.1)

/-- One value for each name. -/
def Keyed (names : List String) (values : Values) : Prop :=
  (values.map Prod.fst).Perm names

theorem secretsDigest_eq
    (platform : Platform) {values : Values} (present : values ≠ []) :
    secretsDigest platform values =
      platform.sha256
        (String.ofList (terminated nul (frames (sortedValues values)))) := by
  have joined : ∀ entries : Values,
      (String.join (entries.map fun entry =>
        entry.1 ++ String.singleton (Char.ofNat 0) ++ entry.2 ++
          String.singleton (Char.ofNat 0))).toList =
        terminated nul (frames entries) := by
    intro entries
    induction entries with
    | nil => simp [frames]
    | cons entry entries inductionHypothesis =>
        rw [List.map_cons, String.join_cons, String.toList_append,
          inductionHypothesis]
        simp [frames, nul]
  have ended := congrArg String.ofList (joined (sortedValues values))
  rw [String.ofList_toList] at ended
  rw [secretsDigest, if_neg (by simpa using present)]
  exact congrArg platform.sha256 ended

theorem perm_sortedValues (values : Values) :
    (sortedValues values).Perm values :=
  List.mergeSort_perm _ _

theorem pairwise_sortedValues (values : Values) :
    (sortedValues values).Pairwise fun left right => left.1 ≤ right.1 := by
  have sorted := @List.pairwise_mergeSort (String × String)
    (fun left right => decide (left.1 ≤ right.1))
    (fun first second third before after => by
      simp only [decide_eq_true_eq] at before after ⊢
      exact String.le_trans before after)
    (fun first second => by
      simpa using String.le_total first.1 second.1)
    values
  simpa only [decide_eq_true_eq, sortedValues] using sorted

theorem sortedValues_of_pairwise
    {values : Values}
    (sorted : values.Pairwise fun left right => left.1 ≤ right.1) :
    sortedValues values = values :=
  List.mergeSort_of_pairwise (by simpa only [decide_eq_true_eq] using sorted)

/-- Maps over the same names list them in the same order. -/
theorem keys_sortedValues
    {names : List String} {left right : Values}
    (isLeft : Keyed names left) (isRight : Keyed names right) :
    (sortedValues left).map Prod.fst = (sortedValues right).map Prod.fst := by
  have same : ((sortedValues left).map Prod.fst).Perm
      ((sortedValues right).map Prod.fst) :=
    (((perm_sortedValues left).map Prod.fst).trans isLeft).trans
      (((perm_sortedValues right).map Prod.fst).trans isRight).symm
  refine same.eq_of_pairwise
    (fun left right _ _ (before : left ≤ right) (after : right ≤ left) =>
      String.le_antisymm before after) ?_ ?_
  · exact List.pairwise_map.2 (pairwise_sortedValues left)
  · exact List.pairwise_map.2 (pairwise_sortedValues right)

theorem perm_of_sortedValues
    {left right : Values} (same : sortedValues left = sortedValues right) :
    left.Perm right :=
  (perm_sortedValues left).symm.trans
    (same ▸ perm_sortedValues right)

/-! ## Values without a NUL -/

theorem eq_of_frames
    {left right : Values}
    (sameKeys : left.map Prod.fst = right.map Prod.fst)
    (leftClear : ∀ entry ∈ left, nul ∉ entry.2.toList)
    (rightClear : ∀ entry ∈ right, nul ∉ entry.2.toList)
    (same : terminated nul (frames left) = terminated nul (frames right)) :
    left = right := by
  induction left generalizing right with
  | nil =>
      cases right with
      | nil => rfl
      | cons entry right => simp at sameKeys
  | cons entry left inductionHypothesis =>
      cases right with
      | nil => simp at sameKeys
      | cons other right =>
          obtain ⟨sameKey, sameKeys⟩ := List.cons.inj sameKeys
          simp only [frames, List.flatMap_cons, List.cons_append,
            List.nil_append, terminated_cons] at same
          obtain ⟨_, sameRest⟩ :=
            eq_of_append_separator (by rw [sameKey]) same
          have counts : entry.2.toList.count nul = other.2.toList.count nul := by
            rw [List.count_eq_zero.2 (leftClear entry (by simp)),
              List.count_eq_zero.2 (rightClear other (by simp))]
          obtain ⟨sameValue, sameRest⟩ :=
            eq_of_append_separator counts sameRest
          rw [inductionHypothesis sameKeys
            (fun entry member => leftClear entry (by simp [member]))
            (fun entry member => rightClear entry (by simp [member]))
            sameRest]
          congr 1
          exact Prod.ext sameKey (String.toList_inj.1 sameValue)

section

variable {platform : Platform}

theorem frames_of_secretsDigest
    (collisionFree : Function.Injective platform.sha256)
    {names : List String} {left right : Values}
    (isLeft : Keyed names left) (isRight : Keyed names right)
    (same : secretsDigest platform left = secretsDigest platform right) :
    terminated nul (frames (sortedValues left)) =
      terminated nul (frames (sortedValues right)) := by
  by_cases empty : names = []
  · subst empty
    have noLeft : left = [] := by simpa [Keyed] using isLeft
    have noRight : right = [] := by simpa [Keyed] using isRight
    rw [noLeft, noRight]
  · have someLeft : left ≠ [] := by
      rintro rfl
      exact empty (by simpa [Keyed] using isLeft.symm)
    have someRight : right ≠ [] := by
      rintro rfl
      exact empty (by simpa [Keyed] using isRight.symm)
    rw [secretsDigest_eq platform someLeft,
      secretsDigest_eq platform someRight] at same
    exact String.ofList_inj.1 (collisionFree same)

/-- Values without a NUL are told apart. -/
theorem perm_of_clear
    (collisionFree : Function.Injective platform.sha256)
    {names : List String} {left right : Values}
    (isLeft : Keyed names left) (isRight : Keyed names right)
    (leftClear : ∀ entry ∈ left, nul ∉ entry.2.toList)
    (rightClear : ∀ entry ∈ right, nul ∉ entry.2.toList)
    (same : secretsDigest platform left = secretsDigest platform right) :
    left.Perm right := by
  apply perm_of_sortedValues
  refine eq_of_frames (keys_sortedValues isLeft isRight) ?_ ?_
    (frames_of_secretsDigest collisionFree isLeft isRight same)
  · intro entry member
    exact leftClear entry ((perm_sortedValues left).mem_iff.1 member)
  · intro entry member
    exact rightClear entry ((perm_sortedValues right).mem_iff.1 member)

/-- So is a single value, whatever it holds. -/
theorem perm_of_single
    (collisionFree : Function.Injective platform.sha256)
    {names : List String} (few : names.length ≤ 1)
    {left right : Values}
    (isLeft : Keyed names left) (isRight : Keyed names right)
    (same : secretsDigest platform left = secretsDigest platform right) :
    left.Perm right := by
  have joined := frames_of_secretsDigest collisionFree isLeft isRight same
  apply perm_of_sortedValues
  have keys := keys_sortedValues isLeft isRight
  have short : (sortedValues left).length ≤ 1 := by
    rw [(perm_sortedValues left).length_eq, ← List.length_map (f := Prod.fst),
      isLeft.length_eq]
    exact few
  cases first : sortedValues left with
  | nil =>
      rw [first] at keys
      simpa using keys.symm
  | cons entry rest =>
      rw [first] at keys short joined
      obtain rfl : rest = [] := by
        simpa using short
      cases second : sortedValues right with
      | nil => simp [second] at keys
      | cons other rest =>
          rw [second] at keys joined
          obtain ⟨sameKey, noRest⟩ := List.cons.inj keys
          obtain rfl : rest = [] := by simpa using noRest.symm
          simp only [frames, List.flatMap_cons, List.flatMap_nil,
            List.append_nil, terminated_cons, terminated_nil] at joined
          obtain ⟨_, sameValue⟩ :=
            eq_of_append_separator (by rw [sameKey]) joined
          congr 1
          exact Prod.ext sameKey
            (String.toList_inj.1 (List.append_inj_left' sameValue rfl))

end

/-! ## Values that trade text -/

/-- The text that two neighbours can trade. -/
def tradedText (name : String) : String :=
  String.ofList (nul :: name.toList ++ [nul])

/-- The second name's value is, or is not yet, part of the first one's. -/
def tradedValues (moved : Bool) : List String → Values
  | first :: second :: rest =>
      (first, if moved then tradedText second else "") ::
        (second, if moved then "" else tradedText second) ::
          rest.map fun name => (name, "")
  | names => names.map fun name => (name, "")

theorem keys_tradedValues (moved : Bool) (names : List String) :
    (tradedValues moved names).map Prod.fst = names := by
  cases names with
  | nil => rfl
  | cons first rest =>
      cases rest with
      | nil => rfl
      | cons second rest =>
          simp [tradedValues, Function.comp_def]

theorem secretsDigest_tradedValues
    (platform : Platform) {names : List String}
    (two : 2 ≤ names.length)
    (sorted : names.Pairwise fun left right => left ≤ right)
    (moved : Bool) :
    secretsDigest platform (tradedValues moved names) =
      secretsDigest platform (tradedValues false names) := by
  have inOrder : ∀ moved,
      sortedValues (tradedValues moved names) = tradedValues moved names := by
    intro moved
    apply sortedValues_of_pairwise
    rw [← List.pairwise_map (f := Prod.fst) (R := (· ≤ ·)),
      keys_tradedValues]
    exact sorted
  have present : ∀ moved, tradedValues moved names ≠ [] := by
    intro moved empty
    have keys := keys_tradedValues moved names
    rw [empty] at keys
    simp [← keys] at two
  rw [secretsDigest_eq platform (present moved),
    secretsDigest_eq platform (present false), inOrder, inOrder]
  congr 2
  cases names with
  | nil => simp at two
  | cons first rest =>
      cases rest with
      | nil => simp at two
      | cons second rest =>
          cases moved with
          | false => rfl
          | true => simp [tradedValues, frames, tradedText]

theorem not_perm_tradedValues
    {names : List String} (two : 2 ≤ names.length)
    (distinct : names.Nodup) :
    ¬ (tradedValues false names).Perm (tradedValues true names) := by
  intro same
  cases names with
  | nil => simp at two
  | cons first rest =>
      cases rest with
      | nil => simp at two
      | cons second rest =>
          simp only [List.nodup_cons, List.mem_cons, not_or] at distinct
          have member : (first, "") ∈ tradedValues true
              (first :: second :: rest) :=
            same.mem_iff.1 (by simp [tradedValues])
          simp only [tradedValues, if_true, List.mem_cons, Prod.mk.injEq,
            true_and, List.mem_map] at member
          rcases member with empty | ⟨here, _⟩ | ⟨name, inside, rfl, _⟩
          · have spelled := congrArg String.toList empty
            simp [tradedText] at spelled
          · exact distinct.1.1 here
          · exact distinct.1.2 inside

/-! ## Polls -/

/-- The stores answer with one value for each name they are asked for. -/
def World.Answers (world : World) : Prop :=
  ∀ names values, names.Nodup → world.resolve names = .ok values →
    Keyed names values

theorem mem_keys_iff (values : Values) (name : String) :
    name ∈ values.map Prod.fst ↔ values.lookup name ≠ none := by
  rw [← Option.isSome_iff_ne_none, List.lookup_isSome_iff, List.mem_map]
  constructor
  · rintro ⟨entry, member, rfl⟩
    exact ⟨entry, member, by simp⟩
  · rintro ⟨entry, member, same⟩
    exact ⟨entry, member, (beq_iff_eq.1 same).symm⟩

/-- The stores of a world that resolves names as the core does answer so,
whatever was resolved before. -/
theorem answers_resolve
    {installation : Installation} {stored : StoreHistory} {ttl : Nat}
    {parseJson : JsonParser} {world : World}
    (resolves : ∀ names, ∃ clock calls,
      world.resolve names =
        (resolve installation stored ttl parseJson names clock
          (cacheAfter installation stored ttl parseJson calls)).1) :
    world.Answers := by
  intro names values distinct resolved
  obtain ⟨clock, calls, answer⟩ := resolves names
  rw [answer] at resolved
  obtain ⟨⟨keys, only⟩, all⟩ :=
    (faithful_resolve (sound_cacheAfter calls)).2 values resolved
  refine (List.perm_ext_iff_of_nodup keys distinct).2 fun name => ?_
  rw [mem_keys_iff]
  constructor
  · exact only name
  · intro member
    obtain ⟨_, _, value, _, _, found, _⟩ := all name member
    simp [found]

theorem keyed_of_values
    {loading : Loading} (answers : loading.world.Answers)
    {names : List String} (distinct : names.Nodup) {values : Values}
    (resolved : loading.values names = .ok values) :
    Keyed names values := by
  rw [Loading.values] at resolved
  split at resolved
  · next none =>
      cases resolved
      rw [List.isEmpty_iff.1 none]
      exact .nil
  · exact answers names values distinct resolved

/-- Files with equal texts were built from values with equal
fingerprints. -/
theorem secretsDigest_of_texts
    {first second : Loading} (sameHost : second.host = first.host)
    {roots others : List ConfigSource} {files again : List File}
    (walked : first.walk roots = .ok files)
    (walkedAgain : second.walk others = .ok again)
    (same : texts files = texts again)
    {file : File} (member : file ∈ files) {names : List String}
    (listed : first.host.secretRefs file.1.text = .ok names)
    {before after : Values}
    (wasResolved : first.values names = .ok before)
    (isResolved : second.values names = .ok after) :
    secretsDigest first.host.platform before =
      secretsDigest first.host.platform after := by
  have entry : (file.1.source.shown, file.1.text, file.1.secrets) ∈
      texts again := by
    rw [← same]
    exact List.mem_map_of_mem member
  obtain ⟨other, isOther, sameEntry⟩ := List.mem_map.1 entry
  obtain ⟨_, sameRest⟩ := Prod.mk.inj sameEntry
  obtain ⟨sameText, sameDigest⟩ := Prod.mk.inj sameRest
  obtain ⟨names', values, isNames, isValues, _, _, digest⟩ :=
    build_eq_ok_iff.1 (build_of_mem_walk walked member)
  obtain ⟨names'', values', areNames, areValues, _, _, digest'⟩ :=
    build_eq_ok_iff.1 (build_of_mem_walk walkedAgain isOther)
  rw [listed, Except.ok.injEq] at isNames
  rw [sameHost, sameText, listed, Except.ok.injEq] at areNames
  subst isNames areNames
  rw [wasResolved, Except.ok.injEq] at isValues
  rw [isResolved, Except.ok.injEq] at areValues
  subst isValues areValues
  simp only [sameHost] at digest'
  rw [← digest, ← digest', sameDigest]

/-! ## Which rotations are noticed -/

/-- A fingerprint tells any two maps over the names of a text apart
exactly if there is at most one name; values without a NUL it tells apart
always.  A poll that finds such a secret changed does not take its early
return. -/
theorem secretsDigest_notices_iff
    {platform : Platform}
    (collisionFree : Function.Injective platform.sha256) :
    (∀ names : List String, names.Nodup →
      ((∀ left right, Keyed names left → Keyed names right →
          secretsDigest platform left = secretsDigest platform right →
            left.Perm right) ↔
        names.length ≤ 1)) ∧
      (∀ names left right, Keyed names left → Keyed names right →
        (∀ entry ∈ left, nul ∉ entry.2.toList) →
        (∀ entry ∈ right, nul ∉ entry.2.toList) →
          secretsDigest platform left = secretsDigest platform right →
            left.Perm right) ∧
      ∀ (first : Loading) (reloader : Reloader) (world : World)
        (cache : Cache) (files again : List File),
        first.host.platform = platform → first.world.Answers →
        world.Answers →
        first.walk reloader.roots = .ok files →
        reloader.lastTexts = some (texts files) →
        (Reloader.loading first.host world cache).walk reloader.roots =
          .ok again →
        ∀ file ∈ files, ∀ names before after,
          first.host.secretRefs file.1.text = .ok names →
          names.length ≤ 1 →
          first.values names = .ok before →
          (Reloader.loading first.host world cache).values names =
            .ok after →
          ¬ before.Perm after →
            reloader.lastTexts ≠ some (texts again) := by
  refine ⟨?_, ?_, ?_⟩
  · intro names distinct
    constructor
    · intro tells
      by_contra many
      have two : 2 ≤ (names.mergeSort fun left right =>
          decide (left ≤ right)).length := by
        rw [List.length_mergeSort]
        omega
      have sorted := @List.pairwise_mergeSort String
        (fun left right => decide (left ≤ right))
        (fun first second third before after => by
          simp only [decide_eq_true_eq] at before after ⊢
          exact String.le_trans before after)
        (fun first second => by simpa using String.le_total first second)
        names
      have inOrder := List.mergeSort_perm names
        fun left right => decide (left ≤ right)
      simp only [decide_eq_true_eq] at sorted
      refine not_perm_tradedValues two (inOrder.nodup_iff.2 distinct)
        (tells _ _ ?_ ?_ ?_)
      · rw [Keyed, keys_tradedValues]
        exact inOrder
      · rw [Keyed, keys_tradedValues]
        exact inOrder
      · exact (secretsDigest_tradedValues platform two sorted true).symm
    · intro few left right isLeft isRight same
      exact perm_of_single collisionFree few isLeft isRight same
  · intro names left right isLeft isRight leftClear rightClear same
    exact perm_of_clear collisionFree isLeft isRight leftClear rightClear same
  · rintro first reloader world cache files again rfl answers answersAgain
      walked known walkedAgain file member names before after listed few
      wasResolved isResolved changed unchanged
    rw [known, Option.some.injEq] at unchanged
    have same := @secretsDigest_of_texts first
      (Reloader.loading first.host world cache) rfl _ _ _ _ walked
      walkedAgain unchanged _ member _ listed _ _ wasResolved isResolved
    have distinct : names.Nodup := by
      cases names with
      | nil => exact .nil
      | cons name rest =>
          obtain rfl : rest = [] := by simpa using few
          exact List.nodup_singleton name
    exact changed (perm_of_single collisionFree few
      (keyed_of_values answers distinct wasResolved)
      (keyed_of_values answersAgain distinct isResolved) same)

/-! ## A rotated token -/

def tokenName : String := "aws-sm:t"

/-- A digest without collisions that is the SHA-256 digest of the two
fingerprinted texts. -/
def rotationPlatform : Platform where
  sha256 :=
    (Equiv.swap
      (String.ofList (terminated nul ["aws-sm:t".toList, "one".toList]))
      "e14dfcbc7d891914dfb8b5a755edcdc6f1f2af08f7b5f7b8f5a1d26255e6eade").trans
    (Equiv.swap
      (String.ofList (terminated nul ["aws-sm:t".toList, "two".toList]))
      "6e2585717b19fad4a2198b3c268810379633ad1940d99c50ed3f882a44ed4973")
  showTime _ := ""

def rotationHost : Host where
  platform := rotationPlatform
  urls := ⟨fun _ => .error "", fun _ _ => .error "", fun _ => none⟩
  libraries := ⟨fun _ => .ok (), id, fun _ => .ok [], fun _ => false,
    fun _ => false⟩
  secretRefs _ := .ok [tokenName]
  reads _ := false
  missing := "No such file or directory (os error 2)"

/-- The stores hold one value for every secret. -/
def rotationWorld (value : String) : World where
  fetch _ := .ok "text"
  resolve names := .ok (names.map fun name => (name, value))
  fromYaml _ _ := .ok {}

def rotationFiles (value : String) : List File :=
  [(⟨.file "a.yaml".toList, "text",
    secretsDigest rotationPlatform [(tokenName, value)]⟩, {})]

theorem answers_rotationWorld (value : String) :
    (rotationWorld value).Answers := by
  intro names values _ resolved
  cases resolved
  simp [Keyed, Function.comp_def]

def rotationReloader : Reloader where
  roots := [.file "a.yaml".toList]
  opts := ⟨none⟩
  lastTexts := some (texts (rotationFiles "one"))
  storage := {}
  pipeline := Pipeline.fromConfig {}

theorem secretsDigest_notices_iff_rotation :
    rotationReloader.lastTexts ≠ some (texts (rotationFiles "two")) ∧
      ¬ ∀ left right, Keyed ["aws-sm:s", "aws-sm:t"] left →
        Keyed ["aws-sm:s", "aws-sm:t"] right →
          secretsDigest rotationPlatform left =
            secretsDigest rotationPlatform right →
              left.Perm right := by
  have collisionFree : Function.Injective rotationPlatform.sha256 :=
    (Equiv.trans _ _).injective
  constructor
  · refine (secretsDigest_notices_iff collisionFree).2.2
      ⟨rotationHost, rotationWorld "one", fun _ => none, .reload⟩
      rotationReloader (rotationWorld "two") (fun _ => none)
      (rotationFiles "one") (rotationFiles "two") rfl
      (answers_rotationWorld "one") (answers_rotationWorld "two") rfl rfl rfl
      _ (List.mem_singleton_self _) [tokenName]
      [(tokenName, "one")] [(tokenName, "two")] rfl (by simp) rfl rfl ?_
    intro same
    have spelled := List.Perm.singleton_eq same
    simp at spelled
  · rw [(secretsDigest_notices_iff collisionFree).1 _ (by decide)]
    decide

/-- The values `""` and `"\0b\0"` of two secrets can be exchanged. -/
theorem secretsDigest_shared :
    Keyed ["aws-sm:a", "aws-sm:b"]
        [("aws-sm:a", ""), ("aws-sm:b", "\x00aws-sm:b\x00")] ∧
      Keyed ["aws-sm:a", "aws-sm:b"]
        [("aws-sm:a", "\x00aws-sm:b\x00"), ("aws-sm:b", "")] ∧
      (∀ platform,
        secretsDigest platform
            [("aws-sm:a", ""), ("aws-sm:b", "\x00aws-sm:b\x00")] =
          secretsDigest platform
            [("aws-sm:a", "\x00aws-sm:b\x00"), ("aws-sm:b", "")]) ∧
      ¬ [("aws-sm:a", ""), ("aws-sm:b", "\x00aws-sm:b\x00")].Perm
        [("aws-sm:a", "\x00aws-sm:b\x00"), ("aws-sm:b", "")] := by
  refine ⟨.refl _, .refl _, ?_, by decide⟩
  intro platform
  exact (@secretsDigest_tradedValues platform ["aws-sm:a", "aws-sm:b"]
    (by simp) (by decide) true).symm

end OpsSignal
