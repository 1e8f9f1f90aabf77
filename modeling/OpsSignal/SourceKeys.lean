import Mathlib.Data.List.Chain
import OpsSignal.SourceHost

/-!
# Files and URLs as keys

A chain tells its files apart by what they are shown as.  A remote source
is shown as a URL.  A local path is not: `parse` refuses a path that looks
like a URL, and a normalized path never has two slashes in a row.
-/

namespace OpsSignal

open Checks

/-! ## Texts that hold a scheme -/

/-- A URL: something before `://`, something after. -/
def HasScheme (text : List Char) : Prop :=
  ∃ before after, text = before ++ ("://".toList ++ after)

theorem containsText_of_append (wanted before after : List Char) :
    containsText wanted (before ++ (wanted ++ after)) = true := by
  induction before with
  | nil =>
      rw [List.nil_append]
      cases wanted with
      | nil =>
          cases after with
          | nil => rfl
          | cons c rest => simp [containsText, stripPrefix]
      | cons c rest =>
          have found := stripPrefix_append (c :: rest) after
          rw [List.cons_append] at found
          rw [List.cons_append, containsText, found]
          rfl
  | cons c rest inductionHypothesis =>
      rw [List.cons_append, containsText, inductionHypothesis,
        Bool.or_true]

/-- No two slashes in a row. -/
def SingleSlashes (text : List Char) : Prop :=
  List.IsChain (fun left right => ¬(left = '/' ∧ right = '/')) text

theorem SingleSlashes.noScheme {text : List Char}
    (single : SingleSlashes text) : ¬ HasScheme text := by
  rintro ⟨before, after, rfl⟩
  have tail := (List.isChain_append.mp single).2.1
  exact (List.isChain_cons_cons.mp (List.isChain_cons_cons.mp tail).2).1
    ⟨rfl, rfl⟩

theorem singleSlashes_of_not_mem {text : List Char}
    (noSlash : '/' ∉ text) : SingleSlashes text := by
  apply List.Pairwise.isChain
  rw [List.pairwise_iff_forall_sublist]
  intro left right sublist both
  exact noSlash (both.1 ▸ sublist.subset List.mem_cons_self)

/-- Pieces without slashes, none of them empty but the first, have single
slashes between them. -/
theorem singleSlashes_intercalate (first : List Char) :
    ∀ {rest : List (List Char)}, '/' ∉ first →
      (∀ piece ∈ rest, '/' ∉ piece ∧ piece ≠ []) →
        SingleSlashes (List.intercalate ['/'] (first :: rest))
  | [], noSlash, _ => by
      simpa [List.intercalate] using singleSlashes_of_not_mem noSlash
  | second :: rest, noSlash, pieces => by
      obtain ⟨secondPlain, secondFull⟩ := pieces second List.mem_cons_self
      have later := singleSlashes_intercalate second secondPlain
        fun piece member => pieces piece (List.mem_cons_of_mem _ member)
      have whole : List.intercalate ['/'] (first :: second :: rest) =
          first ++ '/' ::
            List.intercalate ['/'] (second :: rest) := by
        simp [List.intercalate, List.intersperse]
      obtain ⟨c, more, rfl⟩ := List.exists_cons_of_ne_nil secondFull
      have starts : (List.intercalate ['/'] ((c :: more) :: rest)).head? =
          some c := by
        cases rest with
        | nil => simp [List.intercalate]
        | cons third others => simp [List.intercalate]
      rw [whole, SingleSlashes, List.isChain_append]
      refine ⟨singleSlashes_of_not_mem noSlash, ?_, ?_⟩
      · rw [List.isChain_cons]
        refine ⟨?_, later⟩
        intro next isNext both
        rw [starts, Option.mem_some_iff] at isNext
        apply secondPlain
        rw [← both.2, ← isNext]
        exact List.mem_cons_self
      · intro last isLast next _ both
        exact noSlash (both.1 ▸ List.mem_of_getLast? isLast)

/-! ## Normalized paths -/

theorem not_mem_splitOn (separator : Char) :
    ∀ (text : List Char), ∀ piece ∈ splitOn separator text,
      separator ∉ piece
  | [], piece, member => by
      rw [splitOn, List.mem_singleton] at member
      simp [member]
  | c :: text, piece, member => by
      have earlier := not_mem_splitOn separator text
      by_cases same : c = separator
      · rw [splitOn, if_pos same, List.mem_cons] at member
        rcases member with rfl | later
        · exact List.not_mem_nil
        · exact earlier piece later
      · rw [splitOn, if_neg same] at member
        cases pieces : splitOn separator text with
        | nil =>
            rw [pieces] at member
            rw [List.mem_singleton.mp member, List.mem_singleton]
            exact fun is => same is.symm
        | cons first rest =>
            rw [pieces] at member earlier
            rcases List.mem_cons.mp member with rfl | later
            · rw [List.mem_cons, not_or]
              exact ⟨fun is => same is.symm,
                earlier first List.mem_cons_self⟩
            · exact earlier piece (List.mem_cons_of_mem _ later)

/-- A component that is not the root. -/
def Component.Plain (part : Component) : Prop :=
  '/' ∉ part.text ∧ part.text ≠ []

theorem plain_of_componentOf {piece : List Char} {part : Component}
    (noSlash : '/' ∉ piece) (isPart : componentOf piece = some part) :
    part.Plain := by
  rw [componentOf] at isPart
  split at isPart
  · cases isPart
  · rename_i full
    split at isPart
    · cases isPart
      exact ⟨by decide, by decide⟩
    · cases isPart
      exact ⟨noSlash, fun empty => full (Or.inl empty)⟩

/-- At most the first component is the root. -/
def Rooted (parts : List Component) : Prop :=
  parts = [] ∨ ∃ first rest, parts = first :: rest ∧
    (first = .rootDir ∨ first.Plain) ∧ ∀ part ∈ rest, part.Plain

theorem rooted_of_plain {parts : List Component}
    (plain : ∀ part ∈ parts, part.Plain) : Rooted parts := by
  cases parts with
  | nil => exact Or.inl rfl
  | cons first rest =>
      exact Or.inr ⟨first, rest, rfl,
        Or.inr (plain first List.mem_cons_self),
        fun part member => plain part (List.mem_cons_of_mem _ member)⟩

theorem plain_pieces (path : List Char) :
    ∀ part ∈ (splitOn '/' path).filterMap componentOf, part.Plain := by
  intro part member
  obtain ⟨piece, isPiece, isPart⟩ := List.mem_filterMap.mp member
  exact plain_of_componentOf (not_mem_splitOn '/' path piece isPiece)
    isPart

theorem rooted_components (path : List Char) : Rooted (components path) := by
  rw [components]
  split
  · exact Or.inr ⟨.rootDir, _, rfl, Or.inl rfl, plain_pieces path⟩
  · apply rooted_of_plain
    intro part member
    split at member
    · rcases List.mem_append.mp member with here | later
      · rw [List.mem_singleton.mp here]
        exact ⟨by decide, by decide⟩
      · exact plain_pieces path part later
    · exact plain_pieces path part member

/-- A path that does not start at the root has no root in it. -/
theorem plain_components {path : List Char}
    (relative : path.head? ≠ some '/') :
    ∀ part ∈ components path, part.Plain := by
  intro part member
  rw [components, if_neg relative] at member
  rcases List.mem_append.mp member with here | later
  · split at here
    · rw [List.mem_singleton.mp here]
      exact ⟨by decide, by decide⟩
    · cases here
  · exact plain_pieces path part later

namespace Rooted

theorem append {parts more : List Component} (rooted : Rooted parts)
    (plain : ∀ part ∈ more, part.Plain) : Rooted (parts ++ more) := by
  rcases rooted with rfl | ⟨first, rest, rfl, head, tail⟩
  · rw [List.nil_append]
    exact rooted_of_plain plain
  · refine Or.inr ⟨first, rest ++ more, rfl, head, ?_⟩
    intro part member
    rcases List.mem_append.mp member with inRest | inMore
    · exact tail part inRest
    · exact plain part inMore

theorem dropLast {parts : List Component} (rooted : Rooted parts) :
    Rooted parts.dropLast := by
  rcases rooted with rfl | ⟨first, rest, rfl, head, tail⟩
  · exact Or.inl rfl
  · cases rest with
    | nil => exact Or.inl rfl
    | cons second others =>
        refine Or.inr ⟨first, (second :: others).dropLast, rfl, head, ?_⟩
        intro part member
        exact tail part (List.dropLast_subset _ member)

/-- A turn of `normalize` on a part that is not the root. -/
theorem push {out : List Component} {part : Component}
    (rooted : Rooted out) (plain : part.Plain) :
    Rooted (pushComponent out part) := by
  unfold pushComponent
  split
  · exact rooted
  · exact rooted.dropLast
  · apply rooted.append
    intro other member
    rw [List.mem_singleton.mp member]
    exact plain

theorem pushes {parts : List Component} (plain : ∀ part ∈ parts, part.Plain) :
    ∀ {out : List Component}, Rooted out →
      Rooted (parts.foldl pushComponent out) := by
  induction parts with
  | nil => exact fun rooted => rooted
  | cons part rest inductionHypothesis =>
      intro out rooted
      apply inductionHypothesis
        fun other member => plain other (List.mem_cons_of_mem _ member)
      exact rooted.push (plain part List.mem_cons_self)

theorem fold {parts : List Component} (rooted : Rooted parts) :
    Rooted (parts.foldl pushComponent []) := by
  rcases rooted with rfl | ⟨first, rest, rfl, head, tail⟩
  · exact Or.inl rfl
  · rw [List.foldl_cons]
    apply pushes tail
    rcases head with rfl | plain
    · exact Or.inr ⟨.rootDir, [], rfl, Or.inl rfl, by simp⟩
    · exact push (Or.inl rfl) plain

theorem singleSlashes {parts : List Component} (rooted : Rooted parts) :
    SingleSlashes (pathText parts) := by
  rw [pathText]
  split
  · exact List.isChain_singleton _
  · rcases rooted with rfl | ⟨first, rest, rfl, head, tail⟩
    · exact List.isChain_nil
    · rw [List.map_cons]
      apply singleSlashes_intercalate
      · rcases head with rfl | plain
        · decide
        · exact plain.1
      · intro piece member
        obtain ⟨part, isPart, rfl⟩ := List.mem_map.mp member
        exact tail part isPart

end Rooted

theorem noScheme_normalize (path : List Char) {reference : List Char}
    (relative : reference.head? ≠ some '/') :
    ¬ HasScheme (normalize
      (parentComponents path ++ components reference)) := by
  apply SingleSlashes.noScheme
  apply Rooted.singleSlashes
  apply Rooted.fold
  apply Rooted.append _ (plain_components relative)
  rw [parentComponents]
  split
  · exact Or.inl rfl
  · exact (rooted_components path).dropLast

/-! ## Named sources -/

/-- What `parse` can return: a URL that a scheme accepts, or a path. -/
theorem parse_cases {raw : List Char} {source : ConfigSource}
    (parsed : ConfigSource.parse raw = .ok source) :
    (∃ path, source = .file path ∧
        containsText "://".toList path = false) ∨
      (∃ url, source = .http url ∧ HasScheme url) ∨
      (source.isRemote = true ∧ ∀ url, source ≠ .http url) := by
  rw [ConfigSource.parse] at parsed
  cases known : schemeParsers.findSome? fun entry =>
      (stripPrefix entry.1.toList (trim raw)).map fun rest =>
        entry.2 rest (trim raw) with
  | none =>
      simp only [known, Option.getD_none, ConfigSource.parsePath,
        configError] at parsed
      split at parsed
      · cases parsed
      · rename_i plain
        cases parsed
        exact Or.inl ⟨_, rfl, Bool.not_eq_true _ |>.mp plain⟩
  | some result =>
      simp only [known, Option.getD_some] at parsed
      obtain ⟨entry, listed, found⟩ := List.exists_of_findSome?_eq_some known
      obtain ⟨after, stripped, isResult⟩ := Option.map_eq_some_iff.mp found
      rw [parsed] at isResult
      right
      rcases List.mem_append.mp listed with cloud | web
      · exact Or.inr (remote_of_cloud entry cloud _ _ _ isResult)
      · left
        have whole := eq_append_of_stripPrefix stripped
        simp only [List.mem_cons, List.not_mem_nil, or_false] at web
        rcases web with rfl | rfl
        · cases isResult
          exact ⟨_, rfl, "https".toList, after, whole⟩
        · simp only [parseHttp, configError] at isResult
          split at isResult
          · cases isResult
            exact ⟨_, rfl, "http".toList, after, whole⟩
          · cases isResult

/-- A source is one that `parse` gives, or a path next to another one, or
an object next to another one. -/
theorem named_cases {urls : UrlParser} {source : ConfigSource}
    (named : Named urls source) :
    (∃ raw, ConfigSource.parse raw = .ok source) ∨
      (∃ path reference, reference.head? ≠ some '/' ∧
        source = .file (normalize
          (parentComponents path ++ components reference))) ∨
      (source.isRemote = true ∧ ∀ url, source ≠ .http url) := by
  cases named with
  | parsed parsed => exact Or.inl ⟨_, parsed⟩
  | listed all member =>
      obtain ⟨sources, mapped, isSources⟩ := bind_eq_ok all
      simp only [configError] at isSources
      split at isSources
      · cases isSources
      · cases isSources
        exact Or.inl (parse_of_mapM mapped _ member)
  | @joined self _ reference joined =>
      obtain ⟨inner, found, checked⟩ := bind_eq_ok joined
      simp only [configError] at checked
      split at checked
      · cases checked
      · cases checked
        rw [ConfigSource.resolve] at found
        split at found
        · exact Or.inl ⟨_, found⟩
        · rename_i relative
          rw [not_or] at relative
          cases self with
          | file path =>
              cases found
              exact Or.inr (Or.inl
                ⟨path, trim reference, relative.2, rfl⟩)
          | http url =>
              simp only [ConfigSource.joinRelative, ConfigSource.joinUrl,
                configError] at found
              split at found
              · exact Or.inl ⟨_, found⟩
              · cases found
          | s3 | gcs | azure | azureAppConfig | dynamoDb | cosmos =>
              obtain ⟨name, _, isSource⟩ := map_eq_ok found
              cases isSource
              exact Or.inr (Or.inr ⟨rfl, by simp⟩)
          | appConfig application environment profile =>
              simp only [ConfigSource.joinRelative, configError] at found
              split at found
              · cases found
              · cases found
                exact Or.inr (Or.inr ⟨rfl, by simp⟩)
          | firestore project document database field =>
              obtain ⟨name, _, found⟩ := bind_eq_ok found
              simp only [configError] at found
              split at found
              · cases found
              · cases found
                exact Or.inr (Or.inr ⟨rfl, by simp⟩)

/-- A local file is shown without a scheme, a remote one with it. -/
theorem hasScheme_iff {urls : UrlParser} {source : ConfigSource}
    (named : Named urls source) :
    HasScheme source.display ↔ source.isRemote = true := by
  have ofPath : ∀ path, source = .file path → ¬ HasScheme path →
      (HasScheme source.display ↔ source.isRemote = true) := by
    rintro path rfl noScheme
    exact iff_of_false noScheme (by simp [ConfigSource.isRemote])
  have ofObject : source.isRemote = true → (∀ url, source ≠ .http url) →
      (HasScheme source.display ↔ source.isRemote = true) := by
    intro remote notHttp
    refine iff_of_true ?_ remote
    cases source with
    | file path => cases remote
    | http url => exact absurd rfl (notHttp url)
    | _ =>
        simp only [ConfigSource.display, ConfigSource.urlText,
          List.append_assoc]
        exact ⟨_, _, rfl⟩
  rcases named_cases named with
    ⟨raw, parsed⟩ | ⟨path, reference, relative, isPath⟩ | ⟨remote, notHttp⟩
  · rcases parse_cases parsed with
      ⟨path, isPath, plain⟩ | ⟨url, rfl, hasScheme⟩ | ⟨remote, notHttp⟩
    · apply ofPath path isPath
      rintro ⟨before, after, rfl⟩
      rw [containsText_of_append] at plain
      cases plain
    · exact iff_of_true hasScheme rfl
    · exact ofObject remote notHttp
  · exact ofPath _ isPath (noScheme_normalize path relative)
  · exact ofObject remote notHttp

/-- What a local file is shown as is shown of no other source. -/
theorem eq_of_shown_local {urls : UrlParser} {left right : ConfigSource}
    (namedLeft : Named urls left) (namedRight : Named urls right)
    (isLocal : left.isRemote = false) (same : left.shown = right.shown) :
    left = right := by
  have display : left.display = right.display :=
    String.ofList_injective same
  cases left with
  | file path =>
      cases right with
      | file other =>
          rw [ConfigSource.display, ConfigSource.display] at display
          rw [display]
      | _ =>
          have noScheme := (hasScheme_iff namedLeft).not.mpr (by simp [isLocal])
          rw [display, hasScheme_iff namedRight] at noScheme
          exact absurd rfl noScheme
  | _ => cases isLocal

end OpsSignal
