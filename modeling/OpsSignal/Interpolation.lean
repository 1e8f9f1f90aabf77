import OpsSignal.Config

/-!
# Placeholders

Before a file is read, the `${...}` placeholders of its string values are
replaced: a name with a colon reads a secret, any other name an
environment variable.  The names are collected by one scan of a string and
then looked up again, one after the other, in what is left of it.

The YAML parser and the reading of a layer are library code; they are the
fields of `YamlLibrary`.
-/

namespace OpsSignal

/-- `str::find` of a text: what stands before and after its first place. -/
def splitAround (needle : List Char) :
    List Char → Option (List Char × List Char)
  | [] => (stripPrefix needle []).map fun after => ([], after)
  | c :: text =>
      match stripPrefix needle (c :: text) with
      | some after => some ([], after)
      | none =>
          (splitAround needle text).map fun (before, after) =>
            (c :: before, after)

/-- What opens a placeholder. -/
def opening : List Char := ['$', '\x7b']

/-- What closes it. -/
def closing : Char := '\x7d'

/-- `is_ref`: whether a placeholder name is a secret reference. -/
def isRef (name : List Char) : Bool :=
  name.contains ':'

/-- How a call ends without a value. -/
inductive Fault where
  | error (error : SignalError)
  | panic (message : String)
  deriving DecidableEq, Repr

/-- A parsed document.  Texts are lists of characters, as in the
sources. -/
inductive Yaml where
  /-- Null, a truth value or a number. -/
  | plain (text : List Char)
  | string (text : List Char)
  | sequence (items : List Yaml)
  | mapping (entries : List (Yaml × Yaml))
  | tagged (tag : List Char) (value : Yaml)
  deriving Repr

theorem eq_append_of_splitAround
    {needle text before after : List Char}
    (found : splitAround needle text = some (before, after)) :
    text = before ++ (needle ++ after) := by
  induction text generalizing before with
  | nil =>
      obtain ⟨rest, stripped, same⟩ := Option.map_eq_some_iff.1 found
      cases same
      simpa using eq_append_of_stripPrefix stripped
  | cons c text inductionHypothesis =>
      simp only [splitAround] at found
      split at found
      · next rest stripped =>
          cases found
          simpa using eq_append_of_stripPrefix stripped
      · obtain ⟨⟨earlier, rest⟩, further, same⟩ :=
          Option.map_eq_some_iff.1 found
        cases same
        rw [inductionHypothesis further, List.cons_append]

/-! ## The scan -/

/-- The `${...}` names in what is left of an input, in order. -/
def placeholdersIn (input : List Char) (rest : List Char) :
    Except SignalError (List (List Char)) :=
  match _opened : splitAround opening rest with
  | none => .ok []
  | some (_, after) =>
      match _closed : splitOnce closing after with
      | none =>
          .error (configErr ("unterminated $\x7b...\x7d in '" ++
            String.ofList input ++ "'"))
      | some (name, left) =>
          if name = [] then
            .error (configErr ("empty $\x7b\x7d placeholder in '" ++
              String.ofList input ++ "'"))
          else
            (placeholdersIn input left).map fun names => name :: names
termination_by rest.length
decreasing_by
  rw [eq_append_of_splitAround _opened, (eq_append_of_splitOnce _closed).1]
  simp
  omega

def placeholders (input : List Char) :
    Except SignalError (List (List Char)) :=
  placeholdersIn input input

/-- A name as it stands in the text. -/
def placeholder (name : List Char) : List Char :=
  opening ++ (name ++ [closing])

section

variable (environment : String → Option String)
  (secrets : List (String × String))

/-- The value of a name. -/
def valueOf (name : List Char) : Except SignalError (List Char) :=
  let shown := String.ofList name
  if isRef name then
    match secrets.lookup shown with
    | some value => .ok value.toList
    | none =>
        .error (configErr ("secret $\x7b" ++ shown ++
          "\x7d can only be read when the config is loaded by a client"))
  else
    match environment shown with
    | some value => .ok value.toList
    | none =>
        .error (configErr ("environment variable " ++ shown ++
          " is referenced in signal.yaml but not set"))

/-- The loop over the names, with what is written and what is left. -/
def substitute (out rest : List Char) :
    List (List Char) → Except Fault (List Char)
  | [] => .ok (out ++ rest)
  | name :: names =>
      match splitAround (placeholder name) rest with
      | none => .error (.panic "found by placeholders")
      | some (before, after) =>
          match valueOf environment secrets name with
          | .error error => .error (.error error)
          | .ok value => substitute (out ++ before ++ value) after names

def interpolateStr (input : List Char) : Except Fault (List Char) :=
  match placeholders input with
  | .error error => .error (.error error)
  | .ok names => substitute environment secrets [] input names

/-! ## Documents -/

mutual

def interpolate : Yaml → Except Fault Yaml
  | .plain text => .ok (.plain text)
  | .string text =>
      (interpolateStr environment secrets text).map Yaml.string
  | .sequence items => (interpolateItems items).map Yaml.sequence
  | .mapping entries => (interpolateEntries entries).map Yaml.mapping
  | .tagged tag value => (interpolate value).map (Yaml.tagged tag)

def interpolateItems : List Yaml → Except Fault (List Yaml)
  | [] => .ok []
  | item :: rest =>
      (interpolate item).bind fun item =>
        (interpolateItems rest).map fun rest => item :: rest

def interpolateEntries :
    List (Yaml × Yaml) → Except Fault (List (Yaml × Yaml))
  | [] => .ok []
  | (key, value) :: rest =>
      (interpolate value).bind fun value =>
        (interpolateEntries rest).map fun rest => (key, value) :: rest

end

end

/-- A name of a string, listed if it is a secret and new. -/
def addRef (out : List (List Char)) (name : List Char) :
    List (List Char) :=
  if isRef name && !out.any fun other => other == name then out ++ [name]
  else out

mutual

/-- The `walk` of `secret_refs`. -/
def walkRefs (out : List (List Char)) :
    Yaml → Except SignalError (List (List Char))
  | .plain _ => .ok out
  | .string text =>
      (placeholders text).map fun names => names.foldl addRef out
  | .sequence items => walkItems out items
  | .mapping entries => walkEntries out entries
  | .tagged _ value => walkRefs out value

def walkItems (out : List (List Char)) :
    List Yaml → Except SignalError (List (List Char))
  | [] => .ok out
  | item :: rest => (walkRefs out item).bind fun out => walkItems out rest

def walkEntries (out : List (List Char)) :
    List (Yaml × Yaml) → Except SignalError (List (List Char))
  | [] => .ok out
  | (_, value) :: rest =>
      (walkRefs out value).bind fun out => walkEntries out rest

end

/-- Library code that reads a file. -/
structure YamlLibrary where
  /-- `parse_value`: an empty file is an empty mapping. -/
  parseValue : String → Except SignalError Yaml
  fromValue : Yaml → Except String Layer

namespace Layer

variable (library : YamlLibrary)

def fromYamlStrWith
    (environment : String → Option String) (text : String)
    (secrets : List (String × String)) : Except Fault Layer :=
  match library.parseValue text with
  | .error error => .error (.error error)
  | .ok value =>
      match interpolate environment secrets value with
      | .error fault => .error fault
      | .ok value =>
          match library.fromValue value with
          | .error message => .error (.error (configErr message))
          | .ok layer => .ok layer

/-- The names of the secret placeholders of a text, each once. -/
def secretRefs (text : String) : Except SignalError (List String) :=
  (library.parseValue text).bind fun value =>
    (walkRefs [] value).map fun names => names.map String.ofList

end Layer

/-! ## One left-to-right scan -/

/-- `Scan text pieces tail`: a scan of `text` from the left meets the
placeholders of `pieces`, each after the text that stands before it, and
no further one in `tail`. -/
inductive Scan :
    List Char → List (List Char × List Char) → List Char → Prop
  | done (tail : List Char) (clear : ¬ opening <:+: tail) : Scan tail [] tail
  | next (before name text : List Char)
      (pieces : List (List Char × List Char)) (tail : List Char)
      (clear : ¬ opening <:+: before) (named : name ≠ [])
      (closed : closing ∉ name) (rest : Scan text pieces tail) :
      Scan (before ++ (placeholder name ++ text)) ((before, name) :: pieces)
        tail

/-- The text with each placeholder replaced by its value. -/
def filled (value : List Char → List Char) (tail : List Char) :
    List (List Char × List Char) → List Char
  | [] => tail
  | (before, name) :: pieces =>
      before ++ (value name ++ filled value tail pieces)

/-- The first `${` of a text opens the first placeholder, so a search for
that placeholder finds it there. -/
theorem splitAround_placeholder
    {text before name left : List Char}
    (found : splitAround opening text =
      some (before, name ++ closing :: left)) :
    splitAround (placeholder name) text = some (before, left) := by
  induction text generalizing before with
  | nil =>
      simp [splitAround, opening, stripPrefix] at found
  | cons c text inductionHypothesis =>
      simp only [splitAround, placeholder, stripPrefix_append_left] at found ⊢
      cases stripped : stripPrefix opening (c :: text) with
      | some after =>
          simp only [stripped, Option.some.injEq, Prod.mk.injEq] at found
          obtain ⟨rfl, rfl⟩ := found
          have readBack :
              stripPrefix (name ++ [closing]) (name ++ closing :: left) =
                some left := by
            simpa using stripPrefix_append (name ++ [closing]) left
          rw [stripPrefix_append_left] at readBack
          simp [readBack]
      | none =>
          simp only [stripped] at found
          obtain ⟨⟨earlier, rest⟩, further, rebuilt⟩ :=
            Option.map_eq_some_iff.1 found
          cases rebuilt
          have same := inductionHypothesis further
          simp only [placeholder] at same
          simp [same]

/-- `before` holds no `${`, so the first one is right after it. -/
theorem splitAround_opening
    {before : List Char} (clear : ¬ opening <:+: before)
    (after : List Char) :
    splitAround opening (before ++ (opening ++ after)) =
      some (before, after) := by
  induction before with
  | nil => simp [splitAround, opening, stripPrefix]
  | cons c before inductionHypothesis =>
      have later : ¬ opening <:+: before := fun inside =>
        clear (inside.trans (List.suffix_cons c before).isInfix)
      have notHere :
          stripPrefix opening (c :: (before ++ (opening ++ after))) =
            none := by
        cases before with
        | nil => simp [opening, stripPrefix]
        | cons d before =>
            rw [Option.eq_none_iff_forall_ne_some]
            intro rest stripped
            simp only [opening, List.cons_append, stripPrefix] at stripped
            split at stripped
            · split at stripped
              · next first second =>
                  subst first second
                  exact clear ⟨[], before, rfl⟩
              · simp at stripped
            · simp at stripped
      simp only [List.cons_append, splitAround, notHere]
      simp [inductionHypothesis later]

theorem splitAround_eq_none_iff (needle text : List Char) :
    splitAround needle text = none ↔ ¬ needle <:+: text := by
  induction text with
  | nil =>
      simp [splitAround, stripPrefix_eq_none_iff]
  | cons c text inductionHypothesis =>
      rw [List.infix_cons_iff, not_or, ← inductionHypothesis,
        ← stripPrefix_eq_none_iff]
      cases stripped : stripPrefix needle (c :: text) with
      | some rest => simp [splitAround, stripped]
      | none => simp [splitAround, stripped]

theorem clear_of_splitAround
    {text before after : List Char}
    (found : splitAround opening text = some (before, after)) :
    ¬ opening <:+: before := by
  induction text generalizing before with
  | nil => simp [splitAround, opening, stripPrefix] at found
  | cons c text inductionHypothesis =>
      simp only [splitAround] at found
      split at found
      · cases found
        simp [opening]
      · next apart =>
          obtain ⟨⟨earlier, rest⟩, further, rebuilt⟩ :=
            Option.map_eq_some_iff.1 found
          cases rebuilt
          rw [List.infix_cons_iff, not_or]
          refine ⟨fun here => ?_, inductionHypothesis further⟩
          rw [stripPrefix_eq_none_iff] at apart
          apply apart
          rw [eq_append_of_splitAround further]
          exact here.trans (List.prefix_append (c :: earlier) _)

theorem placeholdersIn_next
    {text before after name left : List Char} (input : List Char)
    (opened : splitAround opening text = some (before, after))
    (closed : splitOnce closing after = some (name, left))
    (named : name ≠ []) :
    placeholdersIn input text =
      (placeholdersIn input left).map fun names => name :: names := by
  rw [placeholdersIn]
  split
  · next absent => simp [opened] at absent
  · next first second again =>
      rw [opened] at again
      cases again
      split
      · next unclosed => simp [closed] at unclosed
      · next first second again =>
          rw [closed] at again
          cases again
          rw [if_neg named]

/-- The names are those of the one scan there is. -/
theorem placeholdersIn_of_scan
    {text tail : List Char} {pieces : List (List Char × List Char)}
    (input : List Char) (scan : Scan text pieces tail) :
    placeholdersIn input text = .ok (pieces.map Prod.snd) := by
  induction scan with
  | done tail clear =>
      rw [placeholdersIn]
      split
      · rfl
      · next first second opened =>
          simp [(splitAround_eq_none_iff opening tail).2 clear] at opened
  | next before name text pieces tail clear named closed rest
      inductionHypothesis =>
      have found :
          splitAround opening (before ++ (placeholder name ++ text)) =
            some (before, name ++ closing :: text) := by
        simpa [placeholder] using
          splitAround_opening clear (name ++ closing :: text)
      rw [placeholdersIn_next input found (splitOnce_append closed text)
        named, inductionHypothesis]
      rfl

theorem scan_of_placeholdersIn
    {input text : List Char} {names : List (List Char)}
    (listed : placeholdersIn input text = .ok names) :
    ∃ pieces tail,
      Scan text pieces tail ∧ pieces.map Prod.snd = names := by
  fun_induction placeholdersIn input text generalizing names with
  | case1 text absent =>
      cases listed
      exact ⟨[], text,
        .done text ((splitAround_eq_none_iff opening text).1 absent), rfl⟩
  | case2 text before after opened unclosed => cases listed
  | case3 text before after opened left closed => cases listed
  | case4 text before after opened name left closed named
      inductionHypothesis =>
      cases further : placeholdersIn input left with
      | error error => simp [further, Except.map] at listed
      | ok more =>
          simp only [further, Except.map, Except.ok.injEq] at listed
          subst listed
          obtain ⟨pieces, tail, scan, same⟩ := inductionHypothesis further
          obtain ⟨spelled, fresh⟩ := eq_append_of_splitOnce closed
          refine ⟨(before, name) :: pieces, tail, ?_, by simp [same]⟩
          have text_eq :
              text = before ++ (placeholder name ++ left) := by
            rw [eq_append_of_splitAround opened, spelled]
            simp [placeholder]
          rw [text_eq]
          exact .next before name left pieces tail
            (clear_of_splitAround opened) named fresh scan

theorem placeholders_ok_iff (text : List Char) (names : List (List Char)) :
    placeholders text = .ok names ↔
      ∃ pieces tail,
        Scan text pieces tail ∧ pieces.map Prod.snd = names := by
  constructor
  · exact scan_of_placeholdersIn
  · rintro ⟨pieces, tail, scan, rfl⟩
    exact placeholdersIn_of_scan text scan

/-- A text is scanned in one way. -/
theorem Scan.unique
    {text tail otherTail : List Char}
    {pieces otherPieces : List (List Char × List Char)}
    (scan : Scan text pieces tail)
    (other : Scan text otherPieces otherTail) :
    pieces = otherPieces ∧ tail = otherTail := by
  induction scan generalizing otherPieces with
  | done tail clear =>
      cases other with
      | done _ _ => exact ⟨rfl, rfl⟩
      | next before name text pieces =>
          exact absurd ⟨before, name ++ [closing] ++ text, by
            simp [placeholder]⟩ clear
  | next before name text pieces tail clear named closed rest
      inductionHypothesis =>
      have found := splitAround_opening clear (name ++ closing :: text)
      generalize spelled : before ++ (placeholder name ++ text) = whole
        at other
      cases other with
      | done _ absent =>
          subst spelled
          exact absurd ⟨before, name ++ [closing] ++ text, by
            simp [placeholder]⟩ absent
      | next before' name' text' pieces' _ clear' named' closed' rest' =>
          have again := splitAround_opening clear' (name' ++ closing :: text')
          have whole_eq :
              before ++ (opening ++ (name ++ closing :: text)) =
                before' ++ (opening ++ (name' ++ closing :: text')) := by
            simpa [placeholder] using spelled
          rw [whole_eq, again, Option.some.injEq, Prod.mk.injEq] at found
          obtain ⟨rfl, same⟩ := found
          have cut := splitOnce_append closed text
          rw [← same, splitOnce_append closed' text', Option.some.injEq,
            Prod.mk.injEq] at cut
          obtain ⟨rfl, rfl⟩ := cut
          obtain ⟨rfl, rfl⟩ := inductionHypothesis rest'
          exact ⟨rfl, rfl⟩

/-! ## Substitution -/

section

variable {environment : String → Option String}
  {secrets : List (String × String)}

/-- What a name stands for. -/
def valueAt
    (environment : String → Option String)
    (secrets : List (String × String)) (name : List Char) : Option String :=
  if isRef name then secrets.lookup (String.ofList name)
  else environment (String.ofList name)

theorem valueOf_of_valueAt
    {name : List Char} {value : String}
    (found : valueAt environment secrets name = some value) :
    valueOf environment secrets name = .ok value.toList := by
  by_cases secret : isRef name
  · simp only [valueAt, secret, if_true] at found
    simp [valueOf, secret, found]
  · simp only [valueAt, secret] at found
    simp_all [valueOf]

theorem valueAt_of_valueOf
    {name value : List Char}
    (found : valueOf environment secrets name = .ok value) :
    (valueAt environment secrets name).isSome := by
  cases stands : valueAt environment secrets name with
  | some value => rfl
  | none =>
      by_cases secret : isRef name
      · simp only [valueAt, secret, if_true] at stands
        simp [valueOf, secret, stands] at found
      · simp_all [valueAt, valueOf]

/-- Each name is found where the scan met it. -/
theorem splitAround_of_scan
    {before name text : List Char} (clear : ¬ opening <:+: before) :
    splitAround (placeholder name) (before ++ (placeholder name ++ text)) =
      some (before, text) := by
  apply splitAround_placeholder
  simpa [placeholder] using
    splitAround_opening clear (name ++ closing :: text)

theorem substitute_of_scan
    {text tail : List Char} {pieces : List (List Char × List Char)}
    (scan : Scan text pieces tail)
    (valued : ∀ piece ∈ pieces, (valueAt environment secrets piece.2).isSome)
    (out : List Char) :
    substitute environment secrets out text (pieces.map Prod.snd) =
      .ok (out ++ filled
        (fun name => ((valueAt environment secrets name).getD "").toList)
        tail pieces) := by
  induction scan generalizing out with
  | done tail clear => rfl
  | next before name text pieces tail clear named closed rest
      inductionHypothesis =>
      obtain ⟨value, found⟩ :=
        Option.isSome_iff_exists.1 (valued (before, name) (by simp))
      have further := inductionHypothesis
        (fun piece member => valued piece (by simp [member]))
        (out ++ before ++ value.toList)
      simp only [List.map_cons, substitute, splitAround_of_scan clear,
        valueOf_of_valueAt found, further, filled]
      simp [found]

/-- The search for a name that the scan collected never fails. -/
theorem substitute_not_panic
    {text tail : List Char} {pieces : List (List Char × List Char)}
    (scan : Scan text pieces tail) (message : String) (out : List Char) :
    substitute environment secrets out text (pieces.map Prod.snd) ≠
      .error (.panic message) := by
  induction scan generalizing out with
  | done tail clear => simp [substitute]
  | next before name text pieces tail clear named closed rest
      inductionHypothesis =>
      simp only [List.map_cons, substitute, splitAround_of_scan clear]
      cases valueOf environment secrets name with
      | error error => simp
      | ok value => exact inductionHypothesis _

theorem valued_of_substitute
    {text tail result : List Char} {pieces : List (List Char × List Char)}
    (scan : Scan text pieces tail) (out : List Char)
    (written :
      substitute environment secrets out text (pieces.map Prod.snd) =
        .ok result) :
    ∀ piece ∈ pieces, (valueAt environment secrets piece.2).isSome := by
  induction scan generalizing out with
  | done tail clear => simp
  | next before name text pieces tail clear named closed rest
      inductionHypothesis =>
      simp only [List.map_cons, substitute, splitAround_of_scan clear]
        at written
      cases found : valueOf environment secrets name with
      | error error => simp [found] at written
      | ok value =>
          simp only [found] at written
          intro piece member
          rcases List.mem_cons.1 member with rfl | member
          · exact valueAt_of_valueOf found
          · exact inductionHypothesis _ written piece member

theorem interpolateStr_of_scan
    {text tail : List Char} {pieces : List (List Char × List Char)}
    (scan : Scan text pieces tail)
    (valued :
      ∀ piece ∈ pieces, (valueAt environment secrets piece.2).isSome) :
    interpolateStr environment secrets text =
      .ok (filled
        (fun name => ((valueAt environment secrets name).getD "").toList)
        tail pieces) := by
  simp only [interpolateStr, placeholders, placeholdersIn_of_scan text scan]
  simpa using substitute_of_scan scan valued []

theorem interpolateStr_not_panic (text : List Char) (message : String) :
    interpolateStr environment secrets text ≠ .error (.panic message) := by
  simp only [interpolateStr]
  cases listed : placeholders text with
  | error error => simp
  | ok names =>
      obtain ⟨pieces, tail, scan, rfl⟩ :=
        (placeholders_ok_iff text names).1 listed
      exact substitute_not_panic scan message []

theorem interpolateStr_ok_iff (text : List Char) :
    (∃ result, interpolateStr environment secrets text = .ok result) ↔
      ∃ names, placeholders text = .ok names ∧
        ∀ name ∈ names, (valueAt environment secrets name).isSome := by
  constructor
  · rintro ⟨result, written⟩
    simp only [interpolateStr] at written
    cases listed : placeholders text with
    | error error => simp [listed] at written
    | ok names =>
        obtain ⟨pieces, tail, scan, rfl⟩ :=
          (placeholders_ok_iff text names).1 listed
        simp only [listed] at written
        exact ⟨_, rfl,
          List.forall_mem_map.2 (valued_of_substitute scan [] written)⟩
  · rintro ⟨names, listed, valued⟩
    obtain ⟨pieces, tail, scan, rfl⟩ :=
      (placeholders_ok_iff text names).1 listed
    exact ⟨_, interpolateStr_of_scan scan (List.forall_mem_map.1 valued)⟩

/-! ## Documents -/

mutual

/-- The string values of a document, in order.  Keys are not among
them. -/
def Yaml.texts : Yaml → List (List Char)
  | .plain _ => []
  | .string text => [text]
  | .sequence items => Yaml.itemTexts items
  | .mapping entries => Yaml.entryTexts entries
  | .tagged _ value => value.texts

def Yaml.itemTexts : List Yaml → List (List Char)
  | [] => []
  | item :: rest => item.texts ++ Yaml.itemTexts rest

def Yaml.entryTexts : List (Yaml × Yaml) → List (List Char)
  | [] => []
  | (_, value) :: rest => value.texts ++ Yaml.entryTexts rest

end

theorem map_ok_iff {Error First Second : Type}
    (result : Except Error First) (change : First → Second) :
    (∃ value, result.map change = .ok value) ↔
      ∃ value, result = .ok value := by
  cases result with
  | error error => simp [Except.map]
  | ok value => simp [Except.map]

theorem bind_map_ok_iff {Error First Second Third : Type}
    (first : Except Error First) (second : Except Error Second)
    (change : First → Second → Third) :
    (∃ value, (first.bind fun value => second.map (change value)) =
        .ok value) ↔
      (∃ value, first = .ok value) ∧ ∃ value, second = .ok value := by
  cases first with
  | error error => simp [Except.bind]
  | ok value => simp [Except.bind, map_ok_iff]

mutual

/-- `interpolate` works through the string values one by one. -/
theorem interpolate_ok_iff (value : Yaml) :
    (∃ result, interpolate environment secrets value = .ok result) ↔
      ∀ text ∈ value.texts,
        ∃ result, interpolateStr environment secrets text = .ok result :=
  match value with
  | .plain text => by simp [interpolate, Yaml.texts]
  | .string text => by simp [interpolate, Yaml.texts, map_ok_iff]
  | .sequence items => by
      simpa only [interpolate, Yaml.texts, map_ok_iff] using
        interpolateItems_ok_iff items
  | .mapping entries => by
      simpa only [interpolate, Yaml.texts, map_ok_iff] using
        interpolateEntries_ok_iff entries
  | .tagged tag value => by
      simpa only [interpolate, Yaml.texts, map_ok_iff] using
        interpolate_ok_iff value

theorem interpolateItems_ok_iff (items : List Yaml) :
    (∃ result, interpolateItems environment secrets items = .ok result) ↔
      ∀ text ∈ Yaml.itemTexts items,
        ∃ result, interpolateStr environment secrets text = .ok result :=
  match items with
  | [] => by simp [interpolateItems, Yaml.itemTexts]
  | item :: rest => by
      simp only [interpolateItems, Yaml.itemTexts, bind_map_ok_iff,
        List.forall_mem_append, interpolate_ok_iff item,
        interpolateItems_ok_iff rest]

theorem interpolateEntries_ok_iff (entries : List (Yaml × Yaml)) :
    (∃ result,
        interpolateEntries environment secrets entries = .ok result) ↔
      ∀ text ∈ Yaml.entryTexts entries,
        ∃ result, interpolateStr environment secrets text = .ok result :=
  match entries with
  | [] => by simp [interpolateEntries, Yaml.entryTexts]
  | (key, value) :: rest => by
      simp only [interpolateEntries, Yaml.entryTexts, bind_map_ok_iff,
        List.forall_mem_append, interpolate_ok_iff value,
        interpolateEntries_ok_iff rest]

end

/-- One string of the walk. -/
def addRefs (out : List (List Char)) (text : List Char) :
    Except SignalError (List (List Char)) :=
  (placeholders text).map fun names => names.foldl addRef out

mutual

/-- `secret_refs` walks over the strings that `interpolate` replaces. -/
theorem walkRefs_eq_foldlM (out : List (List Char)) (value : Yaml) :
    walkRefs out value = value.texts.foldlM addRefs out :=
  match value with
  | .plain text => rfl
  | .string text => by simp [walkRefs, Yaml.texts, addRefs]
  | .sequence items => by
      simpa only [walkRefs, Yaml.texts] using walkItems_eq_foldlM out items
  | .mapping entries => by
      simpa only [walkRefs, Yaml.texts] using
        walkEntries_eq_foldlM out entries
  | .tagged tag value => by
      simpa only [walkRefs, Yaml.texts] using walkRefs_eq_foldlM out value

theorem walkItems_eq_foldlM (out : List (List Char)) (items : List Yaml) :
    walkItems out items = (Yaml.itemTexts items).foldlM addRefs out :=
  match items with
  | [] => rfl
  | item :: rest => by
      simp only [walkItems, Yaml.itemTexts, List.foldlM_append,
        walkRefs_eq_foldlM out item, walkItems_eq_foldlM _ rest]
      rfl

theorem walkEntries_eq_foldlM
    (out : List (List Char)) (entries : List (Yaml × Yaml)) :
    walkEntries out entries =
      (Yaml.entryTexts entries).foldlM addRefs out :=
  match entries with
  | [] => rfl
  | (key, value) :: rest => by
      simp only [walkEntries, Yaml.entryTexts, List.foldlM_append,
        walkRefs_eq_foldlM out value, walkEntries_eq_foldlM _ rest]
      rfl

end

theorem addRef_eq (out : List (List Char)) (name : List Char) :
    addRef out name =
      if isRef name ∧ name ∉ out then out ++ [name] else out := by
  simp [addRef, List.forall_mem_ne']

theorem mem_foldl_addRef
    (names out : List (List Char)) (name : List Char) :
    name ∈ names.foldl addRef out ↔
      name ∈ out ∨ isRef name ∧ name ∈ names := by
  induction names generalizing out with
  | nil => simp
  | cons first rest inductionHypothesis =>
      rw [List.foldl_cons, inductionHypothesis, addRef_eq]
      split
      · next new =>
          simp only [List.mem_append, List.mem_cons, List.not_mem_nil,
            or_false]
          constructor
          · rintro ((old | rfl) | ⟨secret, later⟩)
            · exact .inl old
            · exact .inr ⟨new.1, .inl rfl⟩
            · exact .inr ⟨secret, .inr later⟩
          · rintro (old | ⟨secret, rfl | later⟩)
            · exact .inl (.inl old)
            · exact .inl (.inr rfl)
            · exact .inr ⟨secret, later⟩
      · next old =>
          simp only [List.mem_cons]
          constructor
          · rintro (old | ⟨secret, later⟩)
            · exact .inl old
            · exact .inr ⟨secret, .inr later⟩
          · rintro (old | ⟨secret, rfl | later⟩)
            · exact .inl old
            · by_contra absent
              exact old ⟨secret, fun inside => absent (.inl inside)⟩
            · exact .inr ⟨secret, later⟩

/-- The secrets listed are those of well-formed strings. -/
theorem foldlM_addRefs
    {texts out names : List (List Char)}
    (listed : texts.foldlM addRefs out = .ok names) :
    (∀ text ∈ texts, ∃ found, placeholders text = .ok found) ∧
      ∀ name, name ∈ names ↔
        name ∈ out ∨ isRef name ∧ ∃ text ∈ texts, ∃ found,
          placeholders text = .ok found ∧ name ∈ found := by
  induction texts generalizing out with
  | nil =>
      cases listed
      simp
  | cons text rest inductionHypothesis =>
      rw [List.foldlM_cons] at listed
      cases found : placeholders text with
      | error error =>
          simp only [addRefs, found, Except.map] at listed
          cases listed
      | ok first =>
          simp only [addRefs, found, Except.map] at listed
          obtain ⟨formed, members⟩ := inductionHypothesis listed
          refine ⟨?_, fun name => ?_⟩
          · simp only [List.forall_mem_cons]
            exact ⟨⟨first, found⟩, formed⟩
          · rw [members, mem_foldl_addRef]
            simp only [List.exists_mem_cons_iff, found, Except.ok.injEq,
              exists_eq_left']
            tauto

theorem foldlM_addRefs_ok
    {texts : List (List Char)}
    (formed : ∀ text ∈ texts, ∃ found, placeholders text = .ok found)
    (out : List (List Char)) :
    ∃ names, texts.foldlM addRefs out = .ok names := by
  induction texts generalizing out with
  | nil => exact ⟨out, rfl⟩
  | cons text rest inductionHypothesis =>
      obtain ⟨first, found⟩ := formed text (by simp)
      rw [List.foldlM_cons]
      simp only [addRefs, found, Except.map]
      exact inductionHypothesis
        (fun text member => formed text (by simp [member])) _

/-- Every placeholder of a text is closed and named. -/
def WellFormed (text : List Char) : Prop :=
  ∃ pieces tail, Scan text pieces tail

theorem wellFormed_iff (text : List Char) :
    WellFormed text ↔ ∃ names, placeholders text = .ok names := by
  simp only [placeholders_ok_iff, WellFormed]
  constructor
  · rintro ⟨pieces, tail, scan⟩
    exact ⟨_, pieces, tail, scan, rfl⟩
  · rintro ⟨names, pieces, tail, scan, same⟩
    exact ⟨pieces, tail, scan⟩

/-- A document is interpolated exactly when its placeholders are well
formed, the environment names among them are set, and the secrets that
`secret_refs` lists are known. -/
theorem interpolate_ok_iff_refs
    (library : YamlLibrary) {text : String} {value : Yaml}
    (parsed : library.parseValue text = .ok value) :
    (∃ result, interpolate environment secrets value = .ok result) ↔
      (∀ content ∈ value.texts, WellFormed content) ∧
        (∀ content ∈ value.texts, ∀ pieces tail,
          Scan content pieces tail → ∀ piece ∈ pieces,
            ¬ isRef piece.2 →
              (environment (String.ofList piece.2)).isSome) ∧
        ∃ names, Layer.secretRefs library text = .ok names ∧
          ∀ name ∈ names, (secrets.lookup name).isSome := by
  rw [interpolate_ok_iff]
  simp only [interpolateStr_ok_iff]
  constructor
  · intro replaced
    have formed :
        ∀ content ∈ value.texts, ∃ names, placeholders content = .ok names :=
      fun content member =>
        (replaced content member).imp fun names both => both.1
    obtain ⟨names, listed⟩ := foldlM_addRefs_ok formed []
    refine ⟨fun content member =>
      (wellFormed_iff content).2 (formed content member), ?_, ?_⟩
    · intro content member pieces tail scan piece inside plain
      obtain ⟨found, read, valued⟩ := replaced content member
      rw [placeholders, placeholdersIn_of_scan content scan,
        Except.ok.injEq] at read
      have present := valued piece.2
        (read ▸ List.mem_map_of_mem (f := Prod.snd) inside)
      simpa [valueAt, plain] using present
    · refine ⟨names.map String.ofList, ?_, ?_⟩
      · simp [Layer.secretRefs, parsed, Except.bind, walkRefs_eq_foldlM,
          listed, Except.map]
      · rw [List.forall_mem_map]
        intro name member
        rcases ((foldlM_addRefs listed).2 name).1 member with
          absent | ⟨secret, content, inside, found, read, contained⟩
        · simp at absent
        · obtain ⟨others, again, valued⟩ := replaced content inside
          rw [read, Except.ok.injEq] at again
          subst again
          simpa [valueAt, secret] using valued name contained
  · rintro ⟨formed, set, names, listed, known⟩ content member
    obtain ⟨found, read⟩ := (wellFormed_iff content).1 (formed content member)
    refine ⟨found, read, fun name inside => ?_⟩
    by_cases secret : isRef name
    · simp only [valueAt, secret, if_true]
      simp only [Layer.secretRefs, parsed, Except.bind,
        walkRefs_eq_foldlM] at listed
      cases walked : value.texts.foldlM addRefs [] with
      | error error => simp [walked, Except.map] at listed
      | ok refs =>
          simp only [walked, Except.map, Except.ok.injEq] at listed
          subst listed
          exact List.forall_mem_map.1 known name
            (((foldlM_addRefs walked).2 name).2
              (.inr ⟨secret, content, member, found, read, inside⟩))
    · obtain ⟨pieces, tail, scan, rfl⟩ :=
        (placeholders_ok_iff content found).1 read
      obtain ⟨piece, present, rfl⟩ := List.mem_map.1 inside
      simpa [valueAt, secret] using
        set content member pieces tail scan piece present secret

/-- Interpolation is one left-to-right substitution, and the secrets it
needs are those that `secret_refs` lists. -/
theorem interpolation_substitutes
    (environment : String → Option String)
    (secrets : List (String × String)) :
    (∀ text message, interpolateStr environment secrets text ≠
        .error (.panic message)) ∧
      (∀ text pieces tail, Scan text pieces tail →
        (∀ piece ∈ pieces,
          (valueAt environment secrets piece.2).isSome) →
        interpolateStr environment secrets text =
          .ok (filled
            (fun name =>
              ((valueAt environment secrets name).getD "").toList)
            tail pieces)) ∧
      (∀ text,
        (¬ ∃ pieces tail, Scan text pieces tail ∧ ∀ piece ∈ pieces,
          (valueAt environment secrets piece.2).isSome) →
        ∃ error, interpolateStr environment secrets text =
          .error (.error error)) ∧
      ∀ (library : YamlLibrary) text value,
        library.parseValue text = .ok value →
          ((∃ result, interpolate environment secrets value = .ok result) ↔
            (∀ content ∈ value.texts, WellFormed content) ∧
              (∀ content ∈ value.texts, ∀ pieces tail,
                Scan content pieces tail → ∀ piece ∈ pieces,
                  ¬ isRef piece.2 →
                    (environment (String.ofList piece.2)).isSome) ∧
              ∃ names, Layer.secretRefs library text = .ok names ∧
                ∀ name ∈ names, (secrets.lookup name).isSome) := by
  refine ⟨interpolateStr_not_panic, fun text pieces tail scan valued =>
    interpolateStr_of_scan scan valued, ?_,
    fun library text value parsed => interpolate_ok_iff_refs library parsed⟩
  intro text unread
  cases written : interpolateStr environment secrets text with
  | ok result =>
      obtain ⟨names, listed, valued⟩ :=
        (interpolateStr_ok_iff text).1 ⟨result, written⟩
      obtain ⟨pieces, tail, scan, rfl⟩ :=
        (placeholders_ok_iff text names).1 listed
      exact absurd ⟨pieces, tail, scan, List.forall_mem_map.1 valued⟩ unread
  | error fault =>
      cases fault with
      | panic message =>
          exact absurd written (interpolateStr_not_panic text message)
      | error error => exact ⟨error, rfl⟩

end

/-! ## A sample document -/

def hostName : List Char := ['h', 'o', 's', 't']

def sampleToken : List Char := ['a', 'w', 's', '-', 's', 'm', ':', 't']

def sampleEnvironment (name : String) : Option String :=
  if name = String.ofList hostName then some "db" else none

/-- A value that looks like a placeholder itself. -/
def sampleSecrets : List (String × String) :=
  [(String.ofList sampleToken, String.ofList (placeholder hostName))]

/-- `at ${host}: ${aws-sm:t}.` -/
def sampleText : List Char :=
  ['a', 't', ' '] ++ (placeholder hostName ++
    ([':', ' '] ++ (placeholder sampleToken ++ ['.'])))

def samplePieces : List (List Char × List Char) :=
  [(['a', 't', ' '], hostName), ([':', ' '], sampleToken)]

def sampleDocument : Yaml :=
  .mapping [(.string ['u', 'r', 'l'], .sequence [.string sampleText])]

def sampleLibrary : YamlLibrary where
  parseValue _ := .ok sampleDocument
  fromValue _ := .ok {}

theorem scan_sampleText : Scan sampleText samplePieces ['.'] :=
  .next ['a', 't', ' '] hostName _ _ _ (by decide) (by decide)
    (by decide)
    (.next [':', ' '] sampleToken _ _ _ (by decide) (by decide) (by decide)
      (.done _ (by decide)))

theorem isRef_hostName : isRef hostName = false := by decide

theorem isRef_sampleToken : isRef sampleToken = true := by decide

theorem interpolation_substitutes_sample :
    interpolateStr sampleEnvironment sampleSecrets sampleText =
        .ok (['a', 't', ' ', 'd', 'b', ':', ' '] ++
          (placeholder hostName ++ ['.'])) ∧
      (∃ error, interpolateStr sampleEnvironment [] sampleText =
        .error (.error error)) ∧
      ∃ result, interpolate sampleEnvironment sampleSecrets
        sampleDocument = .ok result := by
  have replaced :=
    (interpolation_substitutes sampleEnvironment sampleSecrets).2.1 _ _ _
      scan_sampleText (by
        simp [samplePieces, valueAt, isRef_hostName, isRef_sampleToken,
          sampleEnvironment, sampleSecrets])
  refine ⟨?_, ?_, ?_⟩
  · rw [replaced]
    simp [samplePieces, filled, valueAt, isRef_hostName,
      isRef_sampleToken, sampleEnvironment, sampleSecrets]
  · apply (interpolation_substitutes sampleEnvironment []).2.2.1
    rintro ⟨pieces, tail, scan, valued⟩
    obtain ⟨rfl, rfl⟩ := scan_sampleText.unique scan
    have present := valued ([':', ' '], sampleToken) (by simp [samplePieces])
    simp [valueAt, isRef_sampleToken] at present
  · refine ((interpolation_substitutes sampleEnvironment
      sampleSecrets).2.2.2 sampleLibrary "" sampleDocument rfl).2
      ⟨?_, ?_, [String.ofList sampleToken], ?_, by simp [sampleSecrets]⟩
    · intro content member
      obtain rfl : content = sampleText := by
        simpa [sampleDocument, Yaml.texts, Yaml.entryTexts, Yaml.itemTexts]
          using member
      exact ⟨_, _, scan_sampleText⟩
    · intro content member pieces tail scan piece inside plain
      obtain rfl : content = sampleText := by
        simpa [sampleDocument, Yaml.texts, Yaml.entryTexts, Yaml.itemTexts]
          using member
      obtain ⟨rfl, rfl⟩ := scan_sampleText.unique scan
      simp only [samplePieces, List.mem_cons, List.not_mem_nil, or_false]
        at inside
      rcases inside with rfl | rfl
      · simp [sampleEnvironment]
      · simp [isRef_sampleToken] at plain
    · have listed := placeholdersIn_of_scan sampleText scan_sampleText
      simp [Layer.secretRefs, sampleLibrary, sampleDocument, Except.bind,
        walkRefs, walkEntries, walkItems, placeholders, listed, samplePieces,
        Except.map, addRef, isRef_hostName, isRef_sampleToken]

end OpsSignal
