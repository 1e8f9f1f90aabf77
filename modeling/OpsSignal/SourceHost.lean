import OpsSignal.Lib.Checks
import OpsSignal.Source

/-!
# The host of a plain HTTP source

Plain HTTP is allowed for loopback hosts only.  The check splits the text
of the URL by hand; the request goes to the host that the URL parser reads.
Where the authority has no userinfo the two agree.  With userinfo the
check looks at the user name.
-/

namespace OpsSignal

open Checks

/-! ## How a URL names its host -/

/-- What URL parsers drop before they read: tabs and line breaks, and
control characters and blanks at the end. -/
def urlBody (text : List Char) : List Char :=
  (text.rdropWhile fun c => c.toNat ≤ 32).filter
    fun c => c ≠ '\t' ∧ c ≠ '\n' ∧ c ≠ '\r'

/-- The characters that end the authority of a web URL. -/
def endsAuthority (c : Char) : Bool :=
  c = '/' || c = '\\' || c = '?' || c = '#'

/-- The authority, of what follows the two slashes. -/
def urlAuthority (rest : List Char) : List Char :=
  (urlBody rest).takeWhile fun c => !endsAuthority c

/-- What follows the last `@`, or everything. -/
def afterUserinfo (authority : List Char) : List Char :=
  authority.rtakeWhile fun c => c ≠ '@'

/-- The host without its port: up to a colon outside of brackets. -/
def hostText : Bool → List Char → List Char
  | _, [] => []
  | inside, c :: text =>
      if c = ':' ∧ inside = false then []
      else
        c :: hostText (if c = '[' then true
          else if c = ']' then false else inside) text

/-- The text the parser reads as the host of `http://` and `rest`. -/
def urlHostText (rest : List Char) : List Char :=
  hostText false (afterUserinfo (urlAuthority rest))

/-- What the URL parser documents. -/
structure UrlParser.Documented (urls : UrlParser) : Prop where
  host : ∀ rest url, rest.head? ≠ some '/' → rest.head? ≠ some '\\' →
    urls.parse ("http://".toList ++ rest) = .ok url →
      ∃ host, url.hostStr = some host ∧
        urls.parseHost (urlHostText rest) = some host
  /-- Loopback names and addresses are written as they are read. -/
  loopback : ∀ host ∈ loopbackHosts, urls.parseHost host = some host
  /-- A bracket opens an IPv6 address, which ends with the only closing
  bracket. -/
  brackets : ∀ text host, urls.parseHost ('[' :: text) = some host →
    ∃ address, text = address ++ [']'] ∧ ']' ∉ address

/-! ## The texts that are accepted -/

private theorem headD_splitOn (separator : Char) (text : List Char) :
    (splitOn separator text).headD [] =
      text.takeWhile (· ≠ separator) := by
  rw [List.headD_eq_head?_getD, head_splitOn]
  rfl

/-- What is left after a piece is nothing or starts with the separator. -/
private theorem split_at (separator : Char) (text : List Char) :
    ∃ tail, text = text.takeWhile (· ≠ separator) ++ tail ∧
      (tail = [] ∨ ∃ more, tail = separator :: more) := by
  refine ⟨text.dropWhile (· ≠ separator),
    List.takeWhile_append_dropWhile.symm, ?_⟩
  cases left : text.dropWhile (· ≠ separator) with
  | nil => exact Or.inl rfl
  | cons c more =>
      right
      have stopped := List.head?_dropWhile_not (· ≠ separator) text
      rw [left] at stopped
      have same : c = separator := by simpa using stopped
      exact ⟨more, by rw [same]⟩

private theorem plainHost_cases (rest : List Char) :
    (∃ count, plainHost rest = (rest.takeWhile (· ≠ '/')).take count ∧
        (rest.takeWhile (· ≠ '/')).head? = some '[') ∨
      plainHost rest =
        (rest.takeWhile (· ≠ '/')).takeWhile (· ≠ ':') := by
  rw [plainHost]
  simp only [headD_splitOn]
  split
  · split
    · rename_i stop _ opens
      exact Or.inl ⟨stop + 1, rfl, opens⟩
    · exact Or.inr rfl
  · exact Or.inr rfl

/-- A plain HTTP text passes the check if it starts with a loopback name
that ends there, or with the bracketed one. -/
theorem split_of_plainHost {rest : List Char}
    (accepted : plainHost rest ∈ loopbackHosts) :
    (∃ host ∈ ["localhost".toList, "127.0.0.1".toList], ∃ tail,
        rest = host ++ tail ∧
          (tail = [] ∨ ∃ c more, tail = c :: more ∧ (c = ':' ∨ c = '/'))) ∨
      ∃ tail, rest = "[::1]".toList ++ tail := by
  obtain ⟨path, whole, slash⟩ := split_at '/' rest
  rcases plainHost_cases rest with ⟨count, isHost, opens⟩ | isHost
  · right
    rw [isHost] at accepted
    have authority := List.take_append_drop count
      (rest.takeWhile (· ≠ '/'))
    simp only [loopbackHosts, List.mem_cons, List.not_mem_nil,
      or_false] at accepted
    rcases accepted with name | address | bracketed
    · rw [name] at authority
      rw [← authority] at opens
      cases opens
    · rw [address] at authority
      rw [← authority] at opens
      cases opens
    · rw [bracketed] at authority
      rw [← authority, List.append_assoc] at whole
      exact ⟨_, whole⟩
  · left
    rw [isHost] at accepted
    obtain ⟨port, authority, colon⟩ :=
      split_at ':' (rest.takeWhile (· ≠ '/'))
    have noColon : ':' ∉
        (rest.takeWhile (· ≠ '/')).takeWhile (· ≠ ':') := by
      intro member
      have different := List.mem_takeWhile_imp member
      simp at different
    have listed : (rest.takeWhile (· ≠ '/')).takeWhile (· ≠ ':') ∈
        ["localhost".toList, "127.0.0.1".toList] := by
      simp only [loopbackHosts, List.mem_cons, List.not_mem_nil,
        or_false] at accepted ⊢
      rcases accepted with name | address | bracketed
      · exact Or.inl name
      · exact Or.inr address
      · rw [bracketed] at noColon
        exact absurd (by decide) noColon
    refine ⟨_, listed, port ++ path, ?_, ?_⟩
    · rw [← List.append_assoc, ← authority]
      exact whole
    · rcases colon with none | ⟨more, isPort⟩
      · rw [none, List.nil_append]
        rcases slash with noPath | ⟨more, isPath⟩
        · exact Or.inl noPath
        · exact Or.inr ⟨'/', more, isPath, Or.inr rfl⟩
      · right
        rw [isPort]
        exact ⟨':', more ++ path, rfl, Or.inl rfl⟩

/-! ## The host that is read -/

def isVisible (c : Char) : Bool :=
  decide (32 < c.toNat)

private theorem rdropWhile_append_visible {front : List Char}
    (visible : front.all isVisible = true) (tail : List Char) :
    (front ++ tail).rdropWhile (fun c => c.toNat ≤ 32) =
      front ++ tail.rdropWhile fun c => c.toNat ≤ 32 := by
  induction tail using List.reverseRecOn with
  | nil =>
      rw [List.append_nil, List.rdropWhile_nil, List.append_nil,
        List.rdropWhile_eq_self_iff]
      intro someFront dropped
      have last := List.all_eq_true.mp visible _
        (List.getLast_mem someFront)
      simp only [isVisible, decide_eq_true_eq] at last dropped
      omega
  | append_singleton tail last inductionHypothesis =>
      rw [← List.append_assoc, List.rdropWhile_concat,
        List.rdropWhile_concat, inductionHypothesis]
      split
      · rfl
      · rw [List.append_assoc]

/-- Visible characters at the front stay where they are. -/
theorem urlBody_append {front : List Char} (tail : List Char)
    (visible : front.all isVisible = true) :
    urlBody (front ++ tail) = front ++ urlBody tail := by
  have stays := rdropWhile_append_visible visible tail
  have kept : front.filter (fun c => c ≠ '\t' ∧ c ≠ '\n' ∧ c ≠ '\r') =
      front := by
    rw [List.filter_eq_self]
    intro c member
    have large := List.all_eq_true.mp visible c member
    simp only [ne_eq, decide_eq_true_eq]
    refine ⟨?_, ?_, ?_⟩ <;>
    · intro same
      rw [same] at large
      cases large
  rw [urlBody, stays, List.filter_append, kept]
  rfl

theorem urlAuthority_append {front : List Char} (tail : List Char)
    (visible : front.all isVisible = true)
    (inside : front.all (fun c => !endsAuthority c) = true) :
    urlAuthority (front ++ tail) = front ++ urlAuthority tail := by
  rw [urlAuthority, urlBody_append tail visible,
    List.takeWhile_append_of_pos (List.all_eq_true.mp inside)]
  rfl

private theorem urlAuthority_slash (tail : List Char) :
    urlAuthority ('/' :: tail) = [] := by
  have body := @urlBody_append ['/'] tail rfl
  rw [List.singleton_append] at body
  rw [urlAuthority, body]
  rfl

private theorem hostText_append {front : List Char} (tail : List Char)
    (plain : front.all (fun c => c ≠ ':' ∧ c ≠ '[' ∧ c ≠ ']') = true) :
    hostText false (front ++ tail) = front ++ hostText false tail := by
  induction front with
  | nil => rfl
  | cons c front inductionHypothesis =>
      rw [List.all_cons, Bool.and_eq_true, decide_eq_true_eq] at plain
      obtain ⟨here, rest⟩ := plain
      rw [List.cons_append, hostText, if_neg (fun colon => here.1 colon.1),
        if_neg here.2.1, if_neg here.2.2, inductionHypothesis rest,
        List.cons_append]

private theorem afterUserinfo_of_not_mem {authority : List Char}
    (noUserinfo : '@' ∉ authority) :
    afterUserinfo authority = authority := by
  rw [afterUserinfo, List.rtakeWhile_eq_self_iff]
  intro c member
  have different : c ≠ '@' := fun same => noUserinfo (same ▸ member)
  simpa using different

/-- A loopback name that ends where it has to is the host. -/
private theorem urlHostText_name {host tail : List Char}
    (listed : host ∈ ["localhost".toList, "127.0.0.1".toList])
    (ends : tail = [] ∨ ∃ c more, tail = c :: more ∧ (c = ':' ∨ c = '/'))
    (noUserinfo : '@' ∉ urlAuthority (host ++ tail)) :
    urlHostText (host ++ tail) = host := by
  have facts : host.all isVisible = true ∧
      host.all (fun c => !endsAuthority c) = true ∧
      host.all (fun c => c ≠ ':' ∧ c ≠ '[' ∧ c ≠ ']') = true := by
    simp only [List.mem_cons, List.not_mem_nil, or_false] at listed
    rcases listed with rfl | rfl
    · exact ⟨rfl, rfl, rfl⟩
    · exact ⟨rfl, rfl, rfl⟩
  rw [urlHostText, afterUserinfo_of_not_mem noUserinfo,
    urlAuthority_append tail facts.1 facts.2.1,
    hostText_append _ facts.2.2]
  have port : hostText false (urlAuthority tail) = [] := by
    rcases ends with none | ⟨c, more, isTail, rfl | rfl⟩
    · rw [none]
      rfl
    · have colon := @urlAuthority_append [':'] more rfl rfl
      rw [List.singleton_append, List.singleton_append] at colon
      rw [isTail, colon, hostText, if_pos ⟨rfl, rfl⟩]
    · rw [isTail, urlAuthority_slash]
      rfl
  rw [port, List.append_nil]

/-- After the bracketed address the host can only be longer. -/
private theorem urlHostText_bracketed {tail : List Char}
    (noUserinfo : '@' ∉ urlAuthority ("[::1]".toList ++ tail)) :
    ∃ more, urlHostText ("[::1]".toList ++ tail) =
      '[' :: ("::1]".toList ++ more) := by
  have authority := @urlAuthority_append "[::1]".toList tail rfl rfl
  refine ⟨hostText false (urlAuthority tail), ?_⟩
  rw [urlHostText, afterUserinfo_of_not_mem noUserinfo, authority]
  rfl

/-- A text that was accepted and has no userinfo is read as a loopback
host, if it is read at all. -/
theorem loopback_of_plainHost
    {urls : UrlParser} (documented : urls.Documented) {rest : List Char}
    (accepted : plainHost rest ∈ loopbackHosts)
    (noUserinfo : '@' ∉ urlAuthority rest) {host : List Char}
    (isHost : urls.parseHost (urlHostText rest) = some host) :
    host ∈ loopbackHosts := by
  rcases split_of_plainHost accepted with
    ⟨name, listed, tail, rfl, ends⟩ | ⟨tail, rfl⟩
  · rw [urlHostText_name listed ends noUserinfo] at isHost
    have named : name ∈ loopbackHosts := by
      simp only [loopbackHosts, List.mem_cons, List.not_mem_nil,
        or_false] at listed ⊢
      exact listed.imp_right Or.inl
    rw [documented.loopback name named] at isHost
    cases isHost
    exact named
  · obtain ⟨more, text⟩ := urlHostText_bracketed noUserinfo
    rw [text] at isHost
    obtain ⟨address, closed, onlyClosing⟩ :=
      documented.brackets _ _ isHost
    cases more with
    | nil =>
        have own := documented.loopback "[::1]".toList (by decide)
        rw [List.append_nil] at isHost
        rw [show '[' :: "::1]".toList = "[::1]".toList from rfl,
          own] at isHost
        cases isHost
        decide
    | cons c more =>
        have early := congrArg List.dropLast closed
        rw [List.dropLast_append_of_ne_nil (List.cons_ne_nil c more),
          List.dropLast_concat] at early
        rw [← early] at onlyClosing
        exact absurd (List.mem_append_left _ (by decide)) onlyClosing

/-! ## Where HTTP sources come from -/

/-- Cloud schemes name remote sources, and no HTTP source. -/
theorem remote_of_cloud :
    ∀ entry ∈ cloudParsers, ∀ rest raw source,
      entry.2 rest raw = .ok source →
        source.isRemote = true ∧ ∀ url, source ≠ .http url := by
  intro entry listed rest raw source parsed
  simp only [cloudParsers, List.mem_cons, List.not_mem_nil,
    or_false] at listed
  rcases listed with rfl | rfl | rfl | rfl | rfl | rfl | rfl | rfl
  · obtain ⟨parts, _, isSource⟩ := map_eq_ok parsed
    cases isSource
    exact ⟨rfl, by simp⟩
  · obtain ⟨parts, _, isSource⟩ := map_eq_ok parsed
    cases isSource
    exact ⟨rfl, by simp⟩
  · obtain ⟨parts, _, isSource⟩ := map_eq_ok parsed
    cases isSource
    exact ⟨rfl, by simp⟩
  · simp only [parseAppConfig, configError] at parsed
    split at parsed
    · split at parsed
      · cases parsed
        exact ⟨rfl, by simp⟩
      · cases parsed
    · cases parsed
  · obtain ⟨query, _, parsed⟩ := bind_eq_ok parsed
    obtain ⟨parts, _, isSource⟩ := bind_eq_ok parsed
    cases isSource
    exact ⟨rfl, by simp⟩
  · obtain ⟨query, _, parsed⟩ := bind_eq_ok parsed
    simp only [configError] at parsed
    split at parsed
    · split at parsed
      · cases parsed
        exact ⟨rfl, by simp⟩
      · cases parsed
    · cases parsed
  · obtain ⟨query, _, parsed⟩ := bind_eq_ok parsed
    obtain ⟨parts, _, parsed⟩ := bind_eq_ok parsed
    simp only [configError] at parsed
    split at parsed
    · cases parsed
    · cases parsed
      exact ⟨rfl, by simp⟩
  · obtain ⟨query, _, parsed⟩ := bind_eq_ok parsed
    simp only [configError] at parsed
    split at parsed
    · split at parsed
      · cases parsed
        exact ⟨rfl, by simp⟩
      · cases parsed
    · cases parsed

/-- An HTTP source is the trimmed text.  If it is plain HTTP it has passed
the check. -/
theorem http_of_parse {raw text rest : List Char}
    (parsed : ConfigSource.parse raw = .ok (.http text))
    (plain : stripPrefix "http://".toList text = some rest) :
    plainHost rest ∈ loopbackHosts := by
  rw [ConfigSource.parse] at parsed
  cases known : schemeParsers.findSome? fun entry =>
      (stripPrefix entry.1.toList (trim raw)).map fun rest =>
        entry.2 rest (trim raw) with
  | none =>
      simp only [known, Option.getD_none, ConfigSource.parsePath,
        configError] at parsed
      split at parsed <;> cases parsed
  | some result =>
      simp only [known, Option.getD_some] at parsed
      obtain ⟨entry, listed, found⟩ := List.exists_of_findSome?_eq_some known
      obtain ⟨after, stripped, isResult⟩ := Option.map_eq_some_iff.mp found
      rw [parsed] at isResult
      rcases List.mem_append.mp listed with cloud | web
      · have notHttp := (remote_of_cloud entry cloud _ _ _ isResult).2 text
        exact absurd rfl notHttp
      · simp only [List.mem_cons, List.not_mem_nil, or_false] at web
        rcases web with rfl | rfl
        · cases isResult
          have secure := eq_append_of_stripPrefix stripped
          rw [secure] at plain
          cases plain
        · simp only [parseHttp, configError] at isResult
          split at isResult
          · rename_i accepted
            cases isResult
            rw [stripped] at plain
            cases plain
            exact accepted
          · cases isResult

theorem parse_of_mapM :
    ∀ {values : List (List Char)} {sources : List ConfigSource},
      values.mapM ConfigSource.parse = .ok sources →
        ∀ source ∈ sources, ∃ raw, ConfigSource.parse raw = .ok source
  | [], sources, mapped, source, member => by
      cases mapped
      cases member
  | value :: values, sources, mapped, source, member => by
      rw [List.mapM_cons] at mapped
      obtain ⟨first, parsed, mapped⟩ := bind_eq_ok mapped
      obtain ⟨others, rest, isSources⟩ := bind_eq_ok mapped
      cases isSources
      rcases List.mem_cons.mp member with rfl | later
      · exact ⟨value, parsed⟩
      · exact parse_of_mapM rest source later

private theorem parse_of_joinRelative
    {urls : UrlParser} {self : ConfigSource} {reference text : List Char}
    (joined : self.joinRelative urls reference = .ok (.http text)) :
    ∃ raw, ConfigSource.parse raw = .ok (.http text) := by
  cases self with
  | file path => cases joined
  | http url =>
      simp only [ConfigSource.joinRelative, ConfigSource.joinUrl,
        configError] at joined
      split at joined
      · exact ⟨_, joined⟩
      · cases joined
  | s3 | gcs | azure | azureAppConfig | dynamoDb | cosmos =>
      obtain ⟨name, _, isHttp⟩ := map_eq_ok joined
      cases isHttp
  | appConfig application environment profile =>
      simp only [ConfigSource.joinRelative, configError] at joined
      split at joined <;> cases joined
  | firestore project document database field =>
      obtain ⟨name, _, joined⟩ := bind_eq_ok joined
      simp only [configError] at joined
      split at joined <;> cases joined

/-- However a source is named, an HTTP source went through `parse`. -/
theorem parse_of_named
    {urls : UrlParser} {source : ConfigSource} {text : List Char}
    (named : Named urls source) (isHttp : source = .http text) :
    ∃ raw, ConfigSource.parse raw = .ok (.http text) := by
  cases named with
  | parsed parsed => exact ⟨_, isHttp ▸ parsed⟩
  | listed all member =>
      obtain ⟨sources, mapped, isSources⟩ := bind_eq_ok all
      simp only [configError] at isSources
      split at isSources
      · cases isSources
      · cases isSources
        obtain ⟨raw, parsed⟩ := parse_of_mapM mapped _ member
        exact ⟨raw, isHttp ▸ parsed⟩
  | joined joined =>
      obtain ⟨inner, found, checked⟩ := bind_eq_ok joined
      simp only [configError] at checked
      split at checked
      · cases checked
      · cases checked
        subst isHttp
        rw [ConfigSource.resolve] at found
        split at found
        · exact ⟨_, found⟩
        · exact parse_of_joinRelative found

/-! ## Main result -/

/-- The request for a source goes to a loopback host, if one is sent. -/
def RequestsLoopback (urls : UrlParser) (text : List Char) : Prop :=
  ∀ host, requestHost urls text = some host → host ∈ loopbackHosts

/-- The request of an accepted plain HTTP source goes to a loopback host
exactly if its authority has no userinfo, or the text is no URL, or what
follows the userinfo is read as a loopback host. -/
theorem plain_source_loopback_iff
    {urls : UrlParser} (documented : urls.Documented)
    {text rest : List Char} (named : Named urls (.http text))
    (plain : stripPrefix "http://".toList text = some rest) :
    RequestsLoopback urls text ↔
      ('@' ∈ urlAuthority rest → ∀ url, urls.parse text = .ok url →
        ∀ host, urls.parseHost (urlHostText rest) = some host →
          host ∈ loopbackHosts) := by
  obtain ⟨raw, parsed⟩ := parse_of_named named rfl
  have accepted := http_of_parse parsed plain
  have isText := eq_append_of_stripPrefix plain
  have starts : rest.head? ≠ some '/' ∧ rest.head? ≠ some '\\' := by
    rcases split_of_plainHost accepted with
      ⟨name, listed, tail, rfl, _⟩ | ⟨tail, rfl⟩
    · simp only [List.mem_cons, List.not_mem_nil, or_false] at listed
      rcases listed with rfl | rfl
      · exact ⟨nofun, nofun⟩
      · exact ⟨nofun, nofun⟩
    · exact ⟨nofun, nofun⟩
  have reads : ∀ url, urls.parse text = .ok url →
      ∃ host, url.hostStr = some host ∧
        urls.parseHost (urlHostText rest) = some host := by
    intro url isUrl
    rw [isText] at isUrl
    exact documented.host rest url starts.1 starts.2 isUrl
  constructor
  · intro loopback _ url isUrl host isHost
    obtain ⟨read, hostStr, sameHost⟩ := reads url isUrl
    rw [sameHost] at isHost
    cases isHost
    apply loopback
    rw [requestHost, isUrl]
    exact hostStr
  · intro condition host requested
    obtain ⟨url, isUrl, hostStr⟩ := Option.bind_eq_some_iff.mp requested
    have isOk : urls.parse text = .ok url := by
      cases result : urls.parse text with
      | error message =>
          rw [result] at isUrl
          cases isUrl
      | ok other =>
          rw [result] at isUrl
          cases isUrl
          rfl
    obtain ⟨read, sameStr, sameHost⟩ := reads url isOk
    rw [hostStr] at sameStr
    cases sameStr
    by_cases userinfo : '@' ∈ urlAuthority rest
    · exact condition userinfo url isOk host sameHost
    · exact loopback_of_plainHost documented accepted userinfo sameHost

/-! ## A sample parser -/

/-- Hosts as the sample reads them: names and addresses as they are
written, and one IPv6 address. -/
def sampleHost (text : List Char) : Option (List Char) :=
  if text.head? = some '[' then
    if text = "[::1]".toList then some text else none
  else if text = [] then none
  else some text

/-- A parser of `http://` URLs without ports. -/
def sampleUrls : UrlParser where
  parse text :=
    match stripPrefix "http://".toList text with
    | none => .error "relative URL without a base"
    | some rest =>
        match sampleHost (urlHostText rest) with
        | none => .error "empty host"
        | some host =>
            .ok ⟨"http".toList, some host, text⟩
  join _ _ := .error "relative URL without a base"
  parseHost := sampleHost

private theorem sampleUrls_documented : sampleUrls.Documented where
  host rest url _ _ parsed := by
    simp only [sampleUrls, stripPrefix_append] at parsed ⊢
    cases isHost : sampleHost (urlHostText rest) with
    | none =>
        rw [isHost] at parsed
        cases parsed
    | some host =>
        rw [isHost] at parsed
        cases parsed
        exact ⟨host, rfl, rfl⟩
  loopback := by
    decide +kernel
  brackets text host parsed := by
    simp only [sampleUrls, sampleHost, List.head?_cons, if_true] at parsed
    split at parsed
    · rename_i isAddress
      refine ⟨"::1".toList, ?_, by decide +kernel⟩
      exact (List.cons.inj isAddress).2
    · cases parsed

/-- A file server on this host: no userinfo, so it is addressed. -/
def localSource : List Char :=
  "http://localhost/team.yaml".toList

theorem plain_source_loopback_local :
    RequestsLoopback sampleUrls localSource := by
  have named : Named sampleUrls (.http localSource) :=
    Named.parsed (by decide +kernel :
      ConfigSource.parse localSource = .ok (.http localSource))
  have plain : stripPrefix "http://".toList localSource =
      some "localhost/team.yaml".toList := by
    decide +kernel
  have noUserinfo : '@' ∉ urlAuthority "localhost/team.yaml".toList := by
    decide +kernel
  refine (plain_source_loopback_iff sampleUrls_documented named plain).mpr ?_
  intro userinfo
  exact absurd userinfo noUserinfo

/-- A loopback name as the user of another host. -/
def disguisedSource : List Char :=
  "http://localhost:x@evil.com/".toList

theorem disguised_source_accepted :
    sampleUrls.Documented ∧
      ConfigSource.parse disguisedSource = .ok (.http disguisedSource) ∧
      requestHost sampleUrls disguisedSource = some "evil.com".toList ∧
      ¬ RequestsLoopback sampleUrls disguisedSource ∧
      checkEndpoint sampleUrls disguisedSource ≠ .ok () := by
  have elsewhere : requestHost sampleUrls disguisedSource =
      some "evil.com".toList := by
    decide +kernel
  refine ⟨sampleUrls_documented, by decide +kernel, elsewhere, ?_,
    by decide +kernel⟩
  intro loopback
  exact absurd (loopback _ elsewhere) (by decide +kernel)

end OpsSignal
