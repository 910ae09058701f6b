import AltSendme.Native.IdentityStore
import AltSendme.Protocol.Identity
import AltSendme.Relay.IpAddr
import Mathlib.Data.List.Forall2

/-! The relay a transfer or the node may use, from the settings it is asked
for with. Custom relays are probed before they are used; public ones take
their place only where the settings say so. -/
namespace AltSendme
open IpText

/-- `iroh::RelayUrl`, as its accessors show it. -/
structure RelayUrl where
  asStr : String
  scheme : String
  username : String
  password : Option String
  hostStr : Option String
  deriving DecidableEq, Repr

structure RelayConfigArg where
  mode : String
  urls : List String
  authToken : Option String
  fallback : Option String
  deriving DecidableEq, Repr

inductive RelayFallbackPolicy where
  | strict
  | public'
  deriving DecidableEq, Repr

inductive RelayModeOption where
  | disabled
  | default
  | custom (urls : List RelayUrl) (authToken : Option String)
  deriving DecidableEq, Repr

def maxRelayUrlLength : Nat := 2048
def maxRelayAuthTokenLength : Nat := 4096

/-- `char::is_control` -/
def isControl (c : Char) : Bool := c.toNat < 0x20 || (0x7F ≤ c.toNat && c.toNat ≤ 0x9F)

def hasDisallowedRelayTextChar (value : String) : Bool :=
  value.toList.any fun c => isControl c || isWhitespace c

/-- `str::len` counts bytes. -/
def normalizeRelayAuthToken : Option String → Except String (Option String)
  | none => .ok none
  | some value =>
      if trim value = "" then .error "Relay auth token must not be empty"
      else if value.utf8ByteSize > maxRelayAuthTokenLength then
        .error "Relay auth token is too long"
      else if hasDisallowedRelayTextChar value then
        .error "Relay auth token must not contain whitespace or control characters"
      else .ok (some value)

/-- `str::eq_ignore_ascii_case` -/
def eqIgnoreAsciiCase (left right : String) : Bool := left.toLowercase == right.toLowercase

def isLoopbackRelayHost (host : String) : Bool :=
  eqIgnoreAsciiCase host "localhost" || (IpAddr.parse host).any (·.isLoopback)

section
variable (fromStr : String → Option RelayUrl)

/-- `fromStr` is `iroh::RelayUrl::from_str`. -/
def parseRelayUrlForIpc (url : String) (hasAuthToken : Bool) : Except String RelayUrl :=
  if url = "" then .error "Relay URL must not be empty"
  else if url.utf8ByteSize > maxRelayUrlLength then .error "Relay URL is too long"
  else if hasDisallowedRelayTextChar url then
    .error "Relay URL must not contain whitespace or control characters"
  else
    match fromStr url with
    | none => .error "Invalid relay URL"
    | some relayUrl =>
        if relayUrl.username ≠ "" ∨ relayUrl.password.isSome then
          .error "Relay URL must not include a username or password"
        else
          match relayUrl.hostStr with
          | none => .error "Relay URL must include a host"
          | some host =>
              if relayUrl.scheme = "https" then .ok relayUrl
              else if relayUrl.scheme = "http" then
                if !hasAuthToken && isLoopbackRelayHost host then .ok relayUrl
                else if hasAuthToken then
                  .error "Relay URLs must use https when an auth token is configured"
                else .error "Plain HTTP relay URLs are only allowed for loopback hosts"
              else .error "Relay URL scheme must be https or loopback http"

/-- Every URL, or the error of the first that is refused. -/
def parseRelayUrls (hasAuthToken : Bool) : List String → Except String (List RelayUrl)
  | [] => .ok []
  | url :: rest =>
      match parseRelayUrlForIpc fromStr url hasAuthToken with
      | .error e => .error e
      | .ok relayUrl =>
          match parseRelayUrls hasAuthToken rest with
          | .error e => .error e
          | .ok relayUrls => .ok (relayUrl :: relayUrls)

def buildRelayMode : Option RelayConfigArg → Except String RelayModeOption
  | none => .ok .default
  | some arg =>
      if arg.mode = "default" then .ok .default
      else if arg.mode = "disabled" then .ok .disabled
      else if arg.mode = "custom" then
        if arg.urls = [] then .error "At least one relay URL is required for custom mode"
        else
          match normalizeRelayAuthToken arg.authToken with
          | .error e => .error e
          | .ok authToken =>
              match parseRelayUrls fromStr authToken.isSome arg.urls with
              | .error e => .error e
              | .ok urls => .ok (.custom urls authToken)
      else
        let other := arg.mode
        .error s!"Invalid relay mode: {other}"

/-- A setting from before there was a choice counts as strict. -/
def relayFallbackPolicy (arg : RelayConfigArg) : Except String RelayFallbackPolicy :=
  let fallback := arg.fallback.getD "strict"
  if fallback = "strict" then .ok .strict
  else if fallback = "public" then .ok .public'
  else .error s!"Invalid relay fallback policy: {fallback}"

/-- Without settings nothing falls back. -/
def fallbackPolicy : Option RelayConfigArg → Except String RelayFallbackPolicy
  | none => .ok .strict
  | some arg => relayFallbackPolicy arg

/-- How `probe_relay_mode` under its timeout ends. -/
inductive RelayProbe where
  | finished (result : Except String (Option String))
  | timedOut

/-- What the caller makes of the probe. -/
def RelayProbe.result : RelayProbe → Except String (Option String)
  | .finished result => result
  | .timedOut => .error "Timed out waiting for relay connection"

def applyCustomRelayProbeResult (preferred : RelayModeOption) (fallback : RelayFallbackPolicy) :
    Except String (Option String) → Except String (RelayModeOption × Bool)
  | .ok _ => .ok (preferred, false)
  | .error _ =>
      match fallback with
      | .strict => .error "Custom relay unreachable and strict fallback policy is enabled"
      | .public' => .ok (.default, true)

/-- The policy is read first, then the mode; only a custom mode is probed. -/
def resolveRelayModeWithFallback (probe : RelayModeOption → RelayProbe)
    (arg : Option RelayConfigArg) : Except String (RelayModeOption × Bool) :=
  match fallbackPolicy arg with
  | .error e => .error e
  | .ok fallback =>
      match buildRelayMode fromStr arg with
      | .error e => .error e
      | .ok (.custom urls authToken) =>
          applyCustomRelayProbeResult (.custom urls authToken) fallback
            (probe (.custom urls authToken)).result
      | .ok preferred => .ok (preferred, false)

/-- A host that names this machine. -/
def LoopbackHost (host : String) : Prop :=
  host.toLowercase = "localhost" ∨
    (∃ b c d, b < 256 ∧ c < 256 ∧ d < 256 ∧ host.toList = dotted [127, b, c, d]) ∨
    IpAddr.parse host = some (.v6 [0, 0, 0, 0, 0, 0, 0, 1])

/-- What every URL of a custom mode keeps to. -/
structure RelayUrl.Accepted (hasAuthToken : Bool) (url : RelayUrl) : Prop where
  noUsername : url.username = ""
  noPassword : url.password = none
  encrypted : url.scheme = "https" ∨ hasAuthToken = false ∧ url.scheme = "http" ∧
    ∃ host, url.hostStr = some host ∧ LoopbackHost host

variable {fromStr : String → Option RelayUrl}

theorem loopbackHost_of_isLoopbackRelayHost {host : String}
    (h : isLoopbackRelayHost host = true) : LoopbackHost host := by
  rw [isLoopbackRelayHost, Bool.or_eq_true] at h
  rcases h with hName | hAddr
  · rw [eqIgnoreAsciiCase, beq_iff_eq] at hName
    exact .inl (hName.trans (by decide))
  · cases hParsed : IpAddr.parse host with
    | none => rw [hParsed] at hAddr; cases hAddr
    | some addr =>
        rw [hParsed, Option.any_some] at hAddr
        cases addr with
        | v6 segments =>
            rw [IpAddr.isLoopback, decide_eq_true_eq] at hAddr
            exact .inr (.inr (by rw [hParsed, hAddr]))
        | v4 octets =>
            obtain ⟨hLength, hAll, hText⟩ := parse_eq_v4 hParsed
            obtain ⟨a, b, c, d, rfl⟩ := List.length_eq_four.mp hLength
            obtain rfl : a = 127 := by simpa [IpAddr.isLoopback] using hAddr
            exact .inr (.inl ⟨b, c, d, hAll b (by simp), hAll c (by simp), hAll d (by simp), hText⟩)

/-- Exactly the URLs that are parsed and used. -/
theorem parseRelayUrlForIpc_eq_ok {url : String} {hasAuthToken : Bool} {relayUrl : RelayUrl} :
    parseRelayUrlForIpc fromStr url hasAuthToken = .ok relayUrl ↔
      url ≠ "" ∧ url.utf8ByteSize ≤ maxRelayUrlLength ∧ hasDisallowedRelayTextChar url = false ∧
        fromStr url = some relayUrl ∧ relayUrl.username = "" ∧ relayUrl.password = none ∧
        ∃ host, relayUrl.hostStr = some host ∧ (relayUrl.scheme = "https" ∨
          relayUrl.scheme = "http" ∧ hasAuthToken = false ∧ isLoopbackRelayHost host = true) := by
  constructor
  · intro h
    unfold parseRelayUrlForIpc at h
    split at h
    · cases h
    next hSome =>
    split at h
    · cases h
    next hLength =>
    split at h
    · cases h
    next hText =>
    split at h
    · cases h
    next parsed hParsed =>
    split at h
    · cases h
    next hCredentials =>
    rw [not_or, not_not, Bool.not_eq_true, Option.isSome_eq_false_iff, Option.isNone_iff_eq_none]
      at hCredentials
    split at h
    · cases h
    next host hHost =>
    have hUsable : relayUrl = parsed ∧ (parsed.scheme = "https" ∨
        parsed.scheme = "http" ∧ hasAuthToken = false ∧ isLoopbackRelayHost host = true) := by
      split at h
      · next hHttps => exact ⟨(Except.ok.inj h).symm, .inl hHttps⟩
      · split at h
        · next hHttp =>
          split at h
          · next hLocal =>
            rw [Bool.and_eq_true, Bool.not_eq_true'] at hLocal
            exact ⟨(Except.ok.inj h).symm, .inr ⟨hHttp, hLocal⟩⟩
          · split at h <;> cases h
        · cases h
    obtain ⟨rfl, hScheme⟩ := hUsable
    exact ⟨hSome, Nat.not_lt.mp hLength, Bool.eq_false_iff.mpr hText, hParsed, hCredentials.1,
      hCredentials.2, host, hHost, hScheme⟩
  · rintro ⟨hSome, hLength, hText, hParsed, hUser, hPassword, host, hHost, hScheme⟩
    rw [parseRelayUrlForIpc, if_neg hSome, if_neg (Nat.not_lt.mpr hLength),
      if_neg (Bool.eq_false_iff.mp hText)]
    simp only [hParsed, hUser, hPassword, hHost]
    rcases hScheme with hHttps | ⟨hHttp, hToken, hLoopback⟩
    · simp [hHttps]
    · simp [hHttp, hToken, hLoopback]

theorem parseRelayUrlForIpc_ok {url : String} {hasAuthToken : Bool} {relayUrl : RelayUrl}
    (h : parseRelayUrlForIpc fromStr url hasAuthToken = .ok relayUrl) :
    fromStr url = some relayUrl ∧ relayUrl.Accepted hasAuthToken := by
  obtain ⟨-, -, -, hParsed, hUser, hPassword, host, hHost, hScheme⟩ :=
    parseRelayUrlForIpc_eq_ok.mp h
  refine ⟨hParsed, hUser, hPassword, hScheme.imp_right ?_⟩
  rintro ⟨hHttp, hToken, hLoopback⟩
  exact ⟨hToken, hHttp, host, hHost, loopbackHost_of_isLoopbackRelayHost hLoopback⟩

/-- The URLs are parsed one by one, or none is. -/
theorem parseRelayUrls_eq_ok {hasAuthToken : Bool} {texts : List String} {urls : List RelayUrl} :
    parseRelayUrls fromStr hasAuthToken texts = .ok urls ↔
      List.Forall₂ (fun text url => parseRelayUrlForIpc fromStr text hasAuthToken = .ok url)
        texts urls := by
  induction texts generalizing urls with
  | nil =>
      rw [parseRelayUrls, List.forall₂_nil_left_iff]
      exact ⟨fun h => (Except.ok.inj h).symm, fun h => congrArg _ h.symm⟩
  | cons text rest ih =>
      rw [parseRelayUrls, List.forall₂_cons_left_iff]
      cases hUrl : parseRelayUrlForIpc fromStr text hasAuthToken with
      | error e => simp
      | ok url =>
          simp only [Except.ok.injEq, exists_and_left, exists_eq_left']
          constructor
          · intro h
            cases hRest : parseRelayUrls fromStr hasAuthToken rest with
            | error e => rw [hRest] at h; cases h
            | ok others =>
                rw [hRest] at h
                exact ⟨others, ih.mp hRest, (Except.ok.inj h).symm⟩
          · rintro ⟨others, hRest, rfl⟩
            rw [ih.mpr hRest]

/-- A list is parsed when each of its URLs is. -/
theorem exists_parseRelayUrls {hasAuthToken : Bool} {texts : List String} :
    (∃ urls, parseRelayUrls fromStr hasAuthToken texts = .ok urls) ↔
      ∀ text ∈ texts, ∃ url, parseRelayUrlForIpc fromStr text hasAuthToken = .ok url := by
  simp only [parseRelayUrls_eq_ok]
  induction texts with
  | nil => exact ⟨fun _ => nofun, fun _ => ⟨[], .nil⟩⟩
  | cons text rest ih =>
      rw [List.forall_mem_cons, ← ih]
      constructor
      · rintro ⟨urls, hAll⟩
        obtain ⟨url, others, hUrl, hRest, -⟩ := List.forall₂_cons_left_iff.mp hAll
        exact ⟨⟨url, hUrl⟩, others, hRest⟩
      · rintro ⟨⟨url, hUrl⟩, others, hRest⟩
        exact ⟨url :: others, .cons hUrl hRest⟩

theorem parseRelayUrls_ok {hasAuthToken : Bool} {texts : List String} {urls : List RelayUrl}
    (h : parseRelayUrls fromStr hasAuthToken texts = .ok urls) :
    texts.map fromStr = urls.map some ∧ ∀ url ∈ urls, url.Accepted hasAuthToken := by
  induction parseRelayUrls_eq_ok.mp h with
  | nil => exact ⟨rfl, nofun⟩
  | cons hUrl hRest ih =>
      obtain ⟨hParsed, hAccepted⟩ := parseRelayUrlForIpc_ok hUrl
      obtain ⟨hOthers, hAll⟩ := ih (parseRelayUrls_eq_ok.mpr hRest)
      refine ⟨?_, List.forall_mem_cons.mpr ⟨hAccepted, hAll⟩⟩
      rw [List.map_cons, List.map_cons, hParsed, hOthers]

/-- A token is passed on as it stands, or refused. -/
theorem normalizeRelayAuthToken_ok {value authToken : Option String}
    (h : normalizeRelayAuthToken value = .ok authToken) :
    authToken = value ∧
      ∀ token, authToken = some token → hasDisallowedRelayTextChar token = false := by
  cases value with
  | none =>
      obtain rfl := Except.ok.inj h
      exact ⟨rfl, nofun⟩
  | some text =>
      simp only [normalizeRelayAuthToken] at h
      split at h
      · cases h
      split at h
      · cases h
      split at h
      · cases h
      next hAllowed =>
      obtain rfl := Except.ok.inj h
      refine ⟨rfl, ?_⟩
      intro token hToken
      obtain rfl := Option.some.inj hToken
      exact Bool.eq_false_iff.mpr hAllowed

/-- Settings in custom mode give a custom mode or nothing. -/
theorem buildRelayMode_of_custom {arg : RelayConfigArg} {mode : RelayModeOption}
    (hMode : arg.mode = "custom") (h : buildRelayMode fromStr (some arg) = .ok mode) :
    ∃ urls authToken, mode = .custom urls authToken ∧ arg.urls ≠ [] ∧
      normalizeRelayAuthToken arg.authToken = .ok authToken ∧
      parseRelayUrls fromStr authToken.isSome arg.urls = .ok urls := by
  simp only [buildRelayMode, hMode] at h
  rw [if_neg (by decide), if_neg (by decide), if_pos trivial] at h
  split at h
  · cases h
  next hSome =>
  cases hToken : normalizeRelayAuthToken arg.authToken with
  | error e => rw [hToken] at h; cases h
  | ok token =>
      rw [hToken] at h
      dsimp only at h
      cases hUrls : parseRelayUrls fromStr token.isSome arg.urls with
      | error e => rw [hUrls] at h; cases h
      | ok urls =>
          rw [hUrls] at h
          exact ⟨urls, token, (Except.ok.inj h).symm, hSome, rfl, hUrls⟩

/-- What a custom mode is built from. -/
theorem buildRelayMode_eq_custom {arg : RelayConfigArg} {urls : List RelayUrl}
    {authToken : Option String} :
    buildRelayMode fromStr (some arg) = .ok (.custom urls authToken) ↔
      arg.mode = "custom" ∧ arg.urls ≠ [] ∧ normalizeRelayAuthToken arg.authToken = .ok authToken ∧
        parseRelayUrls fromStr authToken.isSome arg.urls = .ok urls := by
  constructor
  · intro h
    have hMode : arg.mode = "custom" := by
      by_contra hOther
      simp only [buildRelayMode, if_neg hOther] at h
      split at h
      · cases h
      split at h <;> cases h
    obtain ⟨parsed, token, hSame, hSome, hToken, hUrls⟩ := buildRelayMode_of_custom hMode h
    cases hSame
    exact ⟨hMode, hSome, hToken, hUrls⟩
  · rintro ⟨hMode, hSome, hToken, hUrls⟩
    simp only [buildRelayMode, hMode, hToken, hUrls, if_neg hSome]
    rfl

/-- A custom mode is the one that was configured, and safe to use. -/
theorem buildRelayMode_custom {arg : RelayConfigArg} {urls : List RelayUrl}
    {authToken : Option String}
    (h : buildRelayMode fromStr (some arg) = .ok (.custom urls authToken)) :
    arg.urls.map fromStr = urls.map some ∧ authToken = arg.authToken ∧
      (∀ url ∈ urls, url.Accepted authToken.isSome) ∧
      ∀ token, authToken = some token → hasDisallowedRelayTextChar token = false := by
  obtain ⟨-, -, hToken, hUrls⟩ := buildRelayMode_eq_custom.mp h
  obtain ⟨hSame, hClean⟩ := normalizeRelayAuthToken_ok hToken
  obtain ⟨hParsed, hAccepted⟩ := parseRelayUrls_ok hUrls
  exact ⟨hParsed, hSame, hAccepted, hClean⟩

theorem relayFallbackPolicy_public {arg : RelayConfigArg}
    (h : relayFallbackPolicy arg = .ok .public') : arg.fallback = some "public" := by
  simp only [relayFallbackPolicy] at h
  split at h
  · cases h
  split at h
  · next hNot hPublic =>
    cases hFallback : arg.fallback with
    | none => rw [hFallback] at hPublic; exact absurd hPublic (by decide)
    | some policy =>
        rw [hFallback] at hPublic
        exact congrArg some hPublic
  · cases h

/-- What a resolved mode says about the settings it comes from. -/
theorem resolveRelayModeWithFallback_ok {probe : RelayModeOption → RelayProbe}
    {arg : Option RelayConfigArg} {mode : RelayModeOption} {fellBack : Bool}
    (h : resolveRelayModeWithFallback fromStr probe arg = .ok (mode, fellBack)) :
    buildRelayMode fromStr arg = .ok mode ∧ fellBack = false ∨
      ∃ urls authToken, buildRelayMode fromStr arg = .ok (.custom urls authToken) ∧
        fallbackPolicy arg = .ok .public' ∧
        (probe (.custom urls authToken)).result.isOk = false ∧ mode = .default ∧
        fellBack = true := by
  rw [resolveRelayModeWithFallback] at h
  cases hPolicy : fallbackPolicy arg with
  | error e => rw [hPolicy] at h; cases h
  | ok fallback =>
      rw [hPolicy] at h
      cases hBuilt : buildRelayMode fromStr arg with
      | error e => rw [hBuilt] at h; cases h
      | ok preferred =>
          rw [hBuilt] at h
          cases preferred with
          | disabled => cases h; exact .inl ⟨rfl, rfl⟩
          | default => cases h; exact .inl ⟨rfl, rfl⟩
          | custom urls authToken =>
              dsimp only at h
              cases hProbe : (probe (.custom urls authToken)).result with
              | ok url => rw [hProbe] at h; cases h; exact .inl ⟨rfl, rfl⟩
              | error e =>
                  rw [hProbe] at h
                  cases fallback with
                  | strict => cases h
                  | public' =>
                      cases h
                      exact .inr ⟨urls, authToken, rfl, rfl, by rw [hProbe]; rfl, rfl, rfl⟩

/-- Custom settings give the configured relays, or the public ones where the
settings allow that and the probe failed; no custom mode leaves the rules. -/
theorem custom_relay_fails_closed (probe : RelayModeOption → RelayProbe)
    (arg : Option RelayConfigArg) (mode : RelayModeOption) (fellBack : Bool)
    (h : resolveRelayModeWithFallback fromStr probe arg = .ok (mode, fellBack)) :
    (∀ config, arg = some config → config.mode = "custom" →
      (∃ urls, config.urls.map fromStr = urls.map some ∧
          mode = .custom urls config.authToken ∧ fellBack = false) ∨
        config.fallback = some "public" ∧ mode = .default ∧ fellBack = true ∧
          ∃ urls, config.urls.map fromStr = urls.map some ∧
            (probe (.custom urls config.authToken)).result.isOk = false) ∧
      ∀ urls authToken, mode = .custom urls authToken →
        (∀ url ∈ urls, url.Accepted authToken.isSome) ∧
          ∀ token, authToken = some token →
            (∀ url ∈ urls, url.scheme = "https") ∧ hasDisallowedRelayTextChar token = false := by
  have hResolved := resolveRelayModeWithFallback_ok h
  refine ⟨?_, ?_⟩
  · rintro config rfl hMode
    rcases hResolved with ⟨hBuilt, rfl⟩ | ⟨urls, authToken, hBuilt, hPolicy, hProbe, rfl, rfl⟩
    · obtain ⟨urls, authToken, rfl, -⟩ := buildRelayMode_of_custom hMode hBuilt
      obtain ⟨hUrls, rfl, -⟩ := buildRelayMode_custom hBuilt
      exact .inl ⟨urls, hUrls, rfl, rfl⟩
    · obtain ⟨hUrls, rfl, -⟩ := buildRelayMode_custom hBuilt
      exact .inr ⟨relayFallbackPolicy_public hPolicy, rfl, rfl, urls, hUrls, hProbe⟩
  · rintro urls authToken rfl
    rcases hResolved with ⟨hBuilt, -⟩ | ⟨_, _, -, -, -, hDefault, -⟩
    · cases arg with
      | none => cases hBuilt
      | some config =>
          obtain ⟨-, -, hAccepted, hClean⟩ := buildRelayMode_custom hBuilt
          refine ⟨hAccepted, ?_⟩
          rintro token rfl
          refine ⟨?_, hClean token rfl⟩
          intro url hUrl
          rcases (hAccepted url hUrl).encrypted with hHttps | ⟨hNone, -⟩
          · exact hHttps
          · cases hNone
    · cases hDefault

end

section
private def exampleRelay : RelayUrl :=
  ⟨"https://relay.example.com/", "https", "", none, some "relay.example.com"⟩

private def exampleFromStr (text : String) : Option RelayUrl :=
  if text = "https://relay.example.com" then some exampleRelay else none

private def exampleConfig (fallback : Option String) : RelayConfigArg :=
  ⟨"custom", ["https://relay.example.com"], some "secret", fallback⟩

theorem custom_relay_fails_closed_probed :
    (∀ url ∈ [exampleRelay], url.Accepted true) ∧
      (exampleConfig (some "public")).fallback = some "public" := by
  refine ⟨?_, ?_⟩
  · have hResolved : resolveRelayModeWithFallback exampleFromStr
        (fun _ => .finished (.ok none)) (some (exampleConfig none)) =
          .ok (.custom [exampleRelay] (some "secret"), false) := by decide
    exact ((custom_relay_fails_closed _ _ _ _ hResolved).2 _ _ rfl).1
  · have hResolved : resolveRelayModeWithFallback exampleFromStr (fun _ => .timedOut)
        (some (exampleConfig (some "public"))) = .ok (.default, true) := by decide
    rcases (custom_relay_fails_closed _ _ _ _ hResolved).1 _ rfl rfl with ⟨_, _, h, _⟩ | ⟨h, _⟩
    · cases h
    · exact h

end

end AltSendme
