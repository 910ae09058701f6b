import AltSendme.Relay.RelayMode
import Mathlib.Algebra.Ring.Nat

/-! The relay settings as the screen checks them and as the engine does. Both
read a URL by the WHATWG rules; what they ask of it besides differs. -/
namespace AltSendme
open IpText

/-- A parsed URL. The host is the serialized one, with brackets around IPv6. -/
structure UrlRecord where
  href : String
  scheme : String
  username : String
  password : String
  host : Option String
  deriving DecidableEq, Repr

/-- The record behind the accessors of the `url` crate, which has no empty password. -/
def UrlRecord.toRelayUrl (url : UrlRecord) : RelayUrl where
  asStr := url.href
  scheme := url.scheme
  username := url.username
  password := if url.password = "" then none else some url.password
  hostStr := url.host

/-- `hostname` and `protocol` of a `URL` object. -/
def UrlRecord.hostname (url : UrlRecord) : String := url.host.getD ""
def UrlRecord.protocol (url : UrlRecord) : String := url.scheme ++ ":"

/-- `String.prototype.length` counts UTF-16 units. -/
def utf16Length (text : String) : Nat :=
  (text.toList.map fun c => if c.toNat < 0x10000 then 1 else 2).sum

/-- What `String.prototype.trim` takes off: white space and line terminators. -/
def isJsWhitespace (c : Char) : Bool :=
  [0x20, 0xA0, 0x1680, 0x2028, 0x2029, 0x202F, 0x205F, 0x3000, 0xFEFF].contains c.toNat ||
    (9 ≤ c.toNat && c.toNat ≤ 13) || (0x2000 ≤ c.toNat && c.toNat ≤ 0x200A)

def jsTrim (text : String) : String :=
  String.ofList
    ((text.toList.dropWhile isJsWhitespace).reverse.dropWhile isJsWhitespace).reverse

/-- `RelayMode` of the settings, apart from the engine's. -/
inductive RelayChoice where
  | default
  | custom
  | disabled
  deriving DecidableEq, Repr

def RelayChoice.toStr : RelayChoice → String
  | .default => "default"
  | .custom => "custom"
  | .disabled => "disabled"

def RelayFallbackPolicy.toStr : RelayFallbackPolicy → String
  | .strict => "strict"
  | .public' => "public"

structure RelayConfigInput where
  relayMode : RelayChoice
  relayUrls : List String
  relayAuthToken : String
  relayFallback : RelayFallbackPolicy
  deriving DecidableEq, Repr

def effectiveRelayMode (isWeb : Bool) (relayMode : RelayChoice) : RelayChoice :=
  if isWeb && relayMode = .disabled then .default else relayMode

/-- Only an empty field is omitted. -/
def relayAuthTokenForIpc (value : String) : Option String :=
  if value = "" then none else some value

/-- `map` of `trim`, then `filter(Boolean)`. -/
def trimmedUrls (relayUrls : List String) : List String :=
  (relayUrls.map jsTrim).filter (· ≠ "")

def buildRelayConfigArg (isWeb : Bool) (input : RelayConfigInput) : RelayConfigArg :=
  let mode := effectiveRelayMode isWeb input.relayMode
  { mode := mode.toStr
    urls := if mode = .custom then trimmedUrls input.relayUrls else []
    authToken := if mode = .custom then relayAuthTokenForIpc input.relayAuthToken else none
    fallback := some input.relayFallback.toStr }

def isLoopbackHost (hostname : String) : Bool :=
  hostname = "localhost" || hostname = "127.0.0.1" || hostname = "[::1]"

section
variable (parse : String → Option UrlRecord)

/-- `parse` is the WHATWG parser, here `new URL`. -/
def isValidRelayUrl (url : String) : Bool :=
  if utf16Length url = 0 || utf16Length url > 2048 then false
  else
    match parse url with
    | none => false
    | some parsed =>
        if parsed.hostname = "" then false
        else if parsed.username ≠ "" || parsed.password ≠ "" then false
        else if parsed.protocol = "https:" then true
        else parsed.protocol = "http:" && isLoopbackHost parsed.hostname

/-- The `URL` object of a text that has passed `isValidRelayUrl` is there. -/
def isCleartext (url : String) : Bool :=
  (parse url).any fun parsed => parsed.protocol ≠ "https:"

/-- The message of `verifyCustomRelays` before it asks the engine. -/
def relaySettingsError (relayUrls : List String) (relayAuthToken : String) : Option String :=
  let urls := trimmedUrls relayUrls
  if urls = [] then some "settings.network.relay.urlRequired"
  else if urls.any fun url => !isValidRelayUrl parse url then
    some "settings.network.relay.urlInvalidHint"
  else if relayAuthTokenForIpc relayAuthToken ≠ none ∧ urls.any (isCleartext parse) then
    some "settings.network.relay.urlInvalidHint"
  else none

/-- The same parser, as `iroh::RelayUrl::from_str` uses it. -/
def relayUrlFromStr (url : String) : Option RelayUrl := (parse url).map UrlRecord.toRelayUrl

end

section
variable {parse : String → Option UrlRecord} {url : String}

theorem protocol_eq_iff {parsed : UrlRecord} {scheme : String} :
    parsed.protocol = scheme ++ ":" ↔ parsed.scheme = scheme := by
  rw [UrlRecord.protocol]
  constructor
  · intro h
    have hChars := congrArg String.toList h
    rw [String.toList_append, String.toList_append] at hChars
    exact String.toList_injective (List.append_cancel_right hChars)
  · rintro rfl
    rfl

/-- What the screen asks of a URL. -/
theorem isValidRelayUrl_iff :
    isValidRelayUrl parse url = true ↔
      0 < utf16Length url ∧ utf16Length url ≤ 2048 ∧ ∃ parsed, parse url = some parsed ∧
        parsed.hostname ≠ "" ∧ parsed.username = "" ∧ parsed.password = "" ∧
        (parsed.scheme = "https" ∨
          parsed.scheme = "http" ∧ isLoopbackHost parsed.hostname = true) := by
  have hHttps (parsed : UrlRecord) : parsed.protocol = "https:" ↔ parsed.scheme = "https" :=
    @protocol_eq_iff parsed "https"
  have hHttp (parsed : UrlRecord) : parsed.protocol = "http:" ↔ parsed.scheme = "http" :=
    @protocol_eq_iff parsed "http"
  rw [isValidRelayUrl]
  cases parse url with
  | none => simp
  | some parsed =>
      simp only [hHttps, hHttp, Option.some.injEq, exists_eq_left']
      by_cases hLength : utf16Length url = 0 ∨ 2048 < utf16Length url
      · rw [if_pos (by simpa using hLength)]
        constructor
        · nofun
        · rintro ⟨hPos, hShort, -⟩
          omega
      · rw [if_neg (by simpa using hLength)]
        have hPos : 0 < utf16Length url := by omega
        have hShort : utf16Length url ≤ 2048 := by omega
        simp only [hPos, hShort, true_and]
        by_cases hHost : parsed.hostname = "" <;> by_cases hUser : parsed.username = "" <;>
          by_cases hPassword : parsed.password = "" <;> simp [hHost, hUser, hPassword]

theorem isCleartext_of_parsed {parsed : UrlRecord} (h : parse url = some parsed) :
    isCleartext parse url = false ↔ parsed.scheme = "https" := by
  have hHttps : parsed.protocol = "https:" ↔ parsed.scheme = "https" :=
    @protocol_eq_iff parsed "https"
  simp [isCleartext, h, hHttps]

/-- No host in brackets counts as loopback. -/
theorem isLoopbackRelayHost_bracket {host : String} {rest : List Char}
    (h : host.toList = '[' :: rest) : isLoopbackRelayHost host = false := by
  have hName : eqIgnoreAsciiCase host "localhost" = false := by
    rw [eqIgnoreAsciiCase, beq_eq_false_iff_ne]
    intro hSame
    have hChars := congrArg String.toList hSame
    rw [String.toLowercase, h] at hChars
    revert hChars
    simp [String.toLowercase]
  rw [isLoopbackRelayHost, hName, parse_bracket h]
  rfl

/-- What the engine asks of a URL beyond what the screen does. -/
structure EngineReads (parse : String → Option UrlRecord) (url : String) : Prop where
  short : url.utf8ByteSize ≤ maxRelayUrlLength
  plain : hasDisallowedRelayTextChar url = false
  noBrackets : ∀ parsed, parse url = some parsed → parsed.scheme = "http" →
    parsed.host ≠ some "[::1]"

/-- Of the URLs the screen accepts, the engine takes those and no others. -/
theorem engine_accepts_iff {hasAuthToken : Bool} (hValid : isValidRelayUrl parse url = true)
    (hSome : url ≠ "") (hEncrypted : hasAuthToken = true → isCleartext parse url = false) :
    (∃ relayUrl, parseRelayUrlForIpc (relayUrlFromStr parse) url hasAuthToken = .ok relayUrl) ↔
      EngineReads parse url := by
  obtain ⟨-, -, parsed, hParsed, hHostname, hUser, hPassword, hScheme⟩ := isValidRelayUrl_iff.mp hValid
  obtain ⟨host, hHost⟩ : ∃ host, parsed.host = some host := by
    rw [← Option.ne_none_iff_exists']
    intro hNone
    exact hHostname (by rw [UrlRecord.hostname, hNone]; rfl)
  have hName : parsed.hostname = host := by rw [UrlRecord.hostname, hHost]; rfl
  constructor
  · rintro ⟨relayUrl, hOk⟩
    obtain ⟨-, hShort, hPlain, hRecord, -, -, host', hHost', hUsable⟩ :=
      parseRelayUrlForIpc_eq_ok.mp hOk
    obtain rfl : parsed.toRelayUrl = relayUrl := by simpa [relayUrlFromStr, hParsed] using hRecord
    refine ⟨hShort, hPlain, ?_⟩
    intro other hOther hHttp hBrackets
    obtain rfl : parsed = other := Option.some.inj (hParsed.symm.trans hOther)
    obtain rfl : host' = "[::1]" := Option.some.inj (hHost'.symm.trans hBrackets)
    rcases hUsable with hHttps | ⟨-, -, hLoopback⟩
    · have hNot : ("http" : String) ≠ "https" := by decide
      exact hNot (hHttp.symm.trans hHttps)
    · rw [@isLoopbackRelayHost_bracket "[::1]" "::1]".toList rfl] at hLoopback
      cases hLoopback
  · intro hReads
    refine ⟨parsed.toRelayUrl, parseRelayUrlForIpc_eq_ok.mpr ⟨hSome, hReads.short, hReads.plain,
      by simp [relayUrlFromStr, hParsed], hUser, if_pos hPassword, host, hHost, ?_⟩⟩
    rcases hScheme with hHttps | ⟨hHttp, hLoopback⟩
    · exact .inl hHttps
    · refine .inr ⟨hHttp, ?_, ?_⟩
      · cases hasAuthToken with
        | false => rfl
        | true =>
            have hHttps := (isCleartext_of_parsed hParsed).mp (hEncrypted rfl)
            exact absurd (hHttp.symm.trans hHttps) (by decide)
      · have hOther := hReads.noBrackets parsed hParsed hHttp
        rw [hHost, Ne, Option.some.injEq] at hOther
        rw [isLoopbackHost, hName] at hLoopback
        simp only [Bool.or_eq_true, decide_eq_true_eq] at hLoopback
        rcases hLoopback with (rfl | rfl) | hBrackets
        · decide
        · decide
        · exact absurd hBrackets hOther

/-- Custom settings in which the screen finds no fault. -/
structure ScreenAccepts (parse : String → Option UrlRecord) (input : RelayConfigInput) :
    Prop where
  custom : input.relayMode = .custom
  valid : ∀ url ∈ trimmedUrls input.relayUrls, isValidRelayUrl parse url = true
  encrypted : relayAuthTokenForIpc input.relayAuthToken ≠ none →
    ∀ url ∈ trimmedUrls input.relayUrls, isCleartext parse url = false
  token : ∃ authToken,
    normalizeRelayAuthToken (relayAuthTokenForIpc input.relayAuthToken) = .ok authToken

/-- What the screen accepts the engine turns into these relays exactly when
there is a URL and it reads each of them. -/
theorem relay_settings_agree_iff (isWeb : Bool) {input : RelayConfigInput}
    (hAccepted : ScreenAccepts parse input) :
    (∃ urls, buildRelayMode (relayUrlFromStr parse) (some (buildRelayConfigArg isWeb input)) =
        .ok (.custom urls (relayAuthTokenForIpc input.relayAuthToken)) ∧
      (trimmedUrls input.relayUrls).map (relayUrlFromStr parse) = urls.map some) ↔
      trimmedUrls input.relayUrls ≠ [] ∧
        ∀ url ∈ trimmedUrls input.relayUrls, EngineReads parse url := by
  obtain ⟨hCustom, hValid, hEncrypted, authToken, hToken⟩ := hAccepted
  have hSame := (normalizeRelayAuthToken_ok hToken).1
  rw [hSame] at hToken
  have hMode : effectiveRelayMode isWeb input.relayMode = .custom := by
    rw [effectiveRelayMode, hCustom]
    simp
  have hArg : buildRelayConfigArg isWeb input =
      ⟨"custom", trimmedUrls input.relayUrls, relayAuthTokenForIpc input.relayAuthToken,
        some input.relayFallback.toStr⟩ := by
    simp only [buildRelayConfigArg, hMode]
    rfl
  have hEach : ∀ url ∈ trimmedUrls input.relayUrls,
      ((∃ relayUrl, parseRelayUrlForIpc (relayUrlFromStr parse) url
          (relayAuthTokenForIpc input.relayAuthToken).isSome = .ok relayUrl) ↔
        EngineReads parse url) := by
    intro url hUrl
    refine engine_accepts_iff (hValid url hUrl) ?_ ?_
    · simpa using (List.mem_filter.mp hUrl).2
    · intro hHas
      exact hEncrypted (Option.isSome_iff_ne_none.mp hHas) url hUrl
  simp only [hArg, buildRelayMode_eq_custom, hToken, true_and]
  constructor
  · rintro ⟨urls, ⟨hSome, hUrls⟩, -⟩
    refine ⟨hSome, fun url hUrl => (hEach url hUrl).mp ?_⟩
    exact exists_parseRelayUrls.mp ⟨urls, hUrls⟩ url hUrl
  · rintro ⟨hSome, hReads⟩
    obtain ⟨urls, hUrls⟩ := exists_parseRelayUrls.mpr
      fun url hUrl => (hEach url hUrl).mpr (hReads url hUrl)
    exact ⟨urls, ⟨hSome, hUrls⟩, (parseRelayUrls_ok hUrls).1⟩

end

section
private def secureUrl : String := "https://relay.example.com"
private def bracketUrl : String := "http://[::1]:3340"

/-- The parser at the two texts that occur below. -/
private def exampleParse (url : String) : Option UrlRecord :=
  if url = secureUrl then
    some ⟨"https://relay.example.com/", "https", "", "", some "relay.example.com"⟩
  else if url = bracketUrl then some ⟨"http://[::1]:3340/", "http", "", "", some "[::1]"⟩
  else none

private def exampleInput (url : String) : RelayConfigInput := ⟨.custom, [url, " "], "", .strict⟩

theorem relay_settings_agree_iff_secure : ∃ urls,
    buildRelayMode (relayUrlFromStr exampleParse)
        (some (buildRelayConfigArg false (exampleInput secureUrl))) =
      .ok (.custom urls none) ∧ urls.length = 1 := by
  have hAccepted : ScreenAccepts exampleParse (exampleInput secureUrl) :=
    ⟨rfl, by decide, by decide, none, rfl⟩
  have hTrimmed : trimmedUrls (exampleInput secureUrl).relayUrls = [secureUrl] := by
    decide
  have hReads : EngineReads exampleParse secureUrl := by
    refine ⟨by decide, by decide, ?_⟩
    rintro parsed hParsed hHttp
    obtain rfl := Option.some.inj hParsed
    exact absurd hHttp (by decide)
  obtain ⟨urls, hBuilt, hUrls⟩ := (relay_settings_agree_iff false hAccepted).mpr
    ⟨by rw [hTrimmed]; simp, by simpa [hTrimmed] using hReads⟩
  refine ⟨urls, hBuilt, ?_⟩
  simpa [hTrimmed] using (congrArg List.length hUrls).symm

/-- The screen takes a relay on `::1` without encryption, the engine does not. -/
theorem screen_accepts_bracketed_loopback :
    relaySettingsError exampleParse (exampleInput bracketUrl).relayUrls
        (exampleInput bracketUrl).relayAuthToken = none ∧
      buildRelayMode (relayUrlFromStr exampleParse)
          (some (buildRelayConfigArg false (exampleInput bracketUrl))) =
        .error "Plain HTTP relay URLs are only allowed for loopback hosts" := by
  decide

end

end AltSendme
