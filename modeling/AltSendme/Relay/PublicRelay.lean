import AltSendme.Listing.Separated
import AltSendme.Relay.RelayMode

/-! Which relays count as public. Public ones are left out of a pairing ticket
and are never reported as custom. The source looks for the domain anywhere in
the URL, not in its host. -/
namespace AltSendme

/-- `str::contains` -/
def strContains (text sub : String) : Bool := decide (sub.toList <:+: text.toList)

def isPublicRelayUrl (url : String) : Bool :=
  strContains url "relay.n0.iroh.link" || strContains url ".iroh.link"

/-- Public relays are left to discovery. -/
def pairingTicketRelayHint (relayUrl : Option String) : Option String :=
  relayUrl.filter fun url => !isPublicRelayUrl url

def relayStatusKindForUrl (url : Option String) (custom : Bool) : String :=
  match url with
  | some u => if isPublicRelayUrl u then "public" else if custom then "custom" else "public"
  | none => if custom then "custom" else "public"

/-- The name a host stands for: in lower case, without the dot of the root. -/
def hostName (host : String) : List Char :=
  let name := host.toLowercase.toList
  if name.getLast? = some '.' then name.dropLast else name

def N0Apex (host : String) : Prop := hostName host = "iroh.link".toList
def N0Subdomain (host : String) : Prop := ".iroh.link".toList <:+ hostName host

/-- The hosts of n0's relays. -/
def N0Host (host : String) : Prop := N0Apex host ∨ N0Subdomain host

instance (host : String) : Decidable (N0Apex host) := inferInstanceAs (Decidable (_ = _))
instance (host : String) : Decidable (N0Subdomain host) := inferInstanceAs (Decidable (_ <:+ _))
instance (host : String) : Decidable (N0Host host) := inferInstanceAs (Decidable (_ ∨ _))

/-- The name of a subdomain occurs in `text`. -/
def MentionsN0 (text : String) : Prop := ".iroh.link".toList <:+: text.toList

instance (text : String) : Decidable (MentionsN0 text) := inferInstanceAs (Decidable (_ <:+: _))

/-- The text of a web address without credentials: what stands behind the host
is a port or a path, and the host is in lower case. -/
structure RelayUrl.Written (url : RelayUrl) (host rest : String) : Prop where
  hostStr : url.hostStr = some host
  asStr : url.asStr = url.scheme ++ "://" ++ host ++ rest
  lowercase : host.toLowercase = host
  delimited : ∃ c ∈ [':', '/'], ∃ tail, rest.toList = c :: tail

/-- A relay is taken for public where its host is n0's; any other is named in
the ticket and reported as the user's own. -/
def RelayUrl.KnownByHost (url : RelayUrl) (host : String) : Prop :=
  (isPublicRelayUrl url.asStr = true ↔ N0Host host) ∧
    (¬ N0Host host → pairingTicketRelayHint (some url.asStr) = some url.asStr ∧
      relayStatusKindForUrl (some url.asStr) true = "custom")

/-- The longer of the two texts holds the other. -/
theorem isPublicRelayUrl_iff {url : String} :
    isPublicRelayUrl url = true ↔ MentionsN0 url := by
  rw [MentionsN0, isPublicRelayUrl, Bool.or_eq_true, strContains, strContains, decide_eq_true_eq,
    decide_eq_true_eq, or_iff_right_of_imp]
  intro hLonger
  have hInside : ".iroh.link".toList <:+: "relay.n0.iroh.link".toList := by decide
  exact hInside.trans hLonger

theorem hint_eq_self_iff {url : String} :
    pairingTicketRelayHint (some url) = some url ↔ isPublicRelayUrl url = false := by
  rw [pairingTicketRelayHint, Option.filter_eq_some_iff]
  simp

theorem relayStatusKindForUrl_custom {url : String} (h : isPublicRelayUrl url = false) :
    relayStatusKindForUrl (some url) true = "custom" := by
  simp [relayStatusKindForUrl, h]

section
variable {host rest : String}

theorem hostName_isPrefix (hLower : host.toLowercase = host) : hostName host <+: host.toList := by
  rw [hostName, hLower]
  split
  · exact List.dropLast_prefix _
  · exact List.prefix_rfl

/-- A host is its name, or its name and the root. -/
theorem toList_of_hostName (hLower : host.toLowercase = host) :
    host.toList = hostName host ∨ host.toList = hostName host ++ ['.'] := by
  rw [hostName, hLower]
  split
  · next hDot =>
      exact .inr (List.dropLast_append_getLast? '.' hDot).symm
  · exact .inl rfl

theorem mentionsN0_of_n0Subdomain (hLower : host.toLowercase = host) (h : N0Subdomain host) :
    MentionsN0 host :=
  h.isInfix.trans (hostName_isPrefix hLower).isInfix

theorem not_mentionsN0_of_n0Apex (hLower : host.toLowercase = host) (h : N0Apex host) :
    ¬ MentionsN0 host := by
  have hName : hostName host = "iroh.link".toList := h
  rw [MentionsN0]
  rcases toList_of_hostName hLower with hHost | hHost
  · rw [hHost, hName]
    decide
  · rw [hHost, hName]
    decide

/-- The domain occurs in a URL where it occurs in its host or behind it. -/
theorem isPublicRelayUrl_written {url : RelayUrl} (hWritten : url.Written host rest)
    (hScheme : url.scheme = "https" ∨ url.scheme = "http") :
    isPublicRelayUrl url.asStr = true ↔ MentionsN0 host ∨ MentionsN0 rest := by
  obtain ⟨c, hDelimiter, tail, hRest⟩ := hWritten.delimited
  have hForeign : c ∉ ".iroh.link".toList := by
    rcases List.mem_cons.mp hDelimiter with rfl | hSlash
    · decide
    · obtain rfl := List.mem_singleton.mp hSlash
      decide
  have hText : url.asStr.toList =
      (url.scheme.toList ++ [':', '/']) ++ '/' :: (host.toList ++ c :: tail) := by
    rw [hWritten.asStr, String.toList_append, String.toList_append, String.toList_append, hRest]
    simp
  have hFront : ¬ ".iroh.link".toList <:+: url.scheme.toList ++ [':', '/'] := by
    rcases hScheme with hScheme | hScheme
    · rw [hScheme]; decide
    · rw [hScheme]; decide
  have hSome : ¬ ".iroh.link".toList = [] := by decide
  rw [isPublicRelayUrl_iff, MentionsN0, MentionsN0, MentionsN0, hText,
    Separated.infix_append_cons_iff (by decide),
    or_iff_right hFront, Separated.infix_append_cons_iff hForeign, hRest,
    Separated.infix_cons_iff_of_notMem hForeign, or_iff_right hSome]

end

/-- The text is read as its host exactly for the subdomains, and where the
domain is not written elsewhere. -/
theorem RelayUrl.knownByHost_iff {url : RelayUrl} {host rest : String}
    (hWritten : url.Written host rest) (hScheme : url.scheme = "https" ∨ url.scheme = "http") :
    url.KnownByHost host ↔ N0Subdomain host ∨
      ¬ MentionsN0 host ∧ (N0Apex host ↔ MentionsN0 rest) := by
  have hPublic := isPublicRelayUrl_written hWritten hScheme
  have hLower := hWritten.lowercase
  have hKnown : url.KnownByHost host ↔ (isPublicRelayUrl url.asStr = true ↔ N0Host host) := by
    refine ⟨And.left, fun hSame => ⟨hSame, ?_⟩⟩
    intro hOther
    have hCustom : isPublicRelayUrl url.asStr = false :=
      Bool.eq_false_iff.mpr fun h => hOther (hSame.mp h)
    exact ⟨hint_eq_self_iff.mpr hCustom, relayStatusKindForUrl_custom hCustom⟩
  rw [hKnown, hPublic, N0Host]
  by_cases hSub : N0Subdomain host
  · simp [hSub, mentionsN0_of_n0Subdomain hLower hSub]
  by_cases hApex : N0Apex host
  · simp [hSub, hApex, not_mentionsN0_of_n0Apex hLower hApex]
  · simp [hSub, hApex]

section
variable {fromStr : String → Option RelayUrl}

/-- Which relays of a custom mode are known by their host: `fromStr` is the
parser of the `url` crate, and its texts are what `hWritten` says. -/
theorem public_relay_iff_n0_host
    (hWritten : ∀ text url, fromStr text = some url → url.scheme = "https" ∨ url.scheme = "http" →
      url.username = "" → url.password = none → ∃ host rest, url.Written host rest)
    (arg : RelayConfigArg) (urls : List RelayUrl) (authToken : Option String)
    (hBuilt : buildRelayMode fromStr (some arg) = .ok (.custom urls authToken)) :
    ∀ url ∈ urls, ∃ host rest, url.Written host rest ∧
      (url.KnownByHost host ↔ N0Subdomain host ∨
        ¬ MentionsN0 host ∧ (N0Apex host ↔ MentionsN0 rest)) := by
  intro url hUrl
  obtain ⟨hParsed, -, hAccepted, -⟩ := buildRelayMode_custom hBuilt
  obtain ⟨text, -, hText⟩ : ∃ text ∈ arg.urls, fromStr text = some url := by
    have hSome : some url ∈ arg.urls.map fromStr := hParsed ▸ List.mem_map_of_mem hUrl
    exact List.mem_map.mp hSome
  have hOk := hAccepted url hUrl
  have hScheme : url.scheme = "https" ∨ url.scheme = "http" :=
    hOk.encrypted.imp_right fun h => h.2.1
  obtain ⟨host, rest, hUrlText⟩ := hWritten text url hText hScheme hOk.noUsername hOk.noPassword
  exact ⟨host, rest, hUrlText, url.knownByHost_iff hUrlText hScheme⟩

end

section
private def ownRelay : RelayUrl :=
  ⟨"https://relay.example.com/", "https", "", none, some "relay.example.com"⟩

private def lookAlikeRelay : RelayUrl :=
  ⟨"https://relay.iroh.link.example.com/", "https", "", none, some "relay.iroh.link.example.com"⟩

/-- The parser at the two texts that occur below. -/
private def twoRelays (text : String) : Option RelayUrl :=
  if text = "https://relay.example.com" then some ownRelay
  else if text = "https://relay.iroh.link.example.com" then some lookAlikeRelay
  else none

private theorem twoRelays_written (text : String) (url : RelayUrl) (h : twoRelays text = some url) :
    ∃ host rest, url.Written host rest := by
  unfold twoRelays at h
  split at h
  · obtain rfl := Option.some.inj h
    exact ⟨"relay.example.com", "/", rfl, by decide, by decide, '/', by decide, [], by decide⟩
  split at h
  · obtain rfl := Option.some.inj h
    exact ⟨"relay.iroh.link.example.com", "/", rfl, by decide, by decide, '/', by decide, [],
      by decide⟩
  · cases h

private def ownConfig (urls : List String) : RelayConfigArg := ⟨"custom", urls, none, none⟩

theorem public_relay_iff_n0_host_own : ∃ host, ownRelay.hostStr = some host ∧
    ownRelay.KnownByHost host := by
  have hBuilt : buildRelayMode twoRelays (some (ownConfig ["https://relay.example.com"])) =
      .ok (.custom [ownRelay] none) := by decide
  obtain ⟨host, rest, hUrl, hIff⟩ := public_relay_iff_n0_host
    (fun text url h _ _ _ => twoRelays_written text url h) _ _ _ hBuilt ownRelay
    (List.mem_singleton.mpr rfl)
  obtain rfl : "relay.example.com" = host := Option.some.inj hUrl.hostStr
  refine ⟨_, rfl, hIff.mpr (.inr ⟨by decide, iff_of_false (by decide) ?_⟩)⟩
  intro hRest
  have hWhole : MentionsN0 ownRelay.asStr := by
    rw [MentionsN0, hUrl.asStr, String.toList_append]
    exact List.infix_append_of_infix_right hRest
  exact absurd hWhole (by decide)

/-- A relay of the user's own is left out of the ticket and reported as public. -/
theorem look_alike_relay_public :
    buildRelayMode twoRelays (some (ownConfig ["https://relay.iroh.link.example.com"])) =
        .ok (.custom [lookAlikeRelay] none) ∧
      lookAlikeRelay.Written "relay.iroh.link.example.com" "/" ∧
      ¬ N0Host "relay.iroh.link.example.com" ∧
      isPublicRelayUrl lookAlikeRelay.asStr = true ∧
      pairingTicketRelayHint (some lookAlikeRelay.asStr) = none ∧
      relayStatusKindForUrl (some lookAlikeRelay.asStr) true = "public" := by
  refine ⟨by decide, ⟨rfl, by decide, by decide, '/', by decide, [], by decide⟩, ?_⟩
  decide

end

end AltSendme
