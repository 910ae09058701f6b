import AltSendme.Relay.PublicRelay

/-! What the settings screen says about the relay (`get_relay_status`,
`verify_relays`) and what a transfer then does (`resolve_relay_mode_with_fallback`):
three functions that probe the same relays, each in its own branches. -/
namespace AltSendme

section
variable (network : RelayModeOption → ProbeAnswers)

variable (fromStr : String → Option RelayUrl)

end

section
variable {network : RelayModeOption → ProbeAnswers} {fromStr : String → Option RelayUrl}
variable {relay : Option RelayConfigArg}

namespace StatusFrom
variable {fallback : RelayFallbackPolicy} {mode : RelayModeOption} {probed : List RelayModeOption}
  {status : RelayStatusResponse}

end StatusFrom

end

section
end

end AltSendme
