import MiniRtc.Transport.CandidateSignal

/-!
# The description for the ICE agent

`HasIceAttribute` of `ice_utils.h`, and what `SetRemoteSdp` of `ice_transport.cpp` adds to the result
of `GetRemoteCapabilities`: the attributes of the two extensions, when the remote description has
them and the result has lost them.
-/

namespace MiniRtc

open Text

/-- `kRelayUpgradeAttribute`. -/
def kRelayUpgradeAttribute : Text := "a=x-minirtc-relay-upgrade:1".toList

/-- `kP2pEnhancementAttribute`. -/
def kP2pEnhancementAttribute : Text := "a=x-minirtc-p2p-enhancement:1".toList

/-- A line without the `\r` at its end. -/
def dropReturn (line : Text) : Text :=
  if line.getLast? = some '\r' then line.dropLast else line

/-- `HasIceAttribute`. -/
def hasIceAttribute (sdp iceAttribute : Text) : Bool :=
  (lines sdp).any fun line => dropReturn line = iceAttribute

/-- Adds an attribute of the remote description that the text has lost. -/
def restoreAttribute (remoteSdp iceAttribute mediaStreamSdp : Text) : Text :=
  if hasIceAttribute remoteSdp iceAttribute ∧ ¬ hasIceAttribute mediaStreamSdp iceAttribute then
    mediaStreamSdp ++ ("\r\n".toList ++ iceAttribute ++ "\r\n".toList)
  else mediaStreamSdp

/-- The description that `SetRemoteSdp` hands to the ICE agent. -/
def agentDescription (remoteSdp mediaStreamSdp : Text) : Text :=
  restoreAttribute remoteSdp kP2pEnhancementAttribute
    (restoreAttribute remoteSdp kRelayUpgradeAttribute mediaStreamSdp)

end MiniRtc
