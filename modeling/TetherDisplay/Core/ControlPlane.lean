import TetherDisplay.Protocol.Message

/-!
# The control plane

`control_plane.cpp`: what the host should do about a message from the iPad.
-/

namespace TetherDisplay.Core

open Protocol (Message Hello Welcome)

/-- What the session should do in response to one inbound control message. -/
structure ControlActions where
  /-- A KEYFRAME_REQUEST arrived: force an IDR on the next frame. -/
  forceIdr : Bool := false
  /-- A PING arrived: reply PONG. -/
  sendPong : Bool := false
  /-- The token to echo in that PONG. -/
  pongToken : UInt64 := 0
  /-- A HELLO arrived: client capabilities captured. -/
  haveClientCaps : Bool := false
  clientCaps : Hello := {}
  /-- A FORMAT_CHANGE arrived. -/
  formatChange : Bool := false
  newFormat : Welcome := {}
  /-- A DISCONNECT arrived: tear down. -/
  disconnect : Bool := false
  deriving DecidableEq, Repr

/-- The messages that the host sends, and an ERROR, yield no action. -/
def handleControlMessage : Message → ControlActions
  | .keyframeRequest _ => { forceIdr := true }
  | .ping m => { sendPong := true, pongToken := m.token }
  | .hello m => { haveClientCaps := true, clientCaps := m }
  | .formatChange m => { formatChange := true, newFormat := m.format }
  | .disconnect _ => { disconnect := true }
  | .welcome _ | .errorMsg _ | .pong _ | .videoFrame _ => {}

end TetherDisplay.Core
