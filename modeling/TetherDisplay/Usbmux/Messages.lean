import TetherDisplay.Foundations.Decimal
import TetherDisplay.Foundations.Search
import TetherDisplay.Foundations.Text
import TetherDisplay.Usbmux.Protocol

/-!
# The usbmux messages

Requests are built by appending text, and replies are read by searching for it: the value of a key
is the first element of the wanted kind behind `<key>…</key>`, unless another `<key>` comes first.
`TetherDisplay.Usbmux.Plist` shows what that reads of a property list.
-/

namespace TetherDisplay.Usbmux

open Text (ascii)
open Search (findFrom)

/-! ## Building -/

/-- What each of the client's property lists begins with. -/
def kPlistHeader : Bytes := ascii
  ("<?xml version=\"1.0\" encoding=\"UTF-8\"?>\n" ++
    "<!DOCTYPE plist PUBLIC \"-//Apple//DTD PLIST 1.0//EN\" " ++
    "\"http://www.apple.com/DTDs/PropertyList-1.0.dtd\">\n" ++
    "<plist version=\"1.0\">\n<dict>\n")

/-- What each of them ends with. -/
def kPlistFooter : Bytes := ascii "</dict>\n</plist>\n"

/-- The keys that every request carries. -/
def boilerplate (progName : Bytes) : Bytes :=
  ascii "  <key>BundleID</key><string>com.tetherdisplay.host</string>\n" ++
    ascii "  <key>ClientVersionString</key><string>tetherdisplay-usbmux</string>\n" ++
    ascii "  <key>ProgName</key><string>" ++ progName ++ ascii "</string>\n" ++
    ascii "  <key>kLibUSBMuxVersion</key><integer>3</integer>\n"

/-- `BuildListenPlist`. -/
def buildListenPlist (progName : Bytes) : Bytes :=
  kPlistHeader ++ ascii "  <key>MessageType</key><string>Listen</string>\n" ++
    boilerplate progName ++ kPlistFooter

/-- `BuildConnectPlist`. -/
def buildConnectPlist (deviceId : Int32) (devicePort : UInt16) (progName : Bytes) : Bytes :=
  kPlistHeader ++ ascii "  <key>MessageType</key><string>Connect</string>\n" ++
    (ascii "  <key>DeviceID</key><integer>" ++ Decimal.intNumeral deviceId.toInt ++
      ascii "</integer>\n") ++
    (ascii "  <key>PortNumber</key><integer>" ++
      Decimal.numeral (encodePortBigEndian devicePort).toNat ++ ascii "</integer>\n") ++
    boilerplate progName ++ kPlistFooter

/-! ## Reading -/

/-- `value_after_key`: the inner text of the first `<tag>` behind the key, where no other key
comes before it. -/
def valueAfterKey (xml key tag : Bytes) : Option Bytes := do
  let keyMarker := ascii "<key>" ++ key ++ ascii "</key>"
  let kpos ← findFrom keyMarker xml 0
  let opening := ascii "<" ++ tag ++ ascii ">"
  let closing := ascii "</" ++ tag ++ ascii ">"
  let kend := kpos + keyMarker.length
  let opos ← findFrom opening xml kend
  -- Otherwise a later key's value of the wanted kind would be picked up.
  if (findFrom (ascii "<key>") xml kend).any (· < opos) then none
  else
    let vstart := opos + opening.length
    let cpos ← findFrom closing xml vstart
    some ((xml.drop vstart).take (cpos - vstart))

/-- `PlistGetString`. -/
def plistGetString (xml key : Bytes) : Option Bytes := valueAfterKey xml key (ascii "string")

/-- A whole text that `from_chars` reads. -/
def toLongLong (raw : Bytes) : Option Int64 :=
  match Decimal.fromCharsSigned 63 raw with
  | some (v, []) => some (Int64.ofInt v)
  | _ => none

/-- `PlistGetInteger`. -/
def plistGetInteger (xml key : Bytes) : Option Int64 :=
  (valueAfterKey xml key (ascii "integer")).bind toLongLong

/-- Empty where there is none. -/
def parseMessageType (xml : Bytes) : Bytes := (plistGetString xml (ascii "MessageType")).getD []

/-- `ParseResultNumber`: the number is cut to an `int`. -/
def parseResultNumber (xml : Bytes) : Option Int32 :=
  (plistGetInteger xml (ascii "Number")).map Int64.toInt32

/-- A device that the daemon reported. -/
structure AttachedDevice where
  deviceId : Int32 := 0
  serial : Bytes := []
  /-- `USB` or `Network`. -/
  connectionType : Bytes := []
  deriving DecidableEq

/-- `ParseAttached`. -/
def parseAttached (xml : Bytes) : Option AttachedDevice :=
  if parseMessageType xml ≠ ascii "Attached" then none
  else
    match plistGetInteger xml (ascii "DeviceID") with
    | none => none
    | some id =>
        some
          { deviceId := id.toInt32
            serial := (plistGetString xml (ascii "SerialNumber")).getD []
            connectionType := (plistGetString xml (ascii "ConnectionType")).getD [] }

end TetherDisplay.Usbmux
