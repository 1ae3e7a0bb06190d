import TetherDisplay.Usbmux.Plist
import TetherDisplay.Usbmux.Socket

/-!
# The usbmux client

`WaitForDevice` listens for the first attached device, and `Connect` turns a fresh socket into a
tunnel to a port of the device once the daemon has answered.  Both are told from the packets that
come in: the first 64 on the one socket, the first on the other.

The daemon's answer is judged by its `Number` alone, narrowed to an `int`, and an attached device
is taken whatever it is attached over.  So `connect` is what it should be where the number survives
the narrowing and a zero comes in a result (`connect_genuine_iff`), and `waitForDevice` where the
first attached device is on the cable (`waitForDevice_usb_iff`).  Behind the answer the tunnel
begins with the very next byte (`packets_and_tunnel_exact`).
-/

namespace TetherDisplay.Usbmux

open TetherDisplay.Core (Received)
open Text (ascii)

/-- What a call of the client may come to. -/
inductive MuxStatus where
  | ok
  | connectFailed
  | sendFailed
  | recvFailed
  | timeout
  | protocol
  | resultBadDevice
  | resultConnRefused
  | resultError
  deriving DecidableEq, Repr

/-- A tunnel owns a socket, or none. -/
abbrev Tunnel := Option Socket

/-- `Tunnel::Recv` into a buffer of `size` bytes. -/
def Tunnel.recv (t : Tunnel) (size : ℕ) : Received × Tunnel :=
  match t with
  | none => (.failed, none)
  | some s =>
      let (r, s) := s.recv (Int32.ofNat size)
      (r, some s)

/-- The status for a result of usbmuxd other than 0. -/
def mapResult (number : Int32) : MuxStatus :=
  if number = kResultBadDevice then .resultBadDevice
  else if number = kResultConnRefused then .resultConnRefused
  else .resultError

/-- The loop of `WaitForDevice`: `i` more events. -/
def waitLoop : ℕ → Socket → Int32 → AttachedDevice → MuxStatus × AttachedDevice
  | 0, _, _, out => (.timeout, out)
  | i + 1, s, timeoutMs, out =>
      match s.recvPacket timeoutMs with
      | (none, _) => (.timeout, out)
      | (some plist, s) =>
          match parseAttached plist with
          | some dev => (.ok, dev)
          | none => waitLoop i s timeoutMs out

/-- `WaitForDevice`, where `dial` is the socket that `DialTcp` opens, if it does. -/
def waitForDevice (dial : Option Socket) (timeoutMs : Int32) (out : AttachedDevice) :
    MuxStatus × AttachedDevice :=
  match dial with
  | none => (.connectFailed, out)
  | some s =>
      match s.sendPacket 1 (buildListenPlist (ascii "TetherDisplay")) with
      | (false, _) => (.sendFailed, out)
      | (true, s) => waitLoop 64 s timeoutMs out

/-- `Connect`; `out` is the tunnel afterwards. -/
def connect (dial : Option Socket) (deviceId : Int32) (devicePort : UInt16) (out : Tunnel) :
    MuxStatus × Tunnel :=
  match dial with
  | none => (.connectFailed, out)
  | some s =>
      match s.sendPacket 2 (buildConnectPlist deviceId devicePort (ascii "TetherDisplay")) with
      | (false, _) => (.sendFailed, out)
      | (true, s) =>
          match s.recvPacket 5000 with
          | (none, _) => (.recvFailed, out)
          | (some plist, s) =>
              match parseResultNumber plist with
              | none => (.protocol, out)
              | some number => if number ≠ kResultOk then (mapResult number, out) else (.ok, some s)

/-! ## The tunnel begins behind the answer -/

/-- Calls of `Recv` one after another: the bytes they read. -/
def Tunnel.recvs (t : Tunnel) : List ℕ → Bytes × Tunnel
  | [] => ([], t)
  | size :: sizes =>
      let (r, t) := t.recv size
      let (bytes, t) := Tunnel.recvs t sizes
      (r.bytes ++ bytes, t)

/-- The calls read these bytes from the front on, and all of them once there have been enough
calls with a buffer. -/
def Tunnel.Delivers (t : Tunnel) (sizes : List ℕ) (bytes : Bytes) : Prop :=
  (t.recvs sizes).1 <+: bytes ∧
    (bytes.length ≤ sizes.countP (fun size => 0 < size ∧ size < 2 ^ 31) →
      (t.recvs sizes).1 = bytes)

/-- A tunnel delivers what is in the socket. -/
theorem delivers_stream {s : Socket} (hrefuses : s.RefusesNegative) (hends : s.Ends)
    (sizes : List ℕ) : Tunnel.Delivers (some s) sizes s.stream := by
  induction sizes generalizing s with
  | nil =>
      refine ⟨List.nil_prefix, fun h => ?_⟩
      exact (List.length_eq_zero_iff.mp (Nat.le_zero.mp h)).symm
  | cons size sizes ih =>
      obtain ⟨hstream, hends'⟩ := Socket.recv_conserves hrefuses (Int32.ofNat size) hends
      have hnegative := s.negative_recv (Int32.ofNat size)
      rcases hrecv : s.recv (Int32.ofNat size) with ⟨r, s'⟩
      rw [hrecv] at hstream hends' hnegative
      dsimp only at hstream hends' hnegative
      have hrefuses' : s'.RefusesNegative := by
        rw [Socket.RefusesNegative, hnegative]
        exact hrefuses
      obtain ⟨hfront, hall⟩ := ih hrefuses' hends'
      have hrecvs : (Tunnel.recvs (some s) (size :: sizes)).1 =
          r.bytes ++ (Tunnel.recvs (some s') sizes).1 := by
        simp only [Tunnel.recvs, Tunnel.recv, hrecv]
      rw [Tunnel.Delivers, hrecvs, ← hstream]
      refine ⟨(List.prefix_append_right_inj _).mpr hfront, fun hcount => ?_⟩
      rw [hall]
      rw [List.length_append, List.countP_cons] at hcount
      split_ifs at hcount with hsize
      · by_cases hmore : s.stream = []
        · rw [hmore] at hstream
          rw [(List.append_eq_nil_iff.mp hstream).2]
          exact Nat.zero_le _
        · obtain ⟨hpos, hfits⟩ : 0 < size ∧ size < 2 ^ 31 := by simpa using hsize
          have hbytes := Socket.recv_pos hpos hfits hmore
          rw [hrecv] at hbytes
          dsimp only at hbytes
          have hlength := List.length_pos_of_ne_nil hbytes
          omega
      · omega

/-- The first packet that comes in answer to the request to connect. -/
def reply (dial : Option Socket) (deviceId : Int32) (devicePort : UInt16) : Option Bytes :=
  dial.bind fun s =>
    match s.sendPacket 2 (buildConnectPlist deviceId devicePort (ascii "TetherDisplay")) with
    | (false, _) => none
    | (true, s) => (s.recvPacket 5000).1

/-- **What `Connect` returns** is told from the first packet. -/
theorem connect_cases (dial : Option Socket) (deviceId : Int32) (devicePort : UInt16)
    (out : Tunnel) :
    (reply dial deviceId devicePort = none ∧ (connect dial deviceId devicePort out).2 = out ∧
      (connect dial deviceId devicePort out).1 ∈
        [MuxStatus.connectFailed, MuxStatus.sendFailed, MuxStatus.recvFailed]) ∨
    ∃ s s' plist, dial = some s ∧ reply dial deviceId devicePort = some plist ∧
      (s.sendPacket 2 (buildConnectPlist deviceId devicePort (ascii "TetherDisplay"))).2.recvPacket
        5000 = (some plist, s') ∧
      connect dial deviceId devicePort out = match parseResultNumber plist with
        | none => (.protocol, out)
        | some number =>
            if number ≠ kResultOk then (mapResult number, out) else (.ok, some s') := by
  cases dial with
  | none => exact Or.inl ⟨rfl, rfl, by simp [connect]⟩
  | some s =>
      rcases hsend : s.sendPacket 2
        (buildConnectPlist deviceId devicePort (ascii "TetherDisplay")) with ⟨sent, s₁⟩
      cases sent with
      | false =>
          refine Or.inl ⟨?_, ?_, ?_⟩ <;> simp [reply, connect, hsend]
      | true =>
          rcases hrecv : s₁.recvPacket 5000 with ⟨plist, s'⟩
          cases plist with
          | none =>
              refine Or.inl ⟨?_, ?_, ?_⟩ <;> simp [reply, connect, hsend, hrecv]
          | some plist =>
              refine Or.inr ⟨s, s', plist, rfl, ?_, ?_, ?_⟩
              · simp [reply, hsend, hrecv]
              · rw [hsend]
                exact hrecv
              · simp only [connect, hsend, hrecv]

/-- No result but 0 is success. -/
theorem mapResult_ne_ok (number : Int32) : mapResult number ≠ .ok := by
  rw [mapResult]
  split_ifs <;> decide

/-- An answered request is `Ok` when the number is zero, and the socket is the tunnel then. -/
theorem connect_ok_iff {dial : Option Socket} {deviceId : Int32} {devicePort : UInt16}
    {out : Tunnel} : (connect dial deviceId devicePort out).1 = .ok ↔
      ∃ s s' plist, dial = some s ∧ reply dial deviceId devicePort = some plist ∧
        (s.sendPacket 2 (buildConnectPlist deviceId devicePort (ascii "TetherDisplay"))).2.recvPacket
          5000 = (some plist, s') ∧ parseResultNumber plist = some kResultOk ∧
        (connect dial deviceId devicePort out).2 = some s' := by
  rcases connect_cases dial deviceId devicePort out with
    ⟨hnone, -, hstatus⟩ | ⟨s, s', plist, hdial, hreply, hrecv, hconnect⟩
  · constructor
    · intro hok
      rw [hok] at hstatus
      exact absurd hstatus (by decide)
    · rintro ⟨s, s', plist, -, hreply, -⟩
      rw [hnone] at hreply
      cases hreply
  · rw [hconnect]
    constructor
    · intro hok
      cases hnumber : parseResultNumber plist with
      | none =>
          rw [hnumber] at hok
          cases hok
      | some number =>
          rw [hnumber] at hok
          simp only at hok
          split_ifs at hok with hzero
          · exact absurd hok (mapResult_ne_ok number)
          · refine ⟨s, s', plist, hdial, hreply, hrecv, ?_, ?_⟩
            · rw [hnumber, not_not.mp hzero]
            · simp [hzero]
    · rintro ⟨_, _, plist', -, hreply', -, hnumber, -⟩
      obtain rfl : plist = plist' := Option.some.inj (hreply.symm.trans hreply')
      simp [hnumber]

/-- **Packets are read exactly where their sizes fit an `int`, and the tunnel begins behind the
answer**: once `Connect` has returned `Ok`, the calls of `Recv` read what the daemon sent after it,
and nothing else.  It does return `Ok` on an answer with a zero whose size fits.  That is so where a
negative length is an error; sizes that fit are read wherever (`Socket.reads_of_fits`). -/
theorem packets_and_tunnel_exact {s : Socket} (hrefuses : s.RefusesNegative) (rest : Bytes) :
    (∀ (packets : List (UInt32 × Bytes)) (timeoutMs : Int32),
      s.stream = Socket.wire packets ++ rest → s.InTime timeoutMs →
      (∀ p ∈ packets, p.2.length < 2 ^ 32 - 16) →
      (s.Reads packets timeoutMs rest ↔ ∀ p ∈ packets, p.2.length < 2 ^ 31)) ∧
    ∀ (deviceId : Int32) (devicePort : UInt16) (out : Tunnel) (tag : UInt32) (answer : Bytes),
      s.stream = encodePacket tag answer ++ rest → s.Ends →
      answer.length < 2 ^ 32 - 16 → parseResultNumber answer = some kResultOk →
      let c := connect (some s) deviceId devicePort out
      (c.1 = .ok → ∀ sizes, c.2.Delivers sizes rest) ∧
        (s.channel.sends = [] → s.InTime 5000 → (c.1 = .ok ↔ answer.length < 2 ^ 31)) := by
  refine ⟨fun packets timeoutMs hstream hintime hlength => ?_, ?_⟩
  · exact ⟨Socket.fits_of_reads hrefuses hstream hintime hlength,
      Socket.reads_of_fits hstream hintime⟩
  intro deviceId devicePort out tag answer hstream hends hlength hzero c
  -- Sending the request leaves the stream of answers as it is.
  set request := buildConnectPlist deviceId devicePort (ascii "TetherDisplay") with hrequest
  set s₁ := (s.sendPacket 2 request).2 with hs₁
  have hinbox : s₁.channel.inbox = s.channel.inbox := by
    obtain ⟨⟨inbox, sends, outbox⟩, selects, negative⟩ := s
    rw [hs₁, Socket.sendPacket, Core.ByteChannel.sendAll]
    dsimp only
    split <;> rfl
  have hselects : s₁.selects = s.selects := rfl
  have hrefuses₁ : s₁.RefusesNegative := hrefuses
  have hstream₁ : s₁.stream = encodePacket tag answer ++ rest := by
    rw [← hstream, Socket.stream, hinbox]
    rfl
  have hends₁ : s₁.Ends := by
    rw [Socket.Ends, hinbox]
    exact hends
  constructor
  · intro hok sizes
    obtain ⟨s₀, s', plist, hdial, -, hrecv, -, htunnel⟩ := connect_ok_iff.mp hok
    cases hdial
    rw [← hrequest, ← hs₁] at hrecv
    by_cases hfits : answer.length < 2 ^ 31
    · rcases Socket.recvPacket_packet 5000 hstream₁ hfits with ⟨s'', hread, hadvances⟩ | ⟨hnone, -⟩
      · obtain ⟨-, rfl⟩ := Prod.mk.inj (hread.symm.trans hrecv)
        have hrest : s''.stream = rest :=
          List.append_cancel_left (hadvances.stream.symm.trans hstream₁)
        rw [htunnel, ← hrest]
        exact delivers_stream (hadvances.refusesNegative hrefuses₁) (hadvances.ends hends₁) sizes
      · rw [hrecv] at hnone
        cases hnone
    · have hnone := Socket.recvPacket_long hrefuses₁ 5000 hstream₁ (not_lt.mp hfits) hlength
      rw [hrecv] at hnone
      cases hnone
  · intro hsends hintime
    have hsent : s.sendPacket 2 request = (true, s₁) := by
      obtain ⟨⟨inbox, sends, outbox⟩, selects, negative⟩ := s
      obtain rfl : sends = [] := hsends
      rfl
    have hintime₁ : s₁.InTime 5000 := by
      rw [Socket.InTime, hselects]
      exact hintime
    have hreply : reply (some s) deviceId devicePort = (s₁.recvPacket 5000).1 := by
      simp only [reply, ← hrequest, Option.bind_some, hsent]
    rw [connect_ok_iff]
    constructor
    · rintro ⟨s₀, s', plist, hdial, -, hrecv, -⟩
      cases hdial
      rw [← hrequest, ← hs₁] at hrecv
      by_contra hlong
      have hnone := Socket.recvPacket_long hrefuses₁ 5000 hstream₁ (not_lt.mp hlong) hlength
      rw [hrecv] at hnone
      cases hnone
    · intro hfits
      rcases Socket.recvPacket_packet 5000 hstream₁ hfits with ⟨s', hread, -⟩ | ⟨-, hlate⟩
      · have hanswer : reply (some s) deviceId devicePort = some answer := by rw [hreply, hread]
        refine ⟨s, s', answer, rfl, hanswer, hread, hzero, ?_⟩
        simp only [connect, ← hrequest, hsent, hread, hzero, ne_eq, not_true_eq_false, if_false]
      · exact absurd hintime₁ hlate

/-- An answer with two bytes of the tunnel behind it. -/
def answered : Socket :=
  { channel := { inbox :=
    [.data (encodePacket 2 (ascii "<key>Number</key><integer>0</integer>") ++ [7, 8])] } }

theorem packets_and_tunnel_exact_answered :
    answered.Reads [(2, ascii "<key>Number</key><integer>0</integer>")] 5000 [7, 8] ∧
      (connect (some answered) 1 7420 none).2.Delivers [1, 1] [7, 8] := by
  have hlength : (ascii "<key>Number</key><integer>0</integer>").length = 37 := by decide
  have hrefuses : answered.RefusesNegative := fun _ _ _ => rfl
  constructor
  · apply ((packets_and_tunnel_exact hrefuses [7, 8]).1 _ 5000 (by decide +kernel)
      (Or.inr (by simp [answered])) _).mpr
    · simp [hlength]
    · simp [hlength]
  · have h := (packets_and_tunnel_exact hrefuses [7, 8]).2 1 7420 none 2
      (ascii "<key>Number</key><integer>0</integer>") (by decide +kernel) rfl
      (by rw [hlength]; decide) (by decide +kernel)
    exact h.1 ((h.2 rfl (Or.inr (by simp [answered]))).mpr (by rw [hlength]; decide)) [1, 1]

/-- A packet of `2 ^ 31` bytes is not read with Winsock although its header can count it. -/
theorem long_packet_not_read :
    ¬ Socket.Reads { channel := { inbox :=
        [.data (Socket.wire [(1, List.replicate (2 ^ 31) 0)])] }, negative := winsockNegative }
      [(1, List.replicate (2 ^ 31) 0)] 5000 [] := by
  set payload : Bytes := List.replicate (2 ^ 31) 0 with hpayload
  set s : Socket := { channel := { inbox := [.data (Socket.wire [(1, payload)])] },
                      negative := winsockNegative } with hs
  have hlength : payload.length = 2 ^ 31 := List.length_replicate
  have hstream : s.stream = encodePacket 1 payload ++ [] := by
    simp [hs, Socket.stream, Socket.wire, encodePacket, encodeHeader]
  have hrefuses : s.RefusesNegative := fun _ _ _ => rfl
  have hnone := Socket.recvPacket_long hrefuses 5000 hstream (by omega) (by omega)
  rcases hrecv : s.recvPacket 5000 with ⟨first, s'⟩
  rw [hrecv] at hnone
  simp only at hnone
  subst hnone
  simp [Socket.Reads, Socket.recvPackets, hrecv]

/-! ## A genuine answer -/

/-- The integer that an answer gives as its number, of any size. -/
def resultNumber (plist : Bytes) : Option ℤ :=
  (valueAfterKey plist (ascii "Number") (ascii "integer")).bind Decimal.intValue

/-- What the answer to a request to connect should make of the status and the tunnel. -/
structure Genuine (answer : Option Bytes) (before : Tunnel) (status : MuxStatus)
    (out : Tunnel) : Prop where
  ok : status = .ok →
    answer.map parseMessageType = some (ascii "Result") ∧ answer.bind resultNumber = some 0
  badDevice : status = .resultBadDevice ↔ answer.bind resultNumber = some 2
  connRefused : status = .resultConnRefused ↔ answer.bind resultNumber = some 3
  error : ∀ z, answer.bind resultNumber = some z → z ≠ 0 → z ≠ 2 → z ≠ 3 → status = .resultError
  kept : status ≠ .ok → out = before

/-- A number is read where it fits a `long long`, and what an `int` keeps of it. -/
theorem parseResultNumber_eq_some_iff {plist : Bytes} {n : Int32} :
    parseResultNumber plist = some n ↔
      ∃ z, resultNumber plist = some z ∧ (-2 ^ 63 ≤ z ∧ z < 2 ^ 63) ∧ Int32.ofInt z = n := by
  simp only [parseResultNumber, plistGetInteger, resultNumber, Option.map_eq_some_iff,
    Option.bind_eq_some_iff, toLongLong_iff, Decimal.intValue_eq_some_iff]
  constructor
  · rintro ⟨w, ⟨raw, hvalue, hnumeral⟩, rfl⟩
    refine ⟨w.toInt, ⟨raw, hvalue, hnumeral⟩, ⟨w.le_toInt, w.toInt_lt⟩, ?_⟩
    rw [← Int64.toInt32_ofInt, Int64.ofInt_toInt]
  · rintro ⟨z, ⟨raw, hvalue, hnumeral⟩, ⟨hlow, hhigh⟩, rfl⟩
    refine ⟨Int64.ofInt z, ⟨raw, hvalue, ?_⟩, Int64.toInt32_ofInt⟩
    rwa [Int64.toInt_ofInt_of_le hlow hhigh]

theorem ofInt_eq_iff {z : ℤ} {n : Int32} : Int32.ofInt z = n ↔ z.bmod (2 ^ 32) = n.toInt :=
  Int32.ofInt_eq_iff_bmod_eq_toInt z n

/-- The status that belongs to a number. -/
theorem genuine_number {plist : Bytes} {before out : Tunnel} {status : MuxStatus} {z : ℤ}
    (hnumber : resultNumber plist = some z) :
    Genuine (some plist) before status out ↔
      (status = .ok → parseMessageType plist = ascii "Result" ∧ z = 0) ∧
      (status = .resultBadDevice ↔ z = 2) ∧ (status = .resultConnRefused ↔ z = 3) ∧
      (z ≠ 0 → z ≠ 2 → z ≠ 3 → status = .resultError) ∧ (status ≠ .ok → out = before) := by
  constructor
  · rintro ⟨hok, hbad, hrefused, herror, hkept⟩
    simp only [Option.map_some, Option.bind_some, hnumber, Option.some_inj] at *
    exact ⟨hok, hbad, hrefused, herror z rfl, hkept⟩
  · rintro ⟨hok, hbad, hrefused, herror, hkept⟩
    constructor <;> simpa [hnumber]

/-- The answer as `connect` judges it, where it has a number: by its range, then by what an `int`
keeps of it. -/
theorem judged {plist : Bytes} {z : ℤ} (hnumber : resultNumber plist = some z)
    (out tunnel : Tunnel) :
    (match parseResultNumber plist with
      | none => (MuxStatus.protocol, out)
      | some number => if number ≠ kResultOk then (mapResult number, out) else (.ok, tunnel)) =
    if -2 ^ 63 ≤ z ∧ z < 2 ^ 63 then
      if z.bmod (2 ^ 32) = 0 then (.ok, tunnel)
      else if z.bmod (2 ^ 32) = 2 then (.resultBadDevice, out)
      else if z.bmod (2 ^ 32) = 3 then (.resultConnRefused, out)
      else (.resultError, out)
    else (.protocol, out) := by
  by_cases hrange : -2 ^ 63 ≤ z ∧ z < 2 ^ 63
  · have hread : parseResultNumber plist = some (Int32.ofInt z) :=
      parseResultNumber_eq_some_iff.mpr ⟨z, hnumber, hrange, rfl⟩
    have hok : Int32.ofInt z = kResultOk ↔ z.bmod (2 ^ 32) = 0 := ofInt_eq_iff
    have hbad : Int32.ofInt z = kResultBadDevice ↔ z.bmod (2 ^ 32) = 2 := ofInt_eq_iff
    have hrefused : Int32.ofInt z = kResultConnRefused ↔ z.bmod (2 ^ 32) = 3 := ofInt_eq_iff
    rw [hread, if_pos hrange]
    simp only [mapResult, ne_eq, hok, hbad, hrefused]
    split_ifs <;> rfl
  · have hread : parseResultNumber plist = none := by
      rw [Option.eq_none_iff_forall_ne_some]
      intro n hn
      obtain ⟨z', hz', hrange', -⟩ := parseResultNumber_eq_some_iff.mp hn
      obtain rfl : z = z' := Option.some.inj (hnumber.symm.trans hz')
      exact hrange hrange'
    rw [hread, if_neg hrange]

/-- **`Connect` judges its answer rightly** where the number fits a `long long`, an `int` does not
make another result of it, and a zero comes in a result. -/
theorem connect_genuine_iff (dial : Option Socket) (deviceId : Int32) (devicePort : UInt16)
    (out : Tunnel) :
    Genuine (reply dial deviceId devicePort) out (connect dial deviceId devicePort out).1
        (connect dial deviceId devicePort out).2 ↔
      ∀ plist z, reply dial deviceId devicePort = some plist → resultNumber plist = some z →
        (-2 ^ 63 ≤ z ∧ z < 2 ^ 63) ∧
        (z.bmod (2 ^ 32) ∈ ([0, 2, 3] : List ℤ) → z.bmod (2 ^ 32) = z) ∧
        (z = 0 → parseMessageType plist = ascii "Result") := by
  rcases connect_cases dial deviceId devicePort out with
    ⟨hreply, hkept, hstatus⟩ | ⟨s, s', plist, hdial, hreply, -, hconnect⟩
  · -- No answer: a failure that says so.
    rw [hreply]
    refine iff_of_true ?_ (fun plist z h => by cases h)
    generalize (connect dial deviceId devicePort out).1 = status at hstatus
    simp only [List.mem_cons, List.not_mem_nil, or_false] at hstatus
    rcases hstatus with rfl | rfl | rfl <;> constructor <;> simp [hkept]
  · rw [hreply]
    cases hnumber : resultNumber plist with
    | none =>
        -- An answer without a number is none: `Protocol`.
        have hread : parseResultNumber plist = none := by
          rw [Option.eq_none_iff_forall_ne_some]
          intro n hn
          obtain ⟨z, hz, -⟩ := parseResultNumber_eq_some_iff.mp hn
          rw [hnumber] at hz
          cases hz
        rw [hconnect, hread]
        refine iff_of_true ?_ fun p z hp hz => ?_
        · constructor <;> simp [hnumber]
        · obtain rfl := Option.some.inj hp
          rw [hnumber] at hz
          cases hz
    | some z =>
        have hquant : (∀ p z', some plist = some p → resultNumber p = some z' →
            (-2 ^ 63 ≤ z' ∧ z' < 2 ^ 63) ∧
            (z'.bmod (2 ^ 32) ∈ ([0, 2, 3] : List ℤ) → z'.bmod (2 ^ 32) = z') ∧
            (z' = 0 → parseMessageType p = ascii "Result")) ↔
            (-2 ^ 63 ≤ z ∧ z < 2 ^ 63) ∧
            (z.bmod (2 ^ 32) ∈ ([0, 2, 3] : List ℤ) → z.bmod (2 ^ 32) = z) ∧
            (z = 0 → parseMessageType plist = ascii "Result") := by
          constructor
          · intro h
            exact h plist z rfl hnumber
          · rintro h p z' hp hz'
            obtain rfl := Option.some.inj hp
            obtain rfl := Option.some.inj (hnumber.symm.trans hz')
            exact h
        rw [hquant, genuine_number hnumber, hconnect, judged hnumber]
        have hsmall : z = 0 ∨ z = 2 ∨ z = 3 → z.bmod (2 ^ 32) = z := by
          rintro (rfl | rfl | rfl) <;> rfl
        simp only [List.mem_cons, List.not_mem_nil, or_false]
        generalize z.bmod (2 ^ 32) = w at hsmall ⊢
        split_ifs with hrange hok hbad hrefused <;> grind

/-- An answer whose number is `2 ^ 32`. -/
def wrapping : Socket :=
  { channel := { inbox :=
    [.data (encodePacket 2 (ascii ("<key>MessageType</key><string>Result</string>" ++
      "<key>Number</key><integer>4294967296</integer>")))] } }

theorem wrapped_number_accepted :
    ¬ Genuine (reply (some wrapping) 1 7420) none (connect (some wrapping) 1 7420 none).1
      (connect (some wrapping) 1 7420 none).2 := by
  intro hgenuine
  have hzero := (hgenuine.ok (by decide +kernel)).2
  exact absurd hzero (by decide +kernel)

/-! ## The first attached device -/

/-- The events that `WaitForDevice` can read: 64 at most. -/
def events (dial : Option Socket) (timeoutMs : Int32) : List Bytes :=
  match dial with
  | none => []
  | some s =>
      match s.sendPacket 1 (buildListenPlist (ascii "TetherDisplay")) with
      | (false, _) => []
      | (true, s) => (s.recvPackets 64 timeoutMs).1

/-- The first device that was attached. -/
def firstAttached (events : List Bytes) : Option AttachedDevice := events.findSome? parseAttached

/-- The first device that was attached with a cable. -/
def firstUsb (events : List Bytes) : Option AttachedDevice :=
  events.findSome? fun e => (parseAttached e).filter fun dev => dev.connectionType = ascii "USB"

/-- The loop stops at the first event that is a device. -/
theorem waitLoop_eq (n : ℕ) (s : Socket) (timeoutMs : Int32) (out : AttachedDevice) :
    waitLoop n s timeoutMs out = match firstAttached (s.recvPackets n timeoutMs).1 with
      | some dev => (.ok, dev)
      | none => (.timeout, out) := by
  induction n generalizing s with
  | zero => rfl
  | succ n ih =>
      rw [waitLoop, Socket.recvPackets]
      rcases hrecv : s.recvPacket timeoutMs with ⟨plist, s'⟩
      cases plist with
      | none => rfl
      | some plist =>
          cases hdev : parseAttached plist with
          | none => simp only [firstAttached, List.findSome?_cons, hdev, ih]
          | some dev => simp only [firstAttached, List.findSome?_cons, hdev]

/-- `WaitForDevice` returns the first attached device. -/
theorem waitForDevice_ok_iff {dial : Option Socket} {timeoutMs : Int32} {out dev : AttachedDevice} :
    waitForDevice dial timeoutMs out = (.ok, dev) ↔
      firstAttached (events dial timeoutMs) = some dev := by
  cases dial with
  | none => simp [waitForDevice, events, firstAttached]
  | some s =>
      rw [waitForDevice, events]
      rcases hsend : s.sendPacket 1 (buildListenPlist (ascii "TetherDisplay")) with ⟨sent, s'⟩
      cases sent with
      | false => simp [firstAttached]
      | true =>
          simp only [waitLoop_eq]
          cases firstAttached (s'.recvPackets 64 timeoutMs).1 with
          | none => simp
          | some first => simp

/-- The first device is the first with a cable exactly if it has one. -/
theorem firstUsb_eq_iff {events : List Bytes} {dev : AttachedDevice}
    (hfirst : firstAttached events = some dev) :
    firstUsb events = some dev ↔ dev.connectionType = ascii "USB" := by
  obtain ⟨before, e, after, rfl, hdev, hbefore⟩ := List.findSome?_eq_some_iff.mp hfirst
  have hskip : before.findSome?
      (fun e => (parseAttached e).filter fun dev => dev.connectionType = ascii "USB") = none := by
    rw [List.findSome?_eq_none_iff]
    intro e' he'
    rw [hbefore e' he', Option.filter_none]
  constructor
  · intro husb
    obtain ⟨e', -, he'⟩ := List.exists_of_findSome?_eq_some husb
    simpa using (Option.filter_eq_some_iff.mp he').2
  · intro husb
    have hkeep : (some dev).filter (fun dev => dev.connectionType = ascii "USB") = some dev :=
      Option.filter_eq_some_iff.mpr ⟨rfl, decide_eq_true husb⟩
    rw [firstUsb, List.findSome?_append, hskip, List.findSome?_cons, hdev, hkeep]
    rfl

/-- **Only cables**: `WaitForDevice` returns the first device with a cable, and no other, exactly
when the first device that was attached has one. -/
theorem waitForDevice_usb_iff (dial : Option Socket) (timeoutMs : Int32) (out : AttachedDevice) :
    (∀ dev, waitForDevice dial timeoutMs out = (.ok, dev) →
      firstUsb (events dial timeoutMs) = some dev ∧ dev.connectionType = ascii "USB") ↔
      ∀ dev, firstAttached (events dial timeoutMs) = some dev →
        dev.connectionType = ascii "USB" := by
  simp only [waitForDevice_ok_iff]
  constructor
  · intro h dev hfirst
    exact (h dev hfirst).2
  · intro h dev hfirst
    exact ⟨(firstUsb_eq_iff hfirst).mpr (h dev hfirst), h dev hfirst⟩

/-- A daemon that reports a device on the network and then the same device on a cable. -/
def networkFirst : Socket :=
  { channel := { inbox :=
    [.data (encodePacket 0 (ascii ("<key>MessageType</key><string>Attached</string>" ++
        "<key>DeviceID</key><integer>7</integer>" ++
        "<key>ConnectionType</key><string>Network</string>"))),
      .data (encodePacket 0 (ascii ("<key>MessageType</key><string>Attached</string>" ++
        "<key>DeviceID</key><integer>8</integer>" ++
        "<key>ConnectionType</key><string>USB</string>")))] } }

theorem network_device_returned :
    ¬ ∀ dev, waitForDevice (some networkFirst) 5000 {} = (.ok, dev) →
      firstUsb (events (some networkFirst) 5000) = some dev ∧
        dev.connectionType = ascii "USB" := by
  intro h
  have husb := (h { deviceId := 7, connectionType := ascii "Network" } (by decide +kernel)).2
  exact absurd husb (by decide +kernel)

end TetherDisplay.Usbmux
