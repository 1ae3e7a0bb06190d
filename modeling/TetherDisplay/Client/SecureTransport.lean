import TetherDisplay.Crypto.Delivery

/-!
# The secure transport on the iPad

`SecureTransport.swift`: the framing of records over an `NWConnection`, and the loop that
hands decrypted records on.  The connection delivers data by callbacks, one for each
`receive`; `Delivery` is what a callback is given, and a sequence of deliveries is every
way in which the connection may cut up its stream.

`extractFrame` reads the format of the host's records (`extractFrame_scan`), so the two
sides share `recordGrammar`.  From there on the loop is a machine with one invariant:
what is in the buffer followed by what is still to be delivered is the wire of the
messages not yet handed on (`receives_wire`).
-/

namespace TetherDisplay.Client

open Crypto (Sodium ByteArr headerBytes aBytes kMaxFrame lengthHeader recordWire scanRecord
  recordGrammar wire Fits scanRecord_wire)
open LittleEndian

variable (S : Sodium)

/-! ## The encrypted channel -/

/-- The post-handshake channel: a push stream, and a pull stream once the peer's header has
arrived. -/
structure SecureChannel where
  push : S.secretstream.Push
  pull : Option S.secretstream.Pull := none
  rxKey : ByteArr 32
  txHeader : Bytes

namespace SecureChannel

variable {S}

/-- `init?`, with the header that `initPush` draws. -/
def make (txKey rxKey : ByteArr 32) (header : ByteArr headerBytes) : SecureChannel S :=
  { push := S.initPush txKey header, rxKey, txHeader := header.toList }

/-- `none` is `false`. -/
def initRx (c : SecureChannel S) (peerHeader : Bytes) : Option (SecureChannel S) :=
  if h : peerHeader.length = headerBytes then
    (S.initPull ⟨peerHeader, h⟩ c.rxKey).map fun pull => { c with pull := some pull }
  else none

/-- `encrypt`. -/
def encrypt (c : SecureChannel S) (plaintext : Bytes) : Bytes × SecureChannel S :=
  let (record, push) := S.secretstream.push c.push plaintext
  (record, { c with push })

/-- `decrypt`: a record that is too short, or that does not open, is none. -/
def decrypt (c : SecureChannel S) (record : Bytes) : Option (Bytes × SecureChannel S) :=
  match c.pull with
  | none => none
  | some pull =>
      if record.length < aBytes then none
      else
        (S.secretstream.pull pull record).map fun (message, pull) =>
          (message, { c with pull := some pull })

end SecureChannel

/-! ## The transport -/

/-- A matching pair of `SecureTransport` and `NWConnection`: `sent` is what has been handed
to the connection. -/
structure SecureTransport where
  channel : Option (SecureChannel S) := none
  buffer : Bytes := []
  sent : Bytes := []

/-- What the callback of a `receive` is given: the data, none or some, and whether
`isComplete || error != nil`. -/
structure Delivery where
  data : Bytes := []
  last : Bool := false
  deriving DecidableEq, Repr

/-- What a buffer begins with. -/
inductive Extract where
  | frame (f : Bytes)
  | needMore
  | error
  deriving DecidableEq, Repr

/-- A bit over the protocol's 16 MiB payload cap; matches the host. -/
def maxFrame : ℕ := 17 * 1024 * 1024

/-- The length field as the source puts it together, of non-negative `Int`s. -/
def frameLength (buffer : Bytes) : ℕ :=
  (buffer.getD 0 0).toNat ||| ((buffer.getD 1 0).toNat <<< 8) |||
    ((buffer.getD 2 0).toNat <<< 16) ||| ((buffer.getD 3 0).toNat <<< 24)

/-- `extractFrame`, and what is left of the buffer. -/
def extractFrame (buffer : Bytes) : Extract × Bytes :=
  if buffer.length < 4 then (.needMore, buffer)
  else
    let len := frameLength buffer
    if ¬ (0 < len ∧ len ≤ maxFrame) then (.error, buffer)
    else if buffer.length < 4 + len then (.needMore, buffer)
    else (.frame ((buffer.take (4 + len)).drop 4), buffer.drop (4 + len))

namespace SecureTransport

variable {S}

/-- The header is put together like the host's. -/
def sendFramed (t : SecureTransport S) (payload : Bytes) : SecureTransport S :=
  { t with sent := t.sent ++ (lengthHeader (UInt32.ofNat payload.length) ++ payload) }

/-- `send`: a record, framed, once there is a channel. -/
def send (t : SecureTransport S) (plaintext : Bytes) : SecureTransport S :=
  match t.channel with
  | none => t
  | some channel =>
      let (record, channel) := channel.encrypt plaintext
      sendFramed { t with channel := some channel } record

/-- What a loop has handed to `onPlaintext`, whether it has called `onClosed`, and the
transport after it. -/
structure Looped (S : Sodium) where
  plaintexts : List Bytes
  closed : Bool
  transport : SecureTransport S

/-- `receiveLoop` until it has to wait for the connection.  Every round but the last takes
a frame off the buffer, so the bound on the rounds is never met. -/
def receiveLoop : ℕ → SecureTransport S → Looped S
  | 0, t => ⟨[], false, t⟩
  | fuel + 1, t =>
      match extractFrame t.buffer with
      | (.needMore, _) => ⟨[], false, t⟩
      | (.error, _) => ⟨[], true, t⟩
      | (.frame record, buffer) =>
          match t.channel.bind (·.decrypt record) with
          | none => ⟨[], true, { t with buffer }⟩
          | some (plain, channel) =>
              let later := receiveLoop fuel { t with buffer, channel := some channel }
              ⟨plain :: later.plaintexts, later.closed, later.transport⟩

/-- The callback of the `receive` in `readFrame`, for the loop that waits in it. -/
def onReceive (t : SecureTransport S) (d : Delivery) : Looped S :=
  let t := { t with buffer := t.buffer ++ d.data }
  match extractFrame t.buffer with
  | (.needMore, _) => ⟨[], d.last, t⟩
  | _ => receiveLoop (t.buffer.length + 1) t

/-- A loop that waits, through a sequence of deliveries. -/
def receives : SecureTransport S → List Delivery → Looped S
  | t, [] => ⟨[], false, t⟩
  | t, d :: deliveries =>
      let r := t.onReceive d
      if r.closed then r
      else
        let later := receives r.transport deliveries
        ⟨r.plaintexts ++ later.plaintexts, later.closed, later.transport⟩

/-- `receiveLoop` from when it is called: what is in the buffer, then what the connection
delivers. -/
def receiving (t : SecureTransport S) (deliveries : List Delivery) : Looped S :=
  let r := receiveLoop (t.buffer.length + 1) t
  if r.closed then r
  else
    let later := receives r.transport deliveries
    ⟨r.plaintexts ++ later.plaintexts, later.closed, later.transport⟩

end SecureTransport

/-! ## The format -/

/-- The length stands in the first four bytes. -/
theorem frameLength_eq {buffer : Bytes} (h : 4 ≤ buffer.length) :
    frameLength buffer = leNat (buffer.take 4) := by
  have htake : ∀ i < 4, leNat (buffer.take (i + 1)) =
      leNat (buffer.take i) ||| (buffer.getD i 0).toNat <<< (8 * i) := by
    intro i hi
    rw [or_shiftLeft_eq_add _ (Protocol.leNat_take_lt (by omega)),
      Protocol.leNat_take_succ (by omega)]
  have h₁ : leNat (buffer.take 1) = _ := htake 0 (by omega)
  have h₂ : leNat (buffer.take 2) = _ := htake 1 (by omega)
  have h₃ : leNat (buffer.take 3) = _ := htake 2 (by omega)
  have h₄ : leNat (buffer.take 4) = _ := htake 3 (by omega)
  simp only [frameLength, h₄, h₃, h₂, h₁, List.take_zero, leNat_nil, Nat.zero_or,
    Nat.shiftLeft_zero, Nat.mul_zero]

/-- **The iPad extracts what the host frames.** -/
theorem extractFrame_scan (buffer : Bytes) :
    extractFrame buffer =
      match scanRecord buffer with
      | .more => (.needMore, buffer)
      | .fail _ => (.error, buffer)
      | .item f k => (.frame f, buffer.drop k) := by
  unfold extractFrame scanRecord
  split
  · rfl
  · rename_i hlong
    rw [frameLength_eq (Nat.not_lt.mp hlong)]
    have hbad : ¬ (0 < leNat (buffer.take 4) ∧ leNat (buffer.take 4) ≤ maxFrame) ↔
        leNat (buffer.take 4) = 0 ∨ kMaxFrame < leNat (buffer.take 4) := by
      have hsame : maxFrame = kMaxFrame := rfl
      omega
    simp only [hbad]
    split
    · rfl
    · split
      · rfl
      · rw [List.drop_take, Nat.add_sub_cancel_left]

/-! ## The loop -/

namespace SecureTransport

variable {S}

/-- **The invariant.**  What is in the buffer followed by what is still to be delivered,
`future`, is the wire of the messages `ds`, and the pull stream is in step with it. -/
def Carries (t : SecureTransport S) (future : Bytes) (ds : List Bytes) : Prop :=
  ∃ channel push pull, t.channel = some channel ∧ channel.pull = some pull ∧
    S.secretstream.InSync push pull ∧ Fits ds ∧ t.buffer ++ future = wire push ds

/-- A wire is at its end when it does not begin with a record. -/
theorem Carries.ended (hstream : S.StreamContract) {t : SecureTransport S} {ds : List Bytes}
    (h : t.Carries [] ds) (hmore : scanRecord t.buffer = .more) : ds = [] := by
  obtain ⟨channel, push, pull, -, -, -, hfits, hwire⟩ := h
  rw [List.append_nil] at hwire
  cases ds with
  | nil => rfl
  | cons d ds =>
      rw [hwire, scanRecord_wire hstream push hfits] at hmore
      cases hmore

/-- A buffer that begins with a record begins with the next one: the loop hands its
message on. -/
theorem Carries.next (hstream : S.StreamContract) {t : SecureTransport S} {future : Bytes}
    {ds : List Bytes} {record : Bytes} {k : ℕ} (h : t.Carries future ds)
    (hscan : scanRecord t.buffer = .item record k) :
    ∃ d rest channel, ds = d :: rest ∧ t.channel.bind (·.decrypt record) = some (d, channel) ∧
      Carries { t with buffer := t.buffer.drop k, channel := some channel } future rest := by
  obtain ⟨channel, push, pull, hchannel, hpull, hsync, hfits, hwire⟩ := h
  -- what is recognised in the buffer is still there with what is to be delivered
  have hitem : scanRecord (t.buffer ++ future) = .item record k :=
    recordGrammar.item_append hscan future
  rw [hwire] at hitem
  cases ds with
  | nil => cases hitem
  | cons d rest =>
      rw [scanRecord_wire hstream push hfits] at hitem
      injection hitem with hrecord hk
      subst hrecord hk
      obtain ⟨pull', haccept, hsync'⟩ := hsync.step d
      have hlength := hstream.length_push push d
      have hdecrypt : channel.decrypt (S.secretstream.push push d).1 =
          some (d, { channel with pull := some pull' }) := by
        unfold SecureChannel.decrypt
        simp only [hpull]
        rw [if_neg (by omega), haccept]
        rfl
      refine ⟨d, rest, { channel with pull := some pull' }, rfl, ?_, _, _, pull', rfl, rfl,
        hsync', (List.forall_mem_cons.mp hfits).2, ?_⟩
      · rw [hchannel]
        exact hdecrypt
      · rw [← List.drop_append_of_le_length (recordGrammar.used_le hscan), hwire]
        exact List.drop_left

/-- A buffer in front of a wire has no bad length in it. -/
theorem Carries.sound (hstream : S.StreamContract) {t : SecureTransport S} {future : Bytes}
    {ds : List Bytes} (h : t.Carries future ds) (e : Unit) : scanRecord t.buffer ≠ .fail e := by
  intro hscan
  obtain ⟨channel, push, pull, -, -, -, hfits, hwire⟩ := h
  have hfail : scanRecord (t.buffer ++ future) = .fail e :=
    recordGrammar.fail_append hscan future
  rw [hwire] at hfail
  cases ds with
  | nil => cases hfail
  | cons d rest =>
      rw [scanRecord_wire hstream push hfits] at hfail
      cases hfail

/-- **The loop hands on every message that has arrived as a whole**, and then waits. -/
theorem receiveLoop_wire (hstream : S.StreamContract) (fuel : ℕ) {t : SecureTransport S}
    {future : Bytes} {ds : List Bytes} (hfuel : t.buffer.length < fuel)
    (h : t.Carries future ds) :
    let r := receiveLoop fuel t
    r.closed = false ∧ scanRecord r.transport.buffer = .more ∧
      ∃ rest, ds = r.plaintexts ++ rest ∧ r.transport.Carries future rest := by
  induction fuel generalizing t ds with
  | zero => omega
  | succ fuel ih =>
      have hextract := extractFrame_scan t.buffer
      unfold receiveLoop
      cases hscan : scanRecord t.buffer with
      | more =>
          rw [hscan] at hextract
          simp only [hextract]
          exact ⟨trivial, hscan, ds, rfl, h⟩
      | fail e => exact absurd hscan (h.sound hstream e)
      | item record k =>
          rw [hscan] at hextract
          obtain ⟨d, rest, channel, rfl, hdecrypt, hcarries⟩ := h.next hstream hscan
          have hpos := recordGrammar.used_pos hscan
          have hle := recordGrammar.used_le hscan
          obtain ⟨hclosed, hmore, rest', hrest, hcarries'⟩ :=
            ih (t := { t with buffer := t.buffer.drop k, channel := some channel })
              (by rw [List.length_drop]; omega) hcarries
          simp only [hextract, hdecrypt]
          exact ⟨hclosed, hmore, rest', congrArg (d :: ·) hrest, hcarries'⟩

/-- **One delivery.**  The connection ends only when there is nothing more to deliver. -/
theorem onReceive_wire (hstream : S.StreamContract) {t : SecureTransport S} {d : Delivery}
    {future : Bytes} {ds : List Bytes} (h : t.Carries (d.data ++ future) ds)
    (hlast : d.last = true → future = []) :
    let r := t.onReceive d
    scanRecord r.transport.buffer = .more ∧
      ∃ rest, ds = r.plaintexts ++ rest ∧ r.transport.Carries future rest ∧
        (r.closed = true → rest = []) := by
  have hfed : Carries { t with buffer := t.buffer ++ d.data } future ds := by
    obtain ⟨channel, push, pull, hchannel, hpull, hsync, hfits, hwire⟩ := h
    exact ⟨channel, push, pull, hchannel, hpull, hsync, hfits, by rw [List.append_assoc, hwire]⟩
  have hextract := extractFrame_scan (t.buffer ++ d.data)
  unfold onReceive
  cases hscan : scanRecord (t.buffer ++ d.data) with
  | more =>
      rw [hscan] at hextract
      simp only [hextract]
      -- the loop closes only on the last delivery, and then the wire is at its end
      refine ⟨hscan, ds, rfl, hfed, fun hclosed => ?_⟩
      rw [hlast hclosed] at hfed
      exact hfed.ended hstream hscan
  | fail e => exact absurd hscan (hfed.sound hstream e)
  | item record k =>
      rw [hscan] at hextract
      simp only [hextract]
      obtain ⟨hclosed, hmore, rest, hrest, hcarries⟩ :=
        receiveLoop_wire hstream ((t.buffer ++ d.data).length + 1) (Nat.lt_succ_self _) hfed
      exact ⟨hmore, rest, hrest, hcarries, fun h => by rw [hclosed] at h; cases h⟩

/-- **All deliveries**, of which the last one at most ends the connection. -/
theorem receives_wire (hstream : S.StreamContract) {deliveries : List Delivery}
    {t : SecureTransport S} {ds : List Bytes}
    (hlast : ∀ d ∈ deliveries.dropLast, d.last = false)
    (hmore : scanRecord t.buffer = .more)
    (h : t.Carries (deliveries.flatMap Delivery.data) ds) :
    (t.receives deliveries).plaintexts = ds := by
  induction deliveries generalizing t ds with
  | nil => exact (h.ended hstream hmore).symm
  | cons d deliveries ih =>
      have hend : d.last = true → deliveries.flatMap Delivery.data = [] := by
        intro hd
        cases deliveries with
        | nil => rfl
        | cons d' deliveries =>
            rw [hlast d (by rw [List.dropLast_cons_cons]; exact List.mem_cons_self)] at hd
            cases hd
      obtain ⟨hmore', rest, rfl, hcarries, hclosed⟩ := onReceive_wire hstream h hend
      unfold receives
      cases hr : (t.onReceive d).closed with
      | true =>
          simp only [hr, if_true]
          rw [hclosed hr, List.append_nil]
      | false =>
          simp only [hr, Bool.false_eq_true, if_false]
          refine congrArg (_ ++ ·) (ih (fun d' hd' => hlast d' ?_) hmore' hcarries)
          cases deliveries with
          | nil => cases hd'
          | cons e deliveries =>
              rw [List.dropLast_cons_cons]
              exact List.mem_cons_of_mem _ hd'

/-- **`receiveLoop` hands on the messages of a wire**, one by one and in order, whatever the
deliveries it arrives in. -/
theorem receiving_wire (hstream : S.StreamContract) {deliveries : List Delivery}
    {t : SecureTransport S} {ds : List Bytes}
    (hlast : ∀ d ∈ deliveries.dropLast, d.last = false)
    (h : t.Carries (deliveries.flatMap Delivery.data) ds) :
    (t.receiving deliveries).plaintexts = ds := by
  obtain ⟨hclosed, hmore, rest, rfl, hcarries⟩ :=
    receiveLoop_wire hstream (t.buffer.length + 1) (Nat.lt_succ_self _) h
  unfold receiving
  simp only [hclosed, Bool.false_eq_true, if_false]
  exact congrArg (_ ++ ·) (receives_wire hstream hlast hmore hcarries)

end SecureTransport

end TetherDisplay.Client
