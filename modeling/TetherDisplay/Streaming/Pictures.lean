import TetherDisplay.Client.DecoderSessions
import TetherDisplay.Streaming.EndToEnd
import TetherDisplay.Streaming.HostEncoder

/-!
# From NVENC to VideoToolbox

The two programs with what is at their ends: a host that streams what its encoder puts out
(`HostEncoder`), the cable and the iPad (`Tether`), and on the iPad the decoder, which its main
queue calls with the bitstream of each VIDEO_FRAME.  A step of the host is one of the session over
its encoder, and anything else is a step of `Tether`; so what each of the two keeps is kept here
(`tether_stepHost`, `host_stepHost`).

`pictures_arrive`: VideoToolbox is given the access units that NVENC has put out, in their order and
each once, from the first on that has its parameter sets with it, and when everything has got
through, all of them.
-/

namespace TetherDisplay.Streaming

open TetherDisplay.Core (Session)
open Client (SecureTransport Answers Decoding)
open Client.Decoding (Complete Works bufferOf)
open Crypto (Sodium SecureByteChannel recordLink)
open Encode (EncoderConfig NvencEncoder)
open Encode.Nvenc (EncodeAnswers)
open LockedSender (itemsBy)
open Protocol (kMaxPayload)

/-- The host over its encoder, the cable and the iPad. -/
structure Pictures (S : Sodium) where
  tether : Tether S
  encoder : NvencEncoder := {}
  /-- As in `HostEncoder`. -/
  handed : Bool := false

namespace Pictures

variable {S : Sodium}

/-- What happens next. -/
inductive Step where
  /-- The host goes on, with its encoder. -/
  | host (a : HostEncoder.Step)
  /-- The cable or the iPad goes on. -/
  | tether (a : Tether.Step)
  deriving DecidableEq, Repr

/-- The host, with its encoder. -/
def host (s : Pictures S) : HostEncoder (recordLink S) :=
  { session := s.tether.host, encoder := s.encoder, handed := s.handed }

/-- The host goes on. -/
def withHost (s : Pictures S) (h : HostEncoder (recordLink S)) : Pictures S :=
  { tether := { s.tether with host := h.session }, encoder := h.encoder, handed := h.handed }

/-- As in `Tether`: it is the channel that answers `Recv`, and the raw channel refuses nothing while
the cable is in. -/
def stepHost (s : Pictures S) (a : HostEncoder.Step) : Pictures S :=
  match a with
  | .session (.recv _) => s
  | .session (.send _ .refuse) => if s.tether.connected then s else s.withHost (s.host.step a)
  | a => s.withHost (s.host.step a)

/-- One step; the host is told of by its own steps only. -/
def step (s : Pictures S) : Step → Pictures S
  | .host a => s.stepHost a
  | .tether (.host _) => s
  | .tether a => { s with tether := s.tether.step a }

/-- Two that have paired, before `Run`. -/
def start (channel : SecureByteChannel S) (transport : SecureTransport S)
    (push : S.secretstream.Push) (config : EncoderConfig) : Pictures S where
  tether := Tether.start channel transport push config

/-- The two after a run. -/
def after (channel : SecureByteChannel S) (transport : SecureTransport S)
    (push : S.secretstream.Push) (config : EncoderConfig) (acts : List Step) : Pictures S :=
  Runs.exec step (start channel transport push config) acts

/-- The decoder of the iPad, where the frameworks answer its `i`-th call with `answers i`. -/
def decoding {F : Type} (equal : F → F → Bool) (answers : ℕ → Answers F) (s : Pictures S) :
    Decoding F :=
  Decoding.after equal (s.tether.decoded.mapIdx fun i accessUnit => (accessUnit, answers i))

/-! ## What a step is to the parts -/

variable {s : Pictures S}

/-- To the cable and the pad, a step of the host is one of its session, or none. -/
theorem tether_stepHost (s : Pictures S) (a : HostEncoder.Step) :
    (s.stepHost a).tether = s.tether ∨
      ∃ act, s.host.Takes a act ∧ (s.stepHost a).tether = s.tether.step (.host act) := by
  rcases s.host.session_cases a with hsame | ⟨act, htakes, hstep⟩
  · have hidle : (s.withHost (s.host.step a)).tether = s.tether := by
      show { s.tether with host := (s.host.step a).session } = _
      rw [hsame]
      rfl
    unfold stepHost
    split
    · exact Or.inl rfl
    · split
      · exact Or.inl rfl
      · exact Or.inl hidle
    · exact Or.inl hidle
  · have hgoes : (s.withHost (s.host.step a)).tether =
        { s.tether with host := s.tether.host.step act } := by
      show { s.tether with host := (s.host.step a).session } = _
      rw [hstep]
      rfl
    cases htakes with
    | alone act hcapture hpacket hencoded =>
        have htakes := HostEncoder.Takes.alone act hcapture hpacket hencoded
        cases act with
        | recv r => exact Or.inl rfl
        | send t w =>
            cases w with
            | refuse =>
                by_cases hcable : s.tether.connected = true
                · exact Or.inl (by simp only [stepHost, hcable, if_true])
                · refine Or.inr ⟨_, htakes, ?_⟩
                  show (if _ then _ else _ : Pictures S).tether = if _ then _ else _
                  rw [if_neg hcable, if_neg hcable]
                  exact hgoes
            | _ => exact Or.inr ⟨_, htakes, hgoes⟩
        | _ => exact Or.inr ⟨_, htakes, hgoes⟩
    | setUp device a f hat => exact Or.inr ⟨_, .setUp device a f hat, hgoes⟩
    | encode texture a f hat => exact Or.inr ⟨_, .encode texture a f hat, hgoes⟩
    | packet p f idr n hat hpacket => exact Or.inr ⟨_, .packet p f idr n hat hpacket, hgoes⟩
    | encoded f idr n hat hfree => exact Or.inr ⟨_, .encoded f idr n hat hfree, hgoes⟩

/-- A step of the host is one of the host with its encoder, or none. -/
theorem host_stepHost (s : Pictures S) (a : HostEncoder.Step) :
    s.stepHost a = s ∨ (s.stepHost a).host = s.host.step a := by
  unfold stepHost
  split
  · exact Or.inl rfl
  · split
    · exact Or.inl rfl
    · exact Or.inr rfl
  · exact Or.inr rfl

/-- Any other step is one of the tether. -/
theorem step_tether (s : Pictures S) {a : Tether.Step} (ha : ∀ b, a ≠ .host b) :
    s.step (.tether a) = { s with tether := s.tether.step a } := by
  cases a with
  | host b => exact absurd rfl (ha b)
  | _ => rfl

/-! ## What is kept -/

/-- What NVENC puts out fits into a frame. -/
def Step.Fits : Step → Prop
  | .host (.encode _ a) => ∀ locked ∈ a.locked, locked.1.length ≤ kMaxPayload - 15
  | _ => True

instance : DecidablePred Step.Fits
  | .host (.encode _ a) =>
      inferInstanceAs (Decidable (∀ locked ∈ a.locked, locked.1.length ≤ kMaxPayload - 15))
  | .host (.session _) | .host (.setUp _ _) | .host .packet | .host .encoded | .tether _ =>
      isTrue trivial

/-- **The invariant**: that of either part, and packets fit into a frame. -/
structure Sound (push : S.secretstream.Push) (config : EncoderConfig) (s : Pictures S) : Prop where
  tether : Tether.Sound push config s.tether
  serves : s.host.Serves
  fits : ∀ p ∈ s.encoder.pending, p.data.length ≤ kMaxPayload - 15

variable {push : S.secretstream.Push} {config : EncoderConfig}

/-- **One step of the host.** -/
theorem Sound.stepHost (hstream : S.StreamContract) (h : s.Sound push config)
    {a : HostEncoder.Step} (hfits : (Step.host a).Fits) : (s.stepHost a).Sound push config where
  tether := by
    rcases s.tether_stepHost a with hsame | ⟨act, htakes, hstep⟩
    · rw [hsame]
      exact h.tether
    · rw [hstep]
      refine h.tether.step hstream ?_
      show act.Fits
      cases htakes with
      | alone act hcapture hpacket hencoded =>
          cases act with
          | packet p => exact absurd rfl (hpacket p)
          | _ => trivial
      | packet p f idr n hat hpacket =>
          refine h.fits p ?_
          rw [NvencEncoder.pending, show s.encoder.encoding.bind _ = _ from hpacket]
          exact List.mem_singleton_self p
      | setUp | encode | encoded => trivial
  serves := by
    rcases s.host_stepHost a with hsame | hstep
    · rw [hsame]
      exact h.serves
    · rw [hstep]
      exact h.serves.step a
  fits := by
    rcases s.host_stepHost a with hsame | hstep
    · rw [hsame]
      exact h.fits
    · intro p hp
      have hp : p ∈ (s.host.step a).encoder.pending := hstep ▸ hp
      rcases h.serves.data_step hp with hold | ⟨texture, answers, type, rfl, hlocked⟩
      · exact h.fits p hold
      · exact hfits _ hlocked

/-- **One step keeps it**, if the packets fit. -/
theorem Sound.step (hstream : S.StreamContract) (h : s.Sound push config) {act : Step}
    (hfits : act.Fits) : (s.step act).Sound push config := by
  cases act with
  | host a => exact h.stepHost hstream hfits
  | tether a =>
      by_cases hhost : ∃ b, a = .host b
      · obtain ⟨b, rfl⟩ := hhost
        exact h
      · have ha : ∀ b, a ≠ .host b := fun b hb => hhost ⟨b, hb⟩
        have hfits : a.Fits := by
          cases a with
          | host b => exact absurd rfl (ha b)
          | _ => trivial
        have hserves : HostEncoder.Serves { s.host with session := (s.tether.step a).host } := by
          rcases s.tether.host_step a with hsame | ⟨b, hstep, hrecv⟩
          · rw [hsame]
            exact h.serves
          · obtain ⟨r, rfl⟩ := hrecv.resolve_left (ha b)
            rw [hstep]
            exact h.serves.step (.session (.recv r))
        rw [s.step_tether ha]
        exact ⟨h.tether.step hstream hfits, hserves, h.fits⟩

/-- It holds in all states of a run. -/
theorem sound_after (hstream : S.StreamContract) {channel : SecureByteChannel S}
    {transport : SecureTransport S} (h : Ready channel transport push) (config : EncoderConfig)
    {acts : List Step} (hfits : ∀ act ∈ acts, act.Fits) :
    (after channel transport push config acts).Sound push config :=
  Runs.exec_invariant (fun _ _ h hfits => h.step hstream hfits)
    ⟨Tether.sound_start hstream h config, HostEncoder.serves_start (L := recordLink S) push config,
      fun _ hp => absurd hp List.not_mem_nil⟩
    (Runs.admits_of_forall fun act hact _ => hfits act hact)

/-! ## What VideoToolbox is given -/

/-- What NVENC has put out. -/
def units (s : Pictures S) : List Bytes := s.encoder.delivered.map fun p => p.data

/-- What there is to decode in some access units. -/
def decodable (units : List Bytes) : List Bytes :=
  (units.dropWhile fun accessUnit => !decide (Complete accessUnit)).filterMap bufferOf

/-- The cable is in, and everything has got through. -/
structure Through (s : Pictures S) : Prop where
  listening : s.tether.listening = true
  connected : s.tether.connected = true
  free : s.tether.host.sender.mutex = none
  sent : s.tether.host.sending .capture = false
  downstream : s.tether.downstream = []
  queue : s.tether.queue = []

/-- More units make more pictures. -/
theorem decodable_prefix {front units : List Bytes} (h : front <+: units) :
    decodable front <+: decodable units := by
  obtain ⟨later, rfl⟩ := h
  unfold decodable
  rw [List.dropWhile_append]
  split
  · next hnone =>
    rw [List.isEmpty_iff.mp hnone]
    exact List.nil_prefix
  · rw [List.filterMap_append]
    exact List.prefix_append _ _

/-- What the session has been given is what the encoder has emitted. -/
theorem Sound.emitted (h : s.Sound push config) :
    (s.tether.host.emitted.map fun e => e.packet.data) = s.units := by
  have hdata := congrArg (List.map fun x => x.1.data) h.serves.emitted
  rw [List.map_map, List.map_map] at hdata
  exact hdata

/-- What the pad has decoded is the beginning of what the encoder has emitted. -/
theorem Sound.decoded_prefix (hstream : S.StreamContract) (h : s.Sound push config) :
    s.tether.decoded <+: s.units := by
  obtain ⟨ms, hstreamed⟩ := h.tether.streamed hstream
  rw [← h.emitted]
  exact hstreamed.decoded

/-- It is all of it once everything is through. -/
theorem Sound.decoded_eq (hstream : S.StreamContract) (h : s.Sound push config)
    (hthrough : s.Through) : s.tether.decoded = s.units := by
  obtain ⟨ms, waiting, rest, hcarries⟩ := h.tether.carries
  obtain ⟨hsaid, -⟩ := h.tether.through hstream hcarries hthrough.listening hthrough.connected
    hthrough.free hthrough.downstream hthrough.queue
  have hsound := h.tether.hosted.sound
  -- the capture thread waits with nothing
  have hidle : s.tether.host.sender.stage .capture = none :=
    Option.not_isSome_iff_eq_none.mp (Bool.eq_false_iff.mp hthrough.sent)
  have hbegun : itemsBy .capture s.tether.host.sender.handed =
      itemsBy .capture s.tether.host.sender.begun := by
    rw [hsound.valid.fifo, hidle]
    exact List.append_nil _
  rw [hcarries.decoded, Tether.bitstreams_eq, hsaid, Tether.said,
    Session.filterMap_video fun x hx => (hsound.speaks.begun x hx).1, ← hbegun,
    Tether.bitstreams_handed h.tether.hosted, h.emitted]

variable {F : Type} {equal : F → F → Bool} {answers : ℕ → Answers F}

/-- The pictures are those of the units that have been decoded. -/
theorem samples_decoding (hworks : ∀ i, Works (answers i)) :
    (s.decoding equal answers).samples = decodable s.tether.decoded := by
  have hmap : (s.tether.decoded.mapIdx fun i accessUnit => (accessUnit, answers i)).map Prod.fst =
      s.tether.decoded := by
    refine List.ext_getElem (by simp) fun i hi hi' => ?_
    simp
  have hall : ∀ act ∈ s.tether.decoded.mapIdx fun i accessUnit => (accessUnit, answers i),
      Works act.2 := by
    intro act hact
    obtain ⟨i, hi, rfl⟩ := List.mem_mapIdx.mp hact
    exact hworks i
  refine (Decoding.samples_exec {} hall).trans ?_
  rw [hmap]
  rfl

/-- What has become of the pictures. -/
structure Arrived (equal : F → F → Bool) (answers : ℕ → Answers F) (s : Pictures S) : Prop where
  given : s.tether.decoded <+: s.units
  decoded : (s.decoding equal answers).samples <+: decodable s.units
  complete : s.Through → s.tether.decoded = s.units ∧
    (s.decoding equal answers).samples = decodable s.units

/-- **The pictures arrive**, in every run in which what NVENC puts out fits into a frame and the
frameworks of the decoder do as they are asked. -/
theorem pictures_arrive (hstream : S.StreamContract) {channel : SecureByteChannel S}
    {transport : SecureTransport S} (h : Ready channel transport push) (config : EncoderConfig)
    {acts : List Step} (hfits : ∀ act ∈ acts, act.Fits) (hworks : ∀ i, Works (answers i)) :
    (after channel transport push config acts).Arrived equal answers := by
  have hsound := sound_after hstream h config hfits
  have hfront := hsound.decoded_prefix hstream
  refine ⟨hfront, ?_, fun hthrough => ?_⟩
  · rw [samples_decoding hworks]
    exact decodable_prefix hfront
  · have hall := hsound.decoded_eq hstream hthrough
    exact ⟨hall, (samples_decoding hworks).trans (congrArg decodable hall)⟩

/-- A keyframe goes all the way. -/
theorem pictures_arrive_keyframe :
    let key : EncodeAnswers := { locked := some (Decoding.keyframe 1, .idr) }
    let frame : List HostEncoder.Step := [.session (.deliver {}), .session (.capture true),
      .setUp (some 1) {}, .encode true key, .packet] ++
        (Session.sends .capture).map .session ++ [.encoded]
    let acts : List Step := .tether (.paired none) ::
      Session.opening.map (fun a => .host (.session a)) ++ frame.map .host ++
      [.tether (.deliver 1000), .tether .process, .tether .process, .tether .process]
    let s := after Tether.paperChannel Tether.paperTransport Tether.paperPush {} acts
    s.Arrived (· == ·) (fun _ => Decoding.compliant) ∧ s.Through ∧
      (s.decoding (· == ·) fun _ => Decoding.compliant).samples = [[0, 0, 0, 2, 0x26, 1]] := by
  intro key frame acts s
  have hworks : ∀ _ : ℕ, Works Decoding.compliant := fun _ => ⟨fun _ _ _ => rfl, rfl, rfl⟩
  refine ⟨pictures_arrive Sodium.paper_streamContract Tether.ready_paper {} (by decide +kernel)
    hworks, ?_, by decide +kernel⟩
  exact ⟨by decide +kernel, by decide +kernel, by decide +kernel, by decide +kernel,
    by decide +kernel, by decide +kernel⟩

end Pictures

end TetherDisplay.Streaming
