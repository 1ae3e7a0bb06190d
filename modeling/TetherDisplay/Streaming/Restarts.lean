import TetherDisplay.Client.Encounter
import TetherDisplay.Client.KeychainIdentity
import TetherDisplay.Crypto.CredentialStore

/-!
# The two devices across restarts

The host's program is started and started again, and so is the iPad's app.  Each start asks its own
store for the identity of the device, and each pairing checks the other's against what is pinned.
`Devices` runs the two through any sequence of starts and pairings.  A pairing is that of
`Meeting`, with the stores as they are at the time, and may be cut off anywhere.

The two recognise one another for as long as their stores can be read and they pair only as who
their stores say they are (`paired_across_restarts`): what each has pinned is what the other has
stored, and what is stored stays.  Neither program makes sure of this.  One start at which the
identity cannot be read, and another is saved in its place, makes a stranger of a paired device:
that device goes by what it has saved from then on, and since a pin is never replaced either, it
stays one for good, whatever the other goes by (`identity_lost`).
-/

namespace TetherDisplay.Streaming

open Client (DeviceIdentity Keychain Launch Handshake Meeting KeychainStore.loadOrCreateIdentity
  KeychainStore.loadPinnedPeer KeychainStore.savePinnedPeer padParty)
open Crypto (Sodium ByteArr PublicKey headerBytes Identity KxKeypair StoredIdentity Credentials
  loadOrCreateIdentity)
open Client.KeychainStore (Finds Lands)
open Crypto.CredentialManagerStore (selfStore identityStore loadSelf loadPeer savePeer load_found
  load_created loadPeer_saveSelf loadPeer_savePeer
  loadSelf_savePeer loadSelf_saveSelf)

variable {S : Sodium}

/-! ## Identities as bytes -/

/-- What is stored of an identity on the host. -/
def stored (id : Identity S) : StoredIdentity := ⟨id.signPk, id.signSk⟩

variable (S) in
/-- The identity that is stored, if its halves belong together. -/
def hostIdentity (id : StoredIdentity) : Option (Identity S) :=
  if h : id.signPk = S.signPublicKey id.signSk then some ⟨id.signPk, id.signSk, h⟩ else none

variable (S) in
/-- The same of the identity that the app goes by. -/
def padIdentity (id : DeviceIdentity) : Option (Identity S) :=
  if h : id.signPublicKey.length = 32 ∧ id.signSecretKey.length = 64 then
    hostIdentity S ⟨⟨id.signPublicKey, h.1⟩, ⟨id.signSecretKey, h.2⟩⟩
  else none

/-- What is stored is the identity. -/
theorem stored_of_hostIdentity {id : StoredIdentity} {i : Identity S}
    (h : hostIdentity S id = some i) : id = stored i := by
  unfold hostIdentity at h
  split_ifs at h
  cases h
  rfl

/-- What the app goes by is the identity. -/
theorem generate_of_padIdentity {id : DeviceIdentity} {i : Identity S}
    (h : padIdentity S id = some i) : id = DeviceIdentity.generate i := by
  unfold padIdentity at h
  split_ifs at h
  have hstored := stored_of_hostIdentity h
  have hpk := congrArg (List.Vector.toList ∘ StoredIdentity.signPk) hstored
  have hsk := congrArg (List.Vector.toList ∘ StoredIdentity.signSk) hstored
  exact congrArg₂ DeviceIdentity.mk hpk hsk

/-! ## The devices -/

/-- The two stores, and the identities that the programs go by while they run. -/
structure Devices where
  credentials : Credentials := {}
  keychain : Keychain := {}
  host : Option StoredIdentity := none
  pad : Option DeviceIdentity := none
  deriving DecidableEq

variable (S) in
/-- A pairing: which calls of the stores work, what the library draws, and when what is
delivered. -/
structure Encounter where
  hostReads : Bool := true
  hostSaves : Bool := true
  padReads : Bool := true
  padSaves : Client.KeychainStore.WriteOutcome := {}
  hostEph : KxKeypair S
  hostHeader : ByteArr headerBytes
  padEph : KxKeypair S
  padHeader : ByteArr headerBytes
  schedule : List Dialogue.Act := []

namespace Devices

variable (S) in
/-- What happens next. -/
inductive Act where
  /-- `StreamLoop` begins; `fresh` would be generated. -/
  | host (reads saves : Bool) (fresh : Identity S)
  /-- The app is launched. -/
  | pad (l : Launch S)
  | pair (e : Encounter S)

/-- What the two bring to a pairing.  One whose halves do not belong together brings nothing that
is modelled here, and such a pairing leaves the stores as they are.  For a pad that is what comes of
it: the host answers `BadSignature` before its header, so neither pins anything.  The halves of the
host are saved and read as one. -/
def meeting (d : Devices) (e : Encounter S) : Option (Meeting S Credentials) :=
  match d.host.bind (hostIdentity S), d.pad.bind (padIdentity S) with
  | some host, some pad =>
      some
        { host
          hostEph := e.hostEph
          hostHeader := e.hostHeader
          store := identityStore e.hostReads e.hostSaves
          st := d.credentials
          pad
          padEph := e.padEph
          padHeader := e.padHeader
          pinned := KeychainStore.loadPinnedPeer d.keychain.peerPk e.padReads }
  | _, _ => none

/-- Where the pairing has come to. -/
def talk (m : Meeting S Credentials) (e : Encounter S) :
    Dialogue.Talk (List Core.Received) (Handshake S) :=
  Runs.exec (Dialogue.step m.hostParty padParty) m.start e.schedule

/-- The host's program starts. -/
def stepHost (d : Devices) (reads saves : Bool) (fresh : Identity S) : Devices :=
  let (me, credentials) := loadOrCreateIdentity (selfStore reads saves) d.credentials (stored fresh)
  { d with credentials, host := some me }

/-- The app starts. -/
def stepPad (d : Devices) (l : Launch S) : Devices :=
  let (identity, keychain) := KeychainStore.loadOrCreateIdentity d.keychain l
  { d with keychain, pad := some identity }

/-- The completion of the app saves what it has learned. -/
def stepPair (d : Devices) (e : Encounter S) : Devices :=
  match d.meeting e with
  | none => d
  | some m =>
      let t := talk m e
      { d with
        credentials := (m.establish t.left).store
        keychain := { d.keychain with
          peerPk := match t.right.completion with
            | some (.ok, some pk) =>
                KeychainStore.savePinnedPeer d.keychain.peerPk pk e.padSaves
            | _ => d.keychain.peerPk } }

/-- One start, or one pairing. -/
def step (d : Devices) : Act S → Devices
  | .host reads saves fresh => d.stepHost reads saves fresh
  | .pad l => d.stepPad l
  | .pair e => d.stepPair e

/-- What the programs go by is what is stored. -/
def Stored (d : Devices) : Prop :=
  (∀ id ∈ d.host, loadSelf d.credentials true = some id) ∧
    ∀ id ∈ d.pad, d.keychain.selfPk = some id.signPublicKey ∧
      d.keychain.selfSk = some id.signSecretKey

instance (d : Devices) : Decidable d.Stored :=
  inferInstanceAs (Decidable ((∀ id ∈ _, _) ∧ ∀ id ∈ _, _ ∧ _))

/-- A pairing delivers what has been said, in any pieces, and perhaps not all of it. -/
def Delivered (d : Devices) (e : Encounter S) : Prop :=
  ∀ m ∈ d.meeting e, Runs.Admits (Dialogue.step m.hostParty padParty)
    (Dialogue.Delivers m.hostParty padParty) m.start e.schedule

instance (d : Devices) (e : Encounter S) : Decidable (d.Delivered e) :=
  inferInstanceAs (Decidable (∀ m ∈ _, _))

/-- Every read works, and a pairing delivers what has been said. -/
def Reads (d : Devices) : Act S → Prop
  | .host reads _ _ => reads = true
  | .pad l => Client.KeychainStore.Launch.Reads l
  | .pair e => e.hostReads = true ∧ e.padReads = true ∧ d.Delivered e

instance (d : Devices) : DecidablePred (d.Reads (S := S))
  | .host reads _ _ => inferInstanceAs (Decidable (reads = true))
  | .pad l => inferInstanceAs (Decidable (Client.KeychainStore.Launch.Reads l))
  | .pair e => inferInstanceAs (Decidable (_ ∧ _ ∧ d.Delivered e))

/-- **What the programs do not make sure of**: every read works, and the two pair as who their
stores say they are. -/
def Allowed (d : Devices) : Act S → Prop
  | .host reads _ _ => reads = true
  | .pad l => Client.KeychainStore.Launch.Reads l
  | .pair e => d.Stored ∧ e.hostReads = true ∧ e.padReads = true ∧ d.Delivered e

instance (d : Devices) : DecidablePred (d.Allowed (S := S))
  | .host reads _ _ => inferInstanceAs (Decidable (reads = true))
  | .pad l => inferInstanceAs (Decidable (Client.KeychainStore.Launch.Reads l))
  | .pair e => inferInstanceAs (Decidable (d.Stored ∧ _ ∧ _ ∧ d.Delivered e))

theorem Allowed.reads {d : Devices} {a : Act S} (h : d.Allowed a) : d.Reads a := by
  cases a with
  | host reads saves fresh => exact h
  | pad l => exact h
  | pair e => exact h.2

/-- Two new devices. -/
def after (acts : List (Act S)) : Devices := Runs.exec step {} acts

/-! ## A pairing -/

variable {d : Devices} {e : Encounter S} {m : Meeting S Credentials}

/-- The identities of a meeting are those that the programs go by, and the pins those that are
stored. -/
structure Meets (d : Devices) (e : Encounter S) (m : Meeting S Credentials) : Prop where
  host : d.host = some (stored m.host)
  pad : d.pad = some (DeviceIdentity.generate m.pad)
  store : m.store = identityStore true e.hostSaves
  st : m.st = d.credentials
  pinned : m.pinned = d.keychain.peerPk
  opened : Dialogue.Opened m.hostParty [] (Crypto.recordWire m.padMirror.hello)
      (talk m e).left (talk m e).heardLeft ∧
    Dialogue.Opened padParty m.padStart (Crypto.recordWire m.hostPairing.hello)
      (talk m e).right (talk m e).heardRight

/-- A pairing with working reads. -/
theorem meets (he : d.Reads (.pair e)) (hm : d.meeting e = some m) : d.Meets e m := by
  obtain ⟨hhostReads, hpadReads, hdelivered⟩ := he
  have hadmits := hdelivered m hm
  unfold meeting at hm
  split at hm
  · next host pad hhost' hpad' =>
      obtain ⟨id, hid, hidentity⟩ := Option.bind_eq_some_iff.mp hhost'
      obtain ⟨id', hid', hidentity'⟩ := Option.bind_eq_some_iff.mp hpad'
      cases hm
      refine ⟨?_, ?_, ?_, rfl, ?_, ?_⟩
      · rw [← stored_of_hostIdentity hidentity]
        exact hid
      · rw [← generate_of_padIdentity hidentity']
        exact hid'
      · rw [hhostReads]
      · show KeychainStore.loadPinnedPeer d.keychain.peerPk e.padReads = _
        rw [hpadReads]
        rfl
      · exact Dialogue.opened_exec Meeting.host_opens Meeting.pad_opens hadmits
  · cases hm

/-- Two that pair as who their stores say they are. -/
theorem Meets.ofStored (h : d.Meets e m) (hstored : d.Stored) :
    loadSelf d.credentials true = some (stored m.host) ∧
      d.keychain.selfPk = some m.pad.signPk.toList ∧
      d.keychain.selfSk = some m.pad.signSk.toList :=
  ⟨hstored.1 _ h.host, hstored.2 _ h.pad⟩

/-- The pin that the host compares with is the one that is stored. -/
theorem Meets.hostPin (h : d.Meets e m) :
    m.store.loadPeer m.st = loadPeer d.credentials true := by
  rw [h.store, h.st]
  rfl

/-- What a pairing leaves of the stores.  The identities stay, and so does a pin; where there is
none, it may be the identity of the other. -/
structure Leaves (d d' : Devices) (m : Meeting S Credentials) : Prop where
  goesBy : d'.host = d.host ∧ d'.pad = d.pad
  self : loadSelf d'.credentials true = loadSelf d.credentials true
  selfPk : d'.keychain.selfPk = d.keychain.selfPk
  selfSk : d'.keychain.selfSk = d.keychain.selfSk
  host : loadPeer d'.credentials true = loadPeer d.credentials true ∨
    loadPeer d.credentials true = none ∧ loadPeer d'.credentials true = some m.pad.signPk
  pad : d'.keychain.peerPk = d.keychain.peerPk ∨
    d.keychain.peerPk = none ∧ d'.keychain.peerPk = some m.host.signPk.toList

/-- **One pairing.** -/
theorem Meets.leaves (h : d.Meets e m) (hm : d.meeting e = some m) :
    d.Leaves (d.step (.pair e)) m := by
  have hcredentials : (d.step (.pair e)).credentials = (m.establish (talk m e).left).store := by
    simp only [step, stepPair, hm]
  have hpeer : (m.establish (talk m e).left).store = d.credentials ∨
      loadPeer d.credentials true = none ∧ (m.establish (talk m e).left).store =
        (savePeer d.credentials m.pad.signPk e.hostSaves).2 := by
    rcases Meeting.host_meets h.opened.1 with ⟨-, hsame⟩ | ⟨-, hsave, hkeep⟩
    · exact .inl (hsame.trans h.st)
    · rw [h.hostPin] at hsave hkeep
      by_cases hnone : loadPeer d.credentials true = none
      · refine .inr ⟨hnone, ?_⟩
        rw [hsave hnone, h.store, h.st]
        rfl
      · exact .inl ((hkeep hnone).trans h.st)
  constructor
  · simp only [step, stepPair, hm]
    exact ⟨trivial, trivial⟩
  · rw [hcredentials]
    rcases hpeer with hsame | ⟨-, hsaved⟩
    · rw [hsame]
    · rw [hsaved, loadSelf_savePeer]
  · simp only [step, stepPair, hm]
  · simp only [step, stepPair, hm]
  · rw [hcredentials]
    rcases hpeer with hsame | ⟨hnone, hsaved⟩
    · exact .inl (by rw [hsame])
    · rw [hsaved]
      cases e.hostSaves with
      | false => exact .inl rfl
      | true => exact .inr ⟨hnone, loadPeer_savePeer _ _⟩
  · simp only [step, stepPair, hm]
    split
    · next pk hcompletion =>
        obtain ⟨-, hlearned⟩ := Meeting.pad_meets h.opened.2 hcompletion
        split_ifs at hlearned with hnone
        rw [Option.some.injEq] at hlearned
        rw [hlearned, KeychainStore.savePinnedPeer, Client.KeychainStore.write_eq]
        split_ifs
        · exact .inr ⟨h.pinned.symm.trans hnone, rfl⟩
        · exact .inl rfl
    · exact .inl rfl

/-! ## What a step can do -/

/-- What becomes of the two stores, and of what the programs go by. -/
inductive Change (d d' : Devices) : Act S → Prop where
  | started (a : Act S) (hcredentials : d'.credentials = d.credentials)
      (hkeychain : d'.keychain = d.keychain)
      (hhost : d'.host = d.host ∨
        ∃ id, loadSelf d.credentials true = some id ∧ d'.host = some id)
      (hpad : d'.pad = d.pad ∨ ∃ pk sk, d.keychain.selfPk = some pk ∧
        d.keychain.selfSk = some sk ∧ d'.pad = some ⟨pk, sk⟩) : Change d d' a
  | hostBorn (a : Act S) (hself : loadSelf d.credentials true = none)
      (hpeer : loadPeer d'.credentials true = loadPeer d.credentials true)
      (hkeychain : d'.keychain = d.keychain) (hpad : d'.pad = d.pad) : Change d d' a
  | padBorn (a : Act S) (hself : d.keychain.selfPk = none ∨ d.keychain.selfSk = none)
      (hcredentials : d'.credentials = d.credentials)
      (hpeer : d'.keychain.peerPk = d.keychain.peerPk) (hhost : d'.host = d.host) : Change d d' a
  | paired {e : Encounter S} {m : Meeting S Credentials} (hmeets : d.Meets e m)
      (hleaves : d.Leaves d' m) : Change d d' (.pair e)

/-- **One step** at which the reads work. -/
theorem change_of_reads {a : Act S} (ha : d.Reads a) : Change d (d.step a) a := by
  cases a with
  | host reads saves fresh =>
      obtain rfl : reads = true := ha
      cases hself : loadSelf d.credentials true with
      | some id =>
          have hstart := load_found d.credentials hself saves (stored fresh)
          refine .started _ ?_ rfl (.inr ⟨id, hself, ?_⟩) (.inl rfl)
          · simp only [step, stepHost, hstart]
          · simp only [step, stepHost, hstart]
      | none =>
          have hstart := load_created d.credentials hself saves (stored fresh)
          refine .hostBorn _ hself ?_ rfl rfl
          simp only [step, stepHost, hstart]
          exact loadPeer_saveSelf _ _ _ _
  | pad l =>
      obtain ⟨hreadPk, hreadSk⟩ := ha
      cases hpk : d.keychain.selfPk with
      | none =>
          refine .padBorn _ (.inl hpk) rfl ?_ rfl
          have hfinds : ¬ Finds d.keychain l := by simp [Client.KeychainStore.finds_iff, hpk]
          simp only [step, stepPad, Client.KeychainStore.load_created hfinds]
      | some pk =>
          cases hsk : d.keychain.selfSk with
          | none =>
              refine .padBorn _ (.inr hsk) rfl ?_ rfl
              have hfinds : ¬ Finds d.keychain l := by simp [Client.KeychainStore.finds_iff, hsk]
              simp only [step, stepPad, Client.KeychainStore.load_created hfinds]
          | some sk =>
              have hstart := Client.KeychainStore.load_found hpk hsk hreadPk hreadSk
              refine .started _ rfl ?_ (.inl rfl) (.inr ⟨pk, sk, hpk, hsk, ?_⟩)
              · simp only [step, stepPad, hstart]
              · simp only [step, stepPad, hstart]
  | pair e =>
      cases hm : d.meeting e with
      | none =>
          have hstay : d.step (.pair e) = d := by simp only [step, stepPair, hm]
          rw [hstay]
          exact .started _ rfl rfl (.inl rfl) (.inl rfl)
      | some m =>
          have hmeets := meets ha hm
          exact .paired hmeets (hmeets.leaves hm)

/-- **A pin stays.** -/
theorem Change.pin_stays {d' : Devices} {a : Act S} (h : Change d d' a) :
    (∀ pin, loadPeer d.credentials true = some pin → loadPeer d'.credentials true = some pin) ∧
      ∀ pin, d.keychain.peerPk = some pin → d'.keychain.peerPk = some pin := by
  cases h with
  | started _ hcredentials hkeychain _ _ =>
      rw [hcredentials, hkeychain]
      exact ⟨fun _ hpin => hpin, fun _ hpin => hpin⟩
  | hostBorn _ _ hpeer hkeychain _ =>
      rw [hpeer, hkeychain]
      exact ⟨fun _ hpin => hpin, fun _ hpin => hpin⟩
  | padBorn _ _ hcredentials hpeer _ =>
      rw [hcredentials, hpeer]
      exact ⟨fun _ hpin => hpin, fun _ hpin => hpin⟩
  | paired _ hleaves =>
      constructor
      · intro pin hpin
        rcases hleaves.host with hsame | ⟨hnone, -⟩
        · exact hsame.trans hpin
        · cases hnone.symm.trans hpin
      · intro pin hpin
        rcases hleaves.pad with hsame | ⟨hnone, -⟩
        · exact hsame.trans hpin
        · cases hnone.symm.trans hpin

/-! ## Friends -/

/-- What one has pinned is what the other has stored. -/
structure Trusting (d : Devices) : Prop where
  host : ∀ pin, loadPeer d.credentials true = some pin →
    d.keychain.selfPk = some pin.toList ∧ d.keychain.selfSk ≠ none
  pad : ∀ pin, d.keychain.peerPk = some pin →
    ∃ id, loadSelf d.credentials true = some id ∧ id.signPk.toList = pin

/-- New devices trust one another. -/
theorem trusting_new : Trusting {} := ⟨by rintro _ ⟨⟩, by rintro _ ⟨⟩⟩

/-- An identity is generated only where none is pinned, and a pairing pins what is stored. -/
theorem Trusting.step (h : d.Trusting) {a : Act S} (ha : d.Allowed a) : (d.step a).Trusting := by
  have hchange := change_of_reads ha.reads
  generalize d.step a = d' at hchange ⊢
  cases hchange with
  | started _ hcredentials hkeychain _ _ =>
      exact ⟨hcredentials ▸ hkeychain ▸ h.host, hcredentials ▸ hkeychain ▸ h.pad⟩
  | hostBorn _ hself hpeer hkeychain _ =>
      refine ⟨?_, fun pin hpin => ?_⟩
      · rw [hpeer, hkeychain]
        exact h.host
      · obtain ⟨id, hid, -⟩ := h.pad pin (hkeychain ▸ hpin)
        cases hself.symm.trans hid
  | padBorn _ hself hcredentials hpeer _ =>
      refine ⟨fun pin hpin => ?_, ?_⟩
      · obtain ⟨hpk, hsk⟩ := h.host pin (hcredentials ▸ hpin)
        rcases hself with hself | hself
        · cases hself.symm.trans hpk
        · exact absurd hself hsk
      · rw [hcredentials, hpeer]
        exact h.pad
  | paired hmeets hleaves =>
      obtain ⟨hhost, hpk, hsk⟩ := hmeets.ofStored ha.1
      constructor
      · rw [hleaves.selfPk, hleaves.selfSk]
        rcases hleaves.host with hsame | ⟨-, hlearned⟩
        · rw [hsame]
          exact h.host
        · intro pin hpin
          cases hlearned.symm.trans hpin
          refine ⟨hpk, ?_⟩
          rw [hsk]
          rintro ⟨⟩
      · rw [hleaves.self]
        rcases hleaves.pad with hsame | ⟨-, hlearned⟩
        · rw [hsame]
          exact h.pad
        · intro pin hpin
          cases hlearned.symm.trans hpin
          exact ⟨_, hhost, rfl⟩

/-- Two that trust one another, and pair as who their stores say they are, pair honestly. -/
theorem Trusting.honest (h : d.Trusting) (hstored : d.Stored) (hmeets : d.Meets e m)
    (hsaves : e.hostSaves = true) : m.Honest := by
  obtain ⟨hhost, hpk, -⟩ := hmeets.ofStored hstored
  refine ⟨?_, fun _ => ?_, ?_⟩
  · rw [hmeets.hostPin]
    cases hpin : loadPeer d.credentials true with
    | none => exact .inl rfl
    | some pin =>
        have hself := Option.some.inj ((h.host pin hpin).1.symm.trans hpk)
        exact .inr (congrArg some (List.Vector.toList_injective hself))
  · rw [hmeets.store, hsaves]
    rfl
  · rw [hmeets.pinned]
    cases hpin : d.keychain.peerPk with
    | none => exact .inl rfl
    | some pin =>
        obtain ⟨id, hid, rfl⟩ := h.pad pin hpin
        cases hhost.symm.trans hid
        exact .inr rfl

/-- **Two devices recognise one another across restarts.**  In every run of starts and pairings,
from new, in which every read works and the two pair as who their stores say they are, whatever
becomes of the writes and wherever a pairing is cut off: every pairing is an honest one, provided
that the host can save its pin; and what either has pinned, at any time, it has pinned ever
after. -/
theorem paired_across_restarts {acts : List (Act S)}
    (hrun : Runs.Admits step (fun d a => d.Allowed a) {} acts) :
    (∀ front e back m, acts = front ++ .pair e :: back → (after front).meeting e = some m →
        e.hostSaves = true → m.Honest) ∧
      ∀ front back, acts = front ++ back →
        (∀ pin, loadPeer (after front).credentials true = some pin →
          loadPeer (after acts).credentials true = some pin) ∧
        ∀ pin, (after front).keychain.peerPk = some pin →
          (after acts).keychain.peerPk = some pin := by
  constructor
  · rintro front e back m rfl hm hsaves
    have htrusting : (after front).Trusting := Runs.exec_invariant (P := Trusting)
      (fun _ _ h ha => h.step ha) trusting_new hrun.front
    have hallowed := Runs.admits_iff.mp hrun front (.pair e) back rfl
    exact htrusting.honest hallowed.1 (meets hallowed.reads hm) hsaves
  · rintro front back rfl
    have hlater : ∀ {d : Devices} {acts : List (Act S)},
        Runs.Admits step (fun d a => d.Allowed a) d acts →
          (∀ pin, loadPeer d.credentials true = some pin →
            loadPeer (Runs.exec step d acts).credentials true = some pin) ∧
          ∀ pin, d.keychain.peerPk = some pin →
            (Runs.exec step d acts).keychain.peerPk = some pin := by
      intro d acts hadmits
      constructor
      · intro pin hpin
        exact Runs.exec_invariant
          (P := fun d : Devices => loadPeer d.credentials true = some pin)
          (fun _ _ h ha => (change_of_reads ha.reads).pin_stays.1 pin h) hpin hadmits
      · intro pin hpin
        exact Runs.exec_invariant (P := fun d : Devices => d.keychain.peerPk = some pin)
          (fun _ _ h ha => (change_of_reads ha.reads).pin_stays.2 pin h) hpin hadmits
    have hsplit : after (front ++ back) = Runs.exec step (after front) back :=
      Runs.exec_append _ _ _ _
    rw [hsplit]
    exact hlater hrun.back

/-- The identity of a seed. -/
def paperIdentity (n : ℕ) : Identity Sodium.paper :=
  .ofSecret Sodium.paper (Sodium.arrOf 64 (n * 2 ^ 256))

/-- A pairing that nothing disturbs. -/
def paperEncounter (n : ℕ) : Encounter Sodium.paper where
  hostEph := .ofSecret Sodium.paper (Sodium.arrOf 32 n)
  hostHeader := .replicate headerBytes 6
  padEph := .ofSecret Sodium.paper (Sodium.arrOf 32 (n + 1))
  padHeader := .replicate headerBytes 8
  schedule := [.toLeft 99, .toRight 99, .toLeft 99, .toRight 99]

/-- The host's program is closed in the first pairing and started again. -/
theorem paired_across_restarts_twice :
    let front : List (Act Sodium.paper) :=
      [.host true true (paperIdentity 5), .pad { fresh := paperIdentity 7 },
        .pair { paperEncounter 3 with schedule := [.toLeft 99] },
        .pair (paperEncounter 3), .host true true (paperIdentity 9)]
    ∃ m, (after front).meeting (paperEncounter 11) = some m ∧ m.Honest ∧
      m.pinned = some (paperIdentity 5).signPk.toList := by
  intro front
  have hrun : Runs.Admits step (fun d a => d.Allowed a) {}
      (front ++ [.pair (paperEncounter 11)]) := by decide +kernel
  have hmeeting : ((after front).meeting (paperEncounter 11)).map Meeting.pinned =
      some (some (paperIdentity 5).signPk.toList) := by decide +kernel
  obtain ⟨m, hm, hpinned⟩ := Option.map_eq_some_iff.mp hmeeting
  obtain ⟨hhonest, -⟩ := paired_across_restarts hrun
  exact ⟨m, hm, hhonest front _ [] m rfl hm rfl, hpinned⟩

/-! ## Strangers -/

/-- One has pinned what the other no longer is; and the other goes by what it has stored. -/
def Estranged (d : Devices) : Prop :=
  (∃ id pin, d.host = some id ∧ loadSelf d.credentials true = some id ∧
      d.keychain.peerPk = some pin ∧ pin ≠ id.signPk.toList) ∨
    ∃ id pin, d.pad = some id ∧ d.keychain.selfPk = some id.signPublicKey ∧
      d.keychain.selfSk = some id.signSecretKey ∧ loadPeer d.credentials true = some pin ∧
      id.signPublicKey ≠ pin.toList

/-- **Strangers stay strangers**: the pin stays, and so does what the one with the new identity
has stored and goes by. -/
theorem Estranged.change {d' : Devices} {a : Act S} (h : d.Estranged) (hchange : Change d d' a) :
    d'.Estranged := by
  obtain ⟨hhostPin, hpadPin⟩ := hchange.pin_stays
  rcases h with ⟨id, pin, hme, hid, hpin, hne⟩ | ⟨id, pin, hme, hpk, hsk, hpin, hne⟩
  · suffices hself : d'.host = some id ∧ loadSelf d'.credentials true = some id from
      .inl ⟨id, pin, hself.1, hself.2, hpadPin pin hpin, hne⟩
    cases hchange with
    | started _ hcredentials _ hhost _ =>
        refine ⟨?_, by rwa [hcredentials]⟩
        rcases hhost with hsame | ⟨id', hid', hme'⟩
        · exact hsame.trans hme
        · exact hme'.trans (hid'.symm.trans hid)
    | hostBorn _ hself _ _ _ => cases hself.symm.trans hid
    | padBorn _ _ hcredentials _ hhost => exact ⟨hhost.trans hme, by rwa [hcredentials]⟩
    | paired _ hleaves => exact ⟨hleaves.goesBy.1.trans hme, hleaves.self.trans hid⟩
  · suffices hself : d'.pad = some id ∧ d'.keychain.selfPk = some id.signPublicKey ∧
        d'.keychain.selfSk = some id.signSecretKey from
      .inr ⟨id, pin, hself.1, hself.2.1, hself.2.2, hhostPin pin hpin, hne⟩
    cases hchange with
    | started _ _ hkeychain _ hpad =>
        refine ⟨?_, hkeychain ▸ ⟨hpk, hsk⟩⟩
        rcases hpad with hsame | ⟨pk, sk, hpk', hsk', hme'⟩
        · exact hsame.trans hme
        · cases hpk'.symm.trans hpk
          cases hsk'.symm.trans hsk
          exact hme'
    | hostBorn _ _ _ hkeychain hpad => exact ⟨hpad.trans hme, hkeychain ▸ ⟨hpk, hsk⟩⟩
    | padBorn _ hself _ _ _ =>
        rcases hself with hself | hself
        · cases hself.symm.trans hpk
        · cases hself.symm.trans hsk
    | paired _ hleaves =>
        exact ⟨hleaves.goesBy.2.trans hme, hleaves.selfPk.trans hpk, hleaves.selfSk.trans hsk⟩

/-- A start at which an identity is not found and another is saved, which the other device has
not pinned. -/
def Loses (d : Devices) : Act S → Prop
  | .host reads saves fresh => loadSelf d.credentials reads = none ∧ saves = true ∧
      ∃ pin ∈ d.keychain.peerPk, pin ≠ fresh.signPk.toList
  | .pad l => ¬ Finds d.keychain l ∧ Lands d.keychain.selfPk l.savePk ∧
      Lands d.keychain.selfSk l.saveSk ∧
      ∃ pin ∈ loadPeer d.credentials true, l.fresh.signPk.toList ≠ pin.toList
  | .pair _ => False

instance (d : Devices) : DecidablePred (d.Loses (S := S))
  | .host _ _ _ => inferInstanceAs (Decidable (_ ∧ _ ∧ ∃ pin ∈ _, _))
  | .pad _ => inferInstanceAs (Decidable (_ ∧ _ ∧ _ ∧ ∃ pin ∈ _, _))
  | .pair _ => inferInstanceAs (Decidable False)

/-- A device that loses its identity becomes a stranger. -/
theorem estranged_of_loses {a : Act S} (h : d.Loses a) : (d.step a).Estranged := by
  cases a with
  | host reads saves fresh =>
      obtain ⟨hself, rfl, pin, hpin, hne⟩ := h
      have hstart := load_created d.credentials hself true (stored fresh)
      refine .inl ⟨stored fresh, pin, ?_, ?_, hpin, hne⟩
      · simp only [step, stepHost, hstart]
      · simp only [step, stepHost, hstart]
        exact loadSelf_saveSelf _ _
  | pad l =>
      obtain ⟨hfinds, hpk, hsk, pin, hpin, hne⟩ := h
      have hstart := Client.KeychainStore.load_created hfinds
      refine .inr ⟨DeviceIdentity.generate l.fresh, pin, ?_, ?_, ?_, hpin, hne⟩
      · simp only [step, stepPad, hstart]
      · simp only [step, stepPad, hstart, if_pos hpk]
        rfl
      · simp only [step, stepPad, hstart, if_pos hsk]
        rfl
  | pair e => exact h.elim

/-- Strangers do not pair. -/
theorem Estranged.unpaired (h : d.Estranged) (hmeets : d.Meets e m) :
    (m.establish (talk m e).left).result ≠ .ok ∨
      ∀ learned, (talk m e).right.completion ≠ some (.ok, learned) := by
  rcases h with ⟨id, pin, hme, -, hpin, hne⟩ | ⟨id, pin, hme, -, -, hpin, hne⟩
  · refine .inr fun learned hcompletion => ?_
    obtain ⟨hpinned, -⟩ := Meeting.pad_meets hmeets.opened.2 hcompletion
    rw [hmeets.pinned, hpin] at hpinned
    cases hmeets.host.symm.trans hme
    exact hne (Option.some.inj (hpinned.resolve_left (by rintro ⟨⟩)))
  · refine .inl fun hresult => ?_
    rcases Meeting.host_meets hmeets.opened.1 with ⟨hfailed, -⟩ | ⟨hpinned, -, -⟩
    · exact hfailed hresult
    · rw [hmeets.hostPin, hpin] at hpinned
      have hpeer := Option.some.inj (hpinned.resolve_left (by rintro ⟨⟩))
      cases hmeets.pad.symm.trans hme
      rw [hpeer] at hne
      exact hne rfl

/-- **An identity is lost for good.**  From any state: after a start at which an identity that the
other device has pinned is not found, and another is saved in its place, no pairing of two
identities ends well on both sides ever after, however often the two are started and meet, as long
as the reads work.  It makes no difference whether either goes by what it has stored. -/
theorem identity_lost {a : Act S} (hloses : d.Loses a) {later : List (Act S)}
    (hlater : Runs.Admits step (fun d a => d.Reads a) (d.step a) later) :
    ∀ front e back m, later = front ++ .pair e :: back →
      (Runs.exec step (d.step a) front).meeting e = some m →
        (m.establish (talk m e).left).result ≠ .ok ∨
          ∀ learned, (talk m e).right.completion ≠ some (.ok, learned) := by
  rintro front e back m rfl hm
  have hestranged : (Runs.exec step (d.step a) front).Estranged :=
    Runs.exec_invariant (P := Estranged) (fun _ _ h ha => h.change (change_of_reads ha))
      (estranged_of_loses hloses) hlater.front
  have hreads := Runs.admits_iff.mp hlater front (.pair e) back rfl
  exact hestranged.unpaired (meets hreads hm)

/-- One read of the Credential Manager fails, at the start after a good pairing. -/
theorem identity_lost_once :
    let paired := after [.host true true (paperIdentity 5), .pad { fresh := paperIdentity 7 },
      .pair (paperEncounter 3)]
    let lost := paired.step (.host false true (paperIdentity 9))
    ∃ m, (lost.step (.pair (paperEncounter 11))).meeting (paperEncounter 13) = some m ∧
      ((m.establish (talk m (paperEncounter 13)).left).result ≠ .ok ∨
        ∀ learned, (talk m (paperEncounter 13)).right.completion ≠ some (.ok, learned)) := by
  intro paired lost
  have hloses : paired.Loses (.host false true (paperIdentity 9)) := by decide +kernel
  have hlater : Runs.Admits step (fun d a => d.Reads a) lost
      [.pair (paperEncounter 11), .pair (paperEncounter 13)] := by decide +kernel
  have hmeeting : ((lost.step (.pair (paperEncounter 11))).meeting (paperEncounter 13)).isSome := by
    decide +kernel
  obtain ⟨m, hm⟩ := Option.isSome_iff_exists.mp hmeeting
  exact ⟨m, hm, identity_lost hloses hlater [.pair (paperEncounter 11)] (paperEncounter 13) [] m
    rfl hm⟩

end Devices

end TetherDisplay.Streaming
