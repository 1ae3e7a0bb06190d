import TetherDisplay.Client.Pairing
import TetherDisplay.Foundations.Runs

/-!
# What the iPad pins

One video session accepts connection after connection and does not wait for the handshake of
one to end before it accepts the next.  `accept` reads the pinned identity for the new
connection, and the completion of its handshake, a task of its own on the main queue, writes
it.  `Pairings` runs any number of connections through any interleaving of the two, with
whatever the connections deliver and however the Keychain answers.

The check and the write are apart, and nothing looks at the Keychain in between.  Two hosts
that are both accepted while nothing is pinned are both taken, and the second replaces the
first.  Nor does anyone look at what has become of the write.  So the pin holds as long as
the run is `Undisputed`: a connection that pins its host finds nothing pinned and succeeds,
or finds this host (`pin_holds_iff`).
-/

namespace TetherDisplay.Client

open Crypto (Sodium ByteArr headerBytes Identity KxKeypair)

/-! ## The Keychain -/

namespace KeychainStore

/-- What `SecItemAdd` answers. -/
inductive OSStatus where
  | success
  | duplicateItem
  | failure
  deriving DecidableEq, Repr

/-- Whether the calls of a `write` do what they are for. -/
structure WriteOutcome where
  add : Bool := true
  update : Bool := true
  deriving DecidableEq, Repr

/-- The item of an account is added if there is none. -/
def secItemAdd (item : Option Bytes) (data : Bytes) (works : Bool) :
    OSStatus × Option Bytes :=
  if works then
    match item with
    | none => (.success, some data)
    | some _ => (.duplicateItem, item)
  else (.failure, item)

/-- `SecItemUpdate`. -/
def secItemUpdate (item : Option Bytes) (data : Bytes) (works : Bool) : Option Bytes :=
  if works then item.map fun _ => data else item

/-- `SecItemCopyMatching`, which finds the item or reports an error. -/
def read (item : Option Bytes) (works : Bool) : Option Bytes := if works then item else none

/-- `write`: add, and update what is there already. -/
def write (item : Option Bytes) (value : Bytes) (outcome : WriteOutcome) : Option Bytes :=
  let (status, item) := secItemAdd item value outcome.add
  if status = .duplicateItem then secItemUpdate item value outcome.update else item

/-- Of the account `peer_pk`. -/
def loadPinnedPeer (peerPk : Option Bytes) (works : Bool) : Option Bytes := read peerPk works

/-- `savePinnedPeer`. -/
def savePinnedPeer (peerPk : Option Bytes) (pk : Bytes) (outcome : WriteOutcome) :
    Option Bytes :=
  write peerPk pk outcome

/-- **When a write stores its value and replaces no other.** -/
theorem savePinnedPeer_iff (peerPk : Option Bytes) (pk : Bytes) (outcome : WriteOutcome) :
    (savePinnedPeer peerPk pk outcome = some pk ∧
        ∀ pin, peerPk = some pin → savePinnedPeer peerPk pk outcome = some pin) ↔
      (peerPk = some pk ∨ peerPk = none ∧ outcome.add = true) := by
  unfold savePinnedPeer write secItemAdd secItemUpdate
  cases peerPk with
  | none => cases outcome.add <;> simp
  | some pin =>
      simp only [Option.some.injEq, reduceCtorEq, false_and, or_false, forall_eq']
      constructor
      · rintro ⟨hstored, hkept⟩
        exact Option.some.inj (hkept.symm.trans hstored)
      · rintro rfl
        cases outcome.add <;> cases outcome.update <;> simp

end KeychainStore

open KeychainStore

/-! ## The session and its connections -/

variable (S : Sodium)

/-- A connection that has been accepted: whether the task of its completion has run, and
whether it has made the session say "Paired + encrypted". -/
structure Connection where
  handshake : Handshake S
  settled : Bool := false
  paired : Bool := false

/-- The session, the Keychain item it keeps its peer in, the connections in the order in
which they were accepted, and what has been in the Keychain. -/
structure Pairings where
  session : VideoSession := {}
  peerPk : Option Bytes := none
  connections : List (Connection S) := []
  pins : List Bytes := []

namespace Pairings

/-- What the main queue runs next.  `complete` is the task that a completion makes; the
plaintext and the end of a connection are whatever they may be. -/
inductive Act where
  | accept (eph : KxKeypair S) (header : ByteArr headerBytes) (readWorks : Bool)
  | receive (conn : ConnectionId) (d : Delivery)
  | complete (conn : ConnectionId) (outcome : WriteOutcome)
  | plaintext (data : Bytes)
  | closed

variable {S}

/-- What the Keychain makes of an effect. -/
def keep (outcome : WriteOutcome) (peerPk : Option Bytes) : Effect → Option Bytes
  | .savePinnedPeer pk => savePinnedPeer peerPk pk outcome
  | _ => peerPk

/-- The task of the completion of a connection. -/
def settle (s : Pairings S) (conn : ConnectionId) (c : Connection S) (result : PairingResult)
    (learnedPeer : Option Bytes) (outcome : WriteOutcome) : Pairings S :=
  let r := s.session.established conn result learnedPeer
  let peerPk := r.1.foldl (keep outcome) s.peerPk
  { session := r.2
    peerPk
    connections := s.connections.set conn
      { c with settled := true, paired := r.2.status = .pairedAndEncrypted }
    pins := peerPk.toList ++ s.pins }

/-- A handshake that is over is told to the session, once. -/
def complete (s : Pairings S) (conn : ConnectionId) (outcome : WriteOutcome) : Pairings S :=
  match s.connections[conn]? with
  | none => s
  | some c =>
      match c.settled, c.handshake.completion with
      | false, some (result, learnedPeer) => s.settle conn c result learnedPeer outcome
      | _, _ => s

/-- The socket of a connection delivers. -/
def receive (s : Pairings S) (conn : ConnectionId) (d : Delivery) : Pairings S :=
  match s.connections[conn]? with
  | none => s
  | some c =>
      { s with
        connections := s.connections.set conn { c with handshake := c.handshake.onReceive d } }

/-- One step. -/
def step (me : Identity S) (s : Pairings S) : Act S → Pairings S
  | .accept eph header readWorks =>
      { s with
        session := s.session.accept s.connections.length
        connections := s.connections ++
          [⟨Handshake.establish me eph header (loadPinnedPeer s.peerPk readWorks), false, false⟩] }
  | .receive conn d => s.receive conn d
  | .complete conn outcome => s.complete conn outcome
  | .plaintext data => { s with session := (s.session.process data).session }
  | .closed => { s with session := s.session.closed }

/-- A session that starts with what an earlier one has pinned, if anything. -/
def start (peerPk : Option Bytes) : Pairings S := { peerPk, pins := peerPk.toList }

/-- The app after a run, with what was pinned before. -/
def after (me : Identity S) (peerPk : Option Bytes) (acts : List (Act S)) : Pairings S :=
  Runs.exec (step me) (start peerPk) acts

/-- **The pin**, what `loadPinnedPeer` finds.  It is the host of every connection that has been
paired, and it is what it has been ever since there was one. -/
def Pinned (s : Pairings S) : Prop :=
  (∀ c ∈ s.connections, c.paired = true → s.peerPk = c.handshake.authenticated) ∧
    ∀ pin ∈ s.pins, s.peerPk = some pin

instance (s : Pairings S) : Decidable s.Pinned :=
  inferInstanceAs (Decidable ((∀ c ∈ s.connections, _ → _) ∧ ∀ pin ∈ s.pins, _))

/-- A connection that pins its host finds nothing pinned and succeeds, or finds this host. -/
def Undisputed (s : Pairings S) : Act S → Prop
  | .complete conn outcome =>
      ∀ c, s.connections[conn]? = some c → c.settled = false →
        ∀ pk, c.handshake.completion = some (.ok, some pk) →
          s.peerPk = some pk ∨ s.peerPk = none ∧ outcome.add = true
  | _ => True

/-! ### What a step does -/

/-- The status tells the result. -/
theorem status_established (session : VideoSession) (conn : ConnectionId)
    (result : PairingResult) (learnedPeer : Option Bytes) :
    (session.established conn result learnedPeer).2.status = .pairedAndEncrypted ↔
      result = .ok := by
  unfold VideoSession.established
  by_cases hresult : result = .ok
  · rw [if_neg (not_not.mpr hresult)]
    exact iff_of_true rfl hresult
  · rw [if_pos hresult]
    exact iff_of_false (by rintro ⟨⟩) hresult

/-- Of what a completion asks for, saving the peer is all that the Keychain sees. -/
theorem keep_established (session : VideoSession) (conn : ConnectionId)
    (result : PairingResult) (learnedPeer : Option Bytes) (outcome : WriteOutcome)
    (peerPk : Option Bytes) :
    (session.established conn result learnedPeer).1.foldl (keep outcome) peerPk =
      if result = .ok then
        learnedPeer.elim peerPk fun pk => savePinnedPeer peerPk pk outcome
      else peerPk := by
  have hsends : ∀ (msg : Message) (item : Option Bytes),
      (session.send msg).foldl (keep outcome) item = item := by
    intro msg item
    unfold VideoSession.send
    split <;> rfl
  unfold VideoSession.established
  by_cases hresult : result = .ok
  · rw [if_neg (not_not.mpr hresult), if_pos hresult, List.foldl_append, List.foldl_append,
      hsends, hsends]
    cases learnedPeer <;> rfl
  · rw [if_pos hresult, if_neg hresult]
    rfl

/-- What is pinned after a completion. -/
theorem peerPk_settle (s : Pairings S) (conn : ConnectionId) (c : Connection S)
    (result : PairingResult) (learnedPeer : Option Bytes) (outcome : WriteOutcome) :
    (s.settle conn c result learnedPeer outcome).peerPk =
      if result = .ok then
        learnedPeer.elim s.peerPk fun pk => savePinnedPeer s.peerPk pk outcome
      else s.peerPk :=
  keep_established s.session conn result learnedPeer outcome s.peerPk

theorem connections_settle (s : Pairings S) (conn : ConnectionId) (c : Connection S)
    (result : PairingResult) (learnedPeer : Option Bytes) (outcome : WriteOutcome) :
    (s.settle conn c result learnedPeer outcome).connections =
      s.connections.set conn { c with settled := true, paired := decide (result = .ok) } := by
  have hpaired : decide ((s.session.established conn result learnedPeer).2.status =
      .pairedAndEncrypted) = decide (result = .ok) :=
    decide_eq_decide.mpr (status_established s.session conn result learnedPeer)
  rw [← hpaired]
  rfl

/-- What a delivery does. -/
theorem receive_cases (s : Pairings S) (conn : ConnectionId) (d : Delivery) :
    s.receive conn d = s ∨ ∃ c, s.connections[conn]? = some c ∧
      s.receive conn d =
        { s with
          connections := s.connections.set conn
            { c with handshake := c.handshake.onReceive d } } := by
  unfold receive
  cases hget : s.connections[conn]? with
  | none => exact Or.inl rfl
  | some c => exact Or.inr ⟨c, rfl, rfl⟩

/-- What a completion does. -/
theorem complete_cases (s : Pairings S) (conn : ConnectionId) (outcome : WriteOutcome) :
    s.complete conn outcome = s ∨ ∃ c result learnedPeer,
      s.connections[conn]? = some c ∧ c.settled = false ∧
        c.handshake.completion = some (result, learnedPeer) ∧
        s.complete conn outcome = s.settle conn c result learnedPeer outcome := by
  unfold complete
  cases hget : s.connections[conn]? with
  | none => exact Or.inl rfl
  | some c =>
      simp only
      split
      · exact Or.inr ⟨c, _, _, rfl, ‹_›, ‹_›, rfl⟩
      · exact Or.inl rfl

/-! ### The invariant -/

/-- What holds of a connection, `pins` being what has been in the Keychain: it has been given
one of these or nothing, and if it is paired its handshake has completed. -/
structure Joined (pins : List Bytes) (c : Connection S) : Prop where
  sound : c.handshake.Sound
  given : ∀ pin, c.handshake.pinned = some pin → pin ∈ pins
  paired : c.paired = true → ∃ learnedPeer, c.handshake.completion = some (.ok, learnedPeer)

/-- More pins may have been there. -/
theorem Joined.mono {pins pins' : List Bytes} {c : Connection S} (h : Joined pins c)
    (hpins : pins ⊆ pins') : Joined pins' c :=
  { h with given := fun pin hpin => hpins (h.given pin hpin) }

/-- A connection that is accepted is given what is pinned, or nothing. -/
theorem joined_establish (me : Identity S) (eph : KxKeypair S) (header : ByteArr headerBytes)
    {peerPk : Option Bytes} {pins : List Bytes} (hpinned : ∀ pin, peerPk = some pin → pin ∈ pins)
    (readWorks : Bool) :
    Joined pins
      ⟨Handshake.establish me eph header (loadPinnedPeer peerPk readWorks), false, false⟩ where
  sound := Handshake.sound_establish me eph header _
  given pin hpin := by
    have hread : (if readWorks then peerPk else none) = some pin := hpin
    split at hread
    · exact hpinned pin hread
    · cases hread
  paired hpaired := by cases hpaired

/-- A delivery leaves the handshake of a paired connection alone. -/
theorem Joined.onReceive_of_paired {pins : List Bytes} {c : Connection S} (h : Joined pins c)
    (hpaired : c.paired = true) (d : Delivery) : c.handshake.onReceive d = c.handshake := by
  obtain ⟨learnedPeer, hcompletion⟩ := h.paired hpaired
  refine h.sound.onReceive_of_completion ?_ d
  rw [hcompletion]
  exact Option.some_ne_none _

/-- A delivery keeps a connection joined. -/
theorem Joined.onReceive {pins : List Bytes} {c : Connection S} (h : Joined pins c)
    (d : Delivery) : Joined pins { c with handshake := c.handshake.onReceive d } where
  sound := h.sound.onReceive d
  given pin hpin := h.given pin ((c.handshake.pinned_onReceive d).symm.trans hpin)
  paired hpaired := by
    rw [h.onReceive_of_paired hpaired d]
    exact h.paired hpaired

/-- A completion keeps a connection joined. -/
theorem Joined.settled {pins : List Bytes} {c : Connection S} (h : Joined pins c)
    {result : PairingResult} {learnedPeer : Option Bytes}
    (hcompletion : c.handshake.completion = some (result, learnedPeer)) :
    Joined pins { c with settled := true, paired := decide (result = .ok) } where
  sound := h.sound
  given := h.given
  paired hpaired := by
    obtain rfl : result = .ok := of_decide_eq_true hpaired
    exact ⟨learnedPeer, hcompletion⟩

/-- A paired connection has authenticated its host. -/
theorem Joined.authenticated {pins : List Bytes} {c : Connection S} (h : Joined pins c)
    (hpaired : c.paired = true) :
    c.handshake.authenticated = some c.handshake.pairing.peerIdent := by
  obtain ⟨learnedPeer, hcompletion⟩ := h.paired hpaired
  exact (h.sound.ok learnedPeer hcompletion).1.1

/-- **The invariant** of any run. -/
structure Sound (s : Pairings S) : Prop where
  pinned : ∀ pin, s.peerPk = some pin → pin ∈ s.pins
  joined : ∀ c ∈ s.connections, Joined s.pins c

theorem sound_start (peerPk : Option Bytes) : (start peerPk : Pairings S).Sound where
  pinned pin hpin := by
    rw [show peerPk = some pin from hpin]
    exact List.mem_singleton_self pin
  joined := List.forall_mem_nil _

/-- A property of all connections, one of which is replaced. -/
theorem forall_mem_set {P : Connection S → Prop} {connections : List (Connection S)}
    (h : ∀ c ∈ connections, P c) {c' : Connection S} (hc' : P c') (conn : ConnectionId) :
    ∀ c ∈ connections.set conn c', P c := by
  intro c hc
  rcases List.mem_or_eq_of_mem_set hc with hc | rfl
  · exact h c hc
  · exact hc'

/-- A completion keeps it. -/
theorem Sound.settle {s : Pairings S} (hsound : s.Sound) {conn : ConnectionId}
    {c : Connection S} (hc : c ∈ s.connections) {result : PairingResult}
    {learnedPeer : Option Bytes} (hcompletion : c.handshake.completion = some (result, learnedPeer))
    (outcome : WriteOutcome) : (s.settle conn c result learnedPeer outcome).Sound where
  pinned pin hpin := List.mem_append_left _ (Option.mem_toList.mpr hpin)
  joined := by
    rw [connections_settle]
    have hjoined := forall_mem_set hsound.joined ((hsound.joined c hc).settled hcompletion) conn
    intro c' hc'
    exact (hjoined c' hc').mono (List.subset_append_right _ _)

/-- **One step keeps the invariant**, whatever it is. -/
theorem Sound.step {s : Pairings S} (hsound : s.Sound) (me : Identity S) (act : Act S) :
    (s.step me act).Sound := by
  cases act with
  | accept eph header readWorks =>
      have hnew := joined_establish me eph header hsound.pinned readWorks
      exact ⟨hsound.pinned,
        List.forall_mem_append.mpr ⟨hsound.joined, List.forall_mem_singleton.mpr hnew⟩⟩
  | receive conn d =>
      rcases s.receive_cases conn d with hstep | ⟨c, hget, hstep⟩
      · rwa [Pairings.step, hstep]
      · rw [Pairings.step, hstep]
        have hc := hsound.joined c (List.mem_of_getElem? hget)
        exact ⟨hsound.pinned, forall_mem_set hsound.joined (hc.onReceive d) conn⟩
  | complete conn outcome =>
      rcases s.complete_cases conn outcome with hstep | ⟨c, result, learnedPeer, hget, -,
        hcompletion, hstep⟩
      · rwa [Pairings.step, hstep]
      · rw [Pairings.step, hstep]
        exact hsound.settle (List.mem_of_getElem? hget) hcompletion outcome
  | plaintext data => exact ⟨hsound.pinned, hsound.joined⟩
  | closed => exact ⟨hsound.pinned, hsound.joined⟩

/-! ### When the pin holds -/

/-- What a completion has to do with the pin: it is kept, and is the host of a connection
that is paired. -/
theorem Pinned.settle {s : Pairings S} (hsound : s.Sound) (hpinned : s.Pinned)
    {conn : ConnectionId} {c : Connection S} (hc : c ∈ s.connections) {result : PairingResult}
    {learnedPeer : Option Bytes} (hcompletion : c.handshake.completion = some (result, learnedPeer))
    {outcome : WriteOutcome}
    (hundisputed : ∀ pk, result = .ok → learnedPeer = some pk →
      s.peerPk = some pk ∨ s.peerPk = none ∧ outcome.add = true) :
    (s.settle conn c result learnedPeer outcome).Pinned := by
  have hpeerPk := s.peerPk_settle conn c result learnedPeer outcome
  have hjoined := hsound.joined c hc
  have hsaved : ∀ pk, result = .ok → learnedPeer = some pk →
      (s.settle conn c result learnedPeer outcome).peerPk = some pk ∧
        ∀ pin, s.peerPk = some pin →
          (s.settle conn c result learnedPeer outcome).peerPk = some pin := by
    rintro pk rfl rfl
    rw [show (s.settle conn c .ok (some pk) outcome).peerPk =
      savePinnedPeer s.peerPk pk outcome from hpeerPk]
    exact (savePinnedPeer_iff s.peerPk pk outcome).mpr (hundisputed pk rfl rfl)
  have hkept : ∀ pin, s.peerPk = some pin →
      (s.settle conn c result learnedPeer outcome).peerPk = some pin := by
    intro pin hpin
    by_cases hresult : result = .ok
    · cases hlearned : learnedPeer with
      | none =>
          subst hlearned
          rw [hpeerPk, if_pos hresult]
          exact hpin
      | some pk =>
          rw [← hlearned]
          exact (hsaved pk hresult hlearned).2 pin hpin
    · rw [hpeerPk, if_neg hresult, hpin]
  constructor
  · rw [connections_settle]
    refine forall_mem_set (fun c' hc' hpaired => ?_) (fun hpaired => ?_) conn
    · -- the host of an earlier connection stays
      have hauthenticated := (hsound.joined c' hc').authenticated hpaired
      rw [hauthenticated]
      exact hkept _ ((hpinned.1 c' hc' hpaired).trans hauthenticated)
    · obtain rfl : result = .ok := of_decide_eq_true hpaired
      obtain ⟨⟨hauthenticated, htrust⟩, hlearned⟩ := hjoined.sound.ok learnedPeer hcompletion
      rw [hauthenticated]
      rcases htrust with hfirst | hknown
      · -- first use
        refine (hsaved _ rfl ?_).1
        rw [hlearned, Handshake.learned, if_pos hfirst]
      · exact hkept _ (hpinned.2 _ (hjoined.given _ hknown))
  · intro pin hpin
    rcases List.mem_append.mp hpin with hpin | hpin
    · exact Option.mem_toList.mp hpin
    · exact hkept pin (hpinned.2 pin hpin)

/-- **One step keeps the pin** when nobody disputes it. -/
theorem Pinned.step {s : Pairings S} (hsound : s.Sound) (hpinned : s.Pinned)
    {me : Identity S} {act : Act S} (hundisputed : s.Undisputed act) :
    (s.step me act).Pinned := by
  cases act with
  | accept eph header readWorks =>
      refine ⟨List.forall_mem_append.mpr ⟨hpinned.1, List.forall_mem_singleton.mpr ?_⟩, hpinned.2⟩
      exact fun hpaired => by cases hpaired
  | receive conn d =>
      rcases s.receive_cases conn d with hstep | ⟨c, hget, hstep⟩
      · rwa [Pairings.step, hstep]
      · rw [Pairings.step, hstep]
        have hc := List.mem_of_getElem? hget
        refine ⟨forall_mem_set hpinned.1 (fun hpaired => ?_) conn, hpinned.2⟩
        rw [(hsound.joined c hc).onReceive_of_paired hpaired d]
        exact hpinned.1 c hc hpaired
  | complete conn outcome =>
      rcases s.complete_cases conn outcome with hstep | ⟨c, result, learnedPeer, hget, hsettled,
        hcompletion, hstep⟩
      · rwa [Pairings.step, hstep]
      · rw [Pairings.step, hstep]
        refine hpinned.settle hsound (List.mem_of_getElem? hget) hcompletion ?_
        rintro pk rfl rfl
        exact hundisputed c hget hsettled pk hcompletion
  | plaintext data => exact hpinned
  | closed => exact hpinned

/-- A step after which the pin holds was not disputed. -/
theorem undisputed_of_pinned {s : Pairings S} (hsound : s.Sound) {me : Identity S}
    {act : Act S} (hpinned : (s.step me act).Pinned) : s.Undisputed act := by
  cases act with
  | complete conn outcome =>
      intro c hget hsettled pk hcompletion
      have hstep : s.step me (.complete conn outcome) = s.settle conn c .ok (some pk) outcome := by
        show s.complete conn outcome = _
        unfold Pairings.complete
        simp only [hget, hsettled, hcompletion]
      rw [hstep] at hpinned
      have hpeerPk : (s.settle conn c .ok (some pk) outcome).peerPk =
          savePinnedPeer s.peerPk pk outcome := s.peerPk_settle conn c .ok (some pk) outcome
      have hconnections := s.connections_settle conn c .ok (some pk) outcome
      obtain ⟨⟨hauthenticated, -⟩, hlearned⟩ :=
        (hsound.joined c (List.mem_of_getElem? hget)).sound.ok (some pk) hcompletion
      have hident : c.handshake.authenticated = some pk := by
        rw [hauthenticated]
        unfold Handshake.learned at hlearned
        split at hlearned
        · exact hlearned.symm
        · cases hlearned
      refine (savePinnedPeer_iff s.peerPk pk outcome).mp ⟨?_, fun pin hpin => ?_⟩
      · have hc : { c with settled := true, paired := true } ∈
            (s.settle conn c .ok (some pk) outcome).connections := by
          rw [hconnections]
          exact List.mem_set (List.getElem?_eq_some_iff.mp hget).1 _
        rw [← hpeerPk, hpinned.1 _ hc rfl]
        exact hident
      · rw [← hpeerPk]
        exact hpinned.2 pin (List.mem_append_right _ (hsound.pinned pin hpin))
  | _ => trivial

/-- **When the pin holds.**  In every state of a run the pin is the host of every connection
that has been paired, and has never been replaced, exactly when no step of the run disputes
it. -/
theorem pin_holds_iff (me : Identity S) (peerPk : Option Bytes) (acts : List (Act S)) :
    (∀ front back, acts = front ++ back → (after me peerPk front).Pinned) ↔
      Runs.Admits (step me) Undisputed (start peerPk) acts := by
  constructor
  · intro hpinned
    have hstep : ∀ (s : Pairings S) (act : Act S), s.Sound → (s.step me act).Sound :=
      fun _ act hsound => hsound.step me act
    exact Runs.admits_of_states (fun _ _ hsound h => undisputed_of_pinned hsound h) hstep
      (sound_start peerPk) hpinned
  · rintro hadmits front back rfl
    have hstep : ∀ (s : Pairings S) (act : Act S), s.Sound ∧ s.Pinned → s.Undisputed act →
        (s.step me act).Sound ∧ (s.step me act).Pinned :=
      fun _ act h hundisputed => ⟨h.1.step me act, h.2.step h.1 hundisputed⟩
    have hstart : (start peerPk : Pairings S).Pinned :=
      ⟨List.forall_mem_nil _, fun pin hpin => Option.mem_toList.mp hpin⟩
    exact (Runs.exec_invariant hstep ⟨sound_start peerPk, hstart⟩ hadmits.front).2

/-- Two hosts connect before anything is pinned.  The first is paired and pinned, and when
the handshake of the second ends, it is paired too and takes the place of the first. -/
theorem host_replaced :
    let me := Identity.ofSecret Sodium.paper (Sodium.arrOf 64 (5 * 2 ^ 256))
    let eph (n : ℕ) := KxKeypair.ofSecret Sodium.paper (Sodium.arrOf 32 n)
    let host (sk n peer : ℕ) : Crypto.Pairing Sodium.paper :=
      ⟨Identity.ofSecret Sodium.paper (Sodium.arrOf 64 (sk * 2 ^ 256)), .server, eph n,
        (eph peer).pk, me.signPk, true, true⟩
    let said (p : Crypto.Pairing Sodium.paper) : Delivery :=
      { data := Crypto.recordWire p.hello ++ Crypto.recordWire p.confirm ++
          Crypto.recordWire (List.replicate headerBytes 6) }
    let first := host 7 4 2
    let second := host 8 9 3
    let acts : List (Act Sodium.paper) :=
      [.accept (eph 2) (.replicate headerBytes 1) true,
        .accept (eph 3) (.replicate headerBytes 2) true,
        .receive 0 (said first), .complete 0 {}, .receive 1 (said second), .complete 1 {}]
    (after me none (acts.take 4)).Pinned ∧
      (after me none (acts.take 4)).peerPk = some first.me.signPk.toList ∧
      (after me none acts).session.status = .pairedAndEncrypted ∧
      (after me none acts).peerPk = some second.me.signPk.toList ∧
      ¬ (after me none acts).Pinned := by
  decide +kernel

end Pairings

end TetherDisplay.Client
