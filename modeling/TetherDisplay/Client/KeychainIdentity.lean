import TetherDisplay.Client.Pinning

/-!
# The iPad's identity in the Keychain

The identity of the iPad is two items of the Keychain, the public key and the secret key.  A launch
of the app reads the two, and generates an identity and writes both if either is not found.  The
writes are apart, each may fail, and nothing looks at what has become of them.

The app goes by the presence of the items alone.  Two halves that do not belong together are an
identity to it like any other, which shows the one key and signs with the other.  They come about
where one of the two writes is lost and the half that it was to replace is still there: the launch
is `Torn`.  What is stored belongs together in all states of a run exactly when none of its
launches is torn (`identity_matches_iff`).  And since a pair that is there is not replaced as long
as it can be read, a torn launch is for good if all later reads work (`torn_permanent`).
-/

namespace TetherDisplay.Client

open Crypto (Sodium Identity PublicKey)

/-- The identity of the device, as bytes. -/
structure DeviceIdentity where
  signPublicKey : Bytes
  signSecretKey : Bytes
  deriving DecidableEq, Repr

/-- `generate`, with the pair that the library draws. -/
def DeviceIdentity.generate {S : Sodium} (id : Identity S) : DeviceIdentity :=
  ⟨id.signPk.toList, id.signSk.toList⟩

/-- The accounts of the service. -/
structure Keychain where
  selfPk : Option Bytes := none
  selfSk : Option Bytes := none
  peerPk : Option Bytes := none
  deriving DecidableEq, Repr

/-- A launch of the app: whether the reads of the two halves work, the identity that would be
generated, and what would become of the writes. -/
structure Launch (S : Sodium) where
  readPk : Bool := true
  readSk : Bool := true
  fresh : Identity S
  savePk : KeychainStore.WriteOutcome := {}
  saveSk : KeychainStore.WriteOutcome := {}

namespace KeychainStore

variable {S : Sodium} {k : Keychain} {l : Launch S}

/-- `loadOrCreateIdentity`: what is there if both halves are, and else a new one, written half by
half. -/
def loadOrCreateIdentity (k : Keychain) (l : Launch S) : DeviceIdentity × Keychain :=
  match read k.selfPk l.readPk, read k.selfSk l.readSk with
  | some pk, some sk => (⟨pk, sk⟩, k)
  | _, _ =>
      let id := DeviceIdentity.generate l.fresh
      (id, { k with selfPk := write k.selfPk id.signPublicKey l.savePk
                    selfSk := write k.selfSk id.signSecretKey l.saveSk })

/-- What a launch leaves of the Keychain. -/
def step (k : Keychain) (l : Launch S) : Keychain := (loadOrCreateIdentity k l).2

/-! ## A launch -/

/-- Both halves are found. -/
def Finds (k : Keychain) (l : Launch S) : Prop :=
  (read k.selfPk l.readPk).isSome ∧ (read k.selfSk l.readSk).isSome

instance (k : Keychain) (l : Launch S) : Decidable (Finds k l) :=
  inferInstanceAs (Decidable (_ ∧ _))

/-- The calls of the write put the value in its place. -/
def Lands (item : Option Bytes) (outcome : WriteOutcome) : Prop :=
  outcome.add = true ∧ (item.isSome → outcome.update = true)

instance (item : Option Bytes) (outcome : WriteOutcome) : Decidable (Lands item outcome) :=
  inferInstanceAs (Decidable (_ ∧ _))

/-- What a write leaves. -/
theorem write_eq (item : Option Bytes) (value : Bytes) (outcome : WriteOutcome) :
    write item value outcome = if Lands item outcome then some value else item := by
  obtain ⟨add, update⟩ := outcome
  cases item <;> cases add <;> cases update <;> rfl

/-- A launch finds what is there and can be read. -/
theorem finds_iff : Finds k l ↔
    ∃ pk sk, k.selfPk = some pk ∧ k.selfSk = some sk ∧ l.readPk = true ∧ l.readSk = true := by
  unfold Finds read
  cases k.selfPk <;> cases k.selfSk <;> cases l.readPk <;> cases l.readSk <;> simp

/-- An identity that is found is handed on, and nothing is written. -/
theorem load_found {pk sk : Bytes} (hpk : k.selfPk = some pk) (hsk : k.selfSk = some sk)
    (hreadPk : l.readPk = true) (hreadSk : l.readSk = true) :
    loadOrCreateIdentity k l = (⟨pk, sk⟩, k) := by
  simp only [loadOrCreateIdentity, read, hpk, hsk, hreadPk, hreadSk, if_true]

/-- **One that is not found is replaced**, whatever of it is there. -/
theorem load_created (h : ¬ Finds k l) :
    loadOrCreateIdentity k l = (DeviceIdentity.generate l.fresh, { k with
      selfPk := if Lands k.selfPk l.savePk then some l.fresh.signPk.toList else k.selfPk
      selfSk := if Lands k.selfSk l.saveSk then some l.fresh.signSk.toList else k.selfSk }) := by
  rw [← write_eq, ← write_eq]
  unfold loadOrCreateIdentity
  split
  · next pk sk hpk hsk => exact absurd ⟨by rw [hpk]; rfl, by rw [hsk]; rfl⟩ h
  · rfl

/-! ## Halves that belong together -/

/-- The public key is that of the secret key. -/
def Matches (S : Sodium) (pk sk : Bytes) : Prop :=
  ∃ h : sk.length = 64, pk = (S.signPublicKey ⟨sk, h⟩).toList

instance (pk sk : Bytes) : Decidable (Matches S pk sk) :=
  inferInstanceAs (Decidable (∃ _, _))

/-- The halves of an identity belong together. -/
theorem matches_identity (id : Identity S) : Matches S id.signPk.toList id.signSk.toList :=
  ⟨id.signSk.toList_length, by rw [id.signPk_eq]; rfl⟩

/-- What is stored is no identity, or one whose halves belong together. -/
def Whole (S : Sodium) (k : Keychain) : Prop :=
  ∀ pk ∈ k.selfPk, ∀ sk ∈ k.selfSk, Matches S pk sk

instance (k : Keychain) : Decidable (Whole S k) :=
  inferInstanceAs (Decidable (∀ pk ∈ _, ∀ sk ∈ _, _))

/-- **One of two writes is lost**, and the half that it was to replace is there and does not match
the other. -/
def Torn (k : Keychain) (l : Launch S) : Prop :=
  ¬ Finds k l ∧
    (¬ Lands k.selfPk l.savePk ∧ Lands k.selfSk l.saveSk ∧
        (∃ pk ∈ k.selfPk, ¬ Matches S pk l.fresh.signSk.toList) ∨
      Lands k.selfPk l.savePk ∧ ¬ Lands k.selfSk l.saveSk ∧
        (∃ sk ∈ k.selfSk, ¬ Matches S l.fresh.signPk.toList sk))

instance (k : Keychain) (l : Launch S) : Decidable (Torn k l) :=
  inferInstanceAs (Decidable (_ ∧ (_ ∧ _ ∧ (∃ pk ∈ _, _) ∨ _ ∧ _ ∧ (∃ sk ∈ _, _))))

/-- **One launch** keeps the halves together exactly when it is not torn. -/
theorem whole_step_iff (hwhole : Whole S k) (l : Launch S) :
    Whole S (step k l) ↔ ¬ Torn k l := by
  by_cases hfinds : Finds k l
  · obtain ⟨pk, sk, hpk, hsk, hreadPk, hreadSk⟩ := finds_iff.mp hfinds
    rw [step, load_found hpk hsk hreadPk hreadSk]
    exact iff_of_true hwhole fun htorn => htorn.1 hfinds
  · have hfresh := matches_identity l.fresh
    rw [step, load_created hfinds, Whole, Torn]
    by_cases hpk : Lands k.selfPk l.savePk <;> by_cases hsk : Lands k.selfSk l.saveSk
    · simp [hpk, hsk, hfresh]
    · simp [hpk, hsk, hfinds]
    · simp [hpk, hsk, hfinds]
    · simpa [hpk, hsk, Whole] using hwhole

/-- A launch has an identity whose halves belong together where the stored ones do. -/
theorem matches_load (hwhole : Whole S k) (l : Launch S) :
    Matches S (loadOrCreateIdentity k l).1.signPublicKey
      (loadOrCreateIdentity k l).1.signSecretKey := by
  by_cases hfinds : Finds k l
  · obtain ⟨pk, sk, hpk, hsk, hreadPk, hreadSk⟩ := finds_iff.mp hfinds
    rw [load_found hpk hsk hreadPk hreadSk]
    exact hwhole pk hpk sk hsk
  · rw [load_created hfinds]
    exact matches_identity l.fresh

/-! ## Launch after launch -/

/-- The launches of the app on a new device. -/
def after (launches : List (Launch S)) : Keychain := Runs.exec step {} launches

theorem whole_new : Whole S {} := fun _ h => by cases h

/-- **When the identity is one.**  In a run of launches, whatever becomes of the reads and the
writes, what is stored belongs together after each of them exactly when none is torn; and then
every launch has an identity whose halves belong together. -/
theorem identity_matches_iff (launches : List (Launch S)) :
    ((∀ front back, launches = front ++ back → Whole S (after front)) ↔
        Runs.Admits step (fun k l => ¬ Torn k l) {} launches) ∧
      (Runs.Admits step (fun k l => ¬ Torn k l) {} launches →
        ∀ front l back, launches = front ++ l :: back →
          Matches S (loadOrCreateIdentity (after front) l).1.signPublicKey
            (loadOrCreateIdentity (after front) l).1.signSecretKey) := by
  have hiff : (∀ front back, launches = front ++ back → Whole S (after front)) ↔
      Runs.Admits step (fun k l => ¬ Torn k l) {} launches :=
    Runs.forall_front_iff (P := Whole S) (Q := fun _ => True) (fun _ _ h => h)
      (fun (_ : Keychain) l _ hwhole => whole_step_iff hwhole l) trivial whole_new
  exact ⟨hiff, fun hadmits front l back hsplit =>
    matches_load (hiff.mpr hadmits front _ hsplit) l⟩

/-- Both reads of a launch work. -/
def Launch.Reads (l : Launch S) : Prop := l.readPk = true ∧ l.readSk = true

instance (l : Launch S) : Decidable (Launch.Reads l) := inferInstanceAs (Decidable (_ ∧ _))

/-- An identity that is there stays, as long as it can be read. -/
theorem identity_stays {pk sk : Bytes} (hpk : k.selfPk = some pk) (hsk : k.selfSk = some sk)
    {launches : List (Launch S)} (hreads : ∀ l ∈ launches, Launch.Reads l) :
    Runs.exec step k launches = k := by
  induction launches with
  | nil => rfl
  | cons l launches ih =>
      obtain ⟨⟨hreadPk, hreadSk⟩, hrest⟩ := List.forall_mem_cons.mp hreads
      rw [Runs.exec_cons, step, load_found hpk hsk hreadPk hreadSk]
      exact ih hrest

/-- **A torn launch is for good** as long as the reads of all later launches work.  It leaves two
halves that do not belong together, and these are the identity of every one of these launches.  (A
single launch whose reads fail may write a new pair over them.) -/
theorem torn_permanent (htorn : Torn k l) (later : List (Launch S))
    (hreads : ∀ l' ∈ later, Launch.Reads l') :
    ∃ pk sk, ¬ Matches S pk sk ∧
      ∀ front l' back, later = front ++ l' :: back →
        loadOrCreateIdentity (Runs.exec step (step k l) front) l' = (⟨pk, sk⟩, step k l) := by
  have hhalves : ∃ pk sk, ¬ Matches S pk sk ∧ (step k l).selfPk = some pk ∧
      (step k l).selfSk = some sk := by
    obtain ⟨hfinds, ⟨hpk, hsk, pk, hold, hnot⟩ | ⟨hpk, hsk, sk, hold, hnot⟩⟩ := htorn
    · refine ⟨pk, l.fresh.signSk.toList, hnot, ?_, ?_⟩
      · rw [step, load_created hfinds, if_neg hpk]
        exact hold
      · rw [step, load_created hfinds, if_pos hsk]
    · refine ⟨l.fresh.signPk.toList, sk, hnot, ?_, ?_⟩
      · rw [step, load_created hfinds, if_pos hpk]
      · rw [step, load_created hfinds, if_neg hsk]
        exact hold
  obtain ⟨pk, sk, hnot, hpk, hsk⟩ := hhalves
  refine ⟨pk, sk, hnot, ?_⟩
  rintro front l' back rfl
  obtain ⟨hfront, hback⟩ := List.forall_mem_append.mp hreads
  obtain ⟨hreadPk, hreadSk⟩ := hback l' List.mem_cons_self
  rw [identity_stays hpk hsk hfront]
  exact load_found hpk hsk hreadPk hreadSk

/-- The first write of the secret key is lost; at the next launch, which does not find it, the
update of the public key is. -/
theorem torn_permanent_lost :
    let id (n : ℕ) := Identity.ofSecret Sodium.paper (Sodium.arrOf 64 (n * 2 ^ 256))
    let first : Launch Sodium.paper := { fresh := id 5, saveSk := { add := false } }
    let second : Launch Sodium.paper := { fresh := id 7, savePk := { update := false } }
    let third : Launch Sodium.paper := { fresh := id 9 }
    ∃ pk sk, ¬ Matches Sodium.paper pk sk ∧
      loadOrCreateIdentity (after [first, second]) third = (⟨pk, sk⟩, after [first, second]) := by
  intro id first second third
  have htorn : Torn (after [first]) second := by decide +kernel
  obtain ⟨pk, sk, hnot, hlater⟩ := torn_permanent htorn [third]
    (fun l' hl' => by rw [List.mem_singleton.mp hl']; exact ⟨rfl, rfl⟩)
  exact ⟨pk, sk, hnot, hlater [] third [] rfl⟩

end KeychainStore

end TetherDisplay.Client
